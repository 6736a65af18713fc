import KaworuOS.Base
import Mathlib.Algebra.BigOperators.Group.Finset.Basic
import Mathlib.Logic.Function.Basic

/-!
# Reference counters (`kernel/sync/refcount.c`)

Any number of threads call `refcount_get` and `refcount_put` on one counter. A step is an atomic load, an atomic
compare-exchange, which may fail for no reason, or what a thread does by itself between two of them. How many
references a thread holds is not in the code: it changes with the exchange that succeeds.
-/

namespace KaworuOS

open scoped BigOperators

/-- Where a thread is. The number of references after its exchange goes with a thread that is about to return from
`refcount_put`. -/
inductive RefPc
  /-- Outside of the calls. -/
  | user
  | getLoad
  /-- At the head of the loop of `refcount_get`. -/
  | getLoop (old : Nat)
  | putLoad
  /-- At the head of the loop of `refcount_put`. -/
  | putLoop (old : Nat)
  /-- Behind the loop of `refcount_put`. -/
  | putExit (old left : Nat)
  /-- At a failed `ASSERT`. -/
  | panicked
  deriving DecidableEq, Repr

/-- What a call of `refcount_put` has returned, whether it has called the cleanup function, and how many references
were left after its exchange. -/
structure PutResult where
  value : Int
  cleaned : Bool
  left : Nat
  deriving DecidableEq, Repr

/-- The counter and the threads. -/
structure Refcount (ι : Type) where
  count : Nat
  pc : ι → RefPc
  held : ι → Nat
  cleanups : Nat
  puts : List PutResult

/-- `atomic_compare_exchange_weak(&rc->count, &old, new)`: whether it succeeds, and the new `rc->count` and `old`. -/
def atomicCompareExchangeWeak (count old new : Nat) (spurious : Bool) : Bool × Nat × Nat :=
  if count = old ∧ ¬spurious then (true, new, old) else (false, count, count)

namespace Refcount

variable {ι : Type} [DecidableEq ι]

/-- `refcount_init`, called by `t`. -/
def refcountInit (t : ι) : Refcount ι where
  count := 1
  pc _ := .user
  held := Function.update (fun _ => 0) t 1
  cleanups := 0
  puts := []

def setPc (s : Refcount ι) (t : ι) (pc : RefPc) : Refcount ι := { s with pc := Function.update s.pc t pc }

def setHeld (s : Refcount ι) (t : ι) (n : Nat) : Refcount ι := { s with held := Function.update s.held t n }

def setCount (s : Refcount ι) (count : Nat) : Refcount ι := { s with count := count }

/-- A call of `refcount_put` returns. -/
def putReturn (s : Refcount ι) (t : ι) (r : PutResult) : Refcount ι := { s.setPc t .user with puts := r :: s.puts }

/-- The references that there are. -/
def total [Fintype ι] (s : Refcount ι) : Nat := ∑ t, s.held t

/-- One turn of the loop of `refcount_get`. -/
def refcountGetTurn (s : Refcount ι) (t : ι) (old : Nat) (spurious : Bool) : Refcount ι :=
  if old = UINT_MAX then s.setPc t .panicked
  else
    match atomicCompareExchangeWeak s.count old ((old + 1) % 2 ^ 32) spurious with
    | (true, count, _) => ((s.setCount count).setHeld t (s.held t + 1)).setPc t .user
    | (false, count, old) => (s.setCount count).setPc t (.getLoop old)

/-- One turn of the loop of `refcount_put`. -/
def refcountPutTurn [Fintype ι] (s : Refcount ι) (t : ι) (old : Nat) (spurious : Bool) : Refcount ι :=
  if old = 0 then s.putReturn t ⟨-Errno.ENOENT.code, false, s.total⟩
  else
    match atomicCompareExchangeWeak s.count old ((old + 2 ^ 32 - 1) % 2 ^ 32) spurious with
    | (true, count, old) =>
      let s := (s.setCount count).setHeld t (s.held t - 1)
      s.setPc t (.putExit old s.total)
    | (false, count, old) => (s.setCount count).setPc t (.putLoop old)

/-- What follows the loop of `refcount_put`. -/
def refcountPutExit (s : Refcount ι) (t : ι) (old left : Nat) : Refcount ι :=
  if old = 1 then { s.putReturn t ⟨0, true, left⟩ with cleanups := s.cleanups + 1 }
  else s.putReturn t ⟨((old + 2 ^ 32 - 1) % 2 ^ 32 : Nat), false, left⟩

end Refcount

/-- The steps of thread `t`. A reference may also be handed over. -/
inductive RefOp (ι : Type)
  | get (t : ι)
  | put (t : ι)
  | load (t : ι)
  | turn (t : ι) (spurious : Bool)
  | exit (t : ι)
  | hand (t u : ι)

/-- The thread is in a call of `refcount_get`. -/
def RefPc.inGet : RefPc → Bool
  | getLoad | getLoop _ => true
  | _ => false

/-- The thread is in a call of `refcount_put` that has not given up its reference yet. -/
def RefPc.inPut : RefPc → Bool
  | putLoad | putLoop _ => true
  | _ => false

variable {ι : Type} [DecidableEq ι] [Fintype ι]

/-- The state after a step, or `none` for a step that the thread is not at. A thread puts only a reference that it
holds, and hands over only one that it is not putting. -/
def RefOp.run (s : Refcount ι) : RefOp ι → Option (Refcount ι)
  | get t => if s.pc t = .user then some (s.setPc t .getLoad) else none
  | put t => if s.pc t = .user ∧ 0 < s.held t then some (s.setPc t .putLoad) else none
  | load t =>
    match s.pc t with
    | .getLoad => some (s.setPc t (.getLoop s.count))
    | .putLoad => some (s.setPc t (.putLoop s.count))
    | _ => none
  | turn t spurious =>
    match s.pc t with
    | .getLoop old => some (s.refcountGetTurn t old spurious)
    | .putLoop old => some (s.refcountPutTurn t old spurious)
    | _ => none
  | exit t =>
    match s.pc t with
    | .putExit old left => some (s.refcountPutExit t old left)
    | _ => none
  | hand t u =>
    if t ≠ u ∧ (s.pc t).inPut.toNat < s.held t then
      some ((s.setHeld t (s.held t - 1)).setHeld u (s.held u + 1))
    else none

end KaworuOS
