import Mathlib.Data.List.Induction
import Mathlib.Tactic.SplitIfs

/-!
# Disjoint buffers

What an allocator is for: it hands out buffers that do not overlap, a buffer holds what was written to it, and it is
gone when it is freed. How the addresses are chosen, and what a new buffer holds, is left open.
-/

namespace KaworuOS.Lib

/-- A buffer and what it holds. -/
structure Buffer where
  addr : Nat
  bytes : List UInt8
  deriving DecidableEq, Repr

namespace Buffer

/-- The address lies in the buffer. -/
def Has (b : Buffer) (x : Nat) : Prop := b.addr ≤ x ∧ x < b.addr + b.bytes.length

instance (b : Buffer) (x : Nat) : Decidable (b.Has x) := inferInstanceAs (Decidable (_ ∧ _))

/-- The buffers do not overlap. -/
def Apart (b c : Buffer) : Prop := b.addr + b.bytes.length ≤ c.addr ∨ c.addr + c.bytes.length ≤ b.addr

instance (b c : Buffer) : Decidable (b.Apart c) := inferInstanceAs (Decidable (_ ∨ _))

/-- The buffer after a write of one byte to `x`. -/
def store (b : Buffer) (x : Nat) (v : UInt8) : Buffer :=
  if b.Has x then { b with bytes := b.bytes.set (x - b.addr) v } else b

variable {b c : Buffer} {x y : Nat} {v : UInt8}

@[simp] lemma store_addr : (b.store x v).addr = b.addr := by
  unfold store
  split_ifs
  · rfl
  · rfl

@[simp] lemma store_length : (b.store x v).bytes.length = b.bytes.length := by
  unfold store
  split_ifs
  · exact List.length_set ..
  · rfl

lemma Apart.store (h : b.Apart c) : (b.store x v).Apart (c.store x v) := by
  unfold Apart at *
  simpa using h

end Buffer

/-- The operations on buffers. -/
inductive BufOp
  | alloc (b : Buffer)
  | free (p : Nat)
  | write (x : Nat) (v : UInt8)
  deriving DecidableEq, Repr

/-- The buffers after an operation, or `none` if it is not one that an allocator and its callers may do. -/
def BufOp.apply (bs : List Buffer) : BufOp → Option (List Buffer)
  | alloc b => if b.bytes ≠ [] ∧ ∀ c ∈ bs, b.Apart c then some (b :: bs) else none
  | free p => if ∃ b ∈ bs, b.addr = p then some (bs.eraseP (fun b => b.addr = p)) else none
  | write x v => if ∃ b ∈ bs, b.Has x then some (bs.map (fun b => b.store x v)) else none

variable {bs bs' : List Buffer} {op : BufOp} {ops : List BufOp}

end KaworuOS.Lib
