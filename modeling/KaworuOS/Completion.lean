import KaworuOS.Smp

/-!
# Completions (`sync/completion.c`)

`completion_wait` marks its task as blocked in one section under the lock of the wait queue and puts
it on the queue in a second one. Between the sections, and before the switch, other CPUs may step
and interrupts may arrive; `completion_signal` may be called from one.
-/

namespace KaworuOS

/-- What a task does next. -/
inductive CompletionPc
  /-- Outside of `completion_wait`. -/
  | user
  /-- At the head of the loop. -/
  | wait (cm : Nat)
  /-- Marked as blocked, before `waitqueue_enqueue`. -/
  | enqueue (cm : Nat)
  /-- On the wait queue, before `scheduler_switch`. -/
  | switch (cm : Nat)
  deriving DecidableEq, Repr

/-- The tasks and the completions, by their addresses. A CPU is `switching` between the two halves of
`scheduler_switch`. -/
structure Completions where
  smp : Smp
  switching : Nat → Bool
  pc : Nat → CompletionPc
  done : Nat → Bool

/-- The loop of `completion_signal` over the tasks that it dequeues. -/
def signalLoop (cm : Nat) : List Nat → Smp → Except Halt Smp
  | [], s => .ok s
  | task :: rest, s => do
    let s := (s.setWaitQueue cm rest).setWaitingOn task 0
    let s ← s.schedulerWakeBlocked task
    signalLoop cm rest s

namespace Completions

def setPc (s : Completions) (t : Nat) (pc : CompletionPc) : Completions :=
  { s with pc := Function.update s.pc t pc }

def setSwitching (s : Completions) (c : Nat) (v : Bool) : Completions :=
  { s with switching := Function.update s.switching c v }

def setDone (s : Completions) (cm : Nat) (v : Bool) : Completions :=
  { s with done := Function.update s.done cm v }

/-- The first section of `completion_wait`. -/
def checkDone (s : Completions) (c cm : Nat) : Completions :=
  let cur := s.smp.current c
  if s.done cm then s.setPc cur .user
  else { s with smp := s.smp.setState cur .BLOCKED }.setPc cur (.enqueue cm)

/-- The second section of `completion_wait`. -/
def enqueueCurrent (s : Completions) (c cm : Nat) : Except Halt Completions := do
  let smp ← s.smp.waitqueueEnqueue cm (s.smp.current c)
  .ok ({ s with smp := smp }.setPc (s.smp.current c) (.switch cm))

/-- `completion_signal`. -/
def completionSignal (s : Completions) (cm : Nat) : Except Halt Completions := do
  assertThat (s.done cm = false)
  let smp ← signalLoop cm (s.smp.waitQueue cm) s.smp
  .ok ({ s with smp := smp }.setDone cm true)

/-- `completion_reset`. -/
def completionReset (s : Completions) (cm : Nat) : Completions := s.setDone cm false

/-- The first half of `scheduler_switch` on `c`. -/
def beginSwitch (s : Completions) (c : Nat) : Except Halt Completions := do
  let smp ← s.smp.putBackPrev c
  .ok ({ s with smp := smp }.setSwitching c true)

/-- The second half of `scheduler_switch` on `c`. -/
def endSwitch (s : Completions) (c : Nat) : Except Halt Completions := do
  let smp ← s.smp.switchToNext c
  .ok ({ s with smp := smp }.setSwitching c false)

end Completions

/-- The steps on CPU `c`. -/
inductive CompletionOp
  | call (c cm : Nat)
  | check (c : Nat)
  | enqueue (c : Nat)
  | leave (c : Nat)
  | signal (c cm : Nat)
  | reset (c cm : Nat)
  | timer (c : Nat)
  | pick (c : Nat)
  deriving DecidableEq, Repr

/-- The CPU of a step. -/
def CompletionOp.cpu : CompletionOp → Nat
  | call c _ | check c | enqueue c | leave c | signal c _ | reset c _ | timer c | pick c => c

/-- The outcome of a step, or `none` for a step that the current task is not at. -/
def CompletionOp.run (s : Completions) : CompletionOp → Option (Except Halt Completions)
  | call c cm => if s.pc (s.smp.current c) = .user then some (.ok (s.setPc (s.smp.current c) (.wait cm))) else none
  | check c =>
    match s.pc (s.smp.current c) with
    | .wait cm => some (.ok (s.checkDone c cm))
    | _ => none
  | enqueue c =>
    match s.pc (s.smp.current c) with
    | .enqueue cm => some (s.enqueueCurrent c cm)
    | _ => none
  | leave c =>
    match s.pc (s.smp.current c) with
    | .switch cm => some ((s.setPc (s.smp.current c) (.wait cm)).beginSwitch c)
    | _ => none
  | signal _ cm => some (s.completionSignal cm)
  | reset _ cm => some (.ok (s.completionReset cm))
  | timer c => some (s.beginSwitch c)
  | pick c => some (s.endSwitch c)

end KaworuOS
