import KaworuOS.Scheduler

/-!
# Scheduling on several CPUs (`sched/scheduler.c`, `sync/wait_queue.c`, `sync/run_queue.c`)

Every CPU has a current task and a run queue of its own; tasks and wait queues are shared. CPUs are
named by the address of their `Cpu`. The functions are those that run on one CPU, but queues are
lists here. A section under a spinlock is one step, so that the locks themselves do not occur.
-/

namespace KaworuOS

/-- The tasks and the CPUs. -/
structure Smp where
  task : Nat → Task
  exiting : Nat → Bool
  current : Nat → Nat
  idle : Nat → Nat
  cleanupTask : Nat → Nat
  needsCleanup : Nat → Bool
  runQueue : Nat → List Nat
  waitQueue : Nat → List Nat

namespace Smp

def setTask (s : Smp) (t : Nat) (fields : Task) : Smp := { s with task := Function.update s.task t fields }

/-- `task->state = state`. -/
def setState (s : Smp) (t : Nat) (state : TaskState) : Smp := s.setTask t { s.task t with state := state }

/-- `task->waiting_on = wq`. -/
def setWaitingOn (s : Smp) (t wq : Nat) : Smp := s.setTask t { s.task t with waitingOn := wq }

def setRunQueue (s : Smp) (c : Nat) (queue : List Nat) : Smp :=
  { s with runQueue := Function.update s.runQueue c queue }

def setWaitQueue (s : Smp) (wq : Nat) (queue : List Nat) : Smp :=
  { s with waitQueue := Function.update s.waitQueue wq queue }

/-- `cpu->current = task`. -/
def setCurrent (s : Smp) (c t : Nat) : Smp := { s with current := Function.update s.current c t }

/-- `cpu->needs_cleanup = v`. -/
def setNeedsCleanup (s : Smp) (c : Nat) (v : Bool) : Smp :=
  { s with needsCleanup := Function.update s.needsCleanup c v }

/-- `runqueue_enqueue`. -/
def runqueueEnqueue (s : Smp) (c t : Nat) : Except Halt Smp := do
  assertThat ((s.task t).state = .READY)
  .ok (s.setRunQueue c (s.runQueue c ++ [t]))

/-- `waitqueue_enqueue`. -/
def waitqueueEnqueue (s : Smp) (wq t : Nat) : Except Halt Smp := do
  assertThat ((s.task t).state ≠ .READY)
  .ok ((s.setWaitQueue wq (s.waitQueue wq ++ [t])).setWaitingOn t wq)

/-- `waitqueue_dequeue`. -/
def waitqueueDequeue (s : Smp) (wq : Nat) : Nat × Smp :=
  match s.waitQueue wq with
  | [] => (0, s)
  | t :: rest => (t, (s.setWaitQueue wq rest).setWaitingOn t 0)

/-- `scheduler_enqueue`. -/
def schedulerEnqueue (s : Smp) (t : Nat) : Except Halt Smp := do
  assertThat ((s.task t).cpu ≠ 0)
  assertThat ((s.task t).state ≠ .RUNNING)
  assertThat ((s.task t).state ≠ .BLOCKED)
  assertThat ((s.task t).waitingOn = 0)
  runqueueEnqueue ((s.setWaitingOn t 0).setState t .READY) (s.task t).cpu t

/-- `scheduler_wake_blocked`. -/
def schedulerWakeBlocked (s : Smp) (blocked : Nat) : Except Halt Smp :=
  if blocked = 0 then .ok s
  else do
    assertThat ((s.task blocked).state = .BLOCKED)
    assertThat ((s.task blocked).waitingOn = 0)
    schedulerEnqueue (s.setState blocked .READY) blocked

/-- The loop of `scheduler_wake_all` over the tasks that it dequeues. -/
def wakeAllLoop (wq : Nat) : List Nat → Smp → Except Halt Smp
  | [], s => .ok s
  | blocked :: rest, s => do
    let s := (s.setWaitQueue wq rest).setWaitingOn blocked 0
    assertThat ((s.task blocked).state = .BLOCKED)
    assertThat ((s.task blocked).waitingOn = 0 ∨ (s.task blocked).waitingOn = wq)
    let s ← schedulerEnqueue (s.setState blocked .READY) blocked
    wakeAllLoop wq rest s

/-- `scheduler_wake_all`. -/
def schedulerWakeAll (s : Smp) (wq : Nat) : Except Halt Smp := wakeAllLoop wq (s.waitQueue wq) s

/-- `scheduler_block_current` before its `scheduler_switch`. -/
def blockCurrent (s : Smp) (c : Nat) : Except Halt Smp := do
  assertThat (s.current c ≠ 0)
  assertThat (s.current c ≠ s.idle c)
  assertThat ((s.task (s.current c)).cpu = c)
  assertThat ((s.task (s.current c)).state = .RUNNING)
  assertThat ((s.task (s.current c)).waitingOn ≠ 0)
  .ok (s.setState (s.current c) .BLOCKED)

/-- `is_task_process_exiting`. -/
def isTaskProcessExiting (s : Smp) (t : Nat) : Bool :=
  decide (t ≠ 0) && decide ((s.task t).process ≠ 0) && s.exiting (s.task t).process

/-- The loop of `scheduler_pick_next` over the run queue. -/
def pickNextLoop (c : Nat) : List Nat → Smp → Nat × Smp
  | [], s => (s.idle c, s.setRunQueue c [])
  | next :: rest, s =>
    if s.isTaskProcessExiting next then
      pickNextLoop c rest (((s.setRunQueue c rest).setState next .DEAD).setNeedsCleanup c true)
    else (next, s.setRunQueue c rest)

/-- `scheduler_pick_next`. -/
def schedulerPickNext (s : Smp) (c : Nat) : Nat × Smp :=
  if s.needsCleanup c then (s.cleanupTask c, s) else pickNextLoop c (s.runQueue c) s

/-- The first half of `scheduler_switch`: a task that can go on running is put back on the run
queue. -/
def putBackPrev (s : Smp) (c : Nat) : Except Halt Smp :=
  let prev := s.current c
  if prev = 0 then .ok s
  else do
    assertThat ((s.task prev).cpu = c)
    assertThat ((s.task prev).state ≠ .BLOCKED ∨ (s.task prev).waitingOn ≠ 0)
    assertThat ((s.task prev).state ≠ .READY ∨ (s.task prev).waitingOn = 0)
    if prev ≠ s.idle c ∧ prev ≠ s.cleanupTask c ∧ (s.task prev).state = .RUNNING then
      assertThat ((s.task prev).waitingOn = 0)
      assertThat ((s.task prev).cpu = c)
      runqueueEnqueue (s.setState prev .READY) c prev
    else .ok s

/-- `scheduler_switch` after its call of `scheduler_pick_next`, up to the switch of contexts. -/
def switchTo (s : Smp) (c prev next : Nat) : Except Halt Smp := do
  assertThat ((s.task next).cpu = c)
  assertThat ((s.task next).state = .READY ∨ next = s.idle c ∨ next = s.cleanupTask c)
  assertThat ((s.task next).waitingOn = 0)
  let s := (s.setState next .RUNNING).setCurrent c next
  if prev = next then
    assertThat (next = s.idle c ∨ (s.task next).state = .RUNNING)
    .ok s
  else if prev ≠ 0 then .ok s
  else do
    assertThat (next ≠ s.idle c ∨ s.runQueue c = [])
    .ok s

/-- The second half of `scheduler_switch`, with the task that `scheduler_pick_next` chooses. -/
def switchToNext (s : Smp) (c : Nat) : Except Halt Smp :=
  let (next, s') := s.schedulerPickNext c
  s'.switchTo c (s.current c) next

end Smp

end KaworuOS
