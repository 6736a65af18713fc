import KaworuOS.IntrusiveList
import Mathlib.Logic.Function.Basic

/-!
# The scheduler of one CPU (`sched/scheduler.c`, `sync/run_queue.c`, `sync/wait_queue.c`)

Tasks, wait queues and processes are named by their addresses; null is zero. The run queue links
the `runnable_node` of its tasks and every wait queue their `wait_node`. A switch ends the
operation that called it: what follows in the sources is run by the next task.
-/

namespace KaworuOS

/-- `TaskState`. -/
inductive TaskState
  | READY
  | RUNNING
  | BLOCKED
  | DEAD
  deriving DecidableEq, Repr

/-- The fields of `Task` that scheduling reads, without its list nodes. -/
structure Task where
  cpu : Nat
  state : TaskState
  waitingOn : Nat
  process : Nat
  sleepUntil : Nat
  deriving DecidableEq, Repr

/-- `RunQueue`. -/
structure RunQueue where
  locked : Bool
  runnables : IntrusiveList
  deriving DecidableEq, Repr

/-- `WaitQueue`. -/
structure WaitQueue where
  locked : Bool
  waiters : IntrusiveList
  deriving DecidableEq, Repr

/-- `Cpu`, with its own address and that of its queue of sleeping tasks. -/
structure Cpu where
  addr : Nat
  current : Nat
  idle : Nat
  cleanupTask : Nat
  needsCleanup : Bool
  runnableTasks : RunQueue
  sleepingTasks : Nat
  deriving DecidableEq, Repr

/-- What the scheduler works on. The list `tasks` is that of the task manager. -/
structure Sched where
  cpu : Cpu
  task : Nat → Task
  runnableNode : Nodes
  waitNode : Nodes
  waitQueue : Nat → WaitQueue
  exiting : Nat → Bool
  tasks : List Nat

namespace Sched

/-- Stores the fields of a task. -/
def setTask (s : Sched) (t : Nat) (fields : Task) : Sched :=
  { s with task := Function.update s.task t fields }

/-- `task->state = state`. -/
def setState (s : Sched) (t : Nat) (state : TaskState) : Sched :=
  s.setTask t { s.task t with state := state }

/-- `task->waiting_on = wq`. -/
def setWaitingOn (s : Sched) (t wq : Nat) : Sched :=
  s.setTask t { s.task t with waitingOn := wq }

/-- `task->sleep_until = tick`. -/
def setSleepUntil (s : Sched) (t tick : Nat) : Sched :=
  s.setTask t { s.task t with sleepUntil := tick }

/-- `cpu->current = task`. -/
def setCurrent (s : Sched) (t : Nat) : Sched := { s with cpu := { s.cpu with current := t } }

/-- `cpu->needs_cleanup = v`. -/
def setNeedsCleanup (s : Sched) (v : Bool) : Sched := { s with cpu := { s.cpu with needsCleanup := v } }

/-- Sets the lock of the run queue. -/
def setRunLock (s : Sched) (v : Bool) : Sched :=
  { s with cpu := { s.cpu with runnableTasks := { s.cpu.runnableTasks with locked := v } } }

/-- Sets the lock of a wait queue. -/
def setWaitLock (s : Sched) (wq : Nat) (v : Bool) : Sched :=
  { s with waitQueue := Function.update s.waitQueue wq { s.waitQueue wq with locked := v } }

/-- Stores the links of the run queue. -/
def setRunnables (s : Sched) (r : Nodes × IntrusiveList) : Sched :=
  { s with
    runnableNode := r.1
    cpu := { s.cpu with runnableTasks := { s.cpu.runnableTasks with runnables := r.2 } } }

/-- Stores the links of a wait queue. -/
def setWaiters (s : Sched) (wq : Nat) (r : Nodes × IntrusiveList) : Sched :=
  { s with
    waitNode := r.1
    waitQueue := Function.update s.waitQueue wq { s.waitQueue wq with waiters := r.2 } }

end Sched

/-- `spinlock_acquire` of the run queue's lock: on one CPU a taken lock is held by it. -/
def runqueueAcquire (s : Sched) : Except Halt Sched :=
  if s.cpu.runnableTasks.locked then .error .panic else .ok (s.setRunLock true)

/-- `spinlock_release` of the run queue's lock. -/
def runqueueRelease (s : Sched) : Except Halt Sched :=
  if s.cpu.runnableTasks.locked then .ok (s.setRunLock false) else .error .panic

/-- `spinlock_acquire` of a wait queue's lock. -/
def waitqueueAcquire (s : Sched) (wq : Nat) : Except Halt Sched :=
  if (s.waitQueue wq).locked then .error .panic else .ok (s.setWaitLock wq true)

/-- `spinlock_release` of a wait queue's lock. -/
def waitqueueRelease (s : Sched) (wq : Nat) : Except Halt Sched :=
  if (s.waitQueue wq).locked then .ok (s.setWaitLock wq false) else .error .panic

/-- `runqueue_enqueue_unlocked`. -/
def runqueueEnqueueUnlocked (s : Sched) (t : Nat) : Except Halt Sched := do
  assertThat ((s.task t).state = .READY)
  assertThat (s.cpu.runnableTasks.locked = true)
  .ok (s.setRunnables (intrusivelistInsertTail s.runnableNode s.cpu.runnableTasks.runnables t))

/-- `runqueue_enqueue`. -/
def runqueueEnqueue (s : Sched) (t : Nat) : Except Halt Sched := do
  assertThat ((s.task t).state = .READY)
  let s ← runqueueAcquire s
  let s ← runqueueEnqueueUnlocked s t
  runqueueRelease s

/-- `runqueue_dequeue_unlocked`. -/
def runqueueDequeueUnlocked (s : Sched) : Except Halt (Nat × Sched) := do
  assertThat (s.cpu.runnableTasks.locked = true)
  let (node, r) := intrusivelistRemoveHead s.runnableNode s.cpu.runnableTasks.runnables
  .ok (node, s.setRunnables r)

/-- `waitqueue_enqueue_unlocked`. -/
def waitqueueEnqueueUnlocked (s : Sched) (wq t : Nat) : Except Halt Sched := do
  assertThat ((s.task t).state ≠ .READY)
  assertThat ((s.waitQueue wq).locked = true)
  let s := s.setWaiters wq (intrusivelistInsertTail s.waitNode (s.waitQueue wq).waiters t)
  .ok (s.setWaitingOn t wq)

/-- `waitqueue_enqueue`. -/
def waitqueueEnqueue (s : Sched) (wq t : Nat) : Except Halt Sched := do
  let s ← waitqueueAcquire s wq
  let s ← waitqueueEnqueueUnlocked s wq t
  waitqueueRelease s wq

/-- `waitqueue_dequeue_unlocked`. -/
def waitqueueDequeueUnlocked (s : Sched) (wq : Nat) : Except Halt (Nat × Sched) := do
  assertThat ((s.waitQueue wq).locked = true)
  let (node, r) := intrusivelistRemoveHead s.waitNode (s.waitQueue wq).waiters
  let s := s.setWaiters wq r
  if node = 0 then .ok (0, s) else .ok (node, s.setWaitingOn node 0)

/-- `waitqueue_dequeue`. -/
def waitqueueDequeue (s : Sched) (wq : Nat) : Except Halt (Nat × Sched) := do
  let s ← waitqueueAcquire s wq
  let (t, s) ← waitqueueDequeueUnlocked s wq
  let s ← waitqueueRelease s wq
  .ok (t, s)

/-- `scheduler_enqueue`. There is one CPU, so a task of another one does not exist. -/
def schedulerEnqueue (s : Sched) (t : Nat) : Except Halt Sched := do
  assertThat ((s.task t).cpu ≠ 0)
  assertThat ((s.task t).state ≠ .RUNNING)
  assertThat ((s.task t).state ≠ .BLOCKED)
  assertThat ((s.task t).waitingOn = 0)
  if (s.task t).cpu ≠ s.cpu.addr then .error .fault
  else runqueueEnqueue ((s.setWaitingOn t 0).setState t .READY) t

/-- `is_task_process_exiting`. -/
def isTaskProcessExiting (s : Sched) (t : Nat) : Bool :=
  decide (t ≠ 0) && decide ((s.task t).process ≠ 0) && s.exiting (s.task t).process

/-- `scheduler_policy_pick_next`, with the round-robin policy. -/
def schedulerPolicyPickNext (s : Sched) : Except Halt (Nat × Sched) := do
  let s ← runqueueAcquire s
  assertThat (s.cpu.runnableTasks.locked = true)
  if intrusivelistIsEmpty s.cpu.runnableTasks.runnables then
    let s ← runqueueRelease s
    .ok (0, s)
  else
    let (next, s) ← runqueueDequeueUnlocked s
    let s ← runqueueRelease s
    .ok (next, s)

/-- The loop of `scheduler_pick_next`. -/
def pickNextLoop : Nat → Sched → Except Halt (Nat × Sched)
  | 0, _ => .error .hang
  | fuel + 1, s => do
    let (next, s) ← schedulerPolicyPickNext s
    if next = 0 then .ok (s.cpu.idle, s)
    else if isTaskProcessExiting s next then
      pickNextLoop fuel ((s.setState next .DEAD).setNeedsCleanup true)
    else .ok (next, s)

/-- `scheduler_pick_next`. -/
def schedulerPickNext (s : Sched) : Except Halt (Nat × Sched) :=
  if s.cpu.needsCleanup then .ok (s.cpu.cleanupTask, s) else pickNextLoop wordSize s

/-- The first half of `scheduler_switch`: a task that can go on running is put back on the run
queue. -/
def putBackPrev (s : Sched) : Except Halt Sched :=
  let prev := s.cpu.current
  if prev = 0 then .ok s
  else do
    assertThat ((s.task prev).cpu = s.cpu.addr)
    assertThat ((s.task prev).state ≠ .BLOCKED ∨ (s.task prev).waitingOn ≠ 0)
    assertThat ((s.task prev).state ≠ .READY ∨ (s.task prev).waitingOn = 0)
    if prev ≠ s.cpu.idle ∧ prev ≠ s.cpu.cleanupTask ∧ (s.task prev).state = .RUNNING then
      assertThat ((s.task prev).waitingOn = 0)
      assertThat ((s.task prev).cpu = s.cpu.addr)
      runqueueEnqueue (s.setState prev .READY) prev
    else .ok s

/-- `scheduler_cpu_has_runnable_tasks`. -/
def schedulerCpuHasRunnableTasks (s : Sched) : Except Halt Bool := do
  let s ← runqueueAcquire s
  assertThat (s.cpu.runnableTasks.locked = true)
  let _ ← runqueueRelease s
  .ok (decide (0 < intrusivelistCount s.cpu.runnableTasks.runnables))

/-- The second half of `scheduler_switch`, up to the switch of contexts. -/
def switchTo (s : Sched) (prev next : Nat) : Except Halt Sched := do
  assertThat ((s.task next).cpu = s.cpu.addr)
  assertThat ((s.task next).state = .READY ∨ next = s.cpu.idle ∨ next = s.cpu.cleanupTask)
  assertThat ((s.task next).waitingOn = 0)
  let s := (s.setState next .RUNNING).setCurrent next
  if prev = next then
    assertThat (next = s.cpu.idle ∨ (s.task next).state = .RUNNING)
    .ok s
  else if prev ≠ 0 then .ok s
  else if next ≠ s.cpu.idle then .ok s
  else
    assertThat ((← schedulerCpuHasRunnableTasks s) = false)
    .ok s

/-- `scheduler_switch`. -/
def schedulerSwitch (s : Sched) : Except Halt Sched := do
  let prev := s.cpu.current
  let s ← putBackPrev s
  let (next, s) ← schedulerPickNext s
  switchTo s prev next

/-- The `ASSERT`s with which `scheduler_sleep_current` and `scheduler_block_current` begin. -/
def assertCurrentMayBlock (s : Sched) : Except Halt Unit := do
  assertThat (s.cpu.current ≠ 0)
  assertThat (s.cpu.current ≠ s.cpu.idle)
  assertThat ((s.task s.cpu.current).cpu = s.cpu.addr)
  assertThat ((s.task s.cpu.current).state = .RUNNING)

/-- `task_comparator_sleep_until`. -/
def taskComparatorSleepUntil (s : Sched) (first second : Nat) : Bool :=
  decide ((s.task second).sleepUntil < (s.task first).sleepUntil)

/-- The part of `scheduler_sleep_current` between the `ASSERT`s and the switch, which holds the lock of the
queue of sleeping tasks. -/
def sleepEnqueue (s : Sched) (current now ticks : Nat) : Except Halt Sched := do
  let sleeping := s.cpu.sleepingTasks
  let s ← waitqueueAcquire s sleeping
  let s := s.setSleepUntil current (wadd now ticks)
  let r ← intrusivelistInsertSorted (taskComparatorSleepUntil s) s.waitNode
    (s.waitQueue sleeping).waiters current
  let s := ((s.setWaiters sleeping r).setWaitingOn current sleeping).setState current .BLOCKED
  waitqueueRelease s sleeping

/-- `scheduler_sleep_current`, at tick `now` and for `ticks` ticks. -/
def schedulerSleepCurrent (s : Sched) (now ticks : Nat) : Except Halt Sched := do
  assertCurrentMayBlock s
  let s ← sleepEnqueue s s.cpu.current now ticks
  schedulerSwitch s

/-- `scheduler_block_current`. -/
def schedulerBlockCurrent (s : Sched) : Except Halt Sched := do
  assertCurrentMayBlock s
  assertThat ((s.task s.cpu.current).waitingOn ≠ 0)
  schedulerSwitch (s.setState s.cpu.current .BLOCKED)

/-- `scheduler_wake_blocked`. -/
def schedulerWakeBlocked (s : Sched) (blocked : Nat) : Except Halt Sched :=
  if blocked = 0 then .ok s
  else do
    assertThat ((s.task blocked).state = .BLOCKED)
    assertThat ((s.task blocked).waitingOn = 0)
    schedulerEnqueue (s.setState blocked .READY) blocked

/-- The loop of `scheduler_wake_all`. -/
def wakeAllLoop (wq : Nat) : Nat → Sched → Except Halt Sched
  | 0, _ => .error .hang
  | fuel + 1, s => do
    let (blocked, s) ← waitqueueDequeueUnlocked s wq
    if blocked = 0 then .ok s
    else
      assertThat ((s.task blocked).state = .BLOCKED)
      assertThat ((s.task blocked).waitingOn = 0 ∨ (s.task blocked).waitingOn = wq)
      let s ← schedulerEnqueue (s.setState blocked .READY) blocked
      wakeAllLoop wq fuel s

/-- `scheduler_wake_all`. -/
def schedulerWakeAll (s : Sched) (wq : Nat) : Except Halt Sched := do
  let s ← waitqueueAcquire s wq
  let s ← wakeAllLoop wq wordSize s
  waitqueueRelease s wq

/-- The loop of `scheduler_wake_sleepers`, entered with the lock of the queue held. -/
def wakeSleepersLoop (now : Nat) : Nat → Nat → Sched → Except Halt Sched
  | 0, _, _ => .error .hang
  | fuel + 1, node, s =>
    let sleeping := s.cpu.sleepingTasks
    if node = 0 then .ok s
    else
      let next := (s.waitNode node).next
      if now < (s.task node).sleepUntil then .ok s
      else do
        let s := s.setWaiters sleeping (intrusivelistRemove s.waitNode (s.waitQueue sleeping).waiters node)
        let s := (s.setWaitingOn node 0).setSleepUntil node 0
        let s ← waitqueueRelease s sleeping
        let s ← schedulerWakeBlocked s node
        let s ← waitqueueAcquire s sleeping
        wakeSleepersLoop now fuel next s

/-- `scheduler_wake_sleepers`, at tick `now`. -/
def schedulerWakeSleepers (s : Sched) (now : Nat) : Except Halt Sched := do
  let sleeping := s.cpu.sleepingTasks
  let s ← waitqueueAcquire s sleeping
  let s ← wakeSleepersLoop now wordSize (intrusivelistPeekHead (s.waitQueue sleeping).waiters) s
  waitqueueRelease s sleeping

/-- `task_exit`, which also covers `task_manager_set_state`. -/
def taskExit (s : Sched) (t : Nat) : Except Halt Sched :=
  schedulerSwitch ((s.setNeedsCleanup true).setState t .DEAD)

/-- The scheduling fields that `task_init` sets for a task of `process` on this CPU. -/
def taskInit (s : Sched) (t process : Nat) : Sched :=
  { s with
    task := Function.update s.task t ⟨s.cpu.addr, .READY, 0, process, 0⟩
    runnableNode := intrusivelistNodeInit s.runnableNode t
    waitNode := intrusivelistNodeInit s.waitNode t }

/-- Creation of a task by the task manager, up to and with its `scheduler_enqueue`. -/
def createTask (s : Sched) (t process : Nat) : Except Halt Sched :=
  let s := taskInit s t process
  schedulerEnqueue { s with tasks := s.tasks ++ [t] } t

/-- The part of `process_exit` that the scheduler sees. -/
def processExit (s : Sched) (process : Nat) : Sched :=
  { s with exiting := Function.update s.exiting process true }

/-- One round of `task_cleanup`: it takes a dead task off the task manager's list, or goes to
sleep when there is none. -/
def taskCleanup (s : Sched) : Except Halt Sched :=
  match s.tasks.find? (fun t => (s.task t).state == .DEAD) with
  | none => schedulerSwitch (s.setNeedsCleanup false)
  | some dead => do
    assertThat ((s.task dead).waitingOn = 0)
    assertThat (intrusivelistNodeIsNull s.waitNode dead = true)
    assertThat (intrusivelistNodeIsNull s.runnableNode dead = true)
    .ok { s with tasks := s.tasks.erase dead }

/-- `common_cpu_init_tasks`, with the addresses of the two tasks that it creates. -/
def commonCpuInitTasks (s : Sched) (idle cleanupTask : Nat) : Sched :=
  let s := { s with
    cpu := { s.cpu with
      current := 0, idle := idle, cleanupTask := cleanupTask, needsCleanup := false,
      runnableTasks := ⟨false, intrusivelistInit⟩ }
    waitQueue := Function.update s.waitQueue s.cpu.sleepingTasks ⟨false, intrusivelistInit⟩ }
  taskInit (taskInit s idle 0) cleanupTask 0

end KaworuOS
