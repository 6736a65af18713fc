import KaworuOS.Process

/-!
# Exit, cleanup and `wait4` on several CPUs

The three agents that take a process apart: the task that exits (`sys_exit`, `task_exit`), the
cleanup tasks (`task_cleanup`) and the parent (`sys_wait4`, `proc_manager_remove_destroy`). A system
call runs with interrupts off; a kernel task can be preempted anywhere.
-/

namespace KaworuOS

/-- What a task does next. -/
inductive LifePc
  /-- In user mode, or in the body of a kernel task. -/
  | user
  /-- At the head of the loop of `sys_wait4`. -/
  | loop
  /-- In the scan of the children, with those that are left. -/
  | scan (rest : List Nat) (hasChildren : Bool)
  /-- Before `waitqueue_enqueue`. -/
  | enqueue
  /-- Before `scheduler_block_current`. -/
  | block
  /-- Marked as blocked, before `scheduler_switch`. -/
  | switch
  /-- In `proc_manager_remove_destroy`. -/
  | reap (child : Nat)
  | dropSpace (child : Nat)
  | dropFiles (child : Nat)
  | free (child : Nat)
  /-- In `sys_exit`, before `scheduler_wake_all`. -/
  | wake
  /-- In `task_exit`. -/
  | exit
  | setDead
  | yield
  /-- Never to run again. -/
  | gone
  /-- In the loop of `task_cleanup`. -/
  | find
  | rest
  | remove (dead : Nat)
  | removeThread (dead : Nat)
  | lastThread (dead : Nat)
  | destroySpace (dead : Nat)
  | clearSpace (dead : Nat)
  | destroy (dead : Nat)
  deriving DecidableEq, Repr

/-- Where a CPU is in `scheduler_switch`. -/
inductive Phase
  /-- Outside. -/
  | run
  /-- Before the choice of the next task. -/
  | pick
  /-- The next task is current, and the CPU is still on the stack of `prev`. -/
  | leave (prev : Nat)
  deriving DecidableEq, Repr

/-- The tasks, the processes and what has been done to them: `removed` and `destroyed` are the tasks
that were given to `task_manager_remove_task` and `task_destroy`, `spaces` and `tables` what was given
to `address_space_destroy` and `fdtable_destroy`, and `freed` are the processes given to `kfree`. -/
structure Life where
  smp : Smp
  phase : Nat → Phase
  pc : Nat → LifePc
  tasks : List Nat
  proc : Nat → Process
  processes : List Nat
  removed : List Nat
  destroyed : List Nat
  spaces : List Nat
  tables : List Nat
  freed : List Nat

namespace Life

def setPc (s : Life) (t : Nat) (pc : LifePc) : Life := { s with pc := Function.update s.pc t pc }

def setPhase (s : Life) (c : Nat) (phase : Phase) : Life := { s with phase := Function.update s.phase c phase }

def setProc (s : Life) (p : Nat) (proc : Process) : Life := { s with proc := Function.update s.proc p proc }

/-- The first half of `scheduler_switch`. -/
def beginSwitch (s : Life) (c : Nat) : Except Halt Life := do
  let smp ← s.smp.putBackPrev c
  .ok ({ s with smp := smp }.setPhase c .pick)

/-- The second half of `scheduler_switch`, up to the switch of contexts. -/
def endSwitch (s : Life) (c : Nat) : Except Halt Life := do
  let (next, smp) := s.smp.schedulerPickNext c
  let smp ← smp.switchTo c (s.smp.current c) next
  .ok ({ s with smp := smp }.setPhase c
    (if s.smp.current c = next ∨ s.smp.current c = 0 then .run else .leave (s.smp.current c)))

/-- `switch_address_space` reads the table of the address space of a task. -/
def spaceIsThere (s : Life) (t : Nat) : Bool :=
  decide (t = 0) || decide ((s.smp.task t).process = 0) ||
    decide ((s.proc (s.smp.task t).process).addressSpace ≠ 0)

/-- `switch_address_space` and `context_switch`. -/
def contextSwitch (s : Life) (c prev : Nat) : Except Halt Life :=
  if s.spaceIsThere prev && s.spaceIsThere (s.smp.current c) then .ok (s.setPhase c .run)
  else .error .fault

/-- `process_exit`. -/
def exitProcess (s : Life) (p : Nat) (exitCode : Int) : Life :=
  { s with smp := { s.smp with exiting := Function.update s.smp.exiting p true } }.setProc p
    ((s.proc p).exit exitCode)

/-- A round of the scan of `sys_wait4`. `copied` says whether `copy_to_user_u64` succeeds. -/
def lookAt (s : Life) (cur p child : Nat) (rest : List Nat) (copied : Bool) : Life :=
  if (s.proc child).state = .ZOMBIE then
    (s.setProc p ((s.proc p).removeChild child)).setPc cur (if copied then .reap child else .user)
  else s.setPc cur (.scan rest true)

/-- `task_manager_find_dead_task`. -/
def findDeadTask (s : Life) : Option Nat := s.tasks.find? (fun t => (s.smp.task t).state = .DEAD)

/-- A round of `task_cleanup` up to `task_manager_remove_task`. A wait node is null when the task waits
for nothing. -/
def findStep (s : Life) (c : Nat) : Except Halt Life :=
  match s.findDeadTask with
  | none => .ok ({ s with smp := s.smp.setNeedsCleanup c false }.setPc (s.smp.current c) .rest)
  | some dead => do
    assertThat ((s.smp.task dead).waitingOn = 0)
    assertThat (dead ∉ s.smp.runQueue (s.smp.task dead).cpu)
    .ok (s.setPc (s.smp.current c) (.remove dead))

/-- The next step of the current task of `c`, or `none` when the kernel does not decide it. -/
def taskStep (s : Life) (c : Nat) (copied : Bool) : Option (Except Halt Life) :=
  let cur := s.smp.current c
  let p := (s.smp.task cur).process
  match s.pc cur with
  | .user | .gone => none
  -- `sys_wait4`
  | .loop => some (.ok (s.setPc cur (.scan (s.proc p).children false)))
  | .scan (child :: rest) _ => some (.ok (s.lookAt cur p child rest copied))
  | .scan [] true => some (.ok (s.setPc cur .enqueue))
  | .scan [] false => some (.ok (s.setPc cur .user))
  | .enqueue => some do
    let smp ← s.smp.waitqueueEnqueue p cur
    .ok ({ s with smp := smp }.setPc cur .block)
  | .block => some do
    let smp ← s.smp.blockCurrent c
    .ok ({ s with smp := smp }.setPc cur .switch)
  | .switch => some ((s.setPc cur .loop).beginSwitch c)
  -- `proc_manager_remove_destroy`
  | .reap child => some do
    assertThat ((s.proc child).state = .ZOMBIE)
    assertThat ((s.proc child).threads.length = 0)
    .ok ({ s with processes := unlink s.processes child }.setPc cur (.dropSpace child))
  | .dropSpace child => some (.ok (
    if (s.proc child).addressSpace ≠ 0 then
      { s with spaces := (s.proc child).addressSpace :: s.spaces }.setPc cur (.dropFiles child)
    else s.setPc cur (.dropFiles child)))
  | .dropFiles child => some (.ok (
    if (s.proc child).files ≠ 0 then
      { s with tables := (s.proc child).files :: s.tables }.setPc cur (.free child)
    else s.setPc cur (.free child)))
  | .free child => some (.ok ({ s with freed := child :: s.freed }.setPc cur .user))
  -- `sys_exit` and `task_exit`
  | .wake => some do
    assertThat ((s.proc p).parent ≠ 0)
    let smp ← s.smp.schedulerWakeAll (s.proc p).parent
    .ok ({ s with smp := smp }.setPc cur .exit)
  | .exit => some (.ok ({ s with smp := s.smp.setNeedsCleanup c true }.setPc cur .setDead))
  | .setDead => some (.ok ({ s with smp := s.smp.setState cur .DEAD }.setPc cur .yield))
  | .yield => some ((s.setPc cur .gone).beginSwitch c)
  -- `task_cleanup`
  | .find => some (s.findStep c)
  | .rest => some ((s.setPc cur .find).beginSwitch c)
  | .remove dead => some (.ok ({ s with tasks := unlink s.tasks dead, removed := dead :: s.removed }.setPc cur
      (if (s.smp.task dead).process = 0 then .destroy dead else .removeThread dead)))
  | .removeThread dead =>
    let proc := (s.smp.task dead).process
    some (.ok ((s.setProc proc ((s.proc proc).removeThread dead)).setPc cur (.lastThread dead)))
  | .lastThread dead =>
    let proc := (s.smp.task dead).process
    some (.ok (s.setPc cur
      (if s.smp.exiting proc ∧ (s.proc proc).threadCount = 0 then .destroySpace dead else .destroy dead)))
  | .destroySpace dead =>
    let proc := (s.smp.task dead).process
    some (.ok ({ s with spaces := (s.proc proc).addressSpace :: s.spaces }.setPc cur (.clearSpace dead)))
  | .clearSpace dead =>
    let proc := (s.smp.task dead).process
    some (.ok ((s.setProc proc { s.proc proc with addressSpace := 0 }).setPc cur (.destroy dead)))
  | .destroy dead => some (.ok ({ s with destroyed := dead :: s.destroyed }.setPc cur .find))

end Life

/-- The steps on CPU `c`. -/
inductive LifeOp
  /-- A process calls `wait4`. -/
  | wait4 (c : Nat)
  /-- A process calls `exit`. -/
  | exit (c : Nat) (status : Int)
  /-- The body of a kernel task returns to `task_trampoline`. -/
  | finish (c : Nat)
  /-- The kernel goes on. -/
  | go (c : Nat) (copied : Bool)
  | timer (c : Nat)
  | pick (c : Nat)
  | resume (c : Nat)
  deriving DecidableEq, Repr

namespace LifeOp

/-- The CPU of a step. -/
def cpu : LifeOp → Nat
  | wait4 c | exit c _ | finish c | go c _ | timer c | pick c | resume c => c

/-- The tasks whose process `scheduler_pick_next` looks at. -/
def examined (s : Smp) : List Nat → List Nat
  | [] => []
  | next :: rest => if s.isTaskProcessExiting next then next :: examined s rest else [next]

/-- The processes that a step of a task reads or writes. -/
def taskUses (s : Life) (c : Nat) : List Nat :=
  let cur := s.smp.current c
  let p := (s.smp.task cur).process
  match s.pc cur with
  | .loop | .enqueue | .exit => [p]
  | .scan (child :: _) _ => [p, child]
  | .wake => [p, (s.proc p).parent]
  | .reap child | .dropSpace child | .dropFiles child | .free child => [child]
  | .removeThread dead | .lastThread dead | .destroySpace dead | .clearSpace dead => [(s.smp.task dead).process]
  | _ => []

/-- The processes that a step reads or writes. -/
def uses (s : Life) : LifeOp → List Nat
  | wait4 _ | finish _ | timer _ => []
  | exit c _ => [(s.smp.task (s.smp.current c)).process]
  | go c _ => taskUses s c
  | pick c =>
    if s.smp.needsCleanup c then []
    else (examined s.smp (s.smp.runQueue c)).map (fun t => (s.smp.task t).process)
  | resume c =>
    match s.phase c with
    | .leave prev => [(s.smp.task prev).process, (s.smp.task (s.smp.current c)).process]
    | _ => []

/-- The outcome of a step on memory that is there, or `none` for a step that the CPU is not at. -/
def act (s : Life) : LifeOp → Option (Except Halt Life)
  | wait4 c =>
    if s.phase c = .run ∧ s.pc (s.smp.current c) = .user ∧ (s.smp.task (s.smp.current c)).process ≠ 0 then
      some (.ok (s.setPc (s.smp.current c) .loop))
    else none
  | exit c status =>
    if s.phase c = .run ∧ s.pc (s.smp.current c) = .user ∧ (s.smp.task (s.smp.current c)).process ≠ 0 then
      some (.ok ((s.exitProcess (s.smp.task (s.smp.current c)).process status).setPc (s.smp.current c) .wake))
    else none
  | finish c =>
    if s.phase c = .run ∧ s.pc (s.smp.current c) = .user ∧ (s.smp.task (s.smp.current c)).process = 0 ∧
        s.smp.current c ≠ s.smp.idle c ∧ s.smp.current c ≠ 0 then
      some (.ok (s.setPc (s.smp.current c) .exit))
    else none
  | go c copied => if s.phase c = .run then s.taskStep c copied else none
  | timer c =>
    if s.phase c = .run ∧ ((s.smp.task (s.smp.current c)).process = 0 ∨ s.pc (s.smp.current c) = .user) then
      some (s.beginSwitch c)
    else none
  | pick c => if s.phase c = .pick then some (s.endSwitch c) else none
  | resume c =>
    match s.phase c with
    | .leave prev => some (s.contextSwitch c prev)
    | _ => none

/-- The outcome of a step. A use of a process that was freed is a fault. -/
def run (s : Life) (op : LifeOp) : Option (Except Halt Life) :=
  if (op.uses s).any (fun p => p ∈ s.freed) then some (.error .fault) else op.act s

end LifeOp

end KaworuOS
