import KaworuOS.Elf
import KaworuOS.FdTable
import KaworuOS.Process

/-!
# The creation of processes (`core/process_manager.c`, `core/task_manager.c`, `core/task.c`)

The functions that create a process, with all that they take and give back: heap blocks, frames, files, the table of
descriptors, the address space and the task. A process, a table, an address space and a task are named by their heap
blocks. Names and locks are left out, and so are the fields of a task that are null for a task of a user.
-/

namespace KaworuOS
open Lib

/-- `INT64_MAX`. -/
abbrev INT64_MAX : Nat := 2 ^ 63 - 1

/-- `TASK_STACK_SIZE`. -/
abbrev TASK_STACK_SIZE : Nat := 2 ^ 16

/-- `USER_TASK_STACK_SIZE`. -/
abbrev USER_TASK_STACK_SIZE : Nat := 2 ^ 16

/-- `USER_PROGRAM_START_VM`. -/
abbrev USER_PROGRAM_START_VM : Nat := 0x400000

/-- `sizeof(ExceptionFrame)`. -/
abbrev EXCEPTION_FRAME_SIZE : Nat := 304

/-- `offsetof(ExceptionFrame, x0)`. -/
abbrev EXCEPTION_FRAME_X0 : Nat := 16

/-- Where a task goes on when it is switched to for the first time. -/
inductive Trampoline
  | taskTrampoline
  | userEntryTrampoline
  | childReturnTrampoline
  deriving DecidableEq, Repr

/-- The fields of `Task` that scheduling does not read, with `lr` and `sp` of its context. -/
structure Thread where
  tid : Nat
  stack : Nat
  lr : Trampoline
  sp : Nat
  entry : Nat
  userStack : Nat
  deriving DecidableEq, Repr

/-- What the creation of a process works on. `processes` and `pidCount` are those of the process manager, `tasks` and
`taskIdCount` those of the task manager, and `cpus` is what `cpu_foreach` goes through. -/
structure Spawning where
  mm : Mm
  file : Nat → File
  table : Nat → FDTable
  released : List Nat
  space : Nat → AddressSpace
  proc : Nat → Process
  processes : List Nat
  pidCount : Nat
  smp : Smp
  cpus : List Nat
  online : Nat → Bool
  thread : Nat → Thread
  tasks : List Nat
  taskIdCount : Nat

/-- Code that creates processes. -/
abbrev SpawnCall := Call Halt Spawning

namespace Spawning

/-- A call of the memory management. -/
def withMm {α : Type} (x : Kernel α) : SpawnCall α := fun s => ((x s.mm).1, { s with mm := (x s.mm).2 })

/-- The files and tables. -/
def files (s : Spawning) : Files := ⟨s.mm.heap, s.file, s.table, s.released⟩

def setFiles (s : Spawning) (f : Files) : Spawning :=
  { s with mm := { s.mm with heap := f.heap }, file := f.file, table := f.table, released := f.released }

/-- A call that works on files and tables. -/
def withFiles {α : Type} (x : FileCall α) : SpawnCall α := fun s => ((x s.files).1, s.setFiles (x s.files).2)

def setSpace (s : Spawning) (as : Nat) (space : AddressSpace) : Spawning :=
  { s with space := Function.update s.space as space }

/-- A call that works on an address space. -/
def withSpace {α : Type} (as : Nat) (x : AddressSpace → Kernel (α × AddressSpace)) : SpawnCall α := do
  let space ← Call.read (fun s => s.space as)
  let (r, space) ← withMm (x space)
  Call.update (fun s => s.setSpace as space)
  return r

def setProc (s : Spawning) (p : Nat) (proc : Process) : Spawning := { s with proc := Function.update s.proc p proc }

def setTask (s : Spawning) (t : Nat) (task : Task) : Spawning := { s with smp := s.smp.setTask t task }

def setThread (s : Spawning) (t : Nat) (thread : Thread) : Spawning :=
  { s with thread := Function.update s.thread t thread }

/-- The loop of `scheduler_pick_cpu`. -/
def pickCpuLoop (s : Spawning) : List Nat → Nat → Nat → Nat
  | [], bestCpu, _ => bestCpu
  | cpu :: rest, bestCpu, bestCount =>
    if s.online cpu ∧ (s.smp.runQueue cpu).length < bestCount then
      s.pickCpuLoop rest cpu (s.smp.runQueue cpu).length
    else s.pickCpuLoop rest bestCpu bestCount

/-- `scheduler_pick_cpu`. -/
def schedulerPickCpu : SpawnCall Nat := do
  let bestCpu ← Call.read (fun s => s.pickCpuLoop s.cpus 0 INT64_MAX)
  Call.lift (assertThat (bestCpu ≠ 0))
  return bestCpu

/-- `scheduler_enqueue`. -/
def schedulerEnqueue (task : Nat) : SpawnCall Unit := do
  let smp ← Call.read (fun s => s.smp)
  let smp ← Call.lift (smp.schedulerEnqueue task)
  Call.update (fun s => { s with smp := smp })

/-- `task_init`, for a task without an argument. -/
def taskInit (p task entry tid : Nat) : SpawnCall Errno := do
  Call.update (fun s => s.setThread task { s.thread task with tid := tid })
  let stack ← withMm kalloc
  Call.update (fun s => s.setThread task { s.thread task with stack := stack })
  if isErrValue stack then return .ENOMEM
  Call.update (fun s => s.setThread task { s.thread task with
    sp := wadd stack TASK_STACK_SIZE
    lr := .taskTrampoline
    entry := entry })
  Call.update (fun s => s.setTask task { s.smp.task task with
    process := p
    state := .READY
    waitingOn := 0
    sleepUntil := 0 })
  return .EOK

/-- `task_init_user`. -/
def taskInitUser (p task userEntry stack tid : Nat) : SpawnCall Errno := do
  let err ← taskInit p task 0 tid
  if err ≠ .EOK then return .ENOMEM
  let sp ← Call.read (fun s => (s.thread task).sp)
  let frame := wsub sp 16
  withMm (writeWord frame userEntry)
  withMm (writeWord (wadd frame 8) stack)
  Call.update (fun s => s.setThread task { s.thread task with
    userStack := stack
    lr := .userEntryTrampoline
    sp := frame })
  return .EOK

/-- `task_manager_create_user`. A task whose stack is missing is left to itself. -/
def taskManagerCreateUser (p userEntry userStack : Nat) : SpawnCall (Except Nat Nat) := do
  let cpu ← schedulerPickCpu
  let task ← withMm kalloc
  if isErrValue task then return .error (ptrToErr task)
  Call.update (fun s => s.setTask task { s.smp.task task with cpu := cpu })
  let tid ← Call.read (fun s => s.taskIdCount)
  Call.update (fun s => { s with taskIdCount := wadd s.taskIdCount 1 })
  let err ← taskInitUser p task userEntry userStack tid
  if err ≠ .EOK then return .error err.code
  Call.update (fun s => { s with tasks := s.tasks ++ [task] })
  return .ok task

/-- `task_manager_create_user_from`. -/
def taskManagerCreateUserFrom (p src srcFrame : Nat) : SpawnCall (Except Nat Nat) := do
  let thread ← Call.read (fun s => s.thread src)
  match ← taskManagerCreateUser p thread.entry thread.userStack with
  | .error err => return .error err
  | .ok dst => do
    if srcFrame = 0 then return .ok dst
    let stack ← Call.read (fun s => (s.thread dst).stack)
    let childFrame := wsub (wadd stack TASK_STACK_SIZE) EXCEPTION_FRAME_SIZE
    withMm (memcpy childFrame srcFrame EXCEPTION_FRAME_SIZE)
    withMm (writeWord (wadd childFrame EXCEPTION_FRAME_X0) 0)
    Call.update (fun s => s.setThread dst { s.thread dst with
      lr := .childReturnTrampoline
      sp := childFrame })
    return .ok dst

/-- `process_init` with the next `pid_count`. -/
def processInit (p as fdTable : Nat) : SpawnCall Unit := do
  let pid ← Call.read (fun s => s.pidCount)
  Call.update (fun s => { s.setProc p ((s.proc p).init pid as fdTable) with
    pidCount := wadd s.pidCount 1
    smp := { s.smp.setWaitQueue p [] with exiting := Function.update s.smp.exiting p false } })

/-- `process_add_thread` and `scheduler_enqueue`, with which the creations end. -/
def startTask (p task : Nat) : SpawnCall (Except Nat Nat) := do
  Call.update (fun s => s.setProc p ((s.proc p).addThread task))
  schedulerEnqueue task
  return .ok p

/-- `intrusivelist_insert_tail` into the list of processes. -/
def insertProcess (p : Nat) : SpawnCall Unit := Call.update (fun s => { s with processes := s.processes ++ [p] })

/-- `kfree` of a process whose table of descriptors goes with it. -/
def dropProcessAndTable (proc table : Nat) : SpawnCall Unit := do
  withMm (kfree proc)
  let _ ← withFiles (fdtableDestroy table)
  return ()

/-- `proc_manager_create_impl`. -/
def procManagerCreateImpl : SpawnCall (Except Nat Nat) := do
  let proc ← withMm kalloc
  if isErrValue proc then return .error (ptrToErr proc)
  match ← withFiles fdtableCreate with
  | .error _ => do
    withMm (kfree proc)
    return .error (Errno.code .ENOMEM)
  | .ok table => do
    let err ← withFiles (fdtableAttachStdFiles table)
    if err ≠ .EOK then
      dropProcessAndTable proc table
      return .error (Errno.code .EMFILE)
    match ← withMm addressSpaceCreate with
    | .error _ => do
      dropProcessAndTable proc table
      return .error (Errno.code .ENOMEM)
    | .ok as => do
      Call.update (fun s => s.setSpace as.self as)
      processInit proc as.self table
      insertProcess proc
      return .ok proc

/-- `proc_manager_create`. -/
def procManagerCreate : SpawnCall (Except Nat Nat) := procManagerCreateImpl

/-- `proc_manager_remove_destroy`. -/
def procManagerRemoveDestroy (p : Nat) : SpawnCall Unit := do
  let proc ← Call.read (fun s => s.proc p)
  Call.lift (assertThat (proc.state = .ZOMBIE))
  Call.lift (assertThat (proc.threads.length = 0))
  Call.update (fun s => { s with processes := unlink s.processes p })
  if proc.addressSpace ≠ 0 then
    let space ← Call.read (fun s => s.space proc.addressSpace)
    withMm (addressSpaceDestroy space)
  if proc.files ≠ 0 then
    let _ ← withFiles (fdtableCloseAll proc.files)
    let _ ← withFiles (fdtableDestroy proc.files)
  withMm (kfree p)

/-- `address_space_alloc` of the stack of a user task. -/
def allocStack (as : Nat) : SpawnCall Nat :=
  withSpace as fun space =>
    addressSpaceAlloc space USER_TASK_STACK_SIZE .EL1_READ_WRITE_EL0_READ_WRITE .NOT_EXECUTABLE

/-- A call of the loader. -/
def withLoader {α : Type} (x : Loader α) : SpawnCall α :=
  fun s => ((x ⟨s.mm, []⟩).1, { s with mm := (x ⟨s.mm, []⟩).2.mm })

/-- `proc_manager_create_exec_from_elf`. The result of `proc_manager_create` is used unchecked. -/
def procManagerCreateExecFromElf (elf : Mem) (elfSize : Nat) : SpawnCall (Except Nat Nat) := do
  match ← procManagerCreate with
  | .error _ => Call.halt .fault
  | .ok proc => do
    let as ← Call.read (fun s => (s.proc proc).addressSpace)
    let space ← Call.read (fun s => s.space as)
    let (result, space) ← withLoader (elfLoad elf elfSize space)
    Call.update (fun s => s.setSpace as space)
    match result with
    | .error err => do
      procManagerRemoveDestroy proc
      return .error err
    | .ok entry => do
      let ustack ← allocStack as
      if isErrValue ustack then
        procManagerRemoveDestroy proc
        return .error (Errno.code .ENOMEM)
      match ← taskManagerCreateUser proc entry (wadd ustack USER_TASK_STACK_SIZE) with
      | .error _ => do
        procManagerRemoveDestroy proc
        return .error (Errno.code .ENOMEM)
      | .ok task => startTask proc task

/-- `address_space_destroy` and `kfree`, with which a creation gives up. The table of descriptors and, where it has been
inserted already, the place in the list of processes stay. -/
def giveUp (proc as : Nat) : SpawnCall (Except Nat Nat) := do
  let space ← Call.read (fun s => s.space as)
  withMm (addressSpaceDestroy space)
  withMm (kfree proc)
  return .error (Errno.code .ENOMEM)

/-- `proc_manager_create_exec`. -/
def procManagerCreateExec (programPa programSize entry : Nat) : SpawnCall (Except Nat Nat) := do
  match ← procManagerCreateImpl with
  | .error err => return .error err
  | .ok proc => do
    let as ← Call.read (fun s => (s.proc proc).addressSpace)
    let ustack ← allocStack as
    if isErrValue ustack then giveUp proc as
    else
      let err ← withSpace as fun space => addressSpaceMapOwned space USER_PROGRAM_START_VM programPa programSize
        .EL1_READ_ONLY_EL0_READ_ONLY .EXECUTABLE
      if err ≠ 0 then giveUp proc as
      else
        match ← taskManagerCreateUser proc entry (wadd ustack USER_TASK_STACK_SIZE) with
        | .error _ => giveUp proc as
        | .ok task => startTask proc task

/-- `proc_manager_create_exec_from`. -/
def procManagerCreateExecFrom (srcProc srcTask srcFrame : Nat) : SpawnCall (Except Nat Nat) := do
  let src ← Call.read (fun s => s.proc srcProc)
  let dst ← withMm kalloc
  if isErrValue dst then return .error (ptrToErr dst)
  match ← withFiles (fdtableCreateFrom src.files) with
  | .error _ => do
    withMm (kfree dst)
    return .error (Errno.code .ENOMEM)
  | .ok table => do
    let srcSpace ← Call.read (fun s => s.space src.addressSpace)
    match ← withMm (addressSpaceCreateFrom srcSpace) with
    | .error _ => do
      dropProcessAndTable dst table
      return .error (Errno.code .ENOMEM)
    | .ok as => do
      Call.update (fun s => s.setSpace as.self as)
      processInit dst as.self table
      match ← taskManagerCreateUserFrom dst srcTask srcFrame with
      | .error _ => giveUp dst as.self
      | .ok task => do
        insertProcess dst
        startTask dst task

/-- `proc_manager_create_exec_child_from`. The result of the creation is used unchecked. -/
def procManagerCreateExecChildFrom (parent parentTask parentFrame : Nat) : SpawnCall (Except Nat Nat) := do
  match ← procManagerCreateExecFrom parent parentTask parentFrame with
  | .error _ => Call.halt .fault
  | .ok child => do
    Call.update (fun s => s.setProc parent ((s.proc parent).addChild child))
    Call.update (fun s => s.setProc child ((s.proc child).setParent parent))
    return .ok child

end Spawning

end KaworuOS
