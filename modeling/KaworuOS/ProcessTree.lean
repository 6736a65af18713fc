import KaworuOS.Wait4

/-!
# Creation, exit and reaping of processes (`core/process_manager.c`, `syscall/sys_process.c`)

Every call runs as a whole. What the allocations of a call give is a parameter of it, and so is the old content of
the block for the new process.
-/

namespace KaworuOS
open Lib

/-- The processes, the blocks that `kalloc` has given out for them, and `pid_count`. -/
structure ProcessTree where
  family : Family
  live : List Nat
  pidCount : Nat

/-- What the calls inside of a creation give: `kalloc`, with the old content of the block, the table of descriptors,
the standard files, the address space, the stack, the mapping of the program and the task. Where the table is given up,
`tableFree` says that `fdtable_destroy` finds no open file in it. -/
structure Creation where
  proc : Except Errno Nat
  old : Process
  table : Except Errno Nat
  attached : Errno
  tableFree : Bool
  space : Except Errno Nat
  stack : Except Errno Nat
  mapped : Errno
  task : Except Errno Nat

namespace ProcessTree

def proc (s : ProcessTree) (p : Nat) : Process := s.family.proc p

def processes (s : ProcessTree) : List Nat := s.family.processes

def setProc (s : ProcessTree) (p : Nat) (proc : Process) : ProcessTree := { s with family := s.family.setProc p proc }

def setProcesses (s : ProcessTree) (processes : List Nat) : ProcessTree :=
  { s with family := { s.family with processes := processes } }

/-- `kalloc` of a process. -/
def kalloc (s : ProcessTree) (p : Nat) (old : Process) : ProcessTree :=
  { s with live := p :: s.live }.setProc p old

/-- `kfree` of a process. -/
def kfree (s : ProcessTree) (p : Nat) : ProcessTree := { s with live := s.live.erase p }

/-- `process_init` with the next `pid_count`. -/
def init (s : ProcessTree) (p space table : Nat) : ProcessTree :=
  { s with pidCount := s.pidCount + 1 }.setProc p ((s.proc p).init s.pidCount space table)

/-- `intrusivelist_insert_tail` into `process_list`. -/
def insert (s : ProcessTree) (p : Nat) : ProcessTree := s.setProcesses (s.processes ++ [p])

/-- `process_add_thread`. -/
def addThread (s : ProcessTree) (p thread : Nat) : ProcessTree := s.setProc p ((s.proc p).addThread thread)

end ProcessTree

open ProcessTree

/-- `proc_manager_create_impl`. -/
def procManagerCreateImpl (a : Creation) (s : ProcessTree) : Except Halt (Except Errno Nat × ProcessTree) :=
  match a.proc with
  | .error e => .ok (.error e, s)
  | .ok proc =>
    let s := s.kalloc proc a.old
    match a.table with
    | .error _ => .ok (.error .ENOMEM, s.kfree proc)
    | .ok table =>
      if a.attached ≠ .EOK then do
        assertThat a.tableFree
        return (.error .EMFILE, s.kfree proc)
      else
        match a.space with
        | .error _ => do
          assertThat a.tableFree
          return (.error .ENOMEM, s.kfree proc)
        | .ok space => .ok (.ok proc, (s.init proc space table).insert proc)

/-- `proc_manager_create`. -/
def procManagerCreate (a : Creation) (s : ProcessTree) : Except Halt (Except Errno Nat × ProcessTree) :=
  procManagerCreateImpl a s

/-- `proc_manager_create_exec`. Where it gives up, the process stays in `process_list`. -/
def procManagerCreateExec (a : Creation) (s : ProcessTree) : Except Halt (Except Errno Nat × ProcessTree) := do
  let (proc, s) ← procManagerCreateImpl a s
  match proc with
  | .error e => return (.error e, s)
  | .ok proc =>
    match a.stack with
    | .error _ => return (.error .ENOMEM, s.kfree proc)
    | .ok _ =>
      if a.mapped ≠ .EOK then return (.error .ENOMEM, s.kfree proc)
      else
        match a.task with
        | .error _ => return (.error .ENOMEM, s.kfree proc)
        | .ok task => return (.ok proc, s.addThread proc task)

/-- `proc_manager_create_exec_from`. -/
def procManagerCreateExecFrom (a : Creation) (s : ProcessTree) : Except Halt (Except Errno Nat × ProcessTree) :=
  match a.proc with
  | .error e => .ok (.error e, s)
  | .ok dst =>
    let s := s.kalloc dst a.old
    match a.table with
    | .error _ => .ok (.error .ENOMEM, s.kfree dst)
    | .ok table =>
      match a.space with
      | .error _ => do
        assertThat a.tableFree
        return (.error .ENOMEM, s.kfree dst)
      | .ok space =>
        let s := s.init dst space table
        match a.task with
        | .error _ => .ok (.error .ENOMEM, s.kfree dst)
        | .ok task => .ok (.ok dst, (s.insert dst).addThread dst task)

/-- `proc_manager_create_exec_child_from`, which does not look at the outcome of the creation before it takes the lock
of the child. -/
def procManagerCreateExecChildFrom (parent : Nat) (a : Creation) (s : ProcessTree) :
    Except Halt (Nat × ProcessTree) := do
  let (child, s) ← procManagerCreateExecFrom a s
  match child with
  | .error _ => .error .fault
  | .ok child =>
    let s := s.setProc parent ((s.proc parent).addChild child)
    return (child, s.setProc child ((s.proc child).setParent parent))

/-- `sys_exit`, up to `task_exit`, with the parent whose waiters it wakes. -/
def sysExit (p : Nat) (status : Int) (s : ProcessTree) : Except Halt (Nat × ProcessTree) := do
  let s := s.setProc p ((s.proc p).exit status)
  let parent := (s.proc p).parent
  assertThat (parent ≠ 0)
  if parent ∈ s.live then return (parent, s) else .error .fault

/-- `sys_getppid`. -/
def sysGetppid (p : Nat) (s : ProcessTree) : Except Halt Int :=
  let parent := (s.proc p).parent
  if parent = 0 then .ok 0
  else if parent ∈ s.live then .ok (castI64 (s.proc parent).pid)
  else .error .fault

/-- A turn of `sys_wait4`, with the blocks that it frees. -/
def ProcessTree.wait4 (p table status : Nat) (s : ProcessTree) : Except Halt (Wait4Result × ProcessTree) :=
  match sysWait4 p table status { s.family with freed := [] } with
  | (.error e, _) => .error e
  | (.ok r, family) => .ok (r, { s with family := family, live := s.live.filter (fun q => q ∉ family.freed) })

end KaworuOS
