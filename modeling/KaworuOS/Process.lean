import KaworuOS.Smp

/-!
# Processes (`core/process.c`)

A process is named by its address, and so is its queue `child_waiters`. The lists that thread nodes
through tasks and processes are lists of addresses here.
-/

namespace KaworuOS

/-- `ProcessState`. -/
inductive ProcessState
  | RUNNING
  | ZOMBIE
  deriving DecidableEq, Repr

/-- `Process`, without its name, its lock and the nodes of its lists. The flag `exiting` is
`Smp.exiting`, where the scheduler reads it. -/
structure Process where
  pid : Nat
  state : ProcessState
  parent : Nat
  children : List Nat
  threads : List Nat
  addressSpace : Nat
  files : Nat
  exitCode : Int
  deriving DecidableEq, Repr

/-- `intrusivelist_remove`. A node that is on no list has null neighbours, and then both ends of the
list become null. -/
def unlink (l : List Nat) (node : Nat) : List Nat := if node ∈ l then l.erase node else []

namespace Process

/-- `process_init`, on a block whose old content is `old`. -/
def init (old : Process) (pid as fdTable : Nat) : Process :=
  { old with
    pid := pid
    state := .RUNNING
    addressSpace := as
    threads := []
    children := []
    files := fdTable
    exitCode := 0 }

/-- `process_exit`, without `exiting`. -/
def exit (proc : Process) (exitCode : Int) : Process :=
  { proc with exitCode := exitCode, state := .ZOMBIE }

/-- `process_add_thread`. -/
def addThread (proc : Process) (thread : Nat) : Process :=
  { proc with threads := proc.threads ++ [thread] }

/-- `process_remove_thread`. -/
def removeThread (proc : Process) (thread : Nat) : Process :=
  { proc with threads := unlink proc.threads thread }

/-- `process_thread_count`. -/
def threadCount (proc : Process) : Nat := proc.threads.length

/-- `process_add_child`. -/
def addChild (parent : Process) (child : Nat) : Process :=
  { parent with children := parent.children ++ [child] }

/-- `process_remove_child`. -/
def removeChild (parent : Process) (child : Nat) : Process :=
  { parent with children := unlink parent.children child }

/-- `process_set_parent`. -/
def setParent (child : Process) (parent : Nat) : Process := { child with parent := parent }

end Process

end KaworuOS
