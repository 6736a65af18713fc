import KaworuOS.Process
import KaworuOS.Uaccess

/-!
# The system call `wait4` (`kernel/syscall/sys_process.c`)

One turn of the loop of `sys_wait4`, for a parent with the page table `table`, from the scan of its
children to a return or to the block. What `proc_manager_remove_destroy` gives to
`address_space_destroy`, `fdtable_destroy` and `kfree` is noted only.
-/

namespace KaworuOS
open Lib

/-- The memory and the processes: `processes` is the list of the process manager, and `spaces`, `tables` and
`freed` are what has been destroyed. -/
structure Family where
  mm : Mm
  proc : Nat → Process
  processes : List Nat
  spaces : List Nat
  tables : List Nat
  freed : List Nat

namespace Family

def setProc (s : Family) (p : Nat) (proc : Process) : Family := { s with proc := Function.update s.proc p proc }

/-- Runs code of the memory management. -/
def onMm {α : Type} (x : Kernel α) : Call Halt Family α := fun s => ((x s.mm).1, { s with mm := (x s.mm).2 })

/-- `proc_manager_remove_destroy`. -/
def procManagerRemoveDestroy (child : Nat) : Call Halt Family Unit := do
  let proc ← Call.read (fun s => s.proc child)
  Call.lift (assertThat (proc.state = .ZOMBIE))
  Call.lift (assertThat (proc.threadCount = 0))
  Call.update (fun s => { s with
    processes := unlink s.processes child
    spaces := if proc.addressSpace ≠ 0 then proc.addressSpace :: s.spaces else s.spaces
    tables := if proc.files ≠ 0 then proc.files :: s.tables else s.tables
    freed := child :: s.freed })

end Family

/-- The cast of a `usize` to `i64`. -/
def castI64 (n : Nat) : Int := if n < 2 ^ 63 then n else n - 2 ^ 64

/-- The cast of an `i64` to `u64`. -/
def castU64 (x : Int) : Nat := (x % 2 ^ 64).toNat

/-- How a turn of the loop ends. -/
inductive Wait4Result
  | returned (ret : Int)
  /-- In `scheduler_block_current`. -/
  | blocked
  deriving DecidableEq, Repr

/-- What `sys_wait4` does with the first zombie among the children. -/
def wait4Reap (parent table status child : Nat) : Call Halt Family Wait4Result := do
  let proc ← Call.read (fun s => s.proc child)
  Call.update (fun s => s.setProc parent ((s.proc parent).removeChild child))
  let ret ← Family.onMm (copyToUserU64 table status (castU64 proc.exitCode))
  if ret ≠ Errno.EOK.code then return .returned (-Errno.EFAULT.code)
  Family.procManagerRemoveDestroy child
  return .returned (castI64 proc.pid)

/-- The scan of `sys_wait4`. -/
def wait4Scan (parent table status : Nat) : List Nat → Bool → Call Halt Family Wait4Result
  | [], hasChildren => return if hasChildren then .blocked else .returned (-Errno.ECHILD.code)
  | child :: rest, _ => do
    let proc ← Call.read (fun s => s.proc child)
    if proc.state = .ZOMBIE then wait4Reap parent table status child
    else wait4Scan parent table status rest true

/-- `sys_wait4`, up to a return or the block. After the block it begins again. -/
def sysWait4 (parent table status : Nat) : Call Halt Family Wait4Result := do
  let children ← Call.read (fun s => (s.proc parent).children)
  wait4Scan parent table status children false

end KaworuOS
