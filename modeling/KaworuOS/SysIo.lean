import KaworuOS.DebugLog
import KaworuOS.FdTable
import KaworuOS.Kheap
import KaworuOS.Uaccess

/-!
# System calls that write (`kernel/syscall/sys_io.c`, `kernel/syscall/syscall.c`, `fs/file.c`, `kernel/core/fd_table.c`)

`write` copies the bytes of the user into a buffer of the kernel heap and hands the buffer to the file. All parts work
on one memory, that of `mm`. A file and a table of descriptors are kept as structures, apart from the bytes of the heap.
The lines that a call prints to the log go to the same console.
-/

namespace KaworuOS
open Lib

/-- `ENOSYS`. -/
abbrev ENOSYS : Nat := 38

/-- What the calls work on: the memory, the free list of `kheap`, the files with their tables, and the console, whose
memory is that of `mm` while it runs. -/
structure Io where
  mm : Mm
  freelist : FreeList
  files : Files
  console : Console

/-- Code that runs on it. -/
abbrev IoCall := Call Halt Io

namespace Io

/-- The console as its functions see it. -/
def view (s : Io) : Console := { s.console with mem := s.mm.mem }

/-- A call that works on the memory of the user. -/
def withMm {α : Type} (x : Kernel α) : IoCall α := fun s => ((x s.mm).1, { s with mm := (x s.mm).2 })

/-- A call that works on files and tables. -/
def withFiles {α : Type} (x : FileCall α) : IoCall α := fun s => ((x s.files).1, { s with files := (x s.files).2 })

/-- A call of the console. -/
def withConsole {α : Type} (x : ConsoleCall α) : IoCall α := fun s =>
  ((x s.view).1, { s with console := (x s.view).2, mm := { s.mm with mem := (x s.view).2.mem } })

/-- The kernel heap. -/
def heap (s : Io) : KHeap := ⟨s.mm.mem, s.freelist⟩

def setHeap (s : Io) (heap : KHeap) : Io := { s with mm := { s.mm with mem := heap.mem }, freelist := heap.freelist }

/-- `kalloc`. -/
def kalloc (vm : HeapVm) (size : Nat) : IoCall (Except Errno Nat) := fun s =>
  match s.heap.kalloc vm size with
  | .ok (r, heap) => (.ok r, s.setHeap heap)
  | .error e => (.error e, s)

/-- `kfree`. -/
def kfree (ptr : Nat) : IoCall Unit := fun s =>
  match s.heap.kfree ptr with
  | .ok heap => (.ok (), s.setHeap heap)
  | .error e => (.error e, s)

/-- Prints lines to the log. -/
def logs (log : Logger) (lines : List LogLine) : IoCall Unit :=
  Call.each (fun line => withConsole (line.call log)) lines

end Io

/-- `file_mode_is_writable`. -/
def fileModeIsWritable (file : File) : Bool := decide (file.mode &&& FILE_MODE_WRITE ≠ 0)

/-- `std_write_op`. -/
def stdWriteOp (buf bufCount : Nat) : IoCall Int := do
  let _ ← Io.withConsole (consoleWrite (ioEventDefault buf bufCount))
  return bufCount

/-- `file->ops->write`, if neither pointer is null. -/
def writeOp (ops : Nat) : Option (Nat → Nat → IoCall Int) := if ops = STDWRITE_OPS then some stdWriteOp else none

/-- `file_write`. -/
def fileWrite (file buf count : Nat) : IoCall Int := do
  let f ← Io.withFiles (Files.deref Files.file file)
  if fileModeIsWritable f = false then return -(Errno.code .EBADF : Int)
  match writeOp f.ops with
  | none => return -(ENOSYS : Int)
  | some write => do
    let ret ← write buf count
    if 0 < ret then
      Io.withFiles (Call.update (fun s => s.setFile file { s.file file with offset := (s.file file).offset + ret }))
    return ret

/-- The process that makes a call: its page table and its table of descriptors. -/
structure Caller where
  table : Nat
  files : Nat
  deriving DecidableEq, Repr

/-- `SyscallReturn`. -/
structure SyscallReturn where
  ret : Int
  shouldResched : Bool
  deriving DecidableEq, Repr

/-- The lines that the functions which `sys_write` calls print to the log. They are printed before the function does
anything else. -/
structure CalleeLines where
  kalloc : List LogLine
  copyFromUser : List LogLine
  kfree : List LogLine

section Lines

variable (log : Logger)

/-- The `DEBUG` at the beginning of `sys_write`. -/
def writeLine (fd buf count : Nat) : LogLine :=
  DEBUG "sys_io.c" "__sys_write" 10 "SYS_WRITE: fd = %d buf = %p count = %d" [.i32 fd, .i64 buf, .i32 count]

/-- The `WARN` behind a failed `kalloc`. -/
def noMemoryLine (count : Nat) : LogLine :=
  WARN log "sys_io.c" "__sys_write" 19 "failed allocating while write syscall: %d" [.i32 count]

/-- The `WARN` behind a failed `copy_from_user`. -/
def noCopyLine (buf : Nat) : LogLine :=
  WARN log "sys_io.c" "__sys_write" 26 "failed copying from user while write syscall: %p" [.i64 buf]

/-- The `WARN` for a descriptor that is not open. -/
def noFileLine (fd : Nat) : LogLine := WARN log "sys_io.c" "__sys_write" 37 "no fd = %d found" [.i32 fd]

end Lines

/-- `sys_write`. -/
def sysWrite (log : Logger) (callees : CalleeLines) (vm : HeapVm) (proc : Caller) (fd buf count : Nat) :
    IoCall SyscallReturn := do
  Io.logs log [writeLine fd buf count]
  if count = 0 then return ⟨0, false⟩
  Io.logs log callees.kalloc
  match ← Io.kalloc vm count with
  | .error _ => do
    Io.logs log [noMemoryLine log count]
    return ⟨-(Errno.code .ENOMEM : Int), false⟩
  | .ok kernelBuf => do
    Io.logs log callees.copyFromUser
    let ret ← Io.withMm (copyFromUser proc.table kernelBuf buf count)
    if ret ≠ Errno.code .EOK then
      Io.logs log [noCopyLine log buf]
      Io.logs log callees.kfree
      Io.kfree kernelBuf
      return ⟨-(ret : Int), false⟩
    match ← Io.withFiles (fdtableGetFile proc.files fd) with
    | .error err => do
      Io.logs log callees.kfree
      Io.kfree kernelBuf
      Io.logs log [noFileLine log fd]
      return ⟨-(err.code : Int), false⟩
    | .ok file => do
      let written ← fileWrite file kernelBuf count
      let _ ← Io.withFiles (filePut file)
      Io.logs log callees.kfree
      Io.kfree kernelBuf
      return ⟨written, false⟩

/-- The `DEBUG` of `sys_yield`. -/
def yieldLine : LogLine := DEBUG "sys_sched.c" "__sys_yield" 5 "YIELD: " []

/-- `sys_yield`. -/
def sysYield (log : Logger) : IoCall SyscallReturn := do
  Io.logs log [yieldLine]
  return ⟨0, true⟩

/-- `MAX_SYSCALL_COUNT`. -/
abbrev MAX_SYSCALL_COUNT : Nat := 111

/-- The functions that `syscall_build_table` enters. -/
inductive Syscall
  | SYS_WRITE
  | SYS_YIELD
  | SYS_GETPID
  | SYS_FORK
  | SYS_EXIT
  | SYS_WAIT4
  | SYS_GETPPID
  deriving DecidableEq, Repr

/-- The index in the table. -/
def Syscall.id : Syscall → Nat
  | SYS_WRITE => 1
  | SYS_YIELD => 24
  | SYS_GETPID => 39
  | SYS_FORK => 57
  | SYS_EXIT => 60
  | SYS_WAIT4 => 61
  | SYS_GETPPID => 110

/-- `syscall_table_retrieve` on the table of `syscall_build_table`. -/
def syscallTableRetrieve (syscallId : Nat) : Option Syscall :=
  if MAX_SYSCALL_COUNT ≤ syscallId then none
  else [Syscall.SYS_WRITE, .SYS_YIELD, .SYS_GETPID, .SYS_FORK, .SYS_EXIT, .SYS_WAIT4, .SYS_GETPPID].find?
    fun c => c.id = syscallId

/-- The general registers of an `ExceptionFrame`. -/
abbrev ExceptionFrame := Nat → Nat

/-- The `u64` of an `i64`. -/
def toU64 (n : Int) : Nat := (n % wordSize).toNat

/-- `SYSCALL_LIST`. -/
def SYSCALL_LIST : List (String × Nat) :=
  [("SYS_READ", 0), ("SYS_WRITE", 1), ("SYS_OPEN", 2), ("SYS_CLOSE", 3), ("SYS_YIELD", 24), ("SYS_GETPID", 39),
    ("SYS_CLONE", 56), ("SYS_FORK", 57), ("SYS_VFORK", 58), ("SYS_EXECVE", 59), ("SYS_EXIT", 60), ("SYS_WAIT4", 61),
    ("SYS_KILL", 62), ("SYS_UNAME", 63), ("SYS_GETPPID", 110)]

/-- `syscall_to_str`. The entries of `syscall_table_as_strings` that are not in the list are null. -/
def syscallToStr (syscall : Nat) : Option CString :=
  if MAX_SYSCALL_COUNT ≤ syscall then some (.ofString "nil")
  else (SYSCALL_LIST.find? fun x => x.2 = syscall).map fun x => .ofString x.1

/-- The `DEBUG` at the beginning of `syscall_dispatch`. -/
def dispatchLine (x8 : Nat) : LogLine :=
  DEBUG "syscall.c" "syscall_dispatch" 8 "dispatching: %s (%d)" [.str (syscallToStr x8), .i32 x8]

/-- The `WARN` for a call that is not in the table. -/
def unknownLine (log : Logger) (x8 : Nat) : LogLine :=
  WARN log "syscall.c" "syscall_dispatch" 12 "unknown syscall: %d" [.i32 x8]

/-- `syscall_dispatch`, with the frame as it is afterwards. -/
def syscallDispatch (log : Logger) (fn : Syscall → ExceptionFrame → IoCall SyscallReturn) (frame : ExceptionFrame) :
    IoCall (Bool × ExceptionFrame) := do
  Io.logs log [dispatchLine (frame 8)]
  match syscallTableRetrieve (frame 8) with
  | none => do
    Io.logs log [unknownLine log (frame 8)]
    return (false, Function.update frame 0 (toU64 (-(ENOSYS : Int))))
  | some c => do
    let ret ← fn c frame
    return (ret.shouldResched, Function.update frame 0 (toU64 ret.ret))

/-- The calls of a process. Those that manage processes are given as `others`. -/
def ioSyscall (log : Logger) (callees : CalleeLines) (vm : HeapVm) (proc : Caller)
    (others : Syscall → ExceptionFrame → IoCall SyscallReturn) (c : Syscall) (frame : ExceptionFrame) :
    IoCall SyscallReturn :=
  match c with
  | .SYS_WRITE => sysWrite log callees vm proc (frame 0) (frame 1) (frame 2)
  | .SYS_YIELD => sysYield log
  | c => others c frame

end KaworuOS
