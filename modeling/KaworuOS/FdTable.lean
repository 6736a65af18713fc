import KaworuOS.Pmm

/-!
# Open files and tables of descriptors (`fs/file.c`, `sync/refcount.c`, `kernel/core/fd_table.c`)

Files and tables are named by their heap blocks; null is zero. A block that is not allocated holds
nothing, so that reading it is a fault. A function that works under the lock of its table and drops
references afterwards is given in these two parts. No `FileOps` of the sources has a `close`.
-/

namespace KaworuOS
open Lib

/-- `MAX_FILES_PER_FD`. -/
abbrev MAX_FILES_PER_FD : Nat := 64

/-- `FileDescriptorState`. -/
inductive FileDescriptorState
  | FREE
  | RESERVED
  | INSTALLED
  deriving DecidableEq, Repr

/-- `File`. The only field of its `RefCount` is `count`. -/
structure File where
  ops : Nat
  mode : Nat
  offset : Int
  count : Nat
  privateData : Nat
  deriving DecidableEq, Repr

/-- `FDTable` without its lock. -/
structure FDTable where
  files : Nat → Nat
  filesState : Nat → FileDescriptorState
  closeOnExec : Nat → Bool

/-- The heap with the files and tables in its blocks. `released` lists the files that `file_release`
has closed and freed, the newest first. -/
structure Files where
  heap : Heap
  file : Nat → File
  table : Nat → FDTable
  released : List Nat

/-- Code that runs on files and tables. -/
abbrev FileCall := Call Halt Files

namespace Files

/-- Stores a file. -/
def setFile (s : Files) (f : Nat) (file : File) : Files := { s with file := Function.update s.file f file }

/-- Stores a table. -/
def setTable (s : Files) (t : Nat) (table : FDTable) : Files :=
  { s with table := Function.update s.table t table }

/-- `kalloc`. The blocks that it will return, with any growth of the heap behind them, are given. -/
def kalloc : FileCall Nat := do
  match ← Call.read (fun s => s.heap.blocks) with
  | [] => return errToPtr .ENOMEM
  | block :: blocks => do
    Call.update (fun s => { s with heap := ⟨blocks, block :: s.heap.live⟩ })
    return block

/-- `kfree`. -/
def kfree (ptr : Nat) : FileCall Unit := do
  let live ← Call.read (fun s => s.heap.live)
  if ptr ∈ live then
    Call.update (fun s => { s with heap := { s.heap with live := s.heap.live.erase ptr } })
  else Call.halt .fault

/-- The contents of an allocated block. -/
def deref {α : Type} (content : Files → Nat → α) (p : Nat) : FileCall α := do
  let live ← Call.read (fun s => s.heap.live)
  if p ∈ live then Call.read (fun s => content s p) else Call.halt .fault

end Files

/-- `refcount_get` of a file. -/
def refcountGet (f : Nat) : FileCall Unit := do
  let file ← Files.deref Files.file f
  if file.count = UINT_MAX then Call.halt .panic
  else Call.update (fun s => s.setFile f { file with count := file.count + 1 })

/-- `file_release`. -/
def fileRelease (f : Nat) : FileCall Unit := do
  Call.update (fun s => { s with released := f :: s.released })
  Files.kfree f

/-- `refcount_put` of a file, with `file_release` for the cleanup. -/
def refcountPut (f : Nat) : FileCall (Except Errno Nat) := do
  let file ← Files.deref Files.file f
  if file.count = 0 then return .error .ENOENT
  Call.update (fun s => s.setFile f { file with count := file.count - 1 })
  if file.count = 1 then
    fileRelease f
    return .ok 0
  return .ok (file.count - 1)

/-- `file_init`. -/
def fileInit (f ops mode privateData : Nat) : FileCall Unit :=
  if ops ≠ 0 then
    Call.update (fun s => s.setFile f {
      ops := ops
      mode := mode
      offset := 0
      count := 1
      privateData := privateData })
  else Call.halt .panic

/-- `file_create`. -/
def fileCreate (ops mode privateData : Nat) : FileCall (Except Errno Nat) := do
  let f ← Files.kalloc
  if isErrValue f then return .error .ENOMEM
  fileInit f ops mode privateData
  return .ok f

/-- `file_put`. -/
def filePut (f : Nat) : FileCall (Except Errno Nat) := refcountPut f

/-- `file_get`. -/
def fileGet (f : Nat) : FileCall Nat := do
  refcountGet f
  return f

namespace FDTable

/-- `is_fd_free`. -/
def isFdFree (table : FDTable) (fd : Nat) : Bool := decide (table.filesState fd = .FREE)

/-- `is_fd_reserved`. -/
def isFdReserved (table : FDTable) (fd : Nat) : Bool := decide (table.filesState fd = .RESERVED)

/-- `is_fd_installed`. -/
def isFdInstalled (table : FDTable) (fd : Nat) : Bool := decide (table.filesState fd = .INSTALLED)

/-- A table with no files, as `fdtable_init` leaves it. -/
def blank : FDTable where
  files _ := 0
  filesState _ := .FREE
  closeOnExec _ := false

/-- Stores the three fields of one descriptor. -/
def setSlot (table : FDTable) (fd file : Nat) (state : FileDescriptorState) (closeOnExec : Bool) : FDTable where
  files := Function.update table.files fd file
  filesState := Function.update table.filesState fd state
  closeOnExec := Function.update table.closeOnExec fd closeOnExec

end FDTable

/-- `fdtable_create`. -/
def fdtableCreate : FileCall (Except Errno Nat) := do
  let table ← Files.kalloc
  if isErrValue table then return .error .ENOMEM
  Call.update (fun s => s.setTable table FDTable.blank)
  return .ok table

/-- The loop of `fdtable_close_all` under the lock, with the files to put. -/
def closeSlots (table : Nat) : List Nat → FileCall (List Nat)
  | [] => return []
  | fd :: rest => do
    let t ← Files.deref Files.table table
    Call.update (fun s => s.setTable table (t.setSlot fd 0 .FREE false))
    let toPut ← closeSlots table rest
    if t.isFdInstalled fd then return t.files fd :: toPut
    return toPut

/-- `file_put` of each file. -/
def putFiles (toPut : List Nat) : FileCall Unit :=
  Call.each (fun f => do
    let _ ← filePut f
    return ()) toPut

/-- `fdtable_close_all`. -/
def fdtableCloseAll (table : Nat) : FileCall Errno := do
  let toPut ← closeSlots table (List.range MAX_FILES_PER_FD)
  putFiles toPut
  return .EOK

/-- `fdtable_destroy`. -/
def fdtableDestroy (table : Nat) : FileCall Errno := do
  let t ← Files.deref Files.table table
  if (List.range MAX_FILES_PER_FD).all t.isFdFree then
    Files.kfree table
    return .EOK
  else Call.halt .panic

/-- One turn of the loop of `fdtable_create_from`. -/
def copySlot (dst src fd : Nat) : FileCall Unit := do
  let from_ ← Files.deref Files.table src
  if from_.isFdInstalled fd then
    let _ ← fileGet (from_.files fd)
    Call.update (fun s => s.setTable dst
      ((s.table dst).setSlot fd (from_.files fd) (from_.filesState fd) (from_.closeOnExec fd)))
  else
    Call.update (fun s => s.setTable dst
      ((s.table dst).setSlot fd (from_.files fd) (from_.filesState fd) (from_.closeOnExec fd)))

/-- `fdtable_create_from`. -/
def fdtableCreateFrom (src : Nat) : FileCall (Except Errno Nat) := do
  match ← fdtableCreate with
  | .error err => return .error err
  | .ok dst => do
    Call.each (copySlot dst src) (List.range MAX_FILES_PER_FD)
    return .ok dst

/-- `fdtable_reserve`. The descriptor is the value of `*out_fd`. -/
def fdtableReserve (table minFd : Nat) : FileCall (Except Errno Nat) := do
  let t ← Files.deref Files.table table
  if MAX_FILES_PER_FD ≤ minFd then return .error .EINVAL
  match (List.range' minFd (MAX_FILES_PER_FD - minFd)).find? t.isFdFree with
  | none => return .error .EMFILE
  | some fd => do
    Call.update (fun s => s.setTable table (t.setSlot fd 0 .RESERVED (t.closeOnExec fd)))
    return .ok fd

/-- `fdtable_install_at`. -/
def fdtableInstallAt (table file fd : Nat) : FileCall Errno := do
  let t ← Files.deref Files.table table
  if MAX_FILES_PER_FD ≤ fd then return .EINVAL
  if t.isFdReserved fd = false then return .EBADF
  Call.update (fun s => s.setTable table (t.setSlot fd file .INSTALLED (t.closeOnExec fd)))
  return .EOK

/-- `fdtable_add`. -/
def fdtableAdd (table file : Nat) : FileCall (Except Errno Nat) := do
  match ← fdtableReserve table 0 with
  | .error err => return .error err
  | .ok fd => do
    let err ← fdtableInstallAt table file fd
    if err ≠ .EOK then return .error err
    return .ok fd

/-- The test with which most functions begin: the descriptor is not an open one. -/
def notOpen (t : FDTable) (fd : Nat) : Bool := decide (MAX_FILES_PER_FD ≤ fd) || !t.isFdInstalled fd

/-- `fdtable_get_file`. -/
def fdtableGetFile (table fd : Nat) : FileCall (Except Errno Nat) := do
  let t ← Files.deref Files.table table
  if notOpen t fd then return .error .EBADF
  let file ← fileGet (t.files fd)
  return .ok file

/-- The part of `fdtable_close_file` under the lock, with the file to put. -/
def closeFileLocked (table fd : Nat) : FileCall (Except Errno Nat) := do
  let t ← Files.deref Files.table table
  if notOpen t fd then return .error .EBADF
  Call.update (fun s => s.setTable table (t.setSlot fd 0 .FREE false))
  return .ok (t.files fd)

/-- `fdtable_close_file`. -/
def fdtableCloseFile (table fd : Nat) : FileCall Errno := do
  match ← closeFileLocked table fd with
  | .error err => return err
  | .ok file => do
    let _ ← filePut file
    return .EOK

/-- `fdtable_set_close_on_exec_impl`. -/
def fdtableSetCloseOnExecImpl (table : Nat) (t : FDTable) (fd : Nat) (closeOnExec : Bool) : FileCall Errno := do
  if notOpen t fd then return .EBADF
  Call.update (fun s => s.setTable table (t.setSlot fd (t.files fd) (t.filesState fd) closeOnExec))
  return .EOK

/-- `fdtable_set_close_on_exec`. -/
def fdtableSetCloseOnExec (table fd : Nat) (closeOnExec : Bool) : FileCall Errno := do
  let t ← Files.deref Files.table table
  fdtableSetCloseOnExecImpl table t fd closeOnExec

/-- `fdtable_dup`. The descriptor is the value of `*out_fd`. -/
def fdtableDup (table srcFd : Nat) : FileCall (Except Errno Nat) := do
  let t ← Files.deref Files.table table
  if notOpen t srcFd then return .error .EBADF
  match (List.range MAX_FILES_PER_FD).find? t.isFdFree with
  | none => return .error .EMFILE
  | some dstFd => do
    let file ← fileGet (t.files srcFd)
    Call.update (fun s => s.setTable table (t.setSlot dstFd file .INSTALLED false))
    return .ok dstFd

/-- The part of `fdtable_dup_at` under the lock, with the value of `old`. -/
def dupAtLocked (table srcFd dstFd : Nat) (closeOnExec : Bool) : FileCall (Errno × Nat) := do
  let t ← Files.deref Files.table table
  if notOpen t srcFd then return (.EBADF, 0)
  if srcFd = dstFd then
    let err ← fdtableSetCloseOnExecImpl table t srcFd closeOnExec
    return (err, 0)
  if MAX_FILES_PER_FD ≤ dstFd then return (.EBADF, 0)
  let src := t.files srcFd
  let old := if t.isFdInstalled dstFd then t.files dstFd else 0
  let t := if t.isFdInstalled dstFd then t.setSlot dstFd 0 .FREE false else t
  Call.update (fun s => s.setTable table t)
  let file ← fileGet src
  Call.update (fun s => s.setTable table (t.setSlot dstFd file .INSTALLED closeOnExec))
  return (.EOK, old)

/-- `fdtable_dup_at`. -/
def fdtableDupAt (table srcFd dstFd : Nat) (closeOnExec : Bool) : FileCall Errno := do
  let (err, old) ← dupAtLocked table srcFd dstFd closeOnExec
  if old ≠ 0 then
    let _ ← filePut old
    return err
  return err

/-- `STDIN`. -/
abbrev STDIN : Nat := 0

/-- `STDOUT`. -/
abbrev STDOUT : Nat := 1

/-- `STDERR`. -/
abbrev STDERR : Nat := 2

/-- `FILE_MODE_READ`. -/
abbrev FILE_MODE_READ : Nat := 1

/-- `FILE_MODE_WRITE`. -/
abbrev FILE_MODE_WRITE : Nat := 2

/-- `stdread_ops`. Nothing is used of its address but that it is not null. -/
abbrev STDREAD_OPS : Nat := 1

/-- `stdwrite_ops`. -/
abbrev STDWRITE_OPS : Nat := 2

/-- The pointer that `file_create` returns. -/
def filePtr : Except Errno Nat → Nat
  | .ok f => f
  | .error err => errToPtr err

/-- The part of `fdtable_attach_std_files` for the descriptor `std`, with what it returns early. The result of
`file_create` is used unchecked. -/
def attachStdFile (table std ops mode : Nat) : FileCall (Option Errno) := do
  match ← fdtableReserve table std with
  | .error ret => return some ret
  | .ok fd => do
    if fd ≠ std then return some .EOK
    let file ← fileCreate ops mode 0
    let ret ← fdtableInstallAt table (filePtr file) fd
    if ret ≠ .EOK then return some ret
    return none

/-- `fdtable_attach_std_files`. -/
def fdtableAttachStdFiles (table : Nat) : FileCall Errno := do
  match ← attachStdFile table STDIN STDREAD_OPS FILE_MODE_READ with
  | some ret => return ret
  | none => do
    match ← attachStdFile table STDOUT STDWRITE_OPS FILE_MODE_WRITE with
    | some ret => return ret
    | none => do
      match ← attachStdFile table STDERR STDWRITE_OPS FILE_MODE_WRITE with
      | some ret => return ret
      | none => return .EOK

end KaworuOS
