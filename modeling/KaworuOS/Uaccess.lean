import KaworuOS.Paging

/-!
# Access to user memory (`kernel/mm/uaccess.c`)

`table` is the page table of the current process. A user address is translated by the hardware
through this table, as it stands when a copy begins; a byte that has no translation stops the copy.
The buffer of `copy_from_user_string` overlaps neither the tables nor the pages of the user: what is
stored in it is part of the result.
-/

namespace KaworuOS
open Lib

/-- `is_within_user_vm_range`; the difference may wrap. -/
def isWithinUserVmRange (ptr size : Nat) : Bool :=
  if ptr < USER_VM_RANGE_BASE then false
  else if wsub USER_VM_RANGE_END size < ptr then false
  else true

/-- `is_page_writable_by_user`. -/
def isPageWritableByUser (raw : Nat) : Bool :=
  PagePerms.ofCode (PageDescriptor.ap.get raw) == .EL1_READ_WRITE_EL0_READ_WRITE

/-- `is_page_readable_by_user`. -/
def isPageReadableByUser (raw : Nat) : Bool :=
  PagePerms.ofCode (PageDescriptor.ap.get raw) == .EL1_READ_WRITE_EL0_READ_WRITE ||
    PagePerms.ofCode (PageDescriptor.ap.get raw) == .EL1_READ_ONLY_EL0_READ_ONLY

/-- The loop of `user_range_valid`, which starts at the page of the last byte. -/
def userRangeLoop (table last : Nat) (requiredUserWritable requiredUserReadable : Bool) :
    Nat → Nat → Kernel Bool
  | 0, _ => Call.halt .hang
  | fuel + 1, va =>
    if va ≤ last then do
      let pde ← pagingLookupDesc table va
      let pa ← pagingPageToPa pde va
      if pa = 0 then return false
      let raw ← readWord pde
      if requiredUserWritable && !isPageWritableByUser raw then return false
      if requiredUserReadable && !isPageReadableByUser raw then return false
      if wsub last PAGE_SIZE < va then return true
      userRangeLoop table last requiredUserWritable requiredUserReadable fuel (wadd va PAGE_SIZE)
    else return true

/-- `user_range_valid`, for a task that has a process. -/
def userRangeValid (table ptr size : Nat) (requiredUserWritable requiredUserReadable : Bool) :
    Kernel Bool :=
  if isWithinUserVmRange ptr size then
    let last := wsub (wadd ptr size) 1
    userRangeLoop table last requiredUserWritable requiredUserReadable wordSize (roundDown last)
  else return false

/-- The physical address that the hardware finds for a user address. -/
def translate (table va : Nat) (s : Mm) : Option Nat :=
  match (pagingLookupDesc table va s).1 with
  | .ok pde =>
    if isErrValue pde = false ∧ PageDescriptor.isValid.get (s.mem.load64 pde) = 1 then
      some (pageDescToPa (PageDescriptor.outputAddress.get (s.mem.load64 pde)) ||| (va &&& (PAGE_SIZE - 1)))
    else none
  | .error _ => none

/-- `memcpy` from the user address `src` to kernel memory; `mmu` translates. -/
def memcpyFromUser (mmu : Nat → Option Nat) : Nat → Nat → Nat → Kernel Unit
  | _, _, 0 => return ()
  | dst, src, size + 1 =>
    match mmu src with
    | none => Call.halt .fault
    | some pa => do
      Call.update (fun s => { s with mem := s.mem.set dst (s.mem (wadd pa s.hhdm)) })
      memcpyFromUser mmu (wadd dst 1) (wadd src 1) size

/-- `memcpy` from kernel memory to the user address `dst`; `mmu` translates. -/
def memcpyToUser (mmu : Nat → Option Nat) : Nat → Nat → Nat → Kernel Unit
  | _, _, 0 => return ()
  | dst, src, size + 1 =>
    match mmu dst with
    | none => Call.halt .fault
    | some pa => do
      Call.update (fun s => { s with mem := s.mem.set (wadd pa s.hhdm) (s.mem src) })
      memcpyToUser mmu (wadd dst 1) (wadd src 1) size

/-- `memcpy` of the given bytes to the user address `dst`; `mmu` translates. -/
def storeToUser (mmu : Nat → Option Nat) : Nat → List UInt8 → Kernel Unit
  | _, [] => return ()
  | dst, byte :: bytes =>
    match mmu dst with
    | none => Call.halt .fault
    | some pa => do
      Call.update (fun s => { s with mem := s.mem.set (wadd pa s.hhdm) byte })
      storeToUser mmu (wadd dst 1) bytes

/-- `copy_from_user`. -/
def copyFromUser (table kernelDst userSrc size : Nat) : Kernel Nat := do
  if size = 0 then return Errno.EOK.code
  if ← userRangeValid table userSrc size false true then
    let mmu ← Call.read (fun s va => translate table va s)
    memcpyFromUser mmu kernelDst userSrc size
    return Errno.EOK.code
  else return Errno.EFAULT.code

/-- `copy_to_user`. -/
def copyToUser (table userDst kernelSrc size : Nat) : Kernel Nat := do
  if size = 0 then return Errno.EOK.code
  if ← userRangeValid table userDst size true false then
    let mmu ← Call.read (fun s va => translate table va s)
    memcpyToUser mmu userDst kernelSrc size
    return Errno.EOK.code
  else return Errno.EFAULT.code

/-- The bytes of a `u64`, the lowest first. -/
def u64Bytes (value : Nat) : List UInt8 := (List.range 8).map fun i => UInt8.ofNat (value / 256 ^ i)

/-- `copy_to_user_u64`. The value lies on the stack of the kernel, apart from what the user can write. -/
def copyToUserU64 (table userDst value : Nat) : Kernel Nat := do
  if ← userRangeValid table userDst 8 true false then
    let mmu ← Call.read (fun s va => translate table va s)
    storeToUser mmu userDst (u64Bytes value)
    return Errno.EOK.code
  else return Errno.EFAULT.code

/-- The loop of `copy_from_user_string` with `left` bytes to go. The result is the error code, with the
bytes that were stored from `dst[index]` on. -/
def copyStringFrom (table src maxLen : Nat) : Nat → Nat → Kernel (Nat × List UInt8)
  | 0, _ => return (Errno.ENAMETOOLONG.code, [])
  | left + 1, index => do
    let indexVa := wadd index src
    if ← userRangeValid table indexVa maxLen false true then
      let mmu ← Call.read (fun s va => translate table va s)
      match mmu indexVa with
      | none => Call.halt .fault
      | some pa => do
        let byte ← Call.read (fun s => s.mem (wadd pa s.hhdm))
        if byte = 0 then return (Errno.EOK.code, [byte])
        let (err, bytes) ← copyStringFrom table src maxLen left (index + 1)
        return (err, byte :: bytes)
    else return (Errno.EFAULT.code, [])

/-- `copy_from_user_string`, with the bytes that were stored in `dst`. -/
def copyFromUserString (table src maxLen : Nat) : Kernel (Nat × List UInt8) := do
  if maxLen = 0 then return (Errno.EOK.code, [])
  copyStringFrom table src maxLen maxLen 0

end KaworuOS
