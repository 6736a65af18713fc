import KaworuOS.Vmm

/-!
# Address spaces of processes (`kernel/mm/address_space.c`)

An error code `n` stands for `-n`. The locks are left out: every function holds the lock of the
space that it works on.
-/

namespace KaworuOS
open Lib

/-- `AddressSpace`, with the heap block that holds it. -/
structure AddressSpace where
  self : Nat
  table : Nat
  userRegion : HeapRegion

/-- The region of an address space. -/
abbrev AddressSpace.region (as : AddressSpace) : AllocRegion := as.userRegion.region

def AddressSpace.setRegion (as : AddressSpace) (region : AllocRegion) : AddressSpace :=
  { as with userRegion := { as.userRegion with region := region } }

/-- `address_space_create`. -/
def addressSpaceCreate : Kernel (Except Errno AddressSpace) := do
  let as ← kalloc
  if isErrValue as then return .error .ENOMEM
  let table ← pagingCreateTable
  if isErrValue table then
    kfree as
    return .error .ENOMEM
  match ← regionCreate USER_VM_RANGE_BASE USER_VM_RANGE_SIZE CONFIG_VM_MAX_USER_ALLOCATIONS with
  | .error _ => do
    pagingDestroyTable table
    kfree as
    return .error .ENOMEM
  | .ok region => return .ok ⟨as, table, region⟩

/-- The attributes that the pages of a process get. -/
def userPageAttrs (perms : PagePerms) (uxn : ExecPerms) : PageAttrs :=
  ⟨perms, ATTR_INDEX_NORMAL, .SHAREABLE_INNER_SHAREABLE, .NOT_EXECUTABLE, uxn⟩

/-- `address_space_alloc`. -/
def addressSpaceAlloc (as : AddressSpace) (size : Nat) (perms : PagePerms) (uxn : ExecPerms) :
    Kernel (Nat × AddressSpace) := do
  let (start, region) ← vmAlloc as.table size as.region (userPageAttrs perms uxn)
  return (start, as.setRegion region)

/-- `address_space_map_unowned`. -/
def addressSpaceMapUnowned (as : AddressSpace) (va pa size : Nat) (perms : PagePerms) (uxn : ExecPerms) :
    Kernel Nat :=
  pagingMap as.table va pa size (userPageAttrs perms uxn)

/-- `address_space_map_owned`. -/
def addressSpaceMapOwned (as : AddressSpace) (va pa size : Nat) (perms : PagePerms) (uxn : ExecPerms) :
    Kernel (Nat × AddressSpace) :=
  if isPageAligned size then
    if size / PAGE_SIZE = 0 then return (0, as)
    else do
      let (err, region) ← Call.lift (regionReserve as.region va (size / PAGE_SIZE))
      if err ≠ .EOK then return (err.code, as.setRegion region)
      let err ← addressSpaceMapUnowned (as.setRegion region) va pa size perms uxn
      if err ≠ 0 then
        let (_, region) ← Call.lift (regionFree region va)
        return (err, as.setRegion region)
      return (0, as.setRegion region)
  else Call.halt .panic

/-- The loop of `address_space_destroy` over the slots of the allocation table. -/
def destroyAllocations (table : Nat) : List Nat → AllocRegion → Kernel AllocRegion
  | [], region => return region
  | i :: rest, region => do
    let va := (region.allocations.getD i ⟨0, 0⟩).va
    if va ≠ 0 then
      let region ← vmFree table va region
      destroyAllocations table rest region
    else destroyAllocations table rest region

/-- `address_space_destroy`. -/
def addressSpaceDestroy (as : AddressSpace) : Kernel Unit := do
  let region ← destroyAllocations as.table (List.range as.region.allocations.length) as.region
  regionDestroy { as.userRegion with region := region }
  pagingDestroyTable as.table
  kfree as.self

/-- The addresses that the loops of `address_space_copy` over the allocations and their pages go
through, in order. -/
def pageAddresses (region : AllocRegion) : List Nat :=
  region.allocations.flatMap
    (fun a => (List.range a.pageCount).map (fun page => wadd a.va (wmul page PAGE_SIZE)))

/-- The copying loops of `address_space_copy`. The result is the value of `ret` and, after a jump to
`copy_cleanup`, the number of mapped pages. -/
def copyPages (dst src : Nat) : List Nat → Nat → Nat → Kernel (Nat × Option Nat)
  | [], _, ret => return (ret, none)
  | va :: rest, mappedPages, ret => do
    let srcPde ← pagingLookupDesc src va
    let raw ← readWord srcPde
    if PageDescriptor.isValid.get raw = 1 ∧ PageDescriptor.isPage.get raw = 1 then
      let srcPa ← pagingPageToPa srcPde va
      let dstPa ← pmmAlloc
      if isErrValue dstPa then return (ret, some mappedPages)
      let dstVirt ← pmmPhysToVirt dstPa
      let srcVirt ← pmmPhysToVirt srcPa
      memcpy dstVirt srcVirt PAGE_SIZE
      let raw ← readWord srcPde
      let ret ← pagingMap dst va dstPa PAGE_SIZE (PageDescriptor.attrs raw)
      if ret ≠ 0 then
        pmmFree dstPa
        return (ret, some mappedPages)
      copyPages dst src rest (mappedPages + 1) ret
    else copyPages dst src rest mappedPages ret

/-- The loops after `copy_cleanup`. -/
def copyCleanup (dst : Nat) : List Nat → Nat → Kernel Unit
  | va :: rest, mappedPages + 1 => do
    let pa ← pagingLookup dst va
    if pa ≠ 0 then
      pmmFree pa
      copyCleanup dst rest mappedPages
    else copyCleanup dst rest mappedPages
  | _, _ => return ()

/-- `address_space_copy`. -/
def addressSpaceCopy (dst src : AddressSpace) : Kernel Nat := do
  match ← copyPages dst.table src.table (pageAddresses src.region) 0 0 with
  | (ret, none) => return ret
  | (ret, some mappedPages) => do
    copyCleanup dst.table (pageAddresses dst.region) mappedPages
    return ret

/-- `address_space_create_from`. -/
def addressSpaceCreateFrom (src : AddressSpace) : Kernel (Except Nat AddressSpace) := do
  match ← addressSpaceCreate with
  | .error err => return .error err.code
  | .ok dst => do
    let (err, region) ← Call.lift (regionCopy false dst.region src.region)
    let dst := dst.setRegion region
    if err ≠ .EOK then
      addressSpaceDestroy dst
      return .error err.code
    let ret ← addressSpaceCopy dst src
    if ret ≠ 0 then
      addressSpaceDestroy dst
      return .error ret
    return .ok dst

end KaworuOS
