import KaworuOS.Paging
import KaworuOS.Region

/-!
# Regions on the heap and the virtual memory manager (`lib/allocator/region.c`, `kernel/mm/vmm.c`)

A region that was made by `region_create` consists of three heap blocks. Its bitmap is not cleared:
it begins with the bytes that the block holds.
-/

namespace KaworuOS
open Lib

/-- An `AllocRegion` with the heap blocks of the structure, its bitmap and its allocations. -/
structure HeapRegion where
  self : Nat
  bitmapBlock : Nat
  allocationsBlock : Nat
  region : AllocRegion

/-- `region_create`. -/
def regionCreate (base size maxAllocations : Nat) : Kernel (Except Errno HeapRegion) := do
  let region ← kalloc
  if isErrValue region then return .error .ENOMEM
  let bitmap ← kalloc
  if isErrValue bitmap then
    kfree region
    return .error .ENOMEM
  let allocs ← kalloc
  if isErrValue allocs then
    kfree bitmap
    kfree region
    return .error .ENOMEM
  let bytes ← Call.read (fun s i => s.mem (wadd bitmap i))
  return .ok {
    self := region
    bitmapBlock := bitmap
    allocationsBlock := allocs
    region := ⟨⟨bytes, size / PAGE_SIZE, base⟩, List.replicate maxAllocations ⟨0, 0⟩⟩ }

/-- `region_destroy`. -/
def regionDestroy (r : HeapRegion) : Kernel Unit := do
  kfree r.bitmapBlock
  kfree r.allocationsBlock
  kfree r.self

/-- `vm_map`. The result of `region_alloc` is used unchecked. -/
def vmMap (table pa size : Nat) (region : AllocRegion) (attrs : PageAttrs) : Kernel (Nat × AllocRegion) := do
  let size := if isPageAligned size then size else roundUp size
  let (va, region) ← Call.lift (regionAlloc region (size / PAGE_SIZE))
  let err ← pagingMap table va pa size attrs
  if err ≠ 0 then return (wordSize - err, region)
  return (va, region)

/-- `vm_unmap`. -/
def vmUnmap (table va size : Nat) (region : AllocRegion) : Kernel AllocRegion := do
  let size := if isPageAligned size then size else roundUp size
  let (_, region) ← Call.lift (regionFree region va)
  pagingUnmap table va size
  return region

/-- The attributes of device pages. -/
def mmioPageAttrs : PageAttrs :=
  ⟨.EL1_READ_WRITE_EL0_NONE, ATTR_INDEX_DEVICE, .SHAREABLE_NON_SHAREABLE, .NOT_EXECUTABLE, .NOT_EXECUTABLE⟩

/-- `vm_mmio_map`, for the kernel's table and its region for devices. -/
def vmMmioMap (table pa size : Nat) (region : AllocRegion) : Kernel (Nat × AllocRegion) := do
  let pageBase := roundDown pa
  let offset := wsub pa pageBase
  let (va, region) ← vmMap table pageBase (wadd size offset) region mmioPageAttrs
  if isErrValue va then return (va, region)
  return (wadd va offset, region)

/-- `vm_mmio_unmap`. -/
def vmMmioUnmap (table addr size : Nat) (region : AllocRegion) : Kernel AllocRegion :=
  let offset := addr &&& (PAGE_SIZE - 1)
  vmUnmap table (wsub addr offset) (roundUp (wadd size offset)) region

/-- The loop of `vm_alloc` with `n` pages to go. The result is zero or an error pointer. -/
def vmAllocPages (table : Nat) (attrs : PageAttrs) : Nat → Nat → Kernel Nat
  | 0, _ => return 0
  | n + 1, va => do
    let pa ← pmmAlloc
    if isErrValue pa then return errToPtr .ENOMEM
    let err ← pagingMap table va pa PAGE_SIZE attrs
    if err ≠ 0 then return wordSize - err
    vmAllocPages table attrs n (wadd va PAGE_SIZE)

/-- `vm_alloc`. The result is the address or an error pointer. -/
def vmAlloc (table size : Nat) (region : AllocRegion) (attrs : PageAttrs) : Kernel (Nat × AllocRegion) := do
  let (start, region) ← Call.lift (regionAlloc region (size / PAGE_SIZE))
  if isErrValue start then return (errToPtr .ENOMEM, region)
  let err ← vmAllocPages table attrs (size / PAGE_SIZE) start
  if err ≠ 0 then return (err, region)
  return (start, region)

/-- One turn of the loop of `vm_free`. -/
def vmFreePage (table va : Nat) : Kernel Unit := do
  let pa ← pagingLookup table va
  if pa ≠ 0 then
    pagingUnmap table va PAGE_SIZE
    pmmFree pa
  else return ()

/-- `vm_free`. -/
def vmFree (table addr : Nat) (region : AllocRegion) : Kernel AllocRegion :=
  match regionFind region addr with
  | .error _ => Call.halt .panic
  | .ok slot => do
    let pageCount := (region.allocations.getD slot ⟨0, 0⟩).pageCount
    Call.each (fun page => vmFreePage table (wadd addr (wmul page PAGE_SIZE))) (List.range pageCount)
    let (_, region) ← Call.lift (regionFree region addr)
    return region

end KaworuOS
