import KaworuOS.Kheap
import KaworuOS.Vmm

/-!
# The kernel's address space (`kernel/boot/memmap.c`, `kernel/mm/paging.c`, `kernel/mm/vmm.c`)

The boot loader says what memory there is. `vm_init` maps the kernel and the direct map of the memory, and makes two
regions from which the rest of the kernel gets pages.
-/

namespace KaworuOS
open Lib

/-- `struct limine_memmap_entry`. -/
structure LimineMemmapEntry where
  base : Nat
  length : Nat
  type : Nat
  deriving DecidableEq, Repr

abbrev LIMINE_MEMMAP_USABLE : Nat := 0
abbrev LIMINE_MEMMAP_RESERVED : Nat := 1
abbrev LIMINE_MEMMAP_ACPI_RECLAIMABLE : Nat := 2
abbrev LIMINE_MEMMAP_ACPI_NVS : Nat := 3
abbrev LIMINE_MEMMAP_BAD_MEMORY : Nat := 4
abbrev LIMINE_MEMMAP_BOOTLOADER_RECLAIMABLE : Nat := 5
abbrev LIMINE_MEMMAP_EXECUTABLE_AND_MODULES : Nat := 6
abbrev LIMINE_MEMMAP_FRAMEBUFFER : Nat := 7
abbrev LIMINE_MEMMAP_RESERVED_MAPPED : Nat := 8

/-- The responses of the boot loader: the entries of `limine_memmap`, the offset of `limine_hhdm`, and the two bases of
`limine_kernel_address`. -/
structure LimineResponses where
  entries : List LimineMemmapEntry
  hhdmOffset : Nat
  physicalBase : Nat
  virtualBase : Nat

/-- The globals of `memmap.c`. -/
structure Memmap where
  table : List MemMapEntry
  hddmOffset : Nat
  executablePhysicalBase : Nat
  executableVirtualBase : Nat

/-- `MAX_MEMMAP_ENTRIES`. -/
abbrev MAX_MEMMAP_ENTRIES : Nat := 2 ^ 7

/-- `limine_memmap_type_to_memmap`. -/
def limineMemmapTypeToMemmap (limineMemmapType : Nat) : MemMapEntryType :=
  if limineMemmapType = LIMINE_MEMMAP_USABLE then .USABLE
  else if limineMemmapType = LIMINE_MEMMAP_RESERVED then .RESERVED
  else if limineMemmapType = LIMINE_MEMMAP_ACPI_RECLAIMABLE then .ACPI_RECLAIMABLE
  else if limineMemmapType = LIMINE_MEMMAP_ACPI_NVS then .ACPI_NVS
  else if limineMemmapType = LIMINE_MEMMAP_BAD_MEMORY then .BAD_MEMORY
  else if limineMemmapType = LIMINE_MEMMAP_BOOTLOADER_RECLAIMABLE then .BOOTLOADER_RECLAIMABLE
  else if limineMemmapType = LIMINE_MEMMAP_EXECUTABLE_AND_MODULES then .EXECUTABLE_AND_MODULES
  else if limineMemmapType = LIMINE_MEMMAP_FRAMEBUFFER then .FRAMEBUFFER
  else if limineMemmapType = LIMINE_MEMMAP_RESERVED_MAPPED then .RESERVED_MAPPED
  else .UNKNOWN

/-- `memmap_save_init`. More entries than there is room for are written behind the table. -/
def memmapSaveInit (resp : LimineResponses) : Except Halt Memmap :=
  if MAX_MEMMAP_ENTRIES < resp.entries.length then .error .fault
  else .ok {
    table := resp.entries.map fun entry => ⟨entry.base, entry.length, limineMemmapTypeToMemmap entry.type⟩
    hddmOffset := resp.hhdmOffset
    executablePhysicalBase := resp.physicalBase
    executableVirtualBase := resp.virtualBase }

/-- `kernel_virt_to_phys`. -/
def kernelVirtToPhys (memmap : Memmap) (va : Nat) : Nat :=
  wadd memmap.executablePhysicalBase (wsub va memmap.executableVirtualBase)

/-- The symbols `__kernel_start`, `__kernel_text_end`, `__kernel_data_start` and `__kernel_data_end` of the linker. -/
structure KernelImage where
  start : Nat
  textEnd : Nat
  dataStart : Nat
  dataEnd : Nat

/-- The attributes of code. -/
def textPageAttrs : PageAttrs :=
  ⟨.EL1_READ_ONLY_EL0_NONE, ATTR_INDEX_NORMAL, .SHAREABLE_INNER_SHAREABLE, .EXECUTABLE, .NOT_EXECUTABLE⟩

/-- The attributes of data. -/
def dataPageAttrs : PageAttrs :=
  ⟨.EL1_READ_WRITE_EL0_NONE, ATTR_INDEX_NORMAL, .SHAREABLE_INNER_SHAREABLE, .NOT_EXECUTABLE, .NOT_EXECUTABLE⟩

/-- `map_device`. -/
def mapDevice (page va pa size : Nat) : Kernel Nat := pagingMap page va pa size mmioPageAttrs

/-- `map_text`. -/
def mapText (page va pa size : Nat) : Kernel Nat := pagingMap page va pa size textPageAttrs

/-- `map_data`. -/
def mapData (page va pa size : Nat) : Kernel Nat := pagingMap page va pa size dataPageAttrs

/-- One turn of the loop of `paging_kernel_init`. No result is looked at. -/
def mapHhdmEntry (kernelPageTable : Nat) (entry : LimineMemmapEntry) : Kernel Unit :=
  if entry.type = LIMINE_MEMMAP_FRAMEBUFFER then do
    let va ← pmmPhysToVirt entry.base
    let _ ← mapDevice kernelPageTable va entry.base entry.length
    return ()
  else if entry.type = LIMINE_MEMMAP_BOOTLOADER_RECLAIMABLE ∨ entry.type = LIMINE_MEMMAP_EXECUTABLE_AND_MODULES ∨
      entry.type = LIMINE_MEMMAP_USABLE then do
    let va ← pmmPhysToVirt entry.base
    let _ ← mapData kernelPageTable va entry.base entry.length
    return ()
  else return ()

/-- `paging_kernel_init`. -/
def pagingKernelInit (resp : LimineResponses) (memmap : Memmap) (image : KernelImage) (kernelPageTable : Nat) :
    Kernel Unit := do
  let _ ← mapText kernelPageTable image.start (kernelVirtToPhys memmap image.start) (wsub image.textEnd image.start)
  let _ ← mapData kernelPageTable image.dataStart (kernelVirtToPhys memmap image.dataStart)
    (wsub image.dataEnd image.dataStart)
  Call.each (mapHhdmEntry kernelPageTable) resp.entries

/-- `KERNEL_MMIO_RANGE_START`. -/
abbrev KERNEL_MMIO_RANGE_START : Nat := 0xffffffff90000000

/-- `KERNEL_MMIO_RANGE_SIZE`. -/
abbrev KERNEL_MMIO_RANGE_SIZE : Nat := 256 * 2 ^ 20

/-- `STATIC_ALLOC_VM_REGION`. There are as many allocations as bytes in the bitmap. -/
def staticAllocVmRegion (addr size : Nat) : AllocRegion :=
  ⟨⟨fun _ => 0, size / PAGE_SIZE, addr⟩, List.replicate (sizeToBitmapBytes size) ⟨0, 0⟩⟩

/-- The two regions of the kernel. -/
inductive KernelRegion
  | mem
  | mmio
  deriving DecidableEq, Repr

/-- The attributes of the pages of a region. -/
def KernelRegion.attrs : KernelRegion → PageAttrs
  | mem => dataPageAttrs
  | mmio => mmioPageAttrs

/-- The range of a region. -/
def KernelRegion.storage : KernelRegion → AllocRegion
  | mem => staticAllocVmRegion KERNEL_VM_RANGE_BASE KERNEL_VM_RANGE_SIZE
  | mmio => staticAllocVmRegion KERNEL_MMIO_RANGE_START KERNEL_MMIO_RANGE_SIZE

/-- `KernelAddressSpace`, with the register `TTBR1_EL1` of the CPU that boots. -/
structure KernelSpace where
  kernelPageTable : Nat
  kernelUserTable : Nat
  region : KernelRegion → AllocRegion
  ttbr1 : Nat

/-- `paging_switch_kernel_table`. The result is what it writes to `TTBR1_EL1`. -/
def pagingSwitchKernelTable (kernelPageTable : Nat) : Kernel Nat := pmmVirtToPhys kernelPageTable

/-- `vm_set_kernel_page_table`, with the table of `as`. -/
def vmSetKernelPageTable (kernelPageTable : Nat) : Kernel Nat := pagingSwitchKernelTable kernelPageTable

/-- `vm_init`. -/
def vmInit (resp : LimineResponses) (memmap : Memmap) (image : KernelImage) : Kernel KernelSpace := do
  let kernelPageTable ← pagingCreateTable
  if isErrValue kernelPageTable then Call.halt .panic
  else
    let kernelUserTable ← pagingCreateTable
    if isErrValue kernelUserTable then Call.halt .panic
    else
      pagingKernelInit resp memmap image kernelPageTable
      let ttbr1 ← vmSetKernelPageTable kernelPageTable
      return ⟨kernelPageTable, kernelUserTable, fun r => regionInit r.storage, ttbr1⟩

/-- The part of `kernel_main` from `memmap_save_init` to `vm_init` that works on memory. -/
def kernelMainMemory (resp : LimineResponses) (image : KernelImage) : Kernel KernelSpace := do
  let memmap ← Call.lift (memmapSaveInit resp)
  Call.update (fun s => { s with hhdm := memmap.hddmOffset })
  pmmInit memmap.table
  vmInit resp memmap image

namespace KernelSpace

def setRegion (k : KernelSpace) (r : KernelRegion) (region : AllocRegion) : KernelSpace :=
  { k with region := Function.update k.region r region }

/-- `vm_map` in a region of the kernel. -/
def map (k : KernelSpace) (r : KernelRegion) (pa size : Nat) : Kernel (Nat × KernelSpace) := do
  let (va, region) ← vmMap k.kernelPageTable pa size (k.region r) r.attrs
  return (va, k.setRegion r region)

/-- `vm_unmap` in a region of the kernel. -/
def unmap (k : KernelSpace) (r : KernelRegion) (addr size : Nat) : Kernel KernelSpace := do
  let region ← vmUnmap k.kernelPageTable addr size (k.region r)
  return k.setRegion r region

/-- `vm_alloc` in a region of the kernel. -/
def alloc (k : KernelSpace) (r : KernelRegion) (size : Nat) : Kernel (Nat × KernelSpace) := do
  let (va, region) ← vmAlloc k.kernelPageTable size (k.region r) r.attrs
  return (va, k.setRegion r region)

/-- `vm_free` in a region of the kernel. -/
def free (k : KernelSpace) (r : KernelRegion) (addr : Nat) : Kernel KernelSpace := do
  let region ← vmFree k.kernelPageTable addr (k.region r)
  return k.setRegion r region

/-- `vm_mem_map`. -/
def vmMemMap (k : KernelSpace) (pa size : Nat) : Kernel (Nat × KernelSpace) := k.map .mem pa size

/-- `vm_mem_unmap`. -/
def vmMemUnmap (k : KernelSpace) (addr size : Nat) : Kernel KernelSpace := k.unmap .mem addr size

/-- `vm_alloc_mem`. -/
def vmAllocMem (k : KernelSpace) (size : Nat) : Kernel (Nat × KernelSpace) := k.alloc .mem size

/-- `vm_alloc_mmio`. -/
def vmAllocMmio (k : KernelSpace) (size : Nat) : Kernel (Nat × KernelSpace) := k.alloc .mmio size

/-- `vm_free_mem`. -/
def vmFreeMem (k : KernelSpace) (addr : Nat) : Kernel KernelSpace := k.free .mem addr

/-- `vm_free_mmio`. -/
def vmFreeMmio (k : KernelSpace) (addr : Nat) : Kernel KernelSpace := k.free .mmio addr

/-- `vm_mmio_map`. -/
def mmioMap (k : KernelSpace) (pa size : Nat) : Kernel (Nat × KernelSpace) := do
  let (va, region) ← vmMmioMap k.kernelPageTable pa size (k.region .mmio)
  return (va, k.setRegion .mmio region)

/-- `vm_mmio_unmap`. -/
def mmioUnmap (k : KernelSpace) (addr size : Nat) : Kernel KernelSpace := do
  let region ← vmMmioUnmap k.kernelPageTable addr size (k.region .mmio)
  return k.setRegion .mmio region

end KernelSpace

end KaworuOS
