import KaworuOS.Pmm
import KaworuOS.Lib.BitField

/-!
# Page tables (`kernel/mm/paging.c`)

A page table is a page of 512 descriptors of eight bytes. Pointers are numbers, as in the sources,
and so is the error pointer that a walk returns when a table is missing. A result of type `errno_t`
is the number `n` for `-n`.
-/

namespace KaworuOS
open Lib

/-- `PagePerms`. -/
inductive PagePerms
  | EL1_READ_WRITE_EL0_NONE
  | EL1_READ_WRITE_EL0_READ_WRITE
  | EL1_READ_ONLY_EL0_NONE
  | EL1_READ_ONLY_EL0_READ_ONLY
  deriving DecidableEq, Repr

def PagePerms.code : PagePerms → Nat
  | EL1_READ_WRITE_EL0_NONE => 0
  | EL1_READ_WRITE_EL0_READ_WRITE => 1
  | EL1_READ_ONLY_EL0_NONE => 2
  | EL1_READ_ONLY_EL0_READ_ONLY => 3

/-- The permission that a field of two bits stands for. -/
def PagePerms.ofCode (n : Nat) : PagePerms :=
  match n % 4 with
  | 0 => EL1_READ_WRITE_EL0_NONE
  | 1 => EL1_READ_WRITE_EL0_READ_WRITE
  | 2 => EL1_READ_ONLY_EL0_NONE
  | _ => EL1_READ_ONLY_EL0_READ_ONLY

/-- `PageShareability`. -/
inductive PageShareability
  | SHAREABLE_NON_SHAREABLE
  | SHAREABLE_RESERVED
  | SHAREABLE_OUTER_SHAREABLE
  | SHAREABLE_INNER_SHAREABLE
  deriving DecidableEq, Repr

def PageShareability.code : PageShareability → Nat
  | SHAREABLE_NON_SHAREABLE => 0
  | SHAREABLE_RESERVED => 1
  | SHAREABLE_OUTER_SHAREABLE => 2
  | SHAREABLE_INNER_SHAREABLE => 3

def PageShareability.ofCode (n : Nat) : PageShareability :=
  match n % 4 with
  | 0 => SHAREABLE_NON_SHAREABLE
  | 1 => SHAREABLE_RESERVED
  | 2 => SHAREABLE_OUTER_SHAREABLE
  | _ => SHAREABLE_INNER_SHAREABLE

/-- `ExecPerms`. -/
inductive ExecPerms
  | EXECUTABLE
  | NOT_EXECUTABLE
  deriving DecidableEq, Repr

def ExecPerms.code : ExecPerms → Nat
  | EXECUTABLE => 0
  | NOT_EXECUTABLE => 1

def ExecPerms.ofCode (n : Nat) : ExecPerms := if n % 2 = 0 then EXECUTABLE else NOT_EXECUTABLE

/-- `AttrIndex`, whose field has three bits. -/
abbrev AttrIndex := Fin 8

abbrev ATTR_INDEX_DEVICE : AttrIndex := 0
abbrev ATTR_INDEX_NORMAL : AttrIndex := 1

/-- The arguments of `paging_map` that say how a page may be used. -/
structure PageAttrs where
  perms : PagePerms
  attrIndex : AttrIndex
  shareability : PageShareability
  privilegeExecution : ExecPerms
  underprivilegeExecution : ExecPerms
  deriving DecidableEq, Repr

namespace TableDescriptor

def isValid : BitField := ⟨0, 1⟩
def isTable : BitField := ⟨1, 1⟩
def nextLevelAddress : BitField := ⟨12, 36⟩

end TableDescriptor

namespace PageDescriptor

def isValid : BitField := ⟨0, 1⟩
def isPage : BitField := ⟨1, 1⟩
def attrIndex : BitField := ⟨2, 3⟩
def ap : BitField := ⟨6, 2⟩
def sh : BitField := ⟨8, 2⟩
def af : BitField := ⟨10, 1⟩
def outputAddress : BitField := ⟨12, 36⟩
def pxn : BitField := ⟨53, 1⟩
def uxnXn : BitField := ⟨54, 1⟩

/-- The attributes that a descriptor carries. -/
def attrs (raw : Nat) : PageAttrs where
  perms := .ofCode (ap.get raw)
  attrIndex := Fin.ofNat 8 (attrIndex.get raw)
  shareability := .ofCode (sh.get raw)
  privilegeExecution := .ofCode (pxn.get raw)
  underprivilegeExecution := .ofCode (uxnXn.get raw)

end PageDescriptor

/-- `Ln_INDEX` for the level `n`. -/
def levelIndex (level va : Nat) : Nat := (va >>> (39 - 9 * level)) &&& 0x1FF

/-- `PA_TO_PAGE_DESC`. -/
def paToPageDesc (pa : Nat) : Nat := pa >>> 12

/-- `PAGE_DESC_TO_PA`, for the 36 bits of an address field. -/
def pageDescToPa (descAddr : Nat) : Nat := descAddr <<< 12

/-- The address of `table[i]`. -/
def descAddr (table i : Nat) : Nat := wadd table (8 * i)

/-- The descriptor that `table_next_table` writes for a new table. -/
def tableEntry (pa : Nat) : Nat :=
  let raw := TableDescriptor.isValid.set 0 1
  let raw := TableDescriptor.isTable.set raw 1
  TableDescriptor.nextLevelAddress.set raw (paToPageDesc pa)

/-- The descriptor that `paging_map` makes of `raw`. -/
def pageEntry (raw pa : Nat) (attrs : PageAttrs) : Nat :=
  let raw := PageDescriptor.isPage.set raw 1
  let raw := PageDescriptor.isValid.set raw 1
  let raw := PageDescriptor.attrIndex.set raw attrs.attrIndex
  let raw := PageDescriptor.ap.set raw attrs.perms.code
  let raw := PageDescriptor.sh.set raw attrs.shareability.code
  let raw := PageDescriptor.af.set raw 1
  let raw := PageDescriptor.outputAddress.set raw (paToPageDesc pa)
  let raw := PageDescriptor.pxn.set raw attrs.privilegeExecution.code
  PageDescriptor.uxnXn.set raw attrs.underprivilegeExecution.code

/-- `PTR_TO_ERR`. -/
def ptrToErr (p : Nat) : Nat := wordSize - p

/-- `paging_create_table`. -/
def pagingCreateTable : Kernel Nat := do
  let pa ← pmmAlloc
  if isErrValue pa then return pa
  else
    let td ← pmmPhysToVirt pa
    memset td 0 PAGE_SIZE
    return td

/-- One turn of the loop of `table_descriptor_destroy_recursive`. -/
def destroyEntry (recurse : Nat → Kernel Unit) (table i : Nat) : Kernel Unit := do
  let raw ← readWord (descAddr table i)
  if TableDescriptor.isValid.get raw = 1 then
    if TableDescriptor.isTable.get raw = 1 then
      let next ← pmmPhysToVirt (pageDescToPa (TableDescriptor.nextLevelAddress.get raw))
      recurse next
      writeWord (descAddr table i) 0
    else writeWord (descAddr table i) 0
  else return ()

/-- The body of `table_descriptor_destroy_recursive`. -/
def destroyTable (recurse : Nat → Kernel Unit) (table : Nat) : Kernel Unit := do
  Call.each (destroyEntry recurse table) (List.range 512)
  let pa ← pmmVirtToPhys table
  pmmFree pa

/-- `table_descriptor_destroy_recursive`; the first argument is `4 - level`, and there is no recursion
at level 4. -/
def tableDescriptorDestroyRecursive : Nat → Nat → Kernel Unit
  | 0 => destroyTable (fun _ => return ())
  | below + 1 => destroyTable (tableDescriptorDestroyRecursive below)

/-- `paging_destroy_table`. -/
def pagingDestroyTable (table : Nat) : Kernel Unit := tableDescriptorDestroyRecursive 4 table

/-- `table_next_table`. The result of `pmm_alloc` is used unchecked. -/
def tableNextTable (td : Nat) (allocate : Bool) : Kernel Nat := do
  let raw ← readWord td
  if TableDescriptor.isValid.get raw = 1 then
    pmmPhysToVirt (pageDescToPa (TableDescriptor.nextLevelAddress.get raw))
  else if allocate then
    let pa ← pmmAlloc
    let page ← pmmPhysToVirt pa
    writeWord td (tableEntry pa)
    return page
  else return errToPtr .ENOMEM

/-- `walk_pagetable`. -/
def walkPagetable (table va : Nat) (allocate : Bool) : Kernel Nat := do
  let l1 ← tableNextTable (descAddr table (levelIndex 0 va)) allocate
  if isErrValue l1 then return l1
  let l2 ← tableNextTable (descAddr l1 (levelIndex 1 va)) allocate
  if isErrValue l2 then return l2
  let l3 ← tableNextTable (descAddr l2 (levelIndex 2 va)) allocate
  if isErrValue l3 then return l3
  return descAddr l3 (levelIndex 3 va)

/-- The loop of `paging_map` with `n` pages to go. -/
def pagingMapPages (table : Nat) (attrs : PageAttrs) : Nat → Nat → Nat → Kernel Nat
  | 0, _, _ => return 0
  | n + 1, va, pa => do
    let pde ← walkPagetable table va true
    if isErrValue pde then return ptrToErr pde
    let raw ← readWord pde
    if PageDescriptor.isValid.get raw = 1 then Call.halt .panic
    else
      writeWord pde (pageEntry raw pa attrs)
      pagingMapPages table attrs n (wadd va PAGE_SIZE) (wadd pa PAGE_SIZE)

/-- How often `for (usize end = va + size; va < end; va += PAGE_SIZE)` runs when `va` and `size`
are page aligned. -/
def pageIterations (va size : Nat) : Nat := (wadd va size - va) / PAGE_SIZE

/-- `paging_map`. -/
def pagingMap (table va pa size : Nat) (attrs : PageAttrs) : Kernel Nat :=
  if isPageAligned pa && isPageAligned va && isPageAligned size then
    pagingMapPages table attrs (pageIterations va size) va pa
  else Call.halt .panic

/-- The loop of `paging_unmap` with `n` pages to go. -/
def pagingUnmapPages (table : Nat) : Nat → Nat → Kernel Unit
  | 0, _ => return ()
  | n + 1, va => do
    let pde ← walkPagetable table va false
    if isErrValue pde then Call.halt .panic
    else
      let raw ← readWord pde
      if PageDescriptor.isValid.get raw = 1 then
        writeWord pde 0
        pagingUnmapPages table n (wadd va PAGE_SIZE)
      else Call.halt .panic

/-- `paging_unmap`. -/
def pagingUnmap (table va size : Nat) : Kernel Unit :=
  if isPageAligned va && isPageAligned size then pagingUnmapPages table (pageIterations va size) va
  else Call.halt .panic

/-- `paging_lookup_desc`. -/
def pagingLookupDesc (table va : Nat) : Kernel Nat := walkPagetable table va false

/-- `paging_page_to_pa`. -/
def pagingPageToPa (pde va : Nat) : Kernel Nat := do
  let raw ← readWord pde
  return pageDescToPa (PageDescriptor.outputAddress.get raw) ||| (va &&& (PAGE_SIZE - 1))

/-- `paging_lookup`. -/
def pagingLookup (table va : Nat) : Kernel Nat := do
  let pde ← pagingLookupDesc table va
  if isErrValue pde then return 0 else pagingPageToPa pde va

end KaworuOS
