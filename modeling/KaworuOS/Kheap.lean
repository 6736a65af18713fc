import KaworuOS.Freelist

/-!
# The kernel heap (`kernel/mm/kheap.c`)

The heap is a free list over ranges of virtual memory. It grows by a range that the virtual memory manager
provides, and takes what `vm_alloc_mem` returns without a look at it.
-/

namespace KaworuOS
open Lib

/-- `INITIAL_HEAP_SIZE`. -/
abbrev INITIAL_HEAP_SIZE : Nat := roundUp (5 * 1000 * 1000)

/-- `MAX_HEAP_SIZE`. -/
abbrev MAX_HEAP_SIZE : Nat := 50 * 1000 * 1000

/-- `KERNEL_VM_RANGE_BASE`. -/
abbrev KERNEL_VM_RANGE_BASE : Nat := 0xffffffffa0000000

/-- `KERNEL_VM_RANGE_SIZE`. -/
abbrev KERNEL_VM_RANGE_SIZE : Nat := 2 ^ 30

/-- What the heap has below it: the result of `vm_alloc_mem` for a size, an address or an error pointer, with
the memory after the call, and the addresses that can be stored to. -/
structure HeapVm where
  vmAllocMem : Nat → Mem → Nat × Mem
  storable : Nat → Bool

/-- `KHeap`, with the memory that its blocks lie in. -/
structure KHeap where
  mem : Mem
  freelist : FreeList

/-- `IS_ERR`, for the result of `freelist_alloc`. -/
def isErr : Except Errno Nat → Bool
  | .error _ => true
  | .ok ptr => isErrValue ptr

namespace KHeap

/-- `kheap_init`, on the pool that `vm_alloc_mem` returns. -/
def kheapInit (mem : Mem) (pool : Nat) : KHeap :=
  let r := freelistInit mem pool INITIAL_HEAP_SIZE
  ⟨r.1, r.2⟩

/-- `grow_heap`. The size of the new region is that of the request, without a header. The first store of
`freelist_add_region` goes to the new region. -/
def growHeap (vm : HeapVm) (heap : KHeap) (size : Nat) : Except Halt KHeap := do
  assertThat (size ≠ 0)
  if MAX_HEAP_SIZE < wadd heap.freelist.capacity size then return heap
  let roundedSize := roundUp size
  let r := vm.vmAllocMem roundedSize heap.mem
  if r.1 ≠ 0 ∧ roundedSize ≠ 0 ∧ vm.storable r.1 = false then .error .fault
  else
    let r ← freelistAddRegion r.2 heap.freelist r.1 roundedSize
    return ⟨r.1, r.2⟩

/-- The part of `kalloc` after the first `freelist_alloc`, which has returned `alloc`: if that is an error, the
heap grows and `freelist_alloc` is called again. -/
def retry (vm : HeapVm) (alloc : Except Errno Nat × Mem × FreeList) (size : Nat) :
    Except Halt (Except Errno Nat × Mem × FreeList) :=
  if isErr alloc.1 then do
    let heap ← growHeap vm ⟨alloc.2.1, alloc.2.2⟩ size
    freelistAlloc heap.mem heap.freelist size
  else .ok alloc

/-- `kalloc`. -/
def kalloc (vm : HeapVm) (heap : KHeap) (size : Nat) : Except Halt (Except Errno Nat × KHeap) := do
  let alloc ← freelistAlloc heap.mem heap.freelist size
  let alloc ← retry vm alloc size
  if isErr alloc.1 then return (.error .ENOMEM, ⟨alloc.2.1, alloc.2.2⟩)
  return (alloc.1, ⟨alloc.2.1, alloc.2.2⟩)

/-- `kfree`. -/
def kfree (heap : KHeap) (ptr : Nat) : Except Halt KHeap := do
  assertThat (ptr ≠ 0)
  let r ← freelistFree heap.mem heap.freelist ptr
  return ⟨r.1, r.2⟩

end KHeap

end KaworuOS
