import KaworuOS.Base
import KaworuOS.Lib.ByteMem
import KaworuOS.Lib.Call

/-!
# Physical frames and the memory of the kernel (`kernel/mm/pmm.c`, `lib/string.c`)

The memory is the one that the kernel sees: it is indexed by virtual addresses, and the frame at
physical address `pa` is found at `pa + hhdm`. The free frames form a chain through their first
words.
-/

namespace KaworuOS
open Lib

/-- The part of the kernel heap that the memory management uses, for as long as the heap does not
grow. `blocks` lists what the next calls of `kalloc` will return, and `live` the blocks that have
been handed out and not been freed. -/
structure Heap where
  blocks : List Nat
  live : List Nat

/-- A call of `memcpy`. -/
structure Copy where
  dest : Nat
  src : Nat
  size : Nat
  deriving DecidableEq, Repr

/-- What has happened so far: how often `pmm_alloc` found no frame, the arguments of `pmm_free` and
of `kfree`, and the calls of `memcpy`; the newest comes first. -/
structure Log where
  failed : Nat
  released : List Nat
  kfreed : List Nat
  copies : List Copy

/-- The state of the memory management. -/
structure Mm where
  mem : Mem
  hhdm : Nat
  freeList : Nat
  heap : Heap
  log : Log

/-- Code that runs on the state of the memory management. -/
abbrev Kernel := Call Halt Mm

/-- Reads the word that a pointer designates. An error pointer designates nothing. -/
def readWord (p : Nat) : Kernel Nat :=
  if isErrValue p then Call.halt .fault else Call.read (fun s => s.mem.load64 p)

/-- Writes the word that a pointer designates. -/
def writeWord (p v : Nat) : Kernel Unit :=
  if isErrValue p then Call.halt .fault else Call.update (fun s => { s with mem := s.mem.store64 p v })

/-- `memset`. -/
def memset (p : Nat) (byte : UInt8) (count : Nat) : Kernel Unit :=
  Call.update (fun s => { s with mem := s.mem.fill p count byte })

/-- The loop of `memcpy`. -/
def copyBytes (mem : Mem) (dest src : Nat) : Nat → Mem
  | 0 => mem
  | size + 1 => copyBytes (mem.set dest (mem src)) (wadd dest 1) (wadd src 1) size

/-- `memcpy`. -/
def memcpy (dest src size : Nat) : Kernel Unit :=
  Call.update (fun s => { s with
    mem := copyBytes s.mem dest src size
    log := { s.log with copies := ⟨dest, src, size⟩ :: s.log.copies } })

/-- `pmm_phys_to_virt`. -/
def pmmPhysToVirt (phy : Nat) : Kernel Nat := Call.read (fun s => wadd phy s.hhdm)

/-- `pmm_virt_to_phys`. -/
def pmmVirtToPhys (virt : Nat) : Kernel Nat := do
  let offset ← Call.read (fun s => s.hhdm)
  if offset ≤ virt then return virt - offset else Call.halt .panic

/-- `pmm_alloc`. The result is a physical address or an error value. -/
def pmmAlloc : Kernel Nat := do
  let ret ← Call.read (fun s => s.freeList)
  if ret = 0 then
    Call.update (fun s => { s with log := { s.log with failed := s.log.failed + 1 } })
    return errToPtr .ENOMEM
  else
    let next ← readWord ret
    Call.update (fun s => { s with freeList := next })
    memset ret 0 PAGE_SIZE
    pmmVirtToPhys ret

/-- `pmm_free`. -/
def pmmFree (phyAddr : Nat) : Kernel Unit := do
  if isPageAligned phyAddr then
    let p ← pmmPhysToVirt phyAddr
    let next ← Call.read (fun s => s.freeList)
    writeWord p next
    Call.update (fun s => { s with
      freeList := p
      log := { s.log with released := phyAddr :: s.log.released } })
  else Call.halt .panic

/-- `MemMapEntryType`. -/
inductive MemMapEntryType
  | USABLE
  | RESERVED
  | ACPI_RECLAIMABLE
  | ACPI_NVS
  | BAD_MEMORY
  | BOOTLOADER_RECLAIMABLE
  | EXECUTABLE_AND_MODULES
  | FRAMEBUFFER
  | RESERVED_MAPPED
  | UNKNOWN
  deriving DecidableEq, Repr

/-- `MemMapEntry`. -/
structure MemMapEntry where
  base : Nat
  length : Nat
  type : MemMapEntryType
  deriving DecidableEq, Repr

/-- The loop of `pmm_free_range`. -/
def pmmFreePages (end_ : Nat) : Nat → Nat → Kernel Unit
  | 0, _ => Call.halt .hang
  | turns + 1, p =>
    if wadd p PAGE_SIZE ≤ end_ then do
      pmmFree p
      pmmFreePages end_ turns (wadd p PAGE_SIZE)
    else return ()

/-- More turns than there are pages: a loop that has not ended by then is back where it started. -/
@[irreducible] def pageTurns : Nat := 2 ^ 52 + 1

/-- `pmm_free_range`. -/
def pmmFreeRange (start end_ : Nat) : Kernel Unit := pmmFreePages end_ pageTurns start

/-- `pmm_init` on the entries of `memmap_get_table`. -/
def pmmInit (entries : List MemMapEntry) : Kernel Unit :=
  Call.each (fun entry =>
    match entry.type with
    | .ACPI_RECLAIMABLE | .USABLE => pmmFreeRange entry.base (wadd entry.base entry.length)
    | _ => return ()) entries

/-- `kalloc` on a heap that does not grow for the call. Which block it returns depends on the size
and on the free list, and is read off `blocks`. With none left the heap is at its limit. -/
def kalloc : Kernel Nat := do
  match ← Call.read (fun s => s.heap.blocks) with
  | [] => return errToPtr .ENOMEM
  | block :: blocks => do
    Call.update (fun s => { s with heap := ⟨blocks, block :: s.heap.live⟩ })
    return block

/-- `kfree`. -/
def kfree (ptr : Nat) : Kernel Unit := do
  let live ← Call.read (fun s => s.heap.live)
  if ptr ∈ live then
    Call.update (fun s => { s with
      heap := { s.heap with live := s.heap.live.erase ptr }
      log := { s.log with kfreed := ptr :: s.log.kfreed } })
  else Call.halt .fault

end KaworuOS
