import KaworuOS.Base
import KaworuOS.Lib.ByteMem

/-!
# The intrusive first-fit free list (`lib/allocator/freelist.c`)

Every block begins with a 16-byte header, its size and the address of the next free block.
The header of an allocated block keeps the size. Walks along the list are given as much
fuel as there are addresses; a walk that uses it up does not end.
-/

namespace KaworuOS
open Lib

/-- `sizeof(FreeListBlockEntry)`. -/
abbrev entrySize : Nat := 16

/-- `entry->size`. -/
def blockSize (mem : Mem) (entry : Nat) : Nat := mem.load64 entry

/-- `entry->next`. -/
def blockNext (mem : Mem) (entry : Nat) : Nat := mem.load64 (entry + 8)

/-- `entry->size = v`. -/
def setBlockSize (mem : Mem) (entry v : Nat) : Mem := mem.store64 entry v

/-- `entry->next = v`. -/
def setBlockNext (mem : Mem) (entry v : Nat) : Mem := mem.store64 (entry + 8) v

/-- `FreeList`. -/
structure FreeList where
  head : Nat
  capacity : Nat
  deriving DecidableEq, Repr

/-- `freelist_init`. The `next` field of the first block is what the pool holds there. -/
def freelistInit (mem : Mem) (pool size : Nat) : Mem × FreeList :=
  (setBlockSize mem pool size, ⟨pool, size⟩)

/-- The search loop of `freelist_alloc`: the first block that fits and its predecessor,
or null for the block when there is none. -/
def findFit (mem : Mem) (actualSize : Nat) : Nat → Nat → Nat → Except Halt (Nat × Nat)
  | 0, _, _ => .error .hang
  | fuel + 1, prev, curr =>
    if curr = 0 then .ok (prev, curr)
    else if actualSize ≤ blockSize mem curr then .ok (prev, curr)
    else findFit mem actualSize fuel curr (blockNext mem curr)

/-- `if (prev) prev->next = v; else freelist->head = v;`. -/
def setLink (mem : Mem) (fl : FreeList) (prev v : Nat) : Mem × FreeList :=
  if prev ≠ 0 then (setBlockNext mem prev v, fl) else (mem, { fl with head := v })

/-- `freelist_alloc`. -/
def freelistAlloc (mem : Mem) (fl : FreeList) (size : Nat) :
    Except Halt (Except Errno Nat × Mem × FreeList) :=
  if fl.head = 0 then .error .panic
  else if size = 0 then .error .panic
  else
    let actualSize := wadd size entrySize
    match findFit mem actualSize wordSize 0 fl.head with
    | .error e => .error e
    | .ok (prev, curr) =>
      if curr = 0 then .ok (.error .ENOMEM, mem, fl)
      else
        let remain := wsub (blockSize mem curr) actualSize
        if entrySize ≤ remain then
          -- split: the tail of the block stays on the list
          let new := wadd curr actualSize
          let mem := setBlockSize mem new remain
          let mem := setBlockNext mem new (blockNext mem curr)
          let (mem, fl) := setLink mem fl prev new
          .ok (.ok (wadd curr entrySize), setBlockSize mem curr actualSize, fl)
        else
          -- consume the whole block, whose header keeps its size
          let (mem, fl) := setLink mem fl prev (blockNext mem curr)
          .ok (.ok (wadd curr entrySize), mem, fl)

/-- `coalesce`. -/
def coalesce (mem : Mem) (left right : Nat) : Mem :=
  if left = 0 ∨ right = 0 then mem
  else if wadd left (blockSize mem left) ≠ right then mem
  else
    let mem := setBlockSize mem left (wadd (blockSize mem left) (blockSize mem right))
    setBlockNext mem left (blockNext mem right)

/-- The loop that looks for the last free block below `entry`. -/
def findBefore (mem : Mem) (entry : Nat) : Nat → Nat → Except Halt Nat
  | 0, _ => .error .hang
  | fuel + 1, curr =>
    if blockNext mem curr ≠ 0 ∧ blockNext mem curr < entry then
      findBefore mem entry fuel (blockNext mem curr)
    else .ok curr

/-- The insertion by address that `freelist_free` and `freelist_add_region` share. -/
def insertBlock (mem : Mem) (fl : FreeList) (entry : Nat) : Except Halt (Mem × FreeList) :=
  if fl.head = 0 ∨ entry < fl.head then
    let mem := setBlockNext mem entry fl.head
    let fl := { fl with head := entry }
    .ok (coalesce mem entry (blockNext mem entry), fl)
  else
    match findBefore mem entry wordSize fl.head with
    | .error e => .error e
    | .ok curr =>
      let mem := setBlockNext mem entry (blockNext mem curr)
      let mem := setBlockNext mem curr entry
      let mem := coalesce mem entry (blockNext mem entry)
      .ok (coalesce mem curr entry, fl)

/-- `freelist_free`. -/
def freelistFree (mem : Mem) (fl : FreeList) (ptr : Nat) : Except Halt (Mem × FreeList) :=
  if fl.head = 0 then .error .panic
  else if ptr = 0 then .error .panic
  else insertBlock mem fl (wsub ptr entrySize)

/-- `freelist_add_region`. -/
def freelistAddRegion (mem : Mem) (fl : FreeList) (pool size : Nat) : Except Halt (Mem × FreeList) :=
  if pool = 0 then .error .panic
  else if size = 0 then .error .panic
  else
    let mem := setBlockSize mem pool size
    let fl := { fl with capacity := wadd fl.capacity size }
    insertBlock mem fl pool

end KaworuOS
