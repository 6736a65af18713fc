import KaworuOS.Base
import KaworuOS.Lib.BitMem

/-!
# The bitmap page allocator (`lib/allocator/bitmap.c`)

The bitmap is an array of bytes, bit `page % 8` of byte `page / 8` belonging to `page`.
-/

namespace KaworuOS
open Lib

/-- `SIZE_TO_BITMAP_BYTES`. -/
def sizeToBitmapBytes (size : Nat) : Nat := (size / PAGE_SIZE + 7) / 8

/-- `AllocBitMap`, with the bytes that `bitmap` points to. -/
structure AllocBitMap where
  bitmap : Mem
  pageCount : Nat
  pool : Nat

/-- `bm_get_page_allocated`. -/
def bmGetPageAllocated (alloc : AllocBitMap) (page : Nat) : Bool := alloc.bitmap.bit page

/-- `bm_set_page_allocate`. -/
def bmSetPageAllocate (alloc : AllocBitMap) (page : Nat) : AllocBitMap :=
  { alloc with bitmap := alloc.bitmap.setBit page }

/-- `bm_set_page_free`. -/
def bmSetPageFree (alloc : AllocBitMap) (page : Nat) : AllocBitMap :=
  { alloc with bitmap := alloc.bitmap.clearBit page }

/-- `bm_page_to_addr`. -/
def bmPageToAddr (alloc : AllocBitMap) (page : Nat) : Nat := wadd alloc.pool (wmul page PAGE_SIZE)

/-- `bm_addr_to_page`. -/
def bmAddrToPage (alloc : AllocBitMap) (addr : Nat) : Except Halt Nat :=
  if addr < alloc.pool then .error .panic
  else if wadd alloc.pool (wmul alloc.pageCount PAGE_SIZE) ≤ addr then .error .panic
  else .ok ((addr - alloc.pool) / PAGE_SIZE)

/-- `bm_is_page_allocated`. -/
def bmIsPageAllocated (alloc : AllocBitMap) (page : Nat) : Except Halt Bool :=
  if alloc.pageCount ≤ page then .error .panic else .ok (bmGetPageAllocated alloc page)

/-- The values of `pos` in `for (usize pos = page; pos < page + page_count; pos++)`. -/
def pageLoop (page pageCount : Nat) : List Nat := List.range' page (wadd page pageCount - page)

/-- The `ASSERT`s that `bm_allocate` and `bm_free` share. -/
def bmRangeAsserts (alloc : AllocBitMap) (page pageCount : Nat) : Bool :=
  decide (page < alloc.pageCount) && decide (wadd page pageCount ≤ alloc.pageCount) &&
    decide (0 < pageCount)

/-- `bm_allocate`. -/
def bmAllocate (alloc : AllocBitMap) (page pageCount : Nat) : Except Halt (Nat × AllocBitMap) :=
  if bmRangeAsserts alloc page pageCount then
    .ok (bmPageToAddr alloc page, (pageLoop page pageCount).foldl bmSetPageAllocate alloc)
  else .error .panic

/-- `bm_free`. -/
def bmFree (alloc : AllocBitMap) (addr pageCount : Nat) : Except Halt AllocBitMap := do
  let page ← bmAddrToPage alloc addr
  if bmRangeAsserts alloc page pageCount then
    if (pageLoop page pageCount).all (bmGetPageAllocated alloc) then
      .ok ((pageLoop page pageCount).foldl bmSetPageFree alloc)
    else .error .panic
  else .error .panic

/-- The inner loop of `bm_find_n_free_pages`, with the `left` pages from `start + i` on still to
be looked at. -/
def bmCountFreePages (alloc : AllocBitMap) (start : Nat) : Nat → Nat → Except Halt Nat
  | 0, i => .ok i
  | left + 1, i => do
    if ← bmIsPageAllocated alloc (wadd start i) then .ok i
    else bmCountFreePages alloc start left (i + 1)

/-- The outer loop of `bm_find_n_free_pages`, from `start` on. -/
def bmFindFrom (alloc : AllocBitMap) (pageCount : Nat) : Nat → Nat → Except Halt Nat
  | 0, _ => .error .hang
  | fuel + 1, start =>
    if wadd start pageCount ≤ alloc.pageCount then do
      let i ← bmCountFreePages alloc start pageCount 0
      if i = pageCount then .ok start else bmFindFrom alloc pageCount fuel (wadd start (i + 1))
    else .ok (wordSize - 1)

/-- `bm_find_n_free_pages`. The result `SIZE_MAX` means that there are none. -/
def bmFindNFreePages (alloc : AllocBitMap) (pageCount : Nat) : Except Halt Nat :=
  bmFindFrom alloc pageCount (alloc.pageCount + 2) 0

/-- `bitmap_alloc`. -/
def bitmapAlloc (alloc : AllocBitMap) (pageCount : Nat) : Except Halt (Nat × AllocBitMap) := do
  let freeNPos ← bmFindNFreePages alloc pageCount
  if freeNPos = wordSize - 1 then .ok (errToPtr .ENOMEM, alloc) else bmAllocate alloc freeNPos pageCount

/-- The loop of `bitmap_reserve` that looks for a page that is taken. -/
def bmAnyAllocated (alloc : AllocBitMap) : List Nat → Except Halt Bool
  | [] => .ok false
  | pos :: rest => do
    if ← bmIsPageAllocated alloc pos then .ok true else bmAnyAllocated alloc rest

/-- `bitmap_reserve`. -/
def bitmapReserve (alloc : AllocBitMap) (addr pageCount : Nat) : Except Halt (Errno × AllocBitMap) := do
  let page ← bmAddrToPage alloc addr
  if ← bmAnyAllocated alloc (pageLoop page pageCount) then .ok (.ENOMEM, alloc)
  else
    let (_, alloc) ← bmAllocate alloc page pageCount
    .ok (.EOK, alloc)

/-- `bitmap_free`. -/
def bitmapFree (alloc : AllocBitMap) (addr pageCount : Nat) : Except Halt AllocBitMap :=
  bmFree alloc addr pageCount

/-- The loop of `bitmap_copy`. -/
def bmCopyPages (src : AllocBitMap) : List Nat → AllocBitMap → Except Halt AllocBitMap
  | [], dst => .ok dst
  | page :: rest, dst => do
    if ← bmIsPageAllocated src page then bmCopyPages src rest (bmSetPageAllocate dst page)
    else bmCopyPages src rest dst

/-- `bitmap_copy`. -/
def bitmapCopy (dst src : AllocBitMap) : Except Halt (Errno × AllocBitMap) :=
  if dst.pageCount < src.pageCount then .ok (.ENOMEM, dst)
  else do
    let cleared := dst.bitmap.fill 0 (sizeToBitmapBytes (wmul dst.pageCount PAGE_SIZE)) 0
    let dst ← bmCopyPages src (List.range src.pageCount) { dst with bitmap := cleared }
    .ok (.EOK, dst)

end KaworuOS
