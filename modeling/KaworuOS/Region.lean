import KaworuOS.Bitmap

/-!
# The region allocator (`lib/allocator/region.c`)

A bitmap together with a table that remembers the page count of every allocation. A slot of the
table is free when its `va` is null.
-/

namespace KaworuOS
open Lib

/-- `RegionAllocation`. -/
structure RegionAllocation where
  va : Nat
  pageCount : Nat
  deriving DecidableEq, Repr

/-- `AllocRegion`; `max_allocations_count` is the length of the table. -/
structure AllocRegion where
  allocator : AllocBitMap
  allocations : List RegionAllocation

/-- `region_init`. -/
def regionInit (region : AllocRegion) : AllocRegion :=
  let bytes := sizeToBitmapBytes (wmul region.allocator.pageCount PAGE_SIZE)
  { allocator := { region.allocator with bitmap := region.allocator.bitmap.fill 0 bytes 0 }
    allocations := region.allocations.map (fun _ => ⟨0, 0⟩) }

/-- `region_find`: the index of the first slot whose `va` is `addr`. -/
def regionFind (region : AllocRegion) (addr : Nat) : Except Errno Nat :=
  match region.allocations.findIdx? (fun a => a.va == addr) with
  | some i => .ok i
  | none => .error .ENOENT

/-- `region_alloc`. The result is the address or an error pointer, as a number. -/
def regionAlloc (region : AllocRegion) (pageCount : Nat) : Except Halt (Nat × AllocRegion) :=
  if pageCount = 0 then .error .panic
  else
    match regionFind region 0 with
    | .error _ => .ok (errToPtr .ENOMEM, region)
    | .ok slot => do
      let (va, allocator) ← bitmapAlloc region.allocator pageCount
      if isErrValue va then .ok (va, { region with allocator := allocator })
      else .ok (va, ⟨allocator, region.allocations.set slot ⟨va, pageCount⟩⟩)

/-- `region_reserve`. -/
def regionReserve (region : AllocRegion) (va pageCount : Nat) : Except Halt (Errno × AllocRegion) :=
  if pageCount = 0 then .error .panic
  else
    match regionFind region 0 with
    | .error _ => .ok (.ENOMEM, region)
    | .ok slot => do
      let (err, allocator) ← bitmapReserve region.allocator va pageCount
      if err ≠ .EOK then .ok (err, { region with allocator := allocator })
      else .ok (.EOK, ⟨allocator, region.allocations.set slot ⟨va, pageCount⟩⟩)

/-- `region_free`. -/
def regionFree (region : AllocRegion) (addr : Nat) : Except Halt (Nat × AllocRegion) :=
  match regionFind region addr with
  | .error _ => .error .panic
  | .ok slot => do
    let pageCount := (region.allocations.getD slot ⟨0, 0⟩).pageCount
    let allocator ← bitmapFree region.allocator addr pageCount
    .ok (pageCount, ⟨allocator, region.allocations.set slot ⟨0, 0⟩⟩)

/-- `region_copy`, with `same` for `dst == src`. -/
def regionCopy (same : Bool) (dst src : AllocRegion) : Except Halt (Errno × AllocRegion) :=
  if same then .ok (.EOK, dst)
  else if dst.allocations.length < src.allocations.length then .ok (.ENOMEM, dst)
  else if dst.allocator.pageCount < src.allocator.pageCount then .ok (.ENOMEM, dst)
  else do
    let (err, allocator) ← bitmapCopy dst.allocator src.allocator
    if err ≠ .EOK then .ok (err, { dst with allocator := allocator })
    else
      let copied := src.allocations ++ dst.allocations.drop src.allocations.length
      let delta := wsub dst.allocator.pool src.allocator.pool
      if delta = 0 then .ok (.EOK, ⟨allocator, copied⟩)
      else
        let translate (a : RegionAllocation) : RegionAllocation :=
          if a.va ≠ 0 then { a with va := wadd a.va delta } else a
        let translated := src.allocations.map translate ++ dst.allocations.drop src.allocations.length
        .ok (.EOK, ⟨allocator, translated⟩)

end KaworuOS
