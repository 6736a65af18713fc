import KaworuOS.Proofs.SpaceLife

/-!
# What a new region answers

`region_create` leaves the bitmap as `kalloc` handed it out. Two regions that differ only in bits
beyond their pages cannot be told apart; a bit that is set within them is seen by the first call
that asks for all pages.
-/

namespace KaworuOS.Proofs
open Lib

/-- A call on a region. -/
inductive RegionOp
  | alloc (pageCount : Nat)
  | reserve (va pageCount : Nat)
  | find (addr : Nat)
  | free (addr : Nat)
  deriving DecidableEq, Repr

/-- What a call on a region returns. The result of `region_find` is shown with the entry behind it. -/
inductive RegionAnswer
  | pointer (va : Nat)
  | code (err : Errno)
  | entry (found : Except Errno (Nat × Option RegionAllocation))
  | pages (pageCount : Nat)
  deriving DecidableEq

/-- The call of one operation. -/
def RegionOp.run (region : AllocRegion) : RegionOp → Except Halt (RegionAnswer × AllocRegion)
  | alloc pageCount => do
    let (va, region) ← regionAlloc region pageCount
    .ok (.pointer va, region)
  | reserve va pageCount => do
    let (err, region) ← regionReserve region va pageCount
    .ok (.code err, region)
  | find addr => .ok (.entry ((regionFind region addr).map fun i => (i, region.allocations[i]?)), region)
  | free addr => do
    let (pageCount, region) ← regionFree region addr
    .ok (.pages pageCount, region)

/-- The answers to a sequence of calls, up to the first one that does not return. -/
def answers (region : AllocRegion) : List RegionOp → List (Except Halt RegionAnswer)
  | [] => []
  | op :: ops =>
    match op.run region with
    | .error halt => [.error halt]
    | .ok (answer, region) => .ok answer :: answers region ops

/-- Two bitmaps of one pool that agree on its pages. -/
structure AlikeMaps (alloc alloc' : AllocBitMap) : Prop where
  pageCount : alloc'.pageCount = alloc.pageCount
  pool : alloc'.pool = alloc.pool
  bits : ∀ q < alloc.pageCount, alloc'.bitmap.bit q = alloc.bitmap.bit q

/-- Two regions with the same table whose bitmaps agree. -/
structure Alike (region region' : AllocRegion) : Prop where
  maps : AlikeMaps region.allocator region'.allocator
  table : region'.allocations = region.allocations

section Bitmaps
variable {alloc alloc' : AllocBitMap}

lemma AlikeMaps.isPageAllocated (h : AlikeMaps alloc alloc') (page : Nat) :
    bmIsPageAllocated alloc' page = bmIsPageAllocated alloc page := by
  unfold bmIsPageAllocated bmGetPageAllocated
  rw [h.pageCount]
  split
  · rfl
  · rw [h.bits page (by omega)]

lemma AlikeMaps.countFreePages (h : AlikeMaps alloc alloc') (start left i : Nat) :
    bmCountFreePages alloc' start left i = bmCountFreePages alloc start left i := by
  induction left generalizing i with
  | zero => rfl
  | succ left ih => rw [bmCountFreePages, bmCountFreePages, h.isPageAllocated, ih]

lemma AlikeMaps.findFrom (h : AlikeMaps alloc alloc') (n fuel start : Nat) :
    bmFindFrom alloc' n fuel start = bmFindFrom alloc n fuel start := by
  induction fuel generalizing start with
  | zero => rfl
  | succ fuel ih => simp only [bmFindFrom, h.pageCount, h.countFreePages, ih]

lemma AlikeMaps.anyAllocated (h : AlikeMaps alloc alloc') (pages : List Nat) :
    bmAnyAllocated alloc' pages = bmAnyAllocated alloc pages := by
  induction pages with
  | nil => rfl
  | cons page pages ih => rw [bmAnyAllocated, bmAnyAllocated, h.isPageAllocated, ih]

lemma AlikeMaps.addrToPage (h : AlikeMaps alloc alloc') (addr : Nat) :
    bmAddrToPage alloc' addr = bmAddrToPage alloc addr := by
  unfold bmAddrToPage
  rw [h.pageCount, h.pool]

lemma AlikeMaps.set (h : AlikeMaps alloc alloc') (pages : List Nat) :
    AlikeMaps (pages.foldl bmSetPageAllocate alloc) (pages.foldl bmSetPageAllocate alloc') := by
  rw [foldl_bmSetPageAllocate, foldl_bmSetPageAllocate]
  refine ⟨h.pageCount, h.pool, ?_⟩
  intro q hq
  simp only [Mem.bit_foldl_setBit, h.bits q hq]

lemma AlikeMaps.clear (h : AlikeMaps alloc alloc') (pages : List Nat) :
    AlikeMaps (pages.foldl bmSetPageFree alloc) (pages.foldl bmSetPageFree alloc') := by
  rw [foldl_bmSetPageFree, foldl_bmSetPageFree]
  refine ⟨h.pageCount, h.pool, ?_⟩
  intro q hq
  simp only [Mem.bit_foldl_clearBit, h.bits q hq]

lemma AlikeMaps.rangeAsserts (h : AlikeMaps alloc alloc') (page n : Nat) :
    bmRangeAsserts alloc' page n = bmRangeAsserts alloc page n := by
  unfold bmRangeAsserts
  rw [h.pageCount]

lemma AlikeMaps.allocate (h : AlikeMaps alloc alloc') (page n : Nat) :
    Paired (SameAnswer AlikeMaps) (bmAllocate alloc page n) (bmAllocate alloc' page n) := by
  unfold bmAllocate
  rw [h.rangeAsserts]
  split
  · refine .ok ⟨?_, h.set _⟩
    rw [bmPageToAddr, bmPageToAddr, h.pool]
  · exact .error _

lemma AlikeMaps.bitmapAlloc (h : AlikeMaps alloc alloc') (n : Nat) :
    Paired (SameAnswer AlikeMaps) (bitmapAlloc alloc n) (bitmapAlloc alloc' n) := by
  unfold KaworuOS.bitmapAlloc bmFindNFreePages
  rw [h.pageCount, h.findFrom]
  refine .bind_same _ fun pos => ?_
  split
  · exact .ok ⟨rfl, h⟩
  · exact h.allocate _ _

lemma AlikeMaps.bitmapReserve (h : AlikeMaps alloc alloc') (addr n : Nat) :
    Paired (SameAnswer AlikeMaps) (bitmapReserve alloc addr n) (bitmapReserve alloc' addr n) := by
  unfold KaworuOS.bitmapReserve
  rw [h.addrToPage]
  refine .bind_same _ fun page => ?_
  rw [h.anyAllocated]
  refine .bind_same _ fun taken => ?_
  split
  · exact .ok ⟨rfl, h⟩
  · exact (h.allocate page n).bind fun _ _ hr => .ok ⟨rfl, hr.2⟩

lemma AlikeMaps.bitmapFree (h : AlikeMaps alloc alloc') (addr n : Nat) :
    Paired AlikeMaps (bitmapFree alloc addr n) (bitmapFree alloc' addr n) := by
  unfold KaworuOS.bitmapFree bmFree
  rw [h.addrToPage]
  refine .bind_same _ fun page => ?_
  rw [h.rangeAsserts]
  split
  · rename_i hasserts
    -- the asserts keep the loop below the page count, where the bitmaps agree
    have hbit : ∀ q ∈ pageLoop page n, bmGetPageAllocated alloc' q = bmGetPageAllocated alloc q := by
      intro q hq
      apply h.bits
      simp only [bmRangeAsserts, Bool.and_eq_true, decide_eq_true_eq] at hasserts
      rw [pageLoop, List.mem_range'_1] at hq
      omega
    have hall : (pageLoop page n).all (bmGetPageAllocated alloc') = (pageLoop page n).all
      (bmGetPageAllocated alloc) := by
      rw [Bool.eq_iff_iff, List.all_eq_true, List.all_eq_true]
      exact forall₂_congr fun q hq => by rw [hbit q hq]
    rw [hall]
    split
    · exact .ok (h.clear _)
    · exact .error _
  · exact .error _

end Bitmaps

section Regions
variable {region region' : AllocRegion}

lemma Alike.find (h : Alike region region') (addr : Nat) : regionFind region' addr = regionFind region addr := by
  rw [regionFind, regionFind, h.table]

lemma Alike.alloc (h : Alike region region') (n : Nat) :
    Paired (SameAnswer Alike) (regionAlloc region n) (regionAlloc region' n) := by
  unfold regionAlloc
  rw [h.find, h.table]
  split
  · exact .error _
  · cases regionFind region 0 with
    | error e => exact .ok ⟨rfl, h⟩
    | ok slot =>
      refine (h.maps.bitmapAlloc n).bind ?_
      rintro ⟨va, alloc⟩ ⟨_, alloc'⟩ ⟨rfl, hmaps⟩
      simp only
      split
      · exact .ok ⟨rfl, hmaps, rfl⟩
      · exact .ok ⟨rfl, hmaps, rfl⟩

lemma Alike.reserve (h : Alike region region') (va n : Nat) :
    Paired (SameAnswer Alike) (regionReserve region va n) (regionReserve region' va n) := by
  unfold regionReserve
  rw [h.find, h.table]
  split
  · exact .error _
  · cases regionFind region 0 with
    | error e => exact .ok ⟨rfl, h⟩
    | ok slot =>
      refine (h.maps.bitmapReserve va n).bind ?_
      rintro ⟨err, alloc⟩ ⟨_, alloc'⟩ ⟨rfl, hmaps⟩
      simp only
      split
      · exact .ok ⟨rfl, hmaps, rfl⟩
      · exact .ok ⟨rfl, hmaps, rfl⟩

lemma Alike.free (h : Alike region region') (addr : Nat) :
    Paired (SameAnswer Alike) (regionFree region addr) (regionFree region' addr) := by
  unfold regionFree
  rw [h.find, h.table]
  cases regionFind region addr with
  | error e => exact .error _
  | ok slot => exact (h.maps.bitmapFree _ _).bind fun _ _ hmaps => .ok ⟨rfl, hmaps, rfl⟩

/-- Every call gives the same answer for regions that agree, and they agree afterwards. -/
lemma Alike.run (h : Alike region region') (op : RegionOp) :
    Paired (SameAnswer Alike) (op.run region) (op.run region') := by
  cases op with
  | alloc n => exact (h.alloc n).bind fun _ _ hr => .ok ⟨by rw [hr.1], hr.2⟩
  | reserve va n => exact (h.reserve va n).bind fun _ _ hr => .ok ⟨by rw [hr.1], hr.2⟩
  | find addr => exact .ok ⟨by rw [h.find, h.table], h⟩
  | free addr => exact (h.free addr).bind fun _ _ hr => .ok ⟨by rw [hr.1], hr.2⟩

/-- A relation that every call keeps, with equal answers, gives equal answers to every sequence. -/
lemma answers_eq {R : AllocRegion → AllocRegion → Prop}
    (hrun : ∀ {r r'}, R r r' → ∀ op : RegionOp, Paired (SameAnswer R) (op.run r) (op.run r'))
    (h : R region region') (ops : List RegionOp) : answers region' ops = answers region ops := by
  induction ops generalizing region region' with
  | nil => rfl
  | cons op ops ih =>
    have hpaired := hrun h op
    rw [answers, answers]
    revert hpaired
    generalize op.run region = x
    generalize op.run region' = x'
    intro hpaired
    cases hpaired with
    | error e => rfl
    | ok hr =>
      rename_i a a'
      obtain ⟨answer, r⟩ := a
      obtain ⟨answer', r'⟩ := a'
      obtain ⟨rfl, hr⟩ := hr
      simp only [ih hr]

/-- Two regions without a table. -/
def Tableless (region region' : AllocRegion) : Prop := region.allocations = [] ∧ region'.allocations = []

/-- A region without a table refuses every call, whatever its bitmap holds. -/
lemma Tableless.run (h : Tableless region region') (op : RegionOp) :
    Paired (SameAnswer Tableless) (op.run region) (op.run region') := by
  have hfind : ∀ addr, regionFind region addr = .error .ENOENT := by simp [regionFind, h.1]
  have hfind' : ∀ addr, regionFind region' addr = .error .ENOENT := by simp [regionFind, h.2]
  cases op with
  | alloc n =>
    simp only [RegionOp.run, regionAlloc, hfind, hfind']
    by_cases hn : n = 0
    · simp only [hn, if_true]
      exact .error _
    · simp only [hn, if_false]
      exact .ok ⟨rfl, h⟩
  | reserve va n =>
    simp only [RegionOp.run, regionReserve, hfind, hfind']
    by_cases hn : n = 0
    · simp only [hn, if_true]
      exact .error _
    · simp only [hn, if_false]
      exact .ok ⟨rfl, h⟩
  | find addr =>
    simp only [RegionOp.run, hfind, hfind']
    exact .ok ⟨rfl, h⟩
  | free addr =>
    simp only [RegionOp.run, regionFree, hfind, hfind']
    exact .error _

end Regions

/-- A region as it is created over a bitmap with the given bytes. -/
def newRegion (bytes : Mem) (base size maxAllocations : Nat) : AllocRegion :=
  ⟨⟨bytes, size / PAGE_SIZE, base⟩, List.replicate maxAllocations ⟨0, 0⟩⟩

/-- A region with no page allocated and no live entry. -/
def freshRegion : Nat → Nat → Nat → AllocRegion := newRegion (fun _ => 0)

/-- The bytes that a block of the heap holds. -/
def blockBytes (s : Mm) (block : Nat) : Mem := fun i => s.mem (wadd block i)

section
variable {base size maxAllocations : Nat} (bytes : Mem)

lemma newRegion_alike {bytes : Mem} (hclear : ∀ q < size / PAGE_SIZE, bytes.bit q = false) :
    Alike (freshRegion base size maxAllocations) (newRegion bytes base size maxAllocations) := by
  refine ⟨⟨rfl, rfl, ?_⟩, rfl⟩
  intro q hq
  have hzero : (freshRegion base size maxAllocations).allocator.bitmap.bit q = false := by
    simp [freshRegion, newRegion, Mem.bit, getBit]
  rw [hzero]
  exact hclear q hq

/-- A new region hands out all of its pages at once exactly if none of their bits is set. -/
lemma newRegion_alloc_all (hbase : isErrValue base = false) (hsize : size < 2 ^ 64)
    (hpos : 0 < size / PAGE_SIZE) (hmax : maxAllocations ≠ 0) :
    ∃ va, answers (newRegion bytes base size maxAllocations) [.alloc (size / PAGE_SIZE)] = [.ok (.pointer va)] ∧
      (va = base ↔ ∀ q < size / PAGE_SIZE, bytes.bit q = false) := by
  have hn : size / PAGE_SIZE ≤ 2 ^ 52 := by
    unfold PAGE_SIZE
    omega
  have hfind : regionFind (newRegion bytes base size maxAllocations) 0 = .ok 0 := by
    obtain ⟨n, rfl⟩ := Nat.exists_eq_succ_of_ne_zero hmax
    rfl
  have hrun : ∀ {va alloc'}, bitmapAlloc ⟨bytes, size / PAGE_SIZE, base⟩ (size / PAGE_SIZE) = .ok (va, alloc') →
      answers (newRegion bytes base size maxAllocations) [.alloc (size / PAGE_SIZE)] = [.ok (.pointer va)] := by
    intro va alloc' hcall
    have hcall' : bitmapAlloc (newRegion bytes base size maxAllocations).allocator (size / PAGE_SIZE) = .ok
      (va, alloc') :=
      hcall
    simp only [answers, RegionOp.run, regionAlloc, if_neg hpos.ne', hfind, hcall', bind, Except.bind]
    cases isErrValue va <;> rfl
  have hspec := @bitmapAlloc_spec ⟨bytes, size / PAGE_SIZE, base⟩ _ hn hn hpos
  rcases hspec with ⟨hfail, hnone⟩ | ⟨page, alloc', hok, hin, hfree, -⟩
  · refine ⟨_, hrun hfail, ?_⟩
    constructor
    · rintro rfl
      rw [isErrValue_errToPtr] at hbase
      cases hbase
    · intro hclear
      obtain ⟨q, hq, hbit⟩ := hnone 0 (le_refl 0) (by simp)
      unfold Block.Has at hq
      rw [hclear q (by simpa using hq.2)] at hbit
      cases hbit
  · -- only the first page begins a range of all pages
    obtain rfl : page = 0 := by
      simp only at hin
      omega
    have haddr : bmPageToAddr ⟨bytes, size / PAGE_SIZE, base⟩ 0 = base := by
      unfold isErrValue wordSize EMAXERR at hbase
      rw [decide_eq_false_iff_not] at hbase
      simp only [bmPageToAddr, wmul, Nat.zero_mul, Nat.zero_mod, wadd, Nat.add_zero]
      exact Nat.mod_eq_of_lt (by unfold wordSize; omega)
    rw [haddr] at hok
    refine ⟨_, hrun hok, iff_of_true rfl ?_⟩
    intro q hq
    exact hfree q ⟨Nat.zero_le q, by simpa using hq⟩

/-- The answers of a new region are those of an empty one exactly if it has no table or no bit is set
for any of its pages. -/
lemma newRegion_answers_iff (hbase : isErrValue base = false) (hsize : size < 2 ^ 64) :
    (∀ ops, answers (newRegion bytes base size maxAllocations) ops = answers
      (freshRegion base size maxAllocations) ops) ↔
      maxAllocations = 0 ∨ ∀ q < size / PAGE_SIZE, bytes.bit q = false := by
  constructor
  · intro hsame
    rw [or_iff_not_imp_left]
    intro hmax q hq
    obtain ⟨va, hva, hiff⟩ := newRegion_alloc_all bytes hbase hsize (by omega) hmax
    obtain ⟨va₀, hva₀, hiff₀⟩ := newRegion_alloc_all (fun _ => 0) hbase hsize (by omega) hmax
    have hbase₀ : va₀ = base := hiff₀.mpr fun q _ => by simp [Mem.bit, getBit]
    have heq := hsame [.alloc (size / PAGE_SIZE)]
    rw [hva, freshRegion, hva₀, hbase₀] at heq
    simp only [List.cons.injEq, Except.ok.injEq, RegionAnswer.pointer.injEq, and_true] at heq
    exact hiff.mp heq q hq
  · rintro (rfl | hclear) ops
    · exact answers_eq Tableless.run ⟨rfl, rfl⟩ ops
    · exact answers_eq Alike.run (newRegion_alike hclear) ops

end

/-- The state of a heap with three blocks whose old bytes are all `b`. -/
def recycledHeap (b : UInt8) : Mm := ⟨fun _ => b, 0, 0, ⟨[0x1000, 0x2000, 0x3000], []⟩, ⟨0, [], [], []⟩⟩

/-- A region of two pages and four entries on that heap. -/
def recycledRegion (b : UInt8) : HeapRegion :=
  ⟨0x1000, 0x2000, 0x3000, newRegion (blockBytes (recycledHeap b) 0x2000) 0x10000 0x2000 4⟩

lemma recycledHeap_create (b : UInt8) : ∃ s', regionCreate 0x10000 0x2000 4 (recycledHeap b) =
    (.ok (.ok (recycledRegion b)), s') := ⟨_, rfl⟩

/-- Two regions created over heaps that differ only in their old bytes answer every sequence of calls
alike, as an empty region does, exactly if they have no table or neither bitmap block has a bit set for
one of their pages. -/
theorem region_create_empty_iff {s t s' t' : Mm} {base size maxAllocations bitmap : Nat}
    {r r' : HeapRegion} (hheap : t.heap = s.heap) (hbitmap : s.heap.blocks[1]? = some bitmap)
    (hbase : isErrValue base = false) (hsize : size < 2 ^ 64)
    (hs : regionCreate base size maxAllocations s = (.ok (.ok r), s'))
    (ht : regionCreate base size maxAllocations t = (.ok (.ok r'), t')) :
    (∀ ops, answers r.region ops = answers r'.region ops ∧
        answers r.region ops = answers (freshRegion base size maxAllocations) ops) ↔
      maxAllocations = 0 ∨ (∀ q < size / PAGE_SIZE, (blockBytes s bitmap).bit q = false) ∧
        ∀ q < size / PAGE_SIZE, (blockBytes t bitmap).bit q = false := by
  obtain ⟨rest, hblocks, hregion, -⟩ := regionCreate_ok hs
  obtain ⟨rest', hblocks', hregion', -⟩ := regionCreate_ok ht
  have hr : r.bitmapBlock = bitmap := by
    rw [hblocks] at hbitmap
    exact Option.some.inj hbitmap
  have hr' : r'.bitmapBlock = bitmap := by
    rw [← hheap, hblocks'] at hbitmap
    exact Option.some.inj hbitmap
  rw [hr] at hregion
  rw [hr'] at hregion'
  rw [hregion, hregion', or_and_left, ← newRegion_answers_iff (blockBytes s bitmap) hbase hsize,
    ← newRegion_answers_iff (blockBytes t bitmap) hbase hsize]
  constructor
  · intro h
    exact ⟨fun ops => (h ops).2, fun ops => (h ops).1.symm.trans (h ops).2⟩
  · rintro ⟨h, h'⟩ ops
    exact ⟨(h ops).trans (h' ops).symm, h ops⟩

/-- Two heaps whose old bytes differ only in bits that belong to no page of the region. -/
theorem region_create_empty_iff_spare_bits :
    answers (recycledRegion 0).region [.alloc 1, .alloc 1, .free 0x10000, .alloc 2] =
        answers (recycledRegion 0xFC).region [.alloc 1, .alloc 1, .free 0x10000, .alloc 2] ∧
      answers (recycledRegion 0).region [.alloc 1, .alloc 1, .free 0x10000, .alloc 2] =
        answers (freshRegion 0x10000 0x2000 4) [.alloc 1, .alloc 1, .free 0x10000, .alloc 2] := by
  obtain ⟨s', hs⟩ := recycledHeap_create 0
  obtain ⟨t', ht⟩ := recycledHeap_create 0xFC
  exact (region_create_empty_iff (s := recycledHeap 0) (t := recycledHeap 0xFC) rfl rfl (by decide)
    (by decide) hs ht).mpr
    (.inr ⟨by decide +kernel, by decide +kernel⟩) _

/-- On a heap whose old bytes are ones, a new region of two pages does not hand out a single one. -/
theorem region_create_reads_old_bytes :
    ¬∀ (s t s' t' : Mm) (r r' : HeapRegion), t.heap = s.heap →
      regionCreate 0x10000 0x2000 4 s = (.ok (.ok r), s') → regionCreate 0x10000 0x2000 4 t = (.ok (.ok r'), t') →
      ∀ ops, answers r.region ops = answers r'.region ops := by
  intro hclaim
  obtain ⟨s', hs⟩ := recycledHeap_create 0
  obtain ⟨t', ht⟩ := recycledHeap_create 0xFF
  have hsame := hclaim (recycledHeap 0) (recycledHeap 0xFF) s' t' _ _ rfl hs ht [.alloc 1]
  have hclean : answers (recycledRegion 0).region [.alloc 1] = [.ok (.pointer 0x10000)] := by decide +kernel
  have hdirty : answers (recycledRegion 0xFF).region [.alloc 1] = [.ok (.pointer (errToPtr .ENOMEM))] := by
    decide +kernel
  rw [hclean, hdirty] at hsame
  revert hsame
  decide

end KaworuOS.Proofs
