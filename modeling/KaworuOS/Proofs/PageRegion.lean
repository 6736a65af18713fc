import KaworuOS.Proofs.Region
import KaworuOS.Proofs.PagingWalk

/-!
# Regions of page-aligned allocations

A region whose range one page table can translate without an alias. `Owned region q` says that the
page `q` belongs to a live allocation.
-/

namespace KaworuOS.Proofs
open Lib

/-- The `n` pages from `va` on lie in one of the windows of 48 bits, and do not reach the end of the
address space. -/
structure Span (va n : Nat) : Prop where
  aligned : va % 4096 = 0
  window : va % 2 ^ 48 + n * 4096 ≤ 2 ^ 48
  inside : va + n * 4096 < 2 ^ 64

/-- A consistent region in one window, with page-aligned allocations. -/
structure PageRegion (region : AllocRegion) : Prop where
  inv : RegionInv region
  span : Span region.allocator.pool region.allocator.pageCount
  aligned : ∀ a ∈ region.allocations, a.va ≠ 0 → a.va % 4096 = 0
  blank : ∀ a ∈ region.allocations, a.va = 0 → a.pageCount = 0

/-- The page `q` belongs to the allocation. -/
def RegionAllocation.Covers (a : RegionAllocation) (q : Nat) : Prop :=
  pageOf a.va ≤ q ∧ q < pageOf a.va + a.pageCount

/-- The page `q` belongs to a live allocation of the region. -/
def Owned (region : AllocRegion) (q : Nat) : Prop :=
  ∃ a ∈ region.allocations, a.va ≠ 0 ∧ RegionAllocation.Covers a q

variable {region region' : AllocRegion} {va n q : Nat} {a : RegionAllocation}

lemma Span.tail (h : Span va (n + 1)) : Span (va + 4096) n := by
  obtain ⟨h1, h2, h3⟩ := h
  refine ⟨by omega, by omega, by omega⟩

lemma Span.pageOf_add (h : Span va n) {i : Nat} (hi : i < n) : pageOf (va + i * 4096) = pageOf va + i := by
  obtain ⟨h1, h2, h3⟩ := h
  unfold pageOf
  omega

lemma Span.page (h : Span va n) {i : Nat} (hi : i < n) : Span (va + i * 4096) 1 := by
  obtain ⟨h1, h2, h3⟩ := h
  refine ⟨by omega, by omega, by omega⟩

lemma Span.addr (h : Span va n) {i : Nat} (hi : i < n) : wadd va (wmul i PAGE_SIZE) = va + i * 4096 := by
  have h1 : i * 4096 ≤ n * 4096 := Nat.mul_le_mul_right _ (Nat.le_of_lt hi)
  have h2 : va + i * 4096 < 2 ^ 64 := Nat.lt_of_le_of_lt (Nat.add_le_add_left h1 va) h.inside
  have h3 : wmul i PAGE_SIZE = i * 4096 := wmul_of_lt (Nat.lt_of_le_of_lt (Nat.le_add_left _ _) h2)
  rw [h3, wadd_of_lt h2]

lemma Span.part (h : Span va n) {k m : Nat} (hk : k + m ≤ n) : Span (va + k * 4096) m := by
  have hpart : ∀ {N M K : Nat}, K + M ≤ N → K % 4096 = 0 → va % 2 ^ 48 + N ≤ 2 ^ 48 → va + N < 2 ^ 64 →
      (va + K) % 4096 = va % 4096 ∧ (va + K) % 2 ^ 48 + M ≤ 2 ^ 48 ∧ va + K + M < 2 ^ 64 := by
    intro N M K h1 h2 h3 h4
    refine ⟨by omega, by omega, by omega⟩
  have hmul : k * 4096 + m * 4096 ≤ n * 4096 := by
    rw [← Nat.add_mul]
    exact Nat.mul_le_mul_right _ hk
  obtain ⟨h1, h2, h3⟩ := hpart hmul (Nat.mul_mod_left k 4096) h.window h.inside
  exact ⟨h1.trans h.aligned, h2, h3⟩

lemma PageRegion.offset (h : PageRegion region) (hpool : region.allocator.pool ≤ va) (hva : va % 4096 = 0) :
    va = region.allocator.pool + (va - region.allocator.pool) / 4096 * 4096 := by
  have h1 := h.span.aligned
  omega

lemma PageRegion.spanOf (h : PageRegion region) (hpool : region.allocator.pool ≤ va) (hva : va % 4096 = 0)
    (hfits : (va - region.allocator.pool) / 4096 + n ≤ region.allocator.pageCount) : Span va n := by
  have h1 := h.span.part hfits
  rwa [← h.offset hpool hva] at h1

lemma PageRegion.allocation_span (h : PageRegion region) (ha : a ∈ region.allocations) (hva : a.va ≠ 0) :
    Span a.va a.pageCount := by
  obtain ⟨h1, h2, h3⟩ := h.inv.inside a ha hva
  exact h.spanOf h1 (h.aligned a ha hva) h3

lemma PageRegion.covers_iff (h : PageRegion region) (hpool : region.allocator.pool ≤ a.va)
    (hva : a.va % 4096 = 0) (hpos : 0 < a.pageCount)
    (hfits : (a.va - region.allocator.pool) / 4096 + a.pageCount ≤ region.allocator.pageCount) :
    RegionAllocation.Covers a q ↔
      pageOf region.allocator.pool ≤ q ∧ (pagesOf region a).Has (q - pageOf region.allocator.pool) := by
  have hpage := h.span.pageOf_add (i := (a.va - region.allocator.pool) / 4096) (by omega)
  rw [← h.offset hpool hva] at hpage
  unfold RegionAllocation.Covers
  rw [hpage]
  simp only [pagesOf, Block.Has, PAGE_SIZE]
  omega

lemma PageRegion.has_of_covers (h : PageRegion region) (ha : a ∈ region.allocations) (hva : a.va ≠ 0)
    (hcov : RegionAllocation.Covers a q) :
    pageOf region.allocator.pool ≤ q ∧ (pagesOf region a).Has (q - pageOf region.allocator.pool) := by
  obtain ⟨h1, h2, h3⟩ := h.inv.inside a ha hva
  exact (h.covers_iff h1 (h.aligned a ha hva) h2 h3).mp hcov

lemma PageRegion.unique (h : PageRegion region) {i j : Nat} {b : RegionAllocation}
    (hi : region.allocations[i]? = some a) (hj : region.allocations[j]? = some b) (hva : a.va ≠ 0)
    (hvb : b.va ≠ 0) (ha : RegionAllocation.Covers a q) (hb : RegionAllocation.Covers b q) : i = j := by
  by_contra hij
  have hdisj := h.inv.disjoint i j a b hij hi hj hva hvb
  have h1 := (h.has_of_covers (List.mem_of_getElem? hi) hva ha).2
  have h2 := (h.has_of_covers (List.mem_of_getElem? hj) hvb hb).2
  unfold Block.Disj at hdisj
  unfold Block.Has at h1 h2
  omega

section Take

variable (h : PageRegion region) (ht : Taken region va n region') (haligned : va % 4096 = 0)
include h ht

lemma PageRegion.taken_ne_zero : va ≠ 0 := by
  have h1 := ht.pool_le
  have h2 := h.inv.good.positive
  omega

include haligned in
lemma PageRegion.taken_span : Span va n := h.spanOf ht.pool_le haligned ht.fits

include haligned in
lemma PageRegion.taken_fresh (hq : RegionAllocation.Covers ⟨va, n⟩ q) : ¬Owned region q := by
  rintro ⟨a, ha, hva, hcov⟩
  have hdisj := h.inv.disj_of_clear (b := pagesOf region ⟨va, n⟩) ht.positive ht.clear ha hva
  have h3 := ((h.covers_iff ht.pool_le haligned ht.positive ht.fits).mp hq).2
  have h4 := (h.has_of_covers ha hva hcov).2
  unfold Block.Disj at hdisj
  unfold Block.Has at h3 h4
  omega

include haligned in
lemma PageRegion.taken_va_fresh (ha : a ∈ region.allocations) (hva : a.va ≠ 0) : a.va ≠ va := by
  intro heq
  have hpos := (h.inv.inside a ha hva).2.1
  have hn := ht.positive
  have hcov : RegionAllocation.Covers ⟨va, n⟩ (pageOf va) := ⟨Nat.le_refl _, Nat.lt_add_of_pos_right hn⟩
  refine h.taken_fresh ht haligned hcov ⟨a, ha, hva, ?_⟩
  rw [← heq]
  exact ⟨Nat.le_refl _, Nat.lt_add_of_pos_right hpos⟩

lemma PageRegion.mem_take : (a ∈ region'.allocations ∧ a.va ≠ 0) ↔
    (a ∈ region.allocations ∧ a.va ≠ 0) ∨ a = ⟨va, n⟩ := by
  obtain ⟨slot, old, hold, hnull, htable⟩ := ht.table
  obtain ⟨hlt, hget⟩ := List.getElem?_eq_some_iff.mp hold
  rw [htable]
  constructor
  · rintro ⟨ha, hva⟩
    rcases mem_set_cases ha with rfl | ⟨i, -, hi⟩
    · exact .inr rfl
    · exact .inl ⟨List.mem_of_getElem? hi, hva⟩
  · rintro (⟨ha, hva⟩ | rfl)
    · obtain ⟨i, hi⟩ := List.mem_iff_getElem?.mp ha
      refine ⟨List.mem_iff_getElem?.mpr ⟨i, ?_⟩, hva⟩
      rw [List.getElem?_set_ne]
      · exact hi
      · rintro rfl
        rw [hold] at hi
        cases hi
        exact hva hnull
    · exact ⟨List.mem_set hlt _, h.taken_ne_zero ht⟩

lemma PageRegion.owned_take : Owned region' q ↔ Owned region q ∨ RegionAllocation.Covers ⟨va, n⟩ q := by
  unfold Owned
  constructor
  · rintro ⟨a, ha, hva, hcov⟩
    rcases (h.mem_take ht).mp ⟨ha, hva⟩ with hold | rfl
    · exact .inl ⟨a, hold.1, hold.2, hcov⟩
    · exact .inr hcov
  · rintro (⟨a, ha, hva, hcov⟩ | hcov)
    · have hmem := (h.mem_take ht).mpr (.inl ⟨ha, hva⟩)
      exact ⟨a, hmem.1, hmem.2, hcov⟩
    · have hmem := (h.mem_take ht).mpr (.inr rfl)
      exact ⟨_, hmem.1, hmem.2, hcov⟩

include haligned in
lemma PageRegion.take : PageRegion region' := by
  obtain ⟨slot, old, hold, hnull, htable⟩ := ht.table
  refine ⟨h.inv.take ht, ?_, ?_, ?_⟩
  · rw [ht.marked.pool, ht.marked.pageCount]
    exact h.span
  · intro a ha hva
    rw [htable] at ha
    rcases mem_set_cases ha with rfl | ⟨i, -, hi⟩
    · exact haligned
    · exact h.aligned a (List.mem_of_getElem? hi) hva
  · intro a ha hva
    rw [htable] at ha
    rcases mem_set_cases ha with rfl | ⟨i, -, hi⟩
    · exact absurd hva (h.taken_ne_zero ht)
    · exact h.blank a (List.mem_of_getElem? hi) hva

end Take

section Release

variable (h : PageRegion region) (hr : Released region va n region')
include h hr

lemma PageRegion.released_ne_zero : va ≠ 0 := by
  have h1 := hr.pool_le
  have h2 := h.inv.good.positive
  omega

lemma PageRegion.release : PageRegion region' := by
  obtain ⟨slot, hslot, htable⟩ := hr.table
  refine ⟨h.inv.release hr, ?_, ?_, ?_⟩
  · rw [hr.marked.pool, hr.marked.pageCount]
    exact h.span
  · intro a ha hva
    rw [htable] at ha
    rcases mem_set_cases ha with rfl | ⟨i, -, hi⟩
    · exact absurd rfl hva
    · exact h.aligned a (List.mem_of_getElem? hi) hva
  · intro a ha hva
    rw [htable] at ha
    rcases mem_set_cases ha with rfl | ⟨i, -, hi⟩
    · rfl
    · exact h.blank a (List.mem_of_getElem? hi) hva

lemma PageRegion.mem_release : (a ∈ region'.allocations ∧ a.va ≠ 0) ↔
    (a ∈ region.allocations ∧ a.va ≠ 0) ∧ a.va ≠ va := by
  obtain ⟨slot, hslot, htable⟩ := hr.table
  rw [htable]
  constructor
  · rintro ⟨ha, hva⟩
    rcases mem_set_cases ha with rfl | ⟨i, hne, hi⟩
    · exact absurd rfl hva
    · refine ⟨⟨List.mem_of_getElem? hi, hva⟩, fun heq => hne ?_⟩
      exact h.inv.va_unique hi hslot hva heq
  · rintro ⟨⟨ha, hva⟩, hne⟩
    obtain ⟨i, hi⟩ := List.mem_iff_getElem?.mp ha
    refine ⟨List.mem_iff_getElem?.mpr ⟨i, ?_⟩, hva⟩
    rw [List.getElem?_set_ne]
    · exact hi
    · rintro rfl
      rw [hslot] at hi
      cases hi
      exact hne rfl

lemma PageRegion.owned_release :
    Owned region' q ↔ Owned region q ∧ ¬RegionAllocation.Covers ⟨va, n⟩ q := by
  obtain ⟨slot, hslot, -⟩ := hr.table
  have hva₀ := h.released_ne_zero hr
  unfold Owned
  constructor
  · rintro ⟨a, ha, hva, hcov⟩
    obtain ⟨⟨hold, -⟩, hne⟩ := (h.mem_release hr).mp ⟨ha, hva⟩
    refine ⟨⟨a, hold, hva, hcov⟩, fun hcov' => ?_⟩
    obtain ⟨i, hi⟩ := List.mem_iff_getElem?.mp hold
    obtain rfl := h.unique hi hslot hva hva₀ hcov hcov'
    rw [hslot] at hi
    cases hi
    exact hne rfl
  · rintro ⟨⟨a, ha, hva, hcov⟩, hnot⟩
    refine ⟨a, ((h.mem_release hr).mpr ⟨⟨ha, hva⟩, ?_⟩).1, hva, hcov⟩
    intro heq
    obtain ⟨i, hi⟩ := List.mem_iff_getElem?.mp ha
    obtain rfl := h.inv.va_unique hi hslot hva heq
    rw [hslot] at hi
    obtain rfl := Option.some.inj hi
    exact hnot hcov

end Release

lemma PageRegion.free_returns (h : PageRegion region) {i : Nat} (hi : region.allocations[i]? = some a)
    (hva : a.va ≠ 0) :
    regionFind region a.va = .ok i ∧
      ∃ region', regionFree region a.va = .ok (a.pageCount, region') ∧
        region'.allocations = region.allocations.set i ⟨0, 0⟩ := by
  have ha := List.mem_of_getElem? hi
  obtain ⟨h1, h2, h3⟩ := h.inv.inside a ha hva
  have hfind : regionFind region a.va = .ok i := by
    cases hf : regionFind region a.va with
    | error e => exact absurd rfl (regionFind_error hf a ha)
    | ok slot =>
      obtain ⟨b, hb, hvb⟩ := regionFind_ok hf
      rw [h.inv.va_unique hb hi (hvb ▸ hva) hvb]
  refine ⟨hfind, ?_⟩
  have hd : region.allocations.getD i ⟨0, 0⟩ = a := by
    rw [List.getD_eq_getElem?_getD, hi]
    rfl
  obtain ⟨allocator', hfree⟩ : ∃ allocator', bmFree region.allocator a.va a.pageCount = .ok allocator' := by
    apply bmFree_returns
    · exact Nat.le_trans (Nat.le_trans (Nat.le_add_left _ _) h3) h.inv.good.pageCount_le
    · exact h1
    · exact h3
    · exact h2
    · exact h.span.inside
    · exact h.inv.marked a ha hva
  refine ⟨⟨allocator', region.allocations.set i ⟨0, 0⟩⟩, ?_, rfl⟩
  rw [regionFree, hfind]
  dsimp only
  rw [hd, bitmapFree, hfree]
  rfl

/-- `region_reserve` inside the region: there is no slot, or some page is taken, or the range is taken. -/
lemma PageRegion.reserve_cases (h : PageRegion region) (hpos : 0 < n) (hpool : region.allocator.pool ≤ va)
    (hfits : (va - region.allocator.pool) / 4096 + n ≤ region.allocator.pageCount) :
    (((∀ a ∈ region.allocations, a.va ≠ 0) ∨
        ∃ q, (pagesOf region ⟨va, n⟩).Has q ∧ region.allocator.bitmap.bit q = true) ∧
      regionReserve region va n = .ok (.ENOMEM, region)) ∨
    ∃ region', regionReserve region va n = .ok (.EOK, region') ∧ Taken region va n region' := by
  have hsize := h.inv.good.pageCount_le
  cases hfind : regionFind region 0 with
  | error e =>
    refine .inl ⟨.inl (regionFind_error hfind), ?_⟩
    rw [regionReserve, if_neg (by omega), hfind]
  | ok slot =>
    rcases bitmapReserve_cases hsize hpos hpool hfits h.span.inside with ⟨htaken, hres⟩ | ⟨alloc', hres⟩
    · refine .inl ⟨.inr htaken, ?_⟩
      rw [regionReserve, if_neg (by omega), hfind]
      dsimp only
      rw [hres]
      rfl
    · right
      have hok : regionReserve region va n = .ok (.EOK, ⟨alloc', region.allocations.set slot ⟨va, n⟩⟩) := by
        rw [regionReserve, if_neg (by omega), hfind]
        dsimp only
        rw [hres]
        rfl
      rcases regionReserve_ok h.inv.good (by omega) hok with ⟨herr, -⟩ | ⟨-, ht⟩
      · cases herr
      · exact ⟨_, hok, ht⟩

lemma regionReserve_below (hpos : 0 < n) (hva : va < region.allocator.pool) :
    regionReserve region va n = .ok (.ENOMEM, region) ∧ (∀ a ∈ region.allocations, a.va ≠ 0) ∨
    regionReserve region va n = .error .panic ∧ ∃ a ∈ region.allocations, a.va = 0 := by
  rw [regionReserve, if_neg (by omega)]
  cases hfind : regionFind region 0 with
  | error e => exact .inl ⟨rfl, regionFind_error hfind⟩
  | ok slot =>
    obtain ⟨a, ha, hnull⟩ := regionFind_ok hfind
    refine .inr ⟨?_, a, List.mem_of_getElem? ha, hnull⟩
    dsimp only
    rw [bitmapReserve, bmAddrToPage, if_pos hva]
    rfl

lemma emptyRegion (bytes : Mem) {pool count : Nat} (hpos : 0 < pool) (hspan : Span pool count) (n : Nat) :
    PageRegion ⟨⟨bytes, count, pool⟩, List.replicate n ⟨0, 0⟩⟩ := by
  have hnull : ∀ a ∈ List.replicate n (⟨0, 0⟩ : RegionAllocation), a = ⟨0, 0⟩ :=
    fun a ha => List.eq_of_mem_replicate ha
  have hlive : ∀ a ∈ List.replicate n (⟨0, 0⟩ : RegionAllocation), ¬a.va ≠ 0 := by
    intro a ha hva
    rw [hnull a ha] at hva
    exact hva rfl
  refine ⟨⟨⟨hpos, hspan.aligned, Nat.le_of_lt hspan.inside⟩, ?_, ?_, ?_⟩, hspan, ?_, ?_⟩
  · exact fun a ha hva => absurd hva (hlive a ha)
  · exact fun i j a b _ hi _ hva _ => absurd hva (hlive a (List.mem_of_getElem? hi))
  · exact fun a ha hva => absurd hva (hlive a ha)
  · exact fun a ha hva => absurd hva (hlive a ha)
  · intro a ha _
    rw [hnull a ha]

lemma emptyRegion_owned {bytes : Mem} {pool count : Nat} {n q : Nat} :
    ¬Owned ⟨⟨bytes, count, pool⟩, List.replicate n ⟨0, 0⟩⟩ q := by
  rintro ⟨a, ha, hva, -⟩
  have ha' : a ∈ List.replicate n (⟨0, 0⟩ : RegionAllocation) := ha
  rw [List.eq_of_mem_replicate ha'] at hva
  exact hva rfl

lemma userSpan : Span USER_VM_RANGE_BASE (USER_VM_RANGE_SIZE / PAGE_SIZE) :=
  ⟨by decide, by decide, by decide⟩

end KaworuOS.Proofs
