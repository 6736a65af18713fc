import KaworuOS.Lib.Slots
import KaworuOS.Region
import KaworuOS.Proofs.Bitmap
import Mathlib.Logic.Relation

/-!
# The region allocator keeps its bitmap and its table in step

`RegionInv` is what every run keeps, whatever the bitmap held at first. A run from `region_init`
keeps `RegionExact` as well: no bit is set without an allocation that covers it.
-/

namespace KaworuOS.Proofs
open Lib

/-- The pages that an entry of the table covers. -/
def pagesOf (region : AllocRegion) (a : RegionAllocation) : Block :=
  ⟨(a.va - region.allocator.pool) / PAGE_SIZE, a.pageCount⟩

/-- The pool lies in the address space and does not begin at null. -/
structure GoodPool (region : AllocRegion) : Prop where
  positive : 0 < region.allocator.pool
  aligned : region.allocator.pool % 4096 = 0
  bound : region.allocator.pool + region.allocator.pageCount * 4096 ≤ 2 ^ 64

lemma GoodPool.pageCount_le {region : AllocRegion} (h : GoodPool region) :
    region.allocator.pageCount ≤ 2 ^ 52 := by
  have h1 := h.bound
  omega

lemma GoodPool.congr {region region' : AllocRegion} (h : GoodPool region)
    (hpool : region'.allocator.pool = region.allocator.pool)
    (hcount : region'.allocator.pageCount = region.allocator.pageCount) : GoodPool region' := by
  refine ⟨?_, ?_, ?_⟩
  · rw [hpool]; exact h.positive
  · rw [hpool]; exact h.aligned
  · rw [hpool, hcount]; exact h.bound

/-- The live entries of the table cover disjoint ranges of the pool whose bits are set. -/
structure RegionInv (region : AllocRegion) : Prop where
  good : GoodPool region
  inside : ∀ a ∈ region.allocations, a.va ≠ 0 →
    region.allocator.pool ≤ a.va ∧ 0 < a.pageCount ∧
      (pagesOf region a).addr + a.pageCount ≤ region.allocator.pageCount
  disjoint : ∀ (i j : Nat) (a b : RegionAllocation), i ≠ j → region.allocations[i]? = some a →
    region.allocations[j]? = some b → a.va ≠ 0 → b.va ≠ 0 → (pagesOf region a).Disj (pagesOf region b)
  marked : ∀ a ∈ region.allocations, a.va ≠ 0 → ∀ q, (pagesOf region a).Has q →
    region.allocator.bitmap.bit q = true

/-- The number of bits in the bytes of the bitmap. -/
def bitCount (region : AllocRegion) : Nat :=
  8 * sizeToBitmapBytes (region.allocator.pageCount * PAGE_SIZE)

/-- Every set bit of the bitmap belongs to a live entry. -/
def RegionExact (region : AllocRegion) : Prop :=
  ∀ q < bitCount region, region.allocator.bitmap.bit q = true →
    ∃ a ∈ region.allocations, a.va ≠ 0 ∧ (pagesOf region a).Has q

lemma regionFind_ok {region : AllocRegion} {addr slot : Nat} (h : regionFind region addr = .ok slot) :
    ∃ a, region.allocations[slot]? = some a ∧ a.va = addr := by
  unfold regionFind at h
  split at h
  · rename_i i hidx
    cases h
    obtain ⟨hlt, hva, -⟩ := List.findIdx?_eq_some_iff_getElem.mp hidx
    exact ⟨_, List.getElem?_eq_getElem hlt, by simpa using hva⟩
  · cases h

/-- What a successful allocation of the `n` pages from `va` on does to a region. -/
structure Taken (region : AllocRegion) (va n : Nat) (region' : AllocRegion) : Prop where
  positive : 0 < n
  pool_le : region.allocator.pool ≤ va
  fits : (va - region.allocator.pool) / 4096 + n ≤ region.allocator.pageCount
  clear : ∀ q, (pagesOf region ⟨va, n⟩).Has q → region.allocator.bitmap.bit q = false
  marked : Marked region.allocator (pagesOf region ⟨va, n⟩) true region'.allocator
  table : ∃ (slot : Nat) (old : RegionAllocation), region.allocations[slot]? = some old ∧ old.va = 0 ∧
    region'.allocations = region.allocations.set slot ⟨va, n⟩

/-- The table of the region is full, or no `n` free pages follow each other. -/
def NoPlace (region : AllocRegion) (n : Nat) : Prop :=
  (∀ a ∈ region.allocations, a.va ≠ 0) ∨ NoRun region.allocator 0 n

lemma Taken.not_noPlace {region region' : AllocRegion} {va n : Nat} (h : Taken region va n region') :
    ¬NoPlace region n := by
  rintro (hfull | hnone)
  · obtain ⟨slot, old, hold, hnull, -⟩ := h.table
    exact hfull old (List.mem_of_getElem? hold) hnull
  · obtain ⟨q, hq, hbit⟩ := hnone _ (Nat.zero_le _) h.fits
    have h1 := h.clear q hq
    rw [hbit] at h1
    cases h1

lemma regionFind_error {region : AllocRegion} {addr : Nat} {e : Errno} (h : regionFind region addr = .error e) :
    ∀ a ∈ region.allocations, a.va ≠ addr := by
  unfold regionFind at h
  split at h
  · cases h
  · rename_i hnone
    rw [List.findIdx?_eq_none_iff] at hnone
    intro a ha heq
    have h1 := hnone a ha
    simp [heq] at h1

/-- `region_alloc` takes a range of the pool, or there is none and it changes nothing. -/
lemma regionAlloc_spec {region : AllocRegion} {n : Nat} (hg : GoodPool region) (hpos : 0 < n)
    (hn : n ≤ 2 ^ 52) :
    (regionAlloc region n = .ok (errToPtr .ENOMEM, region) ∧ NoPlace region n) ∨
    ∃ va region', regionAlloc region n = .ok (va, region') ∧ isErrValue va = false ∧
      va % 4096 = 0 ∧ Taken region va n region' := by
  unfold regionAlloc
  rw [if_neg (by omega)]
  cases hfind : regionFind region 0 with
  | error e => exact .inl ⟨rfl, .inl (regionFind_error hfind)⟩
  | ok slot =>
    obtain ⟨old, hold, hva⟩ := regionFind_ok hfind
    rcases bitmapAlloc_spec hg.pageCount_le hn hpos with ⟨hfail, hnone⟩ | ⟨page, alloc', hok, hin, hfree, hmarked, -⟩
    · refine .inl ⟨?_, .inr hnone⟩
      simp only [hfail, bind, Except.bind, isErrValue_errToPtr, if_true]
    · right
      have h1 := hg.bound
      have h2 := hg.aligned
      have haddr : bmPageToAddr region.allocator page = region.allocator.pool + page * 4096 := by
        unfold bmPageToAddr
        rw [wmul_of_lt (by simp only [PAGE_SIZE]; omega), wadd_of_lt (by simp only [PAGE_SIZE]; omega)]
      have herr := @not_isErrValue_of_lt (region.allocator.pool + page * 4096) (by omega)
      have hpages : pagesOf region ⟨region.allocator.pool + page * 4096, n⟩ = ⟨page, n⟩ := by
        unfold pagesOf
        simp only [PAGE_SIZE, Block.mk.injEq, and_true]
        omega
      refine ⟨region.allocator.pool + page * 4096,
        ⟨alloc', region.allocations.set slot ⟨region.allocator.pool + page * 4096, n⟩⟩, ?_, herr, by omega,
        hpos, by omega, by omega, ?_, ?_, slot, old, hold, hva, rfl⟩
      · simp only [hok, haddr, bind, Except.bind, herr, Bool.false_eq_true, if_false]
      · rwa [hpages]
      · rwa [hpages]

lemma regionReserve_ok {region region' : AllocRegion} {va n : Nat} {err : Errno} (hg : GoodPool region)
    (hn : n ≤ 2 ^ 52) (h : regionReserve region va n = .ok (err, region')) :
    (err = .ENOMEM ∧ region' = region) ∨ (err = .EOK ∧ Taken region va n region') := by
  unfold regionReserve at h
  split at h
  · cases h
  · cases hfind : regionFind region 0 with
    | error e =>
      left
      simp only [hfind] at h
      cases h
      exact ⟨rfl, rfl⟩
    | ok slot =>
      obtain ⟨old, hold, hva⟩ := regionFind_ok hfind
      simp only [hfind] at h
      obtain ⟨⟨err₁, alloc'⟩, hres, h⟩ := bind_eq_ok.mp h
      rcases bitmapReserve_ok hg.pageCount_le hn hres with
        ⟨rfl, rfl⟩ | ⟨rfl, hpool, hin, hpos, hfree, hmarked⟩
      · left
        simp only [ne_eq, reduceCtorEq, not_false_eq_true, if_true] at h
        cases h
        exact ⟨rfl, rfl⟩
      · right
        simp only [ne_eq, not_true_eq_false, if_false] at h
        cases h
        exact ⟨rfl, hpos, hpool, hin, hfree, hmarked, slot, old, hold, hva, rfl⟩

/-- What `region_free` of `addr` does to a region that holds an allocation of `n` pages there. -/
structure Released (region : AllocRegion) (addr n : Nat) (region' : AllocRegion) : Prop where
  positive : 0 < n
  pool_le : region.allocator.pool ≤ addr
  marked : Marked region.allocator (pagesOf region ⟨addr, n⟩) false region'.allocator
  table : ∃ slot, region.allocations[slot]? = some ⟨addr, n⟩ ∧
    region'.allocations = region.allocations.set slot ⟨0, 0⟩

lemma regionFree_ok {region region' : AllocRegion} {addr n : Nat} (hinv : RegionInv region)
    (h : regionFree region addr = .ok (n, region')) : Released region addr n region' := by
  unfold regionFree at h
  cases hfind : regionFind region addr with
  | error e =>
    simp only [hfind] at h
    cases h
  | ok slot =>
    obtain ⟨a, ha, hva⟩ := regionFind_ok hfind
    simp only [hfind, List.getD_eq_getElem?_getD, ha, Option.getD_some] at h
    obtain ⟨alloc', hfree, h⟩ := bind_eq_ok.mp h
    cases h
    have hg := hinv.good
    have hne : a.va ≠ 0 := by
      have h1 := bmFree_pool_le hfree
      have h2 := hg.positive
      omega
    obtain ⟨-, -, hfits⟩ := hinv.inside a (List.mem_of_getElem? ha) hne
    have hcount := hg.pageCount_le
    obtain ⟨hpool, -, hpos, hmarked⟩ := bmFree_ok (by omega) hcount hfree
    exact ⟨hpos, hpool, hmarked, slot, by rw [ha, ← hva], rfl⟩

lemma pagesOf_congr {region region' : AllocRegion} (h : region'.allocator.pool = region.allocator.pool)
    (a : RegionAllocation) : pagesOf region' a = pagesOf region a := by
  rw [pagesOf, pagesOf, h]

lemma RegionInv.disj_of_clear {region : AllocRegion} (h : RegionInv region) {b : Block} (hb : 0 < b.size)
    (hclear : ∀ q, b.Has q → region.allocator.bitmap.bit q = false) {a : RegionAllocation}
    (ha : a ∈ region.allocations) (hva : a.va ≠ 0) : b.Disj (pagesOf region a) := by
  obtain ⟨-, hpos, -⟩ := h.inside a ha hva
  apply disj_of_cov hb hpos
  intro q hbq haq
  have h1 := hclear q hbq
  rw [h.marked a ha hva q haq] at h1
  cases h1

lemma RegionInv.take {region region' : AllocRegion} {va n : Nat} (h : RegionInv region)
    (ht : Taken region va n region') : RegionInv region' := by
  obtain ⟨slot, old, hold, hnull, htable⟩ := ht.table
  have hpages := fun a => pagesOf_congr (a := a) ht.marked.pool
  have hnew : ∀ a ∈ region.allocations, a.va ≠ 0 → (pagesOf region ⟨va, n⟩).Disj (pagesOf region a) :=
    fun a ha hva => h.disj_of_clear ht.positive ht.clear ha hva
  refine ⟨h.good.congr ht.marked.pool ht.marked.pageCount, ?_, ?_, ?_⟩
  · intro a ha hva
    rw [htable] at ha
    rw [hpages, ht.marked.pool, ht.marked.pageCount]
    rcases mem_set_cases ha with rfl | ⟨i, -, hi⟩
    · exact ⟨ht.pool_le, ht.positive, ht.fits⟩
    · exact h.inside a (List.mem_of_getElem? hi) hva
  · intro i j a b hij hi hj hva hvb
    rw [htable] at hi hj
    rw [hpages, hpages]
    rcases getElem?_set_cases hi with ⟨rfl, rfl⟩ | ⟨-, hi'⟩
    · rcases getElem?_set_cases hj with ⟨rfl, rfl⟩ | ⟨-, hj'⟩
      · exact absurd rfl hij
      · exact hnew b (List.mem_of_getElem? hj') hvb
    · rcases getElem?_set_cases hj with ⟨rfl, rfl⟩ | ⟨-, hj'⟩
      · exact (hnew a (List.mem_of_getElem? hi') hva).symm
      · exact h.disjoint i j a b hij hi' hj' hva hvb
  · intro a ha hva q hq
    rw [htable] at ha
    rw [hpages] at hq
    rcases mem_set_cases ha with rfl | ⟨i, -, hi⟩
    · exact ht.marked.inside q hq
    · by_cases hnq : (pagesOf region ⟨va, n⟩).Has q
      · exact ht.marked.inside q hnq
      · rw [ht.marked.outside q hnq]
        exact h.marked a (List.mem_of_getElem? hi) hva q hq

lemma bitCount_congr {region region' : AllocRegion}
    (h : region'.allocator.pageCount = region.allocator.pageCount) :
    bitCount region' = bitCount region := by
  rw [bitCount, bitCount, h]

lemma RegionExact.take {region region' : AllocRegion} {va n : Nat} (h : RegionExact region)
    (hg : GoodPool region) (ht : Taken region va n region') : RegionExact region' := by
  obtain ⟨slot, old, hold, hnull, htable⟩ := ht.table
  have hpages := fun a => pagesOf_congr (a := a) ht.marked.pool
  intro q hq hbit
  rw [bitCount_congr ht.marked.pageCount] at hq
  rw [htable]
  by_cases hnq : (pagesOf region ⟨va, n⟩).Has q
  · have hlt : slot < region.allocations.length := (List.getElem?_eq_some_iff.mp hold).1
    have hne : va ≠ 0 := by
      have h1 := hg.positive
      have h2 := ht.pool_le
      omega
    exact ⟨⟨va, n⟩, List.mem_set hlt _, hne, by rwa [hpages]⟩
  · rw [ht.marked.outside q hnq] at hbit
    obtain ⟨a, ha, hva, haq⟩ := h q hq hbit
    obtain ⟨i, hi⟩ := List.mem_iff_getElem?.mp ha
    have hne : slot ≠ i := by
      rintro rfl
      rw [hold] at hi
      cases hi
      exact hva hnull
    refine ⟨a, ?_, hva, by rwa [hpages]⟩
    apply List.mem_of_getElem? (i := i)
    rw [List.getElem?_set_ne hne, hi]

lemma RegionInv.release {region region' : AllocRegion} {addr n : Nat} (h : RegionInv region)
    (hr : Released region addr n region') : RegionInv region' := by
  obtain ⟨slot, hslot, htable⟩ := hr.table
  have hpages := fun a => pagesOf_congr (a := a) hr.marked.pool
  have haddr : addr ≠ 0 := by
    have h1 := h.good.positive
    have h2 := hr.pool_le
    omega
  -- a live entry of the new table is one of the old table at another slot
  have hold : ∀ {i : Nat} {a : RegionAllocation}, (region.allocations.set slot ⟨0, 0⟩)[i]? = some a →
      a.va ≠ 0 → i ≠ slot ∧ region.allocations[i]? = some a := by
    intro i a hi hva
    rcases getElem?_set_cases hi with ⟨-, rfl⟩ | hi
    · exact absurd rfl hva
    · exact hi
  refine ⟨h.good.congr hr.marked.pool hr.marked.pageCount, ?_, ?_, ?_⟩
  · intro a ha hva
    rw [htable] at ha
    obtain ⟨i, hi⟩ := List.mem_iff_getElem?.mp ha
    rw [hpages, hr.marked.pool, hr.marked.pageCount]
    exact h.inside a (List.mem_of_getElem? (hold hi hva).2) hva
  · intro i j a b hij hi hj hva hvb
    rw [htable] at hi hj
    rw [hpages, hpages]
    exact h.disjoint i j a b hij (hold hi hva).2 (hold hj hvb).2 hva hvb
  · intro a ha hva q hq
    rw [htable] at ha
    rw [hpages] at hq
    obtain ⟨i, hi⟩ := List.mem_iff_getElem?.mp ha
    obtain ⟨hne, hi⟩ := hold hi hva
    have hdisj := h.disjoint i slot a ⟨addr, n⟩ hne hi hslot hva haddr
    have hout : ¬(pagesOf region ⟨addr, n⟩).Has q := by
      intro hq'
      unfold Block.Disj at hdisj
      unfold Block.Has at hq hq'
      omega
    rw [hr.marked.outside q hout]
    exact h.marked a (List.mem_of_getElem? hi) hva q hq

lemma RegionExact.release {region region' : AllocRegion} {addr n : Nat} (h : RegionExact region)
    (hr : Released region addr n region') : RegionExact region' := by
  obtain ⟨slot, hslot, htable⟩ := hr.table
  have hpages := fun a => pagesOf_congr (a := a) hr.marked.pool
  intro q hq hbit
  rw [bitCount_congr hr.marked.pageCount] at hq
  have hout : ¬(pagesOf region ⟨addr, n⟩).Has q := by
    intro hin
    rw [hr.marked.inside q hin] at hbit
    cases hbit
  rw [hr.marked.outside q hout] at hbit
  obtain ⟨a, ha, hva, haq⟩ := h q hq hbit
  obtain ⟨i, hi⟩ := List.mem_iff_getElem?.mp ha
  have hne : slot ≠ i := by
    rintro rfl
    rw [hslot] at hi
    cases hi
    exact hout haq
  refine ⟨a, ?_, hva, by rwa [hpages]⟩
  rw [htable]
  apply List.mem_of_getElem? (i := i)
  rw [List.getElem?_set_ne hne, hi]

lemma regionInit_inv {region : AllocRegion} (hg : GoodPool region) : RegionInv (regionInit region) := by
  have hnull : ∀ a ∈ (regionInit region).allocations, a.va = 0 := by
    simp [regionInit]
  refine ⟨⟨hg.positive, hg.aligned, hg.bound⟩, ?_, ?_, ?_⟩
  · intro a ha hva
    exact absurd (hnull a ha) hva
  · intro i j a b _ hi _ hva _
    exact absurd (hnull a (List.mem_of_getElem? hi)) hva
  · intro a ha hva
    exact absurd (hnull a ha) hva

lemma regionInit_exact {region : AllocRegion} (hg : GoodPool region) :
    RegionExact (regionInit region) := by
  intro q hq hbit
  have h1 := hg.bound
  have h2 := hg.positive
  have hbytes : wmul region.allocator.pageCount PAGE_SIZE = region.allocator.pageCount * 4096 :=
    wmul_of_lt (by simp only [PAGE_SIZE]; omega)
  have hclear : (regionInit region).allocator.bitmap.bit q = false := by
    simp only [regionInit, hbytes]
    apply Mem.bit_fill_zero
    simp only [bitCount, regionInit, PAGE_SIZE] at hq
    omega
  rw [hclear] at hbit
  cases hbit

/-- One call of a run that returns. -/
inductive RegionStep : AllocRegion → AllocRegion → Prop
  | alloc {region region' : AllocRegion} {n va : Nat} (hpos : 1 ≤ n) (hn : n ≤ 2 ^ 52)
      (h : regionAlloc region n = .ok (va, region')) : RegionStep region region'
  | reserve {region region' : AllocRegion} {va n : Nat} {err : Errno} (hpos : 1 ≤ n) (hn : n ≤ 2 ^ 52)
      (h : regionReserve region va n = .ok (err, region')) : RegionStep region region'
  | free {region region' : AllocRegion} {addr n : Nat}
      (h : regionFree region addr = .ok (n, region')) : RegionStep region region'

/-- Every call changes nothing, takes a range or releases one. -/
lemma RegionInv.step_cases {region region' : AllocRegion} (h : RegionInv region)
    (hstep : RegionStep region region') :
    region' = region ∨ (∃ va n, Taken region va n region') ∨ ∃ addr n, Released region addr n region' := by
  cases hstep with
  | alloc hpos hn hcall =>
    rcases regionAlloc_spec h.good hpos hn with ⟨hfail, -⟩ | ⟨va, region₁, hok, -, -, ht⟩
    · rw [hfail] at hcall
      cases hcall
      exact .inl rfl
    · rw [hok] at hcall
      cases hcall
      exact .inr (.inl ⟨_, _, ht⟩)
  | reserve hpos hn hcall =>
    rcases regionReserve_ok h.good hn hcall with ⟨-, rfl⟩ | ⟨-, ht⟩
    · exact .inl rfl
    · exact .inr (.inl ⟨_, _, ht⟩)
  | free hcall => exact .inr (.inr ⟨_, _, regionFree_ok h hcall⟩)

lemma RegionInv.step {region region' : AllocRegion} (h : RegionInv region) (hx : RegionExact region)
    (hstep : RegionStep region region') : RegionInv region' ∧ RegionExact region' := by
  rcases h.step_cases hstep with rfl | ⟨va, n, ht⟩ | ⟨addr, n, hr⟩
  · exact ⟨h, hx⟩
  · exact ⟨h.take ht, hx.take h.good ht⟩
  · exact ⟨h.release hr, hx.release hr⟩

lemma region_run {region region' : AllocRegion} (hg : GoodPool region)
    (hrun : Relation.ReflTransGen RegionStep (regionInit region) region') :
    RegionInv region' ∧ RegionExact region' := by
  induction hrun with
  | refl => exact ⟨regionInit_inv hg, regionInit_exact hg⟩
  | tail _ hstep ih => exact ih.1.step ih.2 hstep

lemma RegionInv.va_unique {region : AllocRegion} (h : RegionInv region) {i j : Nat}
    {a b : RegionAllocation} (hi : region.allocations[i]? = some a) (hj : region.allocations[j]? = some b)
    (hva : a.va ≠ 0) (hab : a.va = b.va) : i = j := by
  by_contra hij
  have hvb : b.va ≠ 0 := hab ▸ hva
  have hdisj := h.disjoint i j a b hij hi hj hva hvb
  obtain ⟨-, hpa, -⟩ := h.inside a (List.mem_of_getElem? hi) hva
  obtain ⟨-, hpb, -⟩ := h.inside b (List.mem_of_getElem? hj) hvb
  unfold Block.Disj pagesOf at hdisj
  rw [hab] at hdisj
  simp only at hdisj
  omega

/-- The table and the bitmap of a region agree. -/
structure RegionConsistent (region : AllocRegion) : Prop where
  inside : ∀ a ∈ region.allocations, a.va ≠ 0 →
    region.allocator.pool ≤ a.va ∧ 0 < a.pageCount ∧
      (pagesOf region a).addr + (pagesOf region a).size ≤ region.allocator.pageCount
  disjoint : ∀ (i j : Nat) (a b : RegionAllocation), i ≠ j → region.allocations[i]? = some a →
    region.allocations[j]? = some b → a.va ≠ 0 → b.va ≠ 0 → (pagesOf region a).Disj (pagesOf region b)
  bits : ∀ q < bitCount region, region.allocator.bitmap.bit q = true ↔
    ∃ a ∈ region.allocations, a.va ≠ 0 ∧ (pagesOf region a).Has q
  unique : ∀ (i j : Nat) (a b : RegionAllocation), region.allocations[i]? = some a →
    region.allocations[j]? = some b → a.va ≠ 0 → a.va = b.va → i = j

/-- What the calls that a run may make next do to its region. -/
structure RegionCalls (region : AllocRegion) : Prop where
  free : ∀ addr n region', regionFree region addr = .ok (n, region') →
    addr ≠ 0 ∧
    (∃ slot, region.allocations[slot]? = some ⟨addr, n⟩ ∧
      region'.allocations = region.allocations.set slot ⟨0, 0⟩) ∧
    ∀ q, region'.allocator.bitmap.bit q =
      (region.allocator.bitmap.bit q && !decide ((pagesOf region ⟨addr, n⟩).Has q))
  alloc_returns : ∀ n, 1 ≤ n → n ≤ 2 ^ 52 → ∃ va region', regionAlloc region n = .ok (va, region')
  alloc_error : ∀ n va region', 1 ≤ n → n ≤ 2 ^ 52 → regionAlloc region n = .ok (va, region') →
    isErrValue va = true → region' = region
  reserve_error : ∀ va n err region', 1 ≤ n → n ≤ 2 ^ 52 →
    regionReserve region va n = .ok (err, region') → err ≠ .EOK → region' = region

lemma RegionInv.consistent {region : AllocRegion} (h : RegionInv region) (hx : RegionExact region) :
    RegionConsistent region where
  inside := h.inside
  disjoint := h.disjoint
  bits := fun q hq => ⟨hx q hq, fun ⟨a, ha, hva, haq⟩ => h.marked a ha hva q haq⟩
  unique := fun _ _ _ _ hi hj hva hab => h.va_unique hi hj hva hab

lemma RegionInv.calls {region : AllocRegion} (h : RegionInv region) : RegionCalls region where
  free := by
    intro addr n region' hcall
    have hr := regionFree_ok h hcall
    refine ⟨?_, hr.table, ?_⟩
    · have h1 := h.good.positive
      have h2 := hr.pool_le
      omega
    · intro q
      by_cases hq : (pagesOf region ⟨addr, n⟩).Has q
      · simp [hr.marked.inside q hq, hq]
      · simp [hr.marked.outside q hq, hq]
  alloc_returns := by
    intro n hpos hn
    rcases regionAlloc_spec h.good hpos hn with ⟨hfail, -⟩ | ⟨va, region', hok, -⟩
    · exact ⟨_, _, hfail⟩
    · exact ⟨_, _, hok⟩
  alloc_error := by
    intro n va region' hpos hn hcall herr
    rcases regionAlloc_spec h.good hpos hn with ⟨hfail, -⟩ | ⟨va₁, region₁, hok, hva, -⟩
    · rw [hfail] at hcall
      cases hcall
      rfl
    · rw [hok] at hcall
      cases hcall
      rw [hva] at herr
      cases herr
  reserve_error := by
    intro va n err region' hpos hn hcall herr
    rcases regionReserve_ok h.good hn hcall with ⟨-, rfl⟩ | ⟨rfl, -⟩
    · rfl
    · exact absurd rfl herr

/-- After every run from `region_init`, the table and the bitmap agree, `region_free` clears exactly
the pages of the allocation it is given, and a call that fails changes nothing. -/
theorem region_allocator_consistent {region : AllocRegion} (hpool : 0 < region.allocator.pool)
    (haligned : region.allocator.pool % 4096 = 0)
    (hend : region.allocator.pool + region.allocator.pageCount * 4096 ≤ 2 ^ 64) {region' : AllocRegion}
    (hrun : Relation.ReflTransGen RegionStep (regionInit region) region') :
    RegionConsistent region' ∧ RegionCalls region' := by
  obtain ⟨h, hx⟩ := region_run ⟨hpool, haligned, hend⟩ hrun
  exact ⟨h.consistent hx, h.calls⟩

/-- A run on a pool of eight pages: two pages are reserved, one is allocated, and the reserved
ones are freed again. -/
theorem region_allocator_consistent_run :
    ∃ region', Relation.ReflTransGen RegionStep
        (regionInit ⟨⟨fun _ => 255, 8, 0x10000⟩, [⟨7, 7⟩, ⟨7, 7⟩]⟩) region' ∧
      region'.allocations = [⟨0, 0⟩, ⟨0x10000, 1⟩] ∧ region'.allocator.bitmap 0 = 1 ∧
      RegionConsistent region' ∧ RegionCalls region' := by
  let region₀ : AllocRegion := regionInit ⟨⟨fun _ => 255, 8, 0x10000⟩, [⟨7, 7⟩, ⟨7, 7⟩]⟩
  let region₁ := stateAfter region₀ (regionReserve region₀ 0x11234 2)
  let region₂ := stateAfter region₁ (regionAlloc region₁ 1)
  let region₃ := stateAfter region₂ (regionFree region₂ 0x11234)
  have h₁ : regionReserve region₀ 0x11234 2 = .ok (.EOK, region₁) :=
    eq_ok_of_resultOf _ (by decide +kernel)
  have h₂ : regionAlloc region₁ 1 = .ok (0x10000, region₂) := eq_ok_of_resultOf _ (by decide +kernel)
  have h₃ : regionFree region₂ 0x11234 = .ok (2, region₃) := eq_ok_of_resultOf _ (by decide +kernel)
  have hrun : Relation.ReflTransGen RegionStep region₀ region₃ :=
    ((Relation.ReflTransGen.single (.reserve (by decide) (by decide) h₁)).tail
      (.alloc (by decide) (by decide) h₂)).tail (.free h₃)
  exact ⟨region₃, hrun, by decide +kernel, by decide +kernel,
    region_allocator_consistent (by decide) (by decide) (by decide) hrun⟩

end KaworuOS.Proofs
