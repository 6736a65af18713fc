import KaworuOS.Proofs.SpaceFrames

/-!
# The region, the table and the frames move in step

`VmInv` ties a region to a table: in the range of the region exactly the pages of the live
allocations are mapped. Each operation of `vmm.c` keeps this.
-/

namespace KaworuOS.Proofs
open Lib

/-- The page `q` lies in the range of the region. -/
def InRegion (region : AllocRegion) (q : Nat) : Prop :=
  pageOf region.allocator.pool ≤ q ∧ q < pageOf region.allocator.pool + region.allocator.pageCount

/-- The mapped pages of the region are the pages of its live allocations, and those that are `mine`
have frames of their own. -/
structure VmInv (free₀ : List Nat) (old mine : Nat → Prop) (s : Mm) (root : Nat) (T : Tree)
    (loose owned free : List Nat) (region : AllocRegion) : Prop where
  frames : FramesInv free₀ old mine s root T loose owned free
  pages : PageRegion region
  mapped : ∀ q, InRegion region q → (T.leaf q ≠ none ↔ Owned region q)
  mine_owned : ∀ q, mine q → Owned region q

variable {s s' : Mm} {root f va pa n size : Nat} {T T' : Tree} {free free' free₀ loose owned used : List Nat}
  {attrs : PageAttrs} {old mine : Nat → Prop} {region region' : AllocRegion} {a : RegionAllocation}

lemma PageRegion.owned_inRegion (h : PageRegion region) {q : Nat} (hq : Owned region q) : InRegion region q := by
  obtain ⟨a, ha, hva, hcov⟩ := hq
  obtain ⟨h1, h2⟩ := h.has_of_covers ha hva hcov
  have h3 := (h.inv.inside a ha hva).2.2
  unfold Block.Has at h2
  have h4 : (pagesOf region a).size = a.pageCount := rfl
  unfold InRegion
  omega

lemma Taken.inRegion (ht : Taken region va n region') (q : Nat) : InRegion region' q ↔ InRegion region q := by
  unfold InRegion
  rw [ht.marked.pool, ht.marked.pageCount]

lemma Released.inRegion (hr : Released region va n region') (q : Nat) :
    InRegion region' q ↔ InRegion region q := by
  unfold InRegion
  rw [hr.marked.pool, hr.marked.pageCount]

/-- `vm_map` on any table: the frames run out, or the region has no room and the error pointer trips the
assertion of `paging_map`, or some page is mapped already, or the pages are mapped. -/
lemma vmMap_cases (h : TableInv s root T free) (hp : PageRegion region) (attrs : PageAttrs) (hsize : size % 4096 = 0)
    (hpos : 0 < size) (hlt : size < 2 ^ 64) (hpa : pa % 4096 = 0) (hend : pa + size ≤ 2 ^ 48) :
    failures s < failures (vmMap (root + s.hhdm) pa size region attrs s).2 ∨
    (regionAlloc region (size / 4096) = .ok (errToPtr .ENOMEM, region) ∧
      (vmMap (root + s.hhdm) pa size region attrs s).1 = .error .panic) ∨
    (∃ va region', va % 4096 = 0 ∧ Taken region va (size / 4096) region' ∧
      (∃ q, pageOf va ≤ q ∧ q < pageOf va + size / 4096 ∧ T.leaf q ≠ none) ∧
      (vmMap (root + s.hhdm) pa size region attrs s).1 = .error .panic) ∨
    ∃ va region' s' T' free' used,
      vmMap (root + s.hhdm) pa size region attrs s = (.ok (va, region'), s') ∧ isErrValue va = false ∧
      va % 4096 = 0 ∧ Taken region va (size / 4096) region' ∧ Grows root s T free s' T' free' used ∧
      (∀ q, pageOf va ≤ q → q < pageOf va + size / 4096 → T.leaf q = none) ∧
      T'.leaf = mapRange T.leaf (pageOf va) (size / 4096) pa attrs := by
  rcases regionAlloc_spec hp.inv.good (n := size / PAGE_SIZE) (by simp only [PAGE_SIZE]; omega)
    (by simp only [PAGE_SIZE]; omega) with ⟨hfull, -⟩ | ⟨va, region', hok, herr, haligned, ht⟩
  · right; left
    have hlift : (Call.lift (regionAlloc region (size / PAGE_SIZE)) : Kernel _) s =
        (.ok (errToPtr .ENOMEM, region), s) := by rw [Call.lift_apply, hfull]
    have hunaligned : isPageAligned (errToPtr .ENOMEM) = false := by decide
    refine ⟨hfull, ?_⟩
    rw [vmMap, if_pos (by simp [hsize]), Call.bind_ok hlift]
    dsimp only
    rw [pagingMap, hunaligned, Bool.and_false, Bool.false_and, if_neg Bool.false_ne_true]
    rfl
  · have hlift : (Call.lift (regionAlloc region (size / PAGE_SIZE)) : Kernel _) s =
        (.ok (va, region'), s) := by rw [Call.lift_apply, hok]
    have hspan := hp.taken_span ht haligned
    have hmap : pagingMap (root + s.hhdm) va pa size attrs =
        pagingMapPages (root + s.hhdm) attrs (size / 4096) va pa := by
      have h1 := hspan.inside
      rw [pagingMap, if_pos (by simp [haligned, hpa, hsize]),
        pageIterations_eq (by simp only [PAGE_SIZE] at h1; omega)]
    rw [vmMap, if_pos (by simp [hsize]), Call.bind_ok hlift]
    dsimp only
    rw [hmap]
    rcases pagingMapPages_spec h attrs hspan.window hpa (by simp only [PAGE_SIZE]; omega) with
      hfail | ⟨hconflict, hpanic⟩ | ⟨s', T', free', used, hnone, hrun, hg, hleaf⟩
    · left
      apply Call.lt_bind (fun err => ?_) hfail
      exact Call.mono_ite (Call.mono_pure _) (Call.mono_pure _)
    · right; right; left
      refine ⟨va, region', haligned, ht, hconflict, ?_⟩
      rw [Call.bind_error (Call.eq_of_fst hpanic)]
    · right; right; right
      refine ⟨va, region', s', T', free', used, ?_, herr, haligned, ht, hg, hnone, hleaf⟩
      rw [Call.bind_ok hrun]
      rfl

lemma vmUnmap_mapped (h : TableInv s root T free) (hp : PageRegion region) {i : Nat}
    (hi : region.allocations[i]? = some a) (hva : a.va ≠ 0)
    (hmapped : ∀ q, RegionAllocation.Covers a q → T.leaf q ≠ none) (hsize : size = a.pageCount * 4096) :
    ∃ s' region', vmUnmap (root + s.hhdm) a.va size region s = (.ok region', s') ∧
      Grows root s T free s' (T.unmap (pageOf a.va) a.pageCount) free [] ∧
      Released region a.va a.pageCount region' ∧ region'.allocations = region.allocations.set i ⟨0, 0⟩ := by
  have ha := List.mem_of_getElem? hi
  obtain ⟨-, region', hfree, htable⟩ := hp.free_returns hi hva
  have hspan := hp.allocation_span ha hva
  have haligned : size % 4096 = 0 := by rw [hsize, Nat.mul_mod_left]
  have hcount : size / 4096 = a.pageCount := by rw [hsize, Nat.mul_div_left _ (by decide)]
  have hlift : (Call.lift (regionFree region a.va) : Kernel _) s = (.ok (a.pageCount, region'), s) := by
    rw [Call.lift_apply, hfree]
  have hunmap : pagingUnmap (root + s.hhdm) a.va size =
      pagingUnmapPages (root + s.hhdm) a.pageCount a.va := by
    rw [pagingUnmap, if_pos (by simp [hspan.aligned, haligned]), pageIterations_eq, hcount]
    rw [hsize]
    exact hspan.inside
  rw [vmUnmap, if_pos (by simp [haligned]), Call.bind_ok hlift]
  dsimp only
  rw [hunmap]
  rcases pagingUnmapPages_spec h hspan.window with ⟨⟨q, h1, h2, hq⟩, -⟩ | ⟨s', -, hrun, hg⟩
  · exact absurd hq (hmapped q ⟨h1, h2⟩)
  · refine ⟨s', region', ?_, hg, regionFree_ok hp.inv hfree, htable⟩
    rw [Call.bind_ok hrun]
    rfl

section VmInv

variable (h : VmInv free₀ old mine s root T loose owned free region)
include h

lemma VmInv.congr_mine {mine' : Nat → Prop} (heq : ∀ q, mine q ↔ mine' q) :
    VmInv free₀ old mine' s root T loose owned free region := by
  obtain rfl : mine = mine' := funext (fun q => propext (heq q))
  exact h

lemma VmInv.taken_fresh (ht : Taken region va n region') (haligned : va % 4096 = 0) {q : Nat}
    (h1 : pageOf va ≤ q) (h2 : q < pageOf va + n) : T.leaf q = none ∧ ¬mine q := by
  have hnot := h.pages.taken_fresh ht haligned ⟨h1, h2⟩
  have hin : InRegion region q := by
    rw [← ht.inRegion]
    exact (h.pages.take ht haligned).owned_inRegion ((h.pages.owned_take ht).mpr (.inr ⟨h1, h2⟩))
  refine ⟨?_, fun hq => hnot (h.mine_owned q hq)⟩
  by_contra hsome
  exact hnot ((h.mapped q hin).mp hsome)

lemma VmInv.taken (ht : Taken region va n region') (haligned : va % 4096 = 0) {mine' : Nat → Prop}
    {loose' owned' : List Nat} (hframes : FramesInv free₀ old mine' s' root T' loose' owned' free')
    (hmine : ∀ q, mine' q → mine q ∨ (pageOf va ≤ q ∧ q < pageOf va + n))
    (hnew : ∀ q, pageOf va ≤ q → q < pageOf va + n → T'.leaf q ≠ none)
    (hold : ∀ q, ¬(pageOf va ≤ q ∧ q < pageOf va + n) → T'.leaf q = T.leaf q) :
    VmInv free₀ old mine' s' root T' loose' owned' free' region' := by
  refine ⟨hframes, h.pages.take ht haligned, ?_, ?_⟩
  · intro q hq
    rw [h.pages.owned_take ht]
    by_cases hc : pageOf va ≤ q ∧ q < pageOf va + n
    · exact ⟨fun _ => .inr hc, fun _ => hnew q hc.1 hc.2⟩
    · rw [hold q hc, h.mapped q ((ht.inRegion q).mp hq)]
      constructor
      · exact .inl
      · rintro (ho | ho)
        · exact ho
        · exact absurd ho hc
  · intro q hq
    rw [h.pages.owned_take ht]
    rcases hmine q hq with hq | hq
    · exact .inl (h.mine_owned q hq)
    · exact .inr hq

lemma VmInv.released (hr : Released region va n region') {mine' : Nat → Prop} {owned' : List Nat}
    (hframes : FramesInv free₀ old mine' s' root (T.unmap (pageOf va) n) loose owned' free')
    (hmine : ∀ q, mine' q → mine q ∧ ¬(pageOf va ≤ q ∧ q < pageOf va + n)) :
    VmInv free₀ old mine' s' root (T.unmap (pageOf va) n) loose owned' free' region' := by
  refine ⟨hframes, h.pages.release hr, ?_, ?_⟩
  · intro q hq
    rw [h.pages.owned_release hr]
    show unmapRange T.leaf (pageOf va) n q ≠ none ↔ _
    unfold unmapRange
    by_cases hc : pageOf va ≤ q ∧ q < pageOf va + n
    · rw [if_pos hc]
      exact ⟨fun hne => absurd rfl hne, fun hn => absurd hc hn.2⟩
    · rw [if_neg hc, h.mapped q ((hr.inRegion q).mp hq)]
      exact ⟨fun ho => ⟨ho, hc⟩, fun ho => ho.1⟩
  · intro q hq
    rw [h.pages.owned_release hr]
    exact ⟨h.mine_owned q (hmine q hq).1, (hmine q hq).2⟩

/-- `vm_alloc`: the frames run out, or the region has no room, or fresh frames are mapped. -/
lemma VmInv.vmAlloc_spec (attrs : PageAttrs) (hsize : size % 4096 = 0) (hpos : 0 < size) (hlt : size < 2 ^ 64) :
    failures s < failures (vmAlloc (root + s.hhdm) size region attrs s).2 ∨
    vmAlloc (root + s.hhdm) size region attrs s = (.ok (errToPtr .ENOMEM, region), s) ∨
    ∃ va region' s' T' owned' free',
      vmAlloc (root + s.hhdm) size region attrs s = (.ok (va, region'), s') ∧ isErrValue va = false ∧
      va % 4096 = 0 ∧ Taken region va (size / 4096) region' ∧ Same s s' ∧
      (∀ f, T.IsTable f → T'.IsTable f) ∧
      (∀ q, ¬(pageOf va ≤ q ∧ q < pageOf va + size / 4096) → T'.leaf q = T.leaf q) ∧
      VmInv free₀ old (fun q => mine q ∨ (pageOf va ≤ q ∧ q < pageOf va + size / 4096)) s' root T' loose
        owned' free' region' := by
  rcases regionAlloc_spec h.pages.inv.good (n := size / PAGE_SIZE) (by simp only [PAGE_SIZE]; omega)
    (by simp only [PAGE_SIZE]; omega) with ⟨hfull, -⟩ | ⟨va, region', hok, herr, haligned, ht⟩
  · right; left
    have hlift : (Call.lift (regionAlloc region (size / PAGE_SIZE)) : Kernel _) s =
        (.ok (errToPtr .ENOMEM, region), s) := by rw [Call.lift_apply, hfull]
    rw [vmAlloc, Call.bind_ok hlift]
    dsimp only
    rw [if_pos isErrValue_errToPtr]
    rfl
  · have hlift : (Call.lift (regionAlloc region (size / PAGE_SIZE)) : Kernel _) s =
        (.ok (va, region'), s) := by rw [Call.lift_apply, hok]
    rw [vmAlloc, Call.bind_ok hlift]
    dsimp only
    rw [herr, if_neg Bool.false_ne_true]
    rcases h.frames.allocPages attrs (h.pages.taken_span ht haligned)
      (fun q h1 h2 => h.taken_fresh ht haligned h1 h2) with
      hfail | ⟨s', T', owned', free', hrun, hframes, hsame, htables, hnew, hold⟩
    · left
      apply Call.lt_bind (fun err => ?_) hfail
      exact Call.mono_ite (Call.mono_pure _) (Call.mono_pure _)
    · right; right
      refine ⟨va, region', s', T', owned', free', ?_, herr, haligned, ht, hsame, htables, hold, ?_⟩
      · rw [Call.bind_ok hrun]
        rfl
      · exact h.taken ht haligned hframes (fun q hq => hq) hnew hold

/-- `vm_free` of an allocation whose frames are `mine` gives them back. -/
lemma VmInv.vmFree_spec {i : Nat} (hi : region.allocations[i]? = some a) (hva : a.va ≠ 0)
    (hmine : ∀ q, RegionAllocation.Covers a q → mine q) :
    ∃ s' region' freed owned',
      vmFree (root + s.hhdm) a.va region s = (.ok region', s') ∧ Freed s free freed s' ∧
      owned.Perm (freed ++ owned') ∧ Released region a.va a.pageCount region' ∧
      region'.allocations = region.allocations.set i ⟨0, 0⟩ ∧
      VmInv free₀ old (fun q => mine q ∧ ¬RegionAllocation.Covers a q) s' root
        (T.unmap (pageOf a.va) a.pageCount) loose owned' (freed ++ free) region' := by
  have ha := List.mem_of_getElem? hi
  obtain ⟨hfind, region', hfree, htable⟩ := h.pages.free_returns hi hva
  have hr := regionFree_ok h.pages.inv hfree
  have hspan := h.pages.allocation_span ha hva
  have hd : region.allocations.getD i ⟨0, 0⟩ = a := by
    rw [List.getD_eq_getElem?_getD, hi]
    rfl
  obtain ⟨s', freed, owned', hrun, hfreed, hperm, hframes⟩ :=
    h.frames.freePages (i := 0) (n := a.pageCount) hspan (by omega) (by
      intro q h1 h2
      have hcov : RegionAllocation.Covers a q := ⟨h1, h2⟩
      have howned : Owned region q := ⟨a, ha, hva, hcov⟩
      exact ⟨hmine q hcov, (h.mapped q (h.pages.owned_inRegion howned)).mpr howned⟩)
  rw [← List.range_eq_range'] at hrun
  refine ⟨s', region', freed, owned', ?_, hfreed, hperm, hr, htable, ?_⟩
  · have hlift : (Call.lift (regionFree region a.va) : Kernel _) s' = (.ok (a.pageCount, region'), s') := by
      rw [Call.lift_apply, hfree]
    rw [vmFree, hfind]
    dsimp only
    rw [hd, Call.bind_ok hrun, Call.bind_ok hlift]
    rfl
  · exact h.released hr hframes (fun q hq => hq)

/-- `vm_map`: the frames run out, or the region has no room and the error pointer trips the assertion
of `paging_map`, or the pages are mapped. -/
lemma VmInv.vmMap_spec (attrs : PageAttrs) (hsize : size % 4096 = 0) (hpos : 0 < size) (hlt : size < 2 ^ 64)
    (hpa : pa % 4096 = 0) (hend : pa + size ≤ 2 ^ 48) :
    failures s < failures (vmMap (root + s.hhdm) pa size region attrs s).2 ∨
    (regionAlloc region (size / 4096) = .ok (errToPtr .ENOMEM, region) ∧
      (vmMap (root + s.hhdm) pa size region attrs s).1 = .error .panic) ∨
    ∃ va region' s' T' owned' free',
      vmMap (root + s.hhdm) pa size region attrs s = (.ok (va, region'), s') ∧ isErrValue va = false ∧
      va % 4096 = 0 ∧ Taken region va (size / 4096) region' ∧ Same s s' ∧
      VmInv free₀ old mine s' root T' loose owned' free' region' := by
  rcases vmMap_cases h.frames.table h.pages attrs hsize hpos hlt hpa hend with
    hfail | hfull | ⟨va, region', haligned, ht, ⟨q, h1, h2, hq⟩, -⟩ |
      ⟨va, region', s', T', free', used, hrun, herr, haligned, ht, hg, -, hleaf⟩
  · exact .inl hfail
  · exact .inr (.inl hfull)
  · exact absurd (h.taken_fresh ht haligned h1 h2).1 hq
  · right; right
    have hother : ∀ q, ¬(pageOf va ≤ q ∧ q < pageOf va + size / 4096) → T'.leaf q = T.leaf q := by
      intro q hq
      rw [hleaf, mapRange, if_neg hq]
    have hframes := h.frames.grow hg (fun q hq => hother q (by
      rintro ⟨h1, h2⟩
      exact (h.taken_fresh ht haligned h1 h2).2 hq))
    refine ⟨va, region', s', T', owned ++ used, free', hrun, herr, haligned, ht, ⟨hg.hhdm, hg.heap, hg.log⟩, ?_⟩
    refine h.taken ht haligned hframes (fun q hq => .inl hq) ?_ hother
    intro q h1 h2
    rw [hleaf, mapRange, if_pos ⟨h1, h2⟩]
    simp

/-- `vm_unmap` of a mapped allocation that is not `mine`. -/
lemma VmInv.vmUnmap_spec {i : Nat} (hi : region.allocations[i]? = some a) (hva : a.va ≠ 0)
    (hmine : ∀ q, RegionAllocation.Covers a q → ¬mine q) (hsize : size = a.pageCount * 4096) :
    ∃ s' region' owned',
      vmUnmap (root + s.hhdm) a.va size region s = (.ok region', s') ∧ Same s s' ∧
      Released region a.va a.pageCount region' ∧
      VmInv free₀ old mine s' root (T.unmap (pageOf a.va) a.pageCount) loose owned' free region' := by
  have hmapped : ∀ q, RegionAllocation.Covers a q → T.leaf q ≠ none := by
    intro q hcov
    have howned : Owned region q := ⟨a, List.mem_of_getElem? hi, hva, hcov⟩
    exact (h.mapped q (h.pages.owned_inRegion howned)).mpr howned
  obtain ⟨s', region', hrun, hg, hr, -⟩ := vmUnmap_mapped h.frames.table h.pages hi hva hmapped hsize
  have hframes := h.frames.grow hg (fun q hq => if_neg (fun hcov => hmine q hcov hq))
  exact ⟨s', region', owned ++ [], hrun, ⟨hg.hhdm, hg.heap, hg.log⟩, hr,
    h.released hr hframes (fun q hq => ⟨hq, fun hcov => hmine q hcov hq⟩)⟩

end VmInv

end KaworuOS.Proofs
