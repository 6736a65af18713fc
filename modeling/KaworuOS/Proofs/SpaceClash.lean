import KaworuOS.Proofs.SpaceLife
import KaworuOS.Proofs.VmCoverage

/-!
# Pages that the region of an address space does not know

`address_space_alloc` and `address_space_map_owned` mark the pages that they map in the region of the
space. `address_space_map_unowned` does not, and `address_space_alloc` may choose such a page later.
-/

namespace KaworuOS.Proofs
open Lib

/-- A page of the region whose bit is clear. -/
def ClearPage (region : AllocRegion) (q : Nat) : Prop :=
  InRegion region q ∧ region.allocator.bitmap.bit (q - pageOf region.allocator.pool) = false

/-- Whole pages inside the user range. -/
structure UserRange (va size : Nat) : Prop where
  aligned : va % 4096 = 0
  whole : size % 4096 = 0
  base_le : USER_VM_RANGE_BASE ≤ va
  le_end : va + size ≤ USER_VM_RANGE_END

/-- An address space at work. The ghost field `stray` remembers the pages that `address_space_map_unowned`
has mapped although their bits were clear. -/
structure MixedSpace where
  mm : Mm
  as : AddressSpace
  stray : Nat → Prop

/-- A call that returns, be it with an error. -/
inductive MixedStep : MixedSpace → MixedSpace → Prop
  | alloc {x : MixedSpace} {size va : Nat} {perms : PagePerms} {uxn : ExecPerms} {as : AddressSpace} {s : Mm}
      (hlt : size < 2 ^ 64) (hcall : addressSpaceAlloc x.as size perms uxn x.mm = (.ok (va, as), s)) :
      MixedStep x ⟨s, as, x.stray⟩
  | mapOwned {x : MixedSpace} {va pa size err : Nat} {perms : PagePerms} {uxn : ExecPerms} {as : AddressSpace} {s : Mm}
      (hrange : UserRange va size) (hpa : GoodRange pa size)
      (hcall : addressSpaceMapOwned x.as va pa size perms uxn x.mm = (.ok (err, as), s)) :
      MixedStep x ⟨s, as, x.stray⟩
  | mapUnowned {x : MixedSpace} {va pa size err : Nat} {perms : PagePerms} {uxn : ExecPerms} {s : Mm}
      (hrange : UserRange va size) (hpa : GoodRange pa size)
      (hcall : addressSpaceMapUnowned x.as va pa size perms uxn x.mm = (.ok err, s)) :
      MixedStep x ⟨s, x.as, fun q => x.stray q ∨
        ((pageOf va ≤ q ∧ q < pageOf va + size / 4096) ∧ ClearPage x.as.region q)⟩

/-- The pages that are mapped with a clear bit are the stray ones. -/
structure MixedInv (root : Nat) (x : MixedSpace) (T : Tree) (free : List Nat) : Prop where
  table : TableInv x.mm root T free
  addr : x.as.table = root + x.mm.hhdm
  pages : PageRegion x.as.region
  pool : x.as.region.allocator.pool = USER_VM_RANGE_BASE
  count : x.as.region.allocator.pageCount = USER_VM_RANGE_SIZE / PAGE_SIZE
  stray : ∀ q, x.stray q ↔ ClearPage x.as.region q ∧ T.leaf q ≠ none

variable {s s' s₀ s₁ : Mm} {root va pa n size q : Nat} {T T' : Tree} {free free' free₀ : List Nat}
  {region region' : AllocRegion} {as as' : AddressSpace} {x x' : MixedSpace}

lemma UserRange.span (h : UserRange va size) : Span va (size / 4096) := by
  obtain ⟨h1, h2, h3, h4⟩ := h
  simp only [USER_VM_RANGE_BASE, USER_VM_RANGE_END, USER_VM_RANGE_SIZE] at h3 h4
  refine ⟨h1, by omega, by omega⟩

section Taken

variable (hp : PageRegion region) (ht : Taken region va n region') (haligned : va % 4096 = 0)
include hp ht haligned

lemma PageRegion.taken_covers_iff : RegionAllocation.Covers ⟨va, n⟩ q ↔ pageOf region.allocator.pool ≤ q ∧
    (pagesOf region ⟨va, n⟩).Has (q - pageOf region.allocator.pool) :=
  hp.covers_iff (a := ⟨va, n⟩) ht.pool_le haligned ht.positive ht.fits

lemma PageRegion.taken_clear (hq : RegionAllocation.Covers ⟨va, n⟩ q) : ClearPage region q := by
  obtain ⟨h1, h2⟩ := (hp.taken_covers_iff ht haligned).mp hq
  have h3 := ht.fits
  refine ⟨⟨h1, ?_⟩, ht.clear _ h2⟩
  unfold Block.Has at h2
  simp only [pagesOf, PAGE_SIZE] at h2
  omega

lemma PageRegion.clearPage_take :
    ClearPage region' q ↔ ClearPage region q ∧ ¬RegionAllocation.Covers ⟨va, n⟩ q := by
  unfold ClearPage
  rw [ht.inRegion, ht.marked.pool, hp.taken_covers_iff ht haligned]
  by_cases hin : (pagesOf region ⟨va, n⟩).Has (q - pageOf region.allocator.pool)
  · rw [ht.marked.inside _ hin]
    constructor
    · rintro ⟨-, hbit⟩
      cases hbit
    · rintro ⟨⟨h1, -⟩, hnot⟩
      exact absurd ⟨h1.1, hin⟩ hnot
  · rw [ht.marked.outside _ hin]
    exact ⟨fun hclear => ⟨hclear, fun hcov => hin hcov.2⟩, fun hclear => hclear.1⟩

end Taken

section Step

variable (h : MixedInv root x T free)
include h

lemma MixedInv.taken (ht : Taken x.as.region va n region') (haligned : va % 4096 = 0)
    (hT : TableInv s root T' free') (hhdm : s.hhdm = x.mm.hhdm)
    (hnone : ∀ q, pageOf va ≤ q → q < pageOf va + n → T.leaf q = none)
    (hold : ∀ q, ¬(pageOf va ≤ q ∧ q < pageOf va + n) → T'.leaf q = T.leaf q) :
    MixedInv root ⟨s, x.as.setRegion region', x.stray⟩ T' free' := by
  refine ⟨hT, h.addr.trans (by rw [hhdm]), h.pages.take ht haligned, ht.marked.pool.trans h.pool,
    ht.marked.pageCount.trans h.count, ?_⟩
  intro q
  show x.stray q ↔ ClearPage region' q ∧ _
  rw [h.stray, h.pages.clearPage_take ht haligned]
  by_cases hq : pageOf va ≤ q ∧ q < pageOf va + n
  · constructor
    · rintro ⟨-, hne⟩
      exact absurd (hnone q hq.1 hq.2) hne
    · rintro ⟨⟨-, hnot⟩, -⟩
      exact absurd hq hnot
  · rw [hold q hq]
    exact ⟨fun hs => ⟨⟨hs.1, hq⟩, hs.2⟩, fun hs => ⟨hs.1.1, hs.2⟩⟩

lemma MixedInv.step (hstep : MixedStep x x') (hnever : failures x'.mm = failures x.mm) :
    ∃ T' free', MixedInv root x' T' free' := by
  cases hstep with
  | @alloc size va perms uxn as s hlt hcall =>
    obtain ⟨⟨start, region'⟩, s₁, hvm, hret⟩ := Call.ok_of_bind hcall
    obtain ⟨hr, rfl⟩ := Prod.mk.inj hret
    obtain ⟨rfl, rfl⟩ := Prod.mk.inj (Except.ok.inj hr)
    rw [h.addr] at hvm
    rcases Nat.eq_zero_or_pos (size / 4096) with hzero | hpos
    · obtain ⟨r, s₂, hlift, -⟩ := Call.ok_of_bind hvm
      rw [Call.lift_apply, regionAlloc, if_pos hzero] at hlift
      cases (Prod.mk.inj hlift).1
    rcases vmAlloc_cases h.table h.pages (userPageAttrs perms uxn) hpos hlt with
      hfail | hfull | ⟨va, region', -, -, -, hpanic⟩ |
        ⟨va, region', frames, s', T', free', hrun, haligned, ht, hlen, hnone, hfresh⟩
    · rw [hvm] at hfail
      exact absurd hnever (Nat.ne_of_gt hfail)
    · rw [hvm] at hfull
      obtain ⟨hr, rfl⟩ := Prod.mk.inj hfull
      obtain ⟨-, rfl⟩ := Prod.mk.inj (Except.ok.inj hr)
      exact ⟨T, free, h⟩
    · rw [hvm] at hpanic
      cases hpanic
    · rw [hvm] at hrun
      obtain ⟨hr, rfl⟩ := Prod.mk.inj hrun
      obtain ⟨rfl, rfl⟩ := Prod.mk.inj (Except.ok.inj hr)
      exact ⟨T', free', h.taken ht haligned hfresh.inv hfresh.hhdm hnone (by rw [← hlen]; exact hfresh.others)⟩
  | @mapOwned va pa size err perms uxn as s hrange hpa hcall =>
    have hend := hpa.bound
    rcases mapOwned_cases h.table h.pages h.addr (by omega) hcall hnever (fun _ _ => by omega) with
      ⟨-, rfl, rfl⟩ | ⟨region', T', free', used, rfl, hm⟩
    · exact ⟨T, free, h⟩
    · refine ⟨T', free', h.taken hm.taken hm.aligned hm.grows.inv hm.grows.hhdm hm.fresh ?_⟩
      intro q hq
      rw [hm.leaf, mapRange, if_neg hq]
  | @mapUnowned va pa size err perms uxn s hrange hpa hcall =>
    have hspan := hrange.span
    have hwhole := hrange.whole
    have hmap : pagingMap (root + x.mm.hhdm) va pa size (userPageAttrs perms uxn) =
        pagingMapPages (root + x.mm.hhdm) (userPageAttrs perms uxn) (size / 4096) va pa := by
      have hend := hspan.inside
      rw [pagingMap, if_pos (by simp [hrange.aligned, hpa.aligned, hwhole]), pageIterations_eq (by omega)]
    rw [addressSpaceMapUnowned, h.addr, hmap] at hcall
    have hend := hpa.bound
    rcases pagingMapPages_spec h.table (userPageAttrs perms uxn) hspan.window hpa.aligned (by omega) with
      hfail | ⟨-, hpanic⟩ | ⟨s', T', free', used, hnone, hrun, hg, hleaf⟩
    · rw [hcall] at hfail
      exact absurd hnever (Nat.ne_of_gt hfail)
    · rw [hcall] at hpanic
      cases hpanic
    · rw [hcall] at hrun
      obtain ⟨-, rfl⟩ := Prod.mk.inj hrun
      refine ⟨T', free', hg.inv, h.addr.trans (by rw [hg.hhdm]), h.pages, h.pool, h.count, ?_⟩
      intro q
      show (x.stray q ∨ _) ↔ _
      rw [hleaf, mapRange, h.stray]
      by_cases hq : pageOf va ≤ q ∧ q < pageOf va + size / 4096
      · rw [if_pos hq]
        constructor
        · rintro (⟨hclear, -⟩ | ⟨-, hclear⟩)
          · exact ⟨hclear, by simp⟩
          · exact ⟨hclear, by simp⟩
        · exact fun hs => .inr ⟨hq, hs.1⟩
      · rw [if_neg hq]
        constructor
        · rintro (hs | ⟨hcov, -⟩)
          · exact hs
          · exact absurd hcov hq
        · exact .inl

end Step

lemma MixedStep.failures_le (h : MixedStep x x') : failures x.mm ≤ failures x'.mm := by
  cases h with
  | alloc hlt hcall => exact (mono_addressSpaceAlloc _ _ _ _).le hcall
  | mapOwned hrange hpa hcall => exact (mono_addressSpaceMapOwned _ _ _ _ _ _).le hcall
  | mapUnowned hrange hpa hcall => exact (mono_pagingMap _ _ _ _ _).le hcall

lemma mixed_run (h : MixedInv root x T free) (hrun : Relation.ReflTransGen MixedStep x x')
    (hnever : failures x'.mm = failures x.mm) : ∃ T' free', MixedInv root x' T' free' := by
  refine run_inv_of_const (I := fun y => ∃ T' free', MixedInv root y T' free') (m := fun y => failures y.mm)
    MixedStep.failures_le ?_ ⟨T, free, h⟩ hrun hnever
  rintro y z ⟨T₁, free₁, h₁⟩ hstep hsame
  exact h₁.step hstep hsame

lemma MixedInv.create (hpmm : PmmInv s₀ free₀) (hcall : addressSpaceCreate s₀ = (.ok (.ok as), s₁)) :
    ∃ root T free, MixedInv root ⟨s₁, as, fun _ => False⟩ T free ∧ s₁.log = s₀.log ∧ free₀ = root :: free := by
  obtain ⟨root, free, rest, rfl, htable, -, hregion, rfl⟩ := addressSpaceCreate_ok hpmm hcall
  refine ⟨root, emptyTree root, free, ⟨?_, htable, ?_, ?_, ?_, ?_⟩, rfl, rfl⟩
  · refine hpmm.createTable.congr ?_ ?_ ?_
    · rfl
    · rfl
    · rfl
  · show PageRegion as.region
    rw [hregion]
    exact emptyRegion _ (by decide) userSpan _
  · show as.region.allocator.pool = _
    rw [hregion]
  · show as.region.allocator.pageCount = _
    rw [hregion]
  · exact fun q => ⟨False.elim, fun hq => absurd rfl hq.2⟩

section Results

variable (h : MixedInv root x T free)
include h

lemma MixedInv.clearPage_iff (hlo : USER_VM_RANGE_BASE ≤ va) (hhi : va < USER_VM_RANGE_END) :
    ClearPage x.as.region (pageOf va) ↔
      x.as.region.allocator.bitmap.bit ((va - USER_VM_RANGE_BASE) / 4096) = false := by
  have hin : InRange x.as.region va := by
    unfold InRange
    rw [h.pool, h.count]
    simp only [USER_VM_RANGE_BASE, USER_VM_RANGE_END, USER_VM_RANGE_SIZE, PAGE_SIZE] at *
    omega
  have hpage := h.pages.pageOf_eq hin
  have hregion := h.pages.inRange_inRegion hin
  unfold ClearPage
  rw [← h.pool, hpage, Nat.add_sub_cancel_left]
  rw [hpage] at hregion
  exact ⟨fun hclear => hclear.2, fun hbit => ⟨hregion, hbit⟩⟩

lemma MixedInv.clear_unmapped_iff :
    (∀ va, USER_VM_RANGE_BASE ≤ va → va < USER_VM_RANGE_END →
      x.as.region.allocator.bitmap.bit ((va - USER_VM_RANGE_BASE) / 4096) = false →
      validDesc x.as.table va x.mm = none) ↔ ∀ q, ¬x.stray q := by
  have hdesc : ∀ va, validDesc x.as.table va x.mm = none ↔ T.leaf (pageOf va) = none := by
    intro va
    rw [h.addr, h.table.validDesc_eq va]
    simp
  constructor
  · intro hclear q hq
    obtain ⟨hq, hmapped⟩ := (h.stray q).mp hq
    obtain ⟨h1, h2⟩ := hq.1
    rw [h.pool] at h1 h2
    rw [h.count] at h2
    have hpool : pageOf USER_VM_RANGE_BASE = 16 := by decide
    simp only [hpool, USER_VM_RANGE_SIZE, PAGE_SIZE] at h1 h2
    have hlo : USER_VM_RANGE_BASE ≤ q * 4096 := by
      simp only [USER_VM_RANGE_BASE]
      omega
    have hhi : q * 4096 < USER_VM_RANGE_END := by
      simp only [USER_VM_RANGE_END, USER_VM_RANGE_BASE, USER_VM_RANGE_SIZE]
      omega
    have hpage : pageOf (q * 4096) = q := by
      unfold pageOf
      omega
    have hnone := (hdesc _).mp (hclear _ hlo hhi ((h.clearPage_iff hlo hhi).mp (by rw [hpage]; exact hq)))
    rw [hpage] at hnone
    exact hmapped hnone
  · intro hnone va hlo hhi hbit
    rw [hdesc]
    by_contra hmapped
    exact hnone _ ((h.stray _).mpr ⟨(h.clearPage_iff hlo hhi).mpr hbit, hmapped⟩)

lemma MixedInv.alloc_returns (hnone : ∀ q, ¬x.stray q) (perms : PagePerms) (uxn : ExecPerms) (hsize : GoodSize size)
    (hnever : failures (addressSpaceAlloc x.as size perms uxn x.mm).2 = failures x.mm) :
    ∃ r, (addressSpaceAlloc x.as size perms uxn x.mm).1 = .ok r := by
  have hpos : 0 < size / 4096 := by
    have h1 := hsize.aligned
    have h2 := hsize.positive
    omega
  unfold addressSpaceAlloc at hnever ⊢
  rw [h.addr] at hnever ⊢
  rcases vmAlloc_cases h.table h.pages (userPageAttrs perms uxn) hpos hsize.bound with
    hfail | hfull | ⟨va, region', haligned, ht, ⟨q, h1, h2, hq⟩, -⟩ |
      ⟨va, region', frames, s', T', free', hrun, -⟩
  · have hlt := Call.lt_bind (f := fun r => (return (r.1, x.as.setRegion r.2) : Kernel (Nat × AddressSpace)))
      (fun _ => Call.mono_pure _) hfail
    exact absurd hnever (Nat.ne_of_gt hlt)
  · rw [Call.bind_ok hfull]
    exact ⟨_, rfl⟩
  · exact absurd ((h.stray q).mpr ⟨h.pages.taken_clear ht haligned ⟨h1, h2⟩, hq⟩) (hnone q)
  · rw [Call.bind_ok hrun]
    exact ⟨_, rfl⟩

end Results

/-- In every state of a run on a new address space, with frames always there, the user pages whose bits
are clear are all unmapped exactly if `address_space_map_unowned` has never mapped a page with a clear
bit, and then `address_space_alloc` does not trip over a mapped page. -/
theorem address_space_alloc_collision_free_iff {s₀ s₁ : Mm} {free₀ : List Nat} {as : AddressSpace} {x : MixedSpace}
    (hpmm : PmmInv s₀ free₀) (hcreate : addressSpaceCreate s₀ = (.ok (.ok as), s₁))
    (hrun : Relation.ReflTransGen MixedStep ⟨s₁, as, fun _ => False⟩ x) (hnever : x.mm.log.failed = s₀.log.failed) :
    ((∀ va, USER_VM_RANGE_BASE ≤ va → va < USER_VM_RANGE_END →
        x.as.region.allocator.bitmap.bit ((va - USER_VM_RANGE_BASE) / 4096) = false →
        validDesc x.as.table va x.mm = none) ↔ ∀ q, ¬x.stray q) ∧
    ((∀ q, ¬x.stray q) → ∀ size perms uxn, GoodSize size →
      failures (addressSpaceAlloc x.as size perms uxn x.mm).2 = failures x.mm →
      ∃ r, (addressSpaceAlloc x.as size perms uxn x.mm).1 = .ok r) := by
  obtain ⟨root, T₀, free, hstart, hlog, -⟩ := MixedInv.create hpmm hcreate
  have hnever' : failures x.mm = failures s₁ := by
    show x.mm.log.failed = s₁.log.failed
    rw [hlog]
    exact hnever
  obtain ⟨T, free', hinv⟩ := mixed_run hstart hrun hnever'
  exact ⟨hinv.clear_unmapped_iff, fun hnone size perms uxn hsize hok => hinv.alloc_returns hnone perms uxn hsize hok⟩

/-- A page is mapped with `address_space_map_owned`, and an allocation goes elsewhere. -/
theorem address_space_alloc_beside_owned :
    ∃ x, Relation.ReflTransGen MixedStep ⟨lifeStart.mm, bootSpace, fun _ => False⟩ x ∧
      validDesc 0x101000 0x10000 x.mm ≠ none ∧
      ∃ r, (addressSpaceAlloc x.as 0x1000 .EL1_READ_WRITE_EL0_READ_WRITE .NOT_EXECUTABLE x.mm).1 = .ok r := by
  let call := addressSpaceMapOwned bootSpace 0x10000 0x80000 0x1000 .EL1_READ_ONLY_EL0_READ_ONLY .EXECUTABLE
  let x : MixedSpace := ⟨(call lifeStart.mm).2, (call.valueD lifeStart.mm (0, bootSpace)).2, fun _ => False⟩
  have hcall : call lifeStart.mm = (.ok (0, x.as), x.mm) :=
    Call.eq_pairD (0, bootSpace) (by decide +kernel) (by decide +kernel)
  have hrun : Relation.ReflTransGen MixedStep ⟨lifeStart.mm, bootSpace, fun _ => False⟩ x :=
    .single (.mapOwned ⟨by decide, by decide, by decide, by decide⟩ ⟨by decide, by decide⟩ hcall)
  have hcreate : addressSpaceCreate spaceBoot = (.ok (.ok bootSpace), lifeStart.mm) := Call.eq_of_fst rfl
  refine ⟨x, hrun, by decide +kernel, ?_⟩
  exact (address_space_alloc_collision_free_iff spaceBoot_inv hcreate hrun (by decide +kernel)).2 (fun _ => id)
    0x1000 _ _ ⟨by decide, by decide, by decide⟩ (by decide +kernel)

/-- The first page of the user range is mapped with `address_space_map_unowned`, and the first allocation
takes it. -/
theorem address_space_alloc_hits_unowned :
    ∃ x, Relation.ReflTransGen MixedStep ⟨lifeStart.mm, bootSpace, fun _ => False⟩ x ∧
      x.as.region.allocator.bitmap.bit 0 = false ∧ validDesc x.as.table USER_VM_RANGE_BASE x.mm ≠ none ∧
      (addressSpaceAlloc x.as 0x1000 .EL1_READ_WRITE_EL0_READ_WRITE .NOT_EXECUTABLE x.mm).1 = .error .panic := by
  let call := addressSpaceMapUnowned bootSpace 0x10000 0x80000 0x1000 .EL1_READ_ONLY_EL0_READ_ONLY .EXECUTABLE
  have hcall : call lifeStart.mm = (.ok 0, (call lifeStart.mm).2) := Call.eq_of_fst (by decide +kernel)
  refine ⟨_, .single (.mapUnowned ⟨by decide, by decide, by decide, by decide⟩ ⟨by decide, by decide⟩ hcall),
    by decide +kernel, by decide +kernel, ?_⟩
  exact error_of_map (by decide +kernel)

end KaworuOS.Proofs
