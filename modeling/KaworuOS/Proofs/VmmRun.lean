import KaworuOS.Lib.Run
import KaworuOS.Proofs.VmInv

/-!
# Runs of the virtual memory manager

A run of `vm_alloc`, `vm_free`, `vm_map` and `vm_unmap` on one table and one region. The ghost field
`live` remembers which results the callers still hold.
-/

namespace KaworuOS.Proofs
open Lib

/-- What a caller holds: a result of `vm_alloc`, or of `vm_map` with the size. -/
inductive VmResult
  | alloc
  | map (size : Nat)
  deriving DecidableEq, Repr

/-- The memory and the region, with the results by their addresses. -/
structure Vm where
  mm : Mm
  region : AllocRegion
  live : Nat → Option VmResult

/-- A size that the callers may ask for. -/
structure GoodSize (size : Nat) : Prop where
  aligned : size % 4096 = 0
  positive : 0 < size
  bound : size < 2 ^ 64

/-- A range of physical memory that the callers may map. -/
structure GoodRange (pa size : Nat) : Prop where
  aligned : pa % 4096 = 0
  bound : pa + size ≤ 2 ^ 48

/-- A call that does not fail. -/
inductive VmStep (table : Nat) : Vm → Vm → Prop
  | alloc {v : Vm} {size va : Nat} {attrs : PageAttrs} {region : AllocRegion} {s : Mm} (hsize : GoodSize size)
      (hcall : vmAlloc table size v.region attrs v.mm = (.ok (va, region), s)) (hok : isErrValue va = false) :
      VmStep table v ⟨s, region, Function.update v.live va (some .alloc)⟩
  | free {v : Vm} {va : Nat} {region : AllocRegion} {s : Mm} (hlive : v.live va = some .alloc)
      (hcall : vmFree table va v.region v.mm = (.ok region, s)) :
      VmStep table v ⟨s, region, Function.update v.live va none⟩
  | map {v : Vm} {pa size va : Nat} {attrs : PageAttrs} {region : AllocRegion} {s : Mm} (hsize : GoodSize size)
      (hpa : GoodRange pa size) (hcall : vmMap table pa size v.region attrs v.mm = (.ok (va, region), s))
      (hok : isErrValue va = false) :
      VmStep table v ⟨s, region, Function.update v.live va (some (.map size))⟩
  | unmap {v : Vm} {va size : Nat} {region : AllocRegion} {s : Mm} (hlive : v.live va = some (.map size))
      (hcall : vmUnmap table va size v.region v.mm = (.ok region, s)) :
      VmStep table v ⟨s, region, Function.update v.live va none⟩

/-- The page `q` belongs to a result of `vm_alloc`. -/
def AllocPage (v : Vm) (q : Nat) : Prop :=
  ∃ a ∈ v.region.allocations, a.va ≠ 0 ∧ v.live a.va = some .alloc ∧ RegionAllocation.Covers a q

/-- The callers hold results of live allocations only. -/
def HeldLive (v : Vm) : Prop :=
  ∀ va r, v.live va = some r → ∃ a ∈ v.region.allocations, a.va = va ∧ va ≠ 0 ∧
    ∀ size, r = .map size → size = a.pageCount * 4096

/-- The invariant of a run. -/
structure VmRunInv (free₀ : List Nat) (old : Nat → Prop) (root : Nat) (v : Vm) (T : Tree) (owned free : List Nat) :
    Prop where
  vm : VmInv free₀ old (AllocPage v) v.mm root T [] owned free v.region
  held : HeldLive v

variable {s s' s₀ : Mm} {root va pa n size table : Nat} {T T' : Tree} {free free₀ owned : List Nat}
  {attrs : PageAttrs} {old : Nat → Prop} {region region' : AllocRegion} {v v' : Vm}
variable {m : Mm → Nat} [Gauge m]

lemma mono_pagingLookup (table va : Nat) : Call.Mono m (pagingLookup table va) := by
  apply Call.mono_bind (mono_walkPagetable _ _ _)
  intro pde
  apply Call.mono_ite (Call.mono_pure _)
  exact Call.mono_bind (mono_readWord _) (fun _ => Call.mono_pure _)

lemma mono_vmFreePage (table va : Nat) : Call.Mono m (vmFreePage table va) := by
  apply Call.mono_bind (mono_pagingLookup _ _)
  intro pa
  exact Call.mono_ite (Call.mono_bind (mono_pagingUnmap _ _ _) (fun _ => mono_pmmFree _)) (Call.mono_pure _)

lemma mono_vmAlloc (table size : Nat) (region : AllocRegion) (attrs : PageAttrs) :
    Call.Mono m (vmAlloc table size region attrs) := by
  apply Call.mono_bind (Call.mono_lift _)
  rintro ⟨start, region⟩
  apply Call.mono_ite (Call.mono_pure _)
  apply Call.mono_bind (mono_vmAllocPages _ _ _ _)
  intro err
  exact Call.mono_ite (Call.mono_pure _) (Call.mono_pure _)

lemma mono_vmFree (table va : Nat) (region : AllocRegion) : Call.Mono m (vmFree table va region) := by
  unfold vmFree
  split
  · exact Call.mono_halt _
  · apply Call.mono_bind (Call.mono_each (fun page => mono_vmFreePage _ _) _)
    intro _
    exact Call.mono_bind (Call.mono_lift _) (fun _ => Call.mono_pure _)

lemma mono_vmMap (table pa size : Nat) (region : AllocRegion) (attrs : PageAttrs) :
    Call.Mono m (vmMap table pa size region attrs) := by
  apply Call.mono_bind (Call.mono_lift _)
  rintro ⟨start, region⟩
  apply Call.mono_bind (mono_pagingMap _ _ _ _ _)
  intro err
  exact Call.mono_ite (Call.mono_pure _) (Call.mono_pure _)

lemma mono_vmUnmap (table va size : Nat) (region : AllocRegion) :
    Call.Mono m (vmUnmap table va size region) := by
  apply Call.mono_bind (Call.mono_lift _)
  rintro ⟨count, region⟩
  exact Call.mono_bind (mono_pagingUnmap _ _ _) (fun _ => Call.mono_pure _)

lemma VmStep.failures_le (h : VmStep table v v') : failures v.mm ≤ failures v'.mm := by
  cases h with
  | alloc hsize hcall hok => exact (mono_vmAlloc _ _ _ _).le hcall
  | free hlive hcall => exact (mono_vmFree _ _ _).le hcall
  | map hsize hpa hcall hok => exact (mono_vmMap _ _ _ _ _).le hcall
  | unmap hlive hcall => exact (mono_vmUnmap _ _ _ _).le hcall

section Held

variable (hp : PageRegion v.region)
include hp

lemma HeldLive.take (h : HeldLive v) (ht : Taken v.region va n region') (haligned : va % 4096 = 0) {r : VmResult}
    (hr : ∀ size, r = .map size → size = n * 4096) : HeldLive ⟨s', region', Function.update v.live va (some r)⟩ := by
  intro va' r' hlive
  change Function.update v.live va (some r) va' = some r' at hlive
  by_cases hva : va' = va
  · subst hva
    rw [Function.update_self] at hlive
    obtain rfl := Option.some.inj hlive
    exact ⟨⟨va', n⟩, ((hp.mem_take ht).mpr (.inr rfl)).1, rfl, hp.taken_ne_zero ht, hr⟩
  · rw [Function.update_of_ne hva] at hlive
    obtain ⟨a, ha, rfl, hne, hsize⟩ := h va' r' hlive
    exact ⟨a, ((hp.mem_take ht).mpr (.inl ⟨ha, hne⟩)).1, rfl, hne, hsize⟩

lemma HeldLive.release (h : HeldLive v) (hr : Released v.region va n region') :
    HeldLive ⟨s', region', Function.update v.live va none⟩ := by
  intro va' r' hlive
  change Function.update v.live va none va' = some r' at hlive
  have hva : va' ≠ va := by
    rintro rfl
    rw [Function.update_self] at hlive
    cases hlive
  rw [Function.update_of_ne hva] at hlive
  obtain ⟨a, ha, rfl, hne, hsize⟩ := h va' r' hlive
  exact ⟨a, ((hp.mem_release hr).mpr ⟨⟨ha, hne⟩, hva⟩).1, rfl, hne, hsize⟩

lemma allocPage_take (ht : Taken v.region va n region') (haligned : va % 4096 = 0) (r : VmResult) (q : Nat) :
    AllocPage ⟨s', region', Function.update v.live va (some r)⟩ q ↔
      AllocPage v q ∨ (r = .alloc ∧ RegionAllocation.Covers ⟨va, n⟩ q) := by
  constructor
  · rintro ⟨a, ha, hva, hlive, hcov⟩
    have hlive' : Function.update v.live va (some r) a.va = some .alloc := hlive
    rcases (hp.mem_take ht).mp ⟨ha, hva⟩ with ⟨hold, -⟩ | rfl
    · rw [Function.update_of_ne (hp.taken_va_fresh ht haligned hold hva)] at hlive'
      exact .inl ⟨a, hold, hva, hlive', hcov⟩
    · rw [Function.update_self] at hlive'
      exact .inr ⟨Option.some.inj hlive', hcov⟩
  · rintro (⟨a, ha, hva, hlive, hcov⟩ | ⟨rfl, hcov⟩)
    · refine ⟨a, ((hp.mem_take ht).mpr (.inl ⟨ha, hva⟩)).1, hva, ?_, hcov⟩
      exact (Function.update_of_ne (hp.taken_va_fresh ht haligned ha hva) ..).trans hlive
    · exact ⟨⟨va, n⟩, ((hp.mem_take ht).mpr (.inr rfl)).1, hp.taken_ne_zero ht, Function.update_self .., hcov⟩

lemma allocPage_release (hr : Released v.region va n region') (q : Nat) :
    AllocPage ⟨s', region', Function.update v.live va none⟩ q ↔
      AllocPage v q ∧ ¬RegionAllocation.Covers ⟨va, n⟩ q := by
  obtain ⟨slot, hslot, -⟩ := hr.table
  have hva₀ := hp.released_ne_zero hr
  constructor
  · rintro ⟨a, ha, hva, hlive, hcov⟩
    obtain ⟨⟨hold, -⟩, hne⟩ := (hp.mem_release hr).mp ⟨ha, hva⟩
    change Function.update v.live va none a.va = some .alloc at hlive
    rw [Function.update_of_ne hne] at hlive
    refine ⟨⟨a, hold, hva, hlive, hcov⟩, fun hcov' => hne ?_⟩
    obtain ⟨i, hi⟩ := List.mem_iff_getElem?.mp hold
    obtain rfl := hp.unique hi hslot hva hva₀ hcov hcov'
    rw [hslot] at hi
    obtain rfl := Option.some.inj hi
    rfl
  · rintro ⟨⟨a, ha, hva, hlive, hcov⟩, hnot⟩
    have hne : a.va ≠ va := by
      intro heq
      obtain ⟨i, hi⟩ := List.mem_iff_getElem?.mp ha
      obtain rfl := hp.inv.va_unique hi hslot hva heq
      rw [hslot] at hi
      obtain rfl := Option.some.inj hi
      exact hnot hcov
    exact ⟨a, ((hp.mem_release hr).mpr ⟨⟨ha, hva⟩, hne⟩).1, hva, (Function.update_of_ne hne ..).trans hlive, hcov⟩

end Held

lemma VmRunInv.not_allocPage (h : VmRunInv free₀ old root v T owned free) {i : Nat} {a : RegionAllocation}
    (hi : v.region.allocations[i]? = some a) (hne : a.va ≠ 0) (hlive : v.live a.va = some (.map size)) (q : Nat)
    (hcov : RegionAllocation.Covers a q) : ¬AllocPage v q := by
  rintro ⟨b, hb, hvb, hlive', hcov'⟩
  obtain ⟨j, hj⟩ := List.mem_iff_getElem?.mp hb
  obtain rfl := h.vm.pages.unique hi hj hne hvb hcov hcov'
  rw [hi] at hj
  obtain rfl := Option.some.inj hj
  rw [hlive] at hlive'
  cases hlive'

lemma VmRunInv.step (h : VmRunInv free₀ old root v T owned free) (hstep : VmStep (root + v.mm.hhdm) v v')
    (hnever : failures v'.mm = failures v.mm) :
    ∃ T' owned' free', VmRunInv free₀ old root v' T' owned' free' ∧ v'.mm.hhdm = v.mm.hhdm := by
  have hp := h.vm.pages
  cases hstep with
  | alloc hsize hcall hok =>
    rcases h.vm.vmAlloc_spec _ hsize.aligned hsize.positive hsize.bound with
      hfail | hfull | ⟨va, region', s', T', owned', free', hrun, herr, haligned, ht, hsame, -, -, hinv⟩
    · rw [hcall] at hfail
      exact absurd hnever (Nat.ne_of_gt hfail)
    · rw [hcall] at hfull
      obtain ⟨rfl, -⟩ := Prod.mk.inj (Except.ok.inj (Prod.mk.inj hfull).1)
      rw [isErrValue_errToPtr] at hok
      cases hok
    · rw [hcall] at hrun
      obtain ⟨hr, rfl⟩ := Prod.mk.inj hrun
      obtain ⟨rfl, rfl⟩ := Prod.mk.inj (Except.ok.inj hr)
      refine ⟨T', owned', free', ⟨?_, h.held.take hp ht haligned (by simp)⟩, hsame.hhdm⟩
      apply hinv.congr_mine
      intro q
      rw [allocPage_take hp ht haligned]
      apply or_congr_right
      simp only [true_and]
      rfl
  | @free va region s hlive hcall =>
    obtain ⟨a, ha, rfl, hne, -⟩ := h.held _ _ hlive
    obtain ⟨i, hi⟩ := List.mem_iff_getElem?.mp ha
    obtain ⟨s', region', freed, owned', hrun, hfreed, -, hr, -, hinv⟩ :=
      h.vm.vmFree_spec hi hne (fun q hcov => ⟨a, ha, hne, hlive, hcov⟩)
    rw [hcall] at hrun
    obtain ⟨hreg, rfl⟩ := Prod.mk.inj hrun
    obtain rfl := Except.ok.inj hreg
    refine ⟨T.unmap (pageOf a.va) a.pageCount, owned', freed ++ free, ⟨?_, h.held.release hp hr⟩, hfreed.hhdm⟩
    apply hinv.congr_mine
    intro q
    rw [allocPage_release hp hr]
  | @map pa size va attrs region s hsize hpa hcall hok =>
    rcases h.vm.vmMap_spec attrs hsize.aligned hsize.positive hsize.bound hpa.aligned hpa.bound with
      hfail | ⟨-, hpanic⟩ | ⟨va', region', s', T', owned', free', hrun, herr, haligned, ht, hsame, hinv⟩
    · rw [hcall] at hfail
      exact absurd hnever (Nat.ne_of_gt hfail)
    · rw [hcall] at hpanic
      cases hpanic
    · rw [hcall] at hrun
      obtain ⟨hr, rfl⟩ := Prod.mk.inj hrun
      obtain ⟨rfl, rfl⟩ := Prod.mk.inj (Except.ok.inj hr)
      have hsize' : size = size / 4096 * 4096 := by
        have h1 := hsize.aligned
        omega
      refine ⟨T', owned', free', ⟨?_, h.held.take hp ht haligned ?_⟩, hsame.hhdm⟩
      · apply hinv.congr_mine
        intro q
        rw [allocPage_take hp ht haligned]
        simp
      · rintro size' heq
        obtain rfl := VmResult.map.inj heq
        exact hsize'
  | @unmap va size region s hlive hcall =>
    obtain ⟨a, ha, rfl, hne, hsize⟩ := h.held _ _ hlive
    obtain ⟨i, hi⟩ := List.mem_iff_getElem?.mp ha
    have hnot := h.not_allocPage hi hne hlive
    obtain ⟨s', region', owned', hrun, hsame, hr, hinv⟩ := h.vm.vmUnmap_spec hi hne hnot (hsize _ rfl)
    rw [hcall] at hrun
    obtain ⟨hreg, rfl⟩ := Prod.mk.inj hrun
    obtain rfl := Except.ok.inj hreg
    refine ⟨T.unmap (pageOf a.va) a.pageCount, owned', free, ⟨?_, h.held.release hp hr⟩, hsame.hhdm⟩
    apply hinv.congr_mine
    intro q
    rw [allocPage_release hp hr]
    exact ⟨fun hq => ⟨hq, fun hcov => hnot q hcov hq⟩, fun hq => hq.1⟩

lemma vm_run_inv (h : VmRunInv free₀ old root v T owned free)
    (hrun : Relation.ReflTransGen (VmStep (root + v.mm.hhdm)) v v') (hnever : failures v'.mm = failures v.mm) :
    ∃ T' owned' free', VmRunInv free₀ old root v' T' owned' free' ∧ v'.mm.hhdm = v.mm.hhdm := by
  refine run_inv_of_const (I := fun w => ∃ T' owned' free', VmRunInv free₀ old root w T' owned' free' ∧
    w.mm.hhdm = v.mm.hhdm) (m := fun w => failures w.mm) VmStep.failures_le ?_ ⟨T, owned, free, h, rfl⟩ hrun hnever
  rintro u w ⟨T', owned', free', hinv, hhdm⟩ hstep hsame
  rw [← hhdm] at hstep
  obtain ⟨T₂, owned₂, free₂, hinv₂, hhdm₂⟩ := hinv.step hstep hsame
  exact ⟨T₂, owned₂, free₂, hinv₂, hhdm₂.trans hhdm⟩

/-- The address lies in the range of the region. -/
def InRange (region : AllocRegion) (va : Nat) : Prop :=
  region.allocator.pool ≤ va ∧ va < region.allocator.pool + region.allocator.pageCount * 4096

/-- The table and the free frames agree with the region and the results of `vm_alloc`. -/
structure VmConsistent (table : Nat) (v : Vm) (free : List Nat) : Prop where
  pmm : PmmInv v.mm free
  mapped : ∀ va, InRange v.region va → (validDesc table va v.mm ≠ none ↔ Owned v.region (pageOf va))
  frames : ∀ va, InRange v.region va → va % 4096 = 0 → AllocPage v (pageOf va) →
    ∃ pa, pagingLookup table va v.mm = (.ok pa, v.mm) ∧ pa ∉ free ∧
      ∀ va', InRange v.region va' → va' % 4096 = 0 → AllocPage v (pageOf va') →
        pagingLookup table va' v.mm = (.ok pa, v.mm) → va' = va

/-- No call stops, as long as there are frames and room in the region. -/
structure VmCallsReturn (table : Nat) (v : Vm) : Prop where
  alloc : ∀ size attrs, GoodSize size →
    failures (vmAlloc table size v.region attrs v.mm).2 = failures v.mm →
    ∃ r, (vmAlloc table size v.region attrs v.mm).1 = .ok r
  map : ∀ pa size attrs, GoodSize size → GoodRange pa size →
    failures (vmMap table pa size v.region attrs v.mm).2 = failures v.mm →
    regionAlloc v.region (size / 4096) ≠ .ok (errToPtr .ENOMEM, v.region) →
    ∃ r, (vmMap table pa size v.region attrs v.mm).1 = .ok r
  free : ∀ va, v.live va = some .alloc → ∃ r, (vmFree table va v.region v.mm).1 = .ok r
  unmap : ∀ va size, v.live va = some (.map size) → ∃ r, (vmUnmap table va size v.region v.mm).1 = .ok r

/-- Two regions that no call can tell apart. -/
structure SameRegion (region region' : AllocRegion) : Prop where
  pool : region'.allocator.pool = region.allocator.pool
  pageCount : region'.allocator.pageCount = region.allocator.pageCount
  bits : ∀ q, region'.allocator.bitmap.bit q = region.allocator.bitmap.bit q
  allocations : region'.allocations = region.allocations

/-- `vm_free` undoes `vm_alloc`, but for the tables that the pages needed. -/
def VmRestores (root table : Nat) (v : Vm) (free : List Nat) : Prop :=
  ∀ size attrs va region₁ s₁, GoodSize size →
    vmAlloc table size v.region attrs v.mm = (.ok (va, region₁), s₁) → isErrValue va = false →
    failures s₁ = failures v.mm →
    ∃ region₂ s₂ T tables free₂, vmFree table va region₁ s₁ = (.ok region₂, s₂) ∧
      SameRegion v.region region₂ ∧ (∀ x, validDesc table x s₂ = validDesc table x v.mm) ∧
      PmmInv s₂ free₂ ∧ free.Perm (tables ++ free₂) ∧
      TreeRep s₂.hhdm s₂.mem root T ∧ ∀ f ∈ tables, T.IsTable f

section Page

variable (h : PageRegion region) (hva : InRange region va)
include h hva

lemma PageRegion.pageOf_eq :
    pageOf va = pageOf region.allocator.pool + (va - region.allocator.pool) / 4096 := by
  obtain ⟨h1, h2⟩ := hva
  have h3 := h.span.aligned
  have hlt : (va - region.allocator.pool) / 4096 < region.allocator.pageCount := by
    rw [Nat.div_lt_iff_lt_mul (by decide)]
    omega
  rw [← h.span.pageOf_add hlt]
  unfold pageOf
  omega

lemma PageRegion.inRange_inRegion : InRegion region (pageOf va) := by
  obtain ⟨h1, h2⟩ := hva
  have hlt : (va - region.allocator.pool) / 4096 < region.allocator.pageCount := by
    rw [Nat.div_lt_iff_lt_mul (by decide)]
    omega
  rw [h.pageOf_eq ⟨h1, h2⟩]
  unfold InRegion
  omega

lemma PageRegion.pageOf_inj {va' : Nat} (hva' : InRange region va') (h1 : va % 4096 = 0) (h2 : va' % 4096 = 0)
    (heq : pageOf va' = pageOf va) : va' = va := by
  rw [h.pageOf_eq hva, h.pageOf_eq hva'] at heq
  obtain ⟨h3, -⟩ := hva
  obtain ⟨h4, -⟩ := hva'
  have h5 := h.span.aligned
  omega

end Page

lemma TableInv.validDesc_ne_none (h : TableInv s root T free) (va : Nat) :
    validDesc (root + s.hhdm) va s ≠ none ↔ T.leaf (pageOf va) ≠ none := by
  rw [h.validDesc_eq va]
  simp

lemma sameRegion_release (hp : PageRegion region) (ht : Taken region va n region') {slot : Nat}
    {x : RegionAllocation} (hold : region.allocations[slot]? = some x) (hnull : x.va = 0)
    (htable : region'.allocations = region.allocations.set slot ⟨va, n⟩)
    {region₂ : AllocRegion} (hr : Released region' va n region₂)
    (htable₂ : region₂.allocations = region'.allocations.set slot ⟨0, 0⟩) : SameRegion region region₂ := by
  have hpages : pagesOf region' ⟨va, n⟩ = pagesOf region ⟨va, n⟩ := pagesOf_congr ht.marked.pool _
  refine ⟨hr.marked.pool.trans ht.marked.pool, hr.marked.pageCount.trans ht.marked.pageCount, ?_, ?_⟩
  · intro q
    by_cases hq : (pagesOf region ⟨va, n⟩).Has q
    · rw [hr.marked.inside q (hpages ▸ hq), ht.clear q hq]
    · rw [hr.marked.outside q (hpages ▸ hq), ht.marked.outside q hq]
  · have hx : x = ⟨0, 0⟩ := by
      have h1 := hp.blank x (List.mem_of_getElem? hold) hnull
      cases x
      simp only at hnull h1
      rw [hnull, h1]
    obtain ⟨hlt, hget⟩ := List.getElem?_eq_some_iff.mp hold
    rw [htable₂, htable, List.set_set, ← hx, ← hget, List.set_getElem_self]

section Results

variable (h : VmRunInv free₀ old root v T owned free)
include h

lemma VmRunInv.consistent : VmConsistent (root + v.mm.hhdm) v free := by
  have hp := h.vm.pages
  have hleaf : ∀ {va}, InRange v.region va → AllocPage v (pageOf va) → ∃ l, T.leaf (pageOf va) = some l := by
    intro va hva hpage
    have howned := (h.vm.mapped _ (hp.inRange_inRegion hva)).mpr (h.vm.mine_owned _ hpage)
    exact Option.ne_none_iff_exists'.mp howned
  refine ⟨h.vm.frames.table.pmm, ?_, ?_⟩
  · intro va hva
    rw [h.vm.frames.table.validDesc_ne_none]
    exact h.vm.mapped _ (hp.inRange_inRegion hva)
  · intro va hva haligned hpage
    obtain ⟨l, hl⟩ := hleaf hva hpage
    refine ⟨l.pa, pagingLookup_leaf h.vm.frames.table haligned hl,
      h.vm.frames.not_free_of_owned (h.vm.frames.leaf_owned hpage hl), ?_⟩
    intro va' hva' haligned' hpage' hlookup
    obtain ⟨l', hl'⟩ := hleaf hva' hpage'
    rw [pagingLookup_leaf h.vm.frames.table haligned' hl'] at hlookup
    have hpa : l'.pa = l.pa := Except.ok.inj (Prod.mk.inj hlookup).1
    exact hp.pageOf_inj hva hva' haligned haligned' (h.vm.frames.inj hpage' hpage hl' hl hpa)

lemma VmRunInv.callsReturn : VmCallsReturn (root + v.mm.hhdm) v := by
  have hp := h.vm.pages
  refine ⟨?_, ?_, ?_, ?_⟩
  · intro size attrs hsize hnever
    rcases h.vm.vmAlloc_spec attrs hsize.aligned hsize.positive hsize.bound with
      hfail | hfull | ⟨va, region', s', T', owned', free', hrun, -⟩
    · exact absurd hnever (Nat.ne_of_gt hfail)
    · exact ⟨_, by rw [hfull]⟩
    · exact ⟨_, by rw [hrun]⟩
  · intro pa size attrs hsize hpa hnever hroom
    rcases h.vm.vmMap_spec attrs hsize.aligned hsize.positive hsize.bound hpa.aligned hpa.bound with
      hfail | ⟨hfull, -⟩ | ⟨va, region', s', T', owned', free', hrun, -⟩
    · exact absurd hnever (Nat.ne_of_gt hfail)
    · exact absurd hfull hroom
    · exact ⟨_, by rw [hrun]⟩
  · intro va hlive
    obtain ⟨a, ha, rfl, hne, -⟩ := h.held _ _ hlive
    obtain ⟨i, hi⟩ := List.mem_iff_getElem?.mp ha
    obtain ⟨s', region', freed, owned', hrun, -⟩ :=
      h.vm.vmFree_spec hi hne (fun q hcov => ⟨a, ha, hne, hlive, hcov⟩)
    exact ⟨_, by rw [hrun]⟩
  · intro va size hlive
    obtain ⟨a, ha, rfl, hne, hsize⟩ := h.held _ _ hlive
    obtain ⟨i, hi⟩ := List.mem_iff_getElem?.mp ha
    obtain ⟨s', region', owned', hrun, -⟩ :=
      h.vm.vmUnmap_spec hi hne (h.not_allocPage hi hne hlive) (hsize _ rfl)
    exact ⟨_, by rw [hrun]⟩

lemma VmRunInv.free_perm {T₂ : Tree} {mine : Nat → Prop} {s₂ : Mm} {owned₂ free₂ : List Nat}
    (h₂ : FramesInv free₀ old mine s₂ root T₂ [] owned₂ free₂) (hmine : ∀ q, mine q ↔ AllocPage v q)
    (htables : ∀ f, T.IsTable f → T₂.IsTable f) (hleaf : ∀ q, T₂.leaf q = T.leaf q) :
    ∃ tables, free.Perm (tables ++ free₂) ∧ ∀ f ∈ tables, T₂.IsTable f := by
  have hsub : ∀ x ∈ owned, x ∈ owned₂ := by
    intro x hx
    rw [h₂.owned_iff]
    rcases (h.vm.frames.owned_iff x).mp hx with ⟨ht, hold⟩ | ⟨q, l, hq, hl, rfl⟩
    · exact .inl ⟨htables x ht, hold⟩
    · exact .inr ⟨q, l, (hmine q).mpr hq, (hleaf q).trans hl, rfl⟩
  have hn := h.vm.frames.nodup_all
  have hn₂ := h₂.nodup_all
  have hall : ∀ x, (x ∈ owned ∨ x ∈ free) ↔ (x ∈ owned₂ ∨ x ∈ free₂) := by
    intro x
    have h1 := h.vm.frames.account.mem_iff (a := x)
    have h2 := h₂.account.mem_iff (a := x)
    simp only [List.append_nil, List.mem_append] at h1 h2
    rw [← h1, h2]
  simp only [List.append_nil] at hn hn₂
  obtain ⟨hno, hnf, hd⟩ := List.nodup_append.mp hn
  obtain ⟨hno₂, hnf₂, hd₂⟩ := List.nodup_append.mp hn₂
  refine ⟨owned₂.filter (· ∉ owned), ?_, ?_⟩
  · rw [List.perm_ext_iff_of_nodup hnf]
    · intro x
      rw [List.mem_append, List.mem_filter, decide_eq_true_iff]
      have h1 := hall x
      constructor
      · intro hx
        have h2 : x ∉ owned := fun ho => hd x ho x hx rfl
        rcases h1.mp (.inr hx) with h3 | h3
        · exact .inl ⟨h3, h2⟩
        · exact .inr h3
      · rintro (⟨h3, h2⟩ | h3)
        · exact (h1.mpr (.inl h3)).resolve_left h2
        · refine (h1.mpr (.inr h3)).resolve_left ?_
          exact fun ho => hd₂ x (hsub x ho) x h3 rfl
    · refine List.nodup_append.mpr ⟨hno₂.filter _, hnf₂, ?_⟩
      intro a ha b hb
      exact hd₂ a (List.mem_filter.mp ha).1 b hb
  · intro x hx
    obtain ⟨h1, h2⟩ := List.mem_filter.mp hx
    rw [decide_eq_true_iff] at h2
    rcases (h₂.owned_iff x).mp h1 with ⟨ht, -⟩ | ⟨q, l, hq, hl, rfl⟩
    · exact ht
    · exact absurd (h.vm.frames.leaf_owned ((hmine q).mp hq) ((hleaf q).symm.trans hl)) h2

lemma VmRunInv.restores : VmRestores root (root + v.mm.hhdm) v free := by
  intro size attrs va region₁ s₁ hsize hcall hok hnever
  have hp := h.vm.pages
  rcases h.vm.vmAlloc_spec attrs hsize.aligned hsize.positive hsize.bound with
    hfail | hfull | ⟨va', region', s', T₁, owned₁, free₁, hrun, herr, haligned, ht, hsame, htables, hkeep, hinv₁⟩
  · rw [hcall] at hfail
    exact absurd hnever (Nat.ne_of_gt hfail)
  · rw [hcall] at hfull
    obtain ⟨rfl, -⟩ := Prod.mk.inj (Except.ok.inj (Prod.mk.inj hfull).1)
    rw [isErrValue_errToPtr] at hok
    cases hok
  · rw [hcall] at hrun
    obtain ⟨hr, rfl⟩ := Prod.mk.inj hrun
    obtain ⟨rfl, rfl⟩ := Prod.mk.inj (Except.ok.inj hr)
    obtain ⟨slot, x, hold, hnull, htable⟩ := ht.table
    have hslot : region₁.allocations[slot]? = some ⟨va, size / 4096⟩ := by
      rw [htable, List.getElem?_set_self (List.getElem?_eq_some_iff.mp hold).1]
    obtain ⟨s₂, region₂, freed, owned₂, hfree, hfreed, -, hrel, htable₂, hinv₂⟩ :=
      hinv₁.vmFree_spec hslot (hp.taken_ne_zero ht) (fun q hcov => .inr hcov)
    have hleaf : ∀ q, (T₁.unmap (pageOf va) (size / 4096)).leaf q = T.leaf q := by
      intro q
      show unmapRange T₁.leaf (pageOf va) (size / 4096) q = _
      unfold unmapRange
      by_cases hq : pageOf va ≤ q ∧ q < pageOf va + size / 4096
      · rw [if_pos hq, (h.vm.taken_fresh ht haligned hq.1 hq.2).1]
      · rw [if_neg hq, hkeep q hq]
    have hmine : ∀ q, ((AllocPage v q ∨ (pageOf va ≤ q ∧ q < pageOf va + size / 4096)) ∧
        ¬RegionAllocation.Covers ⟨va, size / 4096⟩ q) ↔ AllocPage v q := by
      intro q
      constructor
      · rintro ⟨hq | hq, hnot⟩
        · exact hq
        · exact absurd hq hnot
      · exact fun hq => ⟨.inl hq, fun hcov => (h.vm.taken_fresh ht haligned hcov.1 hcov.2).2 hq⟩
    obtain ⟨tables, hperm, htab⟩ := h.free_perm hinv₂.frames hmine htables hleaf
    have hhdm : s₂.hhdm = v.mm.hhdm := hfreed.hhdm.trans hsame.hhdm
    rw [hsame.hhdm] at hfree
    refine ⟨region₂, s₂, _, tables, freed ++ free₁, hfree, sameRegion_release hp ht hold hnull htable hrel htable₂,
      ?_, hinv₂.frames.table.pmm, hperm, hinv₂.frames.table.tree, htab⟩
    intro y
    have h1 := hinv₂.frames.table.validDesc_eq y
    rw [hhdm] at h1
    rw [h1, h.vm.frames.table.validDesc_eq y, hleaf]

end Results

/-- The virtual memory manager keeps a region, a table and the free frames in step: after every run
of calls that do not fail, on an empty region whose range the table leaves unmapped, with frames
always there and frame zero not among them, a page of the range is mapped exactly if it belongs to
a live allocation, the frames of `vm_alloc` are distinct and not free, no call stops in a panic of
`paging_map` or `paging_unmap`, and `vm_free` undoes `vm_alloc` but for page tables. -/
theorem vmm_consistent {s₀ : Mm} {root : Nat} {T₀ : Tree} {free₀ : List Nat} {bytes : Mem} {pool count slots : Nat}
    {v : Vm} (hT : TableInv s₀ root T₀ free₀) (hzero : 0 ∉ free₀) (hpool : 0 < pool) (hspan : Span pool count)
    (hunmapped : ∀ q, pageOf pool ≤ q → q < pageOf pool + count → T₀.leaf q = none)
    (hrun : Relation.ReflTransGen (VmStep (root + s₀.hhdm))
      ⟨s₀, ⟨⟨bytes, count, pool⟩, List.replicate slots ⟨0, 0⟩⟩, fun _ => none⟩ v)
    (hnever : v.mm.log.failed = s₀.log.failed) :
    ∃ free, VmConsistent (root + s₀.hhdm) v free ∧ VmCallsReturn (root + s₀.hhdm) v ∧
      VmRestores root (root + s₀.hhdm) v free := by
  let v₀ : Vm := ⟨s₀, ⟨⟨bytes, count, pool⟩, List.replicate slots ⟨0, 0⟩⟩, fun _ => none⟩
  have hnone : ∀ q, ¬AllocPage v₀ q := by
    rintro q ⟨a, -, -, hlive, -⟩
    cases hlive
  have hframes : FramesInv free₀ T₀.IsTable (AllocPage v₀) s₀ root T₀ [] [] free₀ := by
    refine ⟨hT, ?_, hT.pmm.nodup, List.Perm.refl _, ?_, ?_, ?_, ?_⟩
    · intro f hf
      exact ⟨fun h0 => hzero (h0 ▸ hf), hT.pmm.frames f hf⟩
    · intro f
      simp [hnone]
    · exact fun hf => ⟨hf, hT.apart hf⟩
    · exact fun hq => absurd hq (hnone _)
    · exact fun hq => absurd hq (hnone _)
  have hstart : VmRunInv free₀ T₀.IsTable root v₀ T₀ [] free₀ := by
    refine ⟨⟨hframes, emptyRegion bytes hpool hspan slots, ?_, ?_⟩, ?_⟩
    · intro q hq
      rw [hunmapped q hq.1 hq.2]
      exact ⟨fun hne => absurd rfl hne, fun hq => absurd hq emptyRegion_owned⟩
    · exact fun q hq => absurd hq (hnone q)
    · rintro va r hlive
      cases hlive
  obtain ⟨T, owned, free, hinv, hhdm⟩ := vm_run_inv hstart hrun hnever
  have hhdm' : v.mm.hhdm = s₀.hhdm := hhdm
  rw [← hhdm']
  exact ⟨free, hinv.consistent, hinv.callsReturn, hinv.restores⟩

theorem vmm_consistent_run :
    ∃ v, Relation.ReflTransGen (VmStep 0x101000)
        ⟨createTable (bootMm 0x100000 [0x1000, 0x2000, 0x3000, 0x4000, 0x5000, 0x6000]) 0x1000,
          ⟨⟨fun _ => 0, 8, 0x10000⟩, List.replicate 4 ⟨0, 0⟩⟩, fun _ => none⟩ v ∧
      v.live 0x12000 = some (.map 0x1000) ∧
      validDesc 0x101000 0x12000 v.mm ≠ none ∧ validDesc 0x101000 0x10000 v.mm = none ∧
      ∃ free, VmConsistent 0x101000 v free := by
  let region₀ : AllocRegion := ⟨⟨fun _ => 0, 8, 0x10000⟩, List.replicate 4 ⟨0, 0⟩⟩
  let s₀ := createTable (bootMm 0x100000 [0x1000, 0x2000, 0x3000, 0x4000, 0x5000, 0x6000]) 0x1000
  let r₁ := Call.valueD (vmAlloc 0x101000 0x2000 region₀ userAttrs) s₀ (0, region₀)
  let s₁ := (vmAlloc 0x101000 0x2000 region₀ userAttrs s₀).2
  let r₂ := Call.valueD (vmMap 0x101000 0x80000 0x1000 r₁.2 userAttrs) s₁ (0, region₀)
  let s₂ := (vmMap 0x101000 0x80000 0x1000 r₁.2 userAttrs s₁).2
  let r₃ := Call.valueD (vmFree 0x101000 0x10000 r₂.2) s₂ region₀
  let s₃ := (vmFree 0x101000 0x10000 r₂.2 s₂).2
  have hpmm : PmmInv (bootMm 0x100000 [0x1000, 0x2000, 0x3000, 0x4000, 0x5000, 0x6000])
      [0x1000, 0x2000, 0x3000, 0x4000, 0x5000, 0x6000] :=
    bootMm_inv ⟨by decide, by decide⟩ (by decide) (by decide)
  have hcall₁ : vmAlloc 0x101000 0x2000 region₀ userAttrs s₀ = (.ok (0x10000, r₁.2), s₁) :=
    Call.eq_pairD (0, region₀) (by decide +kernel) (by decide +kernel)
  have hcall₂ : vmMap 0x101000 0x80000 0x1000 r₁.2 userAttrs s₁ = (.ok (0x12000, r₂.2), s₂) :=
    Call.eq_pairD (0, region₀) (by decide +kernel) (by decide +kernel)
  have hcall₃ : vmFree 0x101000 0x10000 r₂.2 s₂ = (.ok r₃, s₃) := Call.eq_valueD region₀ (by decide +kernel)
  let v₀ : Vm := ⟨s₀, region₀, fun _ => none⟩
  let v₁ : Vm := ⟨s₁, r₁.2, Function.update v₀.live 0x10000 (some .alloc)⟩
  let v₂ : Vm := ⟨s₂, r₂.2, Function.update v₁.live 0x12000 (some (.map 0x1000))⟩
  let v₃ : Vm := ⟨s₃, r₃, Function.update v₂.live 0x10000 none⟩
  have hstep₁ : VmStep 0x101000 v₀ v₁ := .alloc ⟨by decide, by decide, by decide⟩ hcall₁ (by decide)
  have hstep₂ : VmStep 0x101000 v₁ v₂ :=
    .map ⟨by decide, by decide, by decide⟩ ⟨by decide, by decide⟩ hcall₂ (by decide)
  have hstep₃ : VmStep 0x101000 v₂ v₃ := .free (by decide) hcall₃
  have hrun : Relation.ReflTransGen (VmStep 0x101000) v₀ v₃ :=
    ((Relation.ReflTransGen.single hstep₁).tail hstep₂).tail hstep₃
  obtain ⟨free, hcons, -⟩ := vmm_consistent hpmm.createTable (by decide) (by decide)
    ⟨by decide, by decide, by decide⟩ (fun q _ _ => rfl) hrun (by decide +kernel)
  exact ⟨v₃, hrun, by decide, by decide +kernel, by decide +kernel, free, hcons⟩

end KaworuOS.Proofs
