import KaworuOS.Proofs.PagingExhaust
import KaworuOS.Proofs.VmmRun

/-!
# Requests that `vm_map` and `vm_alloc` cannot satisfy

A request fails because the region has no place for it, or because the frames run out after some pages
have been mapped. Only the first failure of `vm_alloc` leaves everything as it was.
-/

namespace KaworuOS.Proofs
open Lib

/-- The size that `vm_map` maps. -/
def pagesSize (size : Nat) : Nat := if isPageAligned size then size else roundUp size

/-- The call has returned an error pointer and left the region, the mappings and, but for the frames of
new tables, the free frames as they were. -/
def RolledBack (root : Nat) (T : Tree) (free : List Nat) (region : AllocRegion)
    (r : Except Halt (Nat × AllocRegion) × Mm) : Prop :=
  ∃ v region' s' T' free', r = (.ok (v, region'), s') ∧ isErrValue v = true ∧ SameRegion region region' ∧
    TreeRep s'.hhdm s'.mem root T' ∧ T'.leaf = T.leaf ∧ PmmInv s' free' ∧
    (∀ f ∈ free', f ∈ free) ∧ ∀ f ∈ free, f ∈ free' ∨ T'.IsTable f

/-- If the region has no place for `n` pages or `pmm_alloc` fails in the call, the call is undone. -/
def FailureAtomic (root : Nat) (T : Tree) (free : List Nat) (region : AllocRegion) (n : Nat)
    (call : Kernel (Nat × AllocRegion)) (s : Mm) : Prop :=
  NoPlace region n ∨ failures s < failures (call s).2 → RolledBack root T free region (call s)

variable {s s' : Mm} {root va pa n m p size : Nat} {T T' : Tree} {free : List Nat} {attrs : PageAttrs}
  {region region' : AllocRegion}

lemma pagesSize_aligned : pagesSize size % 4096 = 0 := by
  unfold pagesSize
  by_cases haligned : isPageAligned size = true
  · rw [if_pos haligned]
    exact (isPageAligned_iff size).mp haligned
  · rw [if_neg haligned, roundUp, or_page_mask]
    unfold wadd wordSize
    omega

/-- A page that is mapped already ends the loop of `vm_alloc` in a panic, without a failure of
`pmm_alloc`. -/
lemma pagingMap_conflict (attrs : PageAttrs) (h : TableInv s root T free) (hva : Span va 1) (hpa : pa % 4096 = 0)
    (hold : T.leaf (pageOf va) ≠ none) :
    ∃ s', pagingMap (root + s.hhdm) va pa PAGE_SIZE attrs s = (.error .panic, s') ∧ failures s' = failures s := by
  have hend := hva.inside
  have hmap : pagingMap (root + s.hhdm) va pa PAGE_SIZE attrs =
      pagingMapPages (root + s.hhdm) attrs (0 + 1) va pa := by
    rw [pagingMap, if_pos (by simp [hva.aligned, hpa]), pageIterations_eq (by simp only [PAGE_SIZE]; omega)]
    rfl
  have hzero := h.tree.missing_eq_zero hold
  rcases walk_grow h va with ⟨-, hlen⟩ | ⟨f, s', T', free', used, hwalk, hw⟩
  · omega
  · exact ⟨s', by rw [hmap, pagingMapPages_conflict hwalk hw hold], hw.grows.failures_eq⟩

lemma vmAllocPages_fails_iff (h : TableInv s root T free) (attrs : PageAttrs) (hva : Span va n) :
    failures s < failures (vmAllocPages (root + s.hhdm) attrs n va s).2 ↔
      Starved 1 T free.length (pageOf va) n := by
  induction n generalizing s T free va with
  | zero => exact ⟨fun hlt => absurd hlt (Nat.lt_irrefl _), fun hst => absurd hst not_starved_zero⟩
  | succ n ih =>
    rw [vmAllocPages]
    have hrest : ∀ pa, Call.Mono failures (do
        let err ← pagingMap (root + s.hhdm) va pa PAGE_SIZE attrs
        if err ≠ 0 then return wordSize - err
        vmAllocPages (root + s.hhdm) attrs n (wadd va PAGE_SIZE)) := by
      intro pa
      apply Call.mono_bind (mono_pagingMap _ _ _ _ _)
      intro err
      exact Call.mono_ite (Call.mono_pure _) (mono_vmAllocPages _ _ _ _)
    cases free with
    | nil =>
      refine ⟨fun _ => starved_first (by simp only [List.length_nil]; omega), fun _ => ?_⟩
      apply Call.lt_bind (fun pa => Call.mono_ite (Call.mono_pure _) (hrest pa))
      rw [pmmAlloc_nil h.pmm]
      exact Nat.lt_succ_self _
    | cons f free =>
      have hf := h.pmm.frames f (by simp)
      have htake := h.take
      have hpage : Span va 1 := by
        have h1 := hva.page (i := 0) (by omega)
        rwa [Nat.zero_mul, Nat.add_zero] at h1
      rw [Call.bind_ok (pmmAlloc_cons h.pmm), if_neg (by rw [isErrValue_frame hf]; decide)]
      show failures (takeFrame s f) < _ ↔ _
      rcases pagingMap_page htake attrs hpage ⟨hf.aligned, hf.bound⟩ with
        ⟨hfail, hlt⟩ | ⟨hold, -⟩ | ⟨s₁, T₁, free₁, used₁, hnone, hrun, hm⟩
      · refine ⟨fun _ => starved_first (by rw [List.length_cons]; omega), fun _ => ?_⟩
        apply Call.lt_bind (fun err => ?_) hfail
        exact Call.mono_ite (Call.mono_pure _) (mono_vmAllocPages _ _ _ _)
      · obtain ⟨s', hpanic, hsame⟩ := pagingMap_conflict attrs htake hpage hf.aligned hold
        have hpanic' : pagingMap (root + s.hhdm) va f PAGE_SIZE attrs (takeFrame s f) = (.error .panic, s') := hpanic
        rw [Call.bind_error hpanic']
        refine ⟨fun hlt => absurd hlt (by rw [hsame]; exact Nat.lt_irrefl _), fun hst => ?_⟩
        refine absurd hst (not_starved_of_mapped hold ?_)
        rw [h.tree.missing_eq_zero hold, List.length_cons]
        omega
      · have hlen := hm.grows.length
        have hused := hm.length
        have hleaf : ∀ q, q ≠ pageOf va → T₁.leaf q = T.leaf q := by
          intro q hq
          rw [hm.leaf, Function.update_of_ne hq]
        have hrun' : pagingMap (root + s.hhdm) va f PAGE_SIZE attrs (takeFrame s f) = (.ok 0, s₁) := hrun
        have hend := hva.inside
        rw [Call.bind_ok hrun', if_neg (by simp), wadd_of_lt (by simp only [PAGE_SIZE]; omega),
          ← hm.grows.failures_eq, List.length_cons,
          starved_succ (m := free₁.length) hnone (by omega) hm.nodes hleaf]
        cases n with
        | zero => exact ⟨fun hlt => absurd hlt (Nat.lt_irrefl _), fun hst => absurd hst not_starved_zero⟩
        | succ n =>
          have hnext : pageOf (va + 4096) = pageOf va + 1 := by
            have h1 := hva.pageOf_add (i := 1) (by omega)
            rwa [Nat.one_mul] at h1
          have hstep := ih hm.grows.inv hva.tail
          rw [hm.grows.hhdm, hnext] at hstep
          exact hstep

lemma Taken.not_sameRegion (hp : PageRegion region) (ht : Taken region va n region') : ¬SameRegion region region' := by
  intro hsame
  obtain ⟨slot, old, hold, hnull, htable⟩ := ht.table
  obtain ⟨hlt, -⟩ := List.getElem?_eq_some_iff.mp hold
  have hget : region'.allocations[slot]? = some ⟨va, n⟩ := by
    rw [htable]
    exact List.getElem?_set_self hlt
  rw [hsame.allocations, hold] at hget
  obtain rfl := Option.some.inj hget
  exact hp.taken_ne_zero ht hnull

lemma failureAtomic_of_zero {call : Kernel (Nat × AllocRegion)} (hcall : call s = (.error .panic, s)) :
    FailureAtomic root T free region n call s ↔ ¬NoPlace region n := by
  constructor
  · intro hatomic hnone
    obtain ⟨v, region', s', T', free', hrun, -⟩ := hatomic (.inl hnone)
    rw [hcall] at hrun
    cases hrun
  · rintro hplace (hnone | hfail)
    · exact absurd hnone hplace
    · rw [hcall] at hfail
      exact absurd hfail (Nat.lt_irrefl _)

/-- How `vm_map` and `vm_alloc` end: an error becomes an error pointer, and the region is the same in
both cases. -/
def reportError (x : Kernel Nat) (toPtr : Nat → Nat) (va : Nat) (region : AllocRegion) :
    Kernel (Nat × AllocRegion) := do
  let err ← x
  if err ≠ 0 then return (toPtr err, region)
  return (va, region)

lemma reportError_region (x : Kernel Nat) (toPtr : Nat → Nat) (va : Nat) (region : AllocRegion) (s : Mm) :
    Call.Ends (fun _ _ => True) (reportError x toPtr va region) s (fun r _ => r.2 = region) := by
  apply (Call.ends_true x s).bind
  intro err s' _
  by_cases herr : err ≠ 0
  · rw [if_pos herr]
    exact Call.ends_of_ok rfl rfl
  · rw [if_neg herr]
    exact Call.ends_of_ok rfl rfl

lemma reportError_state (x : Kernel Nat) (toPtr : Nat → Nat) (va : Nat) (region : AllocRegion) (s : Mm) :
    (reportError x toPtr va region s).2 = (x s).2 := by
  unfold reportError
  rcases hx : x s with ⟨r, s'⟩
  cases r with
  | error e => rw [Call.bind_error hx]
  | ok err =>
    rw [Call.bind_ok hx]
    by_cases herr : err ≠ 0
    · rw [if_pos herr]
      rfl
    · rw [if_neg herr]
      rfl

lemma failureAtomic_of_taken {call : Kernel (Nat × AllocRegion)} {x : Kernel Nat} {toPtr : Nat → Nat}
    (hp : PageRegion region) (ht : Taken region va n region')
    (hcall : call s = reportError x toPtr va region' s) :
    FailureAtomic root T free region n call s ↔ ¬failures s < failures (x s).2 := by
  unfold FailureAtomic
  rw [hcall, reportError_state]
  constructor
  · intro hatomic hfail
    obtain ⟨v, region₂, s', T', free', hrun, -, hsame, -⟩ := hatomic (.inr hfail)
    rw [show region₂ = region' from (reportError_region x toPtr va region' s).ok hrun] at hsame
    exact ht.not_sameRegion hp hsame
  · rintro hok (hnone | hfail)
    · exact absurd hnone ht.not_noPlace
    · exact absurd hfail hok

section Calls

variable (h : TableInv s root T free) (hp : PageRegion region)
include h hp

/-- `vm_alloc` undoes its failures exactly if it has a whole page to allocate when the region has no
place, and frames enough when it has one. -/
lemma vmAlloc_atomic_iff (hsize : size < 2 ^ 64) :
    FailureAtomic root T free region (size / 4096) (vmAlloc (root + s.hhdm) size region attrs) s ↔
      (NoPlace region (size / 4096) → 4096 ≤ size) ∧
      ∀ va region', regionAlloc region (size / 4096) = .ok (va, region') → isErrValue va = false →
        ¬Starved 1 T free.length (pageOf va) (size / 4096) := by
  rcases Nat.eq_zero_or_pos (size / 4096) with hzero | hpos
  · have hpanic : regionAlloc region (size / 4096) = .error .panic := by rw [hzero, regionAlloc, if_pos rfl]
    have hlift : (Call.lift (regionAlloc region (size / PAGE_SIZE)) : Kernel _) s = (.error .panic, s) := by
      rw [Call.lift_apply, hpanic]
    rw [failureAtomic_of_zero (by rw [vmAlloc, Call.bind_error hlift]), hpanic]
    constructor
    · intro hplace
      exact ⟨fun hnone => absurd hnone hplace, fun va region' hcall => by cases hcall⟩
    · rintro ⟨hwhole, -⟩ hnone
      have h1 := hwhole hnone
      omega
  rcases regionAlloc_spec hp.inv.good hpos (by omega) with ⟨hfull, hnone⟩ | ⟨va, region', hok, herr, haligned, ht⟩
  · have hlift : (Call.lift (regionAlloc region (size / PAGE_SIZE)) : Kernel _) s =
        (.ok (errToPtr .ENOMEM, region), s) := by rw [Call.lift_apply, hfull]
    have hrun : vmAlloc (root + s.hhdm) size region attrs s = (.ok (errToPtr .ENOMEM, region), s) := by
      rw [vmAlloc, Call.bind_ok hlift]
      dsimp only
      rw [if_pos isErrValue_errToPtr]
      rfl
    constructor
    · intro _
      refine ⟨fun _ => by omega, fun va region' hcall herr => ?_⟩
      rw [hfull] at hcall
      obtain ⟨rfl, -⟩ := Prod.mk.inj (Except.ok.inj hcall)
      rw [isErrValue_errToPtr] at herr
      cases herr
    · intro _ _
      exact ⟨_, region, s, T, free, hrun, isErrValue_errToPtr, ⟨rfl, rfl, fun _ => rfl, rfl⟩, h.tree, rfl, h.pmm,
        fun _ hf => hf, fun _ hf => .inl hf⟩
  · have hlift : (Call.lift (regionAlloc region (size / PAGE_SIZE)) : Kernel _) s =
        (.ok (va, region'), s) := by rw [Call.lift_apply, hok]
    have hrun : vmAlloc (root + s.hhdm) size region attrs s =
        reportError (vmAllocPages (root + s.hhdm) attrs (size / PAGE_SIZE) va) id va region' s := by
      rw [vmAlloc, Call.bind_ok hlift]
      dsimp only
      rw [herr, if_neg Bool.false_ne_true]
      rfl
    rw [failureAtomic_of_taken hp ht hrun, vmAllocPages_fails_iff h attrs (hp.taken_span ht haligned), hok]
    constructor
    · intro hfed
      refine ⟨fun hnone => absurd hnone ht.not_noPlace, fun va' region₂ hcall _ => ?_⟩
      obtain ⟨rfl, -⟩ := Prod.mk.inj (Except.ok.inj hcall)
      exact hfed
    · rintro ⟨-, hfed⟩
      exact hfed va region' rfl herr

lemma vmMap_atomic_iff (hpa : GoodRange pa (pagesSize size)) :
    FailureAtomic root T free region (pagesSize size / 4096) (vmMap (root + s.hhdm) pa size region attrs) s ↔
      ¬NoPlace region (pagesSize size / 4096) ∧
      ∀ va region', regionAlloc region (pagesSize size / 4096) = .ok (va, region') →
        ¬Starved 0 T free.length (pageOf va) (pagesSize size / 4096) := by
  have haligned := @pagesSize_aligned size
  have hcall : vmMap (root + s.hhdm) pa size region attrs =
      Call.lift (regionAlloc region (pagesSize size / PAGE_SIZE)) >>= fun r =>
        reportError (pagingMap (root + s.hhdm) r.1 pa (pagesSize size) attrs) (wordSize - ·) r.1 r.2 := rfl
  rw [hcall]
  have hbound := hpa.bound
  generalize pagesSize size = size at *
  rcases Nat.eq_zero_or_pos (size / 4096) with hzero | hpos
  · have hpanic : regionAlloc region (size / 4096) = .error .panic := by rw [hzero, regionAlloc, if_pos rfl]
    have hlift : (Call.lift (regionAlloc region (size / PAGE_SIZE)) : Kernel _) s = (.error .panic, s) := by
      rw [Call.lift_apply, hpanic]
    rw [failureAtomic_of_zero (by rw [Call.bind_error hlift]), hpanic]
    exact ⟨fun hplace => ⟨hplace, fun va region' hcall => by cases hcall⟩, fun hplace => hplace.1⟩
  rcases regionAlloc_spec hp.inv.good hpos (by omega) with ⟨hfull, hnone⟩ | ⟨va, region', hok, herr, hva, ht⟩
  · have hlift : (Call.lift (regionAlloc region (size / PAGE_SIZE)) : Kernel _) s =
        (.ok (errToPtr .ENOMEM, region), s) := by rw [Call.lift_apply, hfull]
    have hunaligned : isPageAligned (errToPtr .ENOMEM) = false := by decide
    refine ⟨fun hatomic => ?_, fun hplace => absurd hnone hplace.1⟩
    -- the error value of the region goes to `paging_map` as an address, which is not aligned
    obtain ⟨v, region', s', T', free', hrun, -⟩ := hatomic (.inl hnone)
    rw [Call.bind_ok hlift] at hrun
    dsimp only at hrun
    rw [reportError, pagingMap, hunaligned, Bool.and_false, Bool.false_and, if_neg Bool.false_ne_true] at hrun
    cases hrun
  · have hlift : (Call.lift (regionAlloc region (size / PAGE_SIZE)) : Kernel _) s =
        (.ok (va, region'), s) := by rw [Call.lift_apply, hok]
    have hspan := hp.taken_span ht hva
    have hmap : pagingMap (root + s.hhdm) va pa size attrs =
        pagingMapPages (root + s.hhdm) attrs (size / 4096) va pa := by
      have h1 := hspan.inside
      rw [pagingMap, if_pos (by simp [hva, hpa.aligned, haligned]), pageIterations_eq (by omega)]
    have hrun : (Call.lift (regionAlloc region (size / PAGE_SIZE)) >>= fun r =>
        reportError (pagingMap (root + s.hhdm) r.1 pa size attrs) (wordSize - ·) r.1 r.2 : Kernel _) s =
        reportError (pagingMap (root + s.hhdm) va pa size attrs) (wordSize - ·) va region' s := by
      rw [Call.bind_ok hlift]
    rw [failureAtomic_of_taken hp ht hrun, hmap,
      pagingMapPages_fails_iff h attrs hspan.window hpa.aligned (by omega), hok]
    constructor
    · intro hfed
      refine ⟨ht.not_noPlace, fun va' region₂ hcall => ?_⟩
      obtain ⟨rfl, -⟩ := Prod.mk.inj (Except.ok.inj hcall)
      exact hfed
    · rintro ⟨-, hfed⟩
      exact hfed va region' rfl

end Calls

/-- On every region and table and with any number of free frames, `vm_map` undoes its failures exactly
if it has none, and `vm_alloc` exactly if a region without place is asked for a whole page and a region
with one does not run out of frames. -/
theorem vm_failure_atomic_iff (h : TableInv s root T free) (hp : PageRegion region) (hsize : size < 2 ^ 64)
    (attrs : PageAttrs) :
    (∀ pa, GoodRange pa (pagesSize size) →
      (FailureAtomic root T free region (pagesSize size / 4096) (vmMap (root + s.hhdm) pa size region attrs) s ↔
        ¬NoPlace region (pagesSize size / 4096) ∧
        ∀ va region', regionAlloc region (pagesSize size / 4096) = .ok (va, region') →
          ¬Starved 0 T free.length (pageOf va) (pagesSize size / 4096))) ∧
    (FailureAtomic root T free region (size / 4096) (vmAlloc (root + s.hhdm) size region attrs) s ↔
      (NoPlace region (size / 4096) → 4096 ≤ size) ∧
      ∀ va region', regionAlloc region (size / 4096) = .ok (va, region') → isErrValue va = false →
        ¬Starved 1 T free.length (pageOf va) (size / 4096)) :=
  ⟨fun _ hpa => vmMap_atomic_iff h hp hpa, vmAlloc_atomic_iff h hp hsize⟩

lemma smallRegion (slots : Nat) : PageRegion ⟨⟨fun _ => 0, 4, 0x400000⟩, List.replicate slots ⟨0, 0⟩⟩ :=
  emptyRegion _ (by decide) ⟨by decide, by decide, by decide⟩ slots

lemma smallRegion_place : ¬NoPlace ⟨⟨fun _ => 0, 4, 0x400000⟩, [⟨0, 0⟩]⟩ 1 := by
  rintro (hfull | hnone)
  · exact hfull ⟨0, 0⟩ (List.mem_singleton.mpr rfl) rfl
  · obtain ⟨q, -, hbit⟩ := hnone 0 (Nat.le_refl _) (by decide)
    simp [Mem.bit, getBit] at hbit

/-- A region with no slot, and one with a slot and the frames that its first page needs. -/
theorem vm_failure_atomic_full_and_fed :
    FailureAtomic 0x1000 (emptyTree 0x1000) [] ⟨⟨fun _ => 0, 4, 0x400000⟩, []⟩ 1
      (vmAlloc 0x101000 0x1000 ⟨⟨fun _ => 0, 4, 0x400000⟩, []⟩ userAttrs)
      (createTable (bootMm 0x100000 [0x1000]) 0x1000) ∧
    FailureAtomic 0x1000 (emptyTree 0x1000) [0x2000, 0x3000, 0x4000] ⟨⟨fun _ => 0, 4, 0x400000⟩, [⟨0, 0⟩]⟩ 1
      (vmMap 0x101000 0x80000 0xfff ⟨⟨fun _ => 0, 4, 0x400000⟩, [⟨0, 0⟩]⟩ userAttrs)
      (createTable (bootMm 0x100000 [0x1000, 0x2000, 0x3000, 0x4000]) 0x1000) := by
  have hpmm : PmmInv (bootMm 0x100000 [0x1000]) [0x1000] :=
    bootMm_inv ⟨by decide, by decide⟩ (by decide) (by decide)
  have hpmm₃ : PmmInv (bootMm 0x100000 [0x1000, 0x2000, 0x3000, 0x4000]) [0x1000, 0x2000, 0x3000, 0x4000] :=
    bootMm_inv ⟨by decide, by decide⟩ (by decide) (by decide)
  constructor
  · refine (vm_failure_atomic_iff hpmm.createTable (smallRegion 0) (show 0x1000 < 2 ^ 64 by decide) userAttrs).2.mpr
      ⟨fun _ => by decide, fun va region' hcall herr => ?_⟩
    obtain ⟨rfl, -⟩ := Prod.mk.inj (Except.ok.inj hcall)
    exact absurd herr (by decide)
  · refine ((vm_failure_atomic_iff hpmm₃.createTable (smallRegion 1) (show 0xfff < 2 ^ 64 by decide)
      userAttrs).1 0x80000 ⟨by decide, by decide⟩).mpr ⟨smallRegion_place, ?_⟩
    rintro va region' - ⟨i, hi, hlt, -⟩
    obtain rfl : i = 0 := Nat.lt_one_iff.mp hi
    have hle := missing_le (emptyTree 0x1000) (pageOf va)
    rw [tablesNeeded_one] at hlt
    simp only [List.length_cons, List.length_nil] at hlt
    omega

/-- `vm_map` panics when the region is full, and `vm_alloc` keeps the pages of the region when the
frames run out. -/
theorem vm_failure_leaves_traces :
    (vmMap 0x101000 0x80000 0x1000 ⟨⟨fun _ => 0, 4, 0x400000⟩, []⟩ userAttrs
      (createTable (bootMm 0x100000 [0x1000]) 0x1000)).1 = .error .panic ∧
    ¬FailureAtomic 0x1000 (emptyTree 0x1000) [] ⟨⟨fun _ => 0, 4, 0x400000⟩, []⟩ 1
      (vmMap 0x101000 0x80000 0x1000 ⟨⟨fun _ => 0, 4, 0x400000⟩, []⟩ userAttrs)
      (createTable (bootMm 0x100000 [0x1000]) 0x1000) ∧
    ¬FailureAtomic 0x1000 (emptyTree 0x1000) [] ⟨⟨fun _ => 0, 4, 0x400000⟩, [⟨0, 0⟩]⟩ 1
      (vmAlloc 0x101000 0x1000 ⟨⟨fun _ => 0, 4, 0x400000⟩, [⟨0, 0⟩]⟩ userAttrs)
      (createTable (bootMm 0x100000 [0x1000]) 0x1000) := by
  have hpmm : PmmInv (bootMm 0x100000 [0x1000]) [0x1000] :=
    bootMm_inv ⟨by decide, by decide⟩ (by decide) (by decide)
  refine ⟨error_of_map (by decide +kernel), fun hatomic => ?_, fun hatomic => ?_⟩
  · have hholds := (vmMap_atomic_iff hpmm.createTable (smallRegion 0)
      (show GoodRange 0x80000 (pagesSize 0x1000) from ⟨by decide, by decide⟩)).mp hatomic
    exact hholds.1 (.inl (fun a ha => nomatch ha))
  · have hholds := (vmAlloc_atomic_iff hpmm.createTable (smallRegion 1) (show 0x1000 < 2 ^ 64 by decide)).mp hatomic
    rcases regionAlloc_spec (smallRegion 1).inv.good (show 0 < 1 by decide) (by decide) with
      ⟨-, hnone⟩ | ⟨va, region', hok, herr, -⟩
    · exact absurd hnone smallRegion_place
    · refine hholds.2 va region' hok herr (starved_first ?_)
      rw [List.length_nil]
      omega

end KaworuOS.Proofs
