import KaworuOS.Vmm
import KaworuOS.Proofs.PagingDestroy
import KaworuOS.Proofs.PagingRefines
import KaworuOS.Proofs.PageRegion

/-!
# Accounting for the frames of a table and its pages

`FramesInv free₀ old mine s root T loose owned free` distributes the frames `free₀` that were free at
the beginning: the frames `owned` hold the tables that are not `old` and the pages that are `mine`,
`loose` have been taken from `pmm` and are in nobody's hands yet, and `free` are still free.
-/

namespace KaworuOS.Proofs
open Lib

/-- Every frame of `free₀` is in one place, and the pages that are `mine` are mapped to frames of
their own. -/
structure FramesInv (free₀ : List Nat) (old mine : Nat → Prop) (s : Mm) (root : Nat) (T : Tree)
    (loose owned free : List Nat) : Prop where
  table : TableInv s root T free
  good : ∀ f ∈ free₀, f ≠ 0 ∧ IsFrame s.hhdm f
  nodup : free₀.Nodup
  account : free₀.Perm (owned ++ loose ++ free)
  owned_iff : ∀ f, f ∈ owned ↔ (T.IsTable f ∧ ¬old f) ∨ ∃ q l, mine q ∧ T.leaf q = some l ∧ l.pa = f
  was : ∀ {f}, old f → T.IsTable f ∧ f ∉ free₀
  inj : ∀ {q q' l l'}, mine q → mine q' → T.leaf q = some l → T.leaf q' = some l' → l.pa = l'.pa → q = q'
  apart : ∀ {q l}, mine q → T.leaf q = some l → ¬T.IsTable l.pa

variable {s s' : Mm} {root f va pa n : Nat} {T T' : Tree} {free free' used free₀ loose loose' owned : List Nat}
  {attrs : PageAttrs} {old mine : Nat → Prop}

lemma TableInv.congr (h : TableInv s root T free) (hhdm : s'.hhdm = s.hhdm) (hlist : s'.freeList = s.freeList)
    (hmem : s'.mem = s.mem) : TableInv s' root T free := by
  refine ⟨h.pmm.congr hhdm hlist ?_, ?_, h.apart⟩
  · intro f _ x _ _
    rw [hmem]
  · rw [hhdm, hmem]
    exact h.tree

lemma TableInv.take (h : TableInv s root T (f :: free)) : TableInv (takeFrame s f) root T free := by
  refine ⟨h.pmm.take, h.tree.congr ?_, ?_⟩
  · intro g hg
    have hne : g ≠ f := by
      rintro rfl
      exact h.apart hg (by simp)
    obtain ⟨l, k, hnode⟩ := hg
    exact samePage_fill _ (h.frame hnode) (h.pmm.frames f (by simp)) hne
  · intro g hg hmem
    exact h.apart hg (by simp [hmem])

lemma TableInv.give (h : TableInv s root T free) (hf : IsFrame s.hhdm f) (hnot : f ∉ free)
    (htable : ¬T.IsTable f) : TableInv (giveFrame s f) root T (f :: free) := by
  refine ⟨h.pmm.give hf hnot, h.tree.congr ?_, ?_⟩
  · intro g hg
    have hne : g ≠ f := by
      rintro rfl
      exact htable hg
    obtain ⟨l, k, hnode⟩ := hg
    have h1 : SamePage s.hhdm s.mem (s.mem.store64 (f + s.hhdm + 8 * 0) s.freeList) g :=
      samePage_store _ (h.frame hnode) hf hne (by omega)
    exact h1
  · intro g hg hmem
    rcases List.mem_cons.mp hmem with rfl | hmem
    · exact htable hg
    · exact h.apart hg hmem

lemma pagingMap_one {table : Nat} {attrs : PageAttrs} (hva : Span va 1) (hpa : pa % 4096 = 0) :
    pagingMap table va pa PAGE_SIZE attrs = pagingMapPages table attrs (0 + 1) va pa := by
  have hend := hva.inside
  rw [pagingMap, if_pos (by simp [hva.aligned, hpa]), pageIterations_eq (by simp only [PAGE_SIZE]; omega)]
  rfl

/-- `paging_map` of one page: the frames run out, or the page was mapped before, or it is mapped
now. -/
lemma pagingMap_page (h : TableInv s root T free) (attrs : PageAttrs) (hva : Span va 1)
    (hpa : pa % 4096 = 0 ∧ pa < 2 ^ 48) :
    (failures s < failures (pagingMap (root + s.hhdm) va pa PAGE_SIZE attrs s).2 ∧
      free.length < missing T (pageOf va)) ∨
    (T.leaf (pageOf va) ≠ none ∧
      (pagingMap (root + s.hhdm) va pa PAGE_SIZE attrs s).1 = .error .panic) ∨
    ∃ s' T' free' used, T.leaf (pageOf va) = none ∧
      pagingMap (root + s.hhdm) va pa PAGE_SIZE attrs s = (.ok 0, s') ∧
      PageMapped root s T free (pageOf va) ⟨pa, attrs⟩ s' T' free' used := by
  rw [pagingMap_one hva hpa.1]
  exact pagingMapPages_succ h attrs 0 va hpa

lemma pagingLookup_leaf (h : TableInv s root T free) (haligned : va % 4096 = 0)
    {l : Leaf} (hl : T.leaf (pageOf va) = some l) : pagingLookup (root + s.hhdm) va s = (.ok l.pa, s) := by
  obtain ⟨f, hf⟩ := h.tree.leafTable hl
  have hpa := pagingPageToPa_leaf h hf hl va
  rw [pagingLookup, pagingLookupDesc, Call.bind_ok (walk_lookup h va), descPtr, hf]
  dsimp only
  rw [if_neg (by rw [h.entry_not_isErr hf]; decide), hpa, haligned, Nat.add_zero]

/-- The state has changed in its memory and its free list only. -/
structure Same (s s' : Mm) : Prop where
  hhdm : s'.hhdm = s.hhdm
  heap : s'.heap = s.heap
  log : s'.log = s.log

lemma Same.refl (s : Mm) : Same s s := ⟨rfl, rfl, rfl⟩

lemma Same.trans {s'' : Mm} (h : Same s s') (h' : Same s' s'') : Same s s'' :=
  ⟨h'.hhdm.trans h.hhdm, h'.heap.trans h.heap, h'.log.trans h.log⟩

lemma Same.failures_eq (h : Same s s') : failures s' = failures s := by
  rw [failures, h.log, failures]

lemma mono_vmAllocPages {m : Mm → Nat} [Gauge m] (table : Nat) (attrs : PageAttrs) (n va : Nat) :
    Call.Mono m (vmAllocPages table attrs n va) := by
  induction n generalizing va with
  | zero => exact Call.mono_pure _
  | succ n ih =>
    apply Call.mono_bind mono_pmmAlloc
    intro pa
    apply Call.mono_ite (Call.mono_pure _)
    apply Call.mono_bind (mono_pagingMap _ _ _ _ _)
    intro err
    exact Call.mono_ite (Call.mono_pure _) (ih _)

section FramesInv

variable (h : FramesInv free₀ old mine s root T loose owned free)
include h

lemma FramesInv.nodup_all : (owned ++ loose ++ free).Nodup := h.account.nodup_iff.mp h.nodup

lemma FramesInv.mem_start {g : Nat} (hg : g ∈ owned ++ loose ++ free) : g ≠ 0 ∧ IsFrame s.hhdm g :=
  h.good g (h.account.mem_iff.mpr hg)

lemma FramesInv.leaf_owned {q : Nat} {l : Leaf} (hq : mine q) (hl : T.leaf q = some l) : l.pa ∈ owned :=
  (h.owned_iff l.pa).mpr (.inr ⟨q, l, hq, hl, rfl⟩)

lemma FramesInv.not_free_of_owned {g : Nat} (hg : g ∈ owned) : g ∉ free := by
  intro hfree
  have h1 := List.disjoint_of_nodup_append h.nodup_all
  exact h1 (List.mem_append.mpr (.inl hg)) hfree

lemma FramesInv.not_loose_of_owned {g : Nat} (hg : g ∈ owned) : g ∉ loose := by
  intro hloose
  have h1 := h.nodup_all
  rw [List.append_assoc] at h1
  exact List.disjoint_of_nodup_append h1 hg (List.mem_append.mpr (.inl hloose))

lemma FramesInv.table_owned {g : Nat} (hg : T.IsTable g) (hstart : g ∈ free₀) : g ∈ owned :=
  (h.owned_iff g).mpr (.inl ⟨hg, fun hold => (h.was hold).2 hstart⟩)

lemma FramesInv.congr_mine {mine' : Nat → Prop} (heq : ∀ q, mine q ↔ mine' q) :
    FramesInv free₀ old mine' s root T loose owned free := by
  obtain rfl : mine = mine' := funext (fun q => propext (heq q))
  exact h

lemma FramesInv.take (hfree : free = f :: free') :
    FramesInv free₀ old mine (takeFrame s f) root T (f :: loose) owned free' := by
  subst hfree
  refine { h with table := h.table.take, account := ?_ }
  refine h.account.trans ?_
  rw [List.perm_iff_count]
  intro x
  simp only [List.count_append, List.count_cons]
  omega

lemma FramesInv.grow (hg : Grows root s T free s' T' free' used)
    (hkeep : ∀ q, mine q → T'.leaf q = T.leaf q) :
    FramesInv free₀ old mine s' root T' loose (owned ++ used) free' := by
  have hused : ∀ {x}, x ∈ used → x ∈ free := by
    intro x hx
    rw [hg.split]
    exact List.mem_append_left _ hx
  refine ⟨hg.inv, ?_, h.nodup, ?_, ?_, ?_, ?_, ?_⟩
  · rw [hg.hhdm]
    exact h.good
  · refine h.account.trans ?_
    rw [hg.split, List.perm_iff_count]
    intro x
    simp only [List.count_append]
    omega
  · intro x
    rw [List.mem_append, h.owned_iff, hg.tables]
    constructor
    · rintro ((⟨hx, hold⟩ | ⟨q, l, hq, hl, rfl⟩) | hx)
      · exact .inl ⟨.inl hx, hold⟩
      · exact .inr ⟨q, l, hq, (hkeep q hq).trans hl, rfl⟩
      · refine .inl ⟨.inr hx, fun hold => (h.was hold).2 ?_⟩
        exact h.account.mem_iff.mpr (List.mem_append_right _ (hused hx))
    · rintro (⟨hx | hx, hold⟩ | ⟨q, l, hq, hl, rfl⟩)
      · exact .inl (.inl ⟨hx, hold⟩)
      · exact .inr hx
      · exact .inl (.inr ⟨q, l, hq, (hkeep q hq).symm.trans hl, rfl⟩)
  · intro x hold
    exact ⟨hg.tables.mpr (.inl (h.was hold).1), (h.was hold).2⟩
  · intro q q' l l' hq hq' hl hl' hpa
    rw [hkeep q hq] at hl
    rw [hkeep q' hq'] at hl'
    exact h.inj hq hq' hl hl' hpa
  · intro q l hq hl htable
    rw [hkeep q hq] at hl
    rcases hg.tables.mp htable with ht | ht
    · exact h.apart hq hl ht
    · exact h.not_free_of_owned (h.leaf_owned hq hl) (hused ht)

lemma FramesInv.adopt {p : Nat} (hleaf : ∀ i, i < n → T.leaf (p + i) = some ⟨pa + i * 4096, attrs⟩)
    (hloose : loose.Perm ((List.range n).map (fun i => pa + i * 4096) ++ loose')) :
    FramesInv free₀ old (fun q => mine q ∨ (p ≤ q ∧ q < p + n)) s root T loose'
      (owned ++ (List.range n).map (fun i => pa + i * 4096)) free := by
  set pages := (List.range n).map (fun i => pa + i * 4096) with hpages
  have hmem : ∀ {x}, x ∈ pages → x ∈ loose := fun hx => hloose.mem_iff.mpr (List.mem_append_left _ hx)
  have hcases : ∀ {q l}, p ≤ q → q < p + n → T.leaf q = some l →
      l.pa = pa + (q - p) * 4096 ∧ l.pa ∈ pages := by
    intro q l h1 h2 hl
    have h3 := hleaf (q - p) (by omega)
    rw [Nat.add_sub_cancel' h1, hl] at h3
    obtain rfl := Option.some.inj h3
    exact ⟨rfl, List.mem_map.mpr ⟨q - p, List.mem_range.mpr (by omega), rfl⟩⟩
  refine { h with account := ?_, owned_iff := ?_, inj := ?_, apart := ?_ }
  · refine h.account.trans ?_
    refine (((List.Perm.refl owned).append hloose).append (List.Perm.refl _)).trans ?_
    rw [List.perm_iff_count]
    intro x
    simp only [List.count_append]
    omega
  · intro x
    rw [List.mem_append, h.owned_iff]
    constructor
    · rintro ((htable | ⟨q, l, hq, hl, rfl⟩) | hx)
      · exact .inl htable
      · exact .inr ⟨q, l, .inl hq, hl, rfl⟩
      · obtain ⟨i, hi, rfl⟩ := List.mem_map.mp hx
        have hlt := List.mem_range.mp hi
        exact .inr ⟨p + i, ⟨pa + i * 4096, attrs⟩, .inr ⟨by omega, by omega⟩, hleaf i hlt, rfl⟩
    · rintro (htable | ⟨q, l, hq | ⟨h1, h2⟩, hl, rfl⟩)
      · exact .inl (.inl htable)
      · exact .inl (.inr ⟨q, l, hq, hl, rfl⟩)
      · exact .inr (hcases h1 h2 hl).2
  · rintro q q' l l' (hq | ⟨h1, h2⟩) (hq' | ⟨h1', h2'⟩) hl hl' hpa
    · exact h.inj hq hq' hl hl' hpa
    · exact absurd (hmem (hcases h1' h2' hl').2) (h.not_loose_of_owned (hpa ▸ h.leaf_owned hq hl))
    · exact absurd (hmem (hcases h1 h2 hl).2) (h.not_loose_of_owned (hpa ▸ h.leaf_owned hq' hl'))
    · have h3 := (hcases h1 h2 hl).1
      have h4 := (hcases h1' h2' hl').1
      omega
  · rintro q l (hq | ⟨h1, h2⟩) hl htable
    · exact h.apart hq hl htable
    · have hloose' := hmem (hcases h1 h2 hl).2
      refine h.not_loose_of_owned (h.table_owned htable ?_) hloose'
      exact h.account.mem_iff.mpr (List.mem_append_left _ (List.mem_append_right _ hloose'))

lemma FramesInv.allocPages (attrs : PageAttrs) (hva : Span va n)
    (hnone : ∀ q, pageOf va ≤ q → q < pageOf va + n → T.leaf q = none ∧ ¬mine q) :
    failures s < failures (vmAllocPages (root + s.hhdm) attrs n va s).2 ∨
    ∃ s' T' owned' free', vmAllocPages (root + s.hhdm) attrs n va s = (.ok 0, s') ∧
      FramesInv free₀ old (fun q => mine q ∨ (pageOf va ≤ q ∧ q < pageOf va + n)) s' root T' loose owned' free' ∧
      Same s s' ∧ (∀ f, T.IsTable f → T'.IsTable f) ∧
      (∀ q, pageOf va ≤ q → q < pageOf va + n → T'.leaf q ≠ none) ∧
      ∀ q, ¬(pageOf va ≤ q ∧ q < pageOf va + n) → T'.leaf q = T.leaf q := by
  induction n generalizing mine s T owned free va with
  | zero =>
    right
    refine ⟨s, T, owned, free, rfl, ?_, Same.refl s, fun f hf => hf, ?_, fun q _ => rfl⟩
    · apply h.congr_mine
      intro q
      constructor
      · exact .inl
      · rintro (hq | hq)
        · exact hq
        · omega
    · intro q h1 h2
      omega
  | succ n ih =>
    rw [vmAllocPages]
    cases free with
    | nil =>
      left
      refine Call.lt_bind (fun pa => ?_) ?_
      · apply Call.mono_ite (Call.mono_pure _)
        apply Call.mono_bind (mono_pagingMap _ _ _ _ _)
        intro err
        exact Call.mono_ite (Call.mono_pure _) (mono_vmAllocPages _ _ _ _)
      rw [pmmAlloc_nil h.table.pmm]
      exact Nat.lt_succ_self _
    | cons f free =>
      have hf := h.table.pmm.frames f (by simp)
      have htake := h.take rfl
      have hpage : Span va 1 := by
        have h1 := hva.page (i := 0) (by omega)
        rwa [Nat.zero_mul, Nat.add_zero] at h1
      rw [Call.bind_ok (pmmAlloc_cons h.table.pmm), if_neg (by rw [isErrValue_frame hf]; decide)]
      rcases pagingMap_page htake.table attrs hpage ⟨hf.aligned, hf.bound⟩ with
        ⟨hfail, -⟩ | ⟨hold, -⟩ | ⟨s₁, T₁, free₁, used₁, -, hrun, hm⟩
      · left
        apply Call.lt_bind (fun err => ?_) hfail
        exact Call.mono_ite (Call.mono_pure _) (mono_vmAllocPages _ _ _ _)
      · exact absurd (hnone _ (by omega) (by omega)).1 hold
      · have hother : ∀ {q}, q ≠ pageOf va → T₁.leaf q = T.leaf q := by
          intro q hq
          rw [hm.leaf, Function.update_of_ne hq]
        have hhere : T₁.leaf (pageOf va) = some ⟨f, attrs⟩ := by rw [hm.leaf, Function.update_self]
        have hleaf : ∀ i, i < 1 → T₁.leaf (pageOf va + i) = some ⟨f + i * 4096, attrs⟩ := by
          intro i hi
          obtain rfl : i = 0 := by omega
          simpa using hhere
        have hloose : (f :: loose).Perm ((List.range 1).map (fun i => f + i * 4096) ++ loose) := by simp
        have h₁ := (htake.grow hm.grows (fun q hq => hother (by
          rintro rfl
          exact (hnone _ (by omega) (by omega)).2 hq))).adopt hleaf hloose
        have hsame₁ : Same s s₁ := ⟨hm.grows.hhdm, hm.grows.heap, hm.grows.log⟩
        have htables₁ : ∀ x, T.IsTable x → T₁.IsTable x := fun x hx => hm.grows.tables.mpr (.inl hx)
        have hrun' : pagingMap (root + s.hhdm) va f PAGE_SIZE attrs (takeFrame s f) = (.ok 0, s₁) := hrun
        have hend := hva.inside
        rw [Call.bind_ok hrun', if_neg (by simp), wadd_of_lt (by simp only [PAGE_SIZE]; omega)]
        -- the other pages follow the first one
        cases n with
        | zero =>
          refine .inr ⟨s₁, T₁, _, free₁, rfl, h₁, hsame₁, htables₁, ?_, ?_⟩
          · intro q h1 h2
            obtain rfl : q = pageOf va := by omega
            rw [hhere]
            simp
          · intro q hq
            exact hother (by omega)
        | succ n =>
          have hnext : pageOf (va + 4096) = pageOf va + 1 := by
            have h1 := hva.pageOf_add (i := 1) (by omega)
            rwa [Nat.one_mul] at h1
          have hrest := ih h₁ hva.tail (by
            intro q h1 h2
            rw [hnext] at h1 h2
            obtain ⟨h3, h4⟩ := hnone q (by omega) (by omega)
            refine ⟨(hother (by omega)).trans h3, ?_⟩
            rintro (hq | hq)
            · exact h4 hq
            · omega)
          rw [hsame₁.hhdm, hsame₁.failures_eq, hnext] at hrest
          rcases hrest with hfail | ⟨s₂, T₂, owned₂, free₂, hrun₂, h₂, hsame₂, htables₂, hmapped₂, hkeep₂⟩
          · exact .inl hfail
          · refine .inr ⟨s₂, T₂, owned₂, free₂, hrun₂, ?_, hsame₁.trans hsame₂,
              fun x hx => htables₂ x (htables₁ x hx), ?_, ?_⟩
            · apply h₂.congr_mine
              intro q
              rw [or_assoc]
              apply or_congr_right
              omega
            · intro q h1 h2
              by_cases hq : q = pageOf va
              · rw [hkeep₂ q (by omega), hq, hhere]
                simp
              · exact hmapped₂ q (by omega) (by omega)
            · intro q hq
              rw [hkeep₂ q (by omega)]
              exact hother (by omega)

lemma FramesInv.drop {p : Nat} {l : Leaf} (hp : mine p) (hl : T.leaf p = some l)
    (hg : Grows root s T free s' (T.setLeaf p none) free []) :
    FramesInv free₀ old (fun q => mine q ∧ q ≠ p) (giveFrame s' l.pa) root (T.setLeaf p none) loose
      (owned.erase l.pa) (l.pa :: free) := by
  have howned := h.leaf_owned hp hl
  have hframe : IsFrame s'.hhdm l.pa := by
    rw [hg.hhdm]
    exact (h.mem_start (List.mem_append_left _ (List.mem_append_left _ howned))).2
  have hother : ∀ {q}, q ≠ p → (T.setLeaf p none).leaf q = T.leaf q :=
    fun hq => Function.update_of_ne hq _ _
  have hnodup : owned.Nodup := by
    have h1 := h.nodup_all
    rw [List.append_assoc] at h1
    exact (List.nodup_append.mp h1).1
  refine ⟨hg.inv.give hframe (h.not_free_of_owned howned) (h.apart hp hl), ?_, h.nodup, ?_, ?_, ?_, ?_, ?_⟩
  · show ∀ f ∈ free₀, f ≠ 0 ∧ IsFrame s'.hhdm f
    rw [hg.hhdm]
    exact h.good
  · refine h.account.trans ?_
    have h1 := List.perm_cons_erase howned
    rw [List.perm_iff_count] at h1 ⊢
    intro x
    have h2 := h1 x
    simp only [List.count_append, List.count_cons] at h2 ⊢
    omega
  · intro x
    rw [hnodup.mem_erase_iff, h.owned_iff]
    constructor
    · rintro ⟨hne, htable | ⟨q, l', hq, hl', rfl⟩⟩
      · exact .inl htable
      · have hqp : q ≠ p := by
          rintro rfl
          rw [hl] at hl'
          cases hl'
          exact hne rfl
        exact .inr ⟨q, l', ⟨hq, hqp⟩, (hother hqp).trans hl', rfl⟩
    · rintro (⟨htable, hold⟩ | ⟨q, l', ⟨hq, hqp⟩, hl', rfl⟩)
      · refine ⟨?_, .inl ⟨htable, hold⟩⟩
        rintro rfl
        exact h.apart hp hl htable
      · rw [hother hqp] at hl'
        exact ⟨fun heq => hqp (h.inj hq hp hl' hl heq), .inr ⟨q, l', hq, hl', rfl⟩⟩
  · intro x hold
    exact h.was hold
  · rintro q q' l₁ l₂ ⟨hq, hqp⟩ ⟨hq', hqp'⟩ hl₁ hl₂ heq
    rw [hother hqp] at hl₁
    rw [hother hqp'] at hl₂
    exact h.inj hq hq' hl₁ hl₂ heq
  · rintro q l' ⟨hq, hqp⟩ hl'
    rw [hother hqp] at hl'
    exact h.apart hq hl'

lemma FramesInv.freePage (hva : Span va 1) {l : Leaf} (hp : mine (pageOf va)) (hl : T.leaf (pageOf va) = some l) :
    ∃ s', vmFreePage (root + s.hhdm) va s = (.ok (), s') ∧ Freed s free [l.pa] s' ∧
      FramesInv free₀ old (fun q => mine q ∧ q ≠ pageOf va) s' root (T.setLeaf (pageOf va) none) loose
        (owned.erase l.pa) (l.pa :: free) := by
  obtain ⟨hne, hframe⟩ :=
    h.mem_start (List.mem_append_left _ (List.mem_append_left _ (h.leaf_owned hp hl)))
  have hend := hva.inside
  have hunmap : pagingUnmap (root + s.hhdm) va PAGE_SIZE = pagingUnmapPages (root + s.hhdm) (0 + 1) va := by
    rw [pagingUnmap, if_pos (by simp [hva.aligned]), pageIterations_eq (by simp only [PAGE_SIZE]; omega)]
    rfl
  rw [vmFreePage, Call.bind_ok (pagingLookup_leaf h.table hva.aligned hl), if_pos hne, hunmap]
  rcases pagingUnmapPages_succ h.table 0 va with ⟨hnone, -⟩ | ⟨s₁, -, hrun, hg⟩
  · rw [hl] at hnone
    cases hnone
  · have hrun' : pagingUnmapPages (root + s.hhdm) (0 + 1) va s = (.ok (), s₁) := hrun
    have hframe₁ : IsFrame s₁.hhdm l.pa := by rwa [hg.hhdm]
    have hdrop := h.drop hp hl hg
    refine ⟨giveFrame s₁ l.pa, ?_, ⟨hdrop.table.pmm, hg.hhdm, hg.heap, ?_⟩, hdrop⟩
    · rw [Call.bind_ok hrun', pmmFree_ok hframe₁]
    · show Log.mk _ _ _ _ = _
      rw [hg.log]
      rfl

lemma FramesInv.freePages {i m : Nat} (hva : Span va m) (hm : i + n = m)
    (hall : ∀ q, pageOf va + i ≤ q → q < pageOf va + m → mine q ∧ T.leaf q ≠ none) :
    ∃ s' freed owned',
      Call.each (fun page => vmFreePage (root + s.hhdm) (wadd va (wmul page PAGE_SIZE))) (List.range' i n) s =
        (.ok (), s') ∧
      Freed s free freed s' ∧ owned.Perm (freed ++ owned') ∧
      FramesInv free₀ old (fun q => mine q ∧ ¬(pageOf va + i ≤ q ∧ q < pageOf va + m)) s' root
        (T.unmap (pageOf va + i) n) loose owned' (freed ++ free) := by
  induction n generalizing mine s T owned free i with
  | zero =>
    refine ⟨s, [], owned, rfl, Freed.refl h.table.pmm, List.Perm.refl _, ?_⟩
    rw [Tree.unmap, unmapRange_zero]
    apply h.congr_mine
    intro q
    constructor
    · exact fun hq => ⟨hq, by omega⟩
    · exact fun hq => hq.1
  | succ n ih =>
    obtain ⟨hmine, hsome⟩ := hall (pageOf va + i) (by omega) (by omega)
    obtain ⟨l, hl⟩ := Option.ne_none_iff_exists'.mp hsome
    have hm' : i + 1 + n = m := by omega
    have haddr := hva.addr (i := i) (by omega)
    have hpage := hva.pageOf_add (i := i) (by omega)
    obtain ⟨s₁, hrun, hfreed, h₁⟩ := h.freePage (hva.page (i := i) (by omega)) (by rw [hpage]; exact hmine)
      (by rw [hpage]; exact hl)
    rw [hpage] at h₁
    obtain ⟨s₂, freed, owned', hrun₂, hfreed₂, hperm, h₂⟩ := ih h₁ hm' (by
      intro q h1 h2
      rw [show (T.setLeaf (pageOf va + i) none).leaf q = T.leaf q from Function.update_of_ne (by omega) _ _]
      obtain ⟨h3, h4⟩ := hall q (by omega) h2
      exact ⟨⟨h3, by omega⟩, h4⟩)
    rw [hfreed.hhdm] at hrun₂
    refine ⟨s₂, freed ++ [l.pa], owned', ?_, hfreed.trans hfreed₂, ?_, ?_⟩
    · rw [List.range'_succ]
      show (vmFreePage (root + s.hhdm) (wadd va (wmul i PAGE_SIZE)) >>= fun _ => _) s = _
      rw [haddr, Call.bind_ok hrun]
      exact hrun₂
    · have h1 := List.perm_cons_erase (h.leaf_owned hmine hl)
      refine h1.trans ((hperm.cons _).trans ?_)
      rw [List.append_assoc, List.singleton_append]
      exact List.perm_middle.symm
    · rw [← Nat.add_assoc, Tree.unmap_setLeaf] at h₂
      rw [List.append_assoc, List.singleton_append]
      apply h₂.congr_mine
      intro q
      rw [and_assoc]
      apply and_congr_right
      intro _
      omega

end FramesInv

end KaworuOS.Proofs
