import KaworuOS.Proofs.PagingWalk

/-!
# Mapping and unmapping refine a finite map

`paging_map` and `paging_unmap` change the mappings of a tree page by page. A run of both on a new
table is a run of updates of a map from page numbers to mappings, and `paging_lookup_desc` and
`paging_page_to_pa` read this map.
-/

namespace KaworuOS.Proofs
open Lib

/-- The mappings `M` with `n` pages from `p` on mapped to the frames from `pa` on. -/
def mapRange (M : Nat → Option Leaf) (p n pa : Nat) (attrs : PageAttrs) : Nat → Option Leaf :=
  fun q => if p ≤ q ∧ q < p + n then some ⟨pa + (q - p) * 4096, attrs⟩ else M q

/-- The mappings `M` without the `n` pages from `p` on. -/
def unmapRange (M : Nat → Option Leaf) (p n : Nat) : Nat → Option Leaf :=
  fun q => if p ≤ q ∧ q < p + n then none else M q

variable {s s' : Mm} {root p f va pa n : Nat} {T T' : Tree} {free free' used : List Nat}
variable {m : Mm → Nat} [Gauge m]

lemma pageOf_wadd (h : va % 2 ^ 48 + 8192 ≤ 2 ^ 48) : pageOf (wadd va PAGE_SIZE) = pageOf va + 1 := by
  unfold pageOf wadd wordSize PAGE_SIZE
  omega

/-- The state after the descriptor of the page `p` has been written in the table `f`. -/
def setEntry (s : Mm) (f p : Nat) (leaf : Option Leaf) : Mm :=
  { s with mem := s.mem.store64 (f + s.hhdm + 8 * (p % 512)) (leafRaw leaf) }

lemma TableInv.readWord_leaf (h : TableInv s root T free) (hf : T.node 3 (p / 512) = some f) :
    readWord (f + s.hhdm + 8 * (p % 512)) s = (.ok (leafRaw (T.leaf p)), s) := by
  rw [readWord_ok (h.entry_not_isErr hf p), h.tree.leafEntry hf]

lemma TableInv.writeWord_leaf (h : TableInv s root T free) (hf : T.node 3 (p / 512) = some f)
    (leaf : Option Leaf) :
    writeWord (f + s.hhdm + 8 * (p % 512)) (leafRaw leaf) s = (.ok (), setEntry s f p leaf) :=
  writeWord_ok (h.entry_not_isErr hf p)

lemma TableInv.setLeaf (h : TableInv s root T free) (hf : T.node 3 (p / 512) = some f)
    {leaf : Option Leaf} (hleaf : ∀ l, leaf = some l → l.pa % 4096 = 0 ∧ l.pa < 2 ^ 48) :
    Grows root s T free (setEntry s f p leaf) (T.setLeaf p leaf) free [] := by
  have hmod : p % 512 < 512 := Nat.mod_lt _ (by omega)
  refine ⟨⟨?_, h.tree.setLeaf hf hleaf, h.apart⟩, rfl, rfl, rfl, rfl, id, ?_, ?_⟩
  · refine h.pmm.congr ?_ ?_ ?_
    · rfl
    · rfl
    intro x hx
    have hxf : x ≠ f := by
      rintro rfl
      exact h.apart ⟨3, _, hf⟩ hx
    exact samePage_store _ (h.pmm.frames x hx) (h.frame hf) hxf hmod
  · intro x
    simp [Tree.IsTable, Tree.setLeaf]
  · intro x hx
    have hxf : ¬InPage s.hhdm f x := hx f ⟨3, _, hf⟩
    unfold InPage at hxf
    have h1 : ¬(f + s.hhdm + 8 * (p % 512) ≤ x ∧ x < f + s.hhdm + 8 * (p % 512) + 8) := by omega
    simp only [setEntry, Mem.store64, if_neg h1]

/-- The page `p` has been mapped, with the tables that it needs. -/
structure PageMapped (root : Nat) (s : Mm) (T : Tree) (free : List Nat) (p : Nat) (leaf : Leaf) (s' : Mm)
    (T' : Tree) (free' used : List Nat) : Prop where
  grows : Grows root s T free s' T' free' used
  leaf : T'.leaf = Function.update T.leaf p (some leaf)
  nodes : ∀ l k, T'.node l k ≠ none ↔ T.node l k ≠ none ∨ OnPath p l k
  length : used.length = missing T p

lemma mono_pagingMapPages (table : Nat) (attrs : PageAttrs) (n va pa : Nat) :
    Call.Mono m (pagingMapPages table attrs n va pa) := by
  induction n generalizing va pa with
  | zero => exact Call.mono_pure _
  | succ n ih =>
    apply Call.mono_bind (mono_walkPagetable _ _ _)
    intro pde
    apply Call.mono_ite (Call.mono_pure _)
    apply Call.mono_bind (mono_readWord _)
    intro raw
    apply Call.mono_ite (Call.mono_halt _)
    exact Call.mono_bind (mono_writeWord _ _) (fun _ => ih _ _)

/-- One turn of the loop of `paging_map`: the frames run out, or the page was mapped before, or it
is mapped now. -/
lemma pagingMapPages_succ (h : TableInv s root T free) (attrs : PageAttrs) (n va : Nat)
    (hpa : pa % 4096 = 0 ∧ pa < 2 ^ 48) :
    (failures s < failures (pagingMapPages (root + s.hhdm) attrs (n + 1) va pa s).2 ∧
      free.length < missing T (pageOf va)) ∨
    (T.leaf (pageOf va) ≠ none ∧
      (pagingMapPages (root + s.hhdm) attrs (n + 1) va pa s).1 = .error .panic) ∨
    ∃ s' T' free' used, T.leaf (pageOf va) = none ∧
      pagingMapPages (root + s.hhdm) attrs (n + 1) va pa s =
        pagingMapPages (root + s.hhdm) attrs n (wadd va PAGE_SIZE) (wadd pa PAGE_SIZE) s' ∧
      PageMapped root s T free (pageOf va) ⟨pa, attrs⟩ s' T' free' used := by
  rw [pagingMapPages]
  rcases walk_grow h va with ⟨hfail, hlen⟩ | ⟨f, s', T', free', used, hrun, hw⟩
  · left
    refine ⟨Call.lt_bind (fun pde => ?_) hfail, hlen⟩
    apply Call.mono_ite (Call.mono_pure _)
    apply Call.mono_bind (mono_readWord _)
    intro raw
    apply Call.mono_ite (Call.mono_halt _)
    exact Call.mono_bind (mono_writeWord _ _) (fun _ => mono_pagingMapPages _ _ _ _ _)
  right
  have herr := hw.grows.inv.entry_not_isErr hw.table (pageOf va)
  have hread := hw.grows.inv.readWord_leaf hw.table
  have hwrite := hw.grows.inv.writeWord_leaf hw.table (some ⟨pa, attrs⟩)
  rw [hw.grows.hhdm] at herr hread hwrite
  rw [hw.leaf] at hread
  rw [Call.bind_ok hrun, if_neg (by rw [herr]; decide), Call.bind_ok hread]
  cases hp : T.leaf (pageOf va) with
  | some old =>
    left
    refine ⟨by simp, ?_⟩
    rw [if_pos ((leafRaw_isValid _).mpr (by simp))]
    rfl
  | none =>
    right
    have hset : Grows root s' T' free' (setEntry s' f (pageOf va) (some ⟨pa, attrs⟩))
        (T'.setLeaf (pageOf va) (some ⟨pa, attrs⟩)) free' [] :=
      hw.grows.inv.setLeaf hw.table (by rintro l ⟨⟩; exact hpa)
    refine ⟨setEntry s' f (pageOf va) (some ⟨pa, attrs⟩), T'.setLeaf (pageOf va) (some ⟨pa, attrs⟩),
      free', used, rfl, ?_, ?_⟩
    · rw [if_neg (by rw [leafRaw_isValid]; simp)]
      exact Call.bind_ok hwrite
    · refine ⟨by simpa using hw.grows.trans hset, ?_, hw.nodes, hw.length⟩
      show Function.update T'.leaf _ _ = _
      rw [hw.leaf]

lemma pagingMapPages_conflict {attrs : PageAttrs}
    (hwalk : walkPagetable (root + s.hhdm) va true s = (.ok (f + s.hhdm + 8 * (pageOf va % 512)), s'))
    (hw : Walked root s T free (pageOf va) f s' T' free' used) (hold : T.leaf (pageOf va) ≠ none) :
    pagingMapPages (root + s.hhdm) attrs (n + 1) va pa s = (.error .panic, s') := by
  have herr := hw.grows.inv.entry_not_isErr hw.table (pageOf va)
  have hread := hw.grows.inv.readWord_leaf hw.table
  rw [hw.grows.hhdm] at herr hread
  rw [hw.leaf] at hread
  rw [pagingMapPages, Call.bind_ok hwalk, if_neg (by rw [herr]; decide), Call.bind_ok hread,
    if_pos ((leafRaw_isValid _).mpr hold)]
  rfl

lemma mapRange_zero (M : Nat → Option Leaf) (p pa : Nat) (attrs : PageAttrs) : mapRange M p 0 pa attrs = M := by
  funext q
  exact if_neg (by omega)

lemma mapRange_succ (M : Nat → Option Leaf) (p n pa : Nat) (attrs : PageAttrs) :
    mapRange (Function.update M p (some ⟨pa, attrs⟩)) (p + 1) n (pa + 4096) attrs =
      mapRange M p (n + 1) pa attrs := by
  funext q
  unfold mapRange
  by_cases hp : q = p
  · subst hp
    rw [if_neg (by omega), if_pos (by omega), Function.update_self]
    simp
  · rw [Function.update_of_ne hp]
    by_cases hq : p + 1 ≤ q ∧ q < p + 1 + n
    · rw [if_pos hq, if_pos (by omega)]
      congr 2
      omega
    · rw [if_neg hq, if_neg (by omega)]

/-- The loop of `paging_map`: the frames run out, or some page was mapped before, or all pages are
mapped now. -/
lemma pagingMapPages_spec (h : TableInv s root T free) (attrs : PageAttrs) (hva : va % 2 ^ 48 + n * 4096 ≤ 2 ^ 48)
    (haligned : pa % 4096 = 0) (hpa : pa + n * 4096 ≤ 2 ^ 48) :
    failures s < failures (pagingMapPages (root + s.hhdm) attrs n va pa s).2 ∨
    ((∃ q, pageOf va ≤ q ∧ q < pageOf va + n ∧ T.leaf q ≠ none) ∧
      (pagingMapPages (root + s.hhdm) attrs n va pa s).1 = .error .panic) ∨
    ∃ s' T' free' used, (∀ q, pageOf va ≤ q → q < pageOf va + n → T.leaf q = none) ∧
      pagingMapPages (root + s.hhdm) attrs n va pa s = (.ok 0, s') ∧
      Grows root s T free s' T' free' used ∧ T'.leaf = mapRange T.leaf (pageOf va) n pa attrs := by
  induction n generalizing s T free va pa with
  | zero =>
    right; right
    refine ⟨s, T, free, [], ?_, rfl, Grows.refl h, (mapRange_zero _ _ _ _).symm⟩
    intro q h1 h2
    omega
  | succ n ih =>
    rcases pagingMapPages_succ h attrs n va ⟨haligned, by omega⟩ with
      ⟨hfail, -⟩ | ⟨hold, hpanic⟩ | ⟨s₁, T₁, free₁, used₁, hnone, hrun, hm⟩
    · exact .inl hfail
    · exact .inr (.inl ⟨⟨pageOf va, by omega, by omega, hold⟩, hpanic⟩)
    · cases n with
      | zero =>
        right; right
        refine ⟨s₁, T₁, free₁, used₁, ?_, hrun, hm.grows, ?_⟩
        · intro q h1 h2
          obtain rfl : q = pageOf va := by omega
          exact hnone
        · rw [hm.leaf, ← mapRange_succ, mapRange_zero]
      | succ n =>
        have hnext : pageOf (wadd va PAGE_SIZE) = pageOf va + 1 := pageOf_wadd (by omega)
        have hpa' : wadd pa PAGE_SIZE = pa + 4096 := wadd_of_lt (by simp only [PAGE_SIZE]; omega)
        have hva' : wadd va PAGE_SIZE % 2 ^ 48 = va % 2 ^ 48 + 4096 := by
          unfold wadd wordSize PAGE_SIZE
          omega
        have hrest := @ih s₁ (wadd va PAGE_SIZE) (pa + 4096) T₁ free₁ hm.grows.inv (by omega) (by omega)
          (by omega)
        rw [hpa'] at hrun
        rw [hm.grows.hhdm, ← hrun, hm.grows.failures_eq, hnext, hm.leaf] at hrest
        rcases hrest with hfail | ⟨⟨q, h1, h2, hq⟩, hpanic⟩ | ⟨s₂, T₂, free₂, used₂, hq, hrun₂, hg₂, hleaf₂⟩
        · exact .inl hfail
        · rw [Function.update_of_ne (by omega)] at hq
          exact .inr (.inl ⟨⟨q, by omega, by omega, hq⟩, hpanic⟩)
        · right; right
          refine ⟨s₂, T₂, free₂, used₁ ++ used₂, ?_, hrun₂, hm.grows.trans hg₂, ?_⟩
          · intro q h1 h2
            by_cases hqp : q = pageOf va
            · rw [hqp]
              exact hnone
            · have h3 := hq q (by omega) (by omega)
              rwa [Function.update_of_ne hqp] at h3
          · rw [hleaf₂, mapRange_succ]

lemma unmapRange_zero (M : Nat → Option Leaf) (p : Nat) : unmapRange M p 0 = M := by
  funext q
  exact if_neg (by omega)

lemma unmapRange_succ (M : Nat → Option Leaf) (p n : Nat) :
    unmapRange (Function.update M p none) (p + 1) n = unmapRange M p (n + 1) := by
  funext q
  unfold unmapRange
  by_cases hp : q = p
  · subst hp
    rw [if_neg (by omega), if_pos (by omega), Function.update_self]
  · rw [Function.update_of_ne hp]
    by_cases hq : p + 1 ≤ q ∧ q < p + 1 + n
    · rw [if_pos hq, if_pos (by omega)]
    · rw [if_neg hq, if_neg (by omega)]

/-- The tree without the mappings of some pages. -/
def Tree.unmap (T : Tree) (p n : Nat) : Tree := { T with leaf := unmapRange T.leaf p n }

lemma Tree.unmap_setLeaf (T : Tree) (p n : Nat) :
    (T.setLeaf p none).unmap (p + 1) n = T.unmap p (n + 1) := by
  show Tree.mk _ (unmapRange (Function.update T.leaf p none) (p + 1) n) = _
  rw [unmapRange_succ]
  rfl

lemma pagingUnmapPages_succ (h : TableInv s root T free) (n va : Nat) :
    (T.leaf (pageOf va) = none ∧
      (pagingUnmapPages (root + s.hhdm) (n + 1) va s).1 = .error .panic) ∨
    ∃ s', T.leaf (pageOf va) ≠ none ∧
      pagingUnmapPages (root + s.hhdm) (n + 1) va s =
        pagingUnmapPages (root + s.hhdm) n (wadd va PAGE_SIZE) s' ∧
      Grows root s T free s' (T.setLeaf (pageOf va) none) free [] := by
  rw [pagingUnmapPages, Call.bind_ok (walk_lookup h va)]
  cases hf : T.node 3 (pageOf va / 512) with
  | none =>
    left
    refine ⟨h.tree.leaf_none hf, ?_⟩
    rw [descPtr, hf, if_pos isErrValue_errToPtr]
    rfl
  | some f =>
    rw [descPtr, hf]
    dsimp only
    rw [if_neg (by rw [h.entry_not_isErr hf]; decide), Call.bind_ok (h.readWord_leaf hf)]
    by_cases hp : T.leaf (pageOf va) = none
    · left
      refine ⟨hp, ?_⟩
      rw [if_neg (by rw [leafRaw_isValid]; exact not_not.mpr hp)]
      rfl
    · right
      refine ⟨setEntry s f (pageOf va) none, hp, ?_, h.setLeaf hf (by simp)⟩
      rw [if_pos ((leafRaw_isValid _).mpr hp)]
      exact Call.bind_ok (h.writeWord_leaf hf none)

/-- The loop of `paging_unmap`: some page is not mapped, or all pages have been unmapped. -/
lemma pagingUnmapPages_spec (h : TableInv s root T free) (hva : va % 2 ^ 48 + n * 4096 ≤ 2 ^ 48) :
    ((∃ q, pageOf va ≤ q ∧ q < pageOf va + n ∧ T.leaf q = none) ∧
      (pagingUnmapPages (root + s.hhdm) n va s).1 = .error .panic) ∨
    ∃ s', (∀ q, pageOf va ≤ q → q < pageOf va + n → T.leaf q ≠ none) ∧
      pagingUnmapPages (root + s.hhdm) n va s = (.ok (), s') ∧
      Grows root s T free s' (T.unmap (pageOf va) n) free [] := by
  induction n generalizing s T va with
  | zero =>
    right
    have hT : T.unmap (pageOf va) 0 = T := by rw [Tree.unmap, unmapRange_zero]
    refine ⟨s, ?_, rfl, hT.symm ▸ Grows.refl h⟩
    intro q h1 h2
    omega
  | succ n ih =>
    rcases pagingUnmapPages_succ h n va with ⟨hnone, hpanic⟩ | ⟨s₁, hsome, hrun, hg⟩
    · exact .inl ⟨⟨pageOf va, by omega, by omega, hnone⟩, hpanic⟩
    · cases n with
      | zero =>
        right
        have hT : T.setLeaf (pageOf va) none = T.unmap (pageOf va) 1 := by
          rw [← Tree.unmap_setLeaf, Tree.unmap, unmapRange_zero]
        refine ⟨s₁, ?_, hrun, hT ▸ hg⟩
        intro q h1 h2
        obtain rfl : q = pageOf va := by omega
        exact hsome
      | succ n =>
        have hnext : pageOf (wadd va PAGE_SIZE) = pageOf va + 1 := pageOf_wadd (by omega)
        have hva' : wadd va PAGE_SIZE % 2 ^ 48 = va % 2 ^ 48 + 4096 := by
          unfold wadd wordSize PAGE_SIZE
          omega
        have hrest := @ih s₁ (wadd va PAGE_SIZE) _ hg.inv (by omega)
        rw [hg.hhdm, ← hrun, hnext, Tree.unmap_setLeaf] at hrest
        have hother : ∀ {q}, q ≠ pageOf va → (T.setLeaf (pageOf va) none).leaf q = T.leaf q :=
          fun hq => Function.update_of_ne hq _ _
        rcases hrest with ⟨⟨q, h1, h2, hq⟩, hpanic⟩ | ⟨s₂, hq, hrun₂, hg₂⟩
        · rw [hother (by omega)] at hq
          exact .inl ⟨⟨q, by omega, by omega, hq⟩, hpanic⟩
        · right
          refine ⟨s₂, ?_, hrun₂, hg.trans hg₂⟩
          intro q h1 h2
          by_cases hqp : q = pageOf va
          · rw [hqp]
            exact hsome
          · have h3 := hq q (by omega) (by omega)
            rwa [hother hqp] at h3

end KaworuOS.Proofs
