import KaworuOS.Proofs.PagingMap

/-!
# Destroying a page table without mappings

`table_descriptor_destroy_recursive` frees the frame of every table below the one that it is given,
and this one last. The induction is on the number of levels below; within one table it goes through
the entries, each of which leaves the tables of the later entries alone.
-/

namespace KaworuOS.Proofs
open Lib

/-- The frame `x` holds a table of the tree at or below the level `l` and the key `k`. -/
def SubFrame (T : Tree) (l k x : Nat) : Prop :=
  ∃ l' k', l ≤ l' ∧ k' / 512 ^ (l' - l) = k ∧ T.node l' k' = some x

/-- The frames `freed` have been given back, the newest first. -/
structure Freed (s : Mm) (free freed : List Nat) (s' : Mm) : Prop where
  pmm : PmmInv s' (freed ++ free)
  hhdm : s'.hhdm = s.hhdm
  heap : s'.heap = s.heap
  log : s'.log = { s.log with released := freed ++ s.log.released }

variable {s s' s'' : Mm} {hhdm root l k f g x i : Nat} {T : Tree} {mem : Mem} {free freed freed' : List Nat}

lemma Freed.refl (h : PmmInv s free) : Freed s free [] s := ⟨h, rfl, rfl, rfl⟩

lemma Freed.trans (h : Freed s free freed s') (h' : Freed s' (freed ++ free) freed' s'') :
    Freed s free (freed' ++ freed) s'' where
  pmm := by
    rw [List.append_assoc]
    exact h'.pmm
  hhdm := h'.hhdm.trans h.hhdm
  heap := h'.heap.trans h.heap
  log := by rw [h'.log, h.log, List.append_assoc]

lemma TreeRep.ancestor (h : TreeRep hhdm mem root T) (n : Nat) {k : Nat} (hx : T.node (l + n) k = some x) :
    T.node l (k / 512 ^ n) ≠ none := by
  induction n generalizing k x with
  | zero => simpa using Option.ne_none_iff_exists'.mpr ⟨x, hx⟩
  | succ n ih =>
    obtain ⟨g, hg⟩ := h.parent (l := l + n) hx
    have h1 := ih hg
    rwa [Nat.div_div_eq_div_mul, ← pow_succ'] at h1

lemma TreeRep.subFrame_none (h : TreeRep hhdm mem root T) (hnone : T.node l k = none) :
    ¬SubFrame T l k x := by
  rintro ⟨l', k', hl, hk, hx⟩
  obtain ⟨n, rfl⟩ : ∃ n, l' = l + n := ⟨l' - l, by omega⟩
  rw [Nat.add_sub_cancel_left] at hk
  have h1 := h.ancestor n hx
  rw [hk] at h1
  exact h1 hnone

lemma TreeRep.subFrame_iff (hf : T.node l k = some f) :
    SubFrame T l k x ↔ x = f ∨ ∃ i < 512, SubFrame T (l + 1) (512 * k + i) x := by
  constructor
  · rintro ⟨l', k', hl, hk, hx⟩
    obtain ⟨n, rfl⟩ : ∃ n, l' = l + n := ⟨l' - l, by omega⟩
    rw [Nat.add_sub_cancel_left] at hk
    cases n with
    | zero =>
      left
      rw [pow_zero, Nat.div_one] at hk
      rw [hk] at hx
      exact Option.some.inj (hx.symm.trans hf)
    | succ n =>
      right
      rw [pow_succ, ← Nat.div_div_eq_div_mul] at hk
      refine ⟨k' / 512 ^ n % 512, by omega, l + (n + 1), k', by omega, ?_, hx⟩
      rw [show l + (n + 1) - (l + 1) = n by omega]
      omega
  · rintro (rfl | ⟨i, hi, l', k', hl, hk, hx⟩)
    · exact ⟨l, k, le_refl _, by simp, hf⟩
    · obtain ⟨n, rfl⟩ : ∃ n, l' = l + 1 + n := ⟨l' - (l + 1), by omega⟩
      rw [Nat.add_sub_cancel_left] at hk
      refine ⟨l + 1 + n, k', by omega, ?_, hx⟩
      rw [show l + 1 + n - l = n + 1 by omega, pow_succ, ← Nat.div_div_eq_div_mul, hk]
      omega

lemma TreeRep.subFrame_unique (h : TreeRep hhdm mem root T) {k' : Nat} (h1 : SubFrame T l k x)
    (h2 : SubFrame T l k' x) : k = k' := by
  obtain ⟨l₁, k₁, -, rfl, hx₁⟩ := h1
  obtain ⟨l₂, k₂, -, rfl, hx₂⟩ := h2
  obtain ⟨rfl, rfl⟩ := h.inj hx₁ hx₂
  rfl

lemma TreeRep.not_subFrame_self (h : TreeRep hhdm mem root T) (hf : T.node l k = some f) {k' : Nat} :
    ¬SubFrame T (l + 1) k' f := by
  rintro ⟨l', k'', hl, -, hx⟩
  have h1 := (h.inj hx hf).1
  omega

lemma TreeRep.subFrame_frame (h : TreeRep hhdm mem root T) (hx : SubFrame T l k x) : IsFrame hhdm x := by
  obtain ⟨l', k', -, -, hx⟩ := hx
  exact h.frame hx

lemma TreeRep.isTable_iff (h : TreeRep hhdm mem root T) : T.IsTable x ↔ SubFrame T 0 0 x := by
  constructor
  · rintro ⟨l, k, hx⟩
    refine ⟨l, k, by omega, ?_, hx⟩
    rw [Nat.sub_zero]
    exact Nat.div_eq_of_lt (h.bound hx).2
  · rintro ⟨l, k, -, -, hx⟩
    exact ⟨l, k, hx⟩

lemma TreeRep.entry_leafless (h : TreeRep hhdm mem root T) (hleaf : ∀ p, T.leaf p = none)
    (hf : T.node l k = some f) (hi : i < 512) :
    mem.load64 (f + hhdm + 8 * i) = nodeRaw (T.node (l + 1) (512 * k + i)) := by
  have hdiv : (512 * k + i) / 512 = k := by omega
  have hmod : (512 * k + i) % 512 = i := by omega
  by_cases hl : l < 3
  · have h1 := h.entry (k := 512 * k + i) hl (by rw [hdiv]; exact hf)
    rwa [hmod] at h1
  · obtain rfl : l = 3 := by
      have h1 := (h.bound hf).1
      omega
    have h1 := h.leafEntry (p := 512 * k + i) (by rw [hdiv]; exact hf)
    have h4 : T.node 4 (512 * k + i) = none := by
      cases hn : T.node 4 (512 * k + i) with
      | none => rfl
      | some g =>
        have h2 := (h.bound hn).1
        omega
    rw [hmod, hleaf] at h1
    rw [h1, h4]
    rfl

/-- The tables at or below `l` and `k` are in memory as in `mem`, and none of them is free. -/
structure Standing (mem : Mem) (T : Tree) (l k : Nat) (s : Mm) (free : List Nat) : Prop where
  pmm : PmmInv s free
  same : ∀ {x}, SubFrame T l k x → SamePage s.hhdm mem s.mem x
  apart : ∀ {x}, SubFrame T l k x → x ∉ free

/-- The tables at or below `l` and `k` have been destroyed. -/
structure Destroyed (T : Tree) (l k : Nat) (s : Mm) (free freed : List Nat) (s' : Mm) : Prop where
  gave : Freed s free freed s'
  mem_iff : ∀ x, x ∈ freed ↔ SubFrame T l k x
  mem : ∀ {x}, (∀ f ∈ freed, ¬InPage s.hhdm f x) → s'.mem x = s.mem x

/-- The entries below `i` of the table `f` have been gone through. -/
structure EntriesDone (T : Tree) (l k f i : Nat) (s : Mm) (free freed : List Nat) (s' : Mm) : Prop where
  gave : Freed s free freed s'
  mem_iff : ∀ x, x ∈ freed ↔ ∃ j < i, SubFrame T (l + 1) (512 * k + j) x
  mem : ∀ {x}, ¬InPage s.hhdm f x → (∀ g ∈ freed, ¬InPage s.hhdm g x) → s'.mem x = s.mem x
  later : ∀ {j}, i ≤ j → j < 512 →
    s'.mem.load64 (f + s.hhdm + 8 * j) = nodeRaw (T.node (l + 1) (512 * k + j))

lemma Freed.store (h : Freed s free freed s') (hf : IsFrame s.hhdm f) (hnot : f ∉ freed ++ free)
    (hi : i < 512) (v : Nat) :
    Freed s free freed { s' with mem := s'.mem.store64 (f + s.hhdm + 8 * i) v } := by
  refine ⟨h.pmm.congr ?_ ?_ ?_, h.hhdm, h.heap, h.log⟩
  · rfl
  · rfl
  intro x hx
  have hxf : x ≠ f := by
    rintro rfl
    exact hnot hx
  have hframe := h.pmm.frames x hx
  rw [h.hhdm] at hframe ⊢
  exact samePage_store _ hframe hf hxf hi

section OneTable

variable {recurse : Nat → Kernel Unit} (hT : TreeRep s.hhdm mem root T) (hf : T.node l k = some f)
  (h : Standing mem T l k s free)
  (ih : ∀ {k' g : Nat} {s₁ : Mm} {free₁ : List Nat}, s₁.hhdm = s.hhdm → T.node (l + 1) k' = some g →
    Standing mem T (l + 1) k' s₁ free₁ →
    ∃ s₂ freed, recurse (g + s.hhdm) s₁ = (.ok (), s₂) ∧ Destroyed T (l + 1) k' s₁ free₁ freed s₂)
include hT hf h ih

/-- One turn of the loop of `table_descriptor_destroy_recursive`. -/
lemma destroyEntry_spec (hi : i < 512) (hdone : EntriesDone T l k f i s free freed s') :
    ∃ s₂ freed', destroyEntry recurse (f + s.hhdm) i s' = (.ok (), s₂) ∧
      EntriesDone T l k f (i + 1) s free freed' s₂ := by
  have hframe := hT.frame hf
  have haddr : descAddr (f + s.hhdm) i = f + s.hhdm + 8 * i := hframe.descAddr_eq hi
  have herr : isErrValue (f + s.hhdm + 8 * i) = false := hframe.not_isErr h.pmm.good.aligned hi
  have hread : readWord (f + s.hhdm + 8 * i) s' =
      (.ok (nodeRaw (T.node (l + 1) (512 * k + i))), s') := by
    rw [readWord_ok herr, hdone.later (le_refl i) hi]
  have hsub : ∀ {j x}, j < 512 → SubFrame T (l + 1) (512 * k + j) x → SubFrame T l k x :=
    fun hj hx => (TreeRep.subFrame_iff hf).mpr (.inr ⟨_, hj, hx⟩)
  have hfself : SubFrame T l k f := (TreeRep.subFrame_iff hf).mpr (.inl rfl)
  rw [destroyEntry, haddr, Call.bind_ok hread]
  cases hg : T.node (l + 1) (512 * k + i) with
  | none =>
    refine ⟨s', freed, ?_, hdone.gave, ?_, hdone.mem, fun hj => hdone.later (by omega)⟩
    · rw [nodeRaw, if_neg not_isValid_zero]
      rfl
    · intro x
      rw [hdone.mem_iff]
      constructor
      · rintro ⟨j, hj, hx⟩
        exact ⟨j, by omega, hx⟩
      · rintro ⟨j, hj, hx⟩
        by_cases hji : j = i
        · subst hji
          exact absurd hx (hT.subFrame_none hg)
        · exact ⟨j, by omega, hx⟩
  | some g =>
    have hgframe := hT.frame hg
    have hgtop := hgframe.top
    have hphys : pmmPhysToVirt g s' = (.ok (g + s.hhdm), s') := by
      have h1 := pmmPhysToVirt_ok (f := g) (s := s') (by rw [hdone.gave.hhdm]; omega)
      rwa [hdone.gave.hhdm] at h1
    -- the tables below this entry have not been touched by the earlier entries
    have hfresh : ∀ {x}, SubFrame T (l + 1) (512 * k + i) x → x ∉ freed := by
      intro x hx hmem
      obtain ⟨j, hj, hxj⟩ := (hdone.mem_iff x).mp hmem
      have h1 := hT.subFrame_unique hx hxj
      omega
    have hstand : Standing mem T (l + 1) (512 * k + i) s' (freed ++ free) := by
      refine ⟨hdone.gave.pmm, ?_, ?_⟩
      · intro x hx
        rw [hdone.gave.hhdm]
        intro y h1 h2
        have hxframe := hT.subFrame_frame hx
        have hother : ∀ {z}, IsFrame s.hhdm z → x ≠ z → ¬InPage s.hhdm z y := by
          intro z hz hne hin
          have h3 := hxframe.apart hz hne
          unfold InPage at hin
          omega
        rw [hdone.mem]
        · exact h.same (hsub hi hx) y h1 h2
        · apply hother hframe
          rintro rfl
          exact hT.not_subFrame_self hf hx
        · intro z hz
          obtain ⟨j, hj, hzj⟩ := (hdone.mem_iff z).mp hz
          apply hother (hT.subFrame_frame hzj)
          rintro rfl
          exact hfresh hx hz
      · intro x hx hmem
        rcases List.mem_append.mp hmem with hmem | hmem
        · exact hfresh hx hmem
        · exact h.apart (hsub hi hx) hmem
    obtain ⟨s₂, freed₂, hrun, hdes⟩ := ih hdone.gave.hhdm hg hstand
    have hgave := hdone.gave.trans hdes.gave
    have hfnot : f ∉ (freed₂ ++ freed) ++ free := by
      intro hmem
      rcases List.mem_append.mp hmem with hmem | hmem
      · rcases List.mem_append.mp hmem with hmem | hmem
        · exact hT.not_subFrame_self hf ((hdes.mem_iff f).mp hmem)
        · obtain ⟨j, -, hj⟩ := (hdone.mem_iff f).mp hmem
          exact hT.not_subFrame_self hf hj
      · exact h.apart hfself hmem
    have hmemiff : ∀ x, x ∈ freed₂ ++ freed ↔ ∃ j < i + 1, SubFrame T (l + 1) (512 * k + j) x := by
      intro x
      rw [List.mem_append, hdes.mem_iff, hdone.mem_iff]
      constructor
      · rintro (hx | ⟨j, hj, hx⟩)
        · exact ⟨i, by omega, hx⟩
        · exact ⟨j, by omega, hx⟩
      · rintro ⟨j, hj, hx⟩
        by_cases hji : j = i
        · subst hji
          exact .inl hx
        · exact .inr ⟨j, by omega, hx⟩
    refine ⟨_, freed₂ ++ freed, ?_, hgave.store hframe hfnot hi 0, hmemiff, ?_, ?_⟩
    · rw [nodeRaw, if_pos (tableEntry_isValid g), if_pos (tableEntry_isTable g),
        tableEntry_next hgframe.aligned hgframe.bound, Call.bind_ok hphys, Call.bind_ok hrun]
      exact writeWord_ok herr
    · intro x hxf hx
      have h1 : ¬(f + s.hhdm + 8 * i ≤ x ∧ x < f + s.hhdm + 8 * i + 8) := by
        unfold InPage at hxf
        omega
      show (s₂.mem.store64 _ _) x = s.mem x
      simp only [Mem.store64, if_neg h1]
      rw [hdes.mem, hdone.mem hxf]
      · intro z hz
        exact hx z (List.mem_append.mpr (.inr hz))
      · intro z hz
        rw [hdone.gave.hhdm]
        exact hx z (List.mem_append.mpr (.inl hz))
    · intro j hij hj
      show (s₂.mem.store64 _ _).load64 _ = _
      rw [load_store_entry _ hframe hframe hj hi (by decide), if_neg (by omega)]
      have hkeep : SamePage s.hhdm s'.mem s₂.mem f := by
        intro y h1 h2
        apply hdes.mem
        intro z hz hin
        rw [hdone.gave.hhdm] at hin
        have hzsub := (hdes.mem_iff z).mp hz
        have hne : f ≠ z := by
          rintro rfl
          exact hT.not_subFrame_self hf hzsub
        have h3 := hframe.apart (hT.subFrame_frame hzsub) hne
        unfold InPage at hin
        omega
      rw [Mem.load64_congr (hkeep.mono (by omega) (by omega))]
      exact hdone.later (by omega) hj

/-- The loop of `table_descriptor_destroy_recursive` from the entry `i` on. -/
lemma destroyEntries_spec {n : Nat} (hn : i + n = 512) (hdone : EntriesDone T l k f i s free freed s') :
    ∃ s₂ freed', Call.each (destroyEntry recurse (f + s.hhdm)) (List.range' i n) s' = (.ok (), s₂) ∧
      EntriesDone T l k f 512 s free freed' s₂ := by
  induction n generalizing i freed s' with
  | zero =>
    obtain rfl : i = 512 := by omega
    exact ⟨s', freed, rfl, hdone⟩
  | succ n ihn =>
    obtain ⟨s₁, freed₁, hrun₁, hdone₁⟩ := destroyEntry_spec hT hf h ih (by omega) hdone
    obtain ⟨s₂, freed₂, hrun₂, hdone₂⟩ := ihn (by omega) hdone₁
    exact ⟨s₂, freed₂, (Call.bind_ok hrun₁).trans hrun₂, hdone₂⟩

/-- A table is destroyed with everything below it. -/
lemma destroyTable_spec (hleaf : ∀ p, T.leaf p = none) :
    ∃ s₂ freed, destroyTable recurse (f + s.hhdm) s = (.ok (), s₂) ∧
      Destroyed T l k s free freed s₂ := by
  have hframe := hT.frame hf
  have hfself : SubFrame T l k f := (TreeRep.subFrame_iff hf).mpr (.inl rfl)
  have hstart : EntriesDone T l k f 0 s free [] s := by
    refine ⟨Freed.refl h.pmm, ?_, fun _ _ => rfl, ?_⟩
    · intro x
      simp
    · intro j _ hj
      have hsame := Mem.load64_congr ((h.same hfself).mono (b := f + s.hhdm + 8 * j) (k := 8)
        (by omega) (by omega))
      rw [hsame, hT.entry_leafless hleaf hf hj]
  obtain ⟨s₁, freed, hrun, hdone⟩ := destroyEntries_spec hT hf h ih (n := 512) (by omega) hstart
  have hvirt : pmmVirtToPhys (f + s.hhdm) s₁ = (.ok f, s₁) := pmmVirtToPhys_ok hdone.gave.hhdm
  have hframe₁ : IsFrame s₁.hhdm f := by
    rw [hdone.gave.hhdm]
    exact hframe
  have hfnot : f ∉ freed ++ free := by
    intro hmem
    rcases List.mem_append.mp hmem with hmem | hmem
    · obtain ⟨j, -, hj⟩ := (hdone.mem_iff f).mp hmem
      exact hT.not_subFrame_self hf hj
    · exact h.apart hfself hmem
  refine ⟨giveFrame s₁ f, f :: freed, ?_, ?_, ?_, ?_⟩
  · rw [destroyTable, List.range_eq_range', Call.bind_ok hrun, Call.bind_ok hvirt]
    exact pmmFree_ok hframe₁
  · refine ⟨hdone.gave.pmm.give hframe₁ hfnot, hdone.gave.hhdm, hdone.gave.heap, ?_⟩
    show { s₁.log with released := f :: s₁.log.released } = _
    rw [hdone.gave.log]
    rfl
  · intro x
    rw [List.mem_cons, hdone.mem_iff, TreeRep.subFrame_iff hf]
  · intro x hx
    have hxf : ¬InPage s.hhdm f x := hx f (by simp)
    have hmem : (giveFrame s₁ f).mem x = s₁.mem x := by
      have h1 : ¬(f + s₁.hhdm ≤ x ∧ x < f + s₁.hhdm + 8) := by
        unfold InPage at hxf
        rw [hdone.gave.hhdm]
        omega
      simp only [giveFrame, Mem.store64, if_neg h1]
    rw [hmem]
    exact hdone.mem hxf (fun g hg => hx g (by simp [hg]))

end OneTable

lemma destroyRecursive_spec (d : Nat) (hT : TreeRep hhdm mem root T) (hleaf : ∀ p, T.leaf p = none)
    (hd : l + d = 4) (hs : s.hhdm = hhdm) (hf : T.node l k = some f) (h : Standing mem T l k s free) :
    ∃ s₂ freed, tableDescriptorDestroyRecursive d (f + hhdm) s = (.ok (), s₂) ∧
      Destroyed T l k s free freed s₂ := by
  induction d generalizing l k f s free with
  | zero =>
    have h1 := (hT.bound hf).1
    omega
  | succ d ih =>
    subst hs
    apply destroyTable_spec hT hf h _ hleaf
    intro k' g s₁ free₁ hs₁ hg hstand
    exact ih (by omega) hs₁ hg hstand

lemma TableInv.destroy (h : TableInv s root T free) (hleaf : ∀ p, T.leaf p = none) :
    ∃ s' freed, pagingDestroyTable (root + s.hhdm) s = (.ok (), s') ∧ Freed s free freed s' ∧
      (∀ x, x ∈ freed ↔ T.IsTable x) ∧
      ∀ {x}, (∀ f ∈ freed, ¬InPage s.hhdm f x) → s'.mem x = s.mem x := by
  have hstand : Standing s.mem T 0 0 s free := by
    refine ⟨h.pmm, fun _ _ _ _ => rfl, ?_⟩
    intro x hx
    exact h.apart (h.tree.isTable_iff.mpr hx)
  obtain ⟨s', freed, hrun, hd⟩ := destroyRecursive_spec 4 h.tree hleaf (by omega) rfl h.tree.root hstand
  refine ⟨s', freed, hrun, hd.gave, ?_, hd.mem⟩
  intro x
  rw [hd.mem_iff, h.tree.isTable_iff]

end KaworuOS.Proofs
