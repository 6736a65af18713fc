import KaworuOS.Proofs.VmCoverage
import KaworuOS.Proofs.VmmRun

/-!
# A frame rule for the frames of a table

Several regions and other users of `pmm` share one account of the frames. What is proved of an operation on a part of the
pages, and of the frames of this part alone, carries over to all of them.
-/

namespace KaworuOS.Proofs
open Lib

variable {s s' : Mm} {root f : Nat} {T T' : Tree} {free free' free₀ loose lent owned owned' : List Nat}
  {old mine part : Nat → Prop}

lemma leafRaw_inj {l l' : Leaf} (h : l.pa % 4096 = 0 ∧ l.pa < 2 ^ 48) (h' : l'.pa % 4096 = 0 ∧ l'.pa < 2 ^ 48)
    (heq : leafRaw (some l) = leafRaw (some l')) : l = l' := by
  have hattrs : l.attrs = l'.attrs := by
    rw [← attrs_pageEntry 0 l.attrs l.pa, ← attrs_pageEntry 0 l'.attrs l'.pa]
    exact congrArg PageDescriptor.attrs heq
  have hpa : l.pa = l'.pa := by
    rw [← pageEntry_output 0 l.attrs h.1 h.2, ← pageEntry_output 0 l'.attrs h'.1 h'.2]
    exact congrArg (fun raw => pageDescToPa (PageDescriptor.outputAddress.get raw)) heq
  cases l
  cases l'
  simp only at hattrs hpa
  rw [hattrs, hpa]

lemma TreeRep.leaf_bound {hhdm q : Nat} {mem : Mem} (h : TreeRep hhdm mem root T) (hq : T.leaf q ≠ none) :
    q < 2 ^ 36 := by
  obtain ⟨l, hl⟩ := Option.ne_none_iff_exists'.mp hq
  obtain ⟨f, hf⟩ := h.leafTable hl
  have hk := (h.bound hf).2
  omega

/-- The table in memory determines the mappings. -/
lemma TableInv.leaf_congr (h : TableInv s root T free) (h' : TableInv s root T' free') : T'.leaf = T.leaf := by
  funext q
  by_cases hq : q < 2 ^ 36
  · have hpage : pageOf (q * 4096) = q := by
      unfold pageOf
      omega
    have hdesc := (h.validDesc_eq (q * 4096)).symm.trans (h'.validDesc_eq (q * 4096))
    rw [hpage] at hdesc
    cases hl : T.leaf q with
    | none =>
      rw [hl] at hdesc
      exact Option.map_eq_none_iff.mp hdesc.symm
    | some l =>
      rw [hl] at hdesc
      obtain ⟨l', hl', heq⟩ := Option.map_eq_some_iff.mp hdesc.symm
      rw [hl', leafRaw_inj (h'.tree.leafFrame hl') (h.tree.leafFrame hl) heq]
  · have hnone : ∀ {U : Tree}, TreeRep s.hhdm s.mem root U → U.leaf q = none := by
      intro U hU
      by_contra hsome
      exact hq (hU.leaf_bound hsome)
    rw [hnone h.tree, hnone h'.tree]

section Part

/-- The pages that are not `part` lend their frames. -/
lemma FramesInv.lend (h : FramesInv free₀ old mine s root T loose owned free) (hpart : ∀ q, part q → mine q) :
    ∃ lent owned', (∀ f, f ∈ lent ↔ ∃ q l, (mine q ∧ ¬part q) ∧ T.leaf q = some l ∧ l.pa = f) ∧
      FramesInv free₀ old part s root T (lent ++ loose) owned' free := by
  classical
  let foreign : Nat → Bool := fun f => decide (∃ q l, (mine q ∧ ¬part q) ∧ T.leaf q = some l ∧ l.pa = f)
  have hmem : ∀ f, f ∈ owned.filter foreign ↔ ∃ q l, (mine q ∧ ¬part q) ∧ T.leaf q = some l ∧ l.pa = f := by
    intro f
    rw [List.mem_filter, decide_eq_true_iff]
    refine ⟨fun hf => hf.2, fun hf => ⟨?_, hf⟩⟩
    obtain ⟨q, l, hq, hl, rfl⟩ := hf
    exact h.leaf_owned hq.1 hl
  refine ⟨owned.filter foreign, owned.filter (fun f => !foreign f), hmem, h.table, h.good, h.nodup, ?_, ?_, h.was,
    fun hq hq' => h.inj (hpart _ hq) (hpart _ hq'), fun hq => h.apart (hpart _ hq)⟩
  · refine h.account.trans ?_
    have hsplit := List.filter_append_perm foreign owned
    rw [List.perm_iff_count] at hsplit ⊢
    intro x
    have h1 := hsplit x
    simp only [List.count_append] at h1 ⊢
    omega
  · intro f
    have hforeign : (!foreign f) = true ↔ ¬∃ q l, (mine q ∧ ¬part q) ∧ T.leaf q = some l ∧ l.pa = f := by simp [foreign]
    rw [List.mem_filter, hforeign, h.owned_iff]
    constructor
    · rintro ⟨htable | ⟨q, l, hq, hl, rfl⟩, hnot⟩
      · exact .inl htable
      · refine .inr ⟨q, l, ?_, hl, rfl⟩
        by_contra hpart'
        exact hnot ⟨q, l, ⟨hq, hpart'⟩, hl, rfl⟩
    · rintro (⟨htable, hold⟩ | ⟨q, l, hq, hl, rfl⟩)
      · refine ⟨.inl ⟨htable, hold⟩, ?_⟩
        rintro ⟨q, l, hq, hl, rfl⟩
        exact h.apart hq.1 hl htable
      · refine ⟨.inr ⟨q, l, hpart q hq, hl, rfl⟩, ?_⟩
        rintro ⟨q', l', hq', hl', heq⟩
        exact hq'.2 (h.inj hq'.1 (hpart q hq) hl' hl heq ▸ hq)

/-- The pages `other` take back the frames that they have lent. -/
lemma FramesInv.recall {other : Nat → Prop} (h : FramesInv free₀ old part s root T (lent ++ loose) owned free)
    (hlent : ∀ f, f ∈ lent ↔ ∃ q l, other q ∧ T.leaf q = some l ∧ l.pa = f)
    (hinj : ∀ {q q' l l'}, other q → other q' → T.leaf q = some l → T.leaf q' = some l' → l.pa = l'.pa → q = q') :
    FramesInv free₀ old (fun q => part q ∨ other q) s root T loose (lent ++ owned) free := by
  have hleaf : ∀ {q l}, other q → T.leaf q = some l → l.pa ∈ lent ++ loose :=
    fun hq hl => List.mem_append_left _ ((hlent _).mpr ⟨_, _, hq, hl, rfl⟩)
  refine { h with account := ?_, owned_iff := ?_, inj := ?_, apart := ?_ }
  · refine h.account.trans ?_
    rw [List.perm_iff_count]
    intro x
    simp only [List.count_append]
    omega
  · intro f
    rw [List.mem_append, hlent, h.owned_iff]
    constructor
    · rintro (⟨q, l, hq, hl, rfl⟩ | htable | ⟨q, l, hq, hl, rfl⟩)
      · exact .inr ⟨q, l, .inr hq, hl, rfl⟩
      · exact .inl htable
      · exact .inr ⟨q, l, .inl hq, hl, rfl⟩
    · rintro (htable | ⟨q, l, hq | hq, hl, rfl⟩)
      · exact .inr (.inl htable)
      · exact .inr (.inr ⟨q, l, hq, hl, rfl⟩)
      · exact .inl ⟨q, l, hq, hl, rfl⟩
  · rintro q q' l l' (hq | hq) (hq' | hq') hl hl' hpa
    · exact h.inj hq hq' hl hl' hpa
    · exact absurd (hpa ▸ hleaf hq' hl') (h.not_loose_of_owned (h.leaf_owned hq hl))
    · exact absurd (hpa ▸ hleaf hq hl) (h.not_loose_of_owned (h.leaf_owned hq' hl'))
    · exact hinj hq hq' hl hl' hpa
  · rintro q l (hq | hq) hl htable
    · exact h.apart hq hl htable
    · have hloose := hleaf hq hl
      refine h.not_loose_of_owned (h.table_owned htable ?_) hloose
      exact h.account.mem_iff.mpr (List.mem_append_left _ (List.mem_append_right _ hloose))

/-- Without the loose frames. -/
lemma FramesInv.narrow (h : FramesInv free₀ old mine s root T loose owned free) :
    FramesInv (owned ++ free) old mine s root T [] owned free := by
  have hsub : ∀ f ∈ owned ++ free, f ∈ free₀ := by
    intro f hf
    rw [h.account.mem_iff, List.append_assoc]
    rcases List.mem_append.mp hf with hf | hf
    · exact List.mem_append_left _ hf
    · exact List.mem_append_right _ (List.mem_append_right _ hf)
  refine { h with good := fun f hf => h.good f (hsub f hf), nodup := ?_, account := ?_, was := ?_ }
  · have hnodup := h.nodup_all
    rw [List.append_assoc, List.nodup_append] at hnodup
    obtain ⟨h1, h2, h3⟩ := hnodup
    exact List.nodup_append.mpr ⟨h1, (List.nodup_append.mp h2).2.1,
      fun a ha b hb => h3 a ha b (List.mem_append_right _ hb)⟩
  · rw [List.append_nil]
  · intro f hold
    exact ⟨(h.was hold).1, fun hf => (h.was hold).2 (hsub f hf)⟩

/-- With the loose frames again, which nobody has touched. -/
lemma FramesInv.widen (h : FramesInv free₀ old mine s root T loose owned free)
    (h' : FramesInv (owned ++ free) old part s' root T' [] owned' free') (hhdm : s'.hhdm = s.hhdm) :
    FramesInv free₀ old part s' root T' loose owned' free' := by
  refine { h' with good := ?_, nodup := h.nodup, account := ?_, was := fun hold => ⟨(h'.was hold).1, (h.was hold).2⟩ }
  · rw [hhdm]
    exact h.good
  · refine h.account.trans ?_
    have hperm := h'.account
    rw [List.append_nil, List.perm_iff_count] at hperm
    rw [List.perm_iff_count]
    intro x
    have h1 := hperm x
    simp only [List.count_append] at h1 ⊢
    omega

/-- **The frame rule.** The frames of a part of the pages can be accounted for alone. What this account becomes, the whole
becomes, if the other pages stay mapped as they are. -/
lemma FramesInv.on_part (h : FramesInv free₀ old mine s root T loose owned free) (hpart : ∀ q, part q → mine q) :
    ∃ ownedPart, FramesInv (ownedPart ++ free) old part s root T [] ownedPart free ∧
      ∀ {s' T' part' ownedPart' free'}, s'.hhdm = s.hhdm →
        FramesInv (ownedPart ++ free) old part' s' root T' [] ownedPart' free' →
        (∀ q, mine q → ¬part q → T'.leaf q = T.leaf q) →
        ∃ owned', FramesInv free₀ old (fun q => part' q ∨ (mine q ∧ ¬part q)) s' root T' loose owned' free' := by
  obtain ⟨lent, ownedPart, hlent, hlend⟩ := h.lend hpart
  refine ⟨ownedPart, hlend.narrow, ?_⟩
  intro s' T' part' ownedPart' free' hhdm hpart' hkeep
  refine ⟨lent ++ ownedPart', (hlend.widen hpart' hhdm).recall ?_ ?_⟩
  · intro f
    rw [hlent]
    constructor
    · rintro ⟨q, l, hq, hl, rfl⟩
      exact ⟨q, l, hq, (hkeep q hq.1 hq.2).trans hl, rfl⟩
    · rintro ⟨q, l, hq, hl, rfl⟩
      exact ⟨q, l, hq, (hkeep q hq.1 hq.2).symm.trans hl, rfl⟩
  · intro q q' l l' hq hq' hl hl' hpa
    exact h.inj hq.1 hq'.1 ((hkeep q hq.1 hq.2).symm.trans hl) ((hkeep q' hq'.1 hq'.2).symm.trans hl') hpa

end Part

/-- The frame is in somebody's hands, or a page that is `mine` has it. -/
def UsedFrame (mine : Nat → Prop) (T : Tree) (loose : List Nat) (f : Nat) : Prop :=
  f ∈ loose ∨ ∃ q l, mine q ∧ T.leaf q = some l ∧ l.pa = f

section Others

variable (h : FramesInv free₀ old mine s root T loose owned free)
include h

lemma FramesInv.loose_free₀ (hf : f ∈ loose) : f ∈ free₀ :=
  h.account.mem_iff.mpr (List.mem_append_left _ (List.mem_append_right _ hf))

lemma FramesInv.loose_apart (hf : f ∈ loose) : f ∉ free ∧ ¬T.IsTable f := by
  refine ⟨fun hfree => ?_, fun htable => ?_⟩
  · exact List.disjoint_of_nodup_append h.nodup_all (List.mem_append_right _ hf) hfree
  · exact h.not_loose_of_owned (h.table_owned htable (h.loose_free₀ hf)) hf

/-- A frame that somebody gives back. -/
lemma FramesInv.give (hf : f ∈ loose) :
    FramesInv free₀ old mine (giveFrame s f) root T (loose.erase f) owned (f :: free) := by
  obtain ⟨hnot, htable⟩ := h.loose_apart hf
  refine { h with table := h.table.give (h.good f (h.loose_free₀ hf)).2 hnot htable, account := ?_ }
  refine h.account.trans ?_
  have hperm := List.perm_cons_erase hf
  rw [List.perm_iff_count] at hperm ⊢
  intro x
  have h1 := hperm x
  simp only [List.count_append, List.count_cons] at h1 ⊢
  omega

lemma FramesInv.used (hf : UsedFrame mine T loose f) : IsFrame s.hhdm f ∧ f ∉ free ∧ ¬T.IsTable f := by
  rcases hf with hf | ⟨q, l, hq, hl, rfl⟩
  · exact ⟨(h.good f (h.loose_free₀ hf)).2, h.loose_apart hf⟩
  · have howned := h.leaf_owned hq hl
    exact ⟨(h.mem_start (List.mem_append_left _ (List.mem_append_left _ howned))).2, h.not_free_of_owned howned,
      h.apart hq hl⟩

/-- Writes into frames that neither are free nor hold a table. -/
lemma FramesInv.write {mem : Mem} (hmem : ∀ x, (∀ f, UsedFrame mine T loose f → ¬InPage s.hhdm f x) → mem x = s.mem x) :
    FramesInv free₀ old mine { s with mem := mem } root T loose owned free := by
  have hsame : ∀ {g}, IsFrame s.hhdm g → (∀ f, UsedFrame mine T loose f → g ≠ f) → SamePage s.hhdm s.mem mem g := by
    intro g hg hne x h1 h2
    apply hmem
    rintro f hf ⟨h3, h4⟩
    have hapart := hg.apart (h.used hf).1 (hne f hf)
    omega
  refine { h with table := ⟨h.table.pmm.congr rfl rfl ?_, h.table.tree.congr ?_, h.table.apart⟩ }
  · intro g hg
    exact hsame (h.table.pmm.frames g hg) (fun f hf heq => (h.used hf).2.1 (heq ▸ hg))
  · rintro g ⟨l, k, hnode⟩
    exact hsame (h.table.frame hnode) (fun f hf heq => (h.used hf).2.2 ⟨l, k, heq ▸ hnode⟩)

end Others

end KaworuOS.Proofs
