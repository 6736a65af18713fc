import KaworuOS.Proofs.PagingDestroy
import KaworuOS.Proofs.PagingRefines

/-!
# Destroying a page table with mappings

The descriptor of a page has the same two low bits as that of a table, and the recursion of
`table_descriptor_destroy_recursive` ends one level too late: a frame that a page is mapped to is
gone through like a table and given back. This may even be a table of the tree. What can be said in
general is how often each frame is given back.
-/

namespace KaworuOS.Proofs
open Lib

/-- How often the frame `x` has been passed to `pmm_free`. -/
def timesFreed (x : Nat) (s : Mm) : Nat := s.log.released.count x

/-- Since the state `s₀` a table has been given back twice, or a frame that is no table once. -/
def Overfreed (T : Tree) (s₀ s : Mm) : Prop :=
  ∃ x, (T.IsTable x ∧ timesFreed x s₀ + 2 ≤ timesFreed x s) ∨
    (¬T.IsTable x ∧ timesFreed x s₀ + 1 ≤ timesFreed x s)

/-- A frame has been given back too often, or will have been: it is a table of `stack`, which are
given back in the end, and has been given back already. -/
def Doomed (T : Tree) (s₀ : Mm) (stack : List Nat) (s : Mm) : Prop :=
  Overfreed T s₀ s ∨ ∃ y ∈ stack, timesFreed y s₀ < timesFreed y s

/-- Between the two states frames have only been given back. -/
structure Later (s s' : Mm) : Prop where
  hhdm : s'.hhdm = s.hhdm
  freed : ∀ x, timesFreed x s ≤ timesFreed x s'

/-- Some page below the level `l` and the key `k` is mapped. -/
def LeafBelow (T : Tree) (l k : Nat) : Prop := ∃ p, T.leaf p ≠ none ∧ p / 512 ^ (4 - l) = k

/-- What is at or below the level `l` and the key `k` has been gone through: the tables `visited` and
the frames `extra` have been given back, and nothing else has been written. -/
structure Cleared (T : Tree) (l k : Nat) (s s' : Mm) (visited extra : List Nat) : Prop where
  freed : ∀ x, timesFreed x s + visited.count x + extra.count x ≤ timesFreed x s'
  tables : ∀ x, SubFrame T l k x → x ∈ visited
  leaves : LeafBelow T l k → extra ≠ []
  mem : ∀ y, IsFrame s.hhdm y → timesFreed y s' = timesFreed y s → SamePage s.hhdm s.mem s'.mem y

/-- The frame that an entry of a table leads to, be it that of a table or that of a page. -/
def childFrame (T : Tree) (l k i : Nat) : Option Nat :=
  if l < 3 then T.node (l + 1) (512 * k + i) else (T.leaf (512 * k + i)).map Leaf.pa

variable {s s' s'' s₀ s₁ : Mm} {hhdm root l k f g x y i : Nat} {T : Tree} {mem : Mem}
  {stack visited extra : List Nat}

lemma Later.refl (s : Mm) : Later s s := ⟨rfl, fun _ => le_refl _⟩

lemma Later.trans (h : Later s s') (h' : Later s' s'') : Later s s'' :=
  ⟨h'.hhdm.trans h.hhdm, fun x => (h.freed x).trans (h'.freed x)⟩

lemma Overfreed.later (h : Overfreed T s₀ s) (hl : Later s s') : Overfreed T s₀ s' := by
  obtain ⟨x, hx⟩ := h
  have h1 := hl.freed x
  rcases hx with ⟨ht, hx⟩ | ⟨ht, hx⟩
  · exact ⟨x, .inl ⟨ht, by omega⟩⟩
  · exact ⟨x, .inr ⟨ht, by omega⟩⟩

lemma Doomed.later (h : Doomed T s₀ stack s) (hl : Later s s') : Doomed T s₀ stack s' := by
  rcases h with h | ⟨y, hy, hlt⟩
  · exact .inl (h.later hl)
  · exact .inr ⟨y, hy, Nat.lt_of_lt_of_le hlt (hl.freed y)⟩

lemma pmmFree_ends (f : Nat) (s : Mm) : Call.Ends (fun _ _ => True) (pmmFree f) s (fun _ s' =>
    s'.hhdm = s.hhdm ∧ s'.log.released = f :: s.log.released ∧
      s'.mem = s.mem.store64 (wadd f s.hhdm) s.freeList) := by
  rw [pmmFree]
  by_cases haligned : isPageAligned f = true
  · rw [if_pos haligned]
    apply Call.ends_bind_ok (a := wadd f s.hhdm) rfl
    apply Call.ends_bind_ok (a := s.freeList) rfl
    apply (writeWord_ends _ _ s).bind
    rintro - s' rfl
    exact Call.ends_of_ok rfl ⟨rfl, rfl, rfl⟩
  · rw [if_neg haligned]
    exact Call.ends_of_error rfl trivial

lemma timesFreed_cons (h : s'.log.released = f :: s.log.released) (x : Nat) :
    timesFreed x s' = timesFreed x s + if f = x then 1 else 0 := by
  rw [timesFreed, h, List.count_cons, timesFreed]
  simp only [beq_iff_eq]

lemma Later.of_released (hhdm : s'.hhdm = s.hhdm) (h : s'.log.released = f :: s.log.released) : Later s s' := by
  refine ⟨hhdm, fun x => ?_⟩
  rw [timesFreed_cons h]
  exact Nat.le_add_right _ _

lemma Later.of_log (hhdm : s'.hhdm = s.hhdm) (h : s'.log = s.log) : Later s s' := by
  refine ⟨hhdm, fun x => ?_⟩
  rw [timesFreed, timesFreed, h]

lemma pmmVirtToPhys_ends (p : Nat) (s : Mm) : Call.Ends (fun _ _ => True) (pmmVirtToPhys p) s
    (fun r s' => s.hhdm ≤ p ∧ r = p - s.hhdm ∧ s' = s) := by
  rw [pmmVirtToPhys]
  apply Call.ends_bind_ok (a := s.hhdm) rfl
  by_cases hle : s.hhdm ≤ p
  · rw [if_pos hle]
    exact Call.ends_of_ok rfl ⟨hle, rfl, rfl⟩
  · rw [if_neg hle]
    exact Call.ends_of_error rfl trivial

-- a fact about going through 512 entries should not evaluate them
attribute [local irreducible] destroyTable

/-- One turn of the loop gives frames back and does nothing else to the log, whatever the memory
holds. -/
lemma destroyEntry_later {recurse : Nat → Kernel Unit}
    (hrec : ∀ p s, Call.Ends (fun _ _ => True) (recurse p) s (fun _ s' => Later s s')) (table i : Nat) (s : Mm) :
    Call.Ends (fun _ _ => True) (destroyEntry recurse table i) s (fun _ s' => Later s s') := by
  rw [destroyEntry]
  apply (readWord_ends _ s).bind
  rintro raw s₁ ⟨-, rfl⟩
  have hwrite : ∀ s₂, Later s₁ s₂ → Call.Ends (fun _ _ => True) (writeWord (descAddr table i) 0) s₂
      (fun _ s' => Later s₁ s') := by
    intro s₂ h₂
    apply (writeWord_ends _ _ s₂).mono
    rintro - s₃ rfl
    exact h₂.trans (Later.of_log rfl rfl)
  by_cases hvalid : TableDescriptor.isValid.get raw = 1
  · rw [if_pos hvalid]
    by_cases htable : TableDescriptor.isTable.get raw = 1
    · rw [if_pos htable]
      apply Call.ends_bind_ok rfl
      apply (hrec _ s₁).bind
      intro _ s₂ h₂
      exact hwrite s₂ h₂
    · rw [if_neg htable]
      exact hwrite s₁ (Later.refl s₁)
  · rw [if_neg hvalid]
    exact Call.ends_of_ok rfl (Later.refl s₁)

lemma destroyTable_later {recurse : Nat → Kernel Unit}
    (hrec : ∀ p s, Call.Ends (fun _ _ => True) (recurse p) s (fun _ s' => Later s s')) (table : Nat) (s : Mm) :
    Call.Ends (fun _ _ => True) (destroyTable recurse table) s
      (fun _ s' => Later s s' ∧ (table = f + s.hhdm → timesFreed f s < timesFreed f s')) := by
  rw [destroyTable]
  generalize List.range 512 = entries
  have hloop : Call.Ends (fun _ _ => True) (Call.each (destroyEntry recurse table) entries) s
      (fun _ s' => Later s s') := by
    apply Call.ends_each (fun _ s' => Later s s') _ _ s (Later.refl s)
    intro i _ s₁ h₁
    exact (destroyEntry_later hrec table i s₁).mono (fun _ _ h₂ => h₁.trans h₂)
  apply hloop.bind
  intro _ s₁ h₁
  apply (pmmVirtToPhys_ends table s₁).bind
  rintro pa s₂ ⟨-, rfl, rfl⟩
  apply (pmmFree_ends _ s₂).mono
  rintro - s₃ ⟨hhdm₃, hlog, -⟩
  refine ⟨h₁.trans (Later.of_released hhdm₃ hlog), ?_⟩
  rintro rfl
  have h2 := h₁.freed f
  rw [timesFreed_cons hlog, h₁.hhdm, Nat.add_sub_cancel, if_pos rfl]
  omega

lemma destroyRecursive_later (d table : Nat) (s : Mm) :
    Call.Ends (fun _ _ => True) (tableDescriptorDestroyRecursive d table) s (fun _ s' => Later s s') := by
  induction d generalizing table s with
  | zero =>
    have hstop : ∀ (p : Nat) (s : Mm), Call.Ends (fun _ _ => True) (return () : Kernel Unit) s
        (fun _ s' => Later s s') := fun _ s => Call.ends_of_ok rfl (Later.refl s)
    have h := destroyTable_later (f := 0) hstop table s
    exact h.mono (fun _ _ h => h.1)
  | succ d ih =>
    have h := destroyTable_later (f := 0) ih table s
    exact h.mono (fun _ _ h => h.1)

lemma samePage_store_page (mem : Mem) {table v : Nat} (hy : IsFrame hhdm y) (hgood : hhdm % 4096 = 0)
    (haligned : table % 4096 = 0) (hne : y + hhdm ≠ table) (hi : i < 512) :
    SamePage hhdm mem (mem.store64 (table + 8 * i) v) y := by
  have h1 := hy.aligned
  exact Mem.store64_eqOn mem (by omega)

/-- The recursion at the level of the pages: the frame of a page is gone through as if it were a
table, and given back. -/
lemma destroyLeaf_ends {pa : Nat} (hgood : GoodHhdm s.hhdm) (hbound : s.hhdm < 2 ^ 64) (haligned : pa % 4096 = 0)
    (hpa : pa < 2 ^ 48) :
    Call.Ends (fun _ _ => True) (tableDescriptorDestroyRecursive 0 (wadd pa s.hhdm)) s (fun _ s' =>
      s'.hhdm = s.hhdm ∧ s'.log.released = pa :: s.log.released ∧
        ∀ y, IsFrame s.hhdm y → y ≠ pa → SamePage s.hhdm s.mem s'.mem y) := by
  have hal := hgood.aligned
  have htal : wadd pa s.hhdm % 4096 = 0 := by
    unfold wadd wordSize
    omega
  have htlt : wadd pa s.hhdm < 2 ^ 64 := Nat.mod_lt _ (by decide)
  have hwrap : s.hhdm ≤ wadd pa s.hhdm → wadd pa s.hhdm = pa + s.hhdm := by
    unfold wadd wordSize
    omega
  generalize wadd pa s.hhdm = table at htal htlt hwrap
  let Kept (s' : Mm) : Prop := s'.hhdm = s.hhdm ∧ s'.log = s.log ∧
    ∀ y, IsFrame s.hhdm y → y + s.hhdm ≠ table → SamePage s.hhdm s.mem s'.mem y
  have hstore : ∀ s' i v, i < 512 → Kept s' → Kept { s' with mem := s'.mem.store64 (table + 8 * i) v } := by
    rintro s' i v hi ⟨h1, h2, h3⟩
    exact ⟨h1, h2, fun y hy hne => (h3 y hy hne).trans (samePage_store_page _ hy hal htal hne hi)⟩
  have hentry : ∀ s' i, i < 512 → Kept s' →
      Call.Ends (fun _ _ => True) (destroyEntry (fun _ => return ()) table i) s' (fun _ s' => Kept s') := by
    intro s' i hi hs'
    have haddr : descAddr table i = table + 8 * i := wadd_of_lt (by omega)
    have hwrite : Call.Ends (fun _ _ => True) (writeWord (table + 8 * i) 0) s' (fun _ s' => Kept s') := by
      apply (writeWord_ends _ _ s').mono
      rintro - s₂ rfl
      exact hstore s' i 0 hi hs'
    rw [destroyEntry, haddr]
    apply (readWord_ends _ s').bind
    rintro raw s₁ ⟨-, rfl⟩
    by_cases hvalid : TableDescriptor.isValid.get raw = 1
    · rw [if_pos hvalid]
      by_cases htable : TableDescriptor.isTable.get raw = 1
      · rw [if_pos htable]
        apply Call.ends_bind_ok rfl
        exact Call.ends_bind_ok rfl hwrite
      · rw [if_neg htable]
        exact hwrite
    · rw [if_neg hvalid]
      exact Call.ends_of_ok rfl hs'
  rw [tableDescriptorDestroyRecursive, destroyTable]
  have hloop : ∀ entries : List Nat, (∀ i ∈ entries, i < 512) →
      Call.Ends (fun _ _ => True) (Call.each (destroyEntry (fun _ => return ()) table) entries) s
        (fun _ s' => Kept s') := by
    intro entries hentries
    have hstart : Kept s := ⟨rfl, rfl, fun _ _ _ _ _ _ => rfl⟩
    apply (Call.ends_each (fun l s' => (∀ i ∈ l, i < 512) ∧ Kept s') _ entries s ⟨hentries, hstart⟩).mono
    · exact fun _ _ h => h.2
    · rintro i l s' ⟨hl, hs'⟩
      apply (hentry s' i (hl i (by simp)) hs').mono
      exact fun _ _ h => ⟨fun j hj => hl j (by simp [hj]), h⟩
  have hrange : ∀ i ∈ List.range 512, i < 512 := fun i hi => List.mem_range.mp hi
  generalize List.range 512 = entries at hrange
  apply (hloop entries hrange).bind
  rintro - s₁ ⟨h1, h2, h3⟩
  apply (pmmVirtToPhys_ends table s₁).bind
  rintro r s₂ ⟨hle, rfl, rfl⟩
  rw [h1] at hle ⊢
  obtain rfl := hwrap hle
  rw [Nat.add_sub_cancel]
  apply (pmmFree_ends pa s₂).mono
  rintro - s₃ ⟨hhdm₃, hlog₃, hmem₃⟩
  refine ⟨hhdm₃.trans h1, by rw [hlog₃, h2], ?_⟩
  intro y hy hne
  have hstored := samePage_store_page (v := s₂.freeList) (i := 0) s₂.mem hy hal htal (by omega) (by omega)
  rw [hmem₃, h1, wadd_of_lt htlt]
  exact (h3 y hy (by omega)).trans hstored

lemma TreeRep.childFrame_entry (h : TreeRep hhdm mem root T) (hf : T.node l k = some f) (hi : i < 512) :
    (childFrame T l k i = none → TableDescriptor.isValid.get (mem.load64 (f + hhdm + 8 * i)) ≠ 1) ∧
    ∀ g, childFrame T l k i = some g →
      TableDescriptor.isValid.get (mem.load64 (f + hhdm + 8 * i)) = 1 ∧
      TableDescriptor.isTable.get (mem.load64 (f + hhdm + 8 * i)) = 1 ∧
      pageDescToPa (TableDescriptor.nextLevelAddress.get (mem.load64 (f + hhdm + 8 * i))) = g ∧
      g % 4096 = 0 ∧ g < 2 ^ 48 := by
  have hdiv : (512 * k + i) / 512 = k := by omega
  have hmod : (512 * k + i) % 512 = i := by omega
  unfold childFrame
  by_cases hl : l < 3
  · have hentry := h.entry (k := 512 * k + i) hl (by rw [hdiv]; exact hf)
    rw [hmod] at hentry
    rw [if_pos hl, hentry]
    constructor
    · intro hnone
      rw [hnone]
      exact not_isValid_zero
    · intro g hg
      have hframe := h.frame hg
      rw [hg]
      exact ⟨tableEntry_isValid g, tableEntry_isTable g, tableEntry_next hframe.aligned hframe.bound,
        hframe.aligned, hframe.bound⟩
  · obtain rfl : l = 3 := by
      have h1 := (h.bound hf).1
      omega
    have hentry := h.leafEntry (p := 512 * k + i) (by rw [hdiv]; exact hf)
    rw [hmod] at hentry
    rw [if_neg hl, hentry]
    constructor
    · intro hnone
      rw [Option.map_eq_none_iff.mp hnone]
      exact not_isValid_zero
    · intro g hg
      obtain ⟨leaf, hleaf, rfl⟩ := Option.map_eq_some_iff.mp hg
      obtain ⟨haligned, hbound⟩ := h.leafFrame hleaf
      rw [hleaf]
      -- the fields of a page descriptor that are read as those of a table descriptor
      exact ⟨pageEntry_isValid _ _ _, pageEntry_isPage _ _ _, pageEntry_output _ _ haligned hbound,
        haligned, hbound⟩

lemma TreeRep.childFrame_none (h : TreeRep hhdm mem root T) (hf : T.node l k = some f)
    (hnone : childFrame T l k i = none) :
    (∀ x, ¬SubFrame T (l + 1) (512 * k + i) x) ∧ ¬LeafBelow T (l + 1) (512 * k + i) := by
  unfold childFrame at hnone
  by_cases hl : l < 3
  · rw [if_pos hl] at hnone
    refine ⟨fun x => h.subFrame_none hnone, ?_⟩
    rintro ⟨p, hp, hkey⟩
    obtain ⟨leaf, hleaf⟩ := Option.ne_none_iff_exists'.mp hp
    obtain ⟨f₃, h₃⟩ := h.leafTable hleaf
    have hanc := h.ancestor (l := l + 1) (3 - (l + 1)) (k := p / 512) (x := f₃) (by
      rw [show l + 1 + (3 - (l + 1)) = 3 by omega]
      exact h₃)
    have hpow : 512 * 512 ^ (3 - (l + 1)) = 512 ^ (4 - (l + 1)) := by
      rw [← pow_succ']
      congr 1
      omega
    rw [Nat.div_div_eq_div_mul, hpow, hkey] at hanc
    exact hanc hnone
  · obtain rfl : l = 3 := by
      have h1 := (h.bound hf).1
      omega
    rw [if_neg hl] at hnone
    constructor
    · rintro x ⟨l', k', hl', -, hx⟩
      have h1 := (h.bound hx).1
      omega
    · rintro ⟨p, hp, hkey⟩
      obtain rfl : p = 512 * k + i := by simpa using hkey
      exact hp (Option.map_eq_none_iff.mp hnone)

lemma LeafBelow.child (h : LeafBelow T l k) (hl : l ≤ 3) : ∃ i < 512, LeafBelow T (l + 1) (512 * k + i) := by
  obtain ⟨p, hp, hkey⟩ := h
  have hpow : 512 ^ (4 - l) = 512 ^ (4 - (l + 1)) * 512 := by
    rw [← pow_succ]
    congr 1
    omega
  rw [hpow, ← Nat.div_div_eq_div_mul] at hkey
  refine ⟨p / 512 ^ (4 - (l + 1)) % 512, by omega, p, hp, ?_⟩
  omega

/-- The entries below `i` of the table `f` have been gone through. -/
structure Midway (mem₀ : Mem) (T : Tree) (l k f i : Nat) (s s' : Mm) (visited extra : List Nat) : Prop where
  freed : ∀ x, timesFreed x s + visited.count x + extra.count x ≤ timesFreed x s'
  tables : ∀ j < i, ∀ x, SubFrame T (l + 1) (512 * k + j) x → x ∈ visited
  leaves : ∀ j < i, LeafBelow T (l + 1) (512 * k + j) → extra ≠ []
  mem : ∀ y, IsFrame s.hhdm y → y ≠ f → timesFreed y s' = timesFreed y s → SamePage s.hhdm s.mem s'.mem y
  rest : ∀ j, i ≤ j → j < 512 → s'.mem.load64 (f + s.hhdm + 8 * j) = mem₀.load64 (f + s.hhdm + 8 * j)

section OneTable

variable {recurse : Nat → Kernel Unit}
  (hT : TreeRep s.hhdm mem root T) (hf : T.node l k = some f) (hstart : Later s₀ s)
  (hsame : ∀ x, SubFrame T l k x → timesFreed x s = timesFreed x s₀ → SamePage s.hhdm mem s.mem x)
  (hrec : ∀ {i g s₁}, i < 512 → childFrame T l k i = some g → Later s s₁ →
    (∀ x, SubFrame T (l + 1) (512 * k + i) x → timesFreed x s₁ = timesFreed x s₀ →
      SamePage s.hhdm mem s₁.mem x) →
    Call.Ends (fun _ _ => True) (recurse (wadd g s.hhdm)) s₁ (fun _ s₂ => Later s₁ s₂ ∧
      (Doomed T s₀ (f :: stack) s₂ ∨ ∃ visited extra, Cleared T (l + 1) (512 * k + i) s₁ s₂ visited extra)))
include hT hf hstart hsame hrec

lemma Midway.entry (hi : i < 512) (hl : Later s s₁) (h : Midway mem T l k f i s s₁ visited extra) :
    Call.Ends (fun _ _ => True) (destroyEntry recurse (f + s.hhdm) i) s₁ (fun _ s₂ => Later s s₂ ∧
      (Doomed T s₀ (f :: stack) s₂ ∨ ∃ visited extra, Midway mem T l k f (i + 1) s s₂ visited extra)) := by
  have hframe := hT.frame hf
  have haddr : descAddr (f + s.hhdm) i = f + s.hhdm + 8 * i := hframe.descAddr_eq hi
  obtain ⟨hinvalid, hvalid⟩ := hT.childFrame_entry hf hi
  rw [destroyEntry, haddr]
  apply (readWord_ends _ s₁).bind
  rintro raw s' ⟨hraw, rfl⟩
  rw [h.rest i (le_refl i) hi] at hraw
  cases hchild : childFrame T l k i with
  | none =>
    rw [hraw, if_neg (hinvalid hchild)]
    obtain ⟨hnone, hno⟩ := hT.childFrame_none hf hchild
    refine Call.ends_of_ok rfl ⟨hl, .inr ⟨visited, extra, h.freed, ?_, ?_, h.mem, fun j hj => h.rest j (by omega)⟩⟩
    · intro j hj x hx
      by_cases hji : j = i
      · exact absurd (hji ▸ hx) (hnone x)
      · exact h.tables j (by omega) x hx
    · intro j hj hx
      by_cases hji : j = i
      · exact absurd (hji ▸ hx) hno
      · exact h.leaves j (by omega) hx
  | some g =>
    obtain ⟨h1, h2, h3, h4, h5⟩ := hvalid g hchild
    rw [hraw, if_pos h1, if_pos h2, h3]
    have hnext : pmmPhysToVirt g s' = (.ok (wadd g s.hhdm), s') := by
      rw [← hl.hhdm]
      rfl
    apply Call.ends_bind_ok hnext
    -- what hangs below this entry has not been touched unless it has been given back
    have hsub : ∀ x, SubFrame T (l + 1) (512 * k + i) x → timesFreed x s' = timesFreed x s₀ →
        SamePage s.hhdm mem s'.mem x := by
      intro x hx heq
      have hs := hstart.freed x
      have hs' := hl.freed x
      have hne : x ≠ f := by
        rintro rfl
        exact hT.not_subFrame_self hf hx
      have hold := hsame x ((TreeRep.subFrame_iff hf).mpr (.inr ⟨i, hi, hx⟩)) (by omega)
      exact hold.trans (h.mem x (hT.subFrame_frame hx) hne (by omega))
    apply (hrec hi hchild hl hsub).bind
    rintro - s₂ ⟨hl₂, hout⟩
    apply (writeWord_ends _ _ s₂).mono
    rintro - s₃ rfl
    have hl₃ : Later s₂ { s₂ with mem := s₂.mem.store64 (f + s.hhdm + 8 * i) 0 } := Later.of_log rfl rfl
    refine ⟨(hl.trans hl₂).trans hl₃, ?_⟩
    rcases hout with hdoomed | ⟨visited', extra', hc⟩
    · exact .inl (hdoomed.later hl₃)
    have hf₀ := hstart.freed f
    have hf₁ := hl.freed f
    have hf₂ := hl₂.freed f
    by_cases hself : timesFreed f s₀ < timesFreed f s₂
    · exact .inl (.inr ⟨f, by simp, hself⟩)
    right
    have hhdm' := hl.hhdm
    have hfpage : SamePage s.hhdm s'.mem s₂.mem f := by
      rw [← hhdm']
      exact hc.mem f (by rw [hhdm']; exact hframe) (by omega)
    refine ⟨visited' ++ visited, extra' ++ extra, ?_, ?_, ?_, ?_, ?_⟩
    · intro x
      have hx₁ := h.freed x
      have hx₂ := hc.freed x
      have hx₃ := hl₃.freed x
      rw [List.count_append, List.count_append]
      omega
    · intro j hj x hx
      rw [List.mem_append]
      by_cases hji : j = i
      · exact .inl (hc.tables x (hji ▸ hx))
      · exact .inr (h.tables j (by omega) x hx)
    · intro j hj hx hnil
      obtain ⟨hnil₁, hnil₂⟩ := List.append_eq_nil_iff.mp hnil
      by_cases hji : j = i
      · exact hc.leaves (hji ▸ hx) hnil₁
      · exact h.leaves j (by omega) hx hnil₂
    · intro y hy hne heq
      have hy₁ := hl.freed y
      have hy₂ := hl₂.freed y
      have hy₃ := hl₃.freed y
      have hc₂ := hc.mem y (by rw [hhdm']; exact hy) (by omega)
      rw [hhdm'] at hc₂
      exact ((h.mem y hy hne (by omega)).trans hc₂).trans (samePage_store _ hy hframe hne hi)
    · intro j hij hj
      show (s₂.mem.store64 _ _).load64 _ = _
      rw [load_store_entry _ hframe hframe hj hi (by decide), if_neg (by omega),
        Mem.load64_congr (hfpage.mono (by omega) (by omega))]
      exact h.rest j (by omega) hj

variable (hlater : ∀ p s, Call.Ends (fun _ _ => True) (recurse p) s (fun _ s' => Later s s'))
include hlater

lemma Midway.entries {n : Nat} (hn : i + n = 512) (hl : Later s s₁)
    (h : Doomed T s₀ (f :: stack) s₁ ∨ ∃ visited extra, Midway mem T l k f i s s₁ visited extra) :
    Call.Ends (fun _ _ => True) (Call.each (destroyEntry recurse (f + s.hhdm)) (List.range' i n)) s₁
      (fun _ s₂ => Later s s₂ ∧
        (Doomed T s₀ (f :: stack) s₂ ∨ ∃ visited extra, Midway mem T l k f 512 s s₂ visited extra)) := by
  induction n generalizing i s₁ with
  | zero =>
    obtain rfl : i = 512 := by omega
    exact Call.ends_of_ok rfl ⟨hl, h⟩
  | succ n ih =>
    rw [List.range'_succ, Call.each]
    have hstep : Call.Ends (fun _ _ => True) (destroyEntry recurse (f + s.hhdm) i) s₁ (fun _ s₂ => Later s s₂ ∧
        (Doomed T s₀ (f :: stack) s₂ ∨ ∃ visited extra, Midway mem T l k f (i + 1) s s₂ visited extra)) := by
      rcases h with hdoomed | ⟨visited, extra, h⟩
      · apply (destroyEntry_later hlater (f + s.hhdm) i s₁).mono
        exact fun _ s₂ hl₂ => ⟨hl.trans hl₂, .inl (hdoomed.later hl₂)⟩
      · exact h.entry hT hf hstart hsame hrec (by omega) hl
    apply hstep.bind
    rintro - s₂ ⟨hl₂, h₂⟩
    exact ih (by omega) hl₂ h₂

lemma destroyTable_clears :
    Call.Ends (fun _ _ => True) (destroyTable recurse (f + s.hhdm)) s (fun _ s' => Later s s' ∧
      (Doomed T s₀ stack s' ∨ ∃ visited extra, Cleared T l k s s' visited extra)) := by
  have hframe := hT.frame hf
  have htable : T.IsTable f := ⟨l, k, hf⟩
  have hf₀ := hstart.freed f
  by_cases hfresh : timesFreed f s = timesFreed f s₀
  case neg =>
    -- the table has been given back before, so this is the second time
    apply (destroyTable_later (f := f) hlater (f + s.hhdm) s).mono
    rintro - s' ⟨hl, hfree⟩
    have hlt := hfree rfl
    exact ⟨hl, .inl (.inl ⟨f, .inl ⟨htable, by omega⟩⟩)⟩
  have hpage := hsame f ((TreeRep.subFrame_iff hf).mpr (.inl rfl)) hfresh
  have hzero : Midway mem T l k f 0 s s [] [] := by
    refine ⟨by simp, by simp, by simp, fun _ _ _ _ _ _ _ => rfl, ?_⟩
    intro j _ hj
    exact Mem.load64_congr (hpage.mono (b := f + s.hhdm + 8 * j) (k := 8) (by omega) (by omega))
  have hloop := Midway.entries (n := 512) hT hf hstart hsame hrec hlater (by omega) (Later.refl s)
    (.inr ⟨[], [], hzero⟩)
  rw [destroyTable, List.range_eq_range']
  generalize List.range' 0 512 = entries at hloop
  apply hloop.bind
  rintro - s₁ ⟨hl, hout⟩
  apply Call.ends_bind_ok (pmmVirtToPhys_ok hl.hhdm)
  apply (pmmFree_ends f s₁).mono
  rintro - s₂ ⟨hhdm₂, hlog₂, hmem₂⟩
  have hl₂ : Later s₁ s₂ := Later.of_released hhdm₂ hlog₂
  have hcount : ∀ x, timesFreed x s₂ = timesFreed x s₁ + if f = x then 1 else 0 := timesFreed_cons hlog₂
  have hf₁ := hl.freed f
  have hf₂ := hcount f
  rw [if_pos rfl] at hf₂
  refine ⟨hl.trans hl₂, ?_⟩
  rcases hout with (hover | ⟨y, hy, hlt⟩) | ⟨visited, extra, h⟩
  · exact .inl (.inl (hover.later hl₂))
  · left
    rcases List.mem_cons.mp hy with rfl | hy
    · exact .inl ⟨y, .inl ⟨htable, by omega⟩⟩
    · exact .inr ⟨y, hy, Nat.lt_of_lt_of_le hlt (hl₂.freed y)⟩
  · right
    refine ⟨f :: visited, extra, ?_, ?_, ?_, ?_⟩
    · intro x
      have hx := h.freed x
      rw [hcount, List.count_cons]
      simp only [beq_iff_eq]
      omega
    · intro x hx
      rcases (TreeRep.subFrame_iff hf).mp hx with rfl | ⟨j, hj, hx⟩
      · exact List.mem_cons_self
      · exact List.mem_cons_of_mem _ (h.tables j hj x hx)
    · intro hleaf
      obtain ⟨j, hj, hleaf⟩ := hleaf.child (hT.bound hf).1
      exact h.leaves j hj hleaf
    · intro y hy heq
      have hy₁ := hl.freed y
      have hy₂ := hl₂.freed y
      have hne : y ≠ f := by
        rintro rfl
        omega
      have htop := hframe.top
      have hstore : SamePage s.hhdm s₁.mem (s₁.mem.store64 (f + s.hhdm + 8 * 0) s₁.freeList) y :=
        samePage_store _ hy hframe hne (by omega)
      rw [hmem₂, hl.hhdm, wadd_of_lt (by omega)]
      exact (h.mem y hy hne (by omega)).trans hstore

end OneTable

lemma destroyRecursive_clears (stack : List Nat) (d : Nat) (hT : TreeRep hhdm mem root T) (hgood : GoodHhdm hhdm)
    (hbound : hhdm < 2 ^ 64)
    (hd : l + d = 4) (hs : s.hhdm = hhdm) (hf : T.node l k = some f) (hstart : Later s₀ s)
    (hsame : ∀ x, SubFrame T l k x → timesFreed x s = timesFreed x s₀ → SamePage hhdm mem s.mem x) :
    Call.Ends (fun _ _ => True) (tableDescriptorDestroyRecursive d (f + hhdm)) s (fun _ s' => Later s s' ∧
      (Doomed T s₀ stack s' ∨ ∃ visited extra, Cleared T l k s s' visited extra)) := by
  induction d generalizing l k f s stack with
  | zero =>
    have h1 := (hT.bound hf).1
    omega
  | succ d ih =>
    subst hs
    apply destroyTable_clears hT hf hstart hsame ?_ (destroyRecursive_later d)
    intro i g s₁ hi hchild hl hsub
    unfold childFrame at hchild
    by_cases hlevel : l < 3
    · rw [if_pos hlevel] at hchild
      have htop := (hT.frame hchild).top
      rw [wadd_of_lt (by omega)]
      exact ih _ (by omega) hl.hhdm hchild (hstart.trans hl) hsub
    · -- the entry is that of a page, and the recursion goes on into its frame
      rw [if_neg hlevel] at hchild
      obtain ⟨leaf, hleaf, rfl⟩ := Option.map_eq_some_iff.mp hchild
      obtain ⟨haligned, hpa⟩ := hT.leafFrame hleaf
      obtain rfl : d = 0 := by
        have h1 := (hT.bound hf).1
        omega
      have hdestroy := destroyLeaf_ends (s := s₁) (by rw [hl.hhdm]; exact hgood) (by rw [hl.hhdm]; exact hbound)
        haligned hpa
      rw [hl.hhdm] at hdestroy
      apply hdestroy.mono
      rintro - s₂ ⟨hhdm₂, hlog₂, hmem₂⟩
      have hl₂ : Later s₁ s₂ := Later.of_released (hhdm₂.trans hl.hhdm.symm) hlog₂
      refine ⟨hl₂, .inr ⟨[], [leaf.pa], ?_, ?_, by simp, ?_⟩⟩
      · intro x
        rw [timesFreed_cons hlog₂, List.count_singleton, List.count_nil]
        simp only [beq_iff_eq]
        omega
      · rintro x ⟨l', k', hl', -, hx⟩
        have h1 := (hT.bound hx).1
        omega
      · intro y hy heq
        rw [hl.hhdm] at hy ⊢
        apply hmem₂ y hy
        rintro rfl
        rw [timesFreed_cons hlog₂, if_pos rfl] at heq
        omega

lemma TableInv.destroy_overfrees {free : List Nat} {p : Nat} (h : TableInv s root T free) (hp : T.leaf p ≠ none) :
    Call.Ends (fun _ _ => True) (pagingDestroyTable (root + s.hhdm)) s (fun _ s' => Overfreed T s s') := by
  have htop := (h.frame h.tree.root).top
  have hclear := destroyRecursive_clears [] 4 h.tree h.pmm.good (by omega) (by omega) rfl h.tree.root
    (Later.refl s) (fun _ _ _ _ _ _ => rfl)
  apply hclear.mono
  rintro - s' ⟨-, (hover | ⟨y, hy, -⟩) | ⟨visited, extra, hc⟩⟩
  · exact hover
  · cases hy
  · obtain ⟨leaf, hleaf⟩ := Option.ne_none_iff_exists'.mp hp
    obtain ⟨f₃, h₃⟩ := h.tree.leafTable hleaf
    have hbelow : LeafBelow T 0 0 := by
      refine ⟨p, hp, Nat.div_eq_of_lt ?_⟩
      have h1 := (h.tree.bound h₃).2
      omega
    obtain ⟨y, rest, rfl⟩ := List.exists_cons_of_ne_nil (hc.leaves hbelow)
    have hy := hc.freed y
    rw [List.count_cons_self] at hy
    -- every table has been given back for itself, and `y` once more
    by_cases ht : T.IsTable y
    · have hv := List.count_pos_iff.mpr (hc.tables y (h.tree.isTable_iff.mp ht))
      exact ⟨y, .inl ⟨ht, by omega⟩⟩
    · exact ⟨y, .inr ⟨ht, by omega⟩⟩

/-- Destroying the table passes the frame of each of its tables to `pmm_free` once, no other frame, and
writes in no other frame. -/
def DestroysTablesOnly (s : Mm) (root : Nat) (T : Tree) : Prop :=
  ∃ s' freed, pagingDestroyTable (root + s.hhdm) s = (.ok (), s') ∧
    s'.log.released = freed ++ s.log.released ∧ freed.Nodup ∧ (∀ x, x ∈ freed ↔ T.IsTable x) ∧
    ∀ x, (∀ f, T.IsTable f → ¬InPage s.hhdm f x) → s'.mem x = s.mem x

lemma TableInv.not_destroysTablesOnly {free : List Nat} {p : Nat} (h : TableInv s root T free)
    (hp : T.leaf p ≠ none) : ¬DestroysTablesOnly s root T := by
  rintro ⟨s', freed, hrun, hlog, hnodup, hmem, -⟩
  obtain ⟨x, hx⟩ := (h.destroy_overfrees hp).ok hrun
  have hcount : timesFreed x s' = freed.count x + timesFreed x s := by
    rw [timesFreed, hlog, List.count_append, timesFreed]
  rcases hx with ⟨-, hx⟩ | ⟨ht, hx⟩
  · have h1 := List.nodup_iff_count_le_one.mp hnodup x
    omega
  · have h1 := List.count_eq_zero.mpr (fun hin => ht ((hmem x).mp hin))
    omega

/-- A table that a run of `paging_map` and `paging_unmap` has built is destroyed as it should exactly if
no page is mapped any more. -/
theorem paging_destroy_iff_unmapped {s₁ : Mm} {free₀ : List Nat} {table base : Nat}
    (hpmm : PmmInv s₀ free₀) (hcreate : pagingCreateTable s₀ = (.ok table, s₁)) (hbase : IsHalf base)
    {ops : List PagingOp} (hops : ∀ op ∈ ops, op.InHalf base)
    (hrun : PagingOp.runAll table ops s₁ = (.ok (), s)) (hnever : s.log.failed = s₀.log.failed) :
    ∃ root T free, table = root + s.hhdm ∧ TableInv s root T free ∧
      (DestroysTablesOnly s root T ↔ ∀ p, ops.foldl PagingOp.apply (fun _ => none) p = none) := by
  obtain ⟨root, T, free, htable, hT, hleaf⟩ := created_run_inv hpmm hcreate hbase hops hrun hnever
  refine ⟨root, T, free, htable, hT, ?_⟩
  rw [← hleaf]
  constructor
  · intro honly p
    by_contra hp
    exact hT.not_destroysTablesOnly hp honly
  · intro hnone
    obtain ⟨s', freed, hrun, hfreed, hmem, hsame⟩ := hT.destroy hnone
    refine ⟨s', freed, hrun, by rw [hfreed.log], (List.nodup_append.mp hfreed.pmm.nodup).1, hmem, ?_⟩
    intro x hx
    exact hsame (fun f hf => hx f ((hmem f).mp hf))

/-- A table whose only page has been unmapped again. -/
theorem paging_destroy_unmapped_page :
    ∃ s root T free, PagingOp.runAll 0x101000 [.map 0x400000 0x80000 0x1000 userAttrs, .unmap 0x400000 0x1000]
        (createTable (bootMm 0x100000 [0x1000, 0x2000, 0x3000, 0x4000]) 0x1000) = (.ok (), s) ∧
      TableInv s root T free ∧ DestroysTablesOnly s root T := by
  let s₀ := bootMm 0x100000 [0x1000, 0x2000, 0x3000, 0x4000]
  let ops : List PagingOp := [.map 0x400000 0x80000 0x1000 userAttrs, .unmap 0x400000 0x1000]
  have hpmm : PmmInv s₀ [0x1000, 0x2000, 0x3000, 0x4000] :=
    bootMm_inv ⟨by decide, by decide⟩ (by decide) (by decide)
  have hrun : PagingOp.runAll 0x101000 ops (createTable s₀ 0x1000) = (.ok (), _) :=
    Call.eq_of_fst (by decide +kernel)
  have hops : ∀ op ∈ ops, op.InHalf 0 := by
    intro op hop
    rcases List.mem_cons.mp hop with rfl | hop
    · exact ⟨by decide, by decide⟩
    · obtain rfl := List.mem_singleton.mp hop
      exact ⟨by decide, by decide⟩
  have hcreate : pagingCreateTable s₀ = (.ok 0x101000, createTable s₀ 0x1000) := by
    rw [pagingCreateTable_cons hpmm, bootMm_hhdm]
  obtain ⟨root, T, free, -, hT, hiff⟩ := paging_destroy_iff_unmapped hpmm hcreate (.inl rfl) hops hrun
    (by decide +kernel)
  refine ⟨_, root, T, free, hrun, hT, hiff.mpr ?_⟩
  intro p
  show unmapRange (mapRange (fun _ => none) 0x400 1 _ _) 0x400 1 p = none
  unfold unmapRange mapRange
  split
  · rfl
  · rfl

/-- A table with one page mapped: destroying it does not return, or gives some frame back too often. -/
theorem paging_destroy_frees_mapped_frame :
    ∃ s root T free, PagingOp.runAll 0x101000 [.map 0x400000 0x80000 0x1000 userAttrs]
        (createTable (bootMm 0x100000 [0x1000, 0x2000, 0x3000, 0x4000]) 0x1000) = (.ok (), s) ∧
      TableInv s root T free ∧ T.leaf 0x400 = some ⟨0x80000, userAttrs⟩ ∧
      (∀ s', pagingDestroyTable (root + s.hhdm) s = (.ok (), s') → Overfreed T s s') ∧
      ¬DestroysTablesOnly s root T := by
  let s₀ := bootMm 0x100000 [0x1000, 0x2000, 0x3000, 0x4000]
  let ops : List PagingOp := [.map 0x400000 0x80000 0x1000 userAttrs]
  have hpmm : PmmInv s₀ [0x1000, 0x2000, 0x3000, 0x4000] :=
    bootMm_inv ⟨by decide, by decide⟩ (by decide) (by decide)
  have hrun : PagingOp.runAll 0x101000 ops (createTable s₀ 0x1000) = (.ok (), _) :=
    Call.eq_of_fst (by decide +kernel)
  have hops : ∀ op ∈ ops, op.InHalf 0 := by
    intro op hop
    obtain rfl := List.mem_singleton.mp hop
    exact ⟨by decide, by decide⟩
  have hcreate : pagingCreateTable s₀ = (.ok 0x101000, createTable s₀ 0x1000) := by
    rw [pagingCreateTable_cons hpmm, bootMm_hhdm]
  obtain ⟨root, T, free, -, hT, hleaf⟩ := created_run_inv hpmm hcreate (.inl rfl) hops hrun (by decide +kernel)
  have hmapped : T.leaf 0x400 = some ⟨0x80000, userAttrs⟩ := by
    rw [hleaf]
    decide +kernel
  have hsome : T.leaf 0x400 ≠ none := by
    rw [hmapped]
    simp
  exact ⟨_, root, T, free, hrun, hT, hmapped, fun s' hok => (hT.destroy_overfrees hsome).ok hok,
    hT.not_destroysTablesOnly hsome⟩

end KaworuOS.Proofs
