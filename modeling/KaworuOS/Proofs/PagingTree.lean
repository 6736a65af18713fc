import KaworuOS.Paging
import KaworuOS.Proofs.Pmm

/-!
# A page table in memory as a tree of frames

`Tree` names the frame of every table by its level and its key, and the mapping of every page by
the page number. The key of a table is the page number of its pages without the bits below the
table, so a table with key `k` has the parent with key `k / 512` and stands in its entry `k % 512`.
`TreeRep` says that the memory holds exactly such a tree.
-/

namespace KaworuOS.Proofs
open Lib

/-- The mapping of one page. -/
structure Leaf where
  pa : Nat
  attrs : PageAttrs
  deriving DecidableEq, Repr

/-- The frames of the tables by level and key, and the mappings by page number. -/
structure Tree where
  node : Nat → Nat → Option Nat
  leaf : Nat → Option Leaf

/-- The descriptor of a table, or of no table. -/
def nodeRaw : Option Nat → Nat
  | none => 0
  | some f => tableEntry f

/-- The descriptor of a mapping, or of none. -/
def leafRaw : Option Leaf → Nat
  | none => 0
  | some l => pageEntry 0 l.pa l.attrs

/-- The memory holds the tree `T`, whose table of level 0 is the frame `root`. -/
structure TreeRep (hhdm : Nat) (mem : Mem) (root : Nat) (T : Tree) : Prop where
  root : T.node 0 0 = some root
  bound : ∀ {l k f}, T.node l k = some f → l ≤ 3 ∧ k < 512 ^ l
  frame : ∀ {l k f}, T.node l k = some f → IsFrame hhdm f
  inj : ∀ {l k l' k' f}, T.node l k = some f → T.node l' k' = some f → l = l' ∧ k = k'
  parent : ∀ {l k f}, T.node (l + 1) k = some f → ∃ g, T.node l (k / 512) = some g
  entry : ∀ {l k f}, l < 3 → T.node l (k / 512) = some f →
    mem.load64 (f + hhdm + 8 * (k % 512)) = nodeRaw (T.node (l + 1) k)
  leafEntry : ∀ {p f}, T.node 3 (p / 512) = some f →
    mem.load64 (f + hhdm + 8 * (p % 512)) = leafRaw (T.leaf p)
  leafTable : ∀ {p l}, T.leaf p = some l → ∃ f, T.node 3 (p / 512) = some f
  leafFrame : ∀ {p l}, T.leaf p = some l → l.pa % 4096 = 0 ∧ l.pa < 2 ^ 48

/-- The frame `f` holds a table of the tree. -/
def Tree.IsTable (T : Tree) (f : Nat) : Prop := ∃ l k, T.node l k = some f

/-- The tree with one more table. -/
def Tree.addNode (T : Tree) (l k f : Nat) : Tree :=
  { T with node := fun l' k' => if l' = l ∧ k' = k then some f else T.node l' k' }

/-- The tree with one mapping replaced. -/
def Tree.setLeaf (T : Tree) (p : Nat) (leaf : Option Leaf) : Tree :=
  { T with leaf := Function.update T.leaf p leaf }

section Descriptors

lemma tableEntry_lt (pa : Nat) : tableEntry pa < 2 ^ 64 :=
  BitField.set_lt (by decide) (by decide) _

lemma pageEntry_lt {raw : Nat} (h : raw < 2 ^ 64) (pa : Nat) (attrs : PageAttrs) :
    pageEntry raw pa attrs < 2 ^ 64 := by
  unfold pageEntry
  repeat apply BitField.set_lt (by decide)
  exact h

lemma leafRaw_lt (leaf : Option Leaf) : leafRaw leaf < 2 ^ 64 := by
  cases leaf with
  | none => exact Nat.two_pow_pos 64
  | some l => exact pageEntry_lt (Nat.two_pow_pos 64) _ _

lemma tableEntry_isValid (pa : Nat) : TableDescriptor.isValid.get (tableEntry pa) = 1 := by
  unfold tableEntry
  rw [BitField.get_set_of_disjoint (by decide), BitField.get_set_of_disjoint (by decide)]
  rfl

lemma tableEntry_isTable (pa : Nat) : TableDescriptor.isTable.get (tableEntry pa) = 1 := by
  unfold tableEntry
  rw [BitField.get_set_of_disjoint (by decide)]
  rfl

lemma pageDescToPa_paToPageDesc {pa : Nat} (haligned : pa % 4096 = 0) (h : pa < 2 ^ 48) :
    pageDescToPa (paToPageDesc pa % 2 ^ 36) = pa := by
  rw [pageDescToPa, paToPageDesc, Nat.shiftRight_eq_div_pow, Nat.shiftLeft_eq]
  omega

lemma tableEntry_next {pa : Nat} (haligned : pa % 4096 = 0) (h : pa < 2 ^ 48) :
    pageDescToPa (TableDescriptor.nextLevelAddress.get (tableEntry pa)) = pa := by
  unfold tableEntry
  rw [BitField.get_set_same]
  exact pageDescToPa_paToPageDesc haligned h

lemma not_isValid_zero : TableDescriptor.isValid.get 0 ≠ 1 := by decide

variable (raw pa : Nat) (attrs : PageAttrs)

lemma pageEntry_isValid : PageDescriptor.isValid.get (pageEntry raw pa attrs) = 1 := by
  unfold pageEntry
  simp (disch := decide) only [BitField.get_set_of_disjoint, BitField.get_set_same]
  rfl

lemma pageEntry_isPage : PageDescriptor.isPage.get (pageEntry raw pa attrs) = 1 := by
  unfold pageEntry
  simp (disch := decide) only [BitField.get_set_of_disjoint, BitField.get_set_same]
  rfl

lemma pageEntry_ap : PageDescriptor.ap.get (pageEntry raw pa attrs) = attrs.perms.code := by
  unfold pageEntry
  simp (disch := decide) only [BitField.get_set_of_disjoint, BitField.get_set_same]
  cases attrs.perms <;> rfl

lemma pageEntry_attrIndex :
    PageDescriptor.attrIndex.get (pageEntry raw pa attrs) = attrs.attrIndex := by
  unfold pageEntry
  simp (disch := decide) only [BitField.get_set_of_disjoint, BitField.get_set_same]
  exact Nat.mod_eq_of_lt attrs.attrIndex.isLt

lemma pageEntry_sh : PageDescriptor.sh.get (pageEntry raw pa attrs) = attrs.shareability.code := by
  unfold pageEntry
  simp (disch := decide) only [BitField.get_set_of_disjoint, BitField.get_set_same]
  cases attrs.shareability <;> rfl

lemma pageEntry_pxn :
    PageDescriptor.pxn.get (pageEntry raw pa attrs) = attrs.privilegeExecution.code := by
  unfold pageEntry
  simp (disch := decide) only [BitField.get_set_of_disjoint, BitField.get_set_same]
  cases attrs.privilegeExecution <;> rfl

lemma pageEntry_uxnXn :
    PageDescriptor.uxnXn.get (pageEntry raw pa attrs) = attrs.underprivilegeExecution.code := by
  unfold pageEntry
  rw [BitField.get_set_same]
  cases attrs.underprivilegeExecution <;> rfl

variable {pa}

lemma pageEntry_output (haligned : pa % 4096 = 0) (h : pa < 2 ^ 48) :
    pageDescToPa (PageDescriptor.outputAddress.get (pageEntry raw pa attrs)) = pa := by
  unfold pageEntry
  simp (disch := decide) only [BitField.get_set_of_disjoint, BitField.get_set_same]
  exact pageDescToPa_paToPageDesc haligned h

lemma attrs_pageEntry (pa : Nat) : PageDescriptor.attrs (pageEntry raw pa attrs) = attrs := by
  unfold PageDescriptor.attrs
  rw [pageEntry_ap, pageEntry_attrIndex, pageEntry_sh, pageEntry_pxn, pageEntry_uxnXn]
  obtain ⟨perms, idx, sh, pxn, uxn⟩ := attrs
  congr
  · cases perms <;> rfl
  · exact Fin.ofNat_val_eq_self idx
  · cases sh <;> rfl
  · cases pxn <;> rfl
  · cases uxn <;> rfl

end Descriptors

lemma leafRaw_isValid (leaf : Option Leaf) :
    PageDescriptor.isValid.get (leafRaw leaf) = 1 ↔ leaf ≠ none := by
  cases leaf with
  | none => simp [leafRaw, BitField.get_zero]
  | some l => simp [leafRaw, pageEntry_isValid]

section Memory

variable {hhdm f g i j v : Nat}

lemma IsFrame.descAddr_eq (hf : IsFrame hhdm f) (hi : i < 512) :
    descAddr (f + hhdm) i = f + hhdm + 8 * i := by
  have h1 := hf.top
  exact wadd_of_lt (by omega)

lemma IsFrame.not_isErr (hf : IsFrame hhdm f) (hg : hhdm % 4096 = 0) (hi : i < 512) :
    isErrValue (f + hhdm + 8 * i) = false := by
  have h1 := hf.top
  have h2 := hf.aligned
  apply not_isErrValue_of_lt
  omega

lemma load_store_entry (mem : Mem) (hf : IsFrame hhdm f) (hg : IsFrame hhdm g) (hi : i < 512)
    (hj : j < 512) (hv : v < 2 ^ 64) :
    (mem.store64 (g + hhdm + 8 * j) v).load64 (f + hhdm + 8 * i) =
      if f = g ∧ i = j then v else mem.load64 (f + hhdm + 8 * i) := by
  by_cases hsame : f = g ∧ i = j
  · obtain ⟨rfl, rfl⟩ := hsame
    rw [if_pos ⟨rfl, rfl⟩, Mem.load64_store64_same, Nat.mod_eq_of_lt hv]
  · rw [if_neg hsame]
    apply Mem.load64_store64_of_disjoint
    by_cases hfg : f = g
    · have hij : i ≠ j := fun h => hsame ⟨hfg, h⟩
      omega
    · have h1 := hf.apart hg hfg
      omega

lemma load_fill_entry (mem : Mem) (hf : IsFrame hhdm f) (hg : IsFrame hhdm g) (hi : i < 512) :
    (mem.fill (g + hhdm) 4096 0).load64 (f + hhdm + 8 * i) =
      if f = g then 0 else mem.load64 (f + hhdm + 8 * i) := by
  by_cases hfg : f = g
  · subst hfg
    rw [if_pos rfl]
    exact Mem.load64_fill_zero mem (by omega) (by omega)
  · rw [if_neg hfg]
    have h1 := hf.apart hg hfg
    exact Mem.load64_congr (Mem.fill_eqOn mem 0 (by omega))

end Memory

variable {hhdm root l k p f g : Nat} {mem mem' : Mem} {T : Tree}

@[simp] lemma Tree.addNode_same (T : Tree) (l k f : Nat) : (T.addNode l k f).node l k = some f := by
  simp [Tree.addNode]

lemma Tree.addNode_other (T : Tree) {l k l' k' : Nat} (f : Nat) (h : ¬(l' = l ∧ k' = k)) :
    (T.addNode l k f).node l' k' = T.node l' k' := by
  simp [Tree.addNode, h]

lemma TreeRep.congr (h : TreeRep hhdm mem root T)
    (hmem : ∀ f, T.IsTable f → SamePage hhdm mem mem' f) : TreeRep hhdm mem' root T := by
  have hload : ∀ {l k f i}, T.node l k = some f → i < 512 →
      mem'.load64 (f + hhdm + 8 * i) = mem.load64 (f + hhdm + 8 * i) := by
    intro l k f i hnode hi
    exact Mem.load64_congr ((hmem f ⟨l, k, hnode⟩).mono (by omega) (by omega))
  refine { h with entry := ?_, leafEntry := ?_ }
  · intro l k f hl hnode
    rw [hload hnode (by omega)]
    exact h.entry hl hnode
  · intro p f hnode
    rw [hload hnode (by omega)]
    exact h.leafEntry hnode

lemma TreeRep.child_none (h : TreeRep hhdm mem root T) (hnone : T.node l (k / 512) = none) :
    T.node (l + 1) k = none := by
  cases hk : T.node (l + 1) k with
  | none => rfl
  | some f =>
    obtain ⟨g, hg⟩ := h.parent hk
    rw [hnone] at hg
    cases hg

lemma TreeRep.leaf_none (h : TreeRep hhdm mem root T) (hnone : T.node 3 (p / 512) = none) :
    T.leaf p = none := by
  cases hp : T.leaf p with
  | none => rfl
  | some leaf =>
    obtain ⟨f, hf⟩ := h.leafTable hp
    rw [hnone] at hf
    cases hf

/-- The memory after a cleared frame has been entered as a new table. -/
def linkTable (hhdm : Nat) (mem : Mem) (f i g : Nat) : Mem :=
  (mem.fill (g + hhdm) 4096 0).store64 (f + hhdm + 8 * i) (tableEntry g)

lemma TreeRep.addNode (h : TreeRep hhdm mem root T) (hl : l < 3) (hk : k < 512 ^ (l + 1))
    (hf : T.node l (k / 512) = some f) (hnone : T.node (l + 1) k = none) (hg : IsFrame hhdm g)
    (hnew : ¬T.IsTable g) :
    TreeRep hhdm (linkTable hhdm mem f (k % 512) g) root (T.addNode (l + 1) k g) := by
  have hmod : k % 512 < 512 := Nat.mod_lt _ (by omega)
  have hne : ∀ {l' k' f'}, T.node l' k' = some f' → f' ≠ g := by
    rintro l' k' f' hnode rfl
    exact hnew ⟨l', k', hnode⟩
  -- an entry of an old table reads as before, unless it is the one that was written
  have hold : ∀ {l' k' f' i}, T.node l' k' = some f' → i < 512 →
      (linkTable hhdm mem f (k % 512) g).load64 (f' + hhdm + 8 * i) =
        if f' = f ∧ i = k % 512 then tableEntry g else mem.load64 (f' + hhdm + 8 * i) := by
    intro l' k' f' i hnode hi
    rw [linkTable, load_store_entry _ (h.frame hnode) (h.frame hf) hi hmod (tableEntry_lt g),
      load_fill_entry _ (h.frame hnode) hg hi, if_neg (hne hnode)]
  have hzero : ∀ {i}, i < 512 → (linkTable hhdm mem f (k % 512) g).load64 (g + hhdm + 8 * i) = 0 := by
    intro i hi
    rw [linkTable, load_store_entry _ hg (h.frame hf) hi hmod (tableEntry_lt g),
      if_neg (fun hc => hne hf hc.1.symm), load_fill_entry _ hg hg hi, if_pos rfl]
  have hcases : ∀ {l' k' f'}, (T.addNode (l + 1) k g).node l' k' = some f' →
      (l' = l + 1 ∧ k' = k ∧ f' = g) ∨ (¬(l' = l + 1 ∧ k' = k) ∧ T.node l' k' = some f') := by
    intro l' k' f' hnode
    by_cases hat : l' = l + 1 ∧ k' = k
    · obtain ⟨rfl, rfl⟩ := hat
      rw [Tree.addNode_same] at hnode
      exact .inl ⟨rfl, rfl, (Option.some.inj hnode).symm⟩
    · rw [Tree.addNode_other _ _ hat] at hnode
      exact .inr ⟨hat, hnode⟩
  constructor
  case root =>
    rw [Tree.addNode_other _ _ (by omega)]
    exact h.root
  case bound =>
    intro l' k' f' hnode
    rcases hcases hnode with ⟨rfl, rfl, -⟩ | ⟨-, hnode⟩
    · exact ⟨by omega, hk⟩
    · exact h.bound hnode
  case frame =>
    intro l' k' f' hnode
    rcases hcases hnode with ⟨-, -, rfl⟩ | ⟨-, hnode⟩
    · exact hg
    · exact h.frame hnode
  case inj =>
    intro l₁ k₁ l₂ k₂ f' h1 h2
    rcases hcases h1 with ⟨rfl, rfl, rfl⟩ | ⟨-, hold1⟩
    · rcases hcases h2 with ⟨rfl, rfl, -⟩ | ⟨-, hold2⟩
      · exact ⟨rfl, rfl⟩
      · exact absurd rfl (hne hold2)
    · rcases hcases h2 with ⟨-, -, rfl⟩ | ⟨-, hold2⟩
      · exact absurd rfl (hne hold1)
      · exact h.inj hold1 hold2
  case parent =>
    intro l' k' f' hnode
    have hpar : ∃ g', T.node l' (k' / 512) = some g' := by
      rcases hcases hnode with ⟨hl', rfl, -⟩ | ⟨-, hnode⟩
      · obtain rfl : l' = l := by omega
        exact ⟨f, hf⟩
      · exact h.parent hnode
    obtain ⟨g', hg'⟩ := hpar
    by_cases hat : l' = l + 1 ∧ k' / 512 = k
    · rw [hat.1, hat.2, Tree.addNode_same]
      exact ⟨g, rfl⟩
    · rw [Tree.addNode_other _ _ hat]
      exact ⟨g', hg'⟩
  case entry =>
    intro l' k' f' hl' hnode
    rcases hcases hnode with ⟨rfl, rfl, rfl⟩ | ⟨-, hn⟩
    · rw [hzero (by omega), Tree.addNode_other _ _ (by omega), h.child_none hnone]
      rfl
    · rw [hold hn (by omega)]
      by_cases hat : l' + 1 = l + 1 ∧ k' = k
      · obtain ⟨hl'', rfl⟩ := hat
        obtain rfl : l' = l := by omega
        have hff : f' = f := Option.some.inj (hn.symm.trans hf)
        rw [if_pos ⟨hff, rfl⟩, Tree.addNode_same]
        rfl
      · rw [Tree.addNode_other _ _ hat, if_neg]
        · exact h.entry hl' hn
        · rintro ⟨rfl, hi⟩
          obtain ⟨rfl, hk'⟩ := h.inj hn hf
          exact hat ⟨rfl, by omega⟩
  case leafEntry =>
    intro p f' hnode
    rcases hcases hnode with ⟨hl', rfl, rfl⟩ | ⟨-, hnode⟩
    · have hp : T.leaf p = none := by
        apply h.leaf_none
        rw [hl']
        exact hnone
      rw [hzero (by omega)]
      show 0 = leafRaw (T.leaf p)
      rw [hp]
      rfl
    · rw [hold hnode (by omega), if_neg]
      · exact h.leafEntry hnode
      · rintro ⟨rfl, -⟩
        have h1 := (h.inj hnode hf).1
        omega
  case leafTable =>
    intro p leaf hp
    obtain ⟨f', hf'⟩ := h.leafTable hp
    by_cases hat : 3 = l + 1 ∧ p / 512 = k
    · rw [hat.1, hat.2, Tree.addNode_same]
      exact ⟨g, rfl⟩
    · rw [Tree.addNode_other _ _ hat]
      exact ⟨f', hf'⟩
  case leafFrame => exact h.leafFrame

lemma TreeRep.setLeaf (h : TreeRep hhdm mem root T) (hf : T.node 3 (p / 512) = some f)
    {leaf : Option Leaf} (hleaf : ∀ l, leaf = some l → l.pa % 4096 = 0 ∧ l.pa < 2 ^ 48) :
    TreeRep hhdm (mem.store64 (f + hhdm + 8 * (p % 512)) (leafRaw leaf)) root (T.setLeaf p leaf) := by
  have hmod : p % 512 < 512 := Nat.mod_lt _ (by omega)
  have hload : ∀ {l' k' f' i}, T.node l' k' = some f' → i < 512 →
      (mem.store64 (f + hhdm + 8 * (p % 512)) (leafRaw leaf)).load64 (f' + hhdm + 8 * i) =
        if f' = f ∧ i = p % 512 then leafRaw leaf else mem.load64 (f' + hhdm + 8 * i) :=
    fun hnode hi => load_store_entry mem (h.frame hnode) (h.frame hf) hi hmod (leafRaw_lt leaf)
  constructor
  case root => exact h.root
  case bound => exact h.bound
  case frame => exact h.frame
  case inj => exact h.inj
  case parent => exact h.parent
  case entry =>
    intro l' k' f' hl' hnode
    rw [hload hnode (by omega), if_neg]
    · exact h.entry hl' hnode
    · rintro ⟨rfl, -⟩
      have h1 := (h.inj hnode hf).1
      omega
  case leafEntry =>
    intro q f' hnode
    rw [hload hnode (by omega)]
    show _ = leafRaw (Function.update T.leaf p leaf q)
    by_cases hq : q = p
    · subst hq
      have hff : f' = f := Option.some.inj (Eq.trans (Eq.symm hnode) hf)
      rw [if_pos ⟨hff, rfl⟩, Function.update_self]
    · rw [Function.update_of_ne hq, if_neg]
      · exact h.leafEntry hnode
      · rintro ⟨rfl, hi⟩
        have h1 := (h.inj hnode hf).2
        omega
  case leafTable =>
    intro q l' hq
    by_cases hqp : q = p
    · subst hqp
      exact ⟨f, hf⟩
    · have hq' : Function.update T.leaf p leaf q = some l' := hq
      rw [Function.update_of_ne hqp] at hq'
      exact h.leafTable hq'
  case leafFrame =>
    intro q l' hq
    have hq' : Function.update T.leaf p leaf q = some l' := hq
    by_cases hqp : q = p
    · subst hqp
      rw [Function.update_self] at hq'
      exact hleaf l' hq'
    · rw [Function.update_of_ne hqp] at hq'
      exact h.leafFrame hq'

end KaworuOS.Proofs
