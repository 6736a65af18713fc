import KaworuOS.IntrusiveList
import KaworuOS.Lib.DList

/-!
# Intrusive lists represent sequences

`Linked nodes il l` says that the list `il` holds the members `l` in this order. Every operation
of the sources is a plain operation on `l` and touches the nodes of its members only.
-/

namespace KaworuOS.Proofs
open Lib

/-- The links of a store of nodes. -/
abbrev NodeSeg (nodes : Nodes) : Nat → Nat → List Nat → Nat → Nat → Prop :=
  DSeg (fun p => (nodes p).next) (fun p => (nodes p).prev)

/-- The list `il` links exactly the nodes `l`, in this order. -/
structure Linked (nodes : Nodes) (il : IntrusiveList) (l : List Nat) : Prop where
  seg : NodeSeg nodes 0 il.head l il.tail 0
  count : il.count = l.length
  nodup : l.Nodup

/-- The two stores agree on the nodes outside of `l`. -/
def SameOutside (nodes nodes' : Nodes) (l : List Nat) : Prop := ∀ p, p ∉ l → nodes' p = nodes p

variable {nodes nodes' : Nodes} {il : IntrusiveList} {l l₁ l₂ : List Nat} {node : Nat}

lemma SameOutside.mono (h : SameOutside nodes nodes' l₁) (hsub : ∀ p ∈ l₁, p ∈ l₂) :
    SameOutside nodes nodes' l₂ :=
  fun p hp => h p (fun hin => hp (hsub p hin))

lemma Linked.congr (h : Linked nodes il l) (hs : ∀ p ∈ l, nodes' p = nodes p) : Linked nodes' il l :=
  ⟨h.seg.congr (fun y hy => by rw [hs y hy]) (fun y hy => by rw [hs y hy]), h.count, h.nodup⟩

lemma Linked.frame (h : Linked nodes il l₁) (hs : SameOutside nodes nodes' l₂)
    (hdisj : ∀ p ∈ l₁, p ∉ l₂) : Linked nodes' il l₁ :=
  h.congr (fun p hp => hs p (hdisj p hp))

lemma Linked.unique (h : Linked nodes il l₁) (h' : Linked nodes il l₂) : l₁ = l₂ :=
  h.seg.forward.unique h'.seg.forward

lemma Linked.ne_zero (h : Linked nodes il l) : ∀ p ∈ l, p ≠ 0 := h.seg.ne_zero

lemma Linked.head_eq_zero_iff (h : Linked nodes il l) : il.head = 0 ↔ l = [] := h.seg.first_eq_zero_iff

lemma Linked.tail_eq_zero_iff (h : Linked nodes il l) : il.tail = 0 ↔ l = [] := h.seg.last_eq_zero_iff

lemma Linked.isEmpty (h : Linked nodes il l) : intrusivelistIsEmpty il = true ↔ l = [] := by
  rw [intrusivelistIsEmpty, decide_eq_true_iff, h.count, List.length_eq_zero_iff]

lemma linked_init (nodes : Nodes) : Linked nodes intrusivelistInit [] := ⟨⟨rfl, rfl⟩, rfl, List.nodup_nil⟩

lemma Nodes.setNext_other {nodes : Nodes} {node v p : Nat} (h : p ≠ node) :
    nodes.setNext node v p = nodes p := by
  simp [Nodes.setNext, h]

lemma Nodes.setPrev_other {nodes : Nodes} {node v p : Nat} (h : p ≠ node) :
    nodes.setPrev node v p = nodes p := by
  simp [Nodes.setPrev, h]

lemma nodeInit_same (nodes : Nodes) (node : Nat) : intrusivelistNodeInit nodes node node = ⟨0, 0⟩ := by
  simp [intrusivelistNodeInit, Nodes.setPrev, Nodes.setNext]

lemma nodeInit_other {p : Nat} (h : p ≠ node) : intrusivelistNodeInit nodes node p = nodes p := by
  rw [intrusivelistNodeInit, Nodes.setPrev_other h, Nodes.setNext_other h]

lemma nodeIsNull_iff : intrusivelistNodeIsNull nodes node = true ↔ nodes node = ⟨0, 0⟩ := by
  cases hn : nodes node with
  | mk next prev => simp [intrusivelistNodeIsNull, hn]

/-- `intrusivelist_insert_tail` appends. -/
lemma insertTail_spec (h : Linked nodes il l) (h0 : node ≠ 0) (hnode : node ∉ l) :
    Linked (intrusivelistInsertTail nodes il node).1 (intrusivelistInsertTail nodes il node).2
      (l ++ [node]) ∧
    SameOutside nodes (intrusivelistInsertTail nodes il node).1 (l ++ [node]) := by
  have hnd : (l ++ [node]).Nodup := by
    rw [List.nodup_append]
    exact ⟨h.nodup, by simp, fun y hy z hz => by rintro rfl; simp_all⟩
  unfold intrusivelistInsertTail
  by_cases ht : il.tail = 0
  · have hl := h.tail_eq_zero_iff.mp ht
    subst hl
    rw [if_neg (by simpa using ht)]
    dsimp only
    refine ⟨⟨⟨rfl, h0, by simp [ht], by simp, rfl⟩, by simp [h.count], hnd⟩, ?_⟩
    intro p hp
    have hne : p ≠ node := by simpa using hp
    rw [Nodes.setPrev_other hne, Nodes.setNext_other hne]
  · have hl : l ≠ [] := h.tail_eq_zero_iff.not.mp ht
    have htl := h.seg.last_mem hl
    have htn : il.tail ≠ node := by
      rintro he
      exact hnode (he ▸ htl)
    rw [if_pos ht]
    dsimp only
    refine ⟨⟨?_, by simp [h.count], hnd⟩, ?_⟩
    · refine dseg_append.mpr ⟨il.tail, node, ?_, rfl, h0, ?_, ?_⟩
      · apply h.seg.setAfter hl h.nodup
        · simp
        · intro y hy hye
          have hyn : y ≠ node := by rintro rfl; exact hnode hy
          simp [hye, hyn]
        · intro y hy
          have hyn : y ≠ node := by rintro rfl; exact hnode hy
          simp [hyn]
      · simp
      · simp [Ne.symm htn, DSeg]
    · intro p hp
      rw [List.mem_append, List.mem_singleton, not_or] at hp
      have hpt : p ≠ il.tail := by rintro rfl; exact hp.1 htl
      rw [Nodes.setNext_other hpt, Nodes.setPrev_other hp.2, Nodes.setNext_other hp.2]

/-- `intrusivelist_insert_head` puts the node in front. -/
lemma insertHead_spec (h : Linked nodes il l) (h0 : node ≠ 0) (hnode : node ∉ l) :
    Linked (intrusivelistInsertHead nodes il node).1 (intrusivelistInsertHead nodes il node).2
      (node :: l) ∧
    SameOutside nodes (intrusivelistInsertHead nodes il node).1 (node :: l) := by
  have hnd : (node :: l).Nodup := List.nodup_cons.mpr ⟨hnode, h.nodup⟩
  unfold intrusivelistInsertHead
  by_cases hh : il.head = 0
  · have hl := h.head_eq_zero_iff.mp hh
    subst hl
    rw [if_neg (by simpa using hh)]
    dsimp only
    refine ⟨⟨⟨rfl, h0, by simp, by simp [hh], rfl⟩, by simp [h.count], hnd⟩, ?_⟩
    intro p hp
    have hne : p ≠ node := by simpa using hp
    rw [Nodes.setPrev_other hne, Nodes.setNext_other hne]
  · have hl : l ≠ [] := h.head_eq_zero_iff.not.mp hh
    have hhl := h.seg.first_mem hl
    have hhn : node ≠ il.head := by
      rintro he
      exact hnode (he ▸ hhl)
    rw [if_pos hh]
    dsimp only
    refine ⟨⟨DSeg.cons il.head h0 (by simp [hhn]) (by simp) ?_, by simp [h.count], hnd⟩, ?_⟩
    · apply h.seg.setBefore hl h.nodup
      · simp
      · intro y hy
        have hyn : y ≠ node := by rintro rfl; exact hnode hy
        simp [hyn]
      · intro y hy hyf
        have hyn : y ≠ node := by rintro rfl; exact hnode hy
        simp [hyf, hyn]
    · intro p hp
      rw [List.mem_cons, not_or] at hp
      have hph : p ≠ il.head := by rintro rfl; exact hp.2 hhl
      rw [Nodes.setPrev_other hph, Nodes.setPrev_other hp.1, Nodes.setNext_other hp.1]

/-- Linking `node` in front of a member. -/
lemma insertBefore_spec {x : Nat} (h : Linked nodes il (l₁ ++ x :: l₂)) (h0 : node ≠ 0)
    (hnode : node ∉ l₁ ++ x :: l₂) :
    Linked (insertBefore nodes il node x).1 (insertBefore nodes il node x).2 (l₁ ++ node :: x :: l₂) ∧
    SameOutside nodes (insertBefore nodes il node x).1 (l₁ ++ node :: x :: l₂) := by
  obtain ⟨m, n, h1, h2⟩ := dseg_append.mp h.seg
  obtain ⟨rfl, hn0, hpn, -⟩ := id h2
  rw [List.mem_append, List.mem_cons, not_or, not_or] at hnode
  obtain ⟨hnode₁, hnn, hnode₂⟩ := hnode
  obtain ⟨hnd₁, hnd₂, hdisj⟩ := List.nodup_append.mp h.nodup
  have hnd : (l₁ ++ node :: n :: l₂).Nodup := by
    rw [List.nodup_append]
    refine ⟨hnd₁, List.nodup_cons.mpr ⟨by simp [hnn, hnode₂], hnd₂⟩, ?_⟩
    intro y hy z hz
    rcases List.mem_cons.mp hz with rfl | hz
    · rintro rfl
      exact hnode₁ hy
    · exact hdisj y hy z hz
  have hprev : (nodes.setNext node n n).prev = m := by simpa using hpn
  have hmem₂ : n ∈ n :: l₂ := by simp
  unfold insertBefore
  dsimp only
  rw [hprev]
  by_cases hm : m = 0
  · -- the member was the first one
    have hl₁ := h1.last_eq_zero_iff.mp hm
    subst hl₁
    subst hm
    rw [if_neg (by simp)]
    dsimp only
    refine ⟨⟨DSeg.cons n h0 (by simp) (by simp) ?_, by simp [h.count], hnd⟩, ?_⟩
    · apply h2.setBefore (by simp) hnd₂
      · simp [Ne.symm hnn]
      · intro y hy
        have hyn : y ≠ node := by rintro rfl; simp_all
        simp [hyn]
      · intro y hy hyx
        have hyn : y ≠ node := by rintro rfl; simp_all
        simp [hyn, hyx]
    · intro p hp
      simp only [List.nil_append, List.mem_cons, not_or] at hp
      rw [Nodes.setPrev_other hp.1, Nodes.setPrev_other hp.2.1, Nodes.setNext_other hp.1]
  · have hl₁ : l₁ ≠ [] := h1.last_eq_zero_iff.not.mp hm
    have hml := h1.last_mem hl₁
    have hmn : m ≠ node := by rintro rfl; exact hnode₁ hml
    have hmx : m ≠ n := hdisj m hml n hmem₂
    rw [if_pos hm]
    dsimp only
    refine ⟨⟨dseg_append.mpr ⟨m, node, ?_, DSeg.cons n h0 (by simp) (by simp [Ne.symm hmn]) ?_⟩,
      ?_, hnd⟩, ?_⟩
    · apply h1.setAfter hl₁ hnd₁
      · simp
      · intro y hy hym
        have hyn : y ≠ node := by rintro rfl; exact hnode₁ hy
        simp [hym, hyn]
      · intro y hy
        have hyn : y ≠ node := by rintro rfl; exact hnode₁ hy
        have hyx : y ≠ n := hdisj y hy n hmem₂
        simp [hyn, hyx]
    · apply h2.setBefore (by simp) hnd₂
      · simp [Ne.symm hnn]
      · intro y hy
        have hyn : y ≠ node := by rintro rfl; simp_all
        have hym : y ≠ m := fun hym => hdisj m hml y hy hym.symm
        simp [hyn, hym]
      · intro y hy hyx
        have hyn : y ≠ node := by rintro rfl; simp_all
        simp [hyn, hyx]
    · simp [h.count]
      omega
    · intro p hp
      simp only [List.mem_append, List.mem_cons, not_or] at hp
      have hpm : p ≠ m := by rintro rfl; exact hp.1 hml
      rw [Nodes.setNext_other hpm, Nodes.setPrev_other hp.2.1, Nodes.setPrev_other hp.2.2.1,
        Nodes.setNext_other hp.2.1]

/-- The loop of `intrusivelist_insert_sorted` stops at the first member that the comparator
accepts. -/
lemma insertSortedFrom_spec {comparator : Nat → Nat → Bool} (h : Linked nodes il (l₁ ++ l₂))
    (h0 : node ≠ 0) (hnode : node ∉ l₁ ++ l₂) {m existing fuel : Nat}
    (hseg : NodeSeg nodes m existing l₂ il.tail 0)
    (hfuel : l₂.length < fuel) (hskip : ∀ y ∈ l₁, comparator y node = false) :
    ∃ k₁ k₂ nodes' il', l₁ ++ l₂ = k₁ ++ k₂ ∧
      insertSortedFrom comparator nodes il node fuel existing = .ok (nodes', il') ∧
      (∀ y ∈ k₁, comparator y node = false) ∧ (∀ y, k₂.head? = some y → comparator y node = true) ∧
      Linked nodes' il' (k₁ ++ node :: k₂) ∧ SameOutside nodes nodes' (k₁ ++ node :: k₂) := by
  induction l₂ generalizing l₁ m existing fuel with
  | nil =>
    obtain ⟨fuel, rfl⟩ := Nat.exists_eq_succ_of_ne_zero (Nat.ne_zero_of_lt hfuel)
    obtain ⟨rfl, -⟩ := hseg
    rw [List.append_nil] at h hnode
    obtain ⟨hlinked, hsame⟩ := insertTail_spec h h0 hnode
    exact ⟨l₁, [], _, _, rfl, by simp [insertSortedFrom], hskip, by simp, hlinked, hsame⟩
  | cons x l₂ ih =>
    obtain ⟨fuel, rfl⟩ := Nat.exists_eq_succ_of_ne_zero (Nat.ne_zero_of_lt hfuel)
    obtain ⟨rfl, hx0, -, hrest⟩ := hseg
    rw [insertSortedFrom, if_neg hx0]
    by_cases hcmp : comparator existing node = true
    · rw [if_pos hcmp]
      obtain ⟨hlinked, hsame⟩ := insertBefore_spec h h0 hnode
      refine ⟨l₁, existing :: l₂, _, _, rfl, rfl, hskip, ?_, hlinked, hsame⟩
      simpa using hcmp
    · rw [if_neg hcmp]
      have happ : l₁ ++ existing :: l₂ = (l₁ ++ [existing]) ++ l₂ := by simp
      rw [happ] at h hnode ⊢
      refine ih h hnode hrest (by simpa using hfuel) ?_
      intro y hy
      rcases List.mem_append.mp hy with hy | hy
      · exact hskip y hy
      · rw [List.mem_singleton.mp hy]
        simpa using hcmp

/-- `intrusivelist_insert_sorted` puts the node in front of the first member that the comparator
accepts, and at the end if there is none. -/
lemma insertSorted_spec {comparator : Nat → Nat → Bool} (h : Linked nodes il l) (h0 : node ≠ 0)
    (hnode : node ∉ l) (hlen : l.length < 2 ^ 64) :
    ∃ k₁ k₂ nodes' il', l = k₁ ++ k₂ ∧
      intrusivelistInsertSorted comparator nodes il node = .ok (nodes', il') ∧
      (∀ y ∈ k₁, comparator y node = false) ∧ (∀ y, k₂.head? = some y → comparator y node = true) ∧
      Linked nodes' il' (k₁ ++ node :: k₂) ∧ SameOutside nodes nodes' (k₁ ++ node :: k₂) := by
  unfold intrusivelistInsertSorted
  by_cases hc : il.count = 0
  · have hl : l = [] := by
      rw [h.count, List.length_eq_zero_iff] at hc
      exact hc
    subst hl
    rw [if_pos hc]
    obtain ⟨hlinked, hsame⟩ := insertHead_spec h h0 hnode
    exact ⟨[], [], _, _, rfl, rfl, by simp, by simp, hlinked, hsame⟩
  · rw [if_neg hc]
    exact @insertSortedFrom_spec nodes il [] l node comparator h h0 hnode 0 il.head wordSize h.seg hlen (by simp)

lemma unlinkPrev_spec (h : NodeSeg nodes 0 il.head l₁ (nodes node).prev node) (hnd : l₁.Nodup) :
    NodeSeg (unlinkPrev nodes il node).1 0 (unlinkPrev nodes il node).2.head l₁ (nodes node).prev
      (nodes node).next ∧
    SameOutside nodes (unlinkPrev nodes il node).1 l₁ ∧
    (unlinkPrev nodes il node).2.tail = il.tail ∧ (unlinkPrev nodes il node).2.count = il.count := by
  unfold unlinkPrev
  by_cases hm : (nodes node).prev = 0
  · rw [if_neg (by simpa using hm)]
    have hl := h.last_eq_zero_iff.mp hm
    subst hl
    exact ⟨⟨rfl, h.2⟩, fun _ _ => rfl, rfl, rfl⟩
  · rw [if_pos hm]
    have hl : l₁ ≠ [] := h.last_eq_zero_iff.not.mp hm
    refine ⟨?_, ?_, rfl, rfl⟩
    · apply h.setAfter hl hnd
      · simp
      · intro y _ hy
        simp [hy]
      · simp
    · intro p hp
      have hpm : p ≠ (nodes node).prev := fun he => hp (he ▸ h.last_mem hl)
      exact Nodes.setNext_other hpm

lemma unlinkNext_spec (h : NodeSeg nodes node (nodes node).next l₂ il.tail 0) (hnd : l₂.Nodup) :
    NodeSeg (unlinkNext nodes il node).1 (nodes node).prev (nodes node).next l₂
      (unlinkNext nodes il node).2.tail 0 ∧
    SameOutside nodes (unlinkNext nodes il node).1 l₂ ∧
    (unlinkNext nodes il node).2.head = il.head ∧ (unlinkNext nodes il node).2.count = il.count := by
  unfold unlinkNext
  by_cases hn : (nodes node).next = 0
  · rw [if_neg (by simpa using hn)]
    have hl := h.first_eq_zero_iff.mp hn
    subst hl
    exact ⟨⟨h.1, rfl⟩, fun _ _ => rfl, rfl, rfl⟩
  · rw [if_pos hn]
    have hl : l₂ ≠ [] := h.first_eq_zero_iff.not.mp hn
    refine ⟨?_, ?_, rfl, rfl⟩
    · apply h.setBefore hl hnd
      · simp
      · simp
      · intro y _ hy
        simp [hy]
    · intro p hp
      have hpn : p ≠ (nodes node).next := fun he => hp (he ▸ h.first_mem hl)
      exact Nodes.setPrev_other hpn

/-- `intrusivelist_remove` takes a member out and clears its node. -/
lemma remove_spec (h : Linked nodes il (l₁ ++ node :: l₂)) :
    Linked (intrusivelistRemove nodes il node).1 (intrusivelistRemove nodes il node).2 (l₁ ++ l₂) ∧
    (intrusivelistRemove nodes il node).1 node = ⟨0, 0⟩ ∧
    SameOutside nodes (intrusivelistRemove nodes il node).1 (l₁ ++ node :: l₂) := by
  obtain ⟨m, n, h1, rfl, h0, rfl, h2⟩ := dseg_append.mp h.seg
  obtain ⟨hnd₁, hnd₂, hdisj⟩ := List.nodup_append.mp h.nodup
  obtain ⟨hnode₂, hnd₂⟩ := List.nodup_cons.mp hnd₂
  have hnode₁ : n ∉ l₁ := fun hin => hdisj n hin n (by simp) rfl
  have hdisj₂ : ∀ y ∈ l₂, y ∉ l₁ := fun y hy hy₁ => hdisj y hy₁ y (by simp [hy]) rfl
  obtain ⟨g1, hsame₁, htail, hcount₁⟩ := unlinkPrev_spec h1 hnd₁
  have hself : (unlinkPrev nodes il n).1 n = nodes n := hsame₁ n hnode₁
  have h2' : NodeSeg (unlinkPrev nodes il n).1 n ((unlinkPrev nodes il n).1 n).next l₂
      (unlinkPrev nodes il n).2.tail 0 := by
    rw [hself, htail]
    exact h2.congr (fun y hy => by rw [hsame₁ y (hdisj₂ y hy)])
      (fun y hy => by rw [hsame₁ y (hdisj₂ y hy)])
  obtain ⟨g2, hsame₂, hhead, hcount₂⟩ := unlinkNext_spec h2' hnd₂
  rw [hself] at g2
  have hsplit : intrusivelistRemove nodes il n =
      (intrusivelistNodeInit (unlinkNext (unlinkPrev nodes il n).1 (unlinkPrev nodes il n).2 n).1 n,
        { (unlinkNext (unlinkPrev nodes il n).1 (unlinkPrev nodes il n).2 n).2 with
          count := (unlinkNext (unlinkPrev nodes il n).1 (unlinkPrev nodes il n).2 n).2.count - 1 }) := rfl
  rw [hsplit]
  dsimp only
  refine ⟨⟨dseg_append.mpr ⟨(nodes n).prev, (nodes n).next, ?_, ?_⟩, ?_, ?_⟩, nodeInit_same _ n, ?_⟩
  · have hl : ∀ y ∈ l₁, intrusivelistNodeInit
        (unlinkNext (unlinkPrev nodes il n).1 (unlinkPrev nodes il n).2 n).1 n y =
        (unlinkPrev nodes il n).1 y := by
      intro y hy
      have hyn : y ≠ n := by rintro rfl; exact hnode₁ hy
      rw [nodeInit_other hyn, hsame₂ y (fun hy₂ => hdisj₂ y hy₂ hy)]
    rw [hhead]
    exact g1.congr (fun y hy => by rw [hl y hy]) (fun y hy => by rw [hl y hy])
  · have hl : ∀ y ∈ l₂, intrusivelistNodeInit
        (unlinkNext (unlinkPrev nodes il n).1 (unlinkPrev nodes il n).2 n).1 n y =
        (unlinkNext (unlinkPrev nodes il n).1 (unlinkPrev nodes il n).2 n).1 y :=
      fun y hy => nodeInit_other (fun he => hnode₂ (he ▸ hy))
    exact g2.congr (fun y hy => by rw [hl y hy]) (fun y hy => by rw [hl y hy])
  · rw [hcount₂, hcount₁, h.count]
    simp only [List.length_append, List.length_cons]
    omega
  · rw [List.nodup_append]
    exact ⟨hnd₁, hnd₂, fun y hy z hz => hdisj y hy z (by simp [hz])⟩
  · intro p hp
    simp only [List.mem_append, List.mem_cons, not_or] at hp
    rw [nodeInit_other hp.2.1, hsame₂ p hp.2.2, hsame₁ p hp.1]

lemma removeHead_nil (h : Linked nodes il []) : intrusivelistRemoveHead nodes il = (0, nodes, il) := by
  have hh := h.head_eq_zero_iff.mpr rfl
  simp [intrusivelistRemoveHead, hh]

lemma removeHead_cons {x : Nat} (h : Linked nodes il (x :: l)) :
    intrusivelistRemoveHead nodes il = (x, intrusivelistRemove nodes il x) := by
  obtain ⟨hx, h0, hprev, hrest⟩ := h.seg
  have hprev : (nodes x).prev = 0 := hprev
  have htail : ∀ p : Nodes, p x = nodes x → unlinkPrev p il x = (p, { il with head := (nodes x).next }) := by
    intro p hp
    simp [unlinkPrev, hp, hprev]
  unfold intrusivelistRemoveHead intrusivelistRemove
  rw [htail nodes rfl]
  simp only [hx, h0, if_false, unlinkNext, hprev]
  by_cases hn : (nodes x).next = 0
  · simp [hn]
  · simp [hn]

lemma removeTail_append {x : Nat} (h : Linked nodes il (l ++ [x])) :
    intrusivelistRemoveTail nodes il = .ok (x, intrusivelistRemove nodes il x) := by
  obtain ⟨m, n, h1, rfl, h0, hprev, hlast⟩ := dseg_append.mp h.seg
  obtain ⟨hnext, htail⟩ := hlast
  have hnext : (nodes n).next = 0 := hnext
  unfold intrusivelistRemoveTail intrusivelistRemove
  rw [htail, if_neg h0]
  by_cases hm : (nodes n).prev = 0
  · simp [unlinkPrev, unlinkNext, hm, hnext]
  · simp [unlinkPrev, unlinkNext, hm, hnext]

lemma insertIdx_append (l₁ l₂ : List Nat) (x : Nat) : (l₁ ++ l₂).insertIdx l₁.length x = l₁ ++ x :: l₂ := by
  induction l₁ with
  | nil => rfl
  | cons y l₁ ih => simp [ih]

/-- The loop of `intrusivelist_insert_at` arrives at the member with the index. -/
lemma insertAtFrom_spec {index : Nat} (h : Linked nodes il (l₁ ++ l₂)) (h0 : node ≠ 0) (hnode : node ∉ l₁ ++ l₂)
    {m existing fuel : Nat} (hseg : NodeSeg nodes m existing l₂ il.tail 0) (hfuel : l₂.length < fuel)
    (hpos : 0 < index) (hle : l₁.length ≤ index) (hlt : index < (l₁ ++ l₂).length) :
    ∃ nodes' il', insertAtFrom nodes il node index fuel l₁.length existing = .ok (true, nodes', il') ∧
      Linked nodes' il' ((l₁ ++ l₂).insertIdx index node) ∧
      SameOutside nodes nodes' ((l₁ ++ l₂).insertIdx index node) := by
  induction l₂ generalizing l₁ m existing fuel with
  | nil =>
    rw [List.append_nil] at hlt
    omega
  | cons x l₂ ih =>
    obtain ⟨fuel, rfl⟩ := Nat.exists_eq_succ_of_ne_zero (Nat.ne_zero_of_lt hfuel)
    obtain ⟨rfl, hx0, -, hrest⟩ := hseg
    rw [insertAtFrom, if_neg hx0]
    by_cases hindex : l₁.length = index
    · rw [if_pos hindex, ← hindex, insertIdx_append]
      have hl₁ : l₁ ≠ [] := by
        rintro rfl
        simp only [List.length_nil] at hindex
        omega
      obtain ⟨k, n, h1, hn, -, hprev, -⟩ := dseg_append.mp h.seg
      -- there is a member in front, so that the loop writes to a node
      have hfront : (nodes existing).prev ≠ 0 := by
        have hk : k ≠ 0 := h1.last_eq_zero_iff.not.mpr hl₁
        exact fun heq => hk (hprev.symm.trans heq)
      obtain ⟨hlinked, hsame⟩ := insertBefore_spec h h0 hnode
      refine ⟨_, _, ?_, hlinked, hsame⟩
      simp [insertBefore, hfront]
    · rw [if_neg hindex]
      have happ : l₁ ++ existing :: l₂ = (l₁ ++ [existing]) ++ l₂ := by simp
      have hlen : l₁.length + 1 = (l₁ ++ [existing]).length := by simp
      rw [happ] at h hnode hlt ⊢
      rw [hlen]
      exact ih h hnode hrest (by simpa using hfuel) (by simp; omega) hlt

/-- `intrusivelist_insert_at` places the node at the index, or refuses. -/
lemma insertAt_spec (index : Nat) (h : Linked nodes il l) (h0 : node ≠ 0) (hnode : node ∉ l)
    (hlen : l.length < 2 ^ 64) :
    (l.length < index → intrusivelistInsertAt nodes il node index = .ok (false, nodes, il)) ∧
    (index ≤ l.length → ∃ nodes' il', intrusivelistInsertAt nodes il node index = .ok (true, nodes', il') ∧
      Linked nodes' il' (l.insertIdx index node) ∧ SameOutside nodes nodes' (l.insertIdx index node)) := by
  unfold intrusivelistInsertAt
  rw [h.count]
  constructor
  · intro hlt
    rw [if_neg (by omega), if_neg (by omega), if_pos hlt]
  · intro hle
    by_cases hzero : index = 0
    · subst hzero
      rw [if_pos rfl, List.insertIdx_zero]
      obtain ⟨hlinked, hsame⟩ := insertHead_spec h h0 hnode
      exact ⟨_, _, rfl, hlinked, hsame⟩
    rw [if_neg hzero]
    by_cases hend : index = l.length
    · rw [if_pos hend, hend, List.insertIdx_length_self]
      obtain ⟨hlinked, hsame⟩ := insertTail_spec h h0 hnode
      exact ⟨_, _, rfl, hlinked, hsame⟩
    · rw [if_neg hend, if_neg (by omega)]
      exact @insertAtFrom_spec nodes il [] l node _ h h0 hnode _ _ _ h.seg hlen (by omega) (Nat.zero_le _)
        (Nat.lt_of_le_of_ne hle hend)

end KaworuOS.Proofs
