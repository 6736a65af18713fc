import KaworuOS.Proofs.IntrusiveList
import Mathlib.Logic.Relation

/-!
# Runs of operations on an intrusive list

Each operation is given twice, on nodes and links as the sources have it and on a plain list. In
every run the links represent the list.
-/

namespace KaworuOS.Proofs
open Lib

/-- The operations on one list. -/
inductive ListOp
  | insertHead (node : Nat)
  | insertTail (node : Nat)
  | insertAt (node index : Nat)
  | insertSorted (comparator : Nat → Nat → Bool) (node : Nat)
  | remove (node : Nat)
  | removeHead
  | removeTail

/-- What an operation returns. -/
inductive ListResult
  | done
  | flag (b : Bool)
  | node (p : Nat)
  deriving DecidableEq

namespace ListOp

/-- The operation of the sources. -/
def run (nodes : Nodes) (il : IntrusiveList) : ListOp → Except Halt (ListResult × Nodes × IntrusiveList)
  | insertHead node => .ok (.done, intrusivelistInsertHead nodes il node)
  | insertTail node => .ok (.done, intrusivelistInsertTail nodes il node)
  | insertAt node index => do
    let (b, r) ← intrusivelistInsertAt nodes il node index
    return (.flag b, r)
  | insertSorted comparator node => do
    let r ← intrusivelistInsertSorted comparator nodes il node
    return (.flag true, r)
  | remove node => .ok (.done, intrusivelistRemove nodes il node)
  | removeHead =>
    let (p, r) := intrusivelistRemoveHead nodes il
    .ok (.node p, r)
  | removeTail => do
    let (p, r) ← intrusivelistRemoveTail nodes il
    return (.node p, r)

/-- The operation on a plain list. -/
def onList (l : List Nat) : ListOp → ListResult × List Nat
  | insertHead node => (.done, node :: l)
  | insertTail node => (.done, l ++ [node])
  | insertAt node index => if l.length < index then (.flag false, l) else (.flag true, l.insertIdx index node)
  | insertSorted comparator node =>
    (.flag true, l.takeWhile (fun y => !comparator y node) ++ node :: l.dropWhile (fun y => !comparator y node))
  | remove node => (.done, l.erase node)
  | removeHead => (.node (l.headD 0), l.tail)
  | removeTail => (.node (l.getLastD 0), l.dropLast)

/-- The address is one of an object that is not in the list. -/
def IsNew (l : List Nat) (node : Nat) : Prop := node ≠ 0 ∧ node < wordSize ∧ node ∉ l

/-- What the callers promise. -/
def Allowed (l : List Nat) : ListOp → Prop
  | insertHead node | insertTail node | insertAt node _ | insertSorted _ node => IsNew l node
  | remove node => node ∈ l
  | removeHead => True
  | removeTail => l ≠ []

end ListOp

/-- The pointer structure represents the list `l`. -/
structure Represents (nodes : Nodes) (il : IntrusiveList) (l : List Nat) : Prop where
  forward : Seg (fun p => (nodes p).next) il.head l 0
  backward : Seg (fun p => (nodes p).prev) il.tail l.reverse 0
  ends : l ≠ [] → (nodes il.head).prev = 0 ∧ (nodes il.tail).next = 0
  count : il.count = l.length

variable {nodes nodes' : Nodes} {il il' : IntrusiveList} {l l₁ l₂ : List Nat} {node : Nat}

lemma Linked.represents (h : Linked nodes il l) : Represents nodes il l := by
  refine ⟨h.seg.forward, h.seg.backward, ?_, h.count⟩
  intro hl
  constructor
  · cases l with
    | nil => exact absurd rfl hl
    | cons x l =>
      obtain ⟨hx, -, hprev, -⟩ := h.seg
      rw [hx]
      exact hprev
  · rcases List.eq_nil_or_concat' l with rfl | ⟨l, x, rfl⟩
    · exact absurd rfl hl
    · obtain ⟨m, n, -, -, -, -, hlast⟩ := dseg_append.mp h.seg
      rw [hlast.2]
      exact hlast.1

/-- What an operation does to the nodes outside of the list that it leaves: those that it has taken out
are cleared, and the others stay as they are. -/
structure Leaves (nodes nodes' : Nodes) (l l' : List Nat) : Prop where
  cleared : ∀ p ∈ l, p ∉ l' → nodes' p = ⟨0, 0⟩
  same : ∀ p, p ∉ l → p ∉ l' → nodes' p = nodes p

lemma SameOutside.leaves {l' : List Nat} (h : SameOutside nodes nodes' l') (hsub : ∀ p ∈ l, p ∈ l') :
    Leaves nodes nodes' l l' :=
  ⟨fun p hp hp' => absurd (hsub p hp) hp', fun p _ hp' => h p hp'⟩

lemma remove_leaves (h : Linked nodes il (l₁ ++ node :: l₂)) :
    Leaves nodes (intrusivelistRemove nodes il node).1 (l₁ ++ node :: l₂) (l₁ ++ l₂) := by
  obtain ⟨-, hclear, hsame⟩ := remove_spec h
  constructor
  · intro p hp hp'
    have hnode : p = node := by
      simp only [List.mem_append, List.mem_cons, not_or] at hp hp'
      tauto
    rw [hnode]
    exact hclear
  · intro p hp _
    exact hsame p hp

lemma takeWhile_dropWhile_split {k₁ k₂ : List Nat} {f : Nat → Bool} (h1 : ∀ y ∈ k₁, f y = true)
    (h2 : ∀ y, k₂.head? = some y → f y = false) :
    (k₁ ++ k₂).takeWhile f = k₁ ∧ (k₁ ++ k₂).dropWhile f = k₂ := by
  rw [List.takeWhile_append_of_pos h1, List.dropWhile_append_of_pos h1]
  cases k₂ with
  | nil => simp
  | cons y k₂ =>
    have hy := h2 y rfl
    simp [hy]

/-- Each operation returns what the plain one returns, and its result represents that of the plain one. -/
lemma ListOp.run_spec (op : ListOp) (h : Linked nodes il l) (hword : ∀ p ∈ l, p < wordSize) (hop : op.Allowed l) :
    ∃ nodes' il', op.run nodes il = .ok ((op.onList l).1, nodes', il') ∧ Linked nodes' il' (op.onList l).2 ∧
      Leaves nodes nodes' l (op.onList l).2 := by
  have hlen : l.length < 2 ^ 64 := length_lt_of_nodup (by decide) h.nodup h.ne_zero hword
  cases op with
  | insertHead node =>
    obtain ⟨h0, -, hnode⟩ := hop
    obtain ⟨hlinked, hsame⟩ := insertHead_spec h h0 hnode
    exact ⟨_, _, rfl, hlinked, hsame.leaves (fun p hp => List.mem_cons_of_mem node hp)⟩
  | insertTail node =>
    obtain ⟨h0, -, hnode⟩ := hop
    obtain ⟨hlinked, hsame⟩ := insertTail_spec h h0 hnode
    exact ⟨_, _, rfl, hlinked, hsame.leaves (fun p hp => List.mem_append_left [node] hp)⟩
  | insertAt node index =>
    obtain ⟨h0, -, hnode⟩ := hop
    obtain ⟨hrefuse, hinsert⟩ := insertAt_spec index h h0 hnode hlen
    by_cases hlt : l.length < index
    · have honList : onList l (.insertAt node index) = (.flag false, l) := if_pos hlt
      rw [honList]
      refine ⟨nodes, il, ?_, h, fun p hp hp' => absurd hp hp', fun _ _ _ => rfl⟩
      rw [run, hrefuse hlt]
      rfl
    · have honList : onList l (.insertAt node index) = (.flag true, l.insertIdx index node) := if_neg hlt
      rw [honList]
      obtain ⟨nodes', il', hrun, hlinked, hsame⟩ := hinsert (by omega)
      refine ⟨nodes', il', ?_, hlinked, hsame.leaves (List.subset_insertIdx l index node)⟩
      rw [run, hrun]
      rfl
  | insertSorted comparator node =>
    obtain ⟨h0, -, hnode⟩ := hop
    obtain ⟨k₁, k₂, nodes', il', rfl, hrun, hskip, hstop, hlinked, hsame⟩ :=
      @insertSorted_spec nodes il l node comparator h h0 hnode hlen
    obtain ⟨htake, hdrop⟩ := @takeWhile_dropWhile_split k₁ k₂ (fun y => !comparator y node)
      (fun y hy => by rw [hskip y hy]; rfl) (fun y hy => by rw [hstop y hy]; rfl)
    have honList : onList (k₁ ++ k₂) (.insertSorted comparator node) = (.flag true, k₁ ++ node :: k₂) := by
      rw [onList, htake, hdrop]
    rw [honList]
    refine ⟨nodes', il', ?_, hlinked, hsame.leaves ?_⟩
    · rw [run, hrun]
      rfl
    · intro p hp
      simp only [List.mem_append, List.mem_cons] at hp ⊢
      tauto
  | remove node =>
    obtain ⟨l₁, l₂, rfl⟩ := List.append_of_mem hop
    have hnot : node ∉ l₁ := fun hin => (List.nodup_append.mp h.nodup).2.2 node hin node List.mem_cons_self rfl
    have honList : onList (l₁ ++ node :: l₂) (.remove node) = (.done, l₁ ++ l₂) := by
      rw [onList, List.erase_append_right _ hnot, List.erase_cons_head]
    rw [honList]
    exact ⟨_, _, rfl, (remove_spec h).1, remove_leaves h⟩
  | removeHead =>
    cases l with
    | nil =>
      refine ⟨nodes, il, ?_, h, fun p hp hp' => absurd hp hp', fun _ _ _ => rfl⟩
      rw [run, removeHead_nil h]
      rfl
    | cons x l =>
      refine ⟨_, _, ?_, (@remove_spec nodes il [] l x h).1, @remove_leaves nodes il [] l x h⟩
      rw [run, removeHead_cons h]
      rfl
  | removeTail =>
    rcases List.eq_nil_or_concat' l with rfl | ⟨l, x, rfl⟩
    · exact absurd rfl hop
    · have honList : onList (l ++ [x]) .removeTail = (.node x, l) := by
        rw [onList, List.getLastD_concat, List.dropLast_concat]
      have hremove := @remove_spec nodes il l [] x h
      have hleaves := @remove_leaves nodes il l [] x h
      rw [List.append_nil] at hremove hleaves
      rw [honList]
      refine ⟨_, _, ?_, hremove.1, hleaves⟩
      rw [run, removeTail_append h]
      rfl

/-- A state of a run: the nodes and the list head, the plain list, and the nodes that have been removed. -/
structure ListRun where
  nodes : Nodes
  il : IntrusiveList
  members : List Nat
  removed : List Nat

/-- An operation on the nodes, side by side with the plain one. -/
inductive ListStep : ListRun → ListRun → Prop
  | mk {r : ListRun} {op : ListOp} {res : ListResult} {nodes' : Nodes} {il' : IntrusiveList}
      (hop : op.Allowed r.members) (hrun : op.run r.nodes r.il = .ok (res, nodes', il')) :
      ListStep r ⟨nodes', il', (op.onList r.members).2,
        r.members.filter (fun p => p ∉ (op.onList r.members).2) ++ r.removed⟩

namespace ListRun

/-- The list is new. -/
structure Start (r : ListRun) : Prop where
  il : r.il = intrusivelistInit
  members : r.members = []
  removed : r.removed = []

/-- The invariant of a run. -/
structure Inv (r : ListRun) : Prop where
  linked : Linked r.nodes r.il r.members
  word : ∀ p ∈ r.members, p < wordSize
  cleared : ∀ p ∈ r.removed, p ∉ r.members → r.nodes p = ⟨0, 0⟩

variable {r r' : ListRun}

lemma Start.inv (h : r.Start) : r.Inv := by
  obtain ⟨hil, hmembers, hremoved⟩ := h
  refine ⟨?_, by simp [hmembers], by simp [hremoved]⟩
  rw [hil, hmembers]
  exact linked_init r.nodes

lemma onList_word (op : ListOp) (hword : ∀ p ∈ l, p < wordSize) (hop : op.Allowed l) :
    ∀ p ∈ (op.onList l).2, p < wordSize := by
  intro p hp
  cases op with
  | insertHead node =>
    rcases List.mem_cons.mp hp with rfl | hp
    · exact hop.2.1
    · exact hword p hp
  | insertTail node =>
    rcases List.mem_append.mp hp with hp | hp
    · exact hword p hp
    · rw [List.mem_singleton.mp hp]
      exact hop.2.1
  | insertAt node index =>
    rw [ListOp.onList] at hp
    split at hp
    · exact hword p hp
    · rcases List.eq_or_mem_of_mem_insertIdx hp with rfl | hp
      · exact hop.2.1
      · exact hword p hp
  | insertSorted comparator node =>
    rcases List.mem_append.mp hp with hp | hp
    · exact hword p ((List.takeWhile_sublist _).subset hp)
    · rcases List.mem_cons.mp hp with rfl | hp
      · exact hop.2.1
      · exact hword p ((List.dropWhile_sublist _).subset hp)
  | remove node => exact hword p (List.mem_of_mem_erase hp)
  | removeHead => exact hword p (List.mem_of_mem_tail hp)
  | removeTail => exact hword p (List.mem_of_mem_dropLast hp)

lemma Inv.step (h : r.Inv) (hstep : ListStep r r') : r'.Inv := by
  cases hstep with
  | mk hop hrun =>
    obtain ⟨nodes', il', hrun', hlinked, hleaves⟩ := ListOp.run_spec _ h.linked h.word hop
    rw [hrun'] at hrun
    simp only [Except.ok.injEq, Prod.mk.injEq] at hrun
    obtain ⟨-, rfl, rfl⟩ := hrun
    refine ⟨hlinked, onList_word _ h.word hop, ?_⟩
    intro p hp hnot
    rcases List.mem_append.mp hp with hp | hp
    · exact hleaves.cleared p (List.mem_of_mem_filter hp) hnot
    · by_cases hmem : p ∈ r.members
      · exact hleaves.cleared p hmem hnot
      · exact (hleaves.same p hmem hnot).trans (h.cleared p hp hmem)

lemma Inv.run (h : r.Inv) (hrun : Relation.ReflTransGen ListStep r r') : r'.Inv := by
  induction hrun with
  | refl => exact h
  | tail _ hstep ih => exact ih.step hstep

end ListRun

lemma ListRun.Inv.insertAt_refuses {r : ListRun} (h : r.Inv) {node index : Nat} (hnew : ListOp.IsNew r.members node) :
    r.il.count < index ↔ (ListOp.insertAt node index).run r.nodes r.il = .ok (.flag false, r.nodes, r.il) := by
  obtain ⟨h0, -, hnode⟩ := hnew
  have hlen : r.members.length < 2 ^ 64 := length_lt_of_nodup (by decide) h.linked.nodup h.linked.ne_zero h.word
  obtain ⟨hrefuse, hinsert⟩ := insertAt_spec index h.linked h0 hnode hlen
  rw [h.linked.count]
  constructor
  · intro hlt
    rw [ListOp.run, hrefuse hlt]
    rfl
  · intro hrun
    by_contra hlt
    obtain ⟨nodes', il', htrue, -⟩ := hinsert (by omega)
    rw [ListOp.run, htrue] at hrun
    cases hrun

/-- **Intrusive lists.** In every run the links represent the plain list; a node that has been removed
and not been inserted again has both links null; and each operation returns what the plain one
returns, without a fault. `intrusivelist_insert_at` changes nothing where it refuses. -/
theorem list_runs_represent_sequences {r r' : ListRun} (hstart : r.Start)
    (hrun : Relation.ReflTransGen ListStep r r') :
    Represents r'.nodes r'.il r'.members ∧ (∀ p ∈ r'.removed, p ∉ r'.members → r'.nodes p = ⟨0, 0⟩) ∧
      (∀ op : ListOp, op.Allowed r'.members → ∃ nodes' il',
        op.run r'.nodes r'.il = .ok ((op.onList r'.members).1, nodes', il') ∧
          Represents nodes' il' (op.onList r'.members).2 ∧
          ∀ p ∈ r'.members, p ∉ (op.onList r'.members).2 → nodes' p = ⟨0, 0⟩) ∧
      ∀ node index, ListOp.IsNew r'.members node → (r'.il.count < index ↔
        (ListOp.insertAt node index).run r'.nodes r'.il = .ok (.flag false, r'.nodes, r'.il)) := by
  have hinv := hstart.inv.run hrun
  refine ⟨hinv.linked.represents, hinv.cleared, ?_, fun node index hnew => hinv.insertAt_refuses hnew⟩
  intro op hop
  obtain ⟨nodes', il', hop', hlinked, hleaves⟩ := op.run_spec hinv.linked hinv.word hop
  exact ⟨nodes', il', hop', hlinked.represents, hleaves.cleared⟩

/-- The state after an operation. -/
def ListRun.next (r : ListRun) (op : ListOp) : ListRun :=
  match op.run r.nodes r.il with
  | .ok (_, nodes', il') => ⟨nodes', il', (op.onList r.members).2,
      r.members.filter (fun p => p ∉ (op.onList r.members).2) ++ r.removed⟩
  | .error _ => r

lemma ListRun.step_next (r : ListRun) {op : ListOp} (hop : op.Allowed r.members)
    (hok : (op.run r.nodes r.il).isOk = true) : ListStep r (r.next op) := by
  unfold ListRun.next
  cases hrun : op.run r.nodes r.il with
  | error e =>
    rw [hrun] at hok
    cases hok
  | ok res => exact .mk hop hrun

def listBoot : ListRun := ⟨fun _ => ⟨0, 0⟩, intrusivelistInit, [], []⟩

def listBootFirst : ListRun := listBoot.next (.insertHead 0x10)

def listBootLast : ListRun := listBootFirst.next (.insertTail 0x30)

def listBootMiddle : ListRun := listBootLast.next (.insertAt 0x20 1)

def listBootRemoved : ListRun := listBootMiddle.next .removeTail

/-- A node is placed between two others and the last one is removed. -/
theorem list_runs_represent_sequences_removed :
    listBoot.Start ∧ Relation.ReflTransGen ListStep listBoot listBootRemoved ∧
      Represents listBootRemoved.nodes listBootRemoved.il [0x10, 0x20] ∧ listBootRemoved.removed = [0x30] := by
  have hstart : listBoot.Start := ⟨rfl, rfl, rfl⟩
  have h1 : ListStep listBoot listBootFirst :=
    listBoot.step_next ⟨by decide, by decide, by decide +kernel⟩ (by decide +kernel)
  have h2 : ListStep listBootFirst listBootLast :=
    listBootFirst.step_next ⟨by decide, by decide, by decide +kernel⟩ (by decide +kernel)
  have h3 : ListStep listBootLast listBootMiddle :=
    listBootLast.step_next ⟨by decide, by decide, by decide +kernel⟩ (by decide +kernel)
  have h4 : ListStep listBootMiddle listBootRemoved := by
    refine listBootMiddle.step_next ?_ (by decide +kernel)
    show listBootMiddle.members ≠ []
    decide +kernel
  have hrun : Relation.ReflTransGen ListStep listBoot listBootRemoved :=
    (((Relation.ReflTransGen.single h1).tail h2).tail h3).tail h4
  have hmembers : listBootRemoved.members = [0x10, 0x20] := by decide +kernel
  have hrep := (list_runs_represent_sequences hstart hrun).1
  rw [hmembers] at hrep
  exact ⟨hstart, hrun, hrep, by decide +kernel⟩

end KaworuOS.Proofs
