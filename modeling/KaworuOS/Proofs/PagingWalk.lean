import KaworuOS.Proofs.PagingTree

/-!
# Walking a page table

A walk without allocation reads the tree. A walk that allocates extends the tree along the path of
one page, taking one free frame for each table that is missing; if the frames run out, `pmm_alloc`
has failed.
-/

namespace KaworuOS.Proofs
open Lib

/-- The tree `T` is in memory, and none of its tables is free. -/
structure TableInv (s : Mm) (root : Nat) (T : Tree) (free : List Nat) : Prop where
  pmm : PmmInv s free
  tree : TreeRep s.hhdm s.mem root T
  apart : ∀ {f}, T.IsTable f → f ∉ free

/-- The tree has grown by tables in the frames `used`, which were the first free ones. -/
structure Grows (root : Nat) (s : Mm) (T : Tree) (free : List Nat) (s' : Mm) (T' : Tree)
    (free' used : List Nat) : Prop where
  inv : TableInv s' root T' free'
  split : free = used ++ free'
  hhdm : s'.hhdm = s.hhdm
  heap : s'.heap = s.heap
  log : s'.log = s.log
  keep : ∀ {l k f}, T.node l k = some f → T'.node l k = some f
  tables : ∀ {f}, T'.IsTable f ↔ T.IsTable f ∨ f ∈ used
  mem : ∀ {x}, (∀ f, T'.IsTable f → ¬InPage s.hhdm f x) → s'.mem x = s.mem x

/-- The number of the page that `va` lies in; only 48 bits of an address are translated. -/
def pageOf (va : Nat) : Nat := va % 2 ^ 48 / 4096

/-- The table of level `l` and key `k` lies on the way to the page `p`, below the root. -/
def OnPath (p l k : Nat) : Prop :=
  (l = 1 ∧ k = p / 512 / 512 / 512) ∨ (l = 2 ∧ k = p / 512 / 512) ∨ (l = 3 ∧ k = p / 512)

/-- One if the table is not there. -/
def miss (T : Tree) (l k : Nat) : Nat := if T.node l k = none then 1 else 0

/-- The number of tables missing on the way to the page `p`. -/
def missing (T : Tree) (p : Nat) : Nat :=
  miss T 1 (p / 512 / 512 / 512) + miss T 2 (p / 512 / 512) + miss T 3 (p / 512)

variable {s s' s'' : Mm} {root l k p f g va : Nat} {T T' T'' : Tree} {free free' free'' used used' : List Nat}
variable {m : Mm → Nat} [Gauge m]

lemma missing_le (T : Tree) (p : Nat) : missing T p ≤ 3 := by
  have hle : ∀ l k, miss T l k ≤ 1 := by
    intro l k
    unfold miss
    split <;> omega
  have h1 := hle 1 (p / 512 / 512 / 512)
  have h2 := hle 2 (p / 512 / 512)
  have h3 := hle 3 (p / 512)
  unfold missing
  omega

lemma pageOf_lt (va : Nat) : pageOf va < 2 ^ 36 := by
  unfold pageOf
  omega

lemma levelIndex_eq (level va : Nat) : levelIndex level va = va / 2 ^ (39 - 9 * level) % 512 := by
  rw [levelIndex, Nat.shiftRight_eq_div_pow]
  exact Nat.and_two_pow_sub_one_eq_mod _ 9

lemma levelIndex_zero (va : Nat) : levelIndex 0 va = pageOf va / 512 / 512 / 512 % 512 := by
  rw [levelIndex_eq, pageOf]
  omega

lemma levelIndex_one (va : Nat) : levelIndex 1 va = pageOf va / 512 / 512 % 512 := by
  rw [levelIndex_eq, pageOf]
  omega

lemma levelIndex_two (va : Nat) : levelIndex 2 va = pageOf va / 512 % 512 := by
  rw [levelIndex_eq, pageOf]
  omega

lemma levelIndex_three (va : Nat) : levelIndex 3 va = pageOf va % 512 := by
  rw [levelIndex_eq, pageOf]
  omega

lemma Grows.refl (h : TableInv s root T free) : Grows root s T free s T free [] where
  inv := h
  split := rfl
  hhdm := rfl
  heap := rfl
  log := rfl
  keep := id
  tables := by simp
  mem := fun _ => rfl

lemma Grows.trans (h : Grows root s T free s' T' free' used)
    (h' : Grows root s' T' free' s'' T'' free'' used') :
    Grows root s T free s'' T'' free'' (used ++ used') where
  inv := h'.inv
  split := by rw [h.split, h'.split, List.append_assoc]
  hhdm := h'.hhdm.trans h.hhdm
  heap := h'.heap.trans h.heap
  log := h'.log.trans h.log
  keep := fun hnode => h'.keep (h.keep hnode)
  tables := by
    intro f
    rw [h'.tables, h.tables, List.mem_append, or_assoc]
  mem := by
    intro x hx
    rw [← h.hhdm] at hx
    rw [h'.mem hx, h.mem]
    intro f hf
    rw [← h.hhdm]
    exact hx f (h'.tables.mpr (.inl hf))

lemma TableInv.frame (h : TableInv s root T free) (hnode : T.node l k = some f) : IsFrame s.hhdm f :=
  h.tree.frame hnode

lemma TableInv.descAddr_eq (h : TableInv s root T free) (hnode : T.node l k = some f) (i : Nat) :
    descAddr (f + s.hhdm) (i % 512) = f + s.hhdm + 8 * (i % 512) :=
  (h.frame hnode).descAddr_eq (Nat.mod_lt _ (by omega))

lemma TableInv.entry_not_isErr (h : TableInv s root T free) (hnode : T.node l k = some f) (i : Nat) :
    isErrValue (f + s.hhdm + 8 * (i % 512)) = false :=
  (h.frame hnode).not_isErr h.pmm.good.aligned (Nat.mod_lt _ (by omega))

lemma TableInv.table_not_isErr (h : TableInv s root T free) (hnode : T.node l k = some f) :
    isErrValue (f + s.hhdm) = false :=
  h.entry_not_isErr hnode 0

lemma mono_tableNextTable (td : Nat) (allocate : Bool) :
    Call.Mono m (tableNextTable td allocate) := by
  apply Call.mono_bind (mono_readWord _)
  intro raw
  apply Call.mono_ite (mono_pmmPhysToVirt _)
  apply Call.mono_ite
  · apply Call.mono_bind mono_pmmAlloc
    intro pa
    apply Call.mono_bind (mono_pmmPhysToVirt _)
    intro page
    exact Call.mono_bind (mono_writeWord _ _) (fun _ => Call.mono_pure _)
  · exact Call.mono_pure _

lemma mono_walkPagetable (table va : Nat) (allocate : Bool) :
    Call.Mono m (walkPagetable table va allocate) := by
  apply Call.mono_bind (mono_tableNextTable _ _)
  intro l1
  apply Call.mono_ite (Call.mono_pure _)
  apply Call.mono_bind (mono_tableNextTable _ _)
  intro l2
  apply Call.mono_ite (Call.mono_pure _)
  apply Call.mono_bind (mono_tableNextTable _ _)
  intro l3
  exact Call.mono_ite (Call.mono_pure _) (Call.mono_pure _)

/-- The tree has the table `g` at level `l` and key `k`, and only this one may be new. -/
structure Ensured (root : Nat) (s : Mm) (T : Tree) (free : List Nat) (l k g : Nat) (s' : Mm) (T' : Tree)
    (free' used : List Nat) : Prop where
  grows : Grows root s T free s' T' free' used
  table : T'.node l k = some g
  leaf : T'.leaf = T.leaf
  only : ∀ l' k', ¬(l' = l ∧ k' = k) → T'.node l' k' = T.node l' k'
  length : used.length = miss T l k

lemma Ensured.nodes (h : Ensured root s T free l k g s' T' free' used) (l' k' : Nat) :
    T'.node l' k' ≠ none ↔ T.node l' k' ≠ none ∨ (l' = l ∧ k' = k) := by
  by_cases hat : l' = l ∧ k' = k
  · obtain ⟨rfl, rfl⟩ := hat
    simp [h.table]
  · rw [h.only l' k' hat]
    simp [hat]

lemma Ensured.miss_eq (h : Ensured root s T free l k g s' T' free' used) {l' k' : Nat} (hl : l' ≠ l) :
    miss T' l' k' = miss T l' k' := by
  rw [miss, miss, h.only l' k' (fun hat => hl hat.1)]

lemma Ensured.not_isErr (h : Ensured root s T free l k g s' T' free' used) :
    ¬isErrValue (g + s.hhdm) = true := by
  rw [← h.grows.hhdm, h.grows.inv.table_not_isErr h.table]
  decide

lemma Grows.failures_eq (h : Grows root s T free s' T' free' used) : failures s' = failures s := by
  rw [failures, h.log, failures]

lemma Grows.length (h : Grows root s T free s' T' free' used) :
    free.length = used.length + free'.length := by
  rw [h.split, List.length_append]

section NextTable

variable (h : TableInv s root T free) (hl : l < 3) (hf : T.node l (k / 512) = some f)
include h hl hf

lemma readWord_entry : readWord (descAddr (f + s.hhdm) (k % 512)) s =
    (.ok (nodeRaw (T.node (l + 1) k)), s) := by
  rw [h.descAddr_eq hf, readWord_ok (h.entry_not_isErr hf k), h.tree.entry hl hf]

lemma tableNextTable_some (hg : T.node (l + 1) k = some g) (allocate : Bool) :
    tableNextTable (descAddr (f + s.hhdm) (k % 512)) allocate s = (.ok (g + s.hhdm), s) := by
  have hframe := h.frame hg
  have htop := hframe.top
  rw [tableNextTable, Call.bind_ok (readWord_entry h hl hf), hg, nodeRaw,
    if_pos (tableEntry_isValid g), tableEntry_next hframe.aligned hframe.bound]
  exact pmmPhysToVirt_ok (by omega)

lemma tableNextTable_none (hg : T.node (l + 1) k = none) :
    tableNextTable (descAddr (f + s.hhdm) (k % 512)) false s = (.ok (errToPtr .ENOMEM), s) := by
  rw [tableNextTable, Call.bind_ok (readWord_entry h hl hf), hg, nodeRaw, if_neg not_isValid_zero]
  rfl

lemma tableNextTable_fail (hg : T.node (l + 1) k = none) (hfree : free = []) :
    failures s < failures (tableNextTable (descAddr (f + s.hhdm) (k % 512)) true s).2 := by
  have hpmm : PmmInv s [] := hfree ▸ h.pmm
  rw [tableNextTable, Call.bind_ok (readWord_entry h hl hf), hg, nodeRaw, if_neg not_isValid_zero]
  simp only [if_true]
  apply Call.lt_bind
  · intro pa
    apply Call.mono_bind (mono_pmmPhysToVirt _)
    intro page
    exact Call.mono_bind (mono_writeWord _ _) (fun _ => Call.mono_pure _)
  · rw [pmmAlloc_nil hpmm]
    exact Nat.lt_succ_self _

lemma tableNextTable_make (hk : k < 512 ^ (l + 1)) (hg : T.node (l + 1) k = none)
    (hfree : free = g :: free') :
    ∃ s', tableNextTable (descAddr (f + s.hhdm) (k % 512)) true s = (.ok (g + s.hhdm), s') ∧
      Grows root s T free s' (T.addNode (l + 1) k g) free' [g] := by
  have hpmm : PmmInv s (g :: free') := hfree ▸ h.pmm
  have hframe := hpmm.frames g (by simp)
  have htop := hframe.top
  have hgfree : g ∈ free := by rw [hfree]; simp
  have hnew : ¬T.IsTable g := fun ht => h.apart ht hgfree
  have hmod : k % 512 < 512 := Nat.mod_lt _ (by omega)
  have hphys : pmmPhysToVirt g (takeFrame s g) = (.ok (g + s.hhdm), takeFrame s g) :=
    pmmPhysToVirt_ok (s := takeFrame s g) (by show g + s.hhdm < 2 ^ 64; omega)
  have hwrite : writeWord (f + s.hhdm + 8 * (k % 512)) (tableEntry g) (takeFrame s g) =
      (.ok (), { takeFrame s g with mem := linkTable s.hhdm s.mem f (k % 512) g }) :=
    writeWord_ok (h.entry_not_isErr hf k)
  refine ⟨{ takeFrame s g with mem := linkTable s.hhdm s.mem f (k % 512) g }, ?_, ?_⟩
  · rw [tableNextTable, Call.bind_ok (readWord_entry h hl hf), hg, nodeRaw, if_neg not_isValid_zero]
    simp only [if_true]
    rw [Call.bind_ok (pmmAlloc_cons hpmm), Call.bind_ok hphys, h.descAddr_eq hf, Call.bind_ok hwrite]
    rfl
  · have htables : ∀ {x}, (T.addNode (l + 1) k g).IsTable x ↔ T.IsTable x ∨ x ∈ [g] := by
      intro x
      rw [List.mem_singleton]
      constructor
      · rintro ⟨l', k', hnode⟩
        by_cases hat : l' = l + 1 ∧ k' = k
        · obtain ⟨rfl, rfl⟩ := hat
          rw [Tree.addNode_same] at hnode
          exact .inr (Option.some.inj hnode).symm
        · rw [Tree.addNode_other _ _ hat] at hnode
          exact .inl ⟨l', k', hnode⟩
      · rintro (⟨l', k', hnode⟩ | rfl)
        · refine ⟨l', k', ?_⟩
          rw [Tree.addNode_other _ _ (by rintro ⟨rfl, rfl⟩; rw [hg] at hnode; cases hnode)]
          exact hnode
        · exact ⟨l + 1, k, Tree.addNode_same _ _ _ _⟩
    have hnodup := List.nodup_cons.mp hpmm.nodup
    refine ⟨⟨?_, ?_, ?_⟩, hfree, rfl, rfl, rfl, ?_, htables, ?_⟩
    · refine hpmm.take.congr ?_ ?_ ?_
      · rfl
      · rfl
      intro x hx
      have hxf : x ≠ f := by
        rintro rfl
        exact h.apart ⟨l, _, hf⟩ (by rw [hfree]; simp [hx])
      exact samePage_store _ (hpmm.frames x (by simp [hx])) (h.frame hf) hxf hmod
    · exact h.tree.addNode hl hk hf hg hframe hnew
    · intro x hx hmem
      rcases htables.mp hx with hx | hx
      · exact h.apart hx (by rw [hfree]; simp [hmem])
      · rw [List.mem_singleton.mp hx] at hmem
        exact hnodup.1 hmem
    · intro l' k' f' hnode
      rw [Tree.addNode_other _ _ (by rintro ⟨rfl, rfl⟩; rw [hg] at hnode; cases hnode)]
      exact hnode
    · intro x hx
      have hxf : ¬InPage s.hhdm f x := hx f (htables.mpr (.inl ⟨l, _, hf⟩))
      have hxg : ¬InPage s.hhdm g x := hx g (htables.mpr (.inr (by simp)))
      unfold InPage at hxf hxg
      show linkTable s.hhdm s.mem f (k % 512) g x = s.mem x
      have h1 : ¬(f + s.hhdm + 8 * (k % 512) ≤ x ∧ x < f + s.hhdm + 8 * (k % 512) + 8) := by omega
      simp only [linkTable, Mem.store64, Mem.fill, if_neg h1, if_neg hxg]

lemma tableNextTable_grow (hk : k < 512 ^ (l + 1)) :
    (failures s < failures (tableNextTable (descAddr (f + s.hhdm) (k % 512)) true s).2 ∧
      free.length < miss T (l + 1) k) ∨
    ∃ g s' T' free' used,
      tableNextTable (descAddr (f + s.hhdm) (k % 512)) true s = (.ok (g + s.hhdm), s') ∧
      Ensured root s T free (l + 1) k g s' T' free' used := by
  cases hg : T.node (l + 1) k with
  | some g =>
    right
    refine ⟨g, s, T, free, [], tableNextTable_some h hl hf hg true, Grows.refl h, hg, rfl, ?_, ?_⟩
    · intros
      rfl
    · simp [miss, hg]
  | none =>
    cases hfree : free with
    | nil =>
      left
      refine ⟨tableNextTable_fail h hl hf hg hfree, ?_⟩
      simp [miss, hg]
    | cons g free' =>
      right
      obtain ⟨s', hrun, hgrow⟩ := tableNextTable_make h hl hf hk hg hfree
      rw [hfree] at hgrow
      refine ⟨g, s', _, free', [g], hrun, hgrow, Tree.addNode_same _ _ _ _, rfl, ?_, ?_⟩
      · intro l' k' hat
        exact Tree.addNode_other _ _ hat
      · simp [miss, hg]

end NextTable

/-- The pointer that a walk without allocation returns for the page `p`. -/
def descPtr (hhdm : Nat) (T : Tree) (p : Nat) : Nat :=
  match T.node 3 (p / 512) with
  | some f => f + hhdm + 8 * (p % 512)
  | none => errToPtr .ENOMEM

lemma TableInv.root_key (h : TableInv s root T free) (hp : p < 2 ^ 36) :
    T.node 0 (p / 512 / 512 / 512 / 512) = some root := by
  have h0 : p / 512 / 512 / 512 / 512 = 0 := by omega
  rw [h0]
  exact h.tree.root

lemma walk_lookup (h : TableInv s root T free) (va : Nat) :
    walkPagetable (root + s.hhdm) va false s = (.ok (descPtr s.hhdm T (pageOf va)), s) := by
  rw [walkPagetable, levelIndex_zero, levelIndex_one, levelIndex_two, levelIndex_three]
  have hroot := h.root_key (pageOf_lt va)
  generalize pageOf va = p at hroot
  cases h1 : T.node 1 (p / 512 / 512 / 512) with
  | none =>
    have h3 : T.node 3 (p / 512) = none := h.tree.child_none (h.tree.child_none h1)
    rw [Call.bind_ok (tableNextTable_none h (by omega) hroot h1), if_pos isErrValue_errToPtr, descPtr, h3]
    rfl
  | some f1 =>
    rw [Call.bind_ok (tableNextTable_some h (by omega) hroot h1 false),
      if_neg (by rw [h.table_not_isErr h1]; decide)]
    cases h2 : T.node 2 (p / 512 / 512) with
    | none =>
      have h3 : T.node 3 (p / 512) = none := h.tree.child_none h2
      rw [Call.bind_ok (tableNextTable_none h (by omega) h1 h2), if_pos isErrValue_errToPtr, descPtr, h3]
      rfl
    | some f2 =>
      rw [Call.bind_ok (tableNextTable_some h (by omega) h1 h2 false),
        if_neg (by rw [h.table_not_isErr h2]; decide)]
      cases h3 : T.node 3 (p / 512) with
      | none =>
        rw [Call.bind_ok (tableNextTable_none h (by omega) h2 h3), if_pos isErrValue_errToPtr, descPtr, h3]
        rfl
      | some f3 =>
        rw [Call.bind_ok (tableNextTable_some h (by omega) h2 h3 false),
          if_neg (by rw [h.table_not_isErr h3]; decide), h.descAddr_eq h3, descPtr, h3]
        rfl

/-- What a walk with allocation has done for the page `p`. -/
structure Walked (root : Nat) (s : Mm) (T : Tree) (free : List Nat) (p f : Nat) (s' : Mm) (T' : Tree)
    (free' used : List Nat) : Prop where
  grows : Grows root s T free s' T' free' used
  table : T'.node 3 (p / 512) = some f
  leaf : T'.leaf = T.leaf
  nodes : ∀ l k, T'.node l k ≠ none ↔ T.node l k ≠ none ∨ OnPath p l k
  length : used.length = missing T p

lemma walk_grow (h : TableInv s root T free) (va : Nat) :
    (failures s < failures (walkPagetable (root + s.hhdm) va true s).2 ∧
      free.length < missing T (pageOf va)) ∨
    ∃ f s' T' free' used,
      walkPagetable (root + s.hhdm) va true s = (.ok (f + s.hhdm + 8 * (pageOf va % 512)), s') ∧
      Walked root s T free (pageOf va) f s' T' free' used := by
  rw [walkPagetable, levelIndex_zero, levelIndex_one, levelIndex_two, levelIndex_three]
  have hroot := h.root_key (pageOf_lt va)
  have hp := pageOf_lt va
  generalize pageOf va = p at hroot hp
  have hmissing : missing T p = miss T (0 + 1) (p / 512 / 512 / 512) +
      miss T (0 + 1 + 1) (p / 512 / 512) + miss T (0 + 1 + 1 + 1) (p / 512) := rfl
  have hmono2 : ∀ l2, Call.Mono failures (do
      if isErrValue l2 then return l2
      let l3 ← tableNextTable (descAddr l2 (p / 512 % 512)) true
      if isErrValue l3 then return l3
      return descAddr l3 (p % 512)) := by
    intro l2
    apply Call.mono_ite (Call.mono_pure _)
    apply Call.mono_bind (mono_tableNextTable _ _)
    intro l3
    exact Call.mono_ite (Call.mono_pure _) (Call.mono_pure _)
  rcases tableNextTable_grow h (by omega) hroot (by omega) with
    ⟨hfail, hlen⟩ | ⟨f1, s1, T1, free1, used1, hrun1, he1⟩
  · left
    refine ⟨Call.lt_bind (fun l1 => ?_) hfail, ?_⟩
    · apply Call.mono_ite (Call.mono_pure _)
      exact Call.mono_bind (mono_tableNextTable _ _) hmono2
    · rw [hmissing]
      omega
  rw [Call.bind_ok hrun1, if_neg he1.not_isErr, ← he1.grows.hhdm]
  have hlen1 := he1.grows.length
  have hmiss1 := he1.length
  rcases tableNextTable_grow he1.grows.inv (by omega) he1.table (by omega) with
    ⟨hfail, hlen⟩ | ⟨f2, s2, T2, free2, used2, hrun2, he2⟩
  · left
    rw [he1.miss_eq (by omega)] at hlen
    refine ⟨?_, ?_⟩
    · rw [← he1.grows.failures_eq]
      exact Call.lt_bind hmono2 hfail
    · rw [hmissing]
      omega
  rw [Call.bind_ok hrun2, if_neg he2.not_isErr, ← he2.grows.hhdm]
  have hlen2 := he2.grows.length
  have hmiss2 := he2.length
  rw [he1.miss_eq (by omega)] at hmiss2
  rcases tableNextTable_grow he2.grows.inv (by omega) he2.table (by omega) with
    ⟨hfail, hlen⟩ | ⟨f3, s3, T3, free3, used3, hrun3, he3⟩
  · left
    rw [he2.miss_eq (by omega), he1.miss_eq (by omega)] at hlen
    refine ⟨?_, ?_⟩
    · rw [← he1.grows.failures_eq, ← he2.grows.failures_eq]
      exact Call.lt_bind (fun l3 => Call.mono_ite (Call.mono_pure _) (Call.mono_pure _)) hfail
    · rw [hmissing]
      omega
  right
  have hmiss3 := he3.length
  rw [he2.miss_eq (by omega), he1.miss_eq (by omega)] at hmiss3
  have hptr : descAddr (f3 + s2.hhdm) (p % 512) = f3 + s2.hhdm + 8 * (p % 512) := by
    rw [← he3.grows.hhdm]
    exact he3.grows.inv.descAddr_eq he3.table p
  rw [Call.bind_ok hrun3, if_neg he3.not_isErr, hptr]
  refine ⟨f3, s3, T3, free3, used1 ++ used2 ++ used3, rfl,
    (he1.grows.trans he2.grows).trans he3.grows, he3.table, ?_, ?_, ?_⟩
  · rw [he3.leaf, he2.leaf, he1.leaf]
  · intro l k
    rw [he3.nodes, he2.nodes, he1.nodes, OnPath, or_assoc, or_assoc]
  · rw [List.length_append, List.length_append, hmiss1, hmiss2, hmiss3, hmissing]

end KaworuOS.Proofs
