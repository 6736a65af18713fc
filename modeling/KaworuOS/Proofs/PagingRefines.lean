import KaworuOS.Proofs.PagingMap

/-!
# Runs of `paging_map` and `paging_unmap` on a new table

The abstract side is a map from page numbers to mappings, updated by each call. The lookups of the
page table answer as this map does after every run, and the calls panic exactly when the map says
that they must.
-/

namespace KaworuOS.Proofs
open Lib

/-- The tree of a table that has just been created. -/
def emptyTree (root : Nat) : Tree where
  node l k := if l = 0 ∧ k = 0 then some root else none
  leaf _ := none

variable {s s' : Mm} {root f base : Nat} {T T' : Tree} {free free' used : List Nat}
variable {m : Mm → Nat} [Gauge m]

lemma emptyTree_node {l k : Nat} (h : (emptyTree root).node l k = some f) : l = 0 ∧ k = 0 ∧ f = root := by
  simp only [emptyTree] at h
  by_cases h0 : l = 0 ∧ k = 0
  · rw [if_pos h0] at h
    exact ⟨h0.1, h0.2, (Option.some.inj h).symm⟩
  · rw [if_neg h0] at h
    cases h

lemma emptyTree_isTable : (emptyTree root).IsTable f ↔ f = root := by
  constructor
  · rintro ⟨l, k, hnode⟩
    exact (emptyTree_node hnode).2.2
  · rintro rfl
    exact ⟨0, 0, rfl⟩

lemma emptyTree_rep {hhdm : Nat} {mem : Mem} (hroot : IsFrame hhdm root)
    (hzero : ∀ i < 512, mem.load64 (root + hhdm + 8 * i) = 0) :
    TreeRep hhdm mem root (emptyTree root) := by
  constructor
  case root => rfl
  case bound =>
    intro l k f hnode
    obtain ⟨rfl, rfl, rfl⟩ := emptyTree_node hnode
    exact ⟨by omega, by simp⟩
  case frame =>
    intro l k f hnode
    obtain ⟨rfl, rfl, rfl⟩ := emptyTree_node hnode
    exact hroot
  case inj =>
    intro l k l' k' f h1 h2
    obtain ⟨rfl, rfl, rfl⟩ := emptyTree_node h1
    obtain ⟨rfl, rfl, -⟩ := emptyTree_node h2
    exact ⟨rfl, rfl⟩
  case parent =>
    intro l k f hnode
    have h1 := (emptyTree_node hnode).1
    omega
  case entry =>
    intro l k f hl hnode
    obtain ⟨rfl, hk, rfl⟩ := emptyTree_node hnode
    rw [hzero _ (by omega)]
    rfl
  case leafEntry =>
    intro p f hnode
    have h1 := (emptyTree_node hnode).1
    omega
  case leafTable =>
    intro p l h
    cases h
  case leafFrame =>
    intro p l h
    cases h

/-- The state after `paging_create_table` has made a table in the frame `f`. -/
def createTable (s : Mm) (f : Nat) : Mm :=
  { takeFrame s f with mem := (takeFrame s f).mem.fill (f + s.hhdm) 4096 0 }

lemma pagingCreateTable_nil (h : PmmInv s []) :
    pagingCreateTable s =
      (.ok (errToPtr .ENOMEM), { s with log := { s.log with failed := s.log.failed + 1 } }) := by
  rw [pagingCreateTable, Call.bind_ok (pmmAlloc_nil h), if_pos isErrValue_errToPtr]
  rfl

lemma isErrValue_frame {hhdm : Nat} (h : IsFrame hhdm f) : isErrValue f = false := by
  have h1 := h.bound
  exact not_isErrValue_of_lt (by omega)

lemma pagingCreateTable_cons (h : PmmInv s (f :: free)) :
    pagingCreateTable s = (.ok (f + s.hhdm), createTable s f) := by
  have hf := h.frames f (by simp)
  have htop := hf.top
  have hphys : pmmPhysToVirt f (takeFrame s f) = (.ok (f + s.hhdm), takeFrame s f) :=
    pmmPhysToVirt_ok (s := takeFrame s f) (by show f + s.hhdm < 2 ^ 64; omega)
  rw [pagingCreateTable, Call.bind_ok (pmmAlloc_cons h), if_neg (by rw [isErrValue_frame hf]; decide),
    Call.bind_ok hphys]
  rfl

lemma PmmInv.createTable (h : PmmInv s (f :: free)) :
    TableInv (createTable s f) f (emptyTree f) free := by
  have hnodup := List.nodup_cons.mp h.nodup
  have hf := h.frames f (by simp)
  refine ⟨?_, emptyTree_rep hf ?_, ?_⟩
  · refine h.take.congr ?_ ?_ ?_
    · rfl
    · rfl
    intro g hg
    have hne : g ≠ f := by
      rintro rfl
      exact hnodup.1 hg
    exact samePage_fill _ (h.frames g (by simp [hg])) hf hne
  · intro i hi
    show ((takeFrame s f).mem.fill (f + s.hhdm) 4096 0).load64 (f + s.hhdm + 8 * i) = 0
    exact Mem.load64_fill_zero _ (by omega) (by omega)
  · intro g hg
    rw [emptyTree_isTable.mp hg]
    exact hnodup.1

/-- The attributes of the data pages of a process. -/
def userAttrs : PageAttrs :=
  ⟨.EL1_READ_WRITE_EL0_READ_WRITE, ATTR_INDEX_NORMAL, .SHAREABLE_INNER_SHAREABLE, .NOT_EXECUTABLE,
    .NOT_EXECUTABLE⟩

/-- A call of `paging_map` or of `paging_unmap`. -/
inductive PagingOp
  | map (va pa size : Nat) (attrs : PageAttrs)
  | unmap (va size : Nat)

namespace PagingOp

def va : PagingOp → Nat
  | map va _ _ _ => va
  | unmap va _ => va

def size : PagingOp → Nat
  | map _ _ size _ => size
  | unmap _ size => size

/-- Makes the call. -/
def exec (table : Nat) : PagingOp → Kernel Nat
  | map va pa size attrs => pagingMap table va pa size attrs
  | unmap va size => do
    pagingUnmap table va size
    return 0

/-- What the call does to the abstract map. -/
def apply (M : Nat → Option Leaf) : PagingOp → Nat → Option Leaf
  | map va pa size attrs => mapRange M (pageOf va) (size / 4096) pa attrs
  | unmap va size => unmapRange M (pageOf va) (size / 4096)

/-- The page `q` is in the range of the call. -/
def Covers (op : PagingOp) (q : Nat) : Prop :=
  pageOf op.va ≤ q ∧ q < pageOf op.va + op.size / 4096

/-- Some page of the range is mapped already, or is not there to be unmapped. -/
def Conflict (M : Nat → Option Leaf) : PagingOp → Prop
  | op@(map _ _ _ _) => ∃ q, op.Covers q ∧ M q ≠ none
  | op@(unmap _ _) => ∃ q, op.Covers q ∧ M q = none

/-- The call is page aligned, its range lies in the half of the address space from `base` on, and
neither the end of the range nor the end of the frames wraps. -/
def InHalf (base : Nat) : PagingOp → Prop
  | map va pa size _ => (va % 4096 = 0 ∧ pa % 4096 = 0 ∧ size % 4096 = 0) ∧
      base ≤ va ∧ va + size ≤ base + 2 ^ 48 ∧ va + size < 2 ^ 64 ∧ pa + size ≤ 2 ^ 48
  | unmap va size => (va % 4096 = 0 ∧ size % 4096 = 0) ∧
      base ≤ va ∧ va + size ≤ base + 2 ^ 48 ∧ va + size < 2 ^ 64

/-- Makes the calls one after the other. -/
def runAll (table : Nat) : List PagingOp → Kernel Unit :=
  Call.each (fun op => do
    let _ ← op.exec table
    return ())

end PagingOp

/-- One of the two halves of the address space that a table translates. -/
def IsHalf (base : Nat) : Prop := base = 0 ∨ base = 2 ^ 64 - 2 ^ 48

lemma pageIterations_eq {va size : Nat} (h : va + size < 2 ^ 64) : pageIterations va size = size / 4096 := by
  unfold pageIterations
  rw [wadd_of_lt h, Nat.add_sub_cancel_left]

lemma mod_half {base va size : Nat} (hbase : IsHalf base) (h1 : base ≤ va) (h2 : va + size ≤ base + 2 ^ 48)
    (hsize : size % 4096 = 0) : size = 0 ∨ va % 2 ^ 48 + size / 4096 * 4096 ≤ 2 ^ 48 := by
  rcases hbase with rfl | rfl
  · omega
  · omega

lemma mono_pagingUnmapPages (table n va : Nat) : Call.Mono m (pagingUnmapPages table n va) := by
  induction n generalizing va with
  | zero => exact Call.mono_pure _
  | succ n ih =>
    apply Call.mono_bind (mono_walkPagetable _ _ _)
    intro pde
    apply Call.mono_ite (Call.mono_halt _)
    apply Call.mono_bind (mono_readWord _)
    intro raw
    exact Call.mono_ite (Call.mono_bind (mono_writeWord _ _) (fun _ => ih _)) (Call.mono_halt _)

lemma mono_pagingMap (table va pa size : Nat) (attrs : PageAttrs) :
    Call.Mono m (pagingMap table va pa size attrs) :=
  Call.mono_ite (mono_pagingMapPages _ _ _ _ _) (Call.mono_halt _)

lemma mono_pagingUnmap (table va size : Nat) : Call.Mono m (pagingUnmap table va size) :=
  Call.mono_ite (mono_pagingUnmapPages _ _ _) (Call.mono_halt _)

lemma mono_exec (table : Nat) (op : PagingOp) : Call.Mono failures (op.exec table) := by
  cases op with
  | map va pa size attrs => exact mono_pagingMap _ _ _ _ _
  | unmap va size => exact Call.mono_bind (mono_pagingUnmap _ _ _) (fun _ => Call.mono_pure _)

lemma mono_runAll (table : Nat) (ops : List PagingOp) : Call.Mono failures (PagingOp.runAll table ops) :=
  Call.mono_each (fun op => Call.mono_bind (mono_exec table op) (fun _ => Call.mono_pure _)) ops

/-- What one call does to a table: the frames run out, or it panics, or it updates the mappings. -/
lemma exec_cases (hbase : IsHalf base) (h : TableInv s root T free) {op : PagingOp} (hop : op.InHalf base) :
    failures s < failures (op.exec (root + s.hhdm) s).2 ∨
    (op.Conflict T.leaf ∧ (op.exec (root + s.hhdm) s).1 = .error .panic) ∨
    ∃ s' T' free' used, ¬op.Conflict T.leaf ∧ op.exec (root + s.hhdm) s = (.ok 0, s') ∧
      Grows root s T free s' T' free' used ∧ T'.leaf = op.apply T.leaf := by
  cases op with
  | map va pa size attrs =>
    obtain ⟨⟨hva, hpa, hsize⟩, hlo, hhi, hend, hphys⟩ := hop
    have hexec : PagingOp.exec (root + s.hhdm) (.map va pa size attrs) =
        pagingMapPages (root + s.hhdm) attrs (size / 4096) va pa := by
      rw [PagingOp.exec, pagingMap, if_pos (by simp [hva, hpa, hsize]), pageIterations_eq hend]
    have hrange : va % 2 ^ 48 + size / 4096 * 4096 ≤ 2 ^ 48 := by
      rcases mod_half hbase hlo hhi hsize with rfl | h1
      · omega
      · exact h1
    rw [hexec]
    rcases pagingMapPages_spec h attrs hrange hpa (by omega) with
      hfail | ⟨⟨q, h1, h2, hq⟩, hpanic⟩ | ⟨s', T', free', used, hnone, hrun, hg, hleaf⟩
    · exact .inl hfail
    · exact .inr (.inl ⟨⟨q, ⟨h1, h2⟩, hq⟩, hpanic⟩)
    · refine .inr (.inr ⟨s', T', free', used, ?_, hrun, hg, hleaf⟩)
      rintro ⟨q, hq, hsome⟩
      exact hsome (hnone q hq.1 hq.2)
  | unmap va size =>
    obtain ⟨⟨hva, hsize⟩, hlo, hhi, hend⟩ := hop
    have hexec : pagingUnmap (root + s.hhdm) va size =
        pagingUnmapPages (root + s.hhdm) (size / 4096) va := by
      rw [pagingUnmap, if_pos (by simp [hva, hsize]), pageIterations_eq hend]
    have hrange : va % 2 ^ 48 + size / 4096 * 4096 ≤ 2 ^ 48 := by
      rcases mod_half hbase hlo hhi hsize with rfl | h1
      · omega
      · exact h1
    rw [PagingOp.exec, hexec]
    rcases pagingUnmapPages_spec h hrange with ⟨⟨q, h1, h2, hq⟩, hpanic⟩ | ⟨s', hsome, hrun, hg⟩
    · refine .inr (.inl ⟨⟨q, ⟨h1, h2⟩, hq⟩, ?_⟩)
      rcases hr : pagingUnmapPages (root + s.hhdm) (size / 4096) va s with ⟨r, s'⟩
      rw [hr] at hpanic
      obtain rfl : r = .error .panic := hpanic
      rw [Call.bind_error hr]
    · refine .inr (.inr ⟨s', _, free, [], ?_, Call.bind_ok hrun, hg, rfl⟩)
      rintro ⟨q, hq, hnone⟩
      exact hsome q hq.1 hq.2 hnone

lemma runAll_inv (hbase : IsHalf base) (h : TableInv s root T free) {ops : List PagingOp}
    (hops : ∀ op ∈ ops, op.InHalf base)
    (hrun : PagingOp.runAll (root + s.hhdm) ops s = (.ok (), s')) (hnever : failures s' = failures s) :
    ∃ T' free', TableInv s' root T' free' ∧ s'.hhdm = s.hhdm ∧
      T'.leaf = ops.foldl PagingOp.apply T.leaf := by
  induction ops generalizing s T free with
  | nil =>
    cases hrun
    exact ⟨T, free, h, rfl, rfl⟩
  | cons op ops ih =>
    have hmono : ∀ _ : Unit, Call.Mono failures (PagingOp.runAll (root + s.hhdm) ops) :=
      fun _ => mono_runAll _ _
    have hsplit : PagingOp.runAll (root + s.hhdm) (op :: ops) s =
        ((do let _ ← op.exec (root + s.hhdm); return ()) >>= fun _ =>
          PagingOp.runAll (root + s.hhdm) ops) s := rfl
    rw [hsplit] at hrun
    have hfail : ¬failures s < failures (op.exec (root + s.hhdm) s).2 := by
      intro hlt
      have h1 := Call.lt_bind hmono
        (Call.lt_bind (f := fun _ => (return () : Kernel Unit)) (fun _ => Call.mono_pure _) hlt)
      rw [hrun, hnever] at h1
      exact Nat.lt_irrefl _ h1
    rcases exec_cases hbase h (hops op (by simp)) with
      hlt | ⟨-, hpanic⟩ | ⟨s₁, T₁, free₁, used₁, -, hexec, hg, hleaf⟩
    · exact absurd hlt hfail
    · rcases hr : op.exec (root + s.hhdm) s with ⟨r, s₁⟩
      rw [hr] at hpanic
      obtain rfl : r = .error .panic := hpanic
      rw [Call.bind_error (Call.bind_error hr)] at hrun
      cases hrun
    · have hstep : (do let _ ← op.exec (root + s.hhdm); return () : Kernel Unit) s = (.ok (), s₁) :=
        Call.bind_ok hexec
      rw [Call.bind_ok hstep, ← hg.hhdm] at hrun
      obtain ⟨T', free', hinv, hhdm, hfold⟩ :=
        ih hg.inv (fun op hop => hops op (by simp [hop])) hrun (by rw [hnever, hg.failures_eq])
      exact ⟨T', free', hinv, hhdm.trans hg.hhdm, by rw [hfold, hleaf]; rfl⟩

/-- What the lookups say about `va` is the mapping `leaf`: `paging_lookup_desc` reaches a valid
descriptor exactly if there is one, with its attributes and its frame. -/
def LookupAgrees (s : Mm) (table va : Nat) (leaf : Option Leaf) : Prop :=
  ∃ pde, pagingLookupDesc table va s = (.ok pde, s) ∧
    ((isErrValue pde = false ∧ PageDescriptor.isValid.get (s.mem.load64 pde) = 1) ↔ leaf ≠ none) ∧
    ∀ l, leaf = some l →
      PageDescriptor.ap.get (s.mem.load64 pde) = l.attrs.perms.code ∧
      PageDescriptor.attrIndex.get (s.mem.load64 pde) = l.attrs.attrIndex ∧
      PageDescriptor.sh.get (s.mem.load64 pde) = l.attrs.shareability.code ∧
      PageDescriptor.pxn.get (s.mem.load64 pde) = l.attrs.privilegeExecution.code ∧
      PageDescriptor.uxnXn.get (s.mem.load64 pde) = l.attrs.underprivilegeExecution.code ∧
      pagingPageToPa pde va s = (.ok (l.pa + va % 4096), s)

/-- The valid descriptor that `paging_lookup_desc` reaches, if any. -/
def validDesc (table va : Nat) (s : Mm) : Option Nat :=
  match (pagingLookupDesc table va s).1 with
  | .ok pde =>
    if isErrValue pde = false ∧ PageDescriptor.isValid.get (s.mem.load64 pde) = 1 then
      some (s.mem.load64 pde)
    else none
  | .error _ => none

lemma pageDesc_or_offset {pa : Nat} (haligned : pa % 4096 = 0) (va : Nat) :
    pa ||| (va &&& (PAGE_SIZE - 1)) = pa + va % 4096 := by
  have hmask : va &&& (PAGE_SIZE - 1) = va % 4096 := Nat.and_two_pow_sub_one_eq_mod va 12
  have hpa : pa = (pa / 4096) <<< 12 := by
    rw [Nat.shiftLeft_eq]
    omega
  rw [hmask, hpa]
  exact (Nat.shiftLeft_add_eq_or_of_lt (by omega) _).symm

lemma pagingPageToPa_leaf (h : TableInv s root T free) {p : Nat} (hf : T.node 3 (p / 512) = some f)
    {l : Leaf} (hl : T.leaf p = some l) (va : Nat) :
    pagingPageToPa (f + s.hhdm + 8 * (p % 512)) va s = (.ok (l.pa + va % 4096), s) := by
  obtain ⟨haligned, hbound⟩ := h.tree.leafFrame hl
  rw [pagingPageToPa, Call.bind_ok (h.readWord_leaf hf), hl, leafRaw, pageEntry_output _ _ haligned hbound,
    pageDesc_or_offset haligned]
  rfl

lemma TableInv.lookupAgrees (h : TableInv s root T free) (va : Nat) :
    LookupAgrees s (root + s.hhdm) va (T.leaf (pageOf va)) := by
  refine ⟨descPtr s.hhdm T (pageOf va), walk_lookup h va, ?_⟩
  cases hf : T.node 3 (pageOf va / 512) with
  | none =>
    rw [descPtr, hf, h.tree.leaf_none hf]
    simp [isErrValue_errToPtr]
  | some f =>
    have hentry := h.tree.leafEntry hf
    have herr := h.entry_not_isErr hf (pageOf va)
    rw [descPtr, hf]
    dsimp only
    rw [hentry, herr]
    refine ⟨by simp [leafRaw_isValid], ?_⟩
    intro l hl
    have hpa := pagingPageToPa_leaf h hf hl va
    rw [hl, leafRaw]
    exact ⟨pageEntry_ap _ _ _, pageEntry_attrIndex _ _ _, pageEntry_sh _ _ _, pageEntry_pxn _ _ _,
      pageEntry_uxnXn _ _ _, hpa⟩

lemma TableInv.validDesc_eq (h : TableInv s root T free) (va : Nat) :
    validDesc (root + s.hhdm) va s = (T.leaf (pageOf va)).map (fun l => leafRaw (some l)) := by
  rw [validDesc, pagingLookupDesc, walk_lookup h va]
  dsimp only
  cases hf : T.node 3 (pageOf va / 512) with
  | none =>
    rw [descPtr, hf, h.tree.leaf_none hf]
    dsimp only
    rw [if_neg (by rw [isErrValue_errToPtr]; simp)]
    rfl
  | some f =>
    rw [descPtr, hf]
    dsimp only
    rw [h.tree.leafEntry hf, h.entry_not_isErr hf (pageOf va)]
    cases hl : T.leaf (pageOf va) with
    | none => simp [leafRaw_isValid]
    | some l => simp [leafRaw_isValid]

lemma PagingOp.apply_of_not_covers {M : Nat → Option Leaf} {op : PagingOp} {q : Nat} (h : ¬op.Covers q) :
    op.apply M q = M q := by
  cases op with
  | map va pa size attrs => exact if_neg h
  | unmap va size => exact if_neg h

/-- What the next call does on a table that holds the mappings `M`. -/
structure CallRefines (s : Mm) (table : Nat) (M : Nat → Option Leaf) (op : PagingOp) : Prop where
  panics : (op.exec table s).1 = .error .panic ↔ op.Conflict M
  returns : ¬op.Conflict M → ∃ s', op.exec table s = (.ok 0, s')
  others : ∀ s', op.exec table s = (.ok 0, s') → ∀ va, ¬op.Covers (pageOf va) →
    validDesc table va s' = validDesc table va s

lemma TableInv.callRefines (hbase : IsHalf base) (h : TableInv s root T free) {op : PagingOp}
    (hop : op.InHalf base) (hnever : failures (op.exec (root + s.hhdm) s).2 = failures s) :
    CallRefines s (root + s.hhdm) T.leaf op := by
  rcases exec_cases hbase h hop with hlt | ⟨hconf, hpanic⟩ | ⟨s', T', free', used, hok, hexec, hg, hleaf⟩
  · omega
  · refine ⟨⟨fun _ => hconf, fun _ => hpanic⟩, fun hno => absurd hconf hno, ?_⟩
    intro s' hexec
    rw [hexec] at hpanic
    cases hpanic
  · refine ⟨⟨fun hpanic => ?_, fun hconf => absurd hconf hok⟩, fun _ => ⟨s', hexec⟩, ?_⟩
    · rw [hexec] at hpanic
      cases hpanic
    · intro s₂ hexec₂ va hva
      obtain rfl : s' = s₂ := (Prod.mk.inj (hexec.symm.trans hexec₂)).2
      have h1 := hg.inv.validDesc_eq va
      rw [hg.hhdm] at h1
      rw [h1, h.validDesc_eq va, hleaf, PagingOp.apply_of_not_covers hva]

/-- After a run on a new table in which `pmm_alloc` never fails, the memory holds a tree with the
mappings that the calls have made. -/
lemma created_run_inv {s₀ s₁ s : Mm} {table : Nat} (hpmm : PmmInv s₀ free)
    (hcreate : pagingCreateTable s₀ = (.ok table, s₁)) (hbase : IsHalf base) {ops : List PagingOp}
    (hops : ∀ op ∈ ops, op.InHalf base) (hrun : PagingOp.runAll table ops s₁ = (.ok (), s))
    (hnever : failures s = failures s₀) :
    ∃ root T free', table = root + s.hhdm ∧ TableInv s root T free' ∧
      T.leaf = ops.foldl PagingOp.apply (fun _ => none) := by
  cases free with
  | nil =>
    rw [pagingCreateTable_nil hpmm] at hcreate
    obtain ⟨-, rfl⟩ := Prod.mk.inj hcreate
    have h1 := mono_runAll table ops { s₀ with log := { s₀.log with failed := s₀.log.failed + 1 } }
    rw [hrun] at h1
    have h2 : failures s₀ + 1 ≤ failures s := h1
    omega
  | cons f free =>
    rw [pagingCreateTable_cons hpmm] at hcreate
    obtain ⟨htable, rfl⟩ := Prod.mk.inj hcreate
    obtain rfl : f + s₀.hhdm = table := Except.ok.inj htable
    obtain ⟨T, free', hinv, hhdm, hleaf⟩ :=
      runAll_inv hbase hpmm.createTable (s := createTable s₀ f) hops hrun hnever
    have hhdm₀ : s.hhdm = s₀.hhdm := hhdm
    exact ⟨f, T, free', by rw [hhdm₀], hinv, hleaf⟩

/-- A table made by `paging_create_table` refines a finite map: after every run of `paging_map` and
`paging_unmap` in one half of the address space in which `pmm_alloc` never fails, the lookups of
every address of this half answer as the map built by the calls, and the next call panics exactly
if it maps a mapped page or unmaps an unmapped one, and otherwise leaves every page outside its
range alone. -/
theorem paging_refines_map {s₀ s₁ s : Mm} {free : List Nat} {table base : Nat} (hpmm : PmmInv s₀ free)
    (hcreate : pagingCreateTable s₀ = (.ok table, s₁)) (hbase : IsHalf base) {ops : List PagingOp}
    (hops : ∀ op ∈ ops, op.InHalf base) (hrun : PagingOp.runAll table ops s₁ = (.ok (), s))
    (hnever : s.log.failed = s₀.log.failed) :
    (∀ va, base ≤ va → va < base + 2 ^ 48 →
      LookupAgrees s table va (ops.foldl PagingOp.apply (fun _ => none) (pageOf va))) ∧
    ∀ op : PagingOp, op.InHalf base → (op.exec table s).2.log.failed = s.log.failed →
      CallRefines s table (ops.foldl PagingOp.apply (fun _ => none)) op := by
  obtain ⟨root, T, free', rfl, hinv, hfold⟩ := created_run_inv hpmm hcreate hbase hops hrun hnever
  rw [← hfold]
  exact ⟨fun va _ _ => hinv.lookupAgrees va, fun op hop hok => hinv.callRefines hbase hop hok⟩

theorem paging_refines_map_run :
    ∃ s, PagingOp.runAll 0x101000
        [.map 0x400000 0x80000 0x2000 userAttrs, .unmap 0x401000 0x1000]
        (createTable (bootMm 0x100000 [0x1000, 0x2000, 0x3000, 0x4000]) 0x1000) = (.ok (), s) ∧
      LookupAgrees s 0x101000 0x400123 (some ⟨0x80000, userAttrs⟩) ∧
      (PagingOp.exec 0x101000 (.unmap 0x401000 0x1000) s).1 = .error .panic := by
  let s₀ := bootMm 0x100000 [0x1000, 0x2000, 0x3000, 0x4000]
  let ops : List PagingOp := [.map 0x400000 0x80000 0x2000 userAttrs, .unmap 0x401000 0x1000]
  let s := (PagingOp.runAll 0x101000 ops (createTable s₀ 0x1000)).2
  have hpmm : PmmInv s₀ [0x1000, 0x2000, 0x3000, 0x4000] :=
    bootMm_inv ⟨by decide, by decide⟩ (by decide) (by decide)
  have hrun : PagingOp.runAll 0x101000 ops (createTable s₀ 0x1000) = (.ok (), s) :=
    Call.eq_of_fst (by decide +kernel)
  have hops : ∀ op ∈ ops, op.InHalf 0 := by
    intro op hop
    rcases List.mem_cons.mp hop with rfl | hop
    · exact ⟨by decide, by decide⟩
    · obtain rfl := List.mem_singleton.mp hop
      exact ⟨by decide, by decide⟩
  have hcreate : pagingCreateTable s₀ = (.ok 0x101000, createTable s₀ 0x1000) := by
    rw [pagingCreateTable_cons hpmm, bootMm_hhdm]
  obtain ⟨hlookup, hcall⟩ := paging_refines_map hpmm hcreate (.inl rfl) hops hrun (by decide +kernel)
  have hnext := hcall (.unmap 0x401000 0x1000) ⟨by decide, by decide⟩ (by decide +kernel)
  refine ⟨s, hrun, hlookup 0x400123 (by decide) (by decide), hnext.panics.mpr ?_⟩
  exact ⟨0x401, ⟨by decide +kernel, by decide +kernel⟩, by decide +kernel⟩

end KaworuOS.Proofs
