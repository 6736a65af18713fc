import KaworuOS.Proofs.FdTableRun

/-!
# Threads that share tables of descriptors

Each section under the lock of a table is one step, so that `fdtable_add` takes two: between them
its thread has a reservation that it has not installed yet. A reservation is outstanding from the
`fdtable_reserve` that made it until its owner installs a file there, or closes the slot.
-/

namespace KaworuOS.Proofs
open Lib

/-- A reservation of a slot (a table and a descriptor). -/
structure Reservation where
  owner : Nat
  slot : Nat × Nat
  deriving DecidableEq

/-- A thread in the middle of `fdtable_add`. -/
structure Adding where
  table : Nat
  file : Nat
  fd : Nat
  deriving DecidableEq

/-- The ghost part of a state: the references, the outstanding reservations, and the threads that are
in the middle of `fdtable_add`. -/
structure Shares where
  refs : Refs
  reserved : List Reservation
  adding : Nat → Option Adding

/-- The steps of a thread. The sections that reservations take no part in are those of `FileOp`. -/
inductive FdAct
  | plain (op : FileOp)
  | reserve (table minFd : Nat)
  | installAt (table file fd : Nat)
  | addReserve (table file : Nat)
  | addInstall (table file fd : Nat)
  | dupAt (table srcFd dstFd : Nat) (closeOnExec : Bool)
  | closeAll (table : Nat)
  | destroy (table : Nat)

/-- A single section that neither makes nor ends reservations. -/
def FileOp.Plain : FileOp → Prop
  | fileCreate .. | filePut _ | create | createFrom _ | getFile .. | closeFileLocked .. | setCloseOnExec .. | dup ..
  | heap _ => True
  | reserve .. | installAt .. | add .. | closeFile .. | dupAt .. | dupAtLocked .. | closeAll _ | closeAllLocked _ =>
    False

namespace Shares

def onRefs (effect : Refs → Refs) (g : Shares) : Shares := { g with refs := effect g.refs }

def reserve (i table : Nat) : Except Errno Nat → Shares → Shares
  | .ok fd, g => { g with reserved := ⟨i, (table, fd)⟩ :: g.reserved }
  | .error _, g => g

def beginAdd (i table file : Nat) : Except Errno Nat → Shares → Shares
  | .ok fd, g => { g with adding := Function.update g.adding i (some ⟨table, file, fd⟩) }
  | .error _, g => g

def endAdd (i : Nat) (g : Shares) : Shares := { g with adding := Function.update g.adding i none }

def settle (i table fd : Nat) (g : Shares) : Shares := { g with reserved := g.reserved.erase ⟨i, (table, fd)⟩ }

def settleAll (i table : Nat) (g : Shares) : Shares :=
  { g with reserved := g.reserved.filter (fun q => !(q.owner == i && q.slot.1 == table)) }

def dropTable (table : Nat) (g : Shares) : Shares :=
  { g with refs := { g.refs with tables := g.refs.tables.erase table } }

end Shares

/-- A step of thread `i` with its effect on the ghost part. -/
def FdAct.call (i : Nat) : FdAct → FileCall (Shares → Shares)
  | plain op => do
    let effect ← op.call
    return Shares.onRefs effect
  | reserve table minFd => do
    let r ← fdtableReserve table minFd
    return Shares.reserve i table r
  | installAt table file fd => do
    let err ← fdtableInstallAt table file fd
    return if err = .EOK then Shares.settle i table fd ∘ Shares.onRefs (Refs.drop file) else id
  | addReserve table file => do
    let r ← fdtableReserve table 0
    return Shares.beginAdd i table file r ∘ Shares.reserve i table r
  | addInstall table file fd => do
    let err ← fdtableInstallAt table file fd
    return Shares.endAdd i ∘ Shares.settle i table fd ∘
      Shares.onRefs (if err = .EOK then Refs.drop file else id)
  | dupAt table srcFd dstFd closeOnExec => do
    let (err, old) ← dupAtLocked table srcFd dstFd closeOnExec
    return (if err = .EOK ∧ srcFd ≠ dstFd then Shares.settle i table dstFd else id) ∘
      Shares.onRefs (if old = 0 then id else Refs.take [old])
  | closeAll table => do
    let toPut ← closeSlots table (List.range MAX_FILES_PER_FD)
    return Shares.settleAll i table ∘ Shares.onRefs (Refs.take toPut)
  | destroy table => do
    let _ ← fdtableDestroy table
    return Shares.dropTable table

/-- What a step promises about the files and tables that it names, as for `FileOp`. -/
def FdAct.Named (s : Files) (g : Shares) : FdAct → Prop
  | plain op => op.Plain ∧ op.Allowed s g.refs
  | reserve table _ | addReserve table _ | dupAt table _ _ _ | closeAll table | destroy table => table ∈ g.refs.tables
  | installAt table file _ | addInstall table file _ => table ∈ g.refs.tables ∧ file ∈ g.refs.held

/-- A thread in the middle of `fdtable_add` goes on with it. -/
def FdAct.InTurn (g : Shares) (i : Nat) : FdAct → Prop
  | addInstall table file fd => g.adding i = some ⟨table, file, fd⟩
  | _ => g.adding i = none

/-- A state of a run. -/
structure FdRun where
  files : Files
  shares : Shares

/-- A step that may be taken. -/
structure FdAct.Allowed (r : FdRun) (i : Nat) (act : FdAct) : Prop where
  named : act.Named r.files r.shares
  turn : act.InTurn r.shares i

/-- The state of a slot. -/
def slotState (s : Files) (p : Nat × Nat) : FileDescriptorState := (s.table p.1).filesState p.2

/-- The slot is not reserved, or thread `i` has reserved it. -/
def FdRun.Open (r : FdRun) (i : Nat) (p : Nat × Nat) : Prop :=
  slotState r.files p = .RESERVED → ⟨i, p⟩ ∈ r.shares.reserved

/-- The step leaves the reservations of others alone: it does not install over them (`fdtable_install_at`,
`fdtable_dup_at`), free them (`fdtable_close_all`) or copy them to a new table (`fdtable_create_from`). -/
def FdAct.Careful (r : FdRun) (i : Nat) : FdAct → Prop
  | installAt table _ fd => r.Open i (table, fd)
  | dupAt table srcFd dstFd _ => srcFd ≠ dstFd → r.Open i (table, dstFd)
  | closeAll table => ∀ fd < MAX_FILES_PER_FD, r.Open i (table, fd)
  | plain (.createFrom src) => ∀ fd < MAX_FILES_PER_FD, slotState r.files (src, fd) ≠ .RESERVED
  | _ => True

/-- A step of thread `i` that meets a condition and returns. -/
inductive FdStep (cond : FdRun → Nat → FdAct → Prop) : FdRun → Nat → FdRun → Prop
  | mk {r : FdRun} {i : Nat} {act : FdAct} {effect : Shares → Shares} {s' : Files} (hop : act.Allowed r i)
      (hcond : cond r i act) (hcall : act.call i r.files = (.ok effect, s')) :
      FdStep cond r i ⟨s', effect r.shares⟩

/-- A step of some thread. -/
def FdNext (cond : FdRun → Nat → FdAct → Prop) (r r' : FdRun) : Prop := ∃ i, FdStep cond r i r'

/-- A call that returns does so with `Q`. -/
abbrev Yields {α : Type} (x : FileCall α) (s : Files) (Q : α → Files → Prop) : Prop :=
  Call.Ends (fun _ _ => True) x s Q

variable {s s' : Files} {tables : Finset Nat} {held created : List Nat} {f t fd : Nat} {g : Shares}

section Sections

lemma deref_yields {α : Type} (content : Files → Nat → α) (p : Nat) :
    Yields (Files.deref content p) s (fun r s' => r = content s p ∧ s' = s) := by
  by_cases hlive : p ∈ s.heap.live
  · exact Call.ends_of_ok (deref_of_live content hlive) ⟨rfl, rfl⟩
  · have hrun : Files.deref content p s = (.error .fault, s) := by
      unfold Files.deref
      rw [Call.read_bind, if_neg hlive]
      rfl
    exact Call.ends_of_error hrun trivial

lemma kfree_yields (p : Nat) : Yields (Files.kfree p) s (fun _ s' => s'.table = s.table) := by
  by_cases hlive : p ∈ s.heap.live
  · exact Call.ends_of_ok (kfree_of_live hlive) rfl
  · have hrun : Files.kfree p s = (.error .fault, s) := by
      unfold Files.kfree
      rw [Call.read_bind, if_neg hlive]
      rfl
    exact Call.ends_of_error hrun trivial

lemma kalloc_yields : Yields Files.kalloc s (fun _ s' => s'.table = s.table) := by
  show Call.Ends _ (Call.read (fun s => s.heap.blocks) >>= _) s _
  rcases hblocks : s.heap.blocks with _ | ⟨b, blocks⟩
  · rw [Call.Ends, Call.read_bind, hblocks]
    rfl
  · rw [Call.Ends, Call.read_bind, hblocks]
    rfl

lemma fileGet_yields (f : Nat) : Yields (fileGet f) s (fun r s' => r = f ∧ s'.table = s.table) := by
  unfold fileGet refcountGet
  refine Call.Ends.bind (Q := fun _ s' => s'.table = s.table) ?_ (fun _ _ h => ⟨rfl, h⟩)
  apply (deref_yields Files.file f).bind
  rintro file _ ⟨-, rfl⟩
  split
  · exact trivial
  · rfl

lemma filePut_yields (f : Nat) : Yields (filePut f) s (fun _ s' => s'.table = s.table) := by
  unfold filePut refcountPut
  apply (deref_yields Files.file f).bind
  rintro file s₁ ⟨-, rfl⟩
  split
  · rfl
  apply Call.ends_bind_ok (x := Call.update _) rfl
  split
  · refine Call.Ends.bind (Q := fun _ s' => s'.table = s₁.table) ?_ (fun _ _ h => Call.ends_of_ok rfl h)
    exact Call.ends_bind_ok (x := Call.update _) rfl (kfree_yields f)
  · rfl

lemma fileCreate_yields (ops mode privateData : Nat) :
    Yields (fileCreate ops mode privateData) s (fun _ s' => s'.table = s.table) := by
  unfold fileCreate
  apply kalloc_yields.bind
  intro b s₁ h
  split
  · exact h
  refine Call.Ends.bind (Q := fun _ s' => s'.table = s.table) ?_ (fun _ _ h' => Call.ends_of_ok rfl h')
  unfold fileInit
  split
  · exact h
  · exact trivial

lemma slotState_of_table (h : s'.table = s.table) : slotState s' = slotState s := by
  funext p
  rw [slotState, slotState, h]

lemma slotState_setSlot {table : FDTable} (h : table = s.table t) (fd file : Nat) (state : FileDescriptorState)
    (coe : Bool) :
    slotState (s.setTable t (table.setSlot fd file state coe)) = Function.update (slotState s) (t, fd) state := by
  subst h
  funext ⟨t', fd'⟩
  show (Function.update s.table t _ t').filesState fd' = Function.update (slotState s) (t, fd) state (t', fd')
  by_cases ht : t' = t
  · subst ht
    rw [Function.update_self]
    by_cases hfd : fd' = fd
    · subst hfd
      rw [Function.update_self]
      exact Function.update_self ..
    · rw [Function.update_of_ne (fun heq => hfd (Prod.mk.inj heq).2)]
      exact Function.update_of_ne hfd ..
  · rw [Function.update_of_ne ht, Function.update_of_ne (fun heq => ht (Prod.mk.inj heq).1)]
    rfl

lemma reserve_yields (t minFd : Nat) :
    Yields (fdtableReserve t minFd) s (fun r s' =>
      (∃ err, r = .error err ∧ s' = s ∧ (minFd < MAX_FILES_PER_FD → err = .EMFILE)) ∨
      ∃ fd, r = .ok fd ∧ fd < MAX_FILES_PER_FD ∧ slotState s (t, fd) = .FREE ∧
        slotState s' = Function.update (slotState s) (t, fd) .RESERVED) := by
  unfold fdtableReserve
  apply (deref_yields Files.table t).bind
  rintro table s₁ ⟨rfl, rfl⟩
  split
  case isTrue hmin => exact .inl ⟨.EINVAL, rfl, rfl, by omega⟩
  cases hfind : (List.range' minFd (MAX_FILES_PER_FD - minFd)).find? (s₁.table t).isFdFree with
  | none => exact .inl ⟨.EMFILE, rfl, rfl, fun _ => rfl⟩
  | some fd =>
    have hfree : (s₁.table t).filesState fd = .FREE := by
      simpa [FDTable.isFdFree] using List.find?_some hfind
    have hlt := List.mem_range'_1.mp (List.mem_of_find?_eq_some hfind)
    exact .inr ⟨fd, rfl, by omega, hfree, slotState_setSlot rfl _ _ _ _⟩

lemma installAt_yields (t file fd : Nat) :
    Yields (fdtableInstallAt t file fd) s (fun err s' =>
      (err ≠ .EOK ∧ s' = s ∧ (fd < MAX_FILES_PER_FD → slotState s (t, fd) ≠ .RESERVED)) ∨
      (err = .EOK ∧ slotState s' = Function.update (slotState s) (t, fd) .INSTALLED ∧
        (s'.table t).files fd = file)) := by
  unfold fdtableInstallAt
  apply (deref_yields Files.table t).bind
  rintro table s₁ ⟨rfl, rfl⟩
  split
  case isTrue hge => exact .inl ⟨by decide, rfl, by omega⟩
  split
  case isTrue hres =>
    have hne : (s₁.table t).filesState fd ≠ .RESERVED := by
      simpa [FDTable.isFdReserved] using hres
    exact .inl ⟨by decide, rfl, fun _ => hne⟩
  case isFalse =>
    refine .inr ⟨rfl, slotState_setSlot rfl _ _ _ _, ?_⟩
    show (Function.update s₁.table t _ t).files fd = file
    rw [Function.update_self]
    exact Function.update_self ..

lemma getFile_yields (t fd : Nat) : Yields (fdtableGetFile t fd) s (fun _ s' => slotState s' = slotState s) := by
  unfold fdtableGetFile
  apply (deref_yields Files.table t).bind
  rintro table s₁ ⟨rfl, rfl⟩
  split
  · rfl
  · apply (fileGet_yields _).bind
    rintro _ s₂ ⟨rfl, h⟩
    exact slotState_of_table h

lemma closeFileLocked_yields (t fd : Nat) :
    Yields (closeFileLocked t fd) s (fun _ s' => slotState s' = slotState s ∨
      (slotState s (t, fd) = .INSTALLED ∧ slotState s' = Function.update (slotState s) (t, fd) .FREE)) := by
  unfold closeFileLocked
  apply (deref_yields Files.table t).bind
  rintro table s₁ ⟨rfl, rfl⟩
  split
  · exact .inl rfl
  case isFalse hopen =>
    have hstate : (s₁.table t).filesState fd = .INSTALLED := by
      simp only [notOpen, FDTable.isFdInstalled, Bool.or_eq_true, Bool.not_eq_true', not_or] at hopen
      simpa using hopen.2
    exact .inr ⟨hstate, slotState_setSlot rfl _ _ _ _⟩

lemma setCloseOnExecImpl_yields (t fd : Nat) (coe : Bool) :
    Yields (fdtableSetCloseOnExecImpl t (s.table t) fd coe) s (fun _ s' => slotState s' = slotState s) := by
  unfold fdtableSetCloseOnExecImpl
  split
  · rfl
  · have h : slotState (s.setTable t ((s.table t).setSlot fd ((s.table t).files fd) ((s.table t).filesState fd) coe)) =
        slotState s := by
      rw [slotState_setSlot rfl]
      exact Function.update_eq_self (t, fd) (slotState s)
    exact h

lemma setCloseOnExec_yields (t fd : Nat) (coe : Bool) :
    Yields (fdtableSetCloseOnExec t fd coe) s (fun _ s' => slotState s' = slotState s) := by
  unfold fdtableSetCloseOnExec
  apply (deref_yields Files.table t).bind
  rintro table s₁ ⟨rfl, rfl⟩
  exact setCloseOnExecImpl_yields t fd coe

lemma dup_yields (t srcFd : Nat) :
    Yields (fdtableDup t srcFd) s (fun _ s' => slotState s' = slotState s ∨
      ∃ fd, slotState s (t, fd) = .FREE ∧ slotState s' = Function.update (slotState s) (t, fd) .INSTALLED) := by
  unfold fdtableDup
  apply (deref_yields Files.table t).bind
  rintro table s₁ ⟨rfl, rfl⟩
  split
  · exact .inl rfl
  cases hfind : (List.range MAX_FILES_PER_FD).find? (s₁.table t).isFdFree with
  | none => exact .inl rfl
  | some dstFd =>
    have hfree : (s₁.table t).filesState dstFd = .FREE := by
      simpa [FDTable.isFdFree] using List.find?_some hfind
    apply (fileGet_yields _).bind
    rintro _ s₂ ⟨rfl, h⟩
    refine .inr ⟨dstFd, hfree, ?_⟩
    rw [← slotState_of_table h]
    exact slotState_setSlot (by rw [h]) _ _ _ _

lemma dupAtLocked_yields (t srcFd dstFd : Nat) (coe : Bool) :
    Yields (dupAtLocked t srcFd dstFd coe) s (fun r s' =>
      (slotState s' = slotState s ∧ (r.1 = .EOK → srcFd = dstFd)) ∨
      (r.1 = .EOK ∧ srcFd ≠ dstFd ∧ slotState s' = Function.update (slotState s) (t, dstFd) .INSTALLED)) := by
  unfold dupAtLocked
  apply (deref_yields Files.table t).bind
  rintro table s₁ ⟨rfl, rfl⟩
  split
  · exact .inl ⟨rfl, fun h => nomatch h⟩
  split
  case isTrue heq =>
    apply (setCloseOnExecImpl_yields t srcFd coe).bind
    intro err s₂ h
    exact .inl ⟨h, fun _ => heq⟩
  case isFalse hne =>
    split
    · exact .inl ⟨rfl, fun h => nomatch h⟩
    apply Call.ends_bind_ok (x := Call.update _) rfl
    apply (fileGet_yields _).bind
    rintro _ s₂ ⟨rfl, h⟩
    refine .inr ⟨rfl, hne, ?_⟩
    -- the intermediate FREE state of an old descriptor is overwritten
    have htable : ∀ table, s₂.table = (s₁.setTable t table).table →
        slotState (s₂.setTable t (table.setSlot dstFd ((s₁.table t).files srcFd) .INSTALLED coe)) =
          Function.update (slotState (s₁.setTable t table)) (t, dstFd) .INSTALLED := by
      intro table h
      rw [← slotState_of_table h]
      have hself : table = s₂.table t := by
        rw [h]
        exact (Function.update_self (f := s₁.table) ..).symm
      exact slotState_setSlot hself _ _ _ _
    refine (htable _ h).trans ?_
    split
    · rw [slotState_setSlot rfl, Function.update_idem]
    · have hsame : s₁.setTable t (s₁.table t) = s₁ := by
        unfold Files.setTable
        rw [Function.update_eq_self]
      rw [hsame]

lemma closeSlots_yields (t : Nat) (l : List Nat) :
    Yields (closeSlots t l) s (fun _ s' =>
      ∀ p, slotState s' p = if p.1 = t ∧ p.2 ∈ l then .FREE else slotState s p) := by
  induction l generalizing s with
  | nil =>
    intro p
    rw [if_neg (fun h => List.not_mem_nil h.2)]
  | cons fd l ih =>
    unfold closeSlots
    apply (deref_yields Files.table t).bind
    rintro table s₁ ⟨rfl, rfl⟩
    apply Call.ends_bind_ok (x := Call.update _) rfl
    apply ih.bind
    intro toPut s₂ h
    have hall : ∀ p, slotState s₂ p = if p.1 = t ∧ p.2 ∈ fd :: l then .FREE else slotState s₁ p := by
      rintro ⟨t', fd'⟩
      rw [h, slotState_setSlot rfl]
      by_cases heq : (t', fd') = (t, fd)
      · obtain ⟨rfl, rfl⟩ := Prod.mk.inj heq
        rw [Function.update_self]
        simp
      · rw [Function.update_of_ne heq]
        have hiff : (t' = t ∧ fd' ∈ fd :: l) ↔ (t' = t ∧ fd' ∈ l) := by
          constructor
          · rintro ⟨rfl, hmem⟩
            refine ⟨rfl, (List.mem_cons.mp hmem).resolve_left ?_⟩
            rintro rfl
            exact heq rfl
          · exact fun h => ⟨h.1, List.mem_cons_of_mem fd h.2⟩
        simp only [hiff]
    split
    · exact hall
    · exact hall

lemma slotState_setTable (table : FDTable) (p : Nat × Nat) :
    slotState (s.setTable t table) p = if p.1 = t then table.filesState p.2 else slotState s p := by
  obtain ⟨t', fd'⟩ := p
  show (Function.update s.table t table t').filesState fd' = _
  by_cases ht : t' = t
  · subst ht
    rw [Function.update_self, if_pos rfl]
  · rw [Function.update_of_ne ht, if_neg ht]
    rfl

lemma create_yields (hfresh : HeapFresh s.heap) :
    Yields fdtableCreate s (fun r s' => (∃ err, r = .error err ∧ s' = s) ∨
      ∃ b, r = .ok b ∧ b ∉ s.heap.live ∧ ∀ p, slotState s' p = if p.1 = b then .FREE else slotState s p) := by
  unfold fdtableCreate
  rcases kalloc_cases hfresh with hnone | ⟨b, blocks, -, -, herr, hnot, hrun⟩
  · apply Call.ends_bind_ok hnone
    exact .inl ⟨.ENOMEM, rfl, rfl⟩
  apply Call.ends_bind_ok hrun
  rw [herr, if_neg Bool.false_ne_true]
  exact .inr ⟨b, rfl, hnot, fun p => slotState_setTable FDTable.blank p⟩

lemma copySlot_yields (dst src fd : Nat) :
    Yields (copySlot dst src fd) s (fun _ s' =>
      slotState s' = Function.update (slotState s) (dst, fd) (slotState s (src, fd))) := by
  unfold copySlot
  apply (deref_yields Files.table src).bind
  rintro table s₁ ⟨rfl, rfl⟩
  split
  · apply (fileGet_yields _).bind
    rintro _ s₂ ⟨rfl, h⟩
    have hset := slotState_setSlot (s := s₂) (t := dst) rfl fd ((s₁.table src).files fd) ((s₁.table src).filesState fd)
      ((s₁.table src).closeOnExec fd)
    rw [slotState_of_table h] at hset
    exact hset
  · exact slotState_setSlot rfl _ _ _ _

lemma createFrom_yields {src : Nat} (hfresh : HeapFresh s.heap) (hsrc : src ∈ s.heap.live) :
    Yields (fdtableCreateFrom src) s (fun r s' => (∃ err, r = .error err ∧ s' = s) ∨
      ∃ b, r = .ok b ∧ b ∉ s.heap.live ∧ (∀ p : Nat × Nat, p.1 ≠ b → slotState s' p = slotState s p) ∧
        ∀ fd < MAX_FILES_PER_FD, slotState s' (b, fd) = slotState s (src, fd)) := by
  unfold fdtableCreateFrom
  apply (create_yields hfresh).bind
  rintro r s₁ (⟨err, rfl, rfl⟩ | ⟨b, rfl, hnot, hnew⟩)
  · exact .inl ⟨err, rfl, rfl⟩
  have hne : src ≠ b := fun h => hnot (h ▸ hsrc)
  have hloop := Call.ends_each (E := fun _ _ => True) (f := copySlot b src)
    (fun l s' => (∀ p : Nat × Nat, p.1 ≠ b → slotState s' p = slotState s p) ∧
      ∀ fd < MAX_FILES_PER_FD, fd ∉ l → slotState s' (b, fd) = slotState s (src, fd))
    (by
      rintro fd l s' ⟨hother, hdone⟩
      apply (copySlot_yields b src fd).mono
      intro _ s'' h
      rw [h]
      constructor
      · intro p hp
        rw [Function.update_of_ne (fun heq => hp (by rw [heq]))]
        exact hother p hp
      · intro fd' hlt hnotin
        by_cases heq : fd' = fd
        · subst heq
          rw [Function.update_self]
          exact hother (src, fd') hne
        · rw [Function.update_of_ne (fun h' => heq (Prod.mk.inj h').2)]
          exact hdone fd' hlt (fun hmem => (List.mem_cons.mp hmem).elim heq hnotin))
    (List.range MAX_FILES_PER_FD) s₁
    ⟨fun p hp => by rw [hnew, if_neg hp], fun fd hlt hnotin => absurd (List.mem_range.mpr hlt) hnotin⟩
  apply hloop.bind
  rintro _ s' ⟨hother, hdone⟩
  exact .inr ⟨b, rfl, hnot, hother, fun fd hlt => hdone fd hlt List.not_mem_nil⟩

lemma destroy_yields (t : Nat) :
    Yields (fdtableDestroy t) s (fun _ s' => s' = { s with heap := { s.heap with live := s.heap.live.erase t } } ∧
      ∀ fd < MAX_FILES_PER_FD, slotState s (t, fd) = .FREE) := by
  unfold fdtableDestroy
  apply (deref_yields Files.table t).bind
  rintro table s₁ ⟨rfl, rfl⟩
  split
  case isFalse => exact trivial
  case isTrue hall =>
    have hfree : ∀ fd < MAX_FILES_PER_FD, slotState s₁ (t, fd) = .FREE := by
      intro fd hfd
      simpa [FDTable.isFdFree, slotState] using List.all_eq_true.mp hall fd (List.mem_range.mpr hfd)
    by_cases hlive : t ∈ s₁.heap.live
    · exact Call.ends_bind_ok (kfree_of_live hlive) ⟨rfl, hfree⟩
    · have hrun : Files.kfree t s₁ = (.error .fault, s₁) := by
        unfold Files.kfree
        rw [Call.read_bind, if_neg hlive]
        rfl
      exact Call.ends_of_error (Call.bind_error hrun) trivial

end Sections

lemma FileInv.dropTable (h : FileInv s tables held created)
    (hfree : ∀ fd < MAX_FILES_PER_FD, slotState s (t, fd) = .FREE) (ht : t ∈ tables) :
    FileInv { s with heap := { s.heap with live := s.heap.live.erase t } } (tables.erase t) held created := by
  have hslots : ∀ f, slotRefs { s with heap := { s.heap with live := s.heap.live.erase t } } (tables.erase t) f =
      slotRefs s tables f := by
    intro f
    unfold slotRefs
    congr 1
    ext ⟨t', fd⟩
    rw [Finset.mem_filter, Finset.mem_filter, mem_slotsOf, mem_slotsOf, Finset.mem_erase]
    constructor
    · rintro ⟨⟨⟨-, ht'⟩, hfd⟩, hholds⟩
      exact ⟨⟨ht', hfd⟩, hholds⟩
    · rintro ⟨⟨ht', hfd⟩, hholds⟩
      refine ⟨⟨⟨?_, ht'⟩, hfd⟩, hholds⟩
      rintro rfl
      have hinst : slotState s (t', fd) = .INSTALLED := hholds.1
      rw [hfree fd hfd] at hinst
      cases hinst
  have hrefs : ∀ f, refs { s with heap := { s.heap with live := s.heap.live.erase t } } (tables.erase t) held f =
      refs s tables held f := by
    intro f
    rw [refs, refs, hslots]
  constructor
  · intro f hf
    rw [hrefs] at hf ⊢
    obtain ⟨h1, h2, h3, h4, h5⟩ := h.file f hf
    have hne : f ≠ t := fun heq => h5 (heq ▸ ht)
    exact ⟨h1, h2, (List.mem_erase_of_ne hne).mpr h3, h4, fun hmem => h5 (Finset.mem_of_mem_erase hmem)⟩
  · intro f
    rw [hrefs]
    exact h.released f
  · intro t' ht'
    obtain ⟨hne, ht'⟩ := Finset.mem_erase.mp ht'
    exact (List.mem_erase_of_ne hne).mpr (h.tables_live t' ht')
  · intro p hp
    rw [mem_slotsOf, Finset.mem_erase] at hp
    exact h.blank p (mem_slotsOf.mpr ⟨hp.1.2, hp.2⟩)

end KaworuOS.Proofs
