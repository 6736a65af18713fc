import KaworuOS.Proofs.FdTable
import Mathlib.Logic.Relation

/-!
# Runs on open files

A run of calls on any number of tables and files. A call that works under the lock of its table and
drops references afterwards may be interrupted between the two by other calls: its first part is a
step too, after which the caller holds what is left to be put. The rest of the kernel uses the same
heap, in a step of its own.
-/

namespace KaworuOS.Proofs
open Lib

/-- The ghost part of a state: the live tables, the references that the callers hold, and the files
in the order of their creation. -/
structure Refs where
  tables : Finset Nat
  held : List Nat
  created : List Nat

namespace Refs

def take (files : List Nat) (g : Refs) : Refs := { g with held := files ++ g.held }

def drop (f : Nat) (g : Refs) : Refs := { g with held := g.held.erase f }

def create (f : Nat) (g : Refs) : Refs := { g with held := f :: g.held, created := f :: g.created }

def addTable (t : Nat) (g : Refs) : Refs := { g with tables := insert t g.tables }

end Refs

/-- The steps of a run. -/
inductive FileOp
  | fileCreate (ops mode privateData : Nat)
  | filePut (f : Nat)
  | create
  | createFrom (src : Nat)
  | reserve (table minFd : Nat)
  | installAt (table file fd : Nat)
  | add (table file : Nat)
  | getFile (table fd : Nat)
  | closeFile (table fd : Nat)
  | closeFileLocked (table fd : Nat)
  | setCloseOnExec (table fd : Nat) (closeOnExec : Bool)
  | dup (table srcFd : Nat)
  | dupAt (table srcFd dstFd : Nat) (closeOnExec : Bool)
  | dupAtLocked (table srcFd dstFd : Nat) (closeOnExec : Bool)
  | closeAll (table : Nat)
  | closeAllLocked (table : Nat)
  | heap (heap : Heap)

/-- The effect of a call that returns a new object. -/
def onOk {α : Type} (g : α → Refs → Refs) : Except Errno α → Refs → Refs
  | .ok a => g a
  | .error _ => id

/-- A step with its effect on the ghost part. -/
def FileOp.call : FileOp → FileCall (Refs → Refs)
  | fileCreate ops mode privateData => do
    let r ← KaworuOS.fileCreate ops mode privateData
    return onOk Refs.create r
  | filePut f => do
    let _ ← KaworuOS.filePut f
    return Refs.drop f
  | create => do
    let r ← fdtableCreate
    return onOk Refs.addTable r
  | createFrom src => do
    let r ← fdtableCreateFrom src
    return onOk Refs.addTable r
  | reserve table minFd => do
    let _ ← fdtableReserve table minFd
    return id
  | installAt table file fd => do
    let err ← fdtableInstallAt table file fd
    return if err = .EOK then Refs.drop file else id
  | add table file => do
    let r ← fdtableAdd table file
    return onOk (fun _ => Refs.drop file) r
  | getFile table fd => do
    let r ← fdtableGetFile table fd
    return onOk (fun f => Refs.take [f]) r
  | closeFile table fd => do
    let _ ← fdtableCloseFile table fd
    return id
  | closeFileLocked table fd => do
    let r ← KaworuOS.closeFileLocked table fd
    return onOk (fun f => Refs.take [f]) r
  | setCloseOnExec table fd closeOnExec => do
    let _ ← fdtableSetCloseOnExec table fd closeOnExec
    return id
  | dup table srcFd => do
    let _ ← fdtableDup table srcFd
    return id
  | dupAt table srcFd dstFd closeOnExec => do
    let _ ← fdtableDupAt table srcFd dstFd closeOnExec
    return id
  | dupAtLocked table srcFd dstFd closeOnExec => do
    let (_, old) ← KaworuOS.dupAtLocked table srcFd dstFd closeOnExec
    return if old = 0 then id else Refs.take [old]
  | closeAll table => do
    let _ ← fdtableCloseAll table
    return id
  | closeAllLocked table => do
    let toPut ← closeSlots table (List.range MAX_FILES_PER_FD)
    return Refs.take toPut
  | heap new => do
    Call.update (fun s => { s with heap := new })
    return id

/-- The next block of the heap is one that nobody has. -/
def HeapFresh (heap : Heap) : Prop :=
  ∀ b ∈ heap.blocks.head?, b ≠ 0 ∧ isErrValue b = false ∧ b ∉ heap.live

/-- What the callers and the heap promise: a table is a live one, a file is one that the caller has a
reference to, `kalloc` returns a new block, and nobody else frees files and tables. -/
def FileOp.Allowed (s : Files) (g : Refs) : FileOp → Prop
  | fileCreate ops _ _ => ops ≠ 0 ∧ HeapFresh s.heap
  | filePut f => f ∈ g.held
  | create => HeapFresh s.heap
  | createFrom src => src ∈ g.tables ∧ HeapFresh s.heap
  | installAt table file _ | add table file => table ∈ g.tables ∧ file ∈ g.held
  | reserve table _ | getFile table _ | closeFile table _ | closeFileLocked table _ | setCloseOnExec table _ _
  | dup table _ | dupAt table _ _ _ | dupAtLocked table _ _ _ | closeAll table | closeAllLocked table =>
    table ∈ g.tables
  | heap new => ∀ b, b ∈ g.tables ∨ 0 < refs s g.tables g.held b → b ∈ new.live

/-- The only way in which a step stops: a file has as many references as can be counted. -/
def Overflow (e : Halt) (s : Files) : Prop := e = .panic ∧ ∃ f, (s.file f).count = UINT_MAX

/-- The invariant for a ghost part. -/
def FileInvOf (s : Files) (g : Refs) : Prop := FileInv s g.tables g.held g.created

variable {s s' : Files} {tables : Finset Nat} {held held' created : List Nat} {f t fd : Nat} {g : Refs}

lemma deref_of_live {α : Type} (content : Files → Nat → α) {p : Nat} (hlive : p ∈ s.heap.live) :
    Files.deref content p s = (.ok (content s p), s) := by
  unfold Files.deref
  rw [Call.read_bind, if_pos hlive]
  rfl

lemma kfree_of_live {p : Nat} (hlive : p ∈ s.heap.live) :
    Files.kfree p s = (.ok (), { s with heap := { s.heap with live := s.heap.live.erase p } }) := by
  unfold Files.kfree
  rw [Call.read_bind, if_pos hlive]
  rfl

lemma FileInv.fileGet_ends (h : FileInv s tables held created) (hf : 0 < refs s tables held f) :
    Call.Ends Overflow (fileGet f) s
      (fun r s' => r = f ∧ s'.table = s.table ∧ FileInv s' tables (f :: held) created) := by
  have hderef := deref_of_live Files.file (h.file f hf).live
  by_cases hmax : (s.file f).count = UINT_MAX
  · have hget : refcountGet f s = (.error .panic, s) := by
      rw [refcountGet, Call.bind_ok hderef, if_pos hmax]
      rfl
    exact Call.ends_of_error (Call.bind_error hget) ⟨rfl, f, hmax⟩
  · have hget : refcountGet f s = (.ok (), s.setFile f { s.file f with count := (s.file f).count + 1 }) := by
      rw [refcountGet, Call.bind_ok hderef, if_neg hmax]
      rfl
    have hrun : fileGet f s = (.ok f, s.setFile f { s.file f with count := (s.file f).count + 1 }) :=
      Call.bind_ok hget
    exact Call.ends_of_ok hrun ⟨rfl, rfl, h.get hf hmax⟩

lemma FileInv.filePut_ends (h : FileInv s tables held created) (hf : f ∈ held) :
    Call.Ends Overflow (filePut f) s
      (fun _ s' => s'.table = s.table ∧ FileInv s' tables (held.erase f) created) := by
  have hpos : 0 < refs s tables held f := refs_pos_of_held hf
  have hok := h.file f hpos
  have hderef := deref_of_live Files.file hok.live
  have hne : (s.file f).count ≠ 0 := by
    have h1 := hok.count_eq
    omega
  by_cases hlast : (s.file f).count = 1
  · have hput : filePut f s = (.ok (.ok 0), dropped s f) := by
      rw [filePut, refcountPut, Call.bind_ok hderef, if_neg hne, Call.update_bind, if_pos hlast]
      have hrelease : fileRelease f (s.setFile f { s.file f with count := (s.file f).count - 1 }) =
          (.ok (), dropped s f) := by
        exact kfree_of_live (s := { s.setFile f _ with released := f :: s.released }) hok.live
      exact Call.bind_ok hrelease
    exact Call.ends_of_ok hput ⟨rfl, h.release hf hlast⟩
  · have hput : filePut f s =
        (.ok (.ok ((s.file f).count - 1)), s.setFile f { s.file f with count := (s.file f).count - 1 }) := by
      rw [filePut, refcountPut, Call.bind_ok hderef, if_neg hne, Call.update_bind, if_neg hlast]
      rfl
    exact Call.ends_of_ok hput ⟨rfl, h.put hf (by omega)⟩

lemma FileInv.put_head (h : FileInv s tables (f :: held) created) :
    Call.Ends Overflow (filePut f) s (fun _ s' => FileInv s' tables held created) := by
  apply (h.filePut_ends List.mem_cons_self).mono
  rintro r s' ⟨-, hinv⟩
  rwa [List.erase_cons_head] at hinv

section Table

variable (h : FileInv s tables held created) (ht : t ∈ tables)
include h ht

lemma FileInv.deref_table : Files.deref Files.table t s = (.ok (s.table t), s) :=
  deref_of_live Files.table (h.tables_live t ht)

omit h ht in
lemma notOpen_eq_false (hopen : notOpen (s.table t) fd = false) :
    fd < MAX_FILES_PER_FD ∧ (s.table t).filesState fd = .INSTALLED := by
  simpa [notOpen, FDTable.isFdInstalled] using hopen

lemma FileInv.reserve_ends (minFd : Nat) :
    Call.Ends Overflow (fdtableReserve t minFd) s (fun r s' => FileInv s' tables held created ∧
      ∀ fd, r = .ok fd → fd < MAX_FILES_PER_FD ∧ (s'.table t).filesState fd = .RESERVED) := by
  have hsame : ∀ err : Errno, FileInv s tables held created ∧
      ∀ fd, (Except.error err : Except Errno Nat) = .ok fd →
        fd < MAX_FILES_PER_FD ∧ (s.table t).filesState fd = .RESERVED :=
    fun err => ⟨h, fun fd hfd => nomatch hfd⟩
  unfold fdtableReserve
  apply Call.ends_bind_ok (h.deref_table ht)
  split
  · exact hsame .EINVAL
  · cases hfind : (List.range' minFd (MAX_FILES_PER_FD - minFd)).find? (s.table t).isFdFree with
    | none => exact hsame .EMFILE
    | some fd =>
      have hfree : (s.table t).filesState fd = .FREE := by
        simpa [FDTable.isFdFree] using List.find?_some hfind
      have hlt : fd < MAX_FILES_PER_FD := by
        have h1 := List.mem_range'_1.mp (List.mem_of_find?_eq_some hfind)
        omega
      have hne : (s.table t).filesState fd ≠ .INSTALLED := by
        rw [hfree]
        decide
      have hcoe : (s.table t).closeOnExec fd = false := (h.blank (t, fd) (mem_slotsOf.mpr ⟨ht, hlt⟩) hne).2
      refine ⟨?_, ?_⟩
      · rw [hcoe]
        exact h.reset ht hlt hne (by decide)
      · intro fd' heq
        obtain rfl := Except.ok.inj heq
        refine ⟨hlt, ?_⟩
        simp [Files.setTable, FDTable.setSlot]

lemma FileInv.installAt_ends (hf : f ∈ held) (fd : Nat) :
    Call.Ends Overflow (fdtableInstallAt t f fd) s (fun err s' =>
      FileInv s' tables (if err = .EOK then held.erase f else held) created ∧
        (fd < MAX_FILES_PER_FD → (s.table t).filesState fd = .RESERVED → err = .EOK)) := by
  unfold fdtableInstallAt
  apply Call.ends_bind_ok (h.deref_table ht)
  split
  · exact ⟨h, by omega⟩
  case isFalse hlt =>
    split
    case isTrue hres =>
      refine ⟨h, fun _ hstate => ?_⟩
      simp [FDTable.isFdReserved, hstate] at hres
    case isFalse hres =>
      have hstate : (s.table t).filesState fd = .RESERVED := by
        simpa [FDTable.isFdReserved] using hres
      have hne : (s.table t).filesState fd ≠ .INSTALLED := by
        rw [hstate]
        decide
      refine ⟨?_, fun _ _ => rfl⟩
      exact h.install ht (by omega) hne hf _

lemma FileInv.getFile_ends (fd : Nat) :
    Call.Ends Overflow (fdtableGetFile t fd) s
      (fun r s' => FileInvOf s' (onOk (fun f => Refs.take [f]) r ⟨tables, held, created⟩)) := by
  unfold fdtableGetFile
  apply Call.ends_bind_ok (h.deref_table ht)
  by_cases hopen : notOpen (s.table t) fd = true
  · rw [if_pos hopen]
    exact h
  · rw [if_neg hopen]
    obtain ⟨hlt, hslot⟩ := notOpen_eq_false (Bool.eq_false_of_not_eq_true hopen)
    apply (h.fileGet_ends (refs_pos_of_slot ht hlt hslot)).bind
    rintro _ s' ⟨rfl, -, hinv⟩
    exact hinv

lemma FileInv.closeFileLocked_ends (fd : Nat) :
    Call.Ends Overflow (closeFileLocked t fd) s
      (fun r s' => FileInvOf s' (onOk (fun f => Refs.take [f]) r ⟨tables, held, created⟩)) := by
  unfold closeFileLocked
  apply Call.ends_bind_ok (h.deref_table ht)
  by_cases hopen : notOpen (s.table t) fd = true
  · rw [if_pos hopen]
    exact h
  · rw [if_neg hopen]
    obtain ⟨hlt, hslot⟩ := notOpen_eq_false (Bool.eq_false_of_not_eq_true hopen)
    exact h.close ht hlt hslot

lemma FileInv.closeFile_ends (fd : Nat) :
    Call.Ends Overflow (fdtableCloseFile t fd) s (fun _ s' => FileInv s' tables held created) := by
  apply (h.closeFileLocked_ends ht fd).bind
  intro r s' hinv
  cases r with
  | error err => exact hinv
  | ok f =>
    have hheld : FileInv s' tables (f :: held) created := hinv
    exact hheld.put_head.bind (fun _ _ hput => hput)

lemma FileInv.setCloseOnExec_ends (fd : Nat) (coe : Bool) :
    Call.Ends Overflow (fdtableSetCloseOnExecImpl t (s.table t) fd coe) s
      (fun _ s' => FileInv s' tables held created) := by
  unfold fdtableSetCloseOnExecImpl
  by_cases hopen : notOpen (s.table t) fd = true
  · rw [if_pos hopen]
    exact h
  · rw [if_neg hopen]
    obtain ⟨hlt, hslot⟩ := notOpen_eq_false (Bool.eq_false_of_not_eq_true hopen)
    exact h.setCloseOnExec ht hlt hslot coe

lemma FileInv.dup_ends (srcFd : Nat) :
    Call.Ends Overflow (fdtableDup t srcFd) s (fun _ s' => FileInv s' tables held created) := by
  unfold fdtableDup
  apply Call.ends_bind_ok (h.deref_table ht)
  by_cases hopen : notOpen (s.table t) srcFd = true
  · rw [if_pos hopen]
    exact h
  · rw [if_neg hopen]
    obtain ⟨hlt, hslot⟩ := notOpen_eq_false (Bool.eq_false_of_not_eq_true hopen)
    cases hfind : (List.range MAX_FILES_PER_FD).find? (s.table t).isFdFree with
    | none => exact h
    | some dstFd =>
      have hfree : (s.table t).filesState dstFd = .FREE := by
        simpa [FDTable.isFdFree] using List.find?_some hfind
      have hdst : dstFd < MAX_FILES_PER_FD := List.mem_range.mp (List.mem_of_find?_eq_some hfind)
      apply (h.fileGet_ends (refs_pos_of_slot ht hlt hslot)).bind
      rintro _ s' ⟨rfl, htable, hinv⟩
      rw [← htable] at hfree
      have hinstall := hinv.install ht hdst (by rw [hfree]; decide) List.mem_cons_self false
      rw [List.erase_cons_head, htable] at hinstall
      exact hinstall

lemma FileInv.emptied {dstFd : Nat} (hdst : dstFd < MAX_FILES_PER_FD) :
    FileInv (s.setTable t (if (s.table t).isFdInstalled dstFd then (s.table t).setSlot dstFd 0 .FREE false
        else s.table t)) tables
      ((if (s.table t).isFdInstalled dstFd then [(s.table t).files dstFd] else []) ++ held) created := by
  by_cases hinst : (s.table t).isFdInstalled dstFd = true
  · rw [if_pos hinst, if_pos hinst]
    exact h.close ht hdst (by simpa [FDTable.isFdInstalled] using hinst)
  · rw [if_neg hinst, if_neg hinst]
    have hsame : s.setTable t (s.table t) = s := by
      simp only [Files.setTable, Function.update_eq_self]
    rw [hsame]
    exact h

lemma FileInv.dupAtLocked_ends (srcFd dstFd : Nat) (coe : Bool) :
    Call.Ends Overflow (dupAtLocked t srcFd dstFd coe) s (fun r s' =>
      FileInv s' tables (if r.2 = 0 then held else r.2 :: held) created) := by
  unfold dupAtLocked
  apply Call.ends_bind_ok (h.deref_table ht)
  by_cases hopen : notOpen (s.table t) srcFd = true
  · rw [if_pos hopen]
    exact h
  rw [if_neg hopen]
  obtain ⟨hlt, hslot⟩ := notOpen_eq_false (Bool.eq_false_of_not_eq_true hopen)
  by_cases heq : srcFd = dstFd
  · rw [if_pos heq]
    exact (h.setCloseOnExec_ends ht srcFd coe).bind (fun _ _ hinv => hinv)
  rw [if_neg heq]
  by_cases hdst : MAX_FILES_PER_FD ≤ dstFd
  · rw [if_pos hdst]
    exact h
  rw [if_neg hdst]
  have hempty := h.emptied ht (Nat.lt_of_not_le hdst)
  have hold : ∀ l : List Nat, (if (s.table t).isFdInstalled dstFd then [(s.table t).files dstFd] else []) ++ l =
      if (if (s.table t).isFdInstalled dstFd then (s.table t).files dstFd else 0) = 0 then l
      else (if (s.table t).isFdInstalled dstFd then (s.table t).files dstFd else 0) :: l := by
    intro l
    by_cases hinst : (s.table t).isFdInstalled dstFd = true
    · have hpos : 0 < refs s tables held ((s.table t).files dstFd) :=
        refs_pos_of_slot ht (Nat.lt_of_not_le hdst) (by simpa [FDTable.isFdInstalled] using hinst)
      rw [if_pos hinst, if_pos hinst, if_neg (h.file _ hpos).nonzero]
      rfl
    · rw [if_neg hinst, if_neg hinst]
      rfl
  generalize htable : (if (s.table t).isFdInstalled dstFd then (s.table t).setSlot dstFd 0 .FREE false
      else s.table t) = table at hempty ⊢
  have hsrc : table.filesState srcFd = .INSTALLED ∧ table.files srcFd = (s.table t).files srcFd := by
    subst htable
    split
    · simp only [FDTable.setSlot, Function.update_of_ne heq]
      exact ⟨hslot, trivial⟩
    · exact ⟨hslot, rfl⟩
  have hnot : table.filesState dstFd ≠ .INSTALLED := by
    subst htable
    split
    · simp [FDTable.setSlot]
    case isFalse hinst => simpa [FDTable.isFdInstalled] using hinst
  have hself : (s.setTable t table).table t = table := Function.update_self ..
  have hget := hempty.fileGet_ends (refs_pos_of_slot ht hlt (by rw [hself]; exact hsrc.1))
  rw [hself, hsrc.2] at hget
  refine Call.ends_bind_ok rfl ?_
  apply hget.bind
  rintro _ s' ⟨rfl, hframe, hinv⟩
  have hcur : s'.table t = table := by rw [hframe, hself]
  have hinstall := hinv.install ht (Nat.lt_of_not_le hdst) (by rw [hcur]; exact hnot) List.mem_cons_self coe
  rw [List.erase_cons_head, hold, hcur] at hinstall
  exact hinstall

lemma FileInv.dupAt_ends (srcFd dstFd : Nat) (coe : Bool) :
    Call.Ends Overflow (fdtableDupAt t srcFd dstFd coe) s (fun _ s' => FileInv s' tables held created) := by
  apply (h.dupAtLocked_ends ht srcFd dstFd coe).bind
  rintro ⟨err, old⟩ s' hinv
  by_cases hold : old = 0
  · rw [if_pos hold] at hinv
    show Call.Ends Overflow (if old ≠ 0 then _ else _) s' _
    rw [if_neg (not_not.mpr hold)]
    exact hinv
  · rw [if_neg hold] at hinv
    show Call.Ends Overflow (if old ≠ 0 then _ else _) s' _
    rw [if_pos hold]
    exact hinv.put_head.bind (fun _ _ hput => hput)

lemma FileInv.closeSlots_ends (fds : List Nat) (hfds : ∀ fd ∈ fds, fd < MAX_FILES_PER_FD) :
    Call.Ends Overflow (closeSlots t fds) s (fun toPut s' => FileInv s' tables (toPut ++ held) created) := by
  induction fds generalizing s held with
  | nil => exact h
  | cons fd rest ih =>
    have hlt := hfds fd List.mem_cons_self
    have hrest := fun fd' hfd' => hfds fd' (List.mem_cons_of_mem fd hfd')
    unfold closeSlots
    apply Call.ends_bind_ok (h.deref_table ht)
    refine Call.ends_bind_ok rfl ?_
    by_cases hinst : (s.table t).isFdInstalled fd = true
    · have hstate : (s.table t).filesState fd = .INSTALLED := by simpa [FDTable.isFdInstalled] using hinst
      apply (ih (h.close ht hlt hstate) hrest).bind
      intro toPut s' hinv
      rw [if_pos hinst]
      exact hinv.perm List.perm_middle
    · have hstate : (s.table t).filesState fd ≠ .INSTALLED := by simpa [FDTable.isFdInstalled] using hinst
      apply (ih (h.reset ht hlt hstate (by decide)) hrest).bind
      intro toPut s' hinv
      rw [if_neg hinst]
      exact hinv

end Table

lemma FileInv.putFiles_ends (toPut : List Nat) (h : FileInv s tables (toPut ++ held) created) :
    Call.Ends Overflow (putFiles toPut) s (fun _ s' => FileInv s' tables held created) := by
  apply Call.ends_each (fun l s' => FileInv s' tables (l ++ held) created)
  · intro f l s' hinv
    exact (FileInv.put_head hinv).bind (fun _ _ hput => hput)
  · exact h

lemma FileInv.closeAll_ends (h : FileInv s tables held created) (ht : t ∈ tables) :
    Call.Ends Overflow (fdtableCloseAll t) s (fun _ s' => FileInv s' tables held created) := by
  apply (h.closeSlots_ends ht _ (fun fd hfd => List.mem_range.mp hfd)).bind
  intro toPut s' hinv
  exact (hinv.putFiles_ends toPut).bind (fun _ _ hput => hput)

/-- The heap gives a new block or none. -/
lemma kalloc_cases (hfresh : HeapFresh s.heap) :
    Files.kalloc s = (.ok (errToPtr .ENOMEM), s) ∨
    ∃ b blocks, s.heap.blocks = b :: blocks ∧ b ≠ 0 ∧ isErrValue b = false ∧ b ∉ s.heap.live ∧
      Files.kalloc s = (.ok b, { s with heap := ⟨blocks, b :: s.heap.live⟩ }) := by
  unfold Files.kalloc
  rw [Call.read_bind]
  cases hblocks : s.heap.blocks with
  | nil => exact .inl rfl
  | cons b blocks =>
    obtain ⟨hne, herr, hnot⟩ := hfresh b (by rw [hblocks]; rfl)
    exact .inr ⟨b, blocks, rfl, hne, herr, hnot, rfl⟩

section Heap

variable (h : FileInv s tables held created)
include h

lemma FileInv.setHeap {heap : Heap} (hlive : ∀ b, b ∈ tables ∨ 0 < refs s tables held b → b ∈ heap.live) :
    FileInv { s with heap := heap } tables held created where
  file f hf := by
    obtain ⟨h1, h2, -, h4, h5⟩ := h.file f hf
    exact ⟨h1, h2, hlive f (.inr hf), h4, h5⟩
  released := h.released
  tables_live t ht := hlive t (.inl ht)
  blank := h.blank

lemma FileInv.alloc (b : Nat) (blocks : List Nat) :
    FileInv { s with heap := ⟨blocks, b :: s.heap.live⟩ } tables held created := by
  apply h.setHeap
  rintro x (hx | hx)
  · exact List.mem_cons_of_mem b (h.tables_live x hx)
  · exact List.mem_cons_of_mem b (h.file x hx).live

lemma FileInv.refs_of_not_live {b : Nat} (hb : b ∉ s.heap.live) : refs s tables held b = 0 := by
  apply Nat.eq_zero_of_not_pos
  intro hpos
  exact hb (h.file b hpos).live

lemma FileInv.fileCreate_ends {ops : Nat} (hops : ops ≠ 0) (hfresh : HeapFresh s.heap) (mode privateData : Nat) :
    Call.Ends Overflow (fileCreate ops mode privateData) s
      (fun r s' => FileInvOf s' (onOk Refs.create r ⟨tables, held, created⟩)) := by
  unfold fileCreate
  rcases kalloc_cases hfresh with hnone | ⟨b, blocks, -, hne, herr, hnot, hrun⟩
  · apply Call.ends_bind_ok hnone
    exact h
  apply Call.ends_bind_ok hrun
  rw [herr, if_neg Bool.false_ne_true, fileInit, if_pos hops]
  refine Call.ends_bind_ok rfl ?_
  have hzero := h.refs_of_not_live hnot
  have hslots : slotRefs s tables b = 0 ∧ held.count b = 0 := by
    unfold refs at hzero
    omega
  have hnot_table : b ∉ tables := fun hb => hnot (h.tables_live b hb)
  have hone : slotRefs s tables b + (b :: held).count b = 1 := by
    rw [List.count_cons_self]
    omega
  have hrel := h.released b
  rw [hzero, if_neg (Nat.lt_irrefl 0)] at hrel
  show FileInv _ tables (b :: held) (b :: created)
  apply h.change (f := b) _ hnot_table (fun g hg => FileInv.count_cons_ne hg held)
    (fun g hg => FileInv.count_cons_ne hg created)
  · intro _
    rw [hone]
    refine ⟨?_, by decide, List.mem_cons_self, hne, hnot_table⟩
    simp only [Files.setFile, Function.update_self]
  · rw [hone, if_pos Nat.one_pos, List.count_cons_self, hrel]
    rfl
  · refine ⟨rfl, fun g hg => Function.update_of_ne hg .., ?_, fun _ _ => rfl⟩
    exact fun g _ hlive => List.mem_cons_of_mem b hlive

lemma FileInv.addTable {b : Nat} (hb : b ∈ s.heap.live) (hnew : b ∉ tables) (hzero : refs s tables held b = 0) :
    FileInv (s.setTable b FDTable.blank) (insert b tables) held created := by
  have hholds : ∀ f, ∀ p ∈ slotsOf (insert b tables),
      Holds (s.setTable b FDTable.blank) f p ↔ p ∈ slotsOf tables ∧ Holds s f p := by
    rintro f ⟨t, fd⟩ hp
    rw [mem_slotsOf, Finset.mem_insert] at hp
    obtain ⟨ht, hfd⟩ := hp
    rw [mem_slotsOf]
    unfold Holds Files.setTable
    by_cases htb : t = b
    · subst htb
      simp [FDTable.blank, hnew]
    · simp [htb, ht.resolve_left htb, hfd]
  have hslots : ∀ f, slotRefs (s.setTable b FDTable.blank) (insert b tables) f = slotRefs s tables f := by
    intro f
    unfold slotRefs
    congr 1
    ext p
    rw [Finset.mem_filter, Finset.mem_filter]
    constructor
    · rintro ⟨hp, hholds'⟩
      exact (hholds f p hp).mp hholds'
    · rintro ⟨hp, hholds'⟩
      have hp' : p ∈ slotsOf (insert b tables) := by
        rw [mem_slotsOf] at hp ⊢
        exact ⟨Finset.mem_insert_of_mem hp.1, hp.2⟩
      exact ⟨hp', (hholds f p hp').mpr ⟨hp, hholds'⟩⟩
  have hrefs : ∀ f, refs (s.setTable b FDTable.blank) (insert b tables) held f = refs s tables held f := by
    intro f
    rw [refs, refs, hslots]
  constructor
  · intro f hf
    rw [hrefs] at hf ⊢
    obtain ⟨h1, h2, h3, h4, h5⟩ := h.file f hf
    refine ⟨h1, h2, h3, h4, ?_⟩
    rw [Finset.mem_insert, not_or]
    refine ⟨?_, h5⟩
    rintro rfl
    omega
  · intro f
    rw [hrefs]
    exact h.released f
  · intro t ht
    rcases Finset.mem_insert.mp ht with rfl | ht
    · exact hb
    · exact h.tables_live t ht
  · rintro ⟨t, fd⟩ hp
    rw [mem_slotsOf, Finset.mem_insert] at hp
    obtain ⟨ht, hfd⟩ := hp
    by_cases htb : t = b
    · subst htb
      intro _
      simp [Files.setTable, FDTable.blank]
    · simp only [Files.setTable, Function.update_of_ne htb]
      exact h.blank (t, fd) (mem_slotsOf.mpr ⟨ht.resolve_left htb, hfd⟩)

lemma FileInv.create_ends (hfresh : HeapFresh s.heap) :
    Call.Ends Overflow fdtableCreate s (fun r s' =>
      (FileInvOf s' (onOk Refs.addTable r ⟨tables, held, created⟩)) ∧
      ∀ t, r = .ok t → t ∉ tables ∧ s'.table t = FDTable.blank) := by
  unfold fdtableCreate
  rcases kalloc_cases hfresh with hnone | ⟨b, blocks, -, hne, herr, hnot, hrun⟩
  · apply Call.ends_bind_ok hnone
    exact ⟨h, fun t ht => nomatch ht⟩
  apply Call.ends_bind_ok hrun
  rw [herr, if_neg Bool.false_ne_true]
  have hnew : b ∉ tables := fun hb => hnot (h.tables_live b hb)
  refine ⟨?_, ?_⟩
  · exact (h.alloc b blocks).addTable List.mem_cons_self hnew (h.refs_of_not_live hnot)
  · intro t ht
    obtain rfl := Except.ok.inj ht
    exact ⟨hnew, Function.update_self ..⟩

end Heap

lemma FileInv.copySlot_ends (h : FileInv s tables held created) {dst : Nat} (ht : t ∈ tables) (hdst : dst ∈ tables)
    (hlt : fd < MAX_FILES_PER_FD) (hfree : (s.table dst).filesState fd = .FREE) :
    Call.Ends Overflow (copySlot dst t fd) s (fun _ s' => FileInv s' tables held created ∧
      AgreeOff fd (s.table dst) (s'.table dst)) := by
  have hnot : (s.table dst).filesState fd ≠ .INSTALLED := by
    rw [hfree]
    decide
  have hoff : ∀ (s' : Files) (file : Nat) (state : FileDescriptorState) (coe : Bool), s'.table = s.table →
      AgreeOff fd (s.table dst) ((s'.setTable dst ((s'.table dst).setSlot fd file state coe)).table dst) := by
    intro s' file state coe hsame
    rw [hsame]
    have hself : (s'.setTable dst ((s.table dst).setSlot fd file state coe)).table dst =
        (s.table dst).setSlot fd file state coe := Function.update_self ..
    rw [hself]
    exact agreeOff_setSlot _ _ _ _ _
  unfold copySlot
  apply Call.ends_bind_ok (h.deref_table ht)
  by_cases hinst : (s.table t).isFdInstalled fd = true
  · rw [if_pos hinst]
    have hslot : (s.table t).filesState fd = .INSTALLED := by simpa [FDTable.isFdInstalled] using hinst
    apply (h.fileGet_ends (refs_pos_of_slot ht hlt hslot)).bind
    rintro _ s' ⟨rfl, hsame, hinv⟩
    have hinstall := hinv.install hdst hlt (by rw [hsame]; exact hnot) List.mem_cons_self ((s.table t).closeOnExec fd)
    rw [List.erase_cons_head, ← hslot] at hinstall
    exact ⟨hinstall, hoff s' _ _ _ hsame⟩
  · rw [if_neg hinst]
    have hslot : (s.table t).filesState fd ≠ .INSTALLED := by simpa [FDTable.isFdInstalled] using hinst
    obtain ⟨hnull, hcoe⟩ := h.blank (t, fd) (mem_slotsOf.mpr ⟨ht, hlt⟩) hslot
    refine ⟨?_, hoff s _ _ _ rfl⟩
    simp only at hnull hcoe
    rw [hnull, hcoe]
    exact h.reset hdst hlt hnot hslot

lemma FileInv.createFrom_ends (h : FileInv s tables held created) (ht : t ∈ tables) (hfresh : HeapFresh s.heap) :
    Call.Ends Overflow (fdtableCreateFrom t) s
      (fun r s' => FileInvOf s' (onOk Refs.addTable r ⟨tables, held, created⟩)) := by
  apply (h.create_ends hfresh).bind
  rintro r s₁ ⟨hinv, hblank⟩
  cases r with
  | error err => exact hinv
  | ok dst =>
    obtain ⟨hnew, hdst⟩ := hblank dst rfl
    have hsrc : t ∈ insert dst tables := Finset.mem_insert_of_mem ht
    have hmem : dst ∈ insert dst tables := Finset.mem_insert_self ..
    have hloop := Call.ends_each (E := Overflow) (f := copySlot dst t)
      (fun l s' => l.Nodup ∧ (∀ fd ∈ l, fd < MAX_FILES_PER_FD) ∧ FileInv s' (insert dst tables) held created ∧
        ∀ fd ∈ l, (s'.table dst).filesState fd = .FREE)
      (by
        rintro fd l s' ⟨hnodup, hlt, hinv', hfree⟩
        obtain ⟨hnotin, hnodup'⟩ := List.nodup_cons.mp hnodup
        apply (hinv'.copySlot_ends hsrc hmem (hlt fd List.mem_cons_self) (hfree fd List.mem_cons_self)).mono
        rintro _ s'' ⟨hinv'', hoff⟩
        refine ⟨hnodup', fun d hd => hlt d (List.mem_cons_of_mem fd hd), hinv'', ?_⟩
        intro d hd
        rw [(hoff d (fun heq => hnotin (heq ▸ hd))).2.1]
        exact hfree d (List.mem_cons_of_mem fd hd))
      (List.range MAX_FILES_PER_FD) s₁
      ⟨List.nodup_range, fun fd hfd => List.mem_range.mp hfd, hinv, fun fd _ => by rw [hdst]; rfl⟩
    apply hloop.bind
    rintro _ s' ⟨-, -, hinv', -⟩
    exact hinv'

lemma FileInv.add_ends (h : FileInv s tables held created) (ht : t ∈ tables) (hf : f ∈ held) :
    Call.Ends Overflow (fdtableAdd t f) s
      (fun r s' => FileInvOf s' (onOk (fun _ => Refs.drop f) r ⟨tables, held, created⟩)) := by
  apply (h.reserve_ends ht 0).bind
  rintro r s₁ ⟨hinv, hres⟩
  cases r with
  | error err => exact hinv
  | ok fd =>
    obtain ⟨hlt, hstate⟩ := hres fd rfl
    apply (hinv.installAt_ends ht hf fd).bind
    rintro err s₂ ⟨hinv', hok⟩
    obtain rfl := hok hlt hstate
    exact hinv'

lemma FileOp.step_ends (op : FileOp) (h : FileInvOf s g) (hop : op.Allowed s g) :
    Call.Ends Overflow op.call s (fun r s' => FileInvOf s' (r g)) := by
  cases op with
  | fileCreate ops mode privateData =>
    exact (FileInv.fileCreate_ends h hop.1 hop.2 mode privateData).bind (fun _ _ hinv => hinv)
  | filePut f => exact (FileInv.filePut_ends h hop).bind (fun _ _ hinv => hinv.2)
  | create => exact (FileInv.create_ends h hop).bind (fun _ _ hinv => hinv.1)
  | createFrom src => exact (FileInv.createFrom_ends h hop.1 hop.2).bind (fun _ _ hinv => hinv)
  | reserve table minFd => exact (FileInv.reserve_ends h hop minFd).bind (fun _ _ hinv => hinv.1)
  | installAt table file fd =>
    apply (FileInv.installAt_ends h hop.1 hop.2 fd).bind
    rintro err s' ⟨hinv, -⟩
    show FileInvOf s' ((if err = .EOK then Refs.drop file else id) g)
    by_cases herr : err = .EOK
    · rw [if_pos herr] at hinv ⊢
      exact hinv
    · rw [if_neg herr] at hinv ⊢
      exact hinv
  | add table file => exact (FileInv.add_ends h hop.1 hop.2).bind (fun _ _ hinv => hinv)
  | getFile table fd => exact (FileInv.getFile_ends h hop fd).bind (fun _ _ hinv => hinv)
  | closeFile table fd => exact (FileInv.closeFile_ends h hop fd).bind (fun _ _ hinv => hinv)
  | closeFileLocked table fd => exact (FileInv.closeFileLocked_ends h hop fd).bind (fun _ _ hinv => hinv)
  | setCloseOnExec table fd closeOnExec =>
    refine Call.Ends.bind (Call.ends_bind_ok (FileInv.deref_table h hop) ?_) (fun _ _ hinv => hinv)
    exact FileInv.setCloseOnExec_ends h hop fd closeOnExec
  | dup table srcFd => exact (FileInv.dup_ends h hop srcFd).bind (fun _ _ hinv => hinv)
  | dupAt table srcFd dstFd closeOnExec =>
    exact (FileInv.dupAt_ends h hop srcFd dstFd closeOnExec).bind (fun _ _ hinv => hinv)
  | dupAtLocked table srcFd dstFd closeOnExec =>
    apply (FileInv.dupAtLocked_ends h hop srcFd dstFd closeOnExec).bind
    rintro ⟨err, old⟩ s' hinv
    show FileInvOf s' ((if old = 0 then id else Refs.take [old]) g)
    by_cases hold : old = 0
    · rw [if_pos hold] at hinv ⊢
      exact hinv
    · rw [if_neg hold] at hinv ⊢
      exact hinv
  | closeAll table => exact (FileInv.closeAll_ends h hop).bind (fun _ _ hinv => hinv)
  | closeAllLocked table =>
    exact (FileInv.closeSlots_ends h hop _ (fun fd hfd => List.mem_range.mp hfd)).bind (fun _ _ hinv => hinv)
  | heap new => exact FileInv.setHeap h hop

/-- A state of a run. -/
structure FileRun where
  files : Files
  refs : Refs

/-- A step that is allowed and returns. -/
inductive FileStep : FileRun → FileRun → Prop
  | mk {r : FileRun} {op : FileOp} {effect : Refs → Refs} {s' : Files} (hop : op.Allowed r.files r.refs)
      (hcall : op.call r.files = (.ok effect, s')) : FileStep r ⟨s', effect r.refs⟩

namespace FileRun

/-- The file in block `f` has been created more often than it has been released. -/
def Live (r : FileRun) (f : Nat) : Prop := r.files.released.count f < r.refs.created.count f

/-- The number of references to `f`. -/
def count (r : FileRun) (f : Nat) : Nat := slotRefs r.files r.refs.tables f + r.refs.held.count f

/-- The files and their references agree. -/
structure Accounted (r : FileRun) : Prop where
  count_eq : ∀ f, r.Live f → (r.files.file f).count = r.count f
  live_iff : ∀ f, r.Live f ↔ 0 < r.count f
  released_once : ∀ f, r.refs.created.count f ≤ r.files.released.count f + 1
  released_le : ∀ f, r.files.released.count f ≤ r.refs.created.count f
  slot_live : ∀ t ∈ r.refs.tables, ∀ fd < MAX_FILES_PER_FD, (r.files.table t).filesState fd = .INSTALLED →
    r.Live ((r.files.table t).files fd)
  slot_blank : ∀ t ∈ r.refs.tables, ∀ fd < MAX_FILES_PER_FD, (r.files.table t).filesState fd ≠ .INSTALLED →
    (r.files.table t).files fd = 0 ∧ (r.files.table t).closeOnExec fd = false

end FileRun

lemma FileInvOf.accounted {r : FileRun} (h : FileInvOf r.files r.refs) : r.Accounted := by
  have hlive : ∀ f, r.Live f ↔ 0 < r.count f := by
    intro f
    have hrel := h.released f
    unfold FileRun.Live
    by_cases hpos : 0 < refs r.files r.refs.tables r.refs.held f
    · rw [if_pos hpos] at hrel
      exact ⟨fun _ => hpos, fun _ => by omega⟩
    · rw [if_neg hpos] at hrel
      exact ⟨fun hlt => by omega, fun hlt => absurd hlt hpos⟩
  refine ⟨fun f hf => (h.file f ((hlive f).mp hf)).count_eq, hlive, ?_, ?_, ?_, ?_⟩
  · intro f
    have hrel := h.released f
    split at hrel <;> omega
  · intro f
    have hrel := h.released f
    omega
  · intro t ht fd hfd hslot
    exact (hlive _).mpr (refs_pos_of_slot ht hfd hslot)
  · intro t ht fd hfd hslot
    exact h.blank (t, fd) (mem_slotsOf.mpr ⟨ht, hfd⟩) hslot

lemma file_run_inv {r r' : FileRun} (h : FileInvOf r.files r.refs) (hrun : Relation.ReflTransGen FileStep r r') :
    FileInvOf r'.files r'.refs := by
  induction hrun with
  | refl => exact h
  | tail _ hstep ih =>
    cases hstep with
    | mk hop hcall => exact (FileOp.step_ends _ ih hop).ok hcall

/-- Before the first call there are no tables and no files. -/
structure FileRun.Start (r : FileRun) : Prop where
  refs : r.refs = ⟨∅, [], []⟩
  released : r.files.released = []

lemma FileRun.Start.inv {r : FileRun} (h : r.Start) : FileInvOf r.files r.refs := by
  have hzero : ∀ f, KaworuOS.Proofs.refs r.files ∅ [] f = 0 := fun f => rfl
  rw [h.refs]
  constructor
  · intro f hf
    rw [hzero] at hf
    cases hf
  · intro f
    rw [hzero, h.released]
    rfl
  · intro t ht
    cases ht
  · intro p hp
    cases (mem_slotsOf.mp hp).1

/-- **References to files.** In every state of a run the count of a live file is the number of its
installed slots and of the references that callers hold; a file is released once, when this number
gets zero; and a slot that is not installed is empty. No call stops in such a state, unless the
count of a file overflows. -/
theorem file_references_accounted {r r' : FileRun} (hstart : r.Start) (hrun : Relation.ReflTransGen FileStep r r') :
    r'.Accounted ∧ ∀ op : FileOp, op.Allowed r'.files r'.refs →
      Call.Ends Overflow op.call r'.files (fun _ _ => True) := by
  have hinv := file_run_inv hstart.inv hrun
  refine ⟨hinv.accounted, ?_⟩
  intro op hop
  exact (op.step_ends hinv hop).mono (fun _ _ _ => trivial)

/-- The state after a step that returns. -/
def FileRun.next (r : FileRun) (op : FileOp) : FileRun :=
  ⟨(op.call r.files).2, op.call.valueD r.files id r.refs⟩

lemma FileRun.step_next (r : FileRun) {op : FileOp} (hop : op.Allowed r.files r.refs)
    (hok : (op.call r.files).1.isOk = true) : FileStep r (r.next op) := .mk hop (Call.eq_valueD id hok)

def fileBoot : FileRun :=
  ⟨⟨⟨[0x1000, 0x2000], []⟩, fun _ => ⟨0, 0, 0, 0, 0⟩, fun _ => FDTable.blank, []⟩, ⟨∅, [], []⟩⟩

def fileBootTable : FileRun := fileBoot.next .create

def fileBootFile : FileRun := fileBootTable.next (.fileCreate 0x80 1 0)

def fileBootAdded : FileRun := fileBootFile.next (.add 0x1000 0x2000)

def fileBootRead : FileRun := fileBootAdded.next (.getFile 0x1000 0)

def fileBootClosed : FileRun := fileBootRead.next (.closeFile 0x1000 0)

/-- A table is made and a file is added to it; the file is closed while a caller still reads it. -/
theorem file_references_accounted_closed :
    fileBoot.Start ∧ Relation.ReflTransGen FileStep fileBoot fileBootClosed ∧ fileBootClosed.Accounted ∧
      fileBootClosed.Live 0x2000 ∧ fileBootClosed.count 0x2000 = 1 := by
  have hstart : fileBoot.Start := ⟨rfl, rfl⟩
  have hfresh : HeapFresh fileBoot.files.heap ∧ HeapFresh fileBootTable.files.heap := by
    unfold HeapFresh
    decide +kernel
  have hcreate : FileStep fileBoot fileBootTable := fileBoot.step_next hfresh.1 (by decide +kernel)
  have hfile : FileStep fileBootTable fileBootFile :=
    fileBootTable.step_next ⟨by decide, hfresh.2⟩ (by decide +kernel)
  have hadd : FileStep fileBootFile fileBootAdded :=
    fileBootFile.step_next ⟨by decide +kernel, by decide +kernel⟩ (by decide +kernel)
  have hget : FileStep fileBootAdded fileBootRead := by
    refine fileBootAdded.step_next ?_ (by decide +kernel)
    show 0x1000 ∈ fileBootAdded.refs.tables
    decide +kernel
  have hclose : FileStep fileBootRead fileBootClosed := by
    refine fileBootRead.step_next ?_ (by decide +kernel)
    show 0x1000 ∈ fileBootRead.refs.tables
    decide +kernel
  have hrun : Relation.ReflTransGen FileStep fileBoot fileBootClosed :=
    ((((Relation.ReflTransGen.single hcreate).tail hfile).tail hadd).tail hget).tail hclose
  refine ⟨hstart, hrun, (file_references_accounted hstart hrun).1, ?_, by decide +kernel⟩
  unfold FileRun.Live
  decide +kernel

end KaworuOS.Proofs
