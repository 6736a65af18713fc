import KaworuOS.FdTable
import Mathlib.Data.Finset.Card
import Mathlib.Data.Finset.Prod

/-!
# References to files

A reference to a file is an installed slot that holds it, or is held by a caller. The references in
the slots are counted over all tables; those of the callers are a ghost list.
-/

namespace KaworuOS.Proofs
open Lib

/-- The slot `p` (a table and a descriptor) is installed and holds `f`. -/
def Holds (s : Files) (f : Nat) (p : Nat × Nat) : Prop :=
  (s.table p.1).filesState p.2 = .INSTALLED ∧ (s.table p.1).files p.2 = f

instance (s : Files) (f : Nat) : DecidablePred (Holds s f) := fun _ => inferInstanceAs (Decidable (_ ∧ _))

/-- The slots of the tables. -/
def slotsOf (tables : Finset Nat) : Finset (Nat × Nat) := tables ×ˢ Finset.range MAX_FILES_PER_FD

/-- The number of installed slots that hold `f`. -/
def slotRefs (s : Files) (tables : Finset Nat) (f : Nat) : Nat := ((slotsOf tables).filter (Holds s f)).card

/-- The number of references to `f`. -/
def refs (s : Files) (tables : Finset Nat) (held : List Nat) (f : Nat) : Nat := slotRefs s tables f + held.count f

/-- What is true of a file that somebody refers to. -/
structure FileOk (s : Files) (tables : Finset Nat) (f count : Nat) : Prop where
  count_eq : (s.file f).count = count
  bound : count ≤ UINT_MAX
  live : f ∈ s.heap.live
  nonzero : f ≠ 0
  not_table : f ∉ tables

/-- The invariant of a run. Each creation of a file is remembered in `created`. -/
structure FileInv (s : Files) (tables : Finset Nat) (held created : List Nat) : Prop where
  file : ∀ f, 0 < refs s tables held f → FileOk s tables f (refs s tables held f)
  released : ∀ f, created.count f = s.released.count f + if 0 < refs s tables held f then 1 else 0
  tables_live : ∀ t ∈ tables, t ∈ s.heap.live
  blank : ∀ p ∈ slotsOf tables, (s.table p.1).filesState p.2 ≠ .INSTALLED →
    (s.table p.1).files p.2 = 0 ∧ (s.table p.1).closeOnExec p.2 = false

/-- Only the file `f` and its references change. -/
structure OnlyFile (f : Nat) (s s' : Files) : Prop where
  table : s'.table = s.table
  file : ∀ g, g ≠ f → s'.file g = s.file g
  live : ∀ g, g ≠ f → g ∈ s.heap.live → g ∈ s'.heap.live
  released : ∀ g, g ≠ f → s'.released.count g = s.released.count g

/-- The state after `file_release`. -/
def dropped (s : Files) (f : Nat) : Files :=
  { s.setFile f { s.file f with count := (s.file f).count - 1 } with
    heap := { s.heap with live := s.heap.live.erase f }
    released := f :: s.released }

variable {s s' : Files} {tables : Finset Nat} {held held' created : List Nat} {f t fd : Nat}

lemma mem_slotsOf {p : Nat × Nat} : p ∈ slotsOf tables ↔ p.1 ∈ tables ∧ p.2 < MAX_FILES_PER_FD := by
  rw [slotsOf, Finset.mem_product, Finset.mem_range]

lemma card_filter_change {α : Type} [DecidableEq α] {S : Finset α} {P P' : α → Prop} [DecidablePred P]
    [DecidablePred P'] {a : α} (ha : a ∈ S) (h : ∀ b ∈ S, b ≠ a → (P' b ↔ P b)) :
    (S.filter P').card + (if P a then 1 else 0) = (S.filter P).card + (if P' a then 1 else 0) := by
  have hrest : ((S.erase a).filter P') = ((S.erase a).filter P) := by
    apply Finset.filter_congr
    intro b hb
    exact h b (Finset.mem_of_mem_erase hb) (Finset.ne_of_mem_erase hb)
  have hsplit : ∀ (Q : α → Prop) [DecidablePred Q],
      (S.filter Q).card = ((S.erase a).filter Q).card + if Q a then 1 else 0 := by
    intro Q _
    conv_lhs => rw [← Finset.insert_erase ha, Finset.filter_insert]
    split
    · rw [Finset.card_insert_of_notMem (by simp)]
    · rfl
  rw [hsplit P, hsplit P', hrest]
  omega

/-- One if the slot of a table refers to `f`. -/
def slotRef (table : FDTable) (fd f : Nat) : Nat :=
  if table.filesState fd = .INSTALLED ∧ table.files fd = f then 1 else 0

/-- The tables agree on all descriptors but one. -/
def AgreeOff (fd : Nat) (table table' : FDTable) : Prop :=
  ∀ d, d ≠ fd → table'.files d = table.files d ∧ table'.filesState d = table.filesState d ∧
    table'.closeOnExec d = table.closeOnExec d

lemma agreeOff_setSlot (table : FDTable) (fd file : Nat) (state : FileDescriptorState) (coe : Bool) :
    AgreeOff fd table (table.setSlot fd file state coe) := by
  intro d hd
  exact ⟨Function.update_of_ne hd .., Function.update_of_ne hd .., Function.update_of_ne hd ..⟩

lemma slotRefs_setTable {table : FDTable} (ht : t ∈ tables) (hfd : fd < MAX_FILES_PER_FD)
    (hoff : AgreeOff fd (s.table t) table) (f : Nat) :
    slotRefs (s.setTable t table) tables f + slotRef (s.table t) fd f =
      slotRefs s tables f + slotRef table fd f := by
  have hmem : (t, fd) ∈ slotsOf tables := mem_slotsOf.mpr ⟨ht, hfd⟩
  have hother : ∀ p ∈ slotsOf tables, p ≠ (t, fd) → (Holds (s.setTable t table) f p ↔ Holds s f p) := by
    rintro ⟨t', d⟩ - hne
    unfold Holds Files.setTable
    by_cases htt : t' = t
    · subst htt
      obtain ⟨h1, h2, -⟩ := hoff d (fun h => hne (by rw [h]))
      simp only [Function.update_self, h1, h2]
    · simp only [Function.update_of_ne htt]
  have h := card_filter_change hmem hother
  have hnew : Holds (s.setTable t table) f (t, fd) ↔ table.filesState fd = .INSTALLED ∧ table.files fd = f := by
    simp only [Holds, Files.setTable, Function.update_self]
  unfold slotRefs slotRef
  simp only [hnew] at h
  exact h

@[simp] lemma slotRef_setSlot (table : FDTable) (fd file : Nat) (state : FileDescriptorState) (coe : Bool) (f : Nat) :
    slotRef (table.setSlot fd file state coe) fd f = if state = .INSTALLED ∧ file = f then 1 else 0 := by
  simp only [slotRef, FDTable.setSlot, Function.update_self]

lemma slotRef_of_not_installed {table : FDTable} (h : table.filesState fd ≠ .INSTALLED) (f : Nat) :
    slotRef table fd f = 0 := if_neg (fun h' => h h'.1)

lemma slotRef_of_installed {table : FDTable} (h : table.filesState fd = .INSTALLED) (f : Nat) :
    slotRef table fd f = if table.files fd = f then 1 else 0 := by
  simp only [slotRef, h, true_and]

lemma refs_pos_of_slot (ht : t ∈ tables) (hfd : fd < MAX_FILES_PER_FD)
    (hslot : (s.table t).filesState fd = .INSTALLED) : 0 < refs s tables held ((s.table t).files fd) := by
  apply Nat.add_pos_left
  apply Finset.card_pos.mpr
  exact ⟨(t, fd), Finset.mem_filter.mpr ⟨mem_slotsOf.mpr ⟨ht, hfd⟩, hslot, rfl⟩⟩

lemma refs_pos_of_held (hf : f ∈ held) : 0 < refs s tables held f :=
  Nat.add_pos_right _ (List.count_pos_iff.mpr hf)

namespace FileInv

lemma perm (h : FileInv s tables held created) (hperm : held.Perm held') : FileInv s tables held' created := by
  have hrefs : refs s tables held' = refs s tables held := by
    funext f
    rw [refs, refs, hperm.count_eq]
  constructor
  · rw [hrefs]
    exact h.file
  · rw [hrefs]
    exact h.released
  · exact h.tables_live
  · exact h.blank

lemma store (h : FileInv s tables held created) {table : FDTable} (ht : t ∈ tables) (hfd : fd < MAX_FILES_PER_FD)
    (hoff : AgreeOff fd (s.table t) table)
    (hmove : ∀ f, slotRef table fd f + held'.count f = slotRef (s.table t) fd f + held.count f)
    (hblank : table.filesState fd ≠ .INSTALLED → table.files fd = 0 ∧ table.closeOnExec fd = false) :
    FileInv (s.setTable t table) tables held' created := by
  have hrefs : ∀ f, refs (s.setTable t table) tables held' f = refs s tables held f := by
    intro f
    have h1 := slotRefs_setTable ht hfd hoff f
    have h2 := hmove f
    unfold refs
    omega
  constructor
  · intro f hf
    rw [hrefs] at hf ⊢
    obtain ⟨h1, h2, h3, h4, h5⟩ := h.file f hf
    exact ⟨h1, h2, h3, h4, h5⟩
  · intro f
    rw [hrefs]
    exact h.released f
  · exact h.tables_live
  · rintro ⟨t', d⟩ hp
    have hold := h.blank (t', d) hp
    by_cases htt : t' = t
    case neg =>
      simp only [Files.setTable, Function.update_of_ne htt]
      exact hold
    subst htt
    simp only [Files.setTable, Function.update_self]
    by_cases hd : d = fd
    · subst hd
      exact hblank
    · obtain ⟨h1, h2, h3⟩ := hoff d hd
      rw [h1, h2, h3]
      exact hold

lemma close (h : FileInv s tables held created) (ht : t ∈ tables) (hfd : fd < MAX_FILES_PER_FD)
    (hslot : (s.table t).filesState fd = .INSTALLED) :
    FileInv (s.setTable t ((s.table t).setSlot fd 0 .FREE false)) tables ((s.table t).files fd :: held) created := by
  apply h.store ht hfd (agreeOff_setSlot _ _ _ _ _)
  · intro f
    rw [slotRef_setSlot, slotRef_of_installed hslot, List.count_cons]
    simp only [reduceCtorEq, false_and, if_false, beq_iff_eq]
    omega
  · intro _
    exact ⟨Function.update_self .., Function.update_self ..⟩

lemma reset (h : FileInv s tables held created) (ht : t ∈ tables) (hfd : fd < MAX_FILES_PER_FD)
    (hslot : (s.table t).filesState fd ≠ .INSTALLED) {state : FileDescriptorState} (hstate : state ≠ .INSTALLED) :
    FileInv (s.setTable t ((s.table t).setSlot fd 0 state false)) tables held created := by
  apply h.store ht hfd (agreeOff_setSlot _ _ _ _ _)
  · intro f
    rw [slotRef_setSlot, slotRef_of_not_installed hslot, if_neg (fun h' => hstate h'.1)]
  · intro _
    exact ⟨Function.update_self .., Function.update_self ..⟩

lemma install (h : FileInv s tables held created) (ht : t ∈ tables) (hfd : fd < MAX_FILES_PER_FD)
    (hslot : (s.table t).filesState fd ≠ .INSTALLED) (hf : f ∈ held) (coe : Bool) :
    FileInv (s.setTable t ((s.table t).setSlot fd f .INSTALLED coe)) tables (held.erase f) created := by
  apply h.store ht hfd (agreeOff_setSlot _ _ _ _ _)
  · intro g
    rw [slotRef_setSlot, slotRef_of_not_installed hslot, List.count_erase]
    simp only [true_and, beq_iff_eq]
    by_cases hg : f = g
    · subst hg
      have h1 := List.count_pos_iff.mpr hf
      simp only [if_true]
      omega
    · simp only [if_neg hg]
      omega
  · intro hne
    exact absurd (Function.update_self ..) hne

lemma setCloseOnExec (h : FileInv s tables held created) (ht : t ∈ tables) (hfd : fd < MAX_FILES_PER_FD)
    (hslot : (s.table t).filesState fd = .INSTALLED) (coe : Bool) :
    FileInv (s.setTable t ((s.table t).setSlot fd ((s.table t).files fd) ((s.table t).filesState fd) coe)) tables
      held created := by
  apply h.store ht hfd (agreeOff_setSlot _ _ _ _ _)
  · intro g
    rw [slotRef_setSlot, slotRef]
  · intro hne
    exact absurd ((Function.update_self ..).trans hslot) hne

lemma slotRefs_of_table (h : s'.table = s.table) (f : Nat) : slotRefs s' tables f = slotRefs s tables f := by
  unfold slotRefs
  congr 2
  funext p
  unfold Holds
  rw [h]

lemma change (h : FileInv s tables held created) {created' : List Nat} (honly : OnlyFile f s s') (hnot : f ∉ tables)
    (hheld : ∀ g, g ≠ f → held'.count g = held.count g) (hcreated : ∀ g, g ≠ f → created'.count g = created.count g)
    (hfile : 0 < slotRefs s tables f + held'.count f → FileOk s' tables f (slotRefs s tables f + held'.count f))
    (hrel : created'.count f =
      s'.released.count f + if 0 < slotRefs s tables f + held'.count f then 1 else 0) :
    FileInv s' tables held' created' := by
  have hrefs : ∀ g, g ≠ f → refs s' tables held' g = refs s tables held g := by
    intro g hg
    rw [refs, refs, slotRefs_of_table honly.table, hheld g hg]
  have hrefs_f : refs s' tables held' f = slotRefs s tables f + held'.count f := by
    rw [refs, slotRefs_of_table honly.table]
  constructor
  · intro g hg
    by_cases hgf : g = f
    · subst hgf
      rw [hrefs_f] at hg ⊢
      exact hfile hg
    · rw [hrefs g hgf] at hg ⊢
      obtain ⟨h1, h2, h3, h4, h5⟩ := h.file g hg
      exact ⟨(congrArg File.count (honly.file g hgf)).trans h1, h2, honly.live g hgf h3, h4, h5⟩
  · intro g
    by_cases hgf : g = f
    · subst hgf
      rw [hrefs_f]
      exact hrel
    · rw [hrefs g hgf, hcreated g hgf, honly.released g hgf]
      exact h.released g
  · intro t ht
    apply honly.live t _ (h.tables_live t ht)
    rintro rfl
    exact hnot ht
  · rw [honly.table]
    exact h.blank

lemma onlyFile_setFile (s : Files) (f : Nat) (file : File) : OnlyFile f s (s.setFile f file) where
  table := rfl
  file _ hg := Function.update_of_ne hg ..
  live _ _ hlive := hlive
  released _ _ := rfl

lemma count_cons_ne {g : Nat} (hg : g ≠ f) (l : List Nat) : (f :: l).count g = l.count g :=
  List.count_cons_of_ne (Ne.symm hg)

lemma get (h : FileInv s tables held created) (hf : 0 < refs s tables held f)
    (hbound : (s.file f).count ≠ UINT_MAX) :
    FileInv (s.setFile f { s.file f with count := (s.file f).count + 1 }) tables (f :: held) created := by
  obtain ⟨hcount, hle, hlive, hnonzero, hnot⟩ := h.file f hf
  have hheld : slotRefs s tables f + (f :: held).count f = refs s tables held f + 1 := by
    rw [List.count_cons_self]
    rfl
  apply h.change (onlyFile_setFile _ _ _) hnot (fun g hg => count_cons_ne hg held) (fun _ _ => rfl)
  · intro _
    rw [hheld]
    refine ⟨?_, by omega, hlive, hnonzero, hnot⟩
    simp only [Files.setFile, Function.update_self, hcount]
  · rw [hheld, if_pos (Nat.succ_pos _), h.released f, if_pos hf]
    rfl

lemma held_erase (hf : f ∈ held) :
    slotRefs s tables f + (held.erase f).count f = refs s tables held f - 1 := by
  have hpos := List.count_pos_iff.mpr hf
  rw [List.count_erase_self, refs]
  omega

lemma put (h : FileInv s tables held created) (hf : f ∈ held) (hmore : 1 < (s.file f).count) :
    FileInv (s.setFile f { s.file f with count := (s.file f).count - 1 }) tables (held.erase f) created := by
  have hpos : 0 < refs s tables held f := refs_pos_of_held hf
  obtain ⟨hcount, hle, hlive, hnonzero, hnot⟩ := h.file f hpos
  apply h.change (onlyFile_setFile _ _ _) hnot (fun g hg => List.count_erase_of_ne hg) (fun _ _ => rfl)
  · intro _
    rw [held_erase hf]
    refine ⟨?_, by omega, hlive, hnonzero, hnot⟩
    simp only [Files.setFile, Function.update_self, hcount]
  · rw [held_erase hf, if_pos (by omega), h.released f, if_pos hpos]
    rfl

lemma release (h : FileInv s tables held created) (hf : f ∈ held) (hlast : (s.file f).count = 1) :
    FileInv (dropped s f) tables (held.erase f) created := by
  have hpos : 0 < refs s tables held f := refs_pos_of_held hf
  obtain ⟨hcount, hle, hlive, hnonzero, hnot⟩ := h.file f hpos
  have hzero : slotRefs s tables f + (held.erase f).count f = 0 := by
    rw [held_erase hf, ← hcount, hlast]
  have honly : OnlyFile f s (dropped s f) := by
    refine ⟨rfl, fun g hg => Function.update_of_ne hg .., ?_, fun g hg => count_cons_ne hg _⟩
    intro g hg hlive
    exact (List.mem_erase_of_ne hg).mpr hlive
  apply h.change honly hnot (fun g hg => List.count_erase_of_ne hg) (fun _ _ => rfl)
  · intro h0
    omega
  · rw [hzero, h.released f, if_pos hpos, if_neg (Nat.lt_irrefl 0)]
    exact (List.count_cons_self ..).symm

end FileInv

end KaworuOS.Proofs
