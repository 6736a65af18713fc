import KaworuOS.Proofs.ReapFamily

/-!
# What has been destroyed

`LogInv` ties the destroyed address spaces and tables of files to the fields of the processes and to
the program counters, and each step keeps it.
-/

namespace KaworuOS.Proofs
open Lib

/-- What a task has just destroyed: the address space of the process of a dead task, or that of a
child, or the files of a child too. -/
inductive Undone
  | spaceOf (dead : Nat)
  | space (child : Nat)
  | files (child : Nat)
  deriving DecidableEq

def undone : LifePc → Option Undone
  | .clearSpace dead => some (.spaceOf dead)
  | .dropFiles child => some (.space child)
  | .free child => some (.files child)
  | _ => none

/-- Some task has just done `x`. -/
def Did (s : Life) (x : Undone) : Prop := ∃ u, undone (s.pc u) = some x

/-- The address space of `p` is destroyed, and the field of `p` may not say so. -/
def SpaceGone (s : Life) (p : Nat) : Prop :=
  (∃ dead, Did s (.spaceOf dead) ∧ (s.smp.task dead).process = p) ∨ Did s (.space p) ∨ Did s (.files p) ∨ p ∈ s.freed

/-- The table of files of `p` is destroyed. -/
def FilesGone (s : Life) (p : Nat) : Prop := Did s (.files p) ∨ p ∈ s.freed

/-- A dead task is destroyed, or a cleanup task is about to do it. -/
def Leaving (s : Life) (dead : Nat) : Prop := dead ∈ s.destroyed ∨ ∃ u, s.pc u = .destroy dead

/-- What has been destroyed. `space p` and `table p` were given to the process `p`. -/
structure LogInv (real : Nat → Prop) (space table : Nat → Nat) (s : Life) : Prop where
  files : ∀ p, (s.proc p).files = table p
  spaces : s.spaces.Nodup
  tables : s.tables.Nodup
  space_of : ∀ x ∈ s.spaces, ∃ p, real p ∧ x = space p
  table_of : ∀ x ∈ s.tables, ∃ p, real p ∧ x = table p
  field : ∀ p, real p → (s.proc p).addressSpace = 0 ∨ (s.proc p).addressSpace = space p
  space_iff : ∀ p, real p → (space p ∈ s.spaces ↔ (s.proc p).addressSpace = 0 ∨ SpaceGone s p)
  table_iff : ∀ p, real p → (table p ∈ s.tables ↔ FilesGone s p)
  cleared : ∀ p, real p → (s.proc p).addressSpace = 0 → ∀ dead, (s.smp.task dead).process = p → Leaving s dead

variable {cpus real : Nat → Prop} {space table : Nat → Nat} {s s' : Life} {c cur p q dead : Nat}

lemma LogInv.step (h : LogInv real space table s) (hfiles : ∀ p, (s'.proc p).files = (s.proc p).files)
    (hspace : ∀ p, (s'.proc p).addressSpace = (s.proc p).addressSpace) (hspaces : s'.spaces = s.spaces)
    (htables : s'.tables = s.tables) (hprocess : ∀ t, (s'.smp.task t).process = (s.smp.task t).process)
    (hgone : ∀ p, SpaceGone s' p ↔ SpaceGone s p) (hfilesGone : ∀ p, FilesGone s' p ↔ FilesGone s p)
    (hleaving : ∀ d, Leaving s d → Leaving s' d) : LogInv real space table s' := by
  refine ⟨?_, ?_, ?_, ?_, ?_, ?_, ?_, ?_, ?_⟩
  · intro p
    rw [hfiles]
    exact h.files p
  · rw [hspaces]
    exact h.spaces
  · rw [htables]
    exact h.tables
  · rw [hspaces]
    exact h.space_of
  · rw [htables]
    exact h.table_of
  · intro p hp
    rw [hspace]
    exact h.field p hp
  · intro p hp
    rw [hspaces, hspace, hgone]
    exact h.space_iff p hp
  · intro p hp
    rw [htables, hfilesGone]
    exact h.table_iff p hp
  · intro p hp h0 d hd
    rw [hspace] at h0
    rw [hprocess] at hd
    exact hleaving d (h.cleared p hp h0 d hd)

lemma leaving_update {pc : LifePc} (hpc : s'.pc = Function.update s.pc cur pc) (hdestroyed : s'.destroyed = s.destroyed)
    (hcur : ∀ d, s.pc cur ≠ .destroy d) (d : Nat) (h : Leaving s d) : Leaving s' d := by
  rcases h with hd | ⟨u, hu⟩
  · left
    rwa [hdestroyed]
  · right
    have hne : u ≠ cur := by
      rintro rfl
      exact hcur d hu
    exact ⟨u, by rwa [hpc, Function.update_of_ne hne]⟩

lemma LogInv.goOn (h : LogInv real space table s) {pc : LifePc} (hpc : s'.pc = Function.update s.pc cur pc)
    (hfiles : ∀ p, (s'.proc p).files = (s.proc p).files)
    (hspace : ∀ p, (s'.proc p).addressSpace = (s.proc p).addressSpace) (hspaces : s'.spaces = s.spaces)
    (htables : s'.tables = s.tables) (hfreed : s'.freed = s.freed) (hdestroyed : s'.destroyed = s.destroyed)
    (hprocess : ∀ t, (s'.smp.task t).process = (s.smp.task t).process) (hundone : undone pc = undone (s.pc cur))
    (hcur : ∀ dead, s.pc cur ≠ .destroy dead) : LogInv real space table s' := by
  have hsame : ∀ t, undone (s'.pc t) = undone (s.pc t) := by
    intro t
    rw [hpc]
    rcases eq_or_ne t cur with rfl | ht
    · rw [Function.update_self, hundone]
    · rw [Function.update_of_ne ht]
  refine h.step hfiles hspace hspaces htables hprocess ?_ ?_ (leaving_update hpc hdestroyed hcur) <;> intro p
  · simp only [SpaceGone, Did, hsame, hprocess, hfreed]
  · simp only [FilesGone, Did, hsame, hfreed]

lemma LogInv.calm (h : LogInv real space table s) (hpc : s'.pc = s.pc) (hproc : s'.proc = s.proc)
    (hspaces : s'.spaces = s.spaces) (htables : s'.tables = s.tables) (hfreed : s'.freed = s.freed)
    (hdestroyed : s'.destroyed = s.destroyed) (hprocess : ∀ t, (s'.smp.task t).process = (s.smp.task t).process) :
    LogInv real space table s' := by
  refine h.step ?_ ?_ hspaces htables hprocess ?_ ?_ ?_ <;> intro p
  · rw [hproc]
  · rw [hproc]
  · simp only [SpaceGone, Did, hpc, hprocess, hfreed]
  · simp only [FilesGone, Did, hpc, hfreed]
  · simp only [Leaving, hpc, hdestroyed]
    exact id

lemma LogInv.addSpace (h : LogInv real space table s) (hinj : ∀ p q, real p → real q → space p = space q → p = q)
    (hq : real q) (hspaces : s'.spaces = space q :: s.spaces) (hnew : space q ∉ s.spaces)
    (hgone : ∀ p, SpaceGone s' p ↔ SpaceGone s p ∨ p = q) (hfilesGone : ∀ p, FilesGone s' p ↔ FilesGone s p)
    (hproc : s'.proc = s.proc) (htables : s'.tables = s.tables)
    (hprocess : ∀ t, (s'.smp.task t).process = (s.smp.task t).process)
    (hleaving : ∀ d, Leaving s d → Leaving s' d) : LogInv real space table s' := by
  refine ⟨?_, ?_, ?_, ?_, ?_, ?_, ?_, ?_, ?_⟩
  · rw [hproc]
    exact h.files
  · rw [hspaces]
    exact List.nodup_cons.mpr ⟨hnew, h.spaces⟩
  · rw [htables]
    exact h.tables
  · intro x hx
    rw [hspaces] at hx
    rcases List.mem_cons.mp hx with rfl | hx
    · exact ⟨q, hq, rfl⟩
    · exact h.space_of x hx
  · rw [htables]
    exact h.table_of
  · rw [hproc]
    exact h.field
  · intro p hp
    rw [hspaces, hproc, hgone, List.mem_cons, h.space_iff p hp]
    constructor
    · rintro (heq | hor)
      · exact .inr (.inr (hinj p q hp hq heq))
      · exact hor.imp_right .inl
    · rintro (h0 | hor | rfl)
      · exact .inr (.inl h0)
      · exact .inr (.inr hor)
      · exact .inl rfl
  · intro p hp
    rw [htables, hfilesGone]
    exact h.table_iff p hp
  · intro p hp h0 d hd
    rw [hproc] at h0
    rw [hprocess] at hd
    exact hleaving d (h.cleared p hp h0 d hd)

lemma LogInv.addTable (h : LogInv real space table s) (hinj : ∀ p q, real p → real q → table p = table q → p = q)
    (hq : real q) (htables : s'.tables = table q :: s.tables) (hnew : table q ∉ s.tables)
    (hgone : ∀ p, SpaceGone s' p ↔ SpaceGone s p) (hfilesGone : ∀ p, FilesGone s' p ↔ FilesGone s p ∨ p = q)
    (hproc : s'.proc = s.proc) (hspaces : s'.spaces = s.spaces)
    (hprocess : ∀ t, (s'.smp.task t).process = (s.smp.task t).process)
    (hleaving : ∀ d, Leaving s d → Leaving s' d) : LogInv real space table s' := by
  refine ⟨?_, ?_, ?_, ?_, ?_, ?_, ?_, ?_, ?_⟩
  · rw [hproc]
    exact h.files
  · rw [hspaces]
    exact h.spaces
  · rw [htables]
    exact List.nodup_cons.mpr ⟨hnew, h.tables⟩
  · rw [hspaces]
    exact h.space_of
  · intro x hx
    rw [htables] at hx
    rcases List.mem_cons.mp hx with rfl | hx
    · exact ⟨q, hq, rfl⟩
    · exact h.table_of x hx
  · rw [hproc]
    exact h.field
  · intro p hp
    rw [hspaces, hproc, hgone]
    exact h.space_iff p hp
  · intro p hp
    rw [htables, hfilesGone, List.mem_cons, h.table_iff p hp]
    constructor
    · rintro (heq | hor)
      · exact .inr (hinj p q hp hq heq)
      · exact .inl hor
    · rintro (hor | rfl)
      · exact .inr hor
      · exact .inl rfl
  · intro p hp h0 d hd
    rw [hproc] at h0
    rw [hprocess] at hd
    exact hleaving d (h.cleared p hp h0 d hd)

lemma undone_cases {pc : LifePc} {x : Undone} (h : undone pc = some x) :
    (∃ dead, x = .spaceOf dead ∧ pc = .clearSpace dead) ∨ (∃ child, x = .space child ∧ pc = .dropFiles child) ∨
      ∃ child, x = .files child ∧ pc = .free child := by
  cases pc <;> cases h
  case clearSpace dead => exact .inl ⟨dead, rfl, rfl⟩
  case dropFiles child => exact .inr (.inl ⟨child, rfl, rfl⟩)
  case free child => exact .inr (.inr ⟨child, rfl, rfl⟩)

section Steps

variable (hlog : LogInv real space table s) (hclean : CleanupInv cpus s) (hfam : FamilyInv real s)
include hclean hfam

lemma undone_unique {t u : Nat} {x : Undone} (ht : undone (s.pc t) = some x) (hu : undone (s.pc u) = some x) :
    t = u := by
  rcases undone_cases ht with ⟨d, rfl, hpc⟩ | ⟨child, rfl, hpc⟩ | ⟨child, rfl, hpc⟩ <;>
    rcases undone_cases hu with ⟨d', hx, hpc'⟩ | ⟨child', hx, hpc'⟩ | ⟨child', hx, hpc'⟩ <;> cases hx
  · exact hclean.unique t u d true true (by rw [hpc]; rfl) (by rw [hpc']; rfl)
  · exact hfam.reaper t u child (by rw [hpc]; rfl) (by rw [hpc']; rfl)
  · exact hfam.reaper t u child (by rw [hpc]; rfl) (by rw [hpc']; rfl)

lemma did_update {pc : LifePc} (hpc : s'.pc = Function.update s.pc cur pc) (x : Undone) :
    Did s' x ↔ (Did s x ∧ undone (s.pc cur) ≠ some x) ∨ undone pc = some x := by
  have hself : s'.pc cur = pc := by rw [hpc, Function.update_self]
  have hother : ∀ t, t ≠ cur → s'.pc t = s.pc t := by
    intro t ht
    rw [hpc, Function.update_of_ne ht]
  constructor
  · rintro ⟨u, hu⟩
    rcases eq_or_ne u cur with rfl | hne
    · rw [hself] at hu
      exact .inr hu
    · rw [hother u hne] at hu
      exact .inl ⟨⟨u, hu⟩, fun hcur => hne (undone_unique hclean hfam hu hcur)⟩
  · rintro (⟨⟨u, hu⟩, hcur⟩ | hnew)
    · have hne : u ≠ cur := by
        rintro rfl
        exact hcur hu
      exact ⟨u, by rwa [hother u hne]⟩
    · exact ⟨cur, by rwa [hself]⟩

lemma not_spaceGone_of_reaping {child : Nat} (hreaping : reaping (s.pc cur) = some child)
    (hundone : undone (s.pc cur) = none) : ¬SpaceGone s child := by
  obtain ⟨hfinished, -, hnotfreed⟩ := hfam.reaping cur child hreaping
  rintro (⟨d, ⟨u, hu⟩, hproc⟩ | ⟨u, hu⟩ | ⟨u, hu⟩ | hfreed)
  · rcases undone_cases hu with ⟨d', hx, hpc⟩ | ⟨_, hx, -⟩ | ⟨_, hx, -⟩ <;> cases hx
    exact (hclean.taken u d (by rw [hpc]; rfl)).2 (hfinished.tasks d hproc)
  · rcases undone_cases hu with ⟨_, hx, -⟩ | ⟨child', hx, hpc⟩ | ⟨_, hx, -⟩ <;> cases hx
    obtain rfl := hfam.reaper u cur child (by rw [hpc]; rfl) hreaping
    rw [hundone] at hu
    cases hu
  · rcases undone_cases hu with ⟨_, hx, -⟩ | ⟨_, hx, -⟩ | ⟨child', hx, hpc⟩ <;> cases hx
    obtain rfl := hfam.reaper u cur child (by rw [hpc]; rfl) hreaping
    rw [hundone] at hu
    cases hu
  · exact hnotfreed hfreed

/-- Nobody has destroyed the address space of the process whose last thread is in the hands of the
current task. -/
lemma not_spaceGone_of_dead (hpc : s.pc cur = .destroySpace dead) : ¬SpaceGone s (s.smp.task dead).process := by
  have hheld : held (s.pc cur) = some (dead, true) := by rw [hpc]; rfl
  have hne := hfam.dying cur dead (by rw [hpc]; rfl)
  have hnew := (hclean.taken cur dead hheld).2
  rintro (⟨d, ⟨u, hu⟩, hproc⟩ | ⟨u, hu⟩ | ⟨u, hu⟩ | hfreed)
  · rcases undone_cases hu with ⟨d', hx, hpc'⟩ | ⟨_, hx, -⟩ | ⟨_, hx, -⟩ <;> cases hx
    obtain rfl := hfam.single dead d hproc.symm hne
    obtain rfl := hclean.unique u cur dead true true (by rw [hpc']; rfl) hheld
    rw [hpc'] at hpc
    cases hpc
  · rcases undone_cases hu with ⟨_, hx, -⟩ | ⟨child', hx, hpc'⟩ | ⟨_, hx, -⟩ <;> cases hx
    exact hnew ((hfam.reaping u _ (by rw [hpc']; rfl)).1.tasks dead rfl)
  · rcases undone_cases hu with ⟨_, hx, -⟩ | ⟨_, hx, -⟩ | ⟨child', hx, hpc'⟩ <;> cases hx
    exact hnew ((hfam.reaping u _ (by rw [hpc']; rfl)).1.tasks dead rfl)
  · exact hnew ((hfam.freed _ hfreed).1.tasks dead rfl)

variable (hinj : ∀ p q, real p → real q → space p = space q → p = q)
  (hinj' : ∀ p q, real p → real q → table p = table q → p = q) (hpos : ∀ p, real p → space p ≠ 0 ∧ table p ≠ 0)

include hlog

include hinj in
lemma LogInv.destroySpace (hpc : s.pc cur = .destroySpace dead) (hq : q = (s.smp.task dead).process) :
    LogInv real space table ({ s with spaces := (s.proc q).addressSpace :: s.spaces }.setPc cur
      (.clearSpace dead)) := by
  set s' := { s with spaces := (s.proc q).addressSpace :: s.spaces }.setPc cur (.clearSpace dead) with hs'
  have hheld : held (s.pc cur) = some (dead, true) := by rw [hpc]; rfl
  have hreal : real q := by
    rw [hq]
    exact hfam.owner dead (hfam.dying cur dead (by rw [hpc]; rfl))
  have hgone : ¬SpaceGone s q := by
    rw [hq]
    exact not_spaceGone_of_dead hclean hfam hpc
  have hthere : (s.proc q).addressSpace ≠ 0 := by
    intro h0
    rcases hlog.cleared q hreal h0 dead hq.symm with hd | ⟨u, hu⟩
    · exact (hclean.taken cur dead hheld).2 hd
    · obtain rfl := hclean.unique u cur dead true true (by rw [hu]; rfl) hheld
      rw [hpc] at hu
      cases hu
  have hfield := (hlog.field q hreal).resolve_left hthere
  have hdid : ∀ x, Did s' x ↔ Did s x ∨ x = .spaceOf dead := by
    intro x
    rw [did_update hclean hfam (show s'.pc = Function.update s.pc cur (.clearSpace dead) from rfl), hpc]
    simp [undone, eq_comm]
  refine hlog.addSpace hinj hreal (congrArg (· :: s.spaces) hfield) ?_ ?_ ?_ rfl rfl (fun _ => rfl)
    (leaving_update rfl rfl (by rw [hpc]; simp))
  · rw [hlog.space_iff q hreal]
    exact fun hor => hor.elim hthere hgone
  · intro p
    simp only [SpaceGone, hdid]
    constructor
    · rintro (⟨d, hd | heq, hproc⟩ | (hd | heq) | (hd | heq) | hf)
      · exact .inl (.inl ⟨d, hd, hproc⟩)
      · obtain rfl := Undone.spaceOf.inj heq
        exact .inr (hproc.symm.trans hq.symm)
      · exact .inl (.inr (.inl hd))
      · cases heq
      · exact .inl (.inr (.inr (.inl hd)))
      · cases heq
      · exact .inl (.inr (.inr (.inr hf)))
    · rintro ((⟨d, hd, hproc⟩ | hd | hd | hf) | rfl)
      · exact .inl ⟨d, .inl hd, hproc⟩
      · exact .inr (.inl (.inl hd))
      · exact .inr (.inr (.inl (.inl hd)))
      · exact .inr (.inr (.inr hf))
      · exact .inl ⟨dead, .inr rfl, hq.symm⟩
  · intro p
    simp only [FilesGone, hdid, reduceCtorEq, or_false]
    exact Iff.rfl

omit hlog hclean hfam in
lemma spaceGone_of_did {child : Nat} (hdid : ∀ x, Did s' x ↔ Did s x ∨ x = .space child)
    (hprocess : ∀ t, (s'.smp.task t).process = (s.smp.task t).process) (hfreed : s'.freed = s.freed) (p : Nat) :
    SpaceGone s' p ↔ SpaceGone s p ∨ p = child := by
  simp only [SpaceGone, hdid, hprocess, hfreed, reduceCtorEq, or_false, Undone.space.injEq]
  simp only [or_assoc, or_comm, or_left_comm]

include hinj in
lemma LogInv.dropSpace {child : Nat} (hpc : s.pc cur = .dropSpace child) (has : (s.proc child).addressSpace ≠ 0) :
    LogInv real space table
      ({ s with spaces := (s.proc child).addressSpace :: s.spaces }.setPc cur (.dropFiles child)) := by
  set s' := { s with spaces := (s.proc child).addressSpace :: s.spaces }.setPc cur (.dropFiles child) with hs'
  have hreaping : reaping (s.pc cur) = some child := by rw [hpc]; rfl
  have hreal := (hfam.reaping cur child hreaping).2.1
  have hgone : ¬SpaceGone s child := not_spaceGone_of_reaping hclean hfam hreaping (by rw [hpc]; rfl)
  have hfield := (hlog.field child hreal).resolve_left has
  have hdid : ∀ x, Did s' x ↔ Did s x ∨ x = .space child := by
    intro x
    rw [did_update hclean hfam (show s'.pc = Function.update s.pc cur (.dropFiles child) from rfl), hpc]
    simp [undone, eq_comm]
  refine hlog.addSpace hinj hreal (congrArg (· :: s.spaces) hfield) ?_
    (spaceGone_of_did hdid (fun _ => rfl) rfl) ?_ rfl rfl (fun _ => rfl)
    (leaving_update rfl rfl (by rw [hpc]; simp))
  · rw [hlog.space_iff child hreal]
    exact fun hor => hor.elim has hgone
  · intro p
    simp only [FilesGone, hdid, reduceCtorEq, or_false]
    exact Iff.rfl

lemma LogInv.noSpace {child : Nat} (hpc : s.pc cur = .dropSpace child) (has : (s.proc child).addressSpace = 0) :
    LogInv real space table (s.setPc cur (.dropFiles child)) := by
  have hdid : ∀ x, Did (s.setPc cur (.dropFiles child)) x ↔ Did s x ∨ x = .space child := by
    intro x
    rw [did_update hclean hfam (show (s.setPc cur (.dropFiles child)).pc = Function.update s.pc cur _ from rfl), hpc]
    simp [undone, eq_comm]
  have hgone := spaceGone_of_did hdid (fun _ => rfl) rfl
  refine { hlog with space_iff := ?_, table_iff := ?_, cleared := ?_ }
  · intro p hp
    rw [hgone]
    show space p ∈ s.spaces ↔ (s.proc p).addressSpace = 0 ∨ _
    rw [hlog.space_iff p hp]
    constructor
    · exact fun hor => hor.imp_right .inl
    · rintro (h0 | hor | rfl)
      · exact .inl h0
      · exact .inr hor
      · exact .inl has
  · intro p hp
    simp only [FilesGone, hdid, reduceCtorEq, or_false]
    exact hlog.table_iff p hp
  · intro p hp h0 d hd
    have hleaving : ∀ d, Leaving s d → Leaving (s.setPc cur (.dropFiles child)) d :=
      leaving_update rfl rfl (by rw [hpc]; simp)
    exact hleaving d (hlog.cleared p hp h0 d hd)

lemma LogInv.clearSpace (hpc : s.pc cur = .clearSpace dead) (hq : q = (s.smp.task dead).process) :
    LogInv real space table ((s.setProc q { s.proc q with addressSpace := 0 }).setPc cur (.destroy dead)) := by
  set s' := (s.setProc q { s.proc q with addressSpace := 0 }).setPc cur (.destroy dead) with hs'
  have hreal : real q := by
    rw [hq]
    exact hfam.owner dead (hfam.dying cur dead (by rw [hpc]; rfl))
  have hself : s'.proc q = { s.proc q with addressSpace := 0 } := Function.update_self ..
  have hother : ∀ r, r ≠ q → s'.proc r = s.proc r := fun r hr => Function.update_of_ne hr ..
  have hdid : ∀ x, Did s' x ↔ Did s x ∧ x ≠ .spaceOf dead := by
    intro x
    rw [did_update hclean hfam (show s'.pc = Function.update s.pc cur (.destroy dead) from rfl), hpc]
    simp [undone, eq_comm]
  have hin : space q ∈ s.spaces :=
    (hlog.space_iff q hreal).mpr (.inr (.inl ⟨dead, ⟨cur, by rw [hpc]; rfl⟩, hq.symm⟩))
  have hgone : ∀ p, p ≠ q → (SpaceGone s' p ↔ SpaceGone s p) := by
    intro p hp
    simp only [SpaceGone, hdid]
    constructor
    · rintro (⟨d, hd, hproc⟩ | hd | hd | hf)
      · exact .inl ⟨d, hd.1, hproc⟩
      · exact .inr (.inl hd.1)
      · exact .inr (.inr (.inl hd.1))
      · exact .inr (.inr (.inr hf))
    · rintro (⟨d, hd, hproc⟩ | hd | hd | hf)
      · refine .inl ⟨d, ⟨hd, ?_⟩, hproc⟩
        rintro heq
        obtain rfl := Undone.spaceOf.inj heq
        exact hp (hproc.symm.trans hq.symm)
      · exact .inr (.inl ⟨hd, by simp⟩)
      · exact .inr (.inr (.inl ⟨hd, by simp⟩))
      · exact .inr (.inr (.inr hf))
  refine ⟨?_, hlog.spaces, hlog.tables, hlog.space_of, hlog.table_of, ?_, ?_, ?_, ?_⟩
  · intro p
    rcases eq_or_ne p q with rfl | hp
    · rw [hself]
      exact hlog.files p
    · rw [hother p hp]
      exact hlog.files p
  · intro p hp
    rcases eq_or_ne p q with rfl | hpq
    · rw [hself]
      exact .inl rfl
    · rw [hother p hpq]
      exact hlog.field p hp
  · intro p hp
    rcases eq_or_ne p q with rfl | hpq
    · rw [hself]
      exact ⟨fun _ => .inl rfl, fun _ => hin⟩
    · rw [hother p hpq, hgone p hpq]
      exact hlog.space_iff p hp
  · intro p hp
    simp only [FilesGone, hdid]
    rw [show s'.tables = s.tables from rfl, hlog.table_iff p hp]
    simp only [FilesGone, ne_eq, reduceCtorEq, not_false_eq_true, and_true]
    exact Iff.rfl
  · intro p hp h0 d hd
    rcases eq_or_ne p q with rfl | hpq
    · have hne : (s.smp.task d).process ≠ 0 := by
        rw [show (s.smp.task d).process = p from hd]
        exact hfam.ne_zero p hreal
      rw [hfam.single d dead (hd.trans hq) hne]
      exact .inr ⟨cur, Function.update_self ..⟩
    · have hleaving : ∀ d, Leaving s d → Leaving s' d := leaving_update rfl rfl (by rw [hpc]; simp)
      rw [hother p hpq] at h0
      exact hleaving d (hlog.cleared p hp h0 d hd)

include hinj' in
lemma LogInv.dropFiles {child : Nat} (hpc : s.pc cur = .dropFiles child) :
    LogInv real space table ({ s with tables := (s.proc child).files :: s.tables }.setPc cur (.free child)) := by
  set s' := { s with tables := (s.proc child).files :: s.tables }.setPc cur (.free child) with hs'
  have hreaping : reaping (s.pc cur) = some child := by rw [hpc]; rfl
  obtain ⟨-, hreal, hnotfreed⟩ := hfam.reaping cur child hreaping
  have hdid : ∀ x, Did s' x ↔ (Did s x ∧ x ≠ .space child) ∨ x = .files child := by
    intro x
    rw [did_update hclean hfam (show s'.pc = Function.update s.pc cur (.free child) from rfl), hpc]
    simp [undone, eq_comm]
  have hhere : Did s (.space child) := ⟨cur, by rw [hpc]; rfl⟩
  have hnew : ¬FilesGone s child := by
    rintro (⟨u, hu⟩ | hf)
    · rcases undone_cases hu with ⟨_, hx, -⟩ | ⟨_, hx, -⟩ | ⟨child', hx, hpc'⟩ <;> cases hx
      obtain rfl := hfam.reaper u cur child (by rw [hpc']; rfl) hreaping
      rw [hpc'] at hpc
      cases hpc
    · exact hnotfreed hf
  refine hlog.addTable hinj' hreal (congrArg (· :: s.tables) (hlog.files child)) ?_ ?_ ?_ rfl rfl (fun _ => rfl)
    (leaving_update rfl rfl (by rw [hpc]; simp))
  · rwa [hlog.table_iff child hreal]
  · intro p
    simp only [SpaceGone, hdid, ne_eq, reduceCtorEq, not_false_eq_true, and_true, or_false, Undone.space.injEq,
      Undone.files.injEq]
    by_cases hp : p = child
    · subst hp
      simp [hhere]
    · simp [hp, hs', Life.setPc]
  · intro p
    simp only [FilesGone, hdid, ne_eq, reduceCtorEq, not_false_eq_true, and_true, Undone.files.injEq]
    rw [or_right_comm]
    exact Iff.rfl

lemma LogInv.free {child : Nat} (hpc : s.pc cur = .free child) :
    LogInv real space table ({ s with freed := child :: s.freed }.setPc cur .user) := by
  set s' := { s with freed := child :: s.freed }.setPc cur .user with hs'
  have hdid : ∀ x, Did s' x ↔ Did s x ∧ x ≠ .files child := by
    intro x
    rw [did_update hclean hfam (show s'.pc = Function.update s.pc cur .user from rfl), hpc]
    simp [undone, eq_comm]
  have hhere : Did s (.files child) := ⟨cur, by rw [hpc]; rfl⟩
  have hfreed : ∀ p, p ∈ s'.freed ↔ p = child ∨ p ∈ s.freed := fun p => List.mem_cons
  refine hlog.step (fun _ => rfl) (fun _ => rfl) rfl rfl (fun _ => rfl) ?_ ?_
    (leaving_update rfl rfl (by rw [hpc]; simp)) <;> intro p <;> by_cases hp : p = child
  · subst hp
    simp [SpaceGone, hdid, hfreed, hhere]
  · simp only [SpaceGone, hdid, hfreed, ne_eq, reduceCtorEq, not_false_eq_true, and_true, Undone.files.injEq, hp,
      false_or]
    exact Iff.rfl
  · subst hp
    simp [FilesGone, hdid, hfreed, hhere]
  · simp [FilesGone, hdid, hfreed, hp]

lemma LogInv.destroy (hpc : s.pc cur = .destroy dead) :
    LogInv real space table ({ s with destroyed := dead :: s.destroyed }.setPc cur .find) := by
  set s' := { s with destroyed := dead :: s.destroyed }.setPc cur .find with hs'
  have hdid : ∀ x, Did s' x ↔ Did s x := by
    intro x
    rw [did_update hclean hfam (show s'.pc = Function.update s.pc cur .find from rfl), hpc]
    simp [undone]
  refine hlog.step (fun _ => rfl) (fun _ => rfl) rfl rfl (fun _ => rfl) ?_ ?_ ?_
  · intro p
    simp only [SpaceGone, hdid]
    exact Iff.rfl
  · intro p
    simp only [FilesGone, hdid]
    exact Iff.rfl
  · rintro d (hd | ⟨u, hu⟩)
    · exact .inl (List.mem_cons_of_mem dead hd)
    · rcases eq_or_ne u cur with rfl | hne
      · rw [hpc] at hu
        obtain rfl := LifePc.destroy.inj hu
        exact .inl List.mem_cons_self
      · exact .inr ⟨u, (Function.update_of_ne hne ..).trans hu⟩

include hinj hinj' hpos in
lemma LogInv.next (hnext : LifeNext s c cur p s') : LogInv real space table s' := by
  have hu : ∀ {pc pc' : LifePc}, s.pc cur = pc → undone pc' = undone pc → undone pc' = undone (s.pc cur) :=
    fun hpc heq => by rw [hpc, heq]
  have hd : ∀ {pc : LifePc}, s.pc cur = pc → (∀ dead, pc ≠ .destroy dead) → ∀ dead, s.pc cur ≠ .destroy dead :=
    fun hpc hne dead => by rw [hpc]; exact hne dead
  have hfields : ∀ {r : Nat} {proc : Process}, proc.files = (s.proc r).files → ∀ p,
      (Function.update s.proc r proc p).files = (s.proc p).files := by
    intro r proc heq p
    rcases eq_or_ne p r with rfl | hp
    · rw [Function.update_self, heq]
    · rw [Function.update_of_ne hp]
  have hspaces : ∀ {r : Nat} {proc : Process}, proc.addressSpace = (s.proc r).addressSpace → ∀ p,
      (Function.update s.proc r proc p).addressSpace = (s.proc p).addressSpace := by
    intro r proc heq p
    rcases eq_or_ne p r with rfl | hp
    · rw [Function.update_self, heq]
    · rw [Function.update_of_ne hp]
  cases hnext
  case exit hpc _ status =>
    exact hlog.goOn rfl (hfields rfl) (hspaces rfl) rfl rfl rfl rfl (fun _ => rfl) (hu hpc rfl) (hd hpc (by simp))
  case zombie hpc hz copied =>
    refine hlog.goOn rfl (hfields rfl) (hspaces rfl) rfl rfl rfl rfl (fun _ => rfl) ?_ (hd hpc (by simp))
    rw [hpc]
    cases copied <;> rfl
  case enqueue hpc =>
    exact hlog.goOn rfl (fun _ => rfl) (fun _ => rfl) rfl rfl rfl rfl (fun _ => Smp.setWaitingOn_process ..)
      (hu hpc rfl)
      (hd hpc (by simp))
  case block hpc hst hwait =>
    exact hlog.goOn rfl (fun _ => rfl) (fun _ => rfl) rfl rfl rfl rfl (fun _ => Smp.setState_process ..) (hu hpc rfl)
      (hd hpc (by simp))
  case setDead hpc =>
    exact hlog.goOn rfl (fun _ => rfl) (fun _ => rfl) rfl rfl rfl rfl (fun _ => Smp.setState_process ..) (hu hpc rfl)
      (hd hpc (by simp))
  case wake hpc smp hparent hw =>
    exact hlog.goOn rfl (fun _ => rfl) (fun _ => rfl) rfl rfl rfl rfl hw.process (hu hpc rfl) (hd hpc (by simp))
  case leave pc hpc smp hput =>
    have hprocess := (calm_putBackPrev hput).1.process
    rcases hpc with ⟨hpc, rfl⟩ | ⟨hpc, rfl⟩ | ⟨hpc, rfl⟩ <;>
    exact hlog.goOn rfl (fun _ => rfl) (fun _ => rfl) rfl rfl rfl rfl hprocess (hu hpc rfl) (hd hpc (by simp))
  case timer hpc smp hput => exact hlog.calm rfl rfl rfl rfl rfl rfl (calm_putBackPrev hput).1.process
  case dropSpace child hpc has => exact hlog.dropSpace hclean hfam hinj hpc has
  case noSpace child hpc has => exact hlog.noSpace hclean hfam hpc has
  case dropFiles child hpc hfiles => exact hlog.dropFiles hclean hfam hinj' hpc
  case noFiles child hpc hfiles =>
    rw [hlog.files] at hfiles
    exact absurd hfiles (hpos child (hfam.reaping cur child (by rw [hpc]; rfl)).2.1).2
  case free child hpc => exact hlog.free hclean hfam hpc
  case remove dead hpc =>
    refine hlog.goOn rfl (fun _ => rfl) (fun _ => rfl) rfl rfl rfl rfl (fun _ => rfl) ?_ (hd hpc (by simp))
    rw [hpc]
    split <;> rfl
  case removeThread dead q hpc hq =>
    exact hlog.goOn rfl (hfields rfl) (hspaces rfl) rfl rfl rfl rfl (fun _ => rfl) (hu hpc rfl) (hd hpc (by simp))
  case destroySpace dead q hpc hq => exact hlog.destroySpace hclean hfam hinj hpc hq
  case clearSpace dead q hpc hq => exact hlog.clearSpace hclean hfam hpc hq
  case destroy dead hpc => exact hlog.destroy hclean hfam hpc
  all_goals
    rename s.pc cur = _ => hpc
    exact hlog.goOn rfl (fun _ => rfl) (fun _ => rfl) rfl rfl rfl rfl (fun _ => rfl) (hu hpc rfl) (hd hpc (by simp))

end Steps

end KaworuOS.Proofs
