import KaworuOS.Proofs.CleanupRun
import KaworuOS.Proofs.LifeSched

/-!
# The family of a process that is taken apart

A parent that finds a zombie destroys it, whether or not the cleanup tasks have finished with the
threads of the zombie. `FamilyInv` holds when every parent takes only zombies that nobody else will
touch.
-/

namespace KaworuOS.Proofs
open Lib

/-- The process that a parent is destroying. -/
def reaping : LifePc → Option Nat
  | .reap child | .dropSpace child | .dropFiles child | .free child => some child
  | _ => none

/-- The children that a scan has still to look at. -/
def scanning : LifePc → List Nat
  | .scan rest _ => rest
  | _ => []

/-- The dead task whose thread has been removed from its process. -/
def unthreaded : LifePc → Option Nat
  | .lastThread dead | .destroySpace dead | .clearSpace dead | .destroy dead => some dead
  | _ => none

/-- The dead task whose process a cleanup task is about to use. -/
def processUser : LifePc → Option Nat
  | .removeThread dead | .lastThread dead | .destroySpace dead | .clearSpace dead => some dead
  | _ => none

/-- A parent takes a zombie only when the cleanup tasks have finished with its threads, and when the
zombie has no children. -/
def LifeOp.TakesFinished (s : Life) : LifeOp → Prop
  | .go c _ => ∀ child rest seen, s.pc (s.smp.current c) = .scan (child :: rest) seen →
      (s.proc child).state = .ZOMBIE → (s.proc child).threads = [] ∧ (s.proc child).children = [] ∧
        ∀ t dead b, held (s.pc t) = some (dead, b) → (s.smp.task dead).process ≠ child
  | _ => True

/-- Nobody will use the process again, except to free it. -/
structure Finished (real : Nat → Prop) (s : Life) (p : Nat) : Prop where
  zombie : (s.proc p).state = .ZOMBIE
  threads : (s.proc p).threads = []
  tasks : ∀ t, (s.smp.task t).process = p → t ∈ s.destroyed
  children : ∀ q, real q → (s.proc q).parent = p → ∀ t, (s.smp.task t).process = q → t ∈ s.destroyed

/-- Parents, children and threads agree. `real` are the processes that were created. -/
structure FamilyInv (real : Nat → Prop) (s : Life) : Prop where
  ne_zero : ∀ p, real p → p ≠ 0
  single : ∀ t u, (s.smp.task t).process = (s.smp.task u).process → (s.smp.task t).process ≠ 0 → t = u
  owner : ∀ t, (s.smp.task t).process ≠ 0 → real (s.smp.task t).process
  tree : ∀ p, ∀ q ∈ (s.proc p).children, real q ∧ (s.proc q).parent = p
  nodup : ∀ p, (s.proc p).children.Nodup
  scan : ∀ t, ∀ q ∈ scanning (s.pc t), q ∈ (s.proc (s.smp.task t).process).children
  threads : ∀ t, (s.smp.task t).process ≠ 0 →
    t ∈ (s.proc (s.smp.task t).process).threads ∨ (∃ u, unthreaded (s.pc u) = some t) ∨ t ∈ s.destroyed
  dying : ∀ t dead, processUser (s.pc t) = some dead → (s.smp.task dead).process ≠ 0
  listed : ∀ q, real q → (s.proc q).parent ≠ 0 →
    q ∈ (s.proc (s.proc q).parent).children ∨ ∀ t, (s.smp.task t).process = q → t ∈ s.destroyed
  reaping : ∀ t q, reaping (s.pc t) = some q → Finished real s q ∧ real q ∧ q ∉ s.freed
  reaper : ∀ t u q, Proofs.reaping (s.pc t) = some q → Proofs.reaping (s.pc u) = some q → t = u
  freed : ∀ q ∈ s.freed, Finished real s q ∧ real q
  taken : ∀ q, (q ∈ s.freed ∨ ∃ t, Proofs.reaping (s.pc t) = some q) → ∀ p, q ∉ (s.proc p).children

variable {cpus real : Nat → Prop} {s s' : Life} {c cur p q dead : Nat}

/-- What no step undoes. -/
structure Onward (s s' : Life) : Prop where
  process : ∀ t, (s'.smp.task t).process = (s.smp.task t).process
  parent : ∀ q, (s'.proc q).parent = (s.proc q).parent
  zombie : ∀ q, (s.proc q).state = .ZOMBIE → (s'.proc q).state = .ZOMBIE
  threads : ∀ q, (s.proc q).threads = [] → (s'.proc q).threads = []
  destroyed : ∀ t ∈ s.destroyed, t ∈ s'.destroyed

lemma Finished.onward (h : Finished real s p) (ho : Onward s s') : Finished real s' p := by
  refine ⟨ho.zombie p h.zombie, ho.threads p h.threads, ?_, ?_⟩
  · intro t ht
    rw [ho.process] at ht
    exact ho.destroyed t (h.tasks t ht)
  · intro q hq hparent t ht
    rw [ho.parent] at hparent
    rw [ho.process] at ht
    exact ho.destroyed t (h.children q hq hparent t ht)

lemma FamilyInv.step (h : FamilyInv real s) (ho : Onward s s')
    (hchildren : ∀ q, (s'.proc q).children = (s.proc q).children)
    (hthreads : ∀ t, t ∈ (s.proc (s.smp.task t).process).threads → (s.smp.task t).process ≠ 0 →
      t ∈ (s'.proc (s.smp.task t).process).threads ∨ ∃ u, unthreaded (s'.pc u) = some t) (hfreed : s'.freed = s.freed)
    (hscan : ∀ t, ∀ q ∈ scanning (s'.pc t), q ∈ (s.proc (s.smp.task t).process).children)
    (hreaping : ∀ t, Proofs.reaping (s'.pc t) = Proofs.reaping (s.pc t))
    (hunthreaded : ∀ t dead, unthreaded (s.pc t) = some dead → unthreaded (s'.pc t) = some dead ∨ dead ∈ s'.destroyed)
    (hdying : ∀ t dead, processUser (s'.pc t) = some dead → (s.smp.task dead).process ≠ 0) : FamilyInv real s' where
  ne_zero := h.ne_zero
  single t u := by
    rw [ho.process, ho.process]
    exact h.single t u
  owner t := by
    rw [ho.process]
    exact h.owner t
  tree p q hq := by
    rw [hchildren] at hq
    rw [ho.parent]
    exact h.tree p q hq
  nodup p := by
    rw [hchildren]
    exact h.nodup p
  scan t q hq := by
    rw [hchildren, ho.process]
    exact hscan t q hq
  threads t ht := by
    rw [ho.process] at ht ⊢
    rcases h.threads t ht with hin | ⟨u, hu⟩ | hd
    · exact (hthreads t hin ht).imp_right .inl
    · rcases hunthreaded u t hu with hu | hd
      · exact .inr (.inl ⟨u, hu⟩)
      · exact .inr (.inr hd)
    · exact .inr (.inr (ho.destroyed t hd))
  dying t dead hd := by
    rw [ho.process]
    exact hdying t dead hd
  listed q hq hne := by
    rw [ho.parent] at hne ⊢
    rw [hchildren]
    rcases h.listed q hq hne with hin | hall
    · exact .inl hin
    · right
      intro t ht
      rw [ho.process] at ht
      exact ho.destroyed t (hall t ht)
  reaping t q hq := by
    rw [hreaping] at hq
    rw [hfreed]
    obtain ⟨h1, h2, h3⟩ := h.reaping t q hq
    exact ⟨h1.onward ho, h2, h3⟩
  reaper t u q hq hq' := by
    rw [hreaping] at hq hq'
    exact h.reaper t u q hq hq'
  freed q hq := by
    rw [hfreed] at hq
    exact ⟨(h.freed q hq).1.onward ho, (h.freed q hq).2⟩
  taken q hq p := by
    rw [hfreed] at hq
    rw [hchildren]
    simp only [hreaping] at hq
    exact h.taken q hq p

lemma FamilyInv.move (h : FamilyInv real s) {pc : LifePc} (hpc : s'.pc = Function.update s.pc cur pc)
    (ho : Onward s s') (hchildren : ∀ q, (s'.proc q).children = (s.proc q).children)
    (hthreads : ∀ t, t ∈ (s.proc (s.smp.task t).process).threads → (s.smp.task t).process ≠ 0 →
      t ∈ (s'.proc (s.smp.task t).process).threads ∨ unthreaded pc = some t) (hfreed : s'.freed = s.freed)
    (hscan : ∀ q ∈ scanning pc, q ∈ (s.proc (s.smp.task cur).process).children)
    (hreaping : Proofs.reaping pc = Proofs.reaping (s.pc cur))
    (hunthreaded : ∀ dead, unthreaded (s.pc cur) = some dead → unthreaded pc = some dead ∨ dead ∈ s'.destroyed)
    (hdying : ∀ dead, processUser pc = some dead → (s.smp.task dead).process ≠ 0) : FamilyInv real s' := by
  have hself : s'.pc cur = pc := by rw [hpc, Function.update_self]
  have hother : ∀ t, t ≠ cur → s'.pc t = s.pc t := by
    intro t ht
    rw [hpc, Function.update_of_ne ht]
  refine h.step ho hchildren ?_ hfreed ?_ ?_ ?_ ?_
  · intro t hin hne
    rcases hthreads t hin hne with hin' | hu
    · exact .inl hin'
    · exact .inr ⟨cur, by rwa [hself]⟩
  all_goals intro t; rcases eq_or_ne t cur with rfl | ht
  · rwa [hself]
  · rw [hother t ht]
    exact h.scan t
  · rwa [hself]
  · rw [hother t ht]
  · rwa [hself]
  · rw [hother t ht]
    exact fun dead hd => .inl hd
  · rwa [hself]
  · rw [hother t ht]
    exact h.dying t

lemma FamilyInv.goOn (h : FamilyInv real s) {pc : LifePc} (hpc : s'.pc = Function.update s.pc cur pc)
    (hprocess : ∀ t, (s'.smp.task t).process = (s.smp.task t).process) (hproc : s'.proc = s.proc)
    (hfreed : s'.freed = s.freed) (hdestroyed : s'.destroyed = s.destroyed)
    (hscan : ∀ q ∈ scanning pc, q ∈ (s.proc (s.smp.task cur).process).children)
    (hreaping : Proofs.reaping pc = Proofs.reaping (s.pc cur))
    (hunthreaded : ∀ dead, unthreaded (s.pc cur) = some dead → unthreaded pc = some dead)
    (hdying : ∀ dead, processUser pc = some dead → (s.smp.task dead).process ≠ 0) : FamilyInv real s' := by
  refine h.move hpc ⟨hprocess, ?_, ?_, ?_, ?_⟩ ?_ ?_ hfreed hscan hreaping
    (fun dead hd => .inl (hunthreaded dead hd)) hdying
  · rw [hproc]
    exact fun _ => rfl
  · rw [hproc]
    exact fun _ hz => hz
  · rw [hproc]
    exact fun _ ht => ht
  · rw [hdestroyed]
    exact fun _ ht => ht
  · rw [hproc]
    exact fun _ => rfl
  · rw [hproc]
    exact fun _ hin _ => .inl hin

lemma onward_update {proc : Process} (hproc : s'.proc = Function.update s.proc p proc)
    (hprocess : ∀ t, (s'.smp.task t).process = (s.smp.task t).process)
    (hdestroyed : s'.destroyed = s.destroyed) (hparent : proc.parent = (s.proc p).parent)
    (hzombie : (s.proc p).state = .ZOMBIE → proc.state = .ZOMBIE)
    (hthreads : (s.proc p).threads = [] → proc.threads = []) :
    Onward s s' := by
  have hself : s'.proc p = proc := by rw [hproc, Function.update_self]
  have hother : ∀ r, r ≠ p → s'.proc r = s.proc r := by
    intro r hr
    rw [hproc, Function.update_of_ne hr]
  refine ⟨hprocess, ?_, ?_, ?_, ?_⟩
  · intro r
    rcases eq_or_ne r p with rfl | hr
    · rw [hself, hparent]
    · rw [hother r hr]
  · intro r
    rcases eq_or_ne r p with rfl | hr
    · rwa [hself]
    · rw [hother r hr]
      exact id
  · intro r
    rcases eq_or_ne r p with rfl | hr
    · rwa [hself]
    · rw [hother r hr]
      exact id
  · rw [hdestroyed]
    exact fun _ ht => ht

lemma children_update {proc : Process} (hproc : s'.proc = Function.update s.proc p proc)
    (hchildren : proc.children = (s.proc p).children) (r : Nat) : (s'.proc r).children = (s.proc r).children := by
  rcases eq_or_ne r p with rfl | hr
  · rw [hproc, Function.update_self, hchildren]
  · rw [hproc, Function.update_of_ne hr]

lemma threads_update {proc : Process} (hproc : s'.proc = Function.update s.proc p proc)
    (hthreads : proc.threads = (s.proc p).threads) (r : Nat) : (s'.proc r).threads = (s.proc r).threads := by
  rcases eq_or_ne r p with rfl | hr
  · rw [hproc, Function.update_self, hthreads]
  · rw [hproc, Function.update_of_ne hr]

lemma FamilyInv.tasks_destroyed (h : FamilyInv real s) (hq : real q) (hthreads : (s.proc q).threads = [])
    (hhands : ∀ t dead b, held (s.pc t) = some (dead, b) → (s.smp.task dead).process ≠ q) (t : Nat)
    (ht : (s.smp.task t).process = q) : t ∈ s.destroyed := by
  rcases h.threads t (by rw [ht]; exact h.ne_zero q hq) with hin | ⟨u, hu⟩ | hd
  · rw [ht, hthreads] at hin
    cases hin
  · have hheld : held (s.pc u) = some (t, true) := by
      match hpc : s.pc u with
      | .lastThread d | .destroySpace d | .clearSpace d | .destroy d =>
        rw [hpc] at hu
        rw [← Option.some.inj hu]
        rfl
      | .user | .loop | .scan _ _ | .enqueue | .block | .switch | .reap _ | .dropSpace _ | .dropFiles _ |
          .free _ | .wake
      | .exit | .setDead | .yield | .gone | .find | .rest | .remove _ | .removeThread _ =>
        rw [hpc] at hu
        cases hu
    exact absurd ht (hhands u t true hheld)
  · exact hd

lemma FamilyInv.finished (h : FamilyInv real s) (hq : real q) (hz : (s.proc q).state = .ZOMBIE)
    (hthreads : (s.proc q).threads = []) (hchildren : (s.proc q).children = [])
    (hhands : ∀ t dead b, held (s.pc t) = some (dead, b) → (s.smp.task dead).process ≠ q) : Finished real s q := by
  refine ⟨hz, hthreads, h.tasks_destroyed hq hthreads hhands, ?_⟩
  intro r hr hparent
  rcases h.listed r hr (by rw [hparent]; exact h.ne_zero q hq) with hin | hall
  · rw [hparent, hchildren] at hin
    cases hin
  · exact hall

lemma FamilyInv.take (h : FamilyInv real s) {child : Nat} {pc : LifePc} (hp : p = (s.smp.task cur).process)
    (hne : p ≠ 0)
    (hin : child ∈ (s.proc p).children) (hfinished : Finished real s child)
    (hold : Proofs.reaping (s.pc cur) = none) (hold' : unthreaded (s.pc cur) = none)
    (hpc : pc = .reap child ∨ pc = .user) :
    FamilyInv real ((s.setProc p ((s.proc p).removeChild child)).setPc cur pc) := by
  set s' := (s.setProc p ((s.proc p).removeChild child)).setPc cur pc with hs'
  obtain ⟨hreal, hparent⟩ := h.tree p child hin
  have hself : s'.proc p = (s.proc p).removeChild child := Function.update_self ..
  have hother : ∀ r, r ≠ p → s'.proc r = s.proc r := fun r hr => Function.update_of_ne hr ..
  have hpc' : ∀ t, t ≠ cur → s'.pc t = s.pc t := fun t ht => Function.update_of_ne ht ..
  have hcur : s'.pc cur = pc := Function.update_self ..
  have hremoved : (s'.proc p).children = (s.proc p).children.erase child := by
    rw [hself]
    exact if_pos hin
  have ho : Onward s s' := onward_update rfl (fun _ => rfl) rfl rfl (fun hz => hz) (fun ht => ht)
  have hfewer : ∀ r, ∀ x ∈ (s'.proc r).children, x ∈ (s.proc r).children ∧ x ≠ child := by
    intro r x hx
    rcases eq_or_ne r p with rfl | hr
    · rw [hremoved] at hx
      refine ⟨List.mem_of_mem_erase hx, ?_⟩
      rintro rfl
      exact (h.nodup r).not_mem_erase hx
    · rw [hother r hr] at hx
      refine ⟨hx, ?_⟩
      rintro rfl
      exact hr ((h.tree r x hx).2.symm.trans hparent)
  have hkept : ∀ r, ∀ x ∈ (s.proc r).children, x ≠ child → x ∈ (s'.proc r).children := by
    intro r x hx hxc
    rcases eq_or_ne r p with rfl | hr
    · rw [hremoved]
      exact (List.mem_erase_of_ne hxc).mpr hx
    · rwa [hother r hr]
  have hthreads : ∀ r, (s'.proc r).threads = (s.proc r).threads := threads_update rfl rfl
  have hnew : ∀ t x, Proofs.reaping (s'.pc t) = some x → (t = cur ∧ x = child) ∨ Proofs.reaping (s.pc t) = some x := by
    intro t x hx
    rcases eq_or_ne t cur with rfl | ht
    · rw [hcur] at hx
      rcases hpc with rfl | rfl
      · exact .inl ⟨rfl, (Option.some.inj hx).symm⟩
      · cases hx
    · rw [hpc' t ht] at hx
      exact .inr hx
  have hfree : ∀ t, Proofs.reaping (s.pc t) ≠ some child := fun t ht => h.taken child (.inr ⟨t, ht⟩) p hin
  have hnotfreed : child ∉ s.freed := fun hf => h.taken child (.inl hf) p hin
  have hnone : scanning pc = [] ∧ unthreaded pc = none ∧ processUser pc = none := by
    rcases hpc with rfl | rfl <;> exact ⟨rfl, rfl, rfl⟩
  refine ⟨h.ne_zero, h.single, h.owner, ?_, ?_, ?_, ?_, ?_, ?_, ?_, ?_, ?_, ?_⟩
  · intro r x hx
    rw [ho.parent]
    exact h.tree r x (hfewer r x hx).1
  · intro r
    rcases eq_or_ne r p with rfl | hr
    · rw [hremoved]
      exact (h.nodup r).erase child
    · rw [hother r hr]
      exact h.nodup r
  · intro t x hx
    rcases eq_or_ne t cur with rfl | ht
    · rw [hcur, hnone.1] at hx
      cases hx
    · rw [hpc' t ht] at hx
      -- only the task of `p` scans the children of `p`
      have hne' : (s.smp.task t).process ≠ p := by
        intro heq
        exact ht (h.single t cur (heq.trans hp) (by rw [heq]; exact hne))
      change x ∈ (s'.proc (s.smp.task t).process).children
      rw [hother _ hne']
      exact h.scan t x hx
  · intro t ht
    change t ∈ (s'.proc (s.smp.task t).process).threads ∨ _
    rw [hthreads]
    rcases h.threads t ht with hin' | ⟨u, hu⟩ | hd
    · exact .inl hin'
    · refine .inr (.inl ⟨u, ?_⟩)
      have huc : u ≠ cur := by
        rintro rfl
        rw [hold'] at hu
        cases hu
      rwa [hpc' u huc]
    · exact .inr (.inr hd)
  · intro t d hd
    rcases eq_or_ne t cur with rfl | ht
    · rw [hcur, hnone.2.2] at hd
      cases hd
    · rw [hpc' t ht] at hd
      exact h.dying t d hd
  · intro x hx hxp
    rw [ho.parent] at hxp ⊢
    rcases eq_or_ne x child with rfl | hxc
    · exact .inr hfinished.tasks
    · rcases h.listed x hx hxp with hin' | hall
      · exact .inl (hkept _ x hin' hxc)
      · exact .inr hall
  · intro t x hx
    rcases hnew t x hx with ⟨-, rfl⟩ | hx
    · exact ⟨hfinished.onward ho, hreal, hnotfreed⟩
    · obtain ⟨h1, h2, h3⟩ := h.reaping t x hx
      exact ⟨h1.onward ho, h2, h3⟩
  · intro t u x hx hx'
    rcases hnew t x hx with ⟨rfl, rfl⟩ | hold₁
    · rcases hnew u x hx' with ⟨rfl, -⟩ | hold₂
      · rfl
      · exact absurd hold₂ (hfree u)
    · rcases hnew u x hx' with ⟨-, rfl⟩ | hold₂
      · exact absurd hold₁ (hfree t)
      · exact h.reaper t u x hold₁ hold₂
  · intro x hx
    exact ⟨(h.freed x hx).1.onward ho, (h.freed x hx).2⟩
  · intro x hx r hr
    obtain ⟨hr, hxc⟩ := hfewer r x hr
    rcases hx with hx | ⟨t, ht⟩
    · exact h.taken x (.inl hx) r hr
    · rcases hnew t x ht with ⟨-, rfl⟩ | ht
      · exact hxc rfl
      · exact h.taken x (.inr ⟨t, ht⟩) r hr

lemma FamilyInv.free (h : FamilyInv real s) {child : Nat} (hpc : s.pc cur = .free child) :
    FamilyInv real ({ s with freed := child :: s.freed }.setPc cur .user) := by
  set s' := { s with freed := child :: s.freed }.setPc cur .user with hs'
  have hpc' : ∀ t, t ≠ cur → s'.pc t = s.pc t := fun t ht => Function.update_of_ne ht ..
  have hcur : s'.pc cur = .user := Function.update_self ..
  have hhad : Proofs.reaping (s.pc cur) = some child := by rw [hpc]; rfl
  have hreaping : ∀ t x, Proofs.reaping (s'.pc t) = some x → x ≠ child ∧ Proofs.reaping (s.pc t) = some x := by
    intro t x hx
    rcases eq_or_ne t cur with rfl | ht
    · rw [hcur] at hx
      cases hx
    · rw [hpc' t ht] at hx
      refine ⟨?_, hx⟩
      rintro rfl
      exact ht (h.reaper t cur x hx hhad)
  obtain ⟨hfinished, hreal, -⟩ := h.reaping cur child hhad
  have ho : Onward s s' := ⟨fun _ => rfl, fun _ => rfl, fun _ hz => hz, fun _ ht => ht, fun _ ht => ht⟩
  refine { h with scan := ?_, threads := ?_, dying := ?_, reaping := ?_, reaper := ?_, freed := ?_, taken := ?_ }
  · intro t x hx
    rcases eq_or_ne t cur with rfl | ht
    · rw [hcur] at hx
      cases hx
    · rw [hpc' t ht] at hx
      exact h.scan t x hx
  · intro t ht
    rcases h.threads t ht with hin | ⟨u, hu⟩ | hd
    · exact .inl hin
    · refine .inr (.inl ⟨u, ?_⟩)
      have huc : u ≠ cur := by
        rintro rfl
        rw [hpc] at hu
        cases hu
      rwa [hpc' u huc]
    · exact .inr (.inr hd)
  · intro t d hd
    rcases eq_or_ne t cur with rfl | ht
    · rw [hcur] at hd
      cases hd
    · rw [hpc' t ht] at hd
      exact h.dying t d hd
  · intro t x hx
    obtain ⟨hxc, hx⟩ := hreaping t x hx
    obtain ⟨h1, h2, h3⟩ := h.reaping t x hx
    refine ⟨h1.onward ho, h2, ?_⟩
    intro hmem
    rcases List.mem_cons.mp hmem with heq | hmem
    · exact hxc heq
    · exact h3 hmem
  · intro t u x hx hx'
    exact h.reaper t u x (hreaping t x hx).2 (hreaping u x hx').2
  · intro x hx
    rcases List.mem_cons.mp hx with rfl | hx
    · exact ⟨hfinished.onward ho, hreal⟩
    · exact ⟨(h.freed x hx).1.onward ho, (h.freed x hx).2⟩
  · intro x hx
    rcases hx with hx | ⟨t, ht⟩
    · rcases List.mem_cons.mp hx with rfl | hx
      · exact h.taken x (.inr ⟨cur, hhad⟩)
      · exact h.taken x (.inl hx)
    · exact h.taken x (.inr ⟨t, (hreaping t x ht).2⟩)

lemma FamilyInv.next (h : FamilyInv real s) (hp : p = (s.smp.task cur).process)
    (hwaits : Waits (s.pc cur) → p ≠ 0) (hnext : LifeNext s c cur p s')
    (htakes : ∀ child rest seen, s.pc cur = .scan (child :: rest) seen → (s.proc child).state = .ZOMBIE →
      (s.proc child).threads = [] ∧ (s.proc child).children = [] ∧
        ∀ t dead b, held (s.pc t) = some (dead, b) → (s.smp.task dead).process ≠ child) : FamilyInv real s' := by
  have hr : ∀ {pc pc' : LifePc}, s.pc cur = pc → Proofs.reaping pc' = Proofs.reaping pc →
      Proofs.reaping pc' = Proofs.reaping (s.pc cur) := fun hpc heq => by rw [hpc, heq]
  have hu : ∀ {pc pc' : LifePc}, s.pc cur = pc → unthreaded pc = none ∨ unthreaded pc' = unthreaded pc →
      ∀ dead, unthreaded (s.pc cur) = some dead → unthreaded pc' = some dead := by
    intro pc pc' hpc hor dead hd
    rw [hpc] at hd
    rcases hor with hnone | heq
    · rw [hnone] at hd
      cases hd
    · rwa [heq]
  have hsame : ∀ {pc : LifePc} {dead : Nat}, s.pc cur = pc → processUser pc = some dead →
      ∀ d, some dead = some d → (s.smp.task d).process ≠ 0 := by
    rintro pc dead hpc hd d heq
    obtain rfl := Option.some.inj heq
    exact h.dying cur dead (by rw [hpc, hd])
  cases hnext
  case exit hpc hne status =>
    refine h.move rfl (onward_update rfl (fun _ => rfl) rfl rfl (fun _ => rfl) (fun ht => ht))
      (children_update rfl rfl) ?_ rfl (fun q hq => (nomatch hq)) (hr hpc rfl) ?_ (fun _ hd => (nomatch hd))
    · intro t hin _
      have hsame' : ∀ r, (((s.exitProcess p status).setPc cur .wake).proc r).threads = (s.proc r).threads :=
        threads_update rfl rfl
      left
      rwa [hsame']
    · intro d hd
      rw [hpc] at hd
      cases hd
  case loop hpc =>
    subst hp
    exact h.goOn rfl (fun _ => rfl) rfl rfl rfl (fun q hq => hq) (hr hpc rfl) (hu hpc (.inl rfl))
      (fun _ hd => (nomatch hd))
  case zombie child rest seen hpc hz copied =>
    obtain ⟨hthreads, hchildren, hhands⟩ := htakes child rest seen hpc hz
    have hin : child ∈ (s.proc p).children := by
      rw [hp]
      refine h.scan cur child ?_
      rw [hpc]
      exact List.mem_cons_self
    refine h.take hp (hwaits (by rw [hpc]; trivial)) hin
      (h.finished (h.tree p child hin).1 hz hthreads hchildren hhands) (by rw [hpc]; rfl) (by rw [hpc]; rfl) ?_
    cases copied
    · exact .inr rfl
    · exact .inl rfl
  case alive child rest seen hpc hz =>
    refine h.goOn rfl (fun _ => rfl) rfl rfl rfl ?_ (hr hpc rfl) (hu hpc (.inl rfl)) (fun _ hd => (nomatch hd))
    intro q hq
    refine h.scan cur q ?_
    rw [hpc]
    exact List.mem_cons_of_mem child hq
  case enqueue hpc =>
    exact h.goOn rfl (fun _ => Smp.setWaitingOn_process ..) rfl rfl rfl (fun q hq => (nomatch hq)) (hr hpc rfl)
      (hu hpc (.inl rfl)) (fun _ hd => (nomatch hd))
  case block hpc hst hwait =>
    exact h.goOn rfl (fun _ => Smp.setState_process ..) rfl rfl rfl (fun q hq => (nomatch hq)) (hr hpc rfl)
      (hu hpc (.inl rfl)) (fun _ hd => (nomatch hd))
  case free child hpc => exact h.free hpc
  case wake hpc smp hparent hw =>
    exact h.goOn rfl hw.process rfl rfl rfl (fun q hq => (nomatch hq)) (hr hpc rfl) (hu hpc (.inl rfl))
      (fun _ hd => (nomatch hd))
  case setDead hpc =>
    exact h.goOn rfl (fun _ => Smp.setState_process ..) rfl rfl rfl (fun q hq => (nomatch hq)) (hr hpc rfl)
      (hu hpc (.inl rfl)) (fun _ hd => (nomatch hd))
  case leave pc hpc smp hput =>
    have hprocess := (calm_putBackPrev hput).1.process
    rcases hpc with ⟨hpc, rfl⟩ | ⟨hpc, rfl⟩ | ⟨hpc, rfl⟩ <;>
    exact h.goOn rfl hprocess rfl rfl rfl (fun q hq => (nomatch hq)) (hr hpc rfl) (hu hpc (.inl rfl))
      (fun _ hd => (nomatch hd))
  case remove dead hpc =>
    refine h.goOn rfl (fun _ => rfl) rfl rfl rfl ?_ ?_ ?_ ?_
    · intro q hq
      split at hq <;> cases hq
    · rw [hpc]
      split <;> rfl
    · exact hu hpc (.inl rfl)
    · intro d hd
      split at hd
      · cases hd
      · obtain rfl := Option.some.inj hd
        assumption
  case removeThread dead q hpc hq =>
    have hne := h.dying cur dead (by rw [hpc]; rfl)
    refine h.move rfl (onward_update rfl (fun _ => rfl) rfl rfl (fun hz => hz) ?_)
      (children_update rfl rfl) ?_ rfl (fun q hq => (nomatch hq)) (hr hpc rfl)
      (fun d hd => .inl (hu hpc (.inl rfl) d hd)) (hsame hpc rfl)
    · intro hnil
      show unlink (s.proc q).threads dead = []
      rw [hnil]
      rfl
    · intro t hin ht
      by_cases hproc : (s.smp.task t).process = q
      · right
        rw [h.single t dead (hproc.trans hq) ht]
        rfl
      · left
        change t ∈ (Function.update s.proc q ((s.proc q).removeThread dead) (s.smp.task t).process).threads
        rwa [Function.update_of_ne hproc]
  case lastThread dead q hpc hq hlast =>
    exact h.goOn rfl (fun _ => rfl) rfl rfl rfl (fun q hq => (nomatch hq)) (hr hpc rfl) (hu hpc (.inr rfl))
      (hsame hpc rfl)
  case otherThreads dead q hpc hq hlast =>
    exact h.goOn rfl (fun _ => rfl) rfl rfl rfl (fun q hq => (nomatch hq)) (hr hpc rfl) (hu hpc (.inr rfl))
      (fun _ hd => (nomatch hd))
  case destroySpace dead q hpc hq =>
    exact h.goOn rfl (fun _ => rfl) rfl rfl rfl (fun q hq => (nomatch hq)) (hr hpc rfl) (hu hpc (.inr rfl))
      (hsame hpc rfl)
  case clearSpace dead q hpc hq =>
    refine h.move rfl (onward_update rfl (fun _ => rfl) rfl rfl (fun hz => hz) (fun ht => ht))
      (children_update rfl rfl) ?_ rfl (fun q hq => (nomatch hq)) (hr hpc rfl)
      (fun d hd => .inl (hu hpc (.inr rfl) d hd)) (fun _ hd => (nomatch hd))
    intro t hin _
    have hsame' : ∀ r, (((s.setProc q { s.proc q with addressSpace := 0 }).setPc cur (.destroy dead)).proc r).threads =
        (s.proc r).threads := threads_update rfl rfl
    left
    rwa [hsame']
  case destroy dead hpc =>
    refine h.move rfl ⟨fun _ => rfl, fun _ => rfl, fun _ hz => hz, fun _ ht => ht, ?_⟩ (fun _ => rfl)
      (fun _ hin _ => .inl hin) rfl (fun q hq => (nomatch hq)) (hr hpc rfl) ?_ (fun _ hd => (nomatch hd))
    · exact fun _ ht => List.mem_cons_of_mem dead ht
    · intro d hd
      rw [hpc] at hd
      obtain rfl := Option.some.inj hd
      exact .inr List.mem_cons_self
  case timer hpc smp hput =>
    exact h.step ⟨(calm_putBackPrev hput).1.process, fun _ => rfl, fun _ hz => hz, fun _ ht => ht, fun _ ht => ht⟩
      (fun _ => rfl) (fun _ hin _ => .inl hin) rfl h.scan (fun _ => rfl) (fun _ _ hd => .inl hd) h.dying
  all_goals
    rename s.pc cur = _ => hpc
    exact h.goOn rfl (fun _ => rfl) rfl rfl rfl (fun q hq => (nomatch hq)) (hr hpc rfl) (hu hpc (.inl rfl))
      (fun _ hd => (nomatch hd))

lemma FamilyInv.calm (h : FamilyInv real s) (hpc : s'.pc = s.pc) (hproc : s'.proc = s.proc)
    (hfreed : s'.freed = s.freed)
    (hdestroyed : s'.destroyed = s.destroyed) (hprocess : ∀ t, (s'.smp.task t).process = (s.smp.task t).process) :
    FamilyInv real s' := by
  refine h.step ⟨hprocess, ?_, ?_, ?_, ?_⟩ ?_ ?_ hfreed ?_ ?_ ?_ ?_
  · rw [hproc]
    exact fun _ => rfl
  · rw [hproc]
    exact fun _ hz => hz
  · rw [hproc]
    exact fun _ ht => ht
  · rw [hdestroyed]
    exact fun _ ht => ht
  · rw [hproc]
    exact fun _ => rfl
  · rw [hproc]
    exact fun _ hin _ => .inl hin
  · rw [hpc]
    exact h.scan
  · rw [hpc]
    exact fun _ => rfl
  · rw [hpc]
    exact fun _ _ hd => .inl hd
  · rw [hpc]
    exact h.dying

end KaworuOS.Proofs
