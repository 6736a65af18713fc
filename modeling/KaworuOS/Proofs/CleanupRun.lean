import KaworuOS.Proofs.ProcessLife

/-!
# Dead tasks and their cleanup

The cleanup task of every CPU searches the one list of all tasks. To find a dead task and to remove it
are two sections, and a task is marked as dead before its CPU has left its stack. When a cleanup task
finds only tasks that have stopped running and that no other cleanup task has in its hands, every task
is removed once and destroyed once, after its last step.
-/

namespace KaworuOS.Proofs
open Lib

/-- The dead task in the hands of a cleanup task, and whether it has been removed from the list. -/
def held : LifePc → Option (Nat × Bool)
  | .remove dead => some (dead, false)
  | .removeThread dead | .lastThread dead | .destroySpace dead | .clearSpace dead | .destroy dead => some (dead, true)
  | _ => none

/-- A CPU runs the task, or has still to leave its stack. -/
def OnCpu (cpus : Nat → Prop) (s : Life) (t : Nat) : Prop :=
  ∃ c, cpus c ∧ (s.smp.current c = t ∨ s.phase c = .leave t)

/-- A cleanup task finds a task that no CPU runs and that nobody else has found. -/
def LifeOp.FindsSettled (cpus : Nat → Prop) (s : Life) : LifeOp → Prop
  | .go c _ => s.pc (s.smp.current c) = .find → ∀ dead, s.findDeadTask = some dead →
      ¬OnCpu cpus s dead ∧ ∀ t b, held (s.pc t) ≠ some (dead, b)
  | _ => True

/-- No task is destroyed while a CPU runs it, and none is removed or destroyed twice. -/
structure DestroyedOnce (cpus : Nat → Prop) (s : Life) : Prop where
  stopped : ∀ c, cpus c → ∀ dead, s.pc (s.smp.current c) = .destroy dead → ¬OnCpu cpus s dead
  removed : s.removed.Nodup
  destroyed : s.destroyed.Nodup

/-- Neither the idle nor the cleanup task of a CPU. -/
def Plain (cpus : Nat → Prop) (s : Smp) (t : Nat) : Prop := ∀ c, cpus c → t ≠ s.idle c ∧ t ≠ s.cleanupTask c

/-- The task has stopped for good. -/
structure Stopped (cpus : Nat → Prop) (s : Life) (t : Nat) : Prop where
  dead : (s.smp.task t).state = .DEAD
  off : ¬OnCpu cpus s t
  plain : Plain cpus s.smp t

/-- Every task is on the list, in the hands of one cleanup task, or destroyed. -/
structure CleanupInv (cpus : Nat → Prop) (s : Life) : Prop where
  nodup : s.tasks.Nodup
  plain : ∀ t ∈ s.tasks, Plain cpus s.smp t
  listed : ∀ t ∈ s.tasks, t ∉ s.removed
  stopped : ∀ t dead b, held (s.pc t) = some (dead, b) → Stopped cpus s dead
  unique : ∀ t u dead b b', held (s.pc t) = some (dead, b) → held (s.pc u) = some (dead, b') → t = u
  found : ∀ t dead, held (s.pc t) = some (dead, false) → dead ∈ s.tasks
  taken : ∀ t dead, held (s.pc t) = some (dead, true) → dead ∈ s.removed ∧ dead ∉ s.destroyed
  gone : ∀ dead ∈ s.destroyed, dead ∈ s.removed ∧ ∀ t b, held (s.pc t) ≠ some (dead, b)
  removed : s.removed.Nodup
  destroyed : s.destroyed.Nodup

variable {cpus : Nat → Prop} {s s' : Life} {c cur p dead : Nat}

lemma CleanupInv.destroyedOnce (h : CleanupInv cpus s) : DestroyedOnce cpus s where
  stopped c _ dead hpc := (h.stopped (s.smp.current c) dead true (by rw [hpc]; rfl)).off
  removed := h.removed
  destroyed := h.destroyed

lemma CleanupInv.step (h : CleanupInv cpus s) (htasks : s'.tasks = s.tasks) (hremoved : s'.removed = s.removed)
    (hdestroyed : s'.destroyed = s.destroyed) (hplain : ∀ t, Plain cpus s.smp t → Plain cpus s'.smp t)
    (hstopped : ∀ t, Stopped cpus s t → Stopped cpus s' t) (hpc : ∀ t, held (s'.pc t) = held (s.pc t)) :
    CleanupInv cpus s' where
  nodup := by
    rw [htasks]
    exact h.nodup
  plain t ht := by
    rw [htasks] at ht
    exact hplain t (h.plain t ht)
  listed t ht := by
    rw [htasks] at ht
    rw [hremoved]
    exact h.listed t ht
  stopped t dead b hb := by
    rw [hpc] at hb
    exact hstopped dead (h.stopped t dead b hb)
  unique t u dead b b' hb hb' := by
    rw [hpc] at hb hb'
    exact h.unique t u dead b b' hb hb'
  found t dead hb := by
    rw [hpc] at hb
    rw [htasks]
    exact h.found t dead hb
  taken t dead hb := by
    rw [hpc] at hb
    rw [hremoved, hdestroyed]
    exact h.taken t dead hb
  gone dead hd := by
    rw [hdestroyed] at hd
    rw [hremoved]
    refine ⟨(h.gone dead hd).1, ?_⟩
    intro t b
    rw [hpc]
    exact (h.gone dead hd).2 t b
  removed := by
    rw [hremoved]
    exact h.removed
  destroyed := by
    rw [hdestroyed]
    exact h.destroyed

/-- The scheduler's part of a step: no stopped task starts again. -/
structure KeepsStopped (cpus : Nat → Prop) (s s' : Life) : Prop where
  plain : ∀ t, Plain cpus s.smp t → Plain cpus s'.smp t
  stopped : ∀ t, Stopped cpus s t → Stopped cpus s' t

lemma keepsStopped_of_current (hidle : s'.smp.idle = s.smp.idle) (hcleanup : s'.smp.cleanupTask = s.smp.cleanupTask)
    (hcurrent : s'.smp.current = s.smp.current) (hphase : ∀ c t, s'.phase c = .leave t → s.phase c = .leave t)
    (hdead : ∀ t, Stopped cpus s t → (s.smp.task t).state = .DEAD → (s'.smp.task t).state = .DEAD) :
    KeepsStopped cpus s s' := by
  have hplain : ∀ t, Plain cpus s.smp t → Plain cpus s'.smp t := by
    intro t ht d hd
    rw [hidle, hcleanup]
    exact ht d hd
  refine ⟨hplain, ?_⟩
  intro t ht
  refine ⟨hdead t ht ht.dead, ?_, hplain t ht.plain⟩
  rintro ⟨d, hd, hon | hon⟩
  · rw [hcurrent] at hon
    exact ht.off ⟨d, hd, .inl hon⟩
  · exact ht.off ⟨d, hd, .inr (hphase d t hon)⟩

lemma CleanupInv.move (h : CleanupInv cpus s) {pc : LifePc} (hpc : s'.pc = Function.update s.pc cur pc)
    (hheld : held pc = held (s.pc cur)) (htasks : s'.tasks = s.tasks) (hremoved : s'.removed = s.removed)
    (hdestroyed : s'.destroyed = s.destroyed) (hkeeps : KeepsStopped cpus s s') : CleanupInv cpus s' := by
  refine h.step htasks hremoved hdestroyed hkeeps.plain hkeeps.stopped ?_
  intro t
  rw [hpc]
  rcases eq_or_ne t cur with rfl | ht
  · rw [Function.update_self, hheld]
  · rw [Function.update_of_ne ht]

section Hands

variable (h : CleanupInv cpus s)
include h

lemma CleanupInv.find (hpc : s.pc cur = .find) (hfind : s.findDeadTask = some dead) (hoff : ¬OnCpu cpus s dead)
    (hfree : ∀ t b, held (s.pc t) ≠ some (dead, b)) : CleanupInv cpus (s.setPc cur (.remove dead)) := by
  have hin : dead ∈ s.tasks := List.mem_of_find?_eq_some hfind
  have hst : (s.smp.task dead).state = .DEAD :=
    of_decide_eq_true (List.find?_some (p := fun t => (s.smp.task t).state = .DEAD) hfind)
  have hself : (s.setPc cur (.remove dead)).pc cur = .remove dead := Function.update_self ..
  have hother : ∀ t, t ≠ cur → (s.setPc cur (.remove dead)).pc t = s.pc t := fun t ht => Function.update_of_ne ht ..
  -- who has a task in its hands now: `cur` has `dead`, the others have what they had
  have hheld : ∀ t d b, held ((s.setPc cur (.remove dead)).pc t) = some (d, b) →
      (t = cur ∧ d = dead ∧ b = false) ∨ (t ≠ cur ∧ d ≠ dead ∧ held (s.pc t) = some (d, b)) := by
    intro t d b hb
    rcases eq_or_ne t cur with rfl | ht
    · rw [hself] at hb
      obtain ⟨rfl, rfl⟩ := Prod.mk.inj (Option.some.inj hb)
      exact .inl ⟨rfl, rfl, rfl⟩
    · rw [hother t ht] at hb
      refine .inr ⟨ht, ?_, hb⟩
      rintro rfl
      exact hfree t b hb
  refine { h with stopped := ?_, unique := ?_, found := ?_, taken := ?_, gone := ?_ }
  · intro t d b hb
    rcases hheld t d b hb with ⟨-, rfl, -⟩ | ⟨-, -, hb⟩
    · exact ⟨hst, hoff, h.plain d hin⟩
    · obtain ⟨h1, h2, h3⟩ := h.stopped t d b hb
      exact ⟨h1, h2, h3⟩
  · intro t u d b b' hb hb'
    rcases hheld t d b hb with ⟨rfl, rfl, -⟩ | ⟨-, hd, hb⟩
    · rcases hheld u d b' hb' with ⟨rfl, -, -⟩ | ⟨-, hd', -⟩
      · rfl
      · exact absurd rfl hd'
    · rcases hheld u d b' hb' with ⟨-, hd', -⟩ | ⟨-, -, hb'⟩
      · exact absurd hd' hd
      · exact h.unique t u d b b' hb hb'
  · intro t d hb
    rcases hheld t d false hb with ⟨-, rfl, -⟩ | ⟨-, -, hb⟩
    · exact hin
    · exact h.found t d hb
  · intro t d hb
    rcases hheld t d true hb with ⟨-, -, hfalse⟩ | ⟨-, -, hb⟩
    · cases hfalse
    · exact h.taken t d hb
  · intro d hd
    refine ⟨(h.gone d hd).1, ?_⟩
    intro t b hb
    rcases hheld t d b hb with ⟨-, rfl, -⟩ | ⟨-, -, hb⟩
    · exact h.listed d hin (h.gone d hd).1
    · exact (h.gone d hd).2 t b hb

lemma CleanupInv.remove (hpc : s.pc cur = .remove dead) {pc : LifePc} (hnew : held pc = some (dead, true)) :
    CleanupInv cpus ({ s with tasks := unlink s.tasks dead, removed := dead :: s.removed }.setPc cur pc) := by
  set s' := { s with tasks := unlink s.tasks dead, removed := dead :: s.removed }.setPc cur pc with hs'
  have hhad : held (s.pc cur) = some (dead, false) := by rw [hpc]; rfl
  have hin : dead ∈ s.tasks := h.found cur dead hhad
  have htasks : s'.tasks = s.tasks.erase dead := if_pos hin
  have hself : held (s'.pc cur) = some (dead, true) := by
    rw [show s'.pc cur = pc from Function.update_self ..]
    exact hnew
  have hother : ∀ t, t ≠ cur → s'.pc t = s.pc t := fun t ht => Function.update_of_ne ht ..
  have hheld : ∀ t d b, held (s'.pc t) = some (d, b) →
      (t = cur ∧ d = dead ∧ b = true) ∨ (t ≠ cur ∧ d ≠ dead ∧ held (s.pc t) = some (d, b)) := by
    intro t d b hb
    rcases eq_or_ne t cur with rfl | ht
    · rw [hself] at hb
      obtain ⟨rfl, rfl⟩ := Prod.mk.inj (Option.some.inj hb)
      exact .inl ⟨rfl, rfl, rfl⟩
    · rw [hother t ht] at hb
      refine .inr ⟨ht, ?_, hb⟩
      rintro rfl
      exact ht (h.unique t cur d b false hb hhad)
  have hlisted := h.listed dead hin
  refine ⟨?_, ?_, ?_, ?_, ?_, ?_, ?_, ?_, ?_, h.destroyed⟩
  · rw [htasks]
    exact h.nodup.erase dead
  · intro t ht
    rw [htasks] at ht
    exact h.plain t (List.mem_of_mem_erase ht)
  · intro t ht hmem
    rw [htasks] at ht
    rcases List.mem_cons.mp hmem with rfl | hmem
    · exact h.nodup.not_mem_erase ht
    · exact h.listed t (List.mem_of_mem_erase ht) hmem
  · intro t d b hb
    rcases hheld t d b hb with ⟨-, rfl, -⟩ | ⟨-, -, hb⟩
    · obtain ⟨h1, h2, h3⟩ := h.stopped cur d false hhad
      exact ⟨h1, h2, h3⟩
    · obtain ⟨h1, h2, h3⟩ := h.stopped t d b hb
      exact ⟨h1, h2, h3⟩
  · intro t u d b b' hb hb'
    rcases hheld t d b hb with ⟨rfl, rfl, -⟩ | ⟨-, hd, hb⟩
    · rcases hheld u d b' hb' with ⟨rfl, -, -⟩ | ⟨-, hd', -⟩
      · rfl
      · exact absurd rfl hd'
    · rcases hheld u d b' hb' with ⟨-, hd', -⟩ | ⟨-, -, hb'⟩
      · exact absurd hd' hd
      · exact h.unique t u d b b' hb hb'
  · intro t d hb
    rcases hheld t d false hb with ⟨-, -, hfalse⟩ | ⟨-, hd, hb⟩
    · cases hfalse
    · rw [htasks]
      exact (List.mem_erase_of_ne hd).mpr (h.found t d hb)
  · intro t d hb
    rcases hheld t d true hb with ⟨-, rfl, -⟩ | ⟨-, -, hb⟩
    · exact ⟨List.mem_cons_self, fun hd => hlisted (h.gone d hd).1⟩
    · exact ⟨List.mem_cons_of_mem dead (h.taken t d hb).1, (h.taken t d hb).2⟩
  · intro d hd
    refine ⟨List.mem_cons_of_mem dead (h.gone d hd).1, ?_⟩
    intro t b hb
    rcases hheld t d b hb with ⟨-, rfl, -⟩ | ⟨-, -, hb⟩
    · exact hlisted (h.gone d hd).1
    · exact (h.gone d hd).2 t b hb
  · exact List.nodup_cons.mpr ⟨hlisted, h.removed⟩

lemma CleanupInv.destroy (hpc : s.pc cur = .destroy dead) :
    CleanupInv cpus ({ s with destroyed := dead :: s.destroyed }.setPc cur .find) := by
  set s' := { s with destroyed := dead :: s.destroyed }.setPc cur .find with hs'
  have hhad : held (s.pc cur) = some (dead, true) := by rw [hpc]; rfl
  obtain ⟨hremoved, hnew⟩ := h.taken cur dead hhad
  have hself : held (s'.pc cur) = none := by rw [show s'.pc cur = .find from Function.update_self ..]; rfl
  have hother : ∀ t, t ≠ cur → s'.pc t = s.pc t := fun t ht => Function.update_of_ne ht ..
  have hheld : ∀ t d b, held (s'.pc t) = some (d, b) → d ≠ dead ∧ held (s.pc t) = some (d, b) := by
    intro t d b hb
    rcases eq_or_ne t cur with rfl | ht
    · rw [hself] at hb
      cases hb
    · rw [hother t ht] at hb
      refine ⟨?_, hb⟩
      rintro rfl
      exact ht (h.unique t cur d b true hb hhad)
  refine { h with stopped := ?_, unique := ?_, found := ?_, taken := ?_, gone := ?_, destroyed := ?_ }
  · intro t d b hb
    obtain ⟨h1, h2, h3⟩ := h.stopped t d b (hheld t d b hb).2
    exact ⟨h1, h2, h3⟩
  · exact fun t u d b b' hb hb' => h.unique t u d b b' (hheld t d b hb).2 (hheld u d b' hb').2
  · exact fun t d hb => h.found t d (hheld t d false hb).2
  · intro t d hb
    obtain ⟨hd, hb⟩ := hheld t d true hb
    refine ⟨(h.taken t d hb).1, ?_⟩
    intro hmem
    rcases List.mem_cons.mp hmem with heq | hmem
    · exact hd heq
    · exact (h.taken t d hb).2 hmem
  · intro d hd
    rcases List.mem_cons.mp hd with rfl | hd
    · exact ⟨hremoved, fun t b hb => (hheld t d b hb).1 rfl⟩
    · exact ⟨(h.gone d hd).1, fun t b hb => (h.gone d hd).2 t b (hheld t d b hb).2⟩
  · exact List.nodup_cons.mpr ⟨hnew, h.destroyed⟩

end Hands

lemma keepsStopped_putBackPrev {smp : Smp} (pc : Nat → LifePc) (hput : s.smp.putBackPrev c = .ok smp) :
    KeepsStopped cpus s ({ s with smp := smp, pc := pc }.setPhase c .pick) := by
  obtain ⟨hcalm, hcurrent⟩ := calm_putBackPrev hput
  refine keepsStopped_of_current hcalm.idle hcalm.cleanupTask hcurrent ?_ ?_
  · intro d t hd
    change Function.update s.phase c Phase.pick d = .leave t at hd
    rcases eq_or_ne d c with rfl | hne
    · rw [Function.update_self] at hd
      cases hd
    · rwa [Function.update_of_ne hne] at hd
  · intro t _ hdead
    rcases putBackPrev_ok hput with ⟨rfl, -⟩ | ⟨-, hrun, -, -, -, rfl⟩
    · exact hdead
    · have ht : t ≠ s.smp.current c := by
        rintro rfl
        rw [hrun] at hdead
        cases hdead
      exact (congrArg Task.state (Smp.setState_other _ _ _ ht)).trans hdead

lemma keepsStopped_pick (hc : cpus c) {smp : Smp} {phase : Phase}
    (hswitch : (s.smp.schedulerPickNext c).2.switchTo c (s.smp.current c) (s.smp.schedulerPickNext c).1 = .ok smp)
    (hphase : ∀ t, phase = .leave t → t = s.smp.current c) :
    KeepsStopped cpus s ({ s with smp := smp }.setPhase c phase) := by
  obtain ⟨hcalm, hcurrent, hdead⟩ := schedulerPickNext_effect s.smp c
  obtain ⟨rfl, -, hst⟩ := switchTo_ok hswitch
  have hplain : ∀ t, Plain cpus s.smp t → Plain cpus (s.smp.schedulerPickNext c).2 t := by
    intro t ht d hd
    rw [hcalm.idle, hcalm.cleanupTask]
    exact ht d hd
  refine ⟨hplain, ?_⟩
  intro t ht
  have hnext : t ≠ (s.smp.schedulerPickNext c).1 := by
    rintro rfl
    rcases hst with hready | hidle | hcleanup
    · rw [hdead _ ht.dead] at hready
      cases hready
    · exact (hplain _ ht.plain c hc).1 hidle
    · exact (hplain _ ht.plain c hc).2 hcleanup
  refine ⟨?_, ?_, hplain t ht.plain⟩
  · exact (congrArg Task.state (Smp.setState_other _ _ _ hnext)).trans (hdead t ht.dead)
  · rintro ⟨d, hd, hon⟩
    rcases eq_or_ne d c with rfl | hne
    · rcases hon with hon | hon
      · exact hnext ((Function.update_self ..).symm.trans hon).symm
      · have heq : phase = .leave t := (Function.update_self ..).symm.trans hon
        exact ht.off ⟨d, hd, .inl (hphase t heq).symm⟩
    · rcases hon with hon | hon
      · refine ht.off ⟨d, hd, .inl ?_⟩
        rw [← hcurrent]
        exact (Function.update_of_ne hne ..).symm.trans hon
      · exact ht.off ⟨d, hd, .inr ((Function.update_of_ne hne ..).symm.trans hon)⟩

lemma LifeNext.keepsStopped (hc : cpus c) (hcur : cur = s.smp.current c) (h : LifeNext s c cur p s') :
    KeepsStopped cpus s s' := by
  have hoff : ∀ t, Stopped cpus s t → t ≠ cur := by
    rintro t ht rfl
    exact ht.off ⟨c, hc, .inl hcur.symm⟩
  cases h
  case enqueue =>
    refine keepsStopped_of_current rfl rfl rfl (fun _ _ ht => ht) ?_
    intro t ht hdead
    exact (congrArg Task.state (Smp.setWaitingOn_other _ _ _ (hoff t ht))).trans hdead
  case block =>
    refine keepsStopped_of_current rfl rfl rfl (fun _ _ ht => ht) ?_
    intro t ht hdead
    exact (congrArg Task.state (Smp.setState_other _ _ _ (hoff t ht))).trans hdead
  case setDead =>
    refine keepsStopped_of_current rfl rfl rfl (fun _ _ ht => ht) ?_
    intro t ht hdead
    exact (congrArg Task.state (Smp.setState_other _ _ _ (hoff t ht))).trans hdead
  case wake hw =>
    refine keepsStopped_of_current hw.idle hw.cleanupTask hw.current (fun _ _ ht => ht) ?_
    intro t _ hdead
    have hnotin : t ∉ s.smp.waitQueue (s.proc p).parent := by
      intro hin
      rw [hw.blocked t hin] at hdead
      cases hdead
    exact (congrArg Task.state (hw.other t hnotin)).trans hdead
  case leave hput => exact keepsStopped_putBackPrev _ hput
  case timer hput => exact keepsStopped_putBackPrev s.pc hput
  all_goals exact keepsStopped_of_current rfl rfl rfl (fun _ _ ht => ht) (fun _ _ hdead => hdead)

lemma LifeCase.keepsStopped (hc : cpus c) (h : LifeCase s c s') : KeepsStopped cpus s s' := by
  cases h with
  | task _ hnext => exact hnext.keepsStopped hc rfl
  | pick hphase hswitch =>
    refine keepsStopped_pick hc hswitch ?_
    intro t ht
    split at ht
    · cases ht
    · exact (Phase.leave.inj ht).symm
  | resume =>
    refine keepsStopped_of_current rfl rfl rfl ?_ (fun _ _ hdead => hdead)
    intro d t hd
    rcases eq_or_ne d c with rfl | hne
    · rw [show (s.setPhase d .run).phase d = .run from Function.update_self ..] at hd
      cases hd
    · exact (Function.update_of_ne hne ..).symm.trans hd

lemma CleanupInv.next (h : CleanupInv cpus s) (hkeeps : KeepsStopped cpus s s') (hnext : LifeNext s c cur p s')
    (hfinds : s.pc cur = .find → ∀ dead, s.findDeadTask = some dead →
      ¬OnCpu cpus s dead ∧ ∀ t b, held (s.pc t) ≠ some (dead, b)) : CleanupInv cpus s' := by
  have hhand : ∀ {pc pc' : LifePc}, s.pc cur = pc → held pc' = held pc → held pc' = held (s.pc cur) :=
    fun hpc heq => by rw [hpc, heq]
  cases hnext
  case zombie hpc hz copied =>
    refine h.move rfl ?_ rfl rfl rfl hkeeps
    rw [hpc]
    cases copied <;> rfl
  case leave hpc smp hput =>
    rcases hpc with ⟨hpc, rfl⟩ | ⟨hpc, rfl⟩ | ⟨hpc, rfl⟩ <;>
    exact h.move rfl (hhand hpc rfl) rfl rfl rfl hkeeps
  case find hpc hfind _ _ => exact h.find hpc hfind (hfinds hpc _ hfind).1 (hfinds hpc _ hfind).2
  case remove hpc =>
    refine h.remove hpc ?_
    split <;> rfl
  case destroy hpc => exact h.destroy hpc
  case timer => exact h.step rfl rfl rfl hkeeps.plain hkeeps.stopped (fun _ => rfl)
  all_goals
    rename s.pc cur = _ => hpc
    exact h.move rfl (hhand hpc rfl) rfl rfl rfl hkeeps

lemma CleanupInv.op (h : CleanupInv cpus s) {op : LifeOp} (hc : cpus op.cpu) (hfinds : LifeOp.FindsSettled cpus s op)
    (hrun : op.run s = some (.ok s')) : CleanupInv cpus s' := by
  obtain ⟨hact, hcase⟩ := LifeOp.cases_of_run hrun
  have hkeeps := hcase.keepsStopped hc
  cases hcase with
  | task hphase hnext =>
    have huser : s.pc (s.smp.current op.cpu) = .user → CleanupInv cpus s' := by
      intro hpc
      refine h.next hkeeps hnext (fun hfind => ?_)
      rw [hpc] at hfind
      cases hfind
    cases op with
    | go c copied => exact h.next hkeeps hnext hfinds
    | wait4 c => exact huser (LifeOp.pc_of_act hact (.inl ⟨c, rfl⟩))
    | exit c status => exact huser (LifeOp.pc_of_act hact (.inr (.inl ⟨c, status, rfl⟩)))
    | finish c => exact huser (LifeOp.pc_of_act hact (.inr (.inr ⟨c, rfl⟩)))
    | timer c =>
      obtain ⟨smp, -, rfl⟩ := LifeOp.timer_of_act hact
      exact h.step rfl rfl rfl hkeeps.plain hkeeps.stopped (fun _ => rfl)
    | pick c => exact absurd hact (LifeOp.act_ne_of_run hphase (.inl rfl))
    | resume c => exact absurd hact (LifeOp.act_ne_of_run hphase (.inr rfl))
  | pick => exact h.step rfl rfl rfl hkeeps.plain hkeeps.stopped (fun _ => rfl)
  | resume => exact h.step rfl rfl rfl hkeeps.plain hkeeps.stopped (fun _ => rfl)

/-- Before the first step every task of the list is new, and no cleanup task has one in its hands. -/
structure CleanupStart (cpus : Nat → Prop) (s : Life) : Prop where
  nodup : s.tasks.Nodup
  plain : ∀ t ∈ s.tasks, Plain cpus s.smp t
  pc : ∀ t, s.pc t = .user ∨ s.pc t = .find
  removed : s.removed = []
  destroyed : s.destroyed = []

lemma CleanupStart.inv (h : CleanupStart cpus s) : CleanupInv cpus s := by
  have hnone : ∀ t x, held (s.pc t) ≠ some x := by
    intro t x hx
    rcases h.pc t with hpc | hpc <;> rw [hpc] at hx <;> cases hx
  refine ⟨h.nodup, h.plain, ?_, fun t _ _ hb => absurd hb (hnone t _), fun t _ _ _ _ hb => absurd hb (hnone t _),
    fun t _ hb => absurd hb (hnone t _), fun t _ hb => absurd hb (hnone t _), ?_, ?_, ?_⟩
  · intro t _
    rw [h.removed]
    exact List.not_mem_nil
  · intro d hd
    rw [h.destroyed] at hd
    cases hd
  · rw [h.removed]
    exact List.nodup_nil
  · rw [h.destroyed]
    exact List.nodup_nil

/-- **Dead tasks are destroyed once, after they have stopped**, in a run in which cleanup tasks find
only settled tasks. -/
theorem settled_cleanup_destroys_once (hstart : CleanupStart cpus s)
    (hrun : Relation.ReflTransGen (LifeStep cpus (LifeOp.FindsSettled cpus)) s s') : DestroyedOnce cpus s' := by
  have hinv : CleanupInv cpus s' := by
    induction hrun with
    | refl => exact hstart.inv
    | tail _ hstep ih =>
      obtain ⟨op, hc, hfinds, hop⟩ := hstep
      exact ih.op hc hfinds hop
  exact hinv.destroyedOnce

/-- Two kernel tasks, 11 on CPU 1 and 12 on CPU 2. -/
def kernels : Life := { family with smp := twoCpus }

lemma kernels_start : CleanupStart OneOrTwo kernels := by
  refine ⟨by decide, ?_, family_pc, rfl, rfl⟩
  rintro t ht c (rfl | rfl)
  · revert t
    decide
  · revert t
    decide

/-- The task of CPU `c` exits, and the cleanup task takes over. -/
def exitOn (c : Nat) : List LifeOp := [.finish c, .go c true, .go c true, .go c true, .pick c, .resume c]

/-- The cleanup task of CPU 2 finds task 11 before CPU 1 has left it. -/
def findInWindow : List LifeOp := exitOn 2 ++ [.finish 1, .go 1 true, .go 1 true, .go 2 true, .go 2 true]

/-- Both cleanup tasks find task 11 before one of them removes it. -/
def findTwice : List LifeOp :=
  exitOn 1 ++ exitOn 2 ++ [.go 1 true, .go 2 true, .go 1 true, .go 2 true, .go 1 true, .go 2 true]

/-- A task is about to be destroyed on CPU 2 while it is current on CPU 1, and a task is removed and
destroyed twice. -/
theorem cleanup_destroys_running_and_twice : CleanupStart OneOrTwo kernels ∧
    (∃ s, Relation.ReflTransGen (LifeStep OneOrTwo fun _ _ => True) kernels s ∧ s.phase 2 = .run ∧
      s.pc (s.smp.current 2) = .destroy 11 ∧ s.smp.current 1 = 11 ∧ ¬DestroyedOnce OneOrTwo s) ∧
    ∃ s, Relation.ReflTransGen (LifeStep OneOrTwo fun _ _ => True) kernels s ∧ s.removed = [11, 11] ∧
      s.destroyed = [11, 11] ∧ ¬DestroyedOnce OneOrTwo s := by
  have hsteps : ∀ {ops s}, checkOps (fun _ op => onTwoCpus op) kernels ops = true → runOps kernels ops = some s →
      Relation.ReflTransGen (LifeStep OneOrTwo fun _ _ => True) kernels s := fun hall hs =>
    runOps_steps _ (fun _ _ hop => ⟨oneOrTwo_of_onTwoCpus hop, trivial⟩) hall hs
  refine ⟨kernels_start, ?_, ?_⟩
  · have hend : (runOps kernels findInWindow).any (fun s => s.phase 2 = .run ∧
        s.pc (s.smp.current 2) = .destroy 11 ∧ s.smp.current 1 = 11) = true := by
      decide +kernel
    obtain ⟨s, hs, hend⟩ := (Option.any_eq_true _ _).mp hend
    obtain ⟨hphase, hpc, hcur⟩ := of_decide_eq_true hend
    refine ⟨s, hsteps (by decide +kernel) hs, hphase, hpc, hcur, ?_⟩
    intro honce
    exact honce.stopped 2 (.inr rfl) 11 hpc ⟨1, .inl rfl, .inl hcur⟩
  · have hend : (runOps kernels findTwice).any (fun s => s.removed = [11, 11] ∧ s.destroyed = [11, 11]) = true := by
      decide +kernel
    obtain ⟨s, hs, hend⟩ := (Option.any_eq_true _ _).mp hend
    obtain ⟨hremoved, hdestroyed⟩ := of_decide_eq_true hend
    refine ⟨s, hsteps (by decide +kernel) hs, hremoved, hdestroyed, ?_⟩
    intro honce
    have hnodup := honce.removed
    rw [hremoved] at hnodup
    revert hnodup
    decide

/-- A step on the two CPUs that finds no task. -/
def findsNothing (s : Life) (op : LifeOp) : Bool :=
  onTwoCpus op && match op with
    | .go c _ => decide (s.pc (s.smp.current c) ≠ .find)
    | _ => true

lemma findsSettled_of_findsNothing {op : LifeOp} (h : findsNothing s op = true) :
    OneOrTwo op.cpu ∧ LifeOp.FindsSettled OneOrTwo s op := by
  obtain ⟨hcpu, hpc⟩ := (Bool.and_eq_true _ _).mp h
  refine ⟨oneOrTwo_of_onTwoCpus hcpu, ?_⟩
  cases op with
  | go c copied => exact fun hfind => absurd hfind (of_decide_eq_true hpc)
  | _ => trivial

/-- The cleanup task of CPU 1 destroys the task that CPU 1 has left. -/
theorem settled_cleanup_destroys_once_left : CleanupStart OneOrTwo kernels ∧
    ∃ s, Relation.ReflTransGen (LifeStep OneOrTwo (LifeOp.FindsSettled OneOrTwo)) kernels s ∧ s.destroyed = [11] ∧
      DestroyedOnce OneOrTwo s := by
  have hend : (runOps kernels (exitOn 1)).any
    (fun s => s.smp.current 1 = 201 ∧ s.smp.current 2 = 12 ∧ s.phase 1 = .run ∧
      s.phase 2 = .run ∧ s.findDeadTask = some 11 ∧ s.pc 11 = .gone ∧ s.pc 201 = .find ∧
      (LifeOp.run s (.go 1 true)).any (fun r => r.toOption.any (fun s₁ =>
        checkOps findsNothing s₁ [.go 1 true, .go 1 true] ∧
        (runOps s₁ [.go 1 true, .go 1 true]).any (fun s₂ => s₂.destroyed = [11])))) = true := by
    decide +kernel
  obtain ⟨s, hs, hend⟩ := (Option.any_eq_true _ _).mp hend
  obtain ⟨hcur₁, hcur₂, hphase₁, hphase₂, hfind, hpc₁, hpc₂, hlast⟩ := of_decide_eq_true hend
  obtain ⟨r, hr, hlast⟩ := (Option.any_eq_true _ _).mp hlast
  obtain ⟨s₁, hs₁, hlast⟩ := (Option.any_eq_true _ _).mp hlast
  obtain ⟨hcheck, hlast⟩ := of_decide_eq_true hlast
  obtain ⟨s₂, hs₂, hlast⟩ := (Option.any_eq_true _ _).mp hlast
  have hoff : ¬OnCpu OneOrTwo s 11 := by
    rintro ⟨c, rfl | rfl, h | h⟩
    · exact absurd (hcur₁.symm.trans h) (by decide)
    · exact absurd (hphase₁.symm.trans h) (by decide)
    · exact absurd (hcur₂.symm.trans h) (by decide)
    · exact absurd (hphase₂.symm.trans h) (by decide)
  have hfree : ∀ t b, held (s.pc t) ≠ some (11, b) := by
    intro t b ht
    rcases eq_or_ne t 11 with rfl | h₁
    · rw [hpc₁] at ht
      cases ht
    rcases eq_or_ne t 201 with rfl | h₂
    · rw [hpc₂] at ht
      cases ht
    have hrest : checkOps (fun s op => decide (s.smp.current op.cpu ∈ [11, 201])) kernels (exitOn 1) = true := by
      decide +kernel
    rw [runOps_pc hrest hs (by simp [h₁, h₂])] at ht
    rcases family_pc t with h | h <;> rw [show kernels.pc t = _ from h] at ht <;> cases ht
  have hstep : LifeStep OneOrTwo (LifeOp.FindsSettled OneOrTwo) s s₁ := by
    refine ⟨.go 1 true, .inl rfl, ?_, ?_⟩
    · intro _ dead hdead
      obtain rfl := Option.some.inj (hfind.symm.trans hdead)
      exact ⟨hoff, hfree⟩
    · rw [hr]
      cases r with
      | error e => cases hs₁
      | ok s' => rw [show s' = s₁ from Option.some.inj hs₁]
  have hquiet : ∀ s op, findsNothing s op = true → OneOrTwo op.cpu ∧ LifeOp.FindsSettled OneOrTwo s op :=
    fun s op => findsSettled_of_findsNothing
  have hsteps := ((runOps_steps _ hquiet (by decide +kernel) hs).tail hstep).trans (runOps_steps _ hquiet hcheck hs₂)
  exact ⟨kernels_start, s₂, hsteps, of_decide_eq_true hlast, settled_cleanup_destroys_once kernels_start hsteps⟩

end KaworuOS.Proofs
