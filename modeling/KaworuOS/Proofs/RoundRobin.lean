import KaworuOS.Proofs.SchedulerPlaces

/-!
# Every task of the run queue gets its turn

Tasks join the run queue at its end, and a switch that does not go to the cleanup task takes at least the first one
off it. So the number of tasks in front of a waiting task never grows, and every such switch makes it smaller.
-/

namespace KaworuOS.Proofs
open Lib

variable {s s' s'' : Sched} {run run' : List Nat} {wait : Nat → List Nat} {t next : Nat}

/-- Whether an operation has called `scheduler_switch` and another task than the cleanup task has been selected:
one turn, or none. -/
def SchedOp.turns (op : SchedOp) (s s' : Sched) : Nat :=
  if op.switches s = true ∧ s'.cpu.current ≠ s.cpu.cleanupTask then 1 else 0

/-- A run from `s` in which the process of `t` is not told to exit, with the number of turns and with whether `t`
has been the current task after one of the operations. -/
inductive Turns (t : Nat) (s : Sched) : Nat → Bool → Sched → Prop
  | start : Turns t s 0 false s
  | step {n : Nat} {served : Bool} {s₁ s₂ : Sched} {op : SchedOp} (h : Turns t s n served s₁) (hop : op.Enabled s₁)
      (hspares : op ≠ .processExit (s.task t).process) (hexec : op.exec s₁ = .ok s₂) :
      Turns t s (n + op.turns s₁ s₂) (served || decide (s₂.cpu.current = t)) s₂

/-- The task waits on the run queue with at most `k` tasks in front of it, and its process is not exiting. -/
structure WaitsTurn (s : Sched) (process t k : Nat) (run : List Nat) : Prop where
  ahead : ∃ pre post, run = pre ++ t :: post ∧ pre.length ≤ k
  process : (s.task t).process = process
  lives : isTaskProcessExiting s t = false

/-- A task that is not selected keeps its place, and after the selection of another task than the cleanup task there
are fewer in front of it. -/
lemma Picks.ahead {pre post : List Nat} (h : Picks s (pre ++ t :: post) next run')
    (hlives : isTaskProcessExiting s t = false) (hnext : next ≠ t) :
    ∃ pre' post', run' = pre' ++ t :: post' ∧ pre'.length ≤ pre.length ∧
      (next ≠ s.cpu.cleanupTask → pre'.length < pre.length) := by
  cases h with
  | cleanup hcleanup hrun => exact ⟨pre, post, hrun, Nat.le_refl _, fun hne => absurd hcleanup hne⟩
  | idle hidle hdead =>
    rw [hdead t (by simp)] at hlives
    cases hlives
  | task dead hrun hdead =>
    have hnot : t ∉ dead := by
      intro hin
      rw [hdead t hin] at hlives
      cases hlives
    -- everything up to the selected task stands in front of `t`
    rcases List.append_eq_append_iff.mp hrun with ⟨pre', hpre, hpost⟩ | ⟨pre', hpre, hpost⟩
    · cases pre' with
      | nil =>
        rw [List.nil_append] at hpost
        exact absurd (List.cons.inj hpost).1.symm hnext
      | cons x pre' =>
        rw [List.cons_append] at hpost
        obtain ⟨rfl, -⟩ := List.cons.inj hpost
        exact absurd (hpre ▸ List.mem_append_right pre List.mem_cons_self) hnot
    · cases pre' with
      | nil =>
        rw [List.nil_append] at hpost
        exact absurd (List.cons.inj hpost).1 hnext
      | cons x pre' =>
        rw [List.cons_append] at hpost
        obtain ⟨rfl, hrest⟩ := List.cons.inj hpost
        have hlength : pre'.length < pre.length := by
          rw [hpre, List.length_append, List.length_cons]
          omega
        exact ⟨pre', post, hrest, Nat.le_of_lt hlength, fun _ => hlength⟩

lemma WaitsTurn.mem {process k : Nat} (h : WaitsTurn s process t k run) : t ∈ run := by
  obtain ⟨pre, post, rfl, -⟩ := h.ahead
  simp

/-- What one operation does to a waiting task that it does not select. -/
lemma WaitsTurn.step {process k : Nat} {op : SchedOp} {wait' : Nat → List Nat} (h : WaitsTurn s process t k run)
    (hinv : SchedInv s run wait) (hspares : op ≠ .processExit process) (hmoves : op.Moves s s' run run' wait wait')
    (hcur : s'.cpu.current ≠ t) :
    WaitsTurn s' process t (k - op.turns s s') run' := by
  obtain ⟨pre, post, hrun, hlength⟩ := h.ahead
  have hmem : t ∈ s.tasks := ((hinv.queues.ready t).mp h.mem).1
  have hprocess : (s'.task t).process = process := (hmoves.process t hmem).trans h.process
  refine ⟨?_, hprocess, ?_⟩
  · cases hswitch : op.switches s with
    | false =>
      obtain ⟨-, more, hmore⟩ := hmoves.grown hswitch
      refine ⟨pre, post ++ more, by rw [hmore, hrun, List.append_assoc, List.cons_append], ?_⟩
      rwa [SchedOp.turns, hswitch, if_neg (by simp)]
    | true =>
      obtain ⟨back, hpicks⟩ := hmoves.switched hswitch
      rw [hrun, List.append_assoc, List.cons_append] at hpicks
      obtain ⟨pre', post', hrun', hle, hlt⟩ := hpicks.ahead h.lives hcur
      refine ⟨pre', post', hrun', ?_⟩
      rw [SchedOp.turns, hswitch]
      by_cases hcleanup : s'.cpu.current = s.cpu.cleanupTask
      · rw [if_neg (by simp [hcleanup])]
        omega
      · rw [if_pos ⟨rfl, hcleanup⟩]
        have hfewer := hlt hcleanup
        omega
  · have hlives := h.lives
    rw [isTaskProcessExiting, h.process] at hlives
    rw [isTaskProcessExiting, hprocess, hmoves.exiting process hspares]
    exact hlives

lemma WaitsTurn.turns_le {process k : Nat} {op : SchedOp} {wait' : Nat → List Nat} (h : WaitsTurn s process t k run)
    (hmoves : op.Moves s s' run run' wait wait') (hcur : s'.cpu.current ≠ t) : op.turns s s' ≤ k := by
  obtain ⟨pre, post, hrun, hlength⟩ := h.ahead
  rw [SchedOp.turns]
  split
  · rename_i hturn
    obtain ⟨back, hpicks⟩ := hmoves.switched hturn.1
    rw [hrun, List.append_assoc, List.cons_append] at hpicks
    obtain ⟨_, _, _, _, hlt⟩ := hpicks.ahead h.lives hcur
    have hfewer := hlt hturn.2
    omega
  · exact Nat.zero_le _

/-- As long as the task has not been served, every turn has brought it closer to the front. -/
lemma Turns.queued {k n : Nat} {served : Bool} (hinv : SchedInv s run wait)
    (h : WaitsTurn s (s.task t).process t k run) (hturns : Turns t s n served s') :
    ∃ run' wait', SchedInv s' run' wait' ∧
      (served = false → n ≤ k ∧ WaitsTurn s' (s.task t).process t (k - n) run') := by
  induction hturns with
  | start => exact ⟨run, wait, hinv, fun _ => ⟨Nat.zero_le _, h⟩⟩
  | @step n served s₁ s₂ op _ hop hspares hexec ih =>
    obtain ⟨run₁, wait₁, hinv₁, hwaits⟩ := ih
    obtain ⟨s₂', run₂, wait₂, hok, hinv₂, hmoves⟩ := hinv₁.exec op hop
    obtain rfl := Except.ok.inj (hexec.symm.trans hok)
    refine ⟨run₂, wait₂, hinv₂, fun hserved => ?_⟩
    obtain ⟨hbefore, hnow⟩ := Bool.or_eq_false_iff.mp hserved
    obtain ⟨hle, hqueued⟩ := hwaits hbefore
    have hcur : s₂.cpu.current ≠ t := of_decide_eq_false hnow
    have hturn := hqueued.turns_le hmoves hcur
    refine ⟨by omega, ?_⟩
    have hstep := hqueued.step hinv₁ hspares hmoves hcur
    rwa [Nat.sub_sub] at hstep

/-- **Bounded waiting.** In a state that the scheduler reaches, a task with `k` others in front of it on the run queue,
whose process is not exiting, has become the current task when `k + 1` calls of `scheduler_switch` have selected
another task than the cleanup task; and every call returns. -/
theorem round_robin_bounded_waiting {idle cleanupTask k : Nat} (hboot : BootState s idle cleanupTask)
    (hreach : Relation.ReflTransGen SchedStep (commonCpuInitTasks s idle cleanupTask) s')
    (hqueue : Linked s'.runnableNode s'.cpu.runnableTasks.runnables run) (hplace : run[k]? = some t)
    (hlives : isTaskProcessExiting s' t = false) {n : Nat} {served : Bool} (hturns : Turns t s' n served s'') :
    (k < n → served = true) ∧ ∀ op : SchedOp, op.Enabled s'' → ∃ s₃, op.exec s'' = .ok s₃ := by
  obtain ⟨run', wait, hinv⟩ := hboot.inv.reachable hreach
  obtain rfl := hqueue.unique hinv.queues.runLinked
  have hk : k < run.length := (List.getElem?_eq_some_iff.mp hplace).1
  have hsplit : run = run.take k ++ t :: run.drop (k + 1) := by
    have hget : run[k] = t := (List.getElem?_eq_some_iff.mp hplace).2
    rw [← hget, ← List.drop_eq_getElem_cons hk, List.take_append_drop]
  have hqueued : WaitsTurn s' (s'.task t).process t k run := ⟨⟨_, _, hsplit, List.length_take_le k run⟩, rfl, hlives⟩
  obtain ⟨run'', wait'', hinv'', hwaits⟩ := Turns.queued hinv hqueued hturns
  refine ⟨fun hmany => ?_, fun op hop => ?_⟩
  · cases served with
    | true => rfl
    | false => exact absurd (hwaits rfl).1 (Nat.not_le.mpr hmany)
  · obtain ⟨s₃, -, -, hok, -⟩ := hinv''.exec op hop
    exact ⟨s₃, hok⟩

lemma Turns.then {n n' : Nat} {served served' : Bool} {s₁ s₂ : Sched} (op : SchedOp) (h : Turns t s n served s₁)
    (hop : op.Enabled s₁) (hspares : op ≠ .processExit (s.task t).process) (hexec : op.exec s₁ = .ok s₂)
    (hn : n + op.turns s₁ s₂ = n') (hserved : (served || decide (s₂.cpu.current = t)) = served') :
    Turns t s n' served' s₂ := by
  subst hn hserved
  exact h.step hop hspares hexec

/-- Two tasks on the run queue, and the second one runs after two switches. -/
theorem round_robin_bounded_waiting_second :
    ∃ s' s'', Relation.ReflTransGen SchedStep (commonCpuInitTasks bareCpu 0x10 0x20) s' ∧
      Linked s'.runnableNode s'.cpu.runnableTasks.runnables [0x30, 0x40] ∧ Turns 0x40 s' 2 true s'' ∧
      s''.cpu.current = 0x40 ∧ ∃ s₃, SchedOp.exit.exec s'' = .ok s₃ := by
  let s₀ := commonCpuInitTasks bareCpu 0x10 0x20
  let s₁ := okOr bareCpu ((SchedOp.create 0x30 0).exec s₀)
  let s₂ := okOr bareCpu ((SchedOp.create 0x40 0).exec s₁)
  let s₃ := okOr bareCpu (SchedOp.switch.exec s₂)
  let s₄ := okOr bareCpu (SchedOp.switch.exec s₃)
  have hboot : BootState bareCpu 0x10 0x20 :=
    ⟨by decide, by decide, rfl, fun _ => rfl, by decide, by decide, by decide⟩
  have h₁ : SchedStep s₀ s₁ := ⟨.create 0x30 0, by decide +kernel, eq_ok_of_isOk _ (by decide +kernel)⟩
  have h₂ : SchedStep s₁ s₂ := ⟨.create 0x40 0, by decide +kernel, eq_ok_of_isOk _ (by decide +kernel)⟩
  have hreach := (Relation.ReflTransGen.single h₁).tail h₂
  have hqueue : Linked s₂.runnableNode s₂.cpu.runnableTasks.runnables [0x30, 0x40] := by
    refine ⟨?_, by decide +kernel, by decide⟩
    simp only [NodeSeg, DSeg]
    decide +kernel
  have hfirst : Turns 0x40 s₂ 1 false s₃ :=
    Turns.start.then .switch trivial SchedOp.noConfusion (eq_ok_of_isOk _ (by decide +kernel)) (by decide +kernel)
      (by decide +kernel)
  have hsecond : Turns 0x40 s₂ 2 true s₄ :=
    hfirst.then .switch trivial SchedOp.noConfusion (eq_ok_of_isOk _ (by decide +kernel)) (by decide +kernel)
      (by decide +kernel)
  obtain ⟨-, hreturns⟩ := round_robin_bounded_waiting (k := 1) hboot hreach hqueue rfl (by decide +kernel) hsecond
  exact ⟨s₂, s₄, hreach, hqueue, hsecond, by decide +kernel, hreturns .exit (by decide +kernel)⟩

end KaworuOS.Proofs
