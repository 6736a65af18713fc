import KaworuOS.Proofs.ProcessLife

/-!
# Run queues during exit, cleanup and `wait4`

In every run, whatever the order of its steps, a task on a run queue is ready: a dead one is on none.
-/

namespace KaworuOS.Proofs
open Lib

/-- In the loop of `sys_wait4`, or before the wake-up of `sys_exit`. -/
def Waits : LifePc → Prop
  | .loop | .scan _ _ | .enqueue | .block | .switch | .wake => True
  | _ => False

/-- What is true of a task on the run queue of `c`. -/
structure OnRunQueue (cpus : Nat → Prop) (s : Smp) (c t : Nat) : Prop where
  ne_zero : t ≠ 0
  state : (s.task t).state = .READY
  cpu : (s.task t).cpu = c
  plain : cpus c → t ≠ s.idle c ∧ t ≠ s.cleanupTask c

/-- Run queues, current tasks and program counters agree. -/
structure LifeSched (cpus : Nat → Prop) (s : Life) : Prop where
  special : ∀ c, cpus c → ((s.smp.task (s.smp.idle c)).process = 0 ∧ s.smp.idle c ≠ 0) ∧
    (s.smp.task (s.smp.cleanupTask c)).process = 0 ∧ s.smp.cleanupTask c ≠ 0
  null : (s.smp.task 0).process = 0
  current_ne : ∀ c, cpus c → s.smp.current c ≠ 0
  current_cpu : ∀ c, cpus c → (s.smp.task (s.smp.current c)).cpu = c
  running : ∀ c, cpus c → s.phase c ≠ .pick → s.pc (s.smp.current c) ≠ .switch →
    (s.smp.task (s.smp.current c)).state = .RUNNING ∨ (s.smp.task (s.smp.current c)).state = .DEAD
  queued : ∀ c, ∀ t ∈ s.smp.runQueue c, OnRunQueue cpus s.smp c t
  nodup : ∀ c, (s.smp.runQueue c).Nodup
  blocked : ∀ t, (s.smp.task t).state = .BLOCKED → (s.smp.task t).process ≠ 0
  waits : ∀ t, Waits (s.pc t) → (s.smp.task t).process ≠ 0

variable {cpus : Nat → Prop} {s s' : Life} {c cur p t : Nat}

/-- What every step leaves alone. -/
structure Fixed (s s' : Smp) : Prop where
  cpu : ∀ t, (s'.task t).cpu = (s.task t).cpu
  process : ∀ t, (s'.task t).process = (s.task t).process
  idle : s'.idle = s.idle
  cleanupTask : s'.cleanupTask = s.cleanupTask

lemma LifeSched.special_of_fixed (h : LifeSched cpus s) {smp : Smp} (hf : Fixed s.smp smp) (c : Nat) (hc : cpus c) :
    ((smp.task (smp.idle c)).process = 0 ∧ smp.idle c ≠ 0) ∧
      (smp.task (smp.cleanupTask c)).process = 0 ∧ smp.cleanupTask c ≠ 0 := by
  rw [hf.process, hf.process, hf.idle, hf.cleanupTask]
  exact h.special c hc

lemma OnRunQueue.of_fixed {smp smp' : Smp} (h : OnRunQueue cpus smp c t) (hf : Fixed smp smp')
    (hst : (smp'.task t).state = .READY) : OnRunQueue cpus smp' c t := by
  refine ⟨h.ne_zero, hst, (hf.cpu t).trans h.cpu, ?_⟩
  rw [hf.idle, hf.cleanupTask]
  exact h.plain

lemma LifeSched.move (h : LifeSched cpus s) {pc : LifePc} {smp : Smp} (hsmp : s'.smp = smp)
    (hpc : s'.pc = Function.update s.pc cur pc) (hphase : s'.phase = s.phase) (hf : Fixed s.smp smp)
    (hrun : smp.runQueue = s.smp.runQueue) (hcurrent : smp.current = s.smp.current)
    (hother : ∀ t, t ≠ cur → (smp.task t).state = (s.smp.task t).state)
    (hnot : (∀ c, cur ∉ s.smp.runQueue c) ∨ (smp.task cur).state = (s.smp.task cur).state)
    (hstate : pc ≠ .switch → s.pc cur ≠ .switch ∧
      ((smp.task cur).state = (s.smp.task cur).state ∨ (smp.task cur).state = .DEAD))
    (hblocked : (smp.task cur).state = .BLOCKED → (s.smp.task cur).process ≠ 0)
    (hwaits : Waits pc → (s.smp.task cur).process ≠ 0) : LifeSched cpus s' := by
  subst hsmp
  refine ⟨h.special_of_fixed hf, ?_, ?_, ?_, ?_, ?_, ?_, ?_, ?_⟩
  · rw [hf.process]
    exact h.null
  · rw [hcurrent]
    exact h.current_ne
  · intro d hd
    rw [hcurrent, hf.cpu]
    exact h.current_cpu d hd
  · intro d hd hphase' hpc'
    rw [hcurrent] at hpc' ⊢
    rw [hphase] at hphase'
    rw [hpc] at hpc'
    rcases eq_or_ne (s.smp.current d) cur with heq | hne
    · rw [heq, Function.update_self] at hpc'
      obtain ⟨hswitch, hsame | hdead⟩ := hstate hpc'
      · rw [heq, hsame, ← heq]
        exact h.running d hd hphase' (by rw [heq]; exact hswitch)
      · rw [heq]
        exact .inr hdead
    · rw [Function.update_of_ne hne] at hpc'
      rw [hother _ hne]
      exact h.running d hd hphase' hpc'
  · intro d t ht
    rw [hrun] at ht
    have hq := h.queued d t ht
    refine hq.of_fixed hf ?_
    rcases eq_or_ne t cur with rfl | hne
    · rcases hnot with hnot | hsame
      · exact absurd ht (hnot d)
      · rw [hsame]
        exact hq.state
    · rw [hother t hne]
      exact hq.state
  · rw [hrun]
    exact h.nodup
  · intro t ht
    rw [hf.process]
    rcases eq_or_ne t cur with rfl | hne
    · exact hblocked ht
    · rw [hother t hne] at ht
      exact h.blocked t ht
  · intro t ht
    rw [hf.process]
    rw [hpc] at ht
    rcases eq_or_ne t cur with rfl | hne
    · rw [Function.update_self] at ht
      exact hwaits ht
    · rw [Function.update_of_ne hne] at ht
      exact h.waits t ht

lemma fixed_refl (s : Smp) : Fixed s s := ⟨fun _ => rfl, fun _ => rfl, rfl, rfl⟩

lemma LifeSched.goOn (h : LifeSched cpus s) {pc : LifePc} (hpc : s'.pc = Function.update s.pc cur pc)
    (hphase : s'.phase = s.phase) (hf : Fixed s.smp s'.smp) (hrun : s'.smp.runQueue = s.smp.runQueue)
    (hcurrent : s'.smp.current = s.smp.current) (hstate : ∀ t, (s'.smp.task t).state = (s.smp.task t).state)
    (hold : s.pc cur ≠ .switch) (hwaits : Waits pc → (s.smp.task cur).process ≠ 0) : LifeSched cpus s' := by
  refine h.move rfl hpc hphase hf hrun hcurrent (fun t _ => hstate t) (.inr (hstate cur))
    (fun _ => ⟨hold, .inl (hstate cur)⟩) ?_ hwaits
  intro hblocked
  rw [hstate] at hblocked
  exact h.blocked cur hblocked

lemma LifeSched.not_queued (h : LifeSched cpus s) (hc : cpus c) (hphase : s.phase c = .run)
    (hpc : s.pc (s.smp.current c) ≠ .switch) (d : Nat) : s.smp.current c ∉ s.smp.runQueue d := by
  intro hin
  have hready := (h.queued d _ hin).state
  rcases h.running c hc (by rw [hphase]; decide) hpc with hst | hst <;> rw [hst] at hready <;> cases hready

lemma LifeSched.wake (h : LifeSched cpus s) {wq : Nat} (hw : Woken wq (s.smp.waitQueue wq) s.smp s'.smp)
    (hpc : s.pc cur = .wake) (hpc' : s'.pc = Function.update s.pc cur .exit) (hphase : s'.phase = s.phase) :
    LifeSched cpus s' := by
  have hf : Fixed s.smp s'.smp := ⟨hw.cpu, hw.process, hw.idle, hw.cleanupTask⟩
  have hready : ∀ d, ∀ t ∈ s.smp.runQueue d, t ∉ s.smp.waitQueue wq := by
    intro d t ht hin
    have hst := (h.queued d t ht).state
    rw [hw.blocked t hin] at hst
    cases hst
  refine ⟨h.special_of_fixed hf, (hw.process 0).trans h.null, ?_, ?_, ?_, ?_, ?_, ?_, ?_⟩
  · rw [hw.current]
    exact h.current_ne
  · intro d hd
    rw [hw.current, hw.cpu]
    exact h.current_cpu d hd
  · intro d hd hphase' hne
    rw [hphase] at hphase'
    rw [hw.current] at hne ⊢
    have hrun : s.pc (s.smp.current d) ≠ .switch := by
      rcases eq_or_ne (s.smp.current d) cur with heq | hcur
      · rw [heq, hpc]
        decide
      · rwa [hpc', Function.update_of_ne hcur] at hne
    have hst := h.running d hd hphase' hrun
    have hnotin : s.smp.current d ∉ s.smp.waitQueue wq := by
      intro hin
      rw [hw.blocked _ hin] at hst
      rcases hst with hst | hst <;> cases hst
    rw [hw.other _ hnotin]
    exact hst
  · intro d t ht
    rw [hw.runQueue, List.mem_append] at ht
    rcases ht with ht | ht
    · refine (h.queued d t ht).of_fixed hf ?_
      rw [hw.other t (hready d t ht)]
      exact (h.queued d t ht).state
    · obtain ⟨hin, hcpu⟩ := List.mem_filter.mp ht
      have hprocess := h.blocked t (hw.blocked t hin)
      refine ⟨?_, (hw.woken t hin).1, (hw.cpu t).trans (of_decide_eq_true hcpu), ?_⟩
      · rintro rfl
        exact hprocess h.null
      · intro hd
        rw [hw.idle, hw.cleanupTask]
        obtain ⟨⟨h1, -⟩, h2, -⟩ := h.special d hd
        exact ⟨fun heq => hprocess (heq ▸ h1), fun heq => hprocess (heq ▸ h2)⟩
  · intro d
    rw [hw.runQueue]
    refine List.nodup_append.mpr ⟨h.nodup d, hw.nodup.filter _, ?_⟩
    rintro a ha b hb rfl
    exact hready d a ha (List.mem_filter.mp hb).1
  · intro t ht
    have hnotin : t ∉ s.smp.waitQueue wq := by
      intro hin
      rw [(hw.woken t hin).1] at ht
      cases ht
    rw [hw.other t hnotin] at ht ⊢
    exact h.blocked t ht
  · intro t ht
    rw [hw.process]
    rw [hpc'] at ht
    rcases eq_or_ne t cur with rfl | hne
    · rw [Function.update_self] at ht
      exact absurd ht id
    · rw [Function.update_of_ne hne] at ht
      exact h.waits t ht

lemma LifeSched.putBack (h : LifeSched cpus s) (hc : cpus c) (hput : s.smp.putBackPrev c = .ok s'.smp)
    (hphase : s'.phase = Function.update s.phase c .pick) (hpc : ∀ t, t ≠ s.smp.current c → s'.pc t = s.pc t)
    (hwaits : Waits (s'.pc (s.smp.current c)) → (s.smp.task (s.smp.current c)).process ≠ 0) : LifeSched cpus s' := by
  obtain ⟨hcalm, hcurrent⟩ := calm_putBackPrev hput
  have hf : Fixed s.smp s'.smp := ⟨hcalm.cpu, hcalm.process, hcalm.idle, hcalm.cleanupTask⟩
  have hcases := putBackPrev_ok hput
  have hstate : ∀ t, t ≠ s.smp.current c → (s'.smp.task t).state = (s.smp.task t).state := by
    intro t ht
    rcases hcases with ⟨heq, -⟩ | ⟨-, -, -, -, -, heq⟩ <;> rw [heq]
    exact congrArg Task.state (Smp.setState_other _ _ _ ht)
  have hunique : ∀ d, cpus d → d ≠ c → s.smp.current d ≠ s.smp.current c := by
    intro d hd hne heq
    have h1 := h.current_cpu d hd
    rw [heq, h.current_cpu c hc] at h1
    exact hne h1.symm
  -- a task that is put back was running, and so on no queue
  have hqueues : (∀ d, ∀ t ∈ s'.smp.runQueue d, OnRunQueue cpus s'.smp d t) ∧ ∀ d, (s'.smp.runQueue d).Nodup := by
    rcases hcases with ⟨heq, -⟩ | ⟨hne, hrun, hcpu, hidle, hcleanup, heq⟩
    · rw [heq]
      exact ⟨h.queued, h.nodup⟩
    · have hnotin : ∀ d, s.smp.current c ∉ s.smp.runQueue d := by
        intro d hin
        have hready := (h.queued d _ hin).state
        rw [hrun] at hready
        cases hready
      have hqueue : s'.smp.runQueue = Function.update s.smp.runQueue c (s.smp.runQueue c ++ [s.smp.current c]) := by
        rw [heq]
        rfl
      have hold : ∀ d, ∀ u ∈ s.smp.runQueue d, OnRunQueue cpus s'.smp d u := by
        intro d u hu
        refine (h.queued d u hu).of_fixed hf ?_
        rw [hstate u (fun heq => hnotin d (heq ▸ hu))]
        exact (h.queued d u hu).state
      have hnew : OnRunQueue cpus s'.smp c (s.smp.current c) := by
        refine ⟨hne, ?_, (hf.cpu _).trans hcpu, ?_⟩
        · rw [heq]
          exact congrArg Task.state (Smp.setState_self ..)
        · rw [hf.idle, hf.cleanupTask]
          exact fun _ => ⟨hidle, hcleanup⟩
      rw [hqueue]
      constructor
      · refine forall_update (P := fun d l => ∀ u ∈ l, OnRunQueue cpus s'.smp d u) hold ?_
        intro u hu
        rcases List.mem_append.mp hu with hu | hu
        · exact hold c u hu
        · obtain rfl := List.mem_singleton.mp hu
          exact hnew
      · exact forall_update (P := fun _ l => l.Nodup) h.nodup (nodup_concat (h.nodup c) (hnotin c))
  refine ⟨h.special_of_fixed hf, (hcalm.process 0).trans h.null, ?_, ?_, ?_, hqueues.1, hqueues.2, ?_, ?_⟩
  · rw [hcurrent]
    exact h.current_ne
  · intro d hd
    rw [hcurrent, hcalm.cpu]
    exact h.current_cpu d hd
  · intro d hd hphase' hne'
    rcases eq_or_ne d c with rfl | hne
    · rw [hphase, Function.update_self] at hphase'
      exact absurd rfl hphase'
    · rw [hphase, Function.update_of_ne hne] at hphase'
      rw [hcurrent] at hne' ⊢
      rw [hpc _ (hunique d hd hne)] at hne'
      rw [hstate _ (hunique d hd hne)]
      exact h.running d hd hphase' hne'
  · intro t ht
    rw [hcalm.process]
    exact h.blocked t (hcalm.blocked t ht)
  · intro t ht
    rw [hcalm.process]
    rcases eq_or_ne t (s.smp.current c) with rfl | hne
    · exact hwaits ht
    · rw [hpc t hne] at ht
      exact h.waits t ht

/-- The run queues are in order. -/
structure Queues (cpus : Nat → Prop) (s : Smp) : Prop where
  queued : ∀ c, ∀ t ∈ s.runQueue c, OnRunQueue cpus s c t
  nodup : ∀ c, (s.runQueue c).Nodup

/-- What the choice of the next task gives. -/
structure Chosen (cpus : Nat → Prop) (c : Nat) (s : Smp) (next : Nat) (s' : Smp) : Prop where
  queues : Queues cpus s'
  state : ∀ t, (s'.task t).state = (s.task t).state ∨ (s'.task t).state = .DEAD
  ne_zero : next ≠ 0
  not_queued : next ∉ s'.runQueue c

lemma Queues.dequeue {smp smp' : Smp} {next : Nat} {rest : List Nat} (h : Queues cpus smp)
    (hq : smp.runQueue c = next :: rest) (hf : Fixed smp smp')
    (hrun : smp'.runQueue = Function.update smp.runQueue c rest)
    (hother : ∀ t, t ≠ next → (smp'.task t).state = (smp.task t).state) : Queues cpus smp' ∧ next ∉ rest := by
  have hnodup := h.nodup c
  rw [hq] at hnodup
  obtain ⟨hnotin, hrest⟩ := List.nodup_cons.mp hnodup
  have hcpu : (smp.task next).cpu = c := (h.queued c next (by rw [hq]; exact List.mem_cons_self)).cpu
  refine ⟨⟨?_, ?_⟩, hnotin⟩ <;> intro d <;> rw [hrun] <;> rcases eq_or_ne d c with rfl | hd
  · intro t ht
    rw [Function.update_self] at ht
    have hold := h.queued d t (by rw [hq]; exact List.mem_cons_of_mem next ht)
    refine hold.of_fixed hf ?_
    rw [hother t (fun heq => hnotin (heq ▸ ht))]
    exact hold.state
  · intro t ht
    rw [Function.update_of_ne hd] at ht
    have hold := h.queued d t ht
    refine hold.of_fixed hf ?_
    rw [hother t (fun heq => hd (hold.cpu.symm.trans (heq ▸ hcpu)))]
    exact hold.state
  · rw [Function.update_self]
    exact hrest
  · rw [Function.update_of_ne hd]
    exact h.nodup d

lemma pickNextLoop_chosen (queue : List Nat) {smp : Smp} (hq : smp.runQueue c = queue)
    (h : Queues cpus smp) (hidle : smp.idle c ≠ 0) :
    Chosen cpus c smp (Smp.pickNextLoop c queue smp).1 (Smp.pickNextLoop c queue smp).2 := by
  induction queue generalizing smp with
  | nil =>
    have hsame : smp.setRunQueue c [] = smp := by
      unfold Smp.setRunQueue
      rw [← hq, Function.update_eq_self]
    unfold Smp.pickNextLoop
    rw [hsame]
    refine ⟨h, fun _ => .inl rfl, hidle, ?_⟩
    rw [hq]
    exact List.not_mem_nil
  | cons next rest ih =>
    have hhead := h.queued c next (by rw [hq]; exact List.mem_cons_self)
    unfold Smp.pickNextLoop
    split
    · set smp₁ := ((smp.setRunQueue c rest).setState next .DEAD).setNeedsCleanup c true with hsmp₁
      have hother : ∀ t, t ≠ next → smp₁.task t = smp.task t := fun t ht => Smp.setState_other _ _ _ ht
      have hself : (smp₁.task next).state = .DEAD := congrArg Task.state (Smp.setState_self ..)
      have hf : Fixed smp smp₁ := ⟨fun _ => Smp.setState_cpu .., fun _ => Smp.setState_process .., rfl, rfl⟩
      obtain ⟨hqueues, -⟩ := h.dequeue hq hf rfl (fun t ht => congrArg Task.state (hother t ht))
      have hrest : smp₁.runQueue c = rest := Smp.setRunQueue_self smp c rest
      obtain ⟨h1, h2, h3, h4⟩ := ih hrest hqueues hidle
      refine ⟨h1, ?_, h3, h4⟩
      intro t
      rcases h2 t with hst | hst
      · rw [hst]
        rcases eq_or_ne t next with rfl | ht
        · exact .inr hself
        · exact .inl (congrArg Task.state (hother t ht))
      · exact .inr hst
    · have hdequeue : Queues cpus (smp.setRunQueue c rest) ∧ next ∉ rest :=
        h.dequeue hq ⟨fun _ => rfl, fun _ => rfl, rfl, rfl⟩ rfl (fun _ _ => rfl)
      obtain ⟨hqueues, hnotin⟩ := hdequeue
      refine ⟨hqueues, fun _ => .inl rfl, hhead.ne_zero, ?_⟩
      show next ∉ (smp.setRunQueue c rest).runQueue c
      rw [Smp.setRunQueue_self]
      exact hnotin

lemma LifeSched.chosen (h : LifeSched cpus s) (hc : cpus c) :
    Chosen cpus c s.smp (s.smp.schedulerPickNext c).1 (s.smp.schedulerPickNext c).2 := by
  obtain ⟨⟨-, hidle⟩, -, hcleanup⟩ := h.special c hc
  unfold Smp.schedulerPickNext
  split
  · refine ⟨⟨h.queued, h.nodup⟩, fun _ => .inl rfl, hcleanup, ?_⟩
    intro hin
    exact ((h.queued c _ hin).plain hc).2 rfl
  · exact pickNextLoop_chosen _ rfl ⟨h.queued, h.nodup⟩ hidle

lemma LifeSched.pick (h : LifeSched cpus s) (hc : cpus c) {phase : Phase}
    (hswitch : (s.smp.schedulerPickNext c).2.switchTo c (s.smp.current c) (s.smp.schedulerPickNext c).1 = .ok s'.smp)
    (hphase : s'.phase = Function.update s.phase c phase) (hpc : s'.pc = s.pc) : LifeSched cpus s' := by
  obtain ⟨hqueues, hstate, hne, hnotin⟩ := h.chosen hc
  obtain ⟨hcalm, hcurrent, -⟩ := schedulerPickNext_effect s.smp c
  obtain ⟨heq, hcpu, -⟩ := switchTo_ok hswitch
  set next := (s.smp.schedulerPickNext c).1 with hnext
  set smp := (s.smp.schedulerPickNext c).2 with hsmp
  have hf : Fixed s.smp s'.smp := by
    rw [heq]
    exact ⟨fun t => (Smp.setState_cpu ..).trans (hcalm.cpu t),
      fun t => (Smp.setState_process ..).trans (hcalm.process t),
      hcalm.idle, hcalm.cleanupTask⟩
  have hself : (s'.smp.task next).state = .RUNNING := by
    rw [heq]
    exact congrArg Task.state (Smp.setState_self ..)
  have hother : ∀ t, t ≠ next → (s'.smp.task t).state = (smp.task t).state := by
    intro t ht
    rw [heq]
    exact congrArg Task.state (Smp.setState_other _ _ _ ht)
  have hrun : s'.smp.runQueue = smp.runQueue := by rw [heq]; rfl
  have hcur : s'.smp.current = Function.update s.smp.current c next := by
    rw [heq, ← hcurrent]
    rfl
  have hfree : ∀ d, next ∉ smp.runQueue d := by
    intro d hin
    have hd := (hqueues.queued d next hin).cpu
    rw [hcpu] at hd
    exact hnotin (hd ▸ hin)
  refine ⟨h.special_of_fixed hf, (hf.process 0).trans h.null, ?_, ?_, ?_, ?_, ?_, ?_, ?_⟩
  · intro d hd
    rw [hcur]
    rcases eq_or_ne d c with rfl | hdc
    · rwa [Function.update_self]
    · rw [Function.update_of_ne hdc]
      exact h.current_ne d hd
  · intro d hd
    rw [hcur, hf.cpu]
    rcases eq_or_ne d c with rfl | hdc
    · rw [Function.update_self, ← hcalm.cpu]
      exact hcpu
    · rw [Function.update_of_ne hdc]
      exact h.current_cpu d hd
  · intro d hd hphase' hpc'
    rw [hcur] at hpc' ⊢
    rcases eq_or_ne d c with rfl | hdc
    · rw [Function.update_self]
      exact .inl hself
    · rw [Function.update_of_ne hdc] at hpc' ⊢
      rw [hphase, Function.update_of_ne hdc] at hphase'
      rw [hpc] at hpc'
      by_cases hnext' : s.smp.current d = next
      · rw [hnext']
        exact .inl hself
      · rw [hother _ hnext']
        rcases hstate (s.smp.current d) with hst | hst
        · rw [hst]
          exact h.running d hd hphase' hpc'
        · exact .inr hst
  · intro d t ht
    rw [hrun] at ht
    have hq := hqueues.queued d t ht
    refine ⟨hq.ne_zero, ?_, ?_, ?_⟩
    · rw [hother t (fun h' => hfree d (h' ▸ ht))]
      exact hq.state
    · rw [hf.cpu, ← hcalm.cpu]
      exact hq.cpu
    · rw [hf.idle, hf.cleanupTask, ← hcalm.idle, ← hcalm.cleanupTask]
      exact hq.plain
  · rw [hrun]
    exact hqueues.nodup
  · intro t ht
    rw [hf.process]
    have htn : t ≠ next := by
      rintro rfl
      rw [hself] at ht
      cases ht
    rw [hother t htn] at ht
    exact h.blocked t (hcalm.blocked t ht)
  · intro t ht
    rw [hf.process]
    rw [hpc] at ht
    exact h.waits t ht

lemma LifeSched.next (h : LifeSched cpus s) (hc : cpus c) (hphase : s.phase c = .run)
    (hnext : LifeNext s c (s.smp.current c) (s.smp.task (s.smp.current c)).process s') : LifeSched cpus s' := by
  have hold : ∀ {pc : LifePc}, s.pc (s.smp.current c) = pc → pc ≠ .switch → s.pc (s.smp.current c) ≠ .switch :=
    fun hpc hne => by rwa [hpc]
  have hwaits : ∀ {pc : LifePc}, s.pc (s.smp.current c) = pc → Waits pc → (s.smp.task (s.smp.current c)).process ≠ 0 :=
    fun hpc hw => h.waits _ (by rwa [hpc])
  cases hnext
  case wait4 hpc hp =>
    exact h.goOn rfl rfl (fixed_refl _) rfl rfl (fun _ => rfl) (hold hpc (by simp)) (fun _ => hp)
  case exit hpc hp status =>
    exact h.goOn rfl rfl ⟨fun _ => rfl, fun _ => rfl, rfl, rfl⟩ rfl rfl (fun _ => rfl) (hold hpc (by simp))
      (fun _ => hp)
  case loop hpc =>
    exact h.goOn rfl rfl (fixed_refl _) rfl rfl (fun _ => rfl) (hold hpc (by simp)) (fun _ => hwaits hpc trivial)
  case zombie hpc hz copied =>
    refine h.goOn rfl rfl (fixed_refl _) rfl rfl (fun _ => rfl) (hold hpc (by simp)) ?_
    intro _
    exact hwaits hpc trivial
  case alive hpc hz =>
    exact h.goOn rfl rfl (fixed_refl _) rfl rfl (fun _ => rfl) (hold hpc (by simp)) (fun _ => hwaits hpc trivial)
  case scanned hpc =>
    exact h.goOn rfl rfl (fixed_refl _) rfl rfl (fun _ => rfl) (hold hpc (by simp)) (fun _ => hwaits hpc trivial)
  case enqueue hpc =>
    exact h.goOn rfl rfl ⟨fun t => Smp.setWaitingOn_cpu .., fun t => Smp.setWaitingOn_process .., rfl, rfl⟩ rfl rfl
      (fun t => Smp.setWaitingOn_state ..) (hold hpc (by simp)) (fun _ => hwaits hpc trivial)
  case block hpc hst hwait =>
    refine h.move rfl rfl rfl ⟨fun t => Smp.setState_cpu .., fun t => Smp.setState_process .., rfl, rfl⟩ rfl rfl
      (fun t ht => congrArg Task.state (Smp.setState_other _ _ _ ht)) (.inl ?_) (fun hne => absurd rfl hne)
      (fun _ => hwaits hpc trivial) (fun _ => hwaits hpc trivial)
    exact h.not_queued hc hphase (hold hpc (by simp))
  case wake hpc smp hparent hw => exact h.wake hw hpc rfl rfl
  case setDead hpc =>
    have hself : ((s.smp.setState (s.smp.current c) .DEAD).task (s.smp.current c)).state = .DEAD :=
      congrArg Task.state (Smp.setState_self ..)
    refine h.move rfl rfl rfl ⟨fun t => Smp.setState_cpu .., fun t => Smp.setState_process .., rfl, rfl⟩ rfl rfl
      (fun t ht => congrArg Task.state (Smp.setState_other _ _ _ ht)) (.inl ?_)
      (fun _ => ⟨hold hpc (by simp), .inr hself⟩) ?_ (fun hw => absurd hw id)
    · exact h.not_queued hc hphase (hold hpc (by simp))
    · intro hblocked
      cases hself.symm.trans hblocked
  case leave pc hpc smp hput =>
    refine h.putBack hc hput rfl (fun t ht => Function.update_of_ne ht ..) ?_
    intro hw
    change Waits (Function.update s.pc (s.smp.current c) pc (s.smp.current c)) at hw
    rw [Function.update_self] at hw
    rcases hpc with ⟨hpc, rfl⟩ | ⟨hpc, rfl⟩ | ⟨hpc, rfl⟩
    · exact hwaits hpc trivial
    · exact absurd hw id
    · exact absurd hw id
  case timer hpc smp hput => exact h.putBack hc hput rfl (fun _ _ => rfl) (fun hw => h.waits _ hw)
  case taskExit hpc =>
    exact h.goOn rfl rfl ⟨fun _ => rfl, fun _ => rfl, rfl, rfl⟩ rfl rfl (fun _ => rfl) (hold hpc (by simp))
      (fun hw => absurd hw id)
  case nothing hpc hfind =>
    exact h.goOn rfl rfl ⟨fun _ => rfl, fun _ => rfl, rfl, rfl⟩ rfl rfl (fun _ => rfl) (hold hpc (by simp))
      (fun hw => absurd hw id)
  case remove hpc =>
    refine h.goOn rfl rfl (fixed_refl _) rfl rfl (fun _ => rfl) (hold hpc (by simp)) ?_
    intro hw
    split at hw <;> exact absurd hw id
  all_goals
    rename s.pc (s.smp.current c) = _ => hpc
    exact h.goOn rfl rfl (fixed_refl _) rfl rfl (fun _ => rfl) (hold hpc (by simp)) (fun hw => absurd hw id)

lemma LifeSched.case (h : LifeSched cpus s) (hc : cpus c) (hcase : LifeCase s c s') : LifeSched cpus s' := by
  cases hcase with
  | task hphase hnext => exact h.next hc hphase hnext
  | pick hphase hswitch => exact h.pick hc hswitch rfl rfl
  | resume hphase =>
    refine { h with running := ?_ }
    intro d hd hne hpc
    refine h.running d hd ?_ hpc
    rcases eq_or_ne d c with rfl | hdc
    · rw [hphase]
      simp
    · exact fun heq => hne ((Function.update_of_ne hdc ..).trans heq)

end KaworuOS.Proofs
