import KaworuOS.Smp
import KaworuOS.Lib.Outcome
import Mathlib.Data.List.Nodup

/-!
# Tasks, queues and CPUs agree

`cpus` is the set of the CPUs. A task on a run queue is ready; a task on a wait queue is blocked, or
still running when it has just been put there.
-/

namespace KaworuOS.Proofs
open Lib

/-- The task is one of the two that its CPU owns, idle or cleanup. -/
def Special (s : Smp) (t : Nat) : Prop :=
  t = s.idle (s.task t).cpu ∨ t = s.cleanupTask (s.task t).cpu

/-- What is true of a CPU. -/
structure CpuOk (s : Smp) (c : Nat) : Prop where
  ne_zero : c ≠ 0
  idle_ne_zero : s.idle c ≠ 0
  idle_cpu : (s.task (s.idle c)).cpu = c
  cleanup_ne_zero : s.cleanupTask c ≠ 0
  cleanup_cpu : (s.task (s.cleanupTask c)).cpu = c
  cleanup_ne_idle : s.cleanupTask c ≠ s.idle c
  current_cpu : s.current c ≠ 0 → (s.task (s.current c)).cpu = c

/-- What is true of a task on the run queue of `c`. -/
structure Queued (s : Smp) (c t : Nat) : Prop where
  ne_zero : t ≠ 0
  cpu : (s.task t).cpu = c
  state : (s.task t).state = .READY
  not_special : ¬Special s t

/-- What is true of a task on the wait queue `wq`. -/
structure Waiter (s : Smp) (wq t : Nat) : Prop where
  ne_zero : t ≠ 0
  queue_ne_zero : wq ≠ 0
  waitingOn : (s.task t).waitingOn = wq
  state : (s.task t).state = .BLOCKED ∨ (s.task t).state = .RUNNING

/-- The fields of one task agree with the queues and the CPUs. -/
structure TaskOk (cpus : Nat → Prop) (s : Smp) (t : Nat) : Prop where
  queued : ∀ c, t ∈ s.runQueue c → Queued s c t
  waiter : ∀ wq, t ∈ s.waitQueue wq → Waiter s wq t
  waiting : (s.task t).waitingOn ≠ 0 → t ∈ s.waitQueue (s.task t).waitingOn
  running : t ≠ 0 → (s.task t).state = .RUNNING → ¬Special s t → s.current (s.task t).cpu = t
  blocked_cpu : (s.task t).state = .BLOCKED → cpus (s.task t).cpu
  special : Special s t → cpus (s.task t).cpu → (s.task t).waitingOn = 0 ∧ (s.task t).state ≠ .BLOCKED

/-- Tasks, queues and CPUs agree. -/
structure SmpInv (cpus : Nat → Prop) (s : Smp) : Prop where
  cpu : ∀ c, cpus c → CpuOk s c
  task : ∀ t, TaskOk cpus s t
  nodup : ∀ c, (s.runQueue c).Nodup
  wait_nodup : ∀ wq, (s.waitQueue wq).Nodup

/-- What no step changes. -/
structure Static (s s' : Smp) : Prop where
  cpu : ∀ t, (s'.task t).cpu = (s.task t).cpu
  idle : s'.idle = s.idle
  cleanupTask : s'.cleanupTask = s.cleanupTask

/-- What a switch on `c` leaves alone. -/
structure Frame (c : Nat) (s s' : Smp) : Prop where
  cpu : ∀ t, (s'.task t).cpu = (s.task t).cpu
  waitingOn : ∀ t, (s'.task t).waitingOn = (s.task t).waitingOn
  blocked : ∀ t, (s'.task t).state = .BLOCKED ↔ (s.task t).state = .BLOCKED
  other : ∀ t, (s.task t).cpu ≠ c → s'.task t = s.task t
  waitQueue : s'.waitQueue = s.waitQueue
  idle : s'.idle = s.idle
  cleanupTask : s'.cleanupTask = s.cleanupTask
  current : ∀ d, d ≠ c → s'.current d = s.current d

lemma Frame.refl (c : Nat) (s : Smp) : Frame c s s :=
  ⟨fun _ => rfl, fun _ => rfl, fun _ => Iff.rfl, fun _ _ => rfl, rfl, rfl, rfl, fun _ _ => rfl⟩

lemma Frame.trans {c : Nat} {s₁ s₂ s₃ : Smp} (h : Frame c s₁ s₂) (h' : Frame c s₂ s₃) : Frame c s₁ s₃ where
  cpu t := (h'.cpu t).trans (h.cpu t)
  waitingOn t := (h'.waitingOn t).trans (h.waitingOn t)
  blocked t := (h'.blocked t).trans (h.blocked t)
  other t ht := (h'.other t (by rw [h.cpu]; exact ht)).trans (h.other t ht)
  waitQueue := h'.waitQueue.trans h.waitQueue
  idle := h'.idle.trans h.idle
  cleanupTask := h'.cleanupTask.trans h.cleanupTask
  current d hd := (h'.current d hd).trans (h.current d hd)

namespace Smp

variable (s : Smp) (t u c wq : Nat) (state : TaskState) (queue : List Nat)

lemma setState_self : (s.setState t state).task t = { s.task t with state := state } := Function.update_self ..

lemma setState_other {u : Nat} (h : u ≠ t) : (s.setState t state).task u = s.task u := Function.update_of_ne h ..

@[simp] lemma setState_cpu : ((s.setState t state).task u).cpu = (s.task u).cpu := by
  by_cases h : u = t
  · rw [h, setState_self]
  · rw [setState_other s t state h]

@[simp] lemma setState_waitingOn : ((s.setState t state).task u).waitingOn = (s.task u).waitingOn := by
  by_cases h : u = t
  · rw [h, setState_self]
  · rw [setState_other s t state h]

@[simp] lemma setState_process : ((s.setState t state).task u).process = (s.task u).process := by
  by_cases h : u = t
  · rw [h, setState_self]
  · rw [setState_other s t state h]

lemma setWaitingOn_self : (s.setWaitingOn t wq).task t = { s.task t with waitingOn := wq } := Function.update_self ..

lemma setWaitingOn_other {u : Nat} (h : u ≠ t) : (s.setWaitingOn t wq).task u = s.task u :=
  Function.update_of_ne h ..

@[simp] lemma setWaitingOn_cpu : ((s.setWaitingOn t wq).task u).cpu = (s.task u).cpu := by
  by_cases h : u = t
  · rw [h, setWaitingOn_self]
  · rw [setWaitingOn_other s t wq h]

@[simp] lemma setWaitingOn_state : ((s.setWaitingOn t wq).task u).state = (s.task u).state := by
  by_cases h : u = t
  · rw [h, setWaitingOn_self]
  · rw [setWaitingOn_other s t wq h]

@[simp] lemma setWaitingOn_process : ((s.setWaitingOn t wq).task u).process = (s.task u).process := by
  by_cases h : u = t
  · rw [h, setWaitingOn_self]
  · rw [setWaitingOn_other s t wq h]

lemma setWaitingOn_same (h : (s.task t).waitingOn = wq) : s.setWaitingOn t wq = s := by
  subst h
  simp only [Smp.setWaitingOn, Smp.setTask]
  congr 1
  exact Function.update_eq_self t s.task

lemma setState_setState (state' : TaskState) : (s.setState t state).setState t state' = s.setState t state' := by
  unfold Smp.setState Smp.setTask
  simp only [Function.update_self, Function.update_idem]

lemma setRunQueue_self : (s.setRunQueue c queue).runQueue c = queue := Function.update_self ..

lemma setRunQueue_other {d : Nat} (h : d ≠ c) : (s.setRunQueue c queue).runQueue d = s.runQueue d :=
  Function.update_of_ne h ..

lemma setWaitQueue_self : (s.setWaitQueue wq queue).waitQueue wq = queue := Function.update_self ..

lemma setWaitQueue_other {d : Nat} (h : d ≠ wq) : (s.setWaitQueue wq queue).waitQueue d = s.waitQueue d :=
  Function.update_of_ne h ..

end Smp

variable {cpus : Nat → Prop} {s s' : Smp} {t u c wq : Nat}

lemma Static.special (h : Static s s') (u : Nat) : Special s' u ↔ Special s u := by
  unfold Special
  rw [h.cpu, h.idle, h.cleanupTask]

lemma CpuOk.congr (h : CpuOk s c) (hstatic : Static s s')
    (hcurrent : s'.current c = s.current c ∨ (s.task (s'.current c)).cpu = c) : CpuOk s' c where
  ne_zero := h.ne_zero
  idle_ne_zero := by
    rw [hstatic.idle]
    exact h.idle_ne_zero
  idle_cpu := by
    rw [hstatic.idle, hstatic.cpu]
    exact h.idle_cpu
  cleanup_ne_zero := by
    rw [hstatic.cleanupTask]
    exact h.cleanup_ne_zero
  cleanup_cpu := by
    rw [hstatic.cleanupTask, hstatic.cpu]
    exact h.cleanup_cpu
  cleanup_ne_idle := by
    rw [hstatic.cleanupTask, hstatic.idle]
    exact h.cleanup_ne_idle
  current_cpu hne := by
    rw [hstatic.cpu]
    rcases hcurrent with heq | hcpu
    · rw [heq] at hne ⊢
      exact h.current_cpu hne
    · exact hcpu

lemma TaskOk.congr (h : TaskOk cpus s u) (hstatic : Static s s') (htask : s'.task u = s.task u)
    (hrun : ∀ c, u ∈ s'.runQueue c → u ∈ s.runQueue c) (hwait : ∀ wq, u ∈ s'.waitQueue wq ↔ u ∈ s.waitQueue wq)
    (hcurrent : s.current (s.task u).cpu = u → u ≠ 0 → (s.task u).state = .RUNNING → ¬Special s u →
      s'.current (s.task u).cpu = u) : TaskOk cpus s' u where
  queued c hin := by
    obtain ⟨h1, h2, h3, h4⟩ := h.queued c (hrun c hin)
    exact ⟨h1, by rw [htask, h2], by rw [htask, h3], by rw [hstatic.special]; exact h4⟩
  waiter wq hin := by
    obtain ⟨h1, h2, h3, h4⟩ := h.waiter wq ((hwait wq).mp hin)
    exact ⟨h1, h2, by rw [htask, h3], by rw [htask]; exact h4⟩
  waiting hne := by
    rw [htask] at hne ⊢
    exact (hwait _).mpr (h.waiting hne)
  running hne hst hspecial := by
    rw [htask] at hst ⊢
    rw [hstatic.special] at hspecial
    exact hcurrent (h.running hne hst hspecial) hne hst hspecial
  blocked_cpu hst := by
    rw [htask] at hst ⊢
    exact h.blocked_cpu hst
  special hspecial hcpu := by
    rw [htask] at hcpu ⊢
    exact h.special ((hstatic.special u).mp hspecial) hcpu

lemma static_setState (s : Smp) (t : Nat) (state : TaskState) : Static s (s.setState t state) :=
  ⟨fun u => Smp.setState_cpu s t u state, rfl, rfl⟩

lemma nodup_concat {l : List Nat} (hl : l.Nodup) (ht : t ∉ l) : (l ++ [t]).Nodup := by
  rw [List.nodup_middle, List.append_nil]
  exact List.nodup_cons.mpr ⟨ht, hl⟩

lemma forall_update {P : Nat → List Nat → Prop} {queue : Nat → List Nat} {l : List Nat} (h : ∀ d, P d (queue d))
    (hl : P c l) (d : Nat) : P d (Function.update queue c l d) := by
  by_cases hd : d = c
  · subst hd
    rw [Function.update_self]
    exact hl
  · rw [Function.update_of_ne hd]
    exact h d

namespace SmpInv

lemma ready_waitingOn (h : SmpInv cpus s) (ht : (s.task t).state = .READY) : (s.task t).waitingOn = 0 := by
  by_contra hne
  rcases ((h.task t).waiter _ ((h.task t).waiting hne)).state with hst | hst <;> rw [ht] at hst <;> cases hst

lemma not_special_of_blocked (h : SmpInv cpus s) (ht : (s.task t).state = .BLOCKED) : ¬Special s t :=
  fun hspecial => ((h.task t).special hspecial ((h.task t).blocked_cpu ht)).2 ht

lemma not_waiter (h : SmpInv cpus s) (ht : (s.task t).waitingOn = 0) (wq : Nat) : t ∉ s.waitQueue wq := by
  intro hin
  have hw := (h.task t).waiter wq hin
  exact hw.queue_ne_zero (hw.waitingOn.symm.trans ht)

lemma not_queued (h : SmpInv cpus s) (ht : (s.task t).state ≠ .READY) (c : Nat) : t ∉ s.runQueue c :=
  fun hin => ht ((h.task t).queued c hin).state

lemma setState (h : SmpInv cpus s) {state : TaskState} {l : List Nat}
    (hwait : (s.task t).waitingOn = 0 ∨ state = .BLOCKED ∨ state = .RUNNING)
    (hl : l.Nodup) (hmem : ∀ u ∈ l, u ≠ t → u ∈ s.runQueue c)
    (hready : t ∈ l → t ≠ 0 ∧ (s.task t).cpu = c ∧ state = .READY ∧ ¬Special s t)
    (hout : ∀ d, d ≠ c → t ∉ s.runQueue d)
    (hrunning : state = .RUNNING → ¬Special s t → s.current (s.task t).cpu = t)
    (hblocked : state = .BLOCKED → cpus (s.task t).cpu ∧ ¬Special s t) :
    SmpInv cpus ((s.setState t state).setRunQueue c l) := by
  have hstatic : Static s ((s.setState t state).setRunQueue c l) :=
    ⟨fun u => Smp.setState_cpu s t u state, rfl, rfl⟩
  have hself : ((s.setState t state).setRunQueue c l).task t = { s.task t with state := state } :=
    Smp.setState_self s t state
  refine ⟨fun d hd => (h.cpu d hd).congr hstatic (.inl rfl), ?_, ?_, h.wait_nodup⟩
  · intro u
    by_cases hut : u = t
    case neg =>
      apply (h.task u).congr hstatic (Smp.setState_other s t state hut) _ (fun _ => Iff.rfl) (fun hcur _ _ _ => hcur)
      exact forall_update (P := fun d l => u ∈ l → u ∈ s.runQueue d) (fun _ hin => hin) (fun hin => hmem u hin hut)
    subst hut
    constructor
    · intro d hin
      by_cases hd : d = c
      · subst hd
        rw [Smp.setRunQueue_self] at hin
        obtain ⟨h1, h2, h3, h4⟩ := hready hin
        exact ⟨h1, by rw [hself, ← h2], by rw [hself, ← h3], by rw [hstatic.special]; exact h4⟩
      · rw [Smp.setRunQueue_other _ _ _ hd] at hin
        exact absurd hin (hout d hd)
    · intro wq hin
      obtain ⟨h1, h2, h3, -⟩ := (h.task u).waiter wq hin
      refine ⟨h1, h2, by rw [hself, h3], ?_⟩
      rw [hself]
      exact hwait.resolve_left (fun h0 => h2 (h3.symm.trans h0))
    · intro hwait'
      rw [hself] at hwait' ⊢
      exact (h.task u).waiting hwait'
    · intro _ hrun hspecial
      rw [hself] at hrun ⊢
      rw [hstatic.special] at hspecial
      exact hrunning hrun hspecial
    · intro hst
      rw [hself] at hst ⊢
      exact (hblocked hst).1
    · intro hspecial hcpu
      rw [hself] at hcpu ⊢
      rw [hstatic.special] at hspecial
      exact ⟨((h.task u).special hspecial hcpu).1, fun hst => (hblocked hst).2 hspecial⟩
  · exact forall_update (P := fun _ l => l.Nodup) h.nodup hl

lemma setBlocked (h : SmpInv cpus s) (hrun : (s.task t).state = .RUNNING) (hcpu : cpus (s.task t).cpu)
    (hspecial : ¬Special s t) : SmpInv cpus (s.setState t .BLOCKED) := by
  have hsame : (s.setState t .BLOCKED).setRunQueue 0 (s.runQueue 0) = s.setState t .BLOCKED := by
    simp only [Smp.setRunQueue, Smp.setState, Smp.setTask, Function.update_eq_self]
  have hnotin := h.not_queued (t := t) (by rw [hrun]; decide)
  rw [← hsame]
  exact h.setState (.inr (.inl rfl)) (h.nodup 0) (fun u hu _ => hu) (fun hin => absurd hin (hnotin 0))
    (fun d _ => hnotin d) (fun hfalse => nomatch hfalse) (fun _ => ⟨hcpu, hspecial⟩)

lemma setCurrent (h : SmpInv cpus s) {next : Nat} (hcpu : (s.task next).cpu = c)
    (hold : ∀ u, u ≠ 0 → s.current c = u → (s.task u).state = .RUNNING → ¬Special s u → u = next) :
    SmpInv cpus (s.setCurrent c next) := by
  have hstatic : Static s (s.setCurrent c next) := ⟨fun _ => rfl, rfl, rfl⟩
  have hcur : ∀ d, d ≠ c → (s.setCurrent c next).current d = s.current d := fun d hd => Function.update_of_ne hd ..
  have hself : (s.setCurrent c next).current c = next := Function.update_self ..
  refine ⟨?_, ?_, h.nodup, h.wait_nodup⟩
  · intro d hd
    apply (h.cpu d hd).congr hstatic
    by_cases hdc : d = c
    · subst hdc
      rw [hself]
      exact .inr hcpu
    · exact .inl (hcur d hdc)
  · intro u
    refine (h.task u).congr hstatic rfl (fun _ hin => hin) (fun _ => Iff.rfl) ?_
    intro hcurrent hne hst hspecial
    by_cases hu : (s.task u).cpu = c
    · rw [hu, hself]
      rw [hu] at hcurrent
      exact (hold u hne hcurrent hst hspecial).symm
    · rw [hcur _ hu]
      exact hcurrent

lemma enqueue (h : SmpInv cpus s) (hne : t ≠ 0) (hwq : wq ≠ 0) (hwait : (s.task t).waitingOn = 0)
    (hst : (s.task t).state = .BLOCKED ∨ (s.task t).state = .RUNNING) (hspecial : ¬Special s t) :
    SmpInv cpus ((s.setWaitQueue wq (s.waitQueue wq ++ [t])).setWaitingOn t wq) := by
  have hstatic : Static s ((s.setWaitQueue wq (s.waitQueue wq ++ [t])).setWaitingOn t wq) :=
    ⟨fun u => Smp.setWaitingOn_cpu _ t u wq, rfl, rfl⟩
  have hself : ((s.setWaitQueue wq (s.waitQueue wq ++ [t])).setWaitingOn t wq).task t =
      { s.task t with waitingOn := wq } := Smp.setWaitingOn_self _ t wq
  have hnotin := h.not_waiter hwait
  have hqueue : ((s.setWaitQueue wq (s.waitQueue wq ++ [t])).setWaitingOn t wq).waitQueue wq = s.waitQueue wq ++ [t] :=
    Smp.setWaitQueue_self s wq _
  have hqueue_other : ∀ {d}, d ≠ wq →
      ((s.setWaitQueue wq (s.waitQueue wq ++ [t])).setWaitingOn t wq).waitQueue d = s.waitQueue d :=
    fun hd => Smp.setWaitQueue_other s wq _ hd
  refine ⟨fun d hd => (h.cpu d hd).congr hstatic (.inl rfl), ?_, h.nodup, ?_⟩
  · intro u
    by_cases hut : u = t
    case neg =>
      refine (h.task u).congr hstatic (Smp.setWaitingOn_other _ t wq hut) (fun _ hin => hin) ?_
        (fun hcur _ _ _ => hcur)
      refine forall_update (P := fun d l => u ∈ l ↔ u ∈ s.waitQueue d) (fun _ => Iff.rfl) ?_
      rw [List.mem_append, List.mem_singleton, or_iff_left hut]
    subst hut
    constructor
    · intro d hin
      rcases hst with hst | hst <;> rw [((h.task u).queued d hin).state] at hst <;> cases hst
    · intro d hin
      by_cases hd : d = wq
      · subst hd
        exact ⟨hne, hwq, by rw [hself], by rw [hself]; exact hst⟩
      · rw [hqueue_other hd] at hin
        exact absurd hin (hnotin d)
    · intro _
      rw [hself, hqueue]
      exact List.mem_append_right _ (List.mem_singleton.mpr rfl)
    · intro hne' hrun hspecial'
      rw [hself] at hrun ⊢
      exact (h.task u).running hne' hrun hspecial
    · intro hblocked
      rw [hself] at hblocked ⊢
      exact (h.task u).blocked_cpu hblocked
    · intro hspecial'
      exact absurd ((hstatic.special u).mp hspecial') hspecial
  · exact forall_update (P := fun _ l => l.Nodup) h.wait_nodup (nodup_concat (h.wait_nodup wq) (hnotin wq))

lemma dequeue (h : SmpInv cpus s) {rest : List Nat} (hq : s.waitQueue wq = t :: rest) :
    SmpInv cpus ((s.setWaitQueue wq rest).setWaitingOn t 0) := by
  have hstatic : Static s ((s.setWaitQueue wq rest).setWaitingOn t 0) :=
    ⟨fun u => Smp.setWaitingOn_cpu _ t u 0, rfl, rfl⟩
  have hself : ((s.setWaitQueue wq rest).setWaitingOn t 0).task t = { s.task t with waitingOn := 0 } :=
    Smp.setWaitingOn_self _ t 0
  have hnodup := h.wait_nodup wq
  rw [hq] at hnodup
  obtain ⟨hnotin, hrest⟩ := List.nodup_cons.mp hnodup
  have hw : Waiter s wq t := (h.task t).waiter wq (by rw [hq]; exact List.mem_cons_self)
  have hqueue_other : ∀ {d}, d ≠ wq → ((s.setWaitQueue wq rest).setWaitingOn t 0).waitQueue d = s.waitQueue d :=
    fun hd => Smp.setWaitQueue_other s wq _ hd
  refine ⟨fun d hd => (h.cpu d hd).congr hstatic (.inl rfl), ?_, h.nodup, ?_⟩
  · intro u
    by_cases hut : u = t
    case neg =>
      refine (h.task u).congr hstatic (Smp.setWaitingOn_other _ t 0 hut) (fun _ hin => hin) ?_
        (fun hcur _ _ _ => hcur)
      refine forall_update (P := fun d l => u ∈ l ↔ u ∈ s.waitQueue d) (fun _ => Iff.rfl) ?_
      rw [hq, List.mem_cons, or_iff_right hut]
    subst hut
    constructor
    · intro d hin
      rcases hw.state with hst | hst <;> rw [((h.task u).queued d hin).state] at hst <;> cases hst
    · intro d hin
      by_cases hd : d = wq
      · subst hd
        exact absurd ((Smp.setWaitQueue_self s d rest) ▸ hin : u ∈ rest) hnotin
      · rw [hqueue_other hd] at hin
        exact absurd (((h.task u).waiter d hin).waitingOn.symm.trans hw.waitingOn) hd
    · intro hwait
      rw [hself] at hwait
      exact absurd rfl hwait
    · intro hne hrun hspecial
      rw [hself] at hrun ⊢
      exact (h.task u).running hne hrun ((hstatic.special u).not.mp hspecial)
    · intro hblocked
      rw [hself] at hblocked ⊢
      exact (h.task u).blocked_cpu hblocked
    · intro hspecial hcpu
      rw [hself] at hcpu ⊢
      exact ⟨rfl, ((h.task u).special ((hstatic.special u).mp hspecial) hcpu).2⟩
  · exact forall_update (P := fun _ l => l.Nodup) h.wait_nodup hrest

lemma makeReady (h : SmpInv cpus s) (hne : t ≠ 0) (hst : (s.task t).state ≠ .READY)
    (hwait : (s.task t).waitingOn = 0) (hspecial : ¬Special s t) (hc : (s.task t).cpu = c) :
    SmpInv cpus ((s.setState t .READY).setRunQueue c (s.runQueue c ++ [t])) := by
  have hnotin := h.not_queued hst
  refine h.setState (.inl hwait) (nodup_concat (h.nodup c) (hnotin c)) ?_ (fun _ => ⟨hne, hc, rfl, hspecial⟩)
    (fun d _ => hnotin d) (fun hrun => nomatch hrun) (fun hblocked => nomatch hblocked)
  intro u hin hut
  exact (List.mem_append.mp hin).resolve_right (fun hu => hut (List.mem_singleton.mp hu))

lemma wakeBlocked (h : SmpInv cpus s) (hne : t ≠ 0) (hst : (s.task t).state = .BLOCKED)
    (hwait : (s.task t).waitingOn = 0) :
    s.schedulerWakeBlocked t =
        .ok ((s.setState t .READY).setRunQueue (s.task t).cpu (s.runQueue (s.task t).cpu ++ [t])) ∧
      SmpInv cpus ((s.setState t .READY).setRunQueue (s.task t).cpu (s.runQueue (s.task t).cpu ++ [t])) := by
  have hcpu : (s.task t).cpu ≠ 0 := (h.cpu _ ((h.task t).blocked_cpu hst)).ne_zero
  have hready : ((s.setState t .READY).task t).state = .READY := congrArg Task.state (Smp.setState_self s t .READY)
  refine ⟨?_, h.makeReady hne (by rw [hst]; decide) hwait (h.not_special_of_blocked hst) rfl⟩
  have hsame : ((s.setState t .READY).setWaitingOn t 0).setState t .READY = s.setState t .READY := by
    rw [Smp.setWaitingOn_same _ _ _ (by rw [Smp.setState_waitingOn, hwait]), Smp.setState_setState]
  unfold Smp.schedulerWakeBlocked Smp.schedulerEnqueue Smp.runqueueEnqueue
  rw [if_neg hne, assertThat_true hst, assertThat_true hwait, hsame, hready, Smp.setState_cpu,
    Smp.setState_waitingOn, assertThat_true hcpu, assertThat_true hwait]
  rfl

/-- The first half of `scheduler_switch`. The current task goes back to the run queue or is not
running. -/
lemma putBackPrev (h : SmpInv cpus s) (hc : cpus c)
    (hblocked : s.current c ≠ 0 → (s.task (s.current c)).state = .BLOCKED → (s.task (s.current c)).waitingOn ≠ 0)
    (hrunning : s.current c ≠ 0 → (s.task (s.current c)).state = .RUNNING → ¬Special s (s.current c) →
      (s.task (s.current c)).waitingOn = 0) :
    ∃ s', s.putBackPrev c = .ok s' ∧ SmpInv cpus s' ∧ Frame c s s' ∧ s'.current = s.current ∧
      ((s'.task (s'.current c)).state = .RUNNING → s'.current c ≠ 0 → Special s' (s'.current c)) := by
  unfold Smp.putBackPrev
  by_cases hprev : s.current c = 0
  · rw [if_pos hprev]
    exact ⟨s, rfl, h, Frame.refl c s, rfl, fun _ hne => absurd hprev hne⟩
  rw [if_neg hprev]
  generalize hp : s.current c = prev at *
  have hcpu : (s.task prev).cpu = c := by
    have h1 := (h.cpu c hc).current_cpu
    rw [hp] at h1
    exact h1 hprev
  have hready : (s.task prev).state ≠ .READY ∨ (s.task prev).waitingOn = 0 := by
    by_cases hst : (s.task prev).state = .READY
    · exact .inr (h.ready_waitingOn hst)
    · exact .inl hst
  have hwait : (s.task prev).state ≠ .BLOCKED ∨ (s.task prev).waitingOn ≠ 0 := by
    by_cases hst : (s.task prev).state = .BLOCKED
    · exact .inr (hblocked hprev hst)
    · exact .inl hst
  rw [assertThat_true hcpu, assertThat_true hwait, assertThat_true hready]
  have hspecial : Special s prev ↔ prev = s.idle c ∨ prev = s.cleanupTask c := by
    unfold Special
    rw [hcpu]
  by_cases hback : prev ≠ s.idle c ∧ prev ≠ s.cleanupTask c ∧ (s.task prev).state = .RUNNING
  · obtain ⟨h1, h2, hst⟩ := hback
    have hnot : ¬Special s prev := by
      rw [hspecial]
      exact fun hor => hor.elim h1 h2
    have hnone := hrunning hprev hst hnot
    have hself : ((s.setState prev .READY).task prev).state = .READY :=
      congrArg Task.state (Smp.setState_self s prev .READY)
    refine ⟨(s.setState prev .READY).setRunQueue c (s.runQueue c ++ [prev]), ?_,
      h.makeReady hprev (by rw [hst]; decide) hnone hnot hcpu, ?_, rfl, ?_⟩
    · show (if prev ≠ s.idle c ∧ prev ≠ s.cleanupTask c ∧ (s.task prev).state = .RUNNING then _ else _) = _
      rw [if_pos ⟨h1, h2, hst⟩, assertThat_true hnone]
      unfold Smp.runqueueEnqueue
      rw [assertThat_true hself]
      rfl
    · refine ⟨fun u => Smp.setState_cpu s prev u _, fun u => Smp.setState_waitingOn s prev u _, ?_, ?_, rfl, rfl, rfl,
        fun _ _ => rfl⟩
      · intro u
        show ((s.setState prev .READY).task u).state = _ ↔ _
        by_cases hu : u = prev
        · rw [hu, hself, hst]
          decide
        · rw [Smp.setState_other _ _ _ hu]
      · intro u hu
        exact Smp.setState_other _ _ _ (fun heq => hu (by rw [heq]; exact hcpu))
    · intro hrun
      have hrun' : ((s.setState prev .READY).task (s.current c)).state = .RUNNING := hrun
      rw [hp, hself] at hrun'
      cases hrun'
  · refine ⟨s, ?_, h, Frame.refl c s, rfl, ?_⟩
    · show (if prev ≠ s.idle c ∧ prev ≠ s.cleanupTask c ∧ (s.task prev).state = .RUNNING then _ else _) = _
      rw [if_neg hback]
    · intro hst _
      rw [hp] at hst ⊢
      rw [hspecial]
      by_contra hor
      exact hback ⟨fun heq => hor (.inl heq), fun heq => hor (.inr heq), hst⟩

lemma setRunQueue (h : SmpInv cpus s) {l : List Nat} (hl : l.Sublist (s.runQueue c)) :
    SmpInv cpus (s.setRunQueue c l) := by
  have hstatic : Static s (s.setRunQueue c l) := ⟨fun _ => rfl, rfl, rfl⟩
  refine ⟨fun d hd => (h.cpu d hd).congr hstatic (.inl rfl), ?_, ?_, h.wait_nodup⟩
  · intro u
    refine (h.task u).congr hstatic rfl ?_ (fun _ => Iff.rfl) (fun hcur _ _ _ => hcur)
    exact forall_update (P := fun d l => u ∈ l → u ∈ s.runQueue d) (fun _ hin => hin) (fun hin => hl.subset hin)
  · exact forall_update (P := fun _ l => l.Nodup) h.nodup (hl.nodup (h.nodup c))

lemma setNeedsCleanup (h : SmpInv cpus s) (v : Bool) : SmpInv cpus (s.setNeedsCleanup c v) := by
  have hstatic : Static s (s.setNeedsCleanup c v) := ⟨fun _ => rfl, rfl, rfl⟩
  refine ⟨fun d hd => (h.cpu d hd).congr hstatic (.inl rfl), ?_, h.nodup, h.wait_nodup⟩
  intro u
  exact (h.task u).congr hstatic rfl (fun _ hin => hin) (fun _ => Iff.rfl) (fun hcur _ _ _ => hcur)

/-- A task that `scheduler_pick_next` may return. -/
structure Pickable (s : Smp) (c t : Nat) : Prop where
  ne_zero : t ≠ 0
  cpu : (s.task t).cpu = c
  waitingOn : (s.task t).waitingOn = 0
  state : (s.task t).state = .READY ∨ t = s.idle c ∨ t = s.cleanupTask c
  not_queued : ∀ d, t ∉ s.runQueue d
  idle : t = s.idle c → s.runQueue c = []

lemma pickable_special (h : SmpInv cpus s) (hc : cpus c) {next : Nat} (hne : next ≠ 0)
    (hcpu : (s.task next).cpu = c) (hor : next = s.idle c ∨ next = s.cleanupTask c)
    (hidle : next = s.idle c → s.runQueue c = []) : Pickable s c next := by
  have hspecial : Special s next := by
    unfold Special
    rw [hcpu]
    exact hor
  refine ⟨hne, hcpu, ((h.task next).special hspecial (by rw [hcpu]; exact hc)).1, .inr hor, ?_, hidle⟩
  intro d hin
  exact ((h.task next).queued d hin).not_special hspecial

lemma pickNextLoop (h : SmpInv cpus s) (hc : cpus c) (queue : List Nat) (hq : s.runQueue c = queue) :
    ∃ next s', Smp.pickNextLoop c queue s = (next, s') ∧ SmpInv cpus s' ∧ Frame c s s' ∧ s'.current = s.current ∧
      (∀ t, (s'.task t).state = .RUNNING → (s.task t).state = .RUNNING) ∧ Pickable s' c next := by
  induction queue generalizing s with
  | nil =>
    have hsame : s.setRunQueue c [] = s := by
      unfold Smp.setRunQueue
      rw [← hq, Function.update_eq_self]
    refine ⟨s.idle c, s, congrArg _ hsame, h, Frame.refl c s, rfl, fun _ hst => hst, ?_⟩
    exact h.pickable_special hc (h.cpu c hc).idle_ne_zero (h.cpu c hc).idle_cpu (.inl rfl) (fun _ => hq)
  | cons next rest ih =>
    have hin : next ∈ s.runQueue c := by
      rw [hq]
      exact List.mem_cons_self
    have hqueued := (h.task next).queued c hin
    have hnodup := h.nodup c
    rw [hq] at hnodup
    obtain ⟨hnotin, hrest⟩ := List.nodup_cons.mp hnodup
    have hother : ∀ d, d ≠ c → next ∉ s.runQueue d := by
      intro d hd hin'
      exact hd ((((h.task next).queued d hin').cpu).symm.trans hqueued.cpu)
    unfold Smp.pickNextLoop
    by_cases hexit : s.isTaskProcessExiting next = true
    · rw [if_pos hexit]
      have hdead : SmpInv cpus (((s.setRunQueue c rest).setState next .DEAD).setNeedsCleanup c true) := by
        refine SmpInv.setNeedsCleanup (s := (s.setState next .DEAD).setRunQueue c rest) ?_ true
        refine h.setState (.inl (h.ready_waitingOn hqueued.state)) hrest ?_ (fun hin' => absurd hin' hnotin) hother
          (fun hrun => nomatch hrun) (fun hblocked => nomatch hblocked)
        intro u hu _
        rw [hq]
        exact List.mem_cons_of_mem next hu
      have hself : ((s.setState next .DEAD).task next).state = .DEAD :=
        congrArg Task.state (Smp.setState_self s next .DEAD)
      have hframe : Frame c s (((s.setRunQueue c rest).setState next .DEAD).setNeedsCleanup c true) := by
        refine ⟨fun u => Smp.setState_cpu s next u .DEAD, fun u => Smp.setState_waitingOn s next u .DEAD, ?_, ?_,
          rfl, rfl, rfl, fun _ _ => rfl⟩
        · intro u
          show ((s.setState next .DEAD).task u).state = _ ↔ _
          by_cases hu : u = next
          · rw [hu, hself, hqueued.state]
            decide
          · rw [Smp.setState_other _ _ _ hu]
        · intro u hu
          exact Smp.setState_other s next .DEAD (fun heq => hu (by rw [heq]; exact hqueued.cpu))
      obtain ⟨next', s', hrun, hinv, hframe', hcur, hrunning, hpick⟩ :=
        ih hdead (Smp.setRunQueue_self s c rest)
      refine ⟨next', s', hrun, hinv, hframe.trans hframe', hcur, ?_, hpick⟩
      intro u hu
      have hst : ((s.setState next .DEAD).task u).state = .RUNNING := hrunning u hu
      by_cases hun : u = next
      · rw [hun, hself] at hst
        cases hst
      · rwa [Smp.setState_other _ _ _ hun] at hst
    · rw [if_neg hexit]
      refine ⟨next, s.setRunQueue c rest, rfl, h.setRunQueue (by rw [hq]; exact List.sublist_cons_self next rest),
        ⟨fun _ => rfl, fun _ => rfl, fun _ => Iff.rfl, fun _ _ => rfl, rfl, rfl, rfl, fun _ _ => rfl⟩, rfl,
        fun _ hst => hst, hqueued.ne_zero, hqueued.cpu, h.ready_waitingOn hqueued.state, .inl hqueued.state, ?_, ?_⟩
      · intro d
        by_cases hd : d = c
        · subst hd
          rw [Smp.setRunQueue_self]
          exact hnotin
        · rw [Smp.setRunQueue_other _ _ _ hd]
          exact hother d hd
      · intro hidle
        refine absurd (.inl ?_) hqueued.not_special
        rw [hqueued.cpu]
        exact hidle

lemma schedulerPickNext (h : SmpInv cpus s) (hc : cpus c) :
    ∃ next s', s.schedulerPickNext c = (next, s') ∧ SmpInv cpus s' ∧ Frame c s s' ∧ s'.current = s.current ∧
      (∀ t, (s'.task t).state = .RUNNING → (s.task t).state = .RUNNING) ∧ Pickable s' c next := by
  unfold Smp.schedulerPickNext
  by_cases hclean : s.needsCleanup c = true
  · rw [if_pos hclean]
    have hcpu := h.cpu c hc
    refine ⟨s.cleanupTask c, s, rfl, h, Frame.refl c s, rfl, fun _ hst => hst, ?_⟩
    exact h.pickable_special hc hcpu.cleanup_ne_zero hcpu.cleanup_cpu (.inr rfl)
      (fun heq => absurd heq hcpu.cleanup_ne_idle)
  · rw [if_neg hclean]
    exact h.pickNextLoop hc (s.runQueue c) rfl

lemma switchTo (h : SmpInv cpus s) {next : Nat} (hpick : Pickable s c next)
    (hprev : (s.task (s.current c)).state = .RUNNING → s.current c ≠ 0 → Special s (s.current c)) :
    s.switchTo c (s.current c) next = .ok ((s.setState next .RUNNING).setCurrent c next) ∧
      SmpInv cpus ((s.setState next .RUNNING).setCurrent c next) := by
  have hself : (((s.setState next .RUNNING).setCurrent c next).task next).state = .RUNNING :=
    congrArg Task.state (Smp.setState_self s next .RUNNING)
  constructor
  · unfold Smp.switchTo
    rw [assertThat_true hpick.cpu, assertThat_true hpick.state, assertThat_true hpick.waitingOn]
    show (if s.current c = next then _ else _) = _
    split
    · rw [assertThat_true (.inr hself)]
      rfl
    split
    · rfl
    · rw [assertThat_true]
      · rfl
      · by_cases hidle : next = s.idle c
        · exact .inr (hpick.idle hidle)
        · exact .inl hidle
  · have hcur : SmpInv cpus (s.setCurrent c next) := by
      apply h.setCurrent hpick.cpu
      intro u hu hcur hst hspecial
      rw [hcur] at hprev
      exact absurd (hprev hst hu) hspecial
    have hrun : SmpInv cpus (((s.setCurrent c next).setState next .RUNNING).setRunQueue c (s.runQueue c)) := by
      refine hcur.setState (.inr (.inr rfl)) (h.nodup c) (fun u hu _ => hu)
        (fun hin => absurd hin (hpick.not_queued c)) (fun d _ => hpick.not_queued d) (fun _ _ => ?_)
        (fun hblocked => nomatch hblocked)
      have hcpu : ((s.setCurrent c next).task next).cpu = c := hpick.cpu
      rw [hcpu]
      exact Function.update_self ..
    have hsame : ((s.setCurrent c next).setState next .RUNNING).setRunQueue c (s.runQueue c) =
        (s.setState next .RUNNING).setCurrent c next := by
      simp only [Smp.setRunQueue, Smp.setCurrent, Smp.setState, Smp.setTask, Function.update_eq_self]
    rwa [hsame] at hrun

lemma frame_switchTo {next : Nat} (hcpu : (s.task next).cpu = c) (hst : (s.task next).state ≠ .BLOCKED) :
    Frame c s ((s.setState next .RUNNING).setCurrent c next) := by
  refine ⟨fun u => Smp.setState_cpu s next u .RUNNING, fun u => Smp.setState_waitingOn s next u .RUNNING, ?_, ?_, rfl,
    rfl, rfl, fun d hd => Function.update_of_ne hd ..⟩
  · intro u
    show ((s.setState next .RUNNING).task u).state = _ ↔ _
    by_cases hu : u = next
    · subst hu
      rw [Smp.setState_self]
      exact ⟨fun hfalse => (nomatch hfalse), fun hblocked => absurd hblocked hst⟩
    · rw [Smp.setState_other _ _ _ hu]
  · intro u hu
    exact Smp.setState_other s next .RUNNING (fun heq => hu (by rw [heq]; exact hcpu))

lemma pick (h : SmpInv cpus s) (hc : cpus c)
    (hprev : (s.task (s.current c)).state = .RUNNING → s.current c ≠ 0 → Special s (s.current c)) :
    ∃ s', s.switchToNext c = .ok s' ∧ SmpInv cpus s' ∧ Frame c s s' ∧ s'.current c ≠ 0 ∧
      (s'.task (s'.current c)).state = .RUNNING := by
  obtain ⟨next, s₁, hpicked, hinv, hframe, hcur, hrunning, hpick⟩ := h.schedulerPickNext hc
  unfold Smp.switchToNext
  rw [hpicked, ← hcur]
  have hprev' : (s₁.task (s₁.current c)).state = .RUNNING → s₁.current c ≠ 0 → Special s₁ (s₁.current c) := by
    intro hst hne
    have hstatic : Static s s₁ := ⟨hframe.cpu, hframe.idle, hframe.cleanupTask⟩
    rw [hstatic.special]
    rw [hcur] at hst hne ⊢
    exact hprev (hrunning _ hst) hne
  have hst : (s₁.task next).state ≠ .BLOCKED := by
    intro hblocked
    have hcpu : cpus (s₁.task next).cpu := by
      rw [hpick.cpu]
      exact hc
    rcases hpick.state with hready | hspecial
    · rw [hready] at hblocked
      cases hblocked
    · refine ((hinv.task next).special ?_ hcpu).2 hblocked
      unfold Special
      rw [hpick.cpu]
      exact hspecial
  obtain ⟨hrun, hinv'⟩ := hinv.switchTo hpick hprev'
  have hself : ((s₁.setState next .RUNNING).setCurrent c next).current c = next := Function.update_self ..
  refine ⟨_, hrun, hinv', hframe.trans (frame_switchTo hpick.cpu hst), ?_, ?_⟩
  · rw [hself]
    exact hpick.ne_zero
  · rw [hself]
    exact congrArg Task.state (Smp.setState_self s₁ next .RUNNING)

end SmpInv

/-- The reason for which a step fails. -/
def haltOf {α : Type} : Option (Except Halt α) → Option Halt
  | some (.error e) => some e
  | _ => none

lemma eq_error_of_haltOf {α : Type} {r : Option (Except Halt α)} {e : Halt} (h : haltOf r = some e) :
    r = some (.error e) := by
  match r with
  | none => cases h
  | some (.ok a) => cases h
  | some (.error e') =>
    obtain rfl := Option.some.inj h
    rfl

/-- Two CPUs, at addresses 1 and 2, that run the tasks 11 and 12. -/
def twoCpuTask (t : Nat) : Task :=
  if t = 11 then ⟨1, .RUNNING, 0, 0, 0⟩
  else if t = 12 then ⟨2, .RUNNING, 0, 0, 0⟩
  else if t = 101 ∨ t = 201 then ⟨1, .READY, 0, 0, 0⟩
  else if t = 102 ∨ t = 202 then ⟨2, .READY, 0, 0, 0⟩
  else ⟨0, .DEAD, 0, 0, 0⟩

def twoCpus : Smp where
  task := twoCpuTask
  exiting _ := false
  current c := if c = 1 then 11 else if c = 2 then 12 else 0
  idle c := if c = 1 then 101 else if c = 2 then 102 else 0
  cleanupTask c := if c = 1 then 201 else if c = 2 then 202 else 0
  needsCleanup _ := false
  runQueue _ := []
  waitQueue _ := []

def OneOrTwo (c : Nat) : Prop := c = 1 ∨ c = 2

lemma twoCpuTask_cases (t : Nat) : (twoCpuTask t).waitingOn = 0 ∧ (twoCpuTask t).state ≠ .BLOCKED ∧
    ((twoCpuTask t).state = .RUNNING → t = 11 ∨ t = 12) := by
  unfold twoCpuTask
  split
  case isTrue h => exact ⟨rfl, by decide, fun _ => .inl h⟩
  split
  case isTrue h => exact ⟨rfl, by decide, fun _ => .inr h⟩
  split
  · exact ⟨rfl, by decide, fun h => nomatch h⟩
  split
  · exact ⟨rfl, by decide, fun h => nomatch h⟩
  · exact ⟨rfl, by decide, fun h => nomatch h⟩

lemma twoCpus_inv : SmpInv OneOrTwo twoCpus := by
  refine ⟨?_, ?_, fun _ => List.nodup_nil, fun _ => List.nodup_nil⟩
  · rintro c (rfl | rfl) <;> constructor <;> decide
  · intro t
    obtain ⟨hwait, hblocked, hrunning⟩ := twoCpuTask_cases t
    refine ⟨fun c hin => (nomatch hin), fun wq hin => (nomatch hin), fun hne => absurd hwait hne, ?_,
      fun hst => absurd hst hblocked, fun _ _ => ⟨hwait, hblocked⟩⟩
    rintro - hst -
    rcases hrunning hst with rfl | rfl <;> rfl

end KaworuOS.Proofs
