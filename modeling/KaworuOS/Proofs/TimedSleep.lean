import KaworuOS.Lib.Run
import KaworuOS.Proofs.SchedulerPlaces
import KaworuOS.TimedSleep

/-!
# Sleeping tasks are woken in time, wherever the timer interrupts

Between `spinlock_release` and its own switch the sleeper is the current task and on the sleeping queue
at the same time. A switch treats it like any blocked task, so the queues stay in order whether the
interrupt wakes it, switches away from it, or both.
-/

namespace KaworuOS.Proofs
open Lib

variable {s s' : Sched} {run : List Nat} {wait : Nat → List Nat} {alarm : Nat → Nat} {t : Nat}

section Sorted

variable {f g : Nat → Nat} {k₁ k₂ : List Nat} {x : Nat}

lemma lt_of_head (hsorted : k₁.Pairwise (fun a b => f a ≤ f b)) (hfirst : ∀ p, k₁.head? = some p → x < f p) :
    ∀ p ∈ k₁, x < f p := by
  cases k₁ with
  | nil =>
    intro p hp
    cases hp
  | cons q k =>
    have hq := hfirst q rfl
    intro p hp
    rcases List.mem_cons.mp hp with rfl | hp
    · exact hq
    · exact Nat.lt_of_lt_of_le hq ((List.pairwise_cons.mp hsorted).1 p hp)

lemma pairwise_insert (hsorted : (k₁ ++ k₂).Pairwise (fun a b => f a ≤ f b)) (hsame : ∀ p ∈ k₁ ++ k₂, g p = f p)
    (hbefore : ∀ p ∈ k₁, f p ≤ g t) (hafter : ∀ p ∈ k₂, g t ≤ f p) :
    (k₁ ++ t :: k₂).Pairwise (fun a b => g a ≤ g b) := by
  have hsorted' : (k₁ ++ k₂).Pairwise (fun a b => g a ≤ g b) := by
    refine hsorted.imp_of_mem (fun ha hb hab => ?_)
    rw [hsame _ ha, hsame _ hb]
    exact hab
  obtain ⟨h1, h2, h3⟩ := List.pairwise_append.mp hsorted'
  refine List.pairwise_append.mpr ⟨h1, List.pairwise_cons.mpr ⟨fun p hp => ?_, h2⟩, fun p hp q hq => ?_⟩
  · rw [hsame p (List.mem_append_right k₁ hp)]
    exact hafter p hp
  · rcases List.mem_cons.mp hq with rfl | hq
    · rw [hsame p (List.mem_append_left k₂ hp)]
      exact hbefore p hp
    · exact h3 p hp q hq

end Sorted

/-- The queues of a CPU whose tasks only sleep: the sleeping queue is sorted by the alarms of its members,
and no process exits. -/
structure SleepQueues (s : Sched) (alarm : Nat → Nat) (run : List Nat) (wait : Nat → List Nat) : Prop where
  queues : QueueInv s run wait 0
  unlocked : ∀ wq, (s.waitQueue wq).locked = false
  distinct : s.cpu.idle ≠ s.cpu.cleanupTask
  only : ∀ wq, wq ≠ s.cpu.sleepingTasks → wait wq = []
  sorted : (wait s.cpu.sleepingTasks).Pairwise (fun a b => alarm a ≤ alarm b)
  alarm : ∀ p ∈ wait s.cpu.sleepingTasks, (s.task p).sleepUntil = alarm p
  exiting : ∀ p, s.exiting p = false
  needsCleanup : s.cpu.needsCleanup = false
  alive : ∀ p ∈ s.tasks, (s.task p).state ≠ .DEAD

lemma SleepQueues.of_shape (h : SleepQueues s alarm run wait) {run' rest woken : List Nat} {alarm' : Nat → Nat}
    (hq : QueueInv s' run' (Function.update wait s.cpu.sleepingTasks rest) 0) (hshape : SameShape s s')
    (hdies : NoneDies s s' woken) (hsorted : rest.Pairwise (fun a b => alarm' a ≤ alarm' b))
    (halarm : ∀ p ∈ rest, (s'.task p).sleepUntil = alarm' p) :
    SleepQueues s' alarm' run' (Function.update wait s.cpu.sleepingTasks rest) := by
  refine ⟨hq, fun wq => (hshape.locks wq).trans (h.unlocked wq), ?_, ?_, ?_, ?_, ?_,
    hdies.needsCleanup.trans h.needsCleanup, ?_⟩
  · rw [hshape.idle, hshape.cleanupTask]
    exact h.distinct
  · intro wq hwq
    rw [hshape.sleepingTasks] at hwq
    rw [Function.update_of_ne hwq]
    exact h.only wq hwq
  · rw [hshape.sleepingTasks, Function.update_self]
    exact hsorted
  · rw [hshape.sleepingTasks, Function.update_self]
    exact halarm
  · intro p
    rw [hdies.exiting]
    exact h.exiting p
  · intro p hp
    rw [hshape.tasks] at hp
    exact hdies.alive p (h.alive p hp)

/-- The current task after a switch: none, one of the CPU's own tasks, or an ordinary one that runs. -/
def CurrentRuns (s : Sched) : Prop :=
  s.cpu.current = 0 ∨ (s.cpu.current = s.cpu.idle ∨ s.cpu.current = s.cpu.cleanupTask) ∨
    s.cpu.current ∈ s.tasks ∧ (s.task s.cpu.current).state = .RUNNING

lemma SleepQueues.switch (h : SleepQueues s alarm run wait) (hcur : Switchable s) :
    ∃ s' run', schedulerSwitch s = .ok s' ∧ SleepQueues s' alarm run' wait ∧ SameShape s s' ∧ CurrentRuns s' := by
  obtain ⟨s', run', hok, h', hshape, -⟩ := schedulerSwitch_spec h.queues h.unlocked h.distinct hcur
  have hdies := noneDies_schedulerSwitch h.exiting h.needsCleanup hok
  have hwait := Function.update_eq_self s.cpu.sleepingTasks wait
  have hq : QueueInv s' run' (Function.update wait s.cpu.sleepingTasks (wait s.cpu.sleepingTasks)) 0 := by
    rw [hwait]
    exact h'.queues
  have hnew := h.of_shape hq hshape hdies h.sorted (fun p hp => (hdies.alarm p List.not_mem_nil).trans (h.alarm p hp))
  rw [hwait] at hnew
  exact ⟨s', run', hok, hnew, hshape, h'.current⟩

lemma SleepQueues.wake (h : SleepQueues s alarm run wait) (now : Nat) :
    ∃ s' woken rest, schedulerWakeSleepers s now = .ok s' ∧
      SleepQueues s' alarm (run ++ woken) (Function.update wait s.cpu.sleepingTasks rest) ∧ Kept s s' ∧
      wait s.cpu.sleepingTasks = woken ++ rest ∧ (∀ p ∈ woken, alarm p ≤ now) ∧ ∀ p ∈ rest, now < alarm p := by
  obtain ⟨s', woken, rest, hok, hwakes, hq, hkept, hdies⟩ := schedulerWakeSleepers_spec h.queues h.unlocked now
  have hsorted := h.sorted
  have hnodup := (h.queues.waitLinked s.cpu.sleepingTasks).nodup
  rw [hwakes.split] at hsorted hnodup
  obtain ⟨-, hrest, -⟩ := List.pairwise_append.mp hsorted
  have halarm : ∀ p ∈ woken ++ rest, (s.task p).sleepUntil = alarm p := fun p hp => h.alarm p (hwakes.split ▸ hp)
  have hlater := lt_of_head hrest (fun p hp => halarm p (List.mem_append_right woken (List.mem_of_mem_head? hp)) ▸
    hwakes.first p hp)
  have hkeep : ∀ p ∈ rest, (s'.task p).sleepUntil = alarm p := by
    intro p hp
    have hnot : p ∉ woken := fun hin => (List.nodup_append.mp hnodup).2.2 p hin p hp rfl
    exact (hdies.alarm p hnot).trans (halarm p (List.mem_append_right woken hp))
  refine ⟨s', woken, rest, hok, h.of_shape hq hkept.toSameShape hdies hrest hkeep, hkept, hwakes.split, ?_, hlater⟩
  intro p hp
  rw [← halarm p (List.mem_append_left rest hp)]
  exact hwakes.due p hp

lemma SleepQueues.enqueue (h : SleepQueues s alarm run wait) (ht : t ∈ s.tasks) (hrun : (s.task t).state = .RUNNING)
    (now ticks : Nat) :
    ∃ s' rest, sleepEnqueue s t now ticks = .ok s' ∧
      SleepQueues s' (Function.update alarm t (wadd now ticks)) run
        (Function.update wait s.cpu.sleepingTasks rest) ∧
      SameShape s s' ∧ s'.cpu.current = s.cpu.current ∧ (s'.task t).state = .BLOCKED := by
  obtain ⟨s', k₁, k₂, hok, hk, hbefore, hafter, hq, hshape, hcur, hdies, hself, hstate⟩ :=
    sleepEnqueue_spec h.queues h.unlocked ht hrun now ticks
  have hnot : t ∉ k₁ ++ k₂ := hk ▸ (h.queues.hold ht (.inl hrun)).held_not_mem_wait _
  have hsorted := h.sorted
  rw [hk] at hsorted
  have halarm : ∀ p ∈ k₁ ++ k₂, (s.task p).sleepUntil = alarm p := fun p hp => h.alarm p (hk ▸ hp)
  have hother : ∀ p ∈ k₁ ++ k₂, Function.update alarm t (wadd now ticks) p = alarm p := by
    intro p hp
    have hpt : p ≠ t := by
      rintro rfl
      exact hnot hp
    exact Function.update_of_ne hpt _ _
  have hupdated : Function.update alarm t (wadd now ticks) t = wadd now ticks := Function.update_self ..
  have hlater := lt_of_head (List.pairwise_append.mp hsorted).2.1 (fun p hp =>
    halarm p (List.mem_append_right k₁ (List.mem_of_mem_head? hp)) ▸ hafter p hp)
  have hnew : (k₁ ++ t :: k₂).Pairwise
      (fun a b => Function.update alarm t (wadd now ticks) a ≤ Function.update alarm t (wadd now ticks) b) := by
    apply pairwise_insert hsorted hother
    · intro p hp
      rw [hupdated, ← halarm p (List.mem_append_left k₂ hp)]
      exact hbefore p hp
    · intro p hp
      rw [hupdated]
      exact Nat.le_of_lt (hlater p hp)
  refine ⟨s', k₁ ++ t :: k₂, hok, h.of_shape hq hshape hdies hnew ?_, hshape, hcur, hstate⟩
  intro p hp
  by_cases hpt : p = t
  · rw [hpt, hself, hupdated]
  · have hin : p ∈ k₁ ++ k₂ := by
      rcases List.mem_append.mp hp with hp | hp
      · exact List.mem_append_left k₂ hp
      · exact List.mem_append_right k₁ ((List.mem_cons.mp hp).resolve_left hpt)
    rw [hdies.alarm p (by simpa using hpt), halarm p hin, hother p hin]

lemma SleepQueues.create (h : SleepQueues s alarm run wait) {process : Nat} (ht0 : t ≠ 0) (htlt : t < 2 ^ 64)
    (hnew : t ∉ s.tasks) (hti : t ≠ s.cpu.idle) (htc : t ≠ s.cpu.cleanupTask) :
    ∃ s', createTask s t process = .ok s' ∧ SleepQueues s' alarm (run ++ [t]) wait ∧
      Kept { taskInit s t process with tasks := s.tasks ++ [t] } s' := by
  obtain ⟨s', hok, hq, hkept⟩ := @createTask_spec s run wait t h.queues process ht0 htlt hnew hti htc
  have hself : (taskInit s t process).task t = ⟨s.cpu.addr, .READY, 0, process, 0⟩ := Function.update_self ..
  have hother : ∀ p, p ≠ t → (taskInit s t process).task p = s.task p := fun p hp => Function.update_of_ne hp _ _
  have hdies : NoneDies { taskInit s t process with tasks := s.tasks ++ [t] } s' [] :=
    noneDies_schedulerEnqueue hok (fun he => absurd ((congrArg Task.state hself).symm.trans he) TaskState.noConfusion)
  refine ⟨s', hok, ⟨hq, fun wq => (hkept.locks wq).trans (h.unlocked wq), ?_, ?_, ?_, ?_, ?_,
    hdies.needsCleanup.trans h.needsCleanup, ?_⟩, hkept⟩
  · rw [hkept.idle, hkept.cleanupTask]
    exact h.distinct
  · intro wq hwq
    rw [hkept.sleepingTasks] at hwq
    exact h.only wq hwq
  · rw [hkept.sleepingTasks]
    exact h.sorted
  · rw [hkept.sleepingTasks]
    intro p hp
    have hpt : p ≠ t := by
      rintro rfl
      exact hnew ((h.queues.blocked p _).mp hp).1
    rw [hdies.alarm p List.not_mem_nil, ← h.alarm p hp]
    exact congrArg Task.sleepUntil (hother p hpt)
  · intro p
    rw [hdies.exiting]
    exact h.exiting p
  · intro p hp
    apply hdies.alive
    rw [hkept.tasks] at hp
    show ((taskInit s t process).task p).state ≠ .DEAD
    by_cases hpt : p = t
    · rw [hpt, hself]
      exact TaskState.noConfusion
    · rw [hother p hpt]
      refine h.alive p ((List.mem_append.mp hp).resolve_right ?_)
      simpa using hpt

/-- The scheduler with the place of each task in `scheduler_sleep_current`, the alarm that its last call has
set, and the last value of the counter. -/
structure SleepRun where
  sched : Sched
  pc : Nat → SleepPc
  alarm : Nat → Nat
  now : Nat

/-- What happens on the CPU. -/
inductive SleepAct
  /-- A new task is created. -/
  | create (t process : Nat)
  | yield
  /-- The current task enters `scheduler_sleep_current` or executes its next statement. -/
  | statement (now ms : Nat)
  /-- The timer interrupts the current task. -/
  | tick (now : Nat)

namespace SleepAct

/-- Only ordinary tasks sleep, and the counter never goes back. -/
def Enabled (r : SleepRun) : SleepAct → Prop
  | create t _ => t ≠ 0 ∧ t < 2 ^ 64 ∧ t ∉ r.sched.tasks ∧ t ≠ r.sched.cpu.idle ∧ t ≠ r.sched.cpu.cleanupTask ∧
      r.pc r.sched.cpu.current = .outside
  | yield => r.pc r.sched.cpu.current = .outside
  | statement now _ => r.sched.cpu.current ∈ r.sched.tasks ∧ r.now ≤ now
  | tick now => r.now ≤ now

/-- The code, with a timer of the given frequency. -/
def exec (frequency : Nat) (r : SleepRun) : SleepAct → Except Halt SleepRun
  | create t process => do
    let s ← createTask r.sched t process
    .ok { r with sched := s, pc := Function.update r.pc t .outside }
  | yield => do
    let s ← schedulerSwitch r.sched
    .ok { r with sched := s }
  | statement now ms => do
    let current := r.sched.cpu.current
    let ticks := timerMsToTicks frequency ms
    let (pc, s) ← sleepStatement r.sched current now ticks (r.pc current)
    let alarm := if r.pc current = .enqueue then Function.update r.alarm current (wadd now ticks) else r.alarm
    .ok ⟨s, Function.update r.pc current pc, alarm, now⟩
  | tick now => do
    let s ← timerInterrupt r.sched now
    .ok { r with sched := s, now := now }

/-- The steps that end with a switch. -/
def Switches (r : SleepRun) : SleepAct → Prop
  | create _ _ => False
  | yield => True
  | statement _ _ => r.pc r.sched.cpu.current = .switch
  | tick _ => r.sched.cpu.current ≠ 0

end SleepAct

/-- A step of a run. -/
def SleepStep (frequency : Nat) (r r' : SleepRun) : Prop :=
  ∃ act : SleepAct, act.Enabled r ∧ act.exec frequency r = .ok r'

/-- The members of the run queue and of the sleeping queue. -/
structure OnQueues (s : Sched) (run sleep : List Nat) : Prop where
  run : Linked s.runnableNode s.cpu.runnableTasks.runnables run
  sleep : Linked s.waitNode (s.waitQueue s.cpu.sleepingTasks).waiters sleep

/-- The task runs, waits for the CPU or sleeps, and is on the queue that goes with it and on no other. -/
def Settled (s : Sched) (run sleep : List Nat) (t : Nat) : Prop :=
  (t = s.cpu.current ∧ (s.task t).state = .RUNNING ∧ t ∉ run ∧ t ∉ sleep) ∨
    (t ≠ s.cpu.current ∧ (s.task t).state = .READY ∧ t ∈ run ∧ t ∉ sleep) ∨
    (t ≠ s.cpu.current ∧ (s.task t).state = .BLOCKED ∧ t ∉ run ∧ t ∈ sleep)

/-- What holds in every state of a run: every step succeeds, no task is on a queue twice or on both queues,
a switch leaves every task in its place, and `scheduler_wake_sleepers` moves those whose alarm has come to
the run queue. -/
structure SleepRun.InTime (frequency : Nat) (r : SleepRun) : Prop where
  returns : ∀ act : SleepAct, act.Enabled r → ∃ r', act.exec frequency r = .ok r'
  apart : ∃ run sleep, OnQueues r.sched run sleep ∧ run.Nodup ∧ sleep.Nodup ∧ ∀ p ∈ run, p ∉ sleep
  settles : ∀ (act : SleepAct) (r' : SleepRun), act.Enabled r → act.Switches r → act.exec frequency r = .ok r' →
    ∃ run sleep, OnQueues r'.sched run sleep ∧ ∀ p ∈ r'.sched.tasks, Settled r'.sched run sleep p
  wakes : ∀ now, r.now ≤ now → ∃ s' run sleep run' sleep', schedulerWakeSleepers r.sched now = .ok s' ∧
    OnQueues r.sched run sleep ∧ OnQueues s' run' sleep' ∧
    ∀ p ∈ sleep, (r.sched.task p).sleepUntil = r.alarm p ∧
      (r.alarm p ≤ now → p ∈ run' ∧ p ∉ sleep' ∧ (s'.task p).state = .READY) ∧ (now < r.alarm p → p ∈ sleep')

namespace SleepRun

variable {r r' : SleepRun} {frequency : Nat}

/-- The invariant. The current task is blocked only between `spinlock_release` and its switch. -/
structure Inv (r : SleepRun) (run : List Nat) (wait : Nat → List Nat) : Prop where
  queues : SleepQueues r.sched r.alarm run wait
  current : r.sched.cpu.current = 0 ∨
    (r.sched.cpu.current = r.sched.cpu.idle ∨ r.sched.cpu.current = r.sched.cpu.cleanupTask) ∨
    r.sched.cpu.current ∈ r.sched.tasks ∧ ((r.sched.task r.sched.cpu.current).state = .RUNNING ∨
      (r.sched.task r.sched.cpu.current).state = .BLOCKED ∧ r.pc r.sched.cpu.current = .switch)

lemma Inv.switchable (h : r.Inv run wait) : Switchable r.sched := by
  rcases h.current with h0 | hspecial | ⟨hmem, -⟩
  · exact .inl h0
  · exact .inr (.inl hspecial)
  · exact .inr (.inr hmem)

lemma Inv.running (h : r.Inv run wait) (hmem : r.sched.cpu.current ∈ r.sched.tasks)
    (hpc : r.pc r.sched.cpu.current ≠ .switch) : (r.sched.task r.sched.cpu.current).state = .RUNNING := by
  rcases h.current with h0 | (hi | hc) | ⟨-, hrun | ⟨-, hswitch⟩⟩
  · exact absurd h0 (h.queues.queues.tasks _ hmem).1
  · exact absurd hmem (hi ▸ h.queues.queues.idle.not_mem)
  · exact absurd hmem (hc ▸ h.queues.queues.cleanup.not_mem)
  · exact hrun
  · exact absurd hswitch hpc

lemma inv_of_currentRuns {pc : Nat → SleepPc} {now : Nat} (hq : SleepQueues s alarm run wait)
    (hcur : CurrentRuns s) : Inv ⟨s, pc, alarm, now⟩ run wait := by
  refine ⟨hq, ?_⟩
  rcases hcur with h0 | hspecial | ⟨hmem, hrun⟩
  · exact .inl h0
  · exact .inr (.inl hspecial)
  · exact .inr (.inr ⟨hmem, .inl hrun⟩)

lemma Inv.step_assert (h : r.Inv run wait) {now ms : Nat} {pc : SleepPc}
    (hstatement : sleepStatement r.sched r.sched.cpu.current now (timerMsToTicks frequency ms)
      (r.pc r.sched.cpu.current) = .ok (pc, r.sched))
    (hmem : r.sched.cpu.current ∈ r.sched.tasks) (hnot : r.pc r.sched.cpu.current ≠ .enqueue)
    (hpc : r.pc r.sched.cpu.current ≠ .switch) :
    ∃ r', (SleepAct.statement now ms).exec frequency r = .ok r' ∧ r'.Inv run wait := by
  have hexec : (SleepAct.statement now ms).exec frequency r =
      .ok ⟨r.sched, Function.update r.pc r.sched.cpu.current pc, r.alarm, now⟩ := by
    simp only [SleepAct.exec, hstatement, bind, Except.bind, if_neg hnot]
  exact ⟨_, hexec, h.queues, .inr (.inr ⟨hmem, .inl (h.running hmem hpc)⟩)⟩

lemma Inv.statement (h : r.Inv run wait) {now ms : Nat} (hmem : r.sched.cpu.current ∈ r.sched.tasks) :
    ∃ r' run' wait', (SleepAct.statement now ms).exec frequency r = .ok r' ∧ r'.Inv run' wait' ∧
      (r.pc r.sched.cpu.current = .switch → CurrentRuns r'.sched) := by
  obtain ⟨h0, -, hcpu⟩ := h.queues.queues.tasks _ hmem
  have hpass : ∀ pc : SleepPc, sleepStatement r.sched r.sched.cpu.current now (timerMsToTicks frequency ms)
      (r.pc r.sched.cpu.current) = .ok (pc, r.sched) → r.pc r.sched.cpu.current ≠ .enqueue →
      r.pc r.sched.cpu.current ≠ .switch →
      ∃ r' run' wait', (SleepAct.statement now ms).exec frequency r = .ok r' ∧ r'.Inv run' wait' ∧
        (r.pc r.sched.cpu.current = .switch → CurrentRuns r'.sched) := by
    intro pc hstatement hnot hpc
    obtain ⟨r', hexec, h'⟩ := h.step_assert hstatement hmem hnot hpc
    exact ⟨r', run, wait, hexec, h', fun hswitch => absurd hswitch hpc⟩
  cases hpc : r.pc r.sched.cpu.current with
  | outside => exact hpc ▸ hpass .assertNotNull (by rw [hpc]; rfl) (by rw [hpc]; decide) (by rw [hpc]; decide)
  | assertNotNull =>
    refine hpc ▸ hpass .assertNotIdle ?_ (by rw [hpc]; decide) (by rw [hpc]; decide)
    rw [hpc, sleepStatement, assertThat_true h0]
    rfl
  | assertNotIdle =>
    refine hpc ▸ hpass .assertCpu ?_ (by rw [hpc]; decide) (by rw [hpc]; decide)
    rw [hpc, sleepStatement, assertThat_true (h.queues.queues.idle.ne_of_mem hmem).symm]
    rfl
  | assertCpu =>
    refine hpc ▸ hpass .assertRunning ?_ (by rw [hpc]; decide) (by rw [hpc]; decide)
    rw [hpc, sleepStatement, assertThat_true hcpu]
    rfl
  | assertRunning =>
    refine hpc ▸ hpass .enqueue ?_ (by rw [hpc]; decide) (by rw [hpc]; decide)
    rw [hpc, sleepStatement, assertThat_true (h.running hmem (by rw [hpc]; decide))]
    rfl
  | enqueue =>
    obtain ⟨s', rest, hok, hq, hshape, hcur, hstate⟩ := h.queues.enqueue hmem (h.running hmem (by rw [hpc]; decide))
      now (timerMsToTicks frequency ms)
    have hexec : (SleepAct.statement now ms).exec frequency r =
        .ok ⟨s', Function.update r.pc r.sched.cpu.current .switch,
          Function.update r.alarm r.sched.cpu.current (wadd now (timerMsToTicks frequency ms)), now⟩ := by
      simp only [SleepAct.exec, hpc, sleepStatement, hok, bind, Except.bind, if_pos]
    refine ⟨_, run, _, hexec, ⟨hq, .inr (.inr ?_)⟩, fun hswitch => absurd hswitch (by decide)⟩
    dsimp only
    rw [hcur, hshape.tasks]
    exact ⟨hmem, .inr ⟨hstate, Function.update_self ..⟩⟩
  | switch =>
    obtain ⟨s', run', hok, hq, -, hcur⟩ := h.queues.switch h.switchable
    have hexec : (SleepAct.statement now ms).exec frequency r =
        .ok ⟨s', Function.update r.pc r.sched.cpu.current .outside, r.alarm, now⟩ := by
      simp only [SleepAct.exec, hpc, sleepStatement, hok, bind, Except.bind]
      rfl
    exact ⟨_, run', wait, hexec, inv_of_currentRuns hq hcur, fun _ => hcur⟩

lemma Inv.tick (h : r.Inv run wait) (now : Nat) :
    ∃ r' run' wait', (SleepAct.tick now).exec frequency r = .ok r' ∧ r'.Inv run' wait' ∧
      (r.sched.cpu.current ≠ 0 → CurrentRuns r'.sched) := by
  obtain ⟨s₁, woken, rest, hwake, hq₁, hkept, -⟩ := h.queues.wake now
  have hswitchable : Switchable s₁ := by
    have hcur := h.switchable
    unfold Switchable at hcur ⊢
    rw [hkept.current, hkept.idle, hkept.cleanupTask, hkept.tasks]
    exact hcur
  by_cases hnone : s₁.cpu.current ≠ 0
  · obtain ⟨s', run', hok, hq, -, hcur⟩ := hq₁.switch hswitchable
    have hexec : (SleepAct.tick now).exec frequency r = .ok { r with sched := s', now := now } := by
      simp only [SleepAct.exec, timerInterrupt, hwake, bind, Except.bind, if_pos hnone, hok]
    exact ⟨_, run', _, hexec, inv_of_currentRuns hq hcur, fun _ => hcur⟩
  · have hexec : (SleepAct.tick now).exec frequency r = .ok { r with sched := s₁, now := now } := by
      simp only [SleepAct.exec, timerInterrupt, hwake, bind, Except.bind, if_neg hnone]
    have hzero : s₁.cpu.current = 0 := not_not.mp hnone
    exact ⟨_, _, _, hexec, ⟨hq₁, .inl hzero⟩, fun hsome => absurd (hkept.current ▸ hzero) hsome⟩

lemma Inv.act (h : r.Inv run wait) (act : SleepAct) (hact : act.Enabled r) :
    ∃ r' run' wait', act.exec frequency r = .ok r' ∧ r'.Inv run' wait' ∧
      (act.Switches r → CurrentRuns r'.sched) := by
  cases act with
  | create t process =>
    obtain ⟨h0, hlt, hnew, hi, hc, hpc⟩ := hact
    obtain ⟨s', hok, hq, hkept⟩ := @SleepQueues.create _ _ _ _ t h.queues process h0 hlt hnew hi hc
    have hexec : (SleepAct.create t process).exec frequency r =
        .ok { r with sched := s', pc := Function.update r.pc t .outside } := by
      simp only [SleepAct.exec, hok, bind, Except.bind]
    refine ⟨_, _, wait, hexec, ⟨hq, ?_⟩, False.elim⟩
    dsimp only
    rw [hkept.current, hkept.idle, hkept.cleanupTask, hkept.tasks]
    rcases h.current with h0 | hspecial | ⟨hmem, -⟩
    · exact .inl h0
    · exact .inr (.inl hspecial)
    · have hrun := h.running hmem (by rw [hpc]; decide)
      have hne : r.sched.cpu.current ≠ t := by
        rintro rfl
        exact hnew hmem
      refine .inr (.inr ⟨List.mem_append_left [t] hmem, .inl (hkept.still _ ?_)⟩)
      show ((taskInit r.sched t process).task r.sched.cpu.current).state = .RUNNING
      rw [← hrun]
      exact congrArg Task.state (Function.update_of_ne hne _ _)
  | yield =>
    obtain ⟨s', run', hok, hq, -, hcur⟩ := h.queues.switch h.switchable
    have hexec : SleepAct.yield.exec frequency r = .ok { r with sched := s' } := by
      simp only [SleepAct.exec, hok, bind, Except.bind]
    exact ⟨_, run', wait, hexec, inv_of_currentRuns hq hcur, fun _ => hcur⟩
  | statement now ms => exact h.statement hact.1
  | tick now => exact h.tick now

lemma Inv.reachable (h : r.Inv run wait) (hrun : Relation.ReflTransGen (SleepStep frequency) r r') :
    ∃ run' wait', r'.Inv run' wait' := by
  induction hrun with
  | refl => exact ⟨run, wait, h⟩
  | tail _ hstep ih =>
    obtain ⟨run₁, wait₁, h₁⟩ := ih
    obtain ⟨act, hact, hexec⟩ := hstep
    obtain ⟨r₂, run₂, wait₂, hok, h₂, -⟩ := h₁.act act hact
    rw [hok] at hexec
    cases hexec
    exact ⟨run₂, wait₂, h₂⟩

lemma settled (h : SleepQueues s alarm run wait) (hcur : CurrentRuns s) (ht : t ∈ s.tasks) :
    Settled s run (wait s.cpu.sleepingTasks) t := by
  have hinv : SchedInv s run wait := ⟨h.queues, h.unlocked, h.distinct, hcur⟩
  obtain ⟨place, hplace, -⟩ := hinv.existsUnique_place ht
  cases place with
  | runQueue =>
    obtain ⟨hstate, -, -, hcount, hnot, hne⟩ := hplace
    exact .inr (.inl ⟨hne, hstate, List.count_pos_iff.mp (by omega), hnot _⟩)
  | running =>
    obtain ⟨hstate, heq, hnot, hnot'⟩ := hplace
    exact .inl ⟨heq, hstate, hnot, hnot' _⟩
  | waitQueue wq =>
    obtain ⟨hstate, -, hcount, -, hnot, hne⟩ := hplace
    have hin : t ∈ wait wq := List.count_pos_iff.mp (by omega)
    have hwq : wq = s.cpu.sleepingTasks := by
      by_contra hother
      rw [h.only wq hother] at hin
      cases hin
    exact .inr (.inr ⟨hne, hstate, hnot, hwq ▸ hin⟩)
  | dead => exact absurd hplace.1 (h.alive t ht)

lemma onQueues (h : SleepQueues s alarm run wait) : OnQueues s run (wait s.cpu.sleepingTasks) :=
  ⟨h.queues.runLinked, h.queues.waitLinked _⟩

lemma Inv.inTime (h : r.Inv run wait) : r.InTime frequency := by
  have hq := h.queues
  refine ⟨?_, ?_, ?_, ?_⟩
  · intro act hact
    obtain ⟨r', -, -, hexec, -⟩ := h.act act hact
    exact ⟨r', hexec⟩
  · refine ⟨run, _, onQueues hq, hq.queues.runLinked.nodup, (hq.queues.waitLinked _).nodup, ?_⟩
    intro p hrun hsleep
    have hready := ((hq.queues.ready p).mp hrun).2.2
    have hblocked := ((hq.queues.blocked p _).mp hsleep).2.2.1
    exact absurd (hready.symm.trans hblocked) (by decide)
  · intro act r' hact hswitches hexec
    obtain ⟨r₁, run₁, wait₁, hok, h₁, hcur⟩ := h.act act hact
    rw [hok] at hexec
    cases hexec
    exact ⟨run₁, _, onQueues h₁.queues, fun p hp => settled h₁.queues (hcur hswitches) hp⟩
  · intro now _
    obtain ⟨s', woken, rest, hok, hq', hkept, hsplit, hdue, hlater⟩ := hq.wake now
    have hself : Function.update wait r.sched.cpu.sleepingTasks rest s'.cpu.sleepingTasks = rest := by
      rw [hkept.sleepingTasks, Function.update_self]
    have hon := onQueues hq'
    have hnodup := (hq.queues.waitLinked r.sched.cpu.sleepingTasks).nodup
    rw [hself] at hon
    rw [hsplit] at hnodup
    refine ⟨s', run, _, _, rest, hok, onQueues hq, hon, ?_⟩
    intro p hp
    refine ⟨hq.alarm p hp, ?_, ?_⟩
    all_goals rw [hsplit] at hp
    · intro hcome
      have hin : p ∈ woken := (List.mem_append.mp hp).resolve_right (fun hr => absurd (hlater p hr) (by omega))
      have hrun : p ∈ run ++ woken := List.mem_append_right run hin
      exact ⟨hrun, fun hr => (List.nodup_append.mp hnodup).2.2 p hin p hr rfl, ((hq'.queues.ready p).mp hrun).2.2⟩
    · intro hcome
      exact (List.mem_append.mp hp).resolve_left (fun hw => absurd (hdue p hw) (by omega))

end SleepRun

/-- **Timed sleep.** On one CPU whose tasks sleep, and where no process exits, whatever statement of
`scheduler_sleep_current` the timer interrupts, no `ASSERT` fails, every task is on the queue that its state
says, and sleepers are woken by the first tick that reaches their alarm. -/
theorem timed_sleep_survives_preemption {idle cleanupTask frequency now : Nat} {r : SleepRun}
    (hboot : BootState s idle cleanupTask) (hexit : ∀ p, s.exiting p = false)
    (hrun : Relation.ReflTransGen (SleepStep frequency)
      ⟨commonCpuInitTasks s idle cleanupTask, fun _ => .outside, alarm, now⟩ r) : r.InTime frequency := by
  have hinv := hboot.inv
  have hqueues : SleepQueues (commonCpuInitTasks s idle cleanupTask) alarm [] (fun _ => []) := by
    refine ⟨hinv.queues, hinv.unlocked, hinv.distinct, fun _ _ => rfl, List.Pairwise.nil, ?_, hexit, rfl, ?_⟩
    · intro p hp
      cases hp
    · intro p hp
      rw [show (commonCpuInitTasks s idle cleanupTask).tasks = [] from hboot.tasks] at hp
      cases hp
  obtain ⟨run, wait, h⟩ := (SleepRun.inv_of_currentRuns hqueues hinv.current).reachable hrun
  exact h.inTime

instance (r : SleepRun) : (act : SleepAct) → Decidable (act.Enabled r)
  | .create t _ => inferInstanceAs (Decidable (t ≠ 0 ∧ t < 2 ^ 64 ∧ t ∉ r.sched.tasks ∧ t ≠ r.sched.cpu.idle ∧
      t ≠ r.sched.cpu.cleanupTask ∧ r.pc r.sched.cpu.current = .outside))
  | .yield => inferInstanceAs (Decidable (r.pc r.sched.cpu.current = .outside))
  | .statement now _ => inferInstanceAs (Decidable (r.sched.cpu.current ∈ r.sched.tasks ∧ r.now ≤ now))
  | .tick now => inferInstanceAs (Decidable (r.now ≤ now))

/-- A CPU that has just been set up. -/
def sleepBoot : SleepRun := ⟨commonCpuInitTasks bareCpu 0x10 0x20, fun _ => .outside, fun _ => 0, 0⟩

/-- The first of two tasks goes to sleep for no time at all and is interrupted before its switch, twice. -/
def sleepBootActs : List SleepAct :=
  [.create 0x30 0, .create 0x40 0, .yield, .statement 5 0, .statement 5 0, .statement 5 0, .statement 5 0,
    .statement 5 0, .statement 5 0, .tick 5, .tick 6]

/-- What a step does in a run that is computed. -/
def sleepExec (r : SleepRun) (act : SleepAct) : Option (Except Halt SleepRun) := some (act.exec 1000 r)

/-- The first task runs again, with its own switch still to come. -/
theorem timed_sleep_survives_preemption_twice :
    BootState bareCpu 0x10 0x20 ∧
      ∃ r, Relation.ReflTransGen (SleepStep 1000) sleepBoot r ∧ r.sched.cpu.current = 0x30 ∧
        r.pc 0x30 = .switch ∧ (r.sched.task 0x30).state = .RUNNING ∧ r.InTime 1000 := by
  have hboot : BootState bareCpu 0x10 0x20 :=
    ⟨by decide, by decide, rfl, fun _ => rfl, by decide, by decide, by decide⟩
  have hcheck : checkSteps sleepExec (fun r act => decide (act.Enabled r)) sleepBoot sleepBootActs = true := by
    decide +kernel
  have hafter := runSteps_afterSteps (show (runSteps sleepExec sleepBoot sleepBootActs).isSome = true by decide +kernel)
  have hrun : Relation.ReflTransGen (SleepStep 1000) sleepBoot (afterSteps sleepExec sleepBoot sleepBootActs) :=
    runSteps_rel (fun hact hexec => ⟨_, of_decide_eq_true hact, Option.some.inj hexec⟩) hcheck hafter
  exact ⟨hboot, _, hrun, by decide +kernel, by decide +kernel, by decide +kernel,
    timed_sleep_survives_preemption hboot (fun _ => rfl) hrun⟩

end KaworuOS.Proofs
