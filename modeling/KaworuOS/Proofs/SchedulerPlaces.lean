import KaworuOS.Proofs.SchedulerSteps
import Mathlib.Logic.Relation

/-!
# Every task is in exactly one place

The invariant between two operations, its preservation by every operation, and what it says about
the place of an ordinary task.
-/

namespace KaworuOS.Proofs
open Lib

variable {s s' : Sched} {run : List Nat} {wait : Nat → List Nat} {t : Nat}

/-- The current task is one that the queues know how to treat in a switch. -/
def Switchable (s : Sched) : Prop :=
  s.cpu.current = 0 ∨ (s.cpu.current = s.cpu.idle ∨ s.cpu.current = s.cpu.cleanupTask) ∨
    s.cpu.current ∈ s.tasks

/-- What holds between two operations. -/
structure SchedInv (s : Sched) (run : List Nat) (wait : Nat → List Nat) : Prop where
  queues : QueueInv s run wait 0
  unlocked : ∀ wq, (s.waitQueue wq).locked = false
  distinct : s.cpu.idle ≠ s.cpu.cleanupTask
  current : s.cpu.current = 0 ∨ (s.cpu.current = s.cpu.idle ∨ s.cpu.current = s.cpu.cleanupTask) ∨
    s.cpu.current ∈ s.tasks ∧ (s.task s.cpu.current).state = .RUNNING

lemma SchedInv.switchable (h : SchedInv s run wait) : Switchable s := by
  rcases h.current with h0 | hspecial | ⟨hmem, -⟩
  · exact .inl h0
  · exact .inr (.inl hspecial)
  · exact .inr (.inr hmem)

lemma SchedInv.of_kept (h : SchedInv s run wait) {run' : List Nat} {wait' : Nat → List Nat}
    (hq : QueueInv s' run' wait' 0) (hk : Kept s s') : SchedInv s' run' wait' := by
  refine ⟨hq, fun wq => (hk.locks wq).trans (h.unlocked wq), ?_, ?_⟩
  · rw [hk.idle, hk.cleanupTask]
    exact h.distinct
  · rw [hk.current, hk.idle, hk.cleanupTask, hk.tasks]
    rcases h.current with h0 | hspecial | ⟨hmem, hrun⟩
    · exact .inl h0
    · exact .inr (.inl hspecial)
    · exact .inr (.inr ⟨hmem, hk.still _ hrun⟩)

lemma schedulerCpuHasRunnableTasks_nil (h : QueueInv s [] wait 0) :
    schedulerCpuHasRunnableTasks s = .ok false := by
  have hcount : s.cpu.runnableTasks.runnables.count = 0 := h.runLinked.count
  simp [schedulerCpuHasRunnableTasks, runqueueAcquire, runqueueRelease, h.unlocked, Sched.setRunLock,
    assertThat, intrusivelistCount, hcount, bind, Except.bind]

lemma switchTo_eq {prev next : Nat} (hcpu : (s.task next).cpu = s.cpu.addr)
    (hstate : (s.task next).state = .READY ∨ next = s.cpu.idle ∨ next = s.cpu.cleanupTask)
    (hwait : (s.task next).waitingOn = 0)
    (hfirst : next = s.cpu.idle →
      schedulerCpuHasRunnableTasks ((s.setState next .RUNNING).setCurrent next) = .ok false) :
    switchTo s prev next = .ok ((s.setState next .RUNNING).setCurrent next) := by
  have hrun : (((s.setState next .RUNNING).setCurrent next).task next).state = .RUNNING := by
    rw [show ((s.setState next .RUNNING).setCurrent next).task = (s.setState next .RUNNING).task from rfl,
      Sched.setState, setTask_same]
  unfold switchTo
  rw [assertThat_true hcpu, assertThat_true hstate, assertThat_true hwait]
  simp only [bind, Except.bind]
  rw [assertThat_true (.inr hrun)]
  by_cases hsame : prev = next
  · rw [if_pos hsame]
  · rw [if_neg hsame]
    by_cases hprev : prev ≠ 0
    · rw [if_pos hprev]
    · rw [if_neg hprev]
      by_cases hidle : next ≠ s.cpu.idle
      · have hidle' : next ≠ ((s.setState next .RUNNING).setCurrent next).cpu.idle := hidle
        rw [if_pos hidle']
      · have hidle' : ¬next ≠ ((s.setState next .RUNNING).setCurrent next).cpu.idle := hidle
        rw [if_neg hidle', hfirst (by simpa using hidle)]
        rfl

lemma QueueInv.runSpecial (h : QueueInv s run wait 0) (hnone : NoneRunning s) {next : Nat}
    (hnext : next = s.cpu.idle ∨ next = s.cpu.cleanupTask) :
    QueueInv ((s.setState next .RUNNING).setCurrent next) run wait 0 := by
  have hspecial : SpecialTask s next := by
    rcases hnext with rfl | rfl
    · exact h.idle
    · exact h.cleanup
  have hne : ∀ p ∈ s.tasks, p ≠ next := fun p hp => (hspecial.ne_of_mem hp).symm
  have hother : ∀ p ∈ s.tasks, (s.setState next .RUNNING).task p = s.task p :=
    fun p hp => setTask_other (hne p hp) _
  have hkeep : ∀ {q : Nat}, SpecialTask s q → SpecialTask (s.setState next .RUNNING) q := by
    intro q hq
    by_cases hqn : q = next
    · subst hqn
      have hfields : (s.setState q .RUNNING).task q = { s.task q with state := .RUNNING } := setTask_same ..
      exact ⟨hq.ne_zero, hq.not_mem, by rw [hfields]; exact hq.cpu, by rw [hfields]; exact hq.waitingOn,
        by rw [hfields]; exact .inr rfl⟩
    · exact hq.setTask hqn _
  have hstep : QueueInv (s.setState next .RUNNING) run wait 0 := by
    refine ⟨h.addr_ne, h.sleeping_ne, hkeep h.idle, hkeep h.cleanup, h.unlocked, h.runLinked, h.waitLinked,
      ?_, ?_, ?_, ?_, h.runNull, h.waitNull, ?_⟩
    · intro p hp
      rw [hother p hp]
      exact h.tasks p hp
    · intro p
      rw [h.ready p]
      refine and_congr_right (fun hp => ?_)
      rw [hother p hp]
    · intro p wq
      rw [h.blocked p wq]
      refine and_congr_right (fun hp => ?_)
      rw [hother p hp]
    · intro p hp
      rw [hother p hp]
      exact h.waiting p hp
    · intro p hp
      rw [hother p hp]
      exact h.running p hp
  apply hstep.setCurrent
  intro p hp _
  rw [hother p hp]
  exact hnone p hp

lemma QueueInv.runTask (h : QueueInv s run wait t) (hnone : NoneRunning s) (ht : t ∈ s.tasks)
    (hwait : (s.task t).waitingOn = 0) :
    QueueInv ((s.setState t .RUNNING).setCurrent t) run wait 0 := by
  have hfields : (s.setState t .RUNNING).task t = { s.task t with state := .RUNNING } := setTask_same ..
  have hheld : QueueInv (s.setState t .RUNNING) run wait t := h.setHeld ht (h.tasks t ht).2.2
  have hcur : QueueInv ((s.setState t .RUNNING).setCurrent t) run wait t := by
    apply hheld.setCurrent
    intro p hp hpt
    rw [Sched.setState, setTask_other hpt]
    exact hnone p hp
  apply hcur.letGo
  · change ((s.setState t .RUNNING).task t).waitingOn = 0
    rw [hfields]
    exact hwait
  · left
    refine ⟨?_, rfl⟩
    change ((s.setState t .RUNNING).task t).state = .RUNNING
    rw [hfields]

/-- A switch succeeds from any state in which the queues are in order. The task that ran may have been put back at
the end of the run queue before the next one is picked. -/
theorem schedulerSwitch_spec (h : QueueInv s run wait 0) (hunlocked : ∀ wq, (s.waitQueue wq).locked = false)
    (hdistinct : s.cpu.idle ≠ s.cpu.cleanupTask) (hcur : Switchable s) :
    ∃ s' run', schedulerSwitch s = .ok s' ∧ SchedInv s' run' wait ∧ SameShape s s' ∧
      ∃ back, Picks s (run ++ back) s'.cpu.current run' := by
  have hcur' : s.cpu.current = 0 ∨ SpecialTask s s.cpu.current ∧
      (s.cpu.current = s.cpu.idle ∨ s.cpu.current = s.cpu.cleanupTask) ∨ s.cpu.current ∈ s.tasks := by
    rcases hcur with h0 | hspecial | hmem
    · exact .inl h0
    · refine .inr (.inl ⟨?_, hspecial⟩)
      rcases hspecial with he | he
      · exact he ▸ h.idle
      · exact he ▸ h.cleanup
    · exact .inr (.inr hmem)
  obtain ⟨s₁, back, hput, hshape₁, hnone₁, h₁⟩ := putBackPrev_spec h hcur'
  have hswitch : schedulerSwitch s =
      (schedulerPickNext s₁ >>= fun r => switchTo r.2 s.cpu.current r.1) := by
    rw [schedulerSwitch, hput]
    rfl
  -- the invariant after `switchTo`, from the facts that both halves keep
  have hfinish : ∀ {s₂ : Sched} {run₂ : List Nat} {next : Nat}, SameShape s s₂ →
      QueueInv ((s₂.setState next .RUNNING).setCurrent next) run₂ wait 0 →
      ((next = s₂.cpu.idle ∨ next = s₂.cpu.cleanupTask) ∨ next ∈ s₂.tasks) →
      SchedInv ((s₂.setState next .RUNNING).setCurrent next) run₂ wait := by
    intro s₂ run₂ next hshape hq hnext
    refine ⟨hq, fun wq => (hshape.locks wq).trans (hunlocked wq), ?_, ?_⟩
    · change s₂.cpu.idle ≠ s₂.cpu.cleanupTask
      rw [hshape.idle, hshape.cleanupTask]
      exact hdistinct
    · right
      rcases hnext with hspecial | hmem
      · exact .inl hspecial
      · right
        refine ⟨hmem, ?_⟩
        change ((s₂.setState next .RUNNING).task next).state = .RUNNING
        rw [Sched.setState, setTask_same]
  have hkeeps : ∀ {s₂ : Sched} {next : Nat}, SameShape s s₂ →
      SameShape s ((s₂.setState next .RUNNING).setCurrent next) := by
    intro s₂ next hshape
    have hrun := hshape.trans (sameShape_setTask s₂ next { s₂.task next with state := .RUNNING } rfl)
    exact ⟨hrun.tasks, hrun.addr, hrun.idle, hrun.cleanupTask, hrun.sleepingTasks, hrun.locks, hrun.process,
      hrun.exiting⟩
  rw [hswitch]
  by_cases hneeds : s₁.cpu.needsCleanup = true
  · -- the cleanup task goes first
    have hpick : schedulerPickNext s₁ = .ok (s₁.cpu.cleanupTask, s₁) := by
      simp [schedulerPickNext, hneeds]
    have hrun := h₁.runSpecial hnone₁ (.inr rfl)
    refine ⟨_, run ++ back, ?_, hfinish hshape₁ hrun (.inl (.inr rfl)), hkeeps hshape₁, back,
      .cleanup hshape₁.cleanupTask rfl⟩
    rw [hpick]
    apply switchTo_eq h₁.cleanup.cpu (.inr (.inr rfl)) h₁.cleanup.waitingOn
    intro hidle
    rw [hshape₁.cleanupTask, hshape₁.idle] at hidle
    exact absurd hidle.symm hdistinct
  · have hpick : schedulerPickNext s₁ = pickNextLoop wordSize s₁ := by
      simp [schedulerPickNext, hneeds]
    have hdistinct₁ : s₁.cpu.idle ≠ s₁.cpu.cleanupTask := by
      rw [hshape₁.idle, hshape₁.cleanupTask]
      exact hdistinct
    obtain ⟨next, s₂, run₂, hloop, hshape₂, hnone₂, hcase, hpicks⟩ :=
      pickNextLoop_spec h₁ hnone₁ hdistinct₁ h₁.run_length_lt
    have hshape := hshape₁.trans hshape₂
    have hpicks := hpicks.of_shape hshape₁
    rcases hcase with ⟨rfl, rfl, h₂⟩ | ⟨hmem, h₂, hready, hwait⟩
    · have hrun := h₂.runSpecial hnone₂ (.inl rfl)
      refine ⟨_, [], ?_, hfinish hshape hrun (.inl (.inl rfl)), hkeeps hshape, back, hpicks⟩
      rw [hpick, hloop]
      exact switchTo_eq h₂.idle.cpu (.inr (.inl rfl)) h₂.idle.waitingOn
        (fun _ => schedulerCpuHasRunnableTasks_nil hrun)
    · have hrun := h₂.runTask hnone₂ hmem hwait
      refine ⟨_, run₂, ?_, hfinish hshape hrun (.inr hmem), hkeeps hshape, back, hpicks⟩
      rw [hpick, hloop]
      apply switchTo_eq (h₂.tasks next hmem).2.2 (.inl hready) hwait
      intro hidle
      exact absurd hidle.symm (h₂.idle.ne_of_mem hmem)

/-- What a switch has done to the run queue, when `s` is the state before the operation that it ends. -/
def SwitchesFrom (s s' : Sched) (run run' : List Nat) : Prop :=
  SameShape s s' ∧ ∃ back, Picks s (run ++ back) s'.cpu.current run'

lemma SwitchesFrom.of_shape {s₁ : Sched} {run' : List Nat} (h : SwitchesFrom s₁ s' run run') (hshape : SameShape s s₁) :
    SwitchesFrom s s' run run' := by
  obtain ⟨hshape', back, hpicks⟩ := h
  exact ⟨hshape.trans hshape', back, hpicks.of_shape hshape⟩

lemma SchedInv.block_switch (h : SchedInv s run wait) (hmem : s.cpu.current ∈ s.tasks)
    (hrun : (s.task s.cpu.current).state = .RUNNING) {wq : Nat} (hwq : wq ≠ 0) {fields : Task}
    (hcpu : fields.cpu = s.cpu.addr) (hprocess : fields.process = (s.task s.cpu.current).process)
    (hstate : fields.state = .BLOCKED) (hwait : fields.waitingOn = wq)
    {k₁ k₂ : List Nat} (hk : wait wq = k₁ ++ k₂) {r : Nodes × IntrusiveList}
    (hlinked : Linked r.1 r.2 (k₁ ++ s.cpu.current :: k₂))
    (hsame : SameOutside s.waitNode r.1 (k₁ ++ s.cpu.current :: k₂)) :
    ∃ s' run', schedulerSwitch ((s.setTask s.cpu.current fields).setWaiters wq r) = .ok s' ∧
      SchedInv s' run' (Function.update wait wq (k₁ ++ s.cpu.current :: k₂)) ∧ SwitchesFrom s s' run run' := by
  let s₁ := s.setTask s.cpu.current fields
  have hheld : QueueInv s₁ run wait s.cpu.current := (h.queues.hold hmem (.inl hrun)).setHeld hmem hcpu
  have hfields : s₁.task s.cpu.current = fields := setTask_same ..
  have hq := hheld.putWait hmem hwq (by rw [hfields]; exact hstate) (by rw [hfields]; exact hwait) hk
    hlinked hsame
  have hlocks : ∀ wq', ((s₁.setWaiters wq r).waitQueue wq').locked = false :=
    fun wq' => ((kept_setWaiters s₁ wq r).locks wq').trans (h.unlocked wq')
  have hshape : SameShape s (s₁.setWaiters wq r) :=
    (sameShape_setTask s _ fields hprocess).trans (kept_setWaiters s₁ wq r).toSameShape
  obtain ⟨s', run', hok, h', hswitched⟩ := schedulerSwitch_spec hq hlocks h.distinct (.inr (.inr hmem))
  exact ⟨s', run', hok, h', SwitchesFrom.of_shape hswitched hshape⟩

lemma SchedInv.assertCurrentMayBlock (h : SchedInv s run wait) (hmem : s.cpu.current ∈ s.tasks)
    (hrun : (s.task s.cpu.current).state = .RUNNING) : assertCurrentMayBlock s = .ok () := by
  obtain ⟨h0, -, hcpu⟩ := h.queues.tasks _ hmem
  rw [KaworuOS.assertCurrentMayBlock, assertThat_true h0,
    assertThat_true (h.queues.idle.ne_of_mem hmem).symm, assertThat_true hcpu, assertThat_true hrun]
  rfl

lemma SchedInv.block (h : SchedInv s run wait) (hmem : s.cpu.current ∈ s.tasks)
    (hrun : (s.task s.cpu.current).state = .RUNNING) {wq : Nat} (hwq : wq ≠ 0) :
    ∃ s' run', (waitqueueEnqueue s wq s.cpu.current >>= schedulerBlockCurrent) = .ok s' ∧
      SchedInv s' run' (Function.update wait wq (wait wq ++ [s.cpu.current])) ∧ SwitchesFrom s s' run run' := by
  obtain ⟨h0, -, hcpu⟩ := h.queues.tasks _ hmem
  let r := intrusivelistInsertTail s.waitNode (s.waitQueue wq).waiters s.cpu.current
  let waiting : Task := { s.task s.cpu.current with waitingOn := wq }
  let blocked : Task := { s.task s.cpu.current with state := .BLOCKED, waitingOn := wq }
  let s₁ := (s.setTask s.cpu.current waiting).setWaiters wq r
  have hnot : s.cpu.current ∉ wait wq := (h.queues.hold hmem (.inl hrun)).held_not_mem_wait wq
  obtain ⟨hlinked, hsame⟩ := insertTail_spec (h.queues.waitLinked wq) h0 hnot
  have hlock := h.unlocked wq
  have henq : waitqueueEnqueue s wq s.cpu.current = .ok s₁ := by
    simp [waitqueueEnqueue, waitqueueAcquire, waitqueueEnqueueUnlocked, waitqueueRelease, assertThat, hlock,
      hrun, Sched.setWaitLock, Sched.setWaiters, Sched.setWaitingOn, Sched.setTask, bind, Except.bind, s₁, r,
      waiting]
  have hcur : s₁.task s.cpu.current = waiting := setTask_same ..
  have hset : s₁.setState s₁.cpu.current .BLOCKED = (s.setTask s.cpu.current blocked).setWaiters wq r := by
    simp [Sched.setState, Sched.setTask, Sched.setWaiters, s₁, waiting, blocked]
  obtain ⟨s', run', hswitch, h'⟩ := @SchedInv.block_switch s run wait h hmem hrun wq hwq blocked hcpu rfl rfl
    rfl (wait wq) [] (by simp) r hlinked hsame
  refine ⟨s', run', ?_, h'⟩
  rw [henq]
  change schedulerBlockCurrent s₁ = .ok s'
  have hci : s₁.cpu.current ≠ s₁.cpu.idle := (h.queues.idle.ne_of_mem hmem).symm
  have hcpu₁ : (s₁.task s₁.cpu.current).cpu = s₁.cpu.addr := (congrArg Task.cpu hcur).trans hcpu
  have hrun₁ : (s₁.task s₁.cpu.current).state = .RUNNING := (congrArg Task.state hcur).trans hrun
  have hwait₁ : (s₁.task s₁.cpu.current).waitingOn ≠ 0 := by
    rw [show (s₁.task s₁.cpu.current).waitingOn = wq from congrArg Task.waitingOn hcur]
    exact hwq
  rw [schedulerBlockCurrent, KaworuOS.assertCurrentMayBlock, assertThat_true (show s₁.cpu.current ≠ 0 from h0),
    assertThat_true hci, assertThat_true hcpu₁, assertThat_true hrun₁, assertThat_true hwait₁, hset]
  exact hswitch

lemma SchedInv.sleep (h : SchedInv s run wait) (hmem : s.cpu.current ∈ s.tasks)
    (hrun : (s.task s.cpu.current).state = .RUNNING) (now ticks : Nat) :
    ∃ s' run' k₁ k₂, schedulerSleepCurrent s now ticks = .ok s' ∧
      SchedInv s' run' (Function.update wait s.cpu.sleepingTasks (k₁ ++ s.cpu.current :: k₂)) ∧
      wait s.cpu.sleepingTasks = k₁ ++ k₂ ∧ (∀ p ∈ k₁, (s.task p).sleepUntil ≤ wadd now ticks) ∧
      (∀ p, k₂.head? = some p → wadd now ticks < (s.task p).sleepUntil) ∧
      (s'.task s.cpu.current).sleepUntil = wadd now ticks ∧
      (∀ p, p ≠ s.cpu.current → (s'.task p).sleepUntil = (s.task p).sleepUntil) ∧ SwitchesFrom s s' run run' := by
  obtain ⟨s₁, k₁, k₂, henq, hk, hbefore, hafter, hq, hshape, hcur, hdies, hself, -⟩ :=
    sleepEnqueue_spec h.queues h.unlocked hmem hrun now ticks
  have hdistinct : s₁.cpu.idle ≠ s₁.cpu.cleanupTask := by
    rw [hshape.idle, hshape.cleanupTask]
    exact h.distinct
  have hmem₁ : s₁.cpu.current ∈ s₁.tasks := by
    rw [hcur, hshape.tasks]
    exact hmem
  obtain ⟨s', run', hswitch, h', hswitched⟩ := schedulerSwitch_spec hq
    (fun wq => (hshape.locks wq).trans (h.unlocked wq)) hdistinct (.inr (.inr hmem₁))
  have htasks := sameTasks_schedulerSwitch hswitch
  refine ⟨s', run', k₁, k₂, ?_, h', hk, hbefore, hafter, (htasks _).1.trans hself,
    fun p hp => (htasks p).1.trans (hdies.alarm p (by simpa using hp)), SwitchesFrom.of_shape hswitched hshape⟩
  rw [schedulerSleepCurrent, h.assertCurrentMayBlock hmem hrun]
  simp only [bind, Except.bind, henq]
  exact hswitch

lemma SchedInv.exit (h : SchedInv s run wait) (hmem : s.cpu.current ∈ s.tasks)
    (hrun : (s.task s.cpu.current).state = .RUNNING) :
    ∃ s' run', taskExit s s.cpu.current = .ok s' ∧ SchedInv s' run' wait ∧ SwitchesFrom s s' run run' := by
  obtain ⟨h0, -, hcpu⟩ := h.queues.tasks _ hmem
  have hwait : (s.task s.cpu.current).waitingOn = 0 := by
    have hiff := h.queues.waiting _ hmem h0
    rw [hrun] at hiff
    simpa using hiff
  let dead : Task := { s.task s.cpu.current with state := .DEAD }
  have hheld : QueueInv (s.setTask s.cpu.current dead) run wait s.cpu.current :=
    (h.queues.hold hmem (.inl hrun)).setHeld hmem hcpu
  have hfields : (s.setTask s.cpu.current dead).task s.cpu.current = dead := setTask_same ..
  have hq := (hheld.letGo (by rw [hfields]; exact hwait) (.inr (by rw [hfields]))).setNeedsCleanup true
  have hshape : SameShape s ((s.setTask s.cpu.current dead).setNeedsCleanup true) :=
    (sameShape_setTask s _ dead rfl).trans (kept_setNeedsCleanup _ true).toSameShape
  obtain ⟨s', run', hok, h', hswitched⟩ := schedulerSwitch_spec hq h.unlocked h.distinct (.inr (.inr hmem))
  exact ⟨s', run', hok, h', SwitchesFrom.of_shape hswitched hshape⟩

lemma SchedInv.wakeOne (h : SchedInv s run wait) (wq : Nat) :
    ∃ s' more wait', (waitqueueDequeue s wq >>= fun r => schedulerWakeBlocked r.2 r.1) = .ok s' ∧
      SchedInv s' (run ++ more) wait' ∧ (∀ wq', wq' ≠ wq → wait' wq' = wait wq') ∧ Kept s s' := by
  have hlock := h.unlocked wq
  have hq := h.queues.setWaitLock wq true
  have hlocked : ((s.setWaitLock wq true).waitQueue wq).locked = true := by
    rw [setWaitLock_locked, if_pos rfl]
  rcases waitqueueDequeueUnlocked_spec hq hlocked with
    ⟨-, hdeq⟩ | ⟨t, k, s₁, -, hdeq, h₁, ht, hstate, hwait, hkept₁⟩
  · have hcall : waitqueueDequeue s wq = .ok (0, (s.setWaitLock wq true).setWaitLock wq false) := by
      rw [waitqueueDequeue, waitqueueAcquire_eq hlock]
      simp only [bind, Except.bind, hdeq, waitqueueRelease_eq hlocked]
    have hkept : Kept s ((s.setWaitLock wq true).setWaitLock wq false) := (Kept.refl _).bracket hlock
    refine ⟨_, [], wait, ?_, ?_, fun _ _ => rfl, hkept⟩
    · rw [hcall]
      rfl
    · rw [List.append_nil]
      exact h.of_kept (hq.setWaitLock wq false) hkept
  · have hcall : waitqueueDequeue s wq = .ok (t, s₁.setWaitLock wq false) := by
      rw [waitqueueDequeue, waitqueueAcquire_eq hlock]
      simp only [bind, Except.bind, hdeq, hkept₁.release]
    obtain ⟨s', hwake, h', hkept'⟩ := schedulerWakeBlocked_spec (h₁.setWaitLock wq false) ht hstate hwait
    have hkept := (hkept₁.bracket hlock).trans hkept'
    refine ⟨s', [t], _, ?_, h.of_kept h' hkept, fun wq' hne => Function.update_of_ne hne _ _, hkept⟩
    rw [hcall]
    exact hwake

lemma SchedInv.wakeAll (h : SchedInv s run wait) (wq : Nat) :
    ∃ s', schedulerWakeAll s wq = .ok s' ∧ SchedInv s' (run ++ wait wq) (Function.update wait wq []) ∧ Kept s s' := by
  have hlock := h.unlocked wq
  have hlocked : ((s.setWaitLock wq true).waitQueue wq).locked = true := by
    rw [setWaitLock_locked, if_pos rfl]
  obtain ⟨s₁, hloop, h₁, hkept⟩ := @wakeAllLoop_spec _ _ _ wq (wait wq) wordSize
    (h.queues.setWaitLock wq true) rfl hlocked (h.queues.wait_length_lt wq)
  have hkept' := hkept.bracket hlock
  refine ⟨s₁.setWaitLock wq false, ?_, h.of_kept (h₁.setWaitLock wq false) hkept', hkept'⟩
  rw [schedulerWakeAll, waitqueueAcquire_eq hlock]
  simp only [bind, Except.bind, hloop]
  exact hkept.release

lemma SchedInv.wakeSleepers (h : SchedInv s run wait) (now : Nat) :
    ∃ s' woken rest, schedulerWakeSleepers s now = .ok s' ∧
      SchedInv s' (run ++ woken) (Function.update wait s.cpu.sleepingTasks rest) ∧
      WakesUp s now (wait s.cpu.sleepingTasks) woken rest ∧
      (∀ p, p ∉ woken → (s'.task p).sleepUntil = (s.task p).sleepUntil) ∧ Kept s s' := by
  obtain ⟨s', woken, rest, hok, hwakes, hq, hkept, hdies⟩ := schedulerWakeSleepers_spec h.queues h.unlocked now
  exact ⟨s', woken, rest, hok, h.of_kept hq hkept, hwakes, hdies.alarm, hkept⟩

lemma QueueInv.create (h : QueueInv s run wait 0) {process : Nat} (ht0 : t ≠ 0) (htlt : t < 2 ^ 64)
    (hnew : t ∉ s.tasks) (hti : t ≠ s.cpu.idle) (htc : t ≠ s.cpu.cleanupTask) :
    QueueInv { taskInit s t process with tasks := s.tasks ++ [t] } run wait t := by
  let fields : Task := ⟨s.cpu.addr, .READY, 0, process, 0⟩
  have hsame : (taskInit s t process).task t = fields := Function.update_self ..
  have hother : ∀ {p}, p ≠ t → (taskInit s t process).task p = s.task p :=
    fun hp => Function.update_of_ne hp _ _
  have hne : ∀ {p}, p ∈ s.tasks → p ≠ t := by
    rintro p hp rfl
    exact hnew hp
  have hspecial : ∀ {q}, SpecialTask s q → q ≠ t →
      SpecialTask { taskInit s t process with tasks := s.tasks ++ [t] } q := by
    intro q hq hqt
    have htask : (taskInit s t process).task q = s.task q := hother hqt
    refine ⟨hq.ne_zero, ?_, (congrArg Task.cpu htask).trans hq.cpu,
      (congrArg Task.waitingOn htask).trans hq.waitingOn, ?_⟩
    · simp [hq.not_mem, hqt]
    · change ((taskInit s t process).task q).state = .READY ∨ ((taskInit s t process).task q).state = .RUNNING
      rw [htask]
      exact hq.state
  have hrun : ∀ p ∈ run, p ≠ t := fun p hp => hne ((h.ready p).mp hp).1
  have hwait : ∀ wq, ∀ p ∈ wait wq, p ≠ t := fun wq p hp => hne ((h.blocked p wq).mp hp).1
  refine ⟨h.addr_ne, h.sleeping_ne, hspecial h.idle hti.symm, hspecial h.cleanup htc.symm, h.unlocked,
    h.runLinked.congr (fun p hp => nodeInit_other (hrun p hp)),
    fun wq => (h.waitLinked wq).congr (fun p hp => nodeInit_other (hwait wq p hp)), ?_, ?_, ?_, ?_, ?_, ?_, ?_⟩
  · intro p hp
    rcases List.mem_append.mp hp with hp | hp
    · obtain ⟨h1, h2, h3⟩ := h.tasks p hp
      exact ⟨h1, h2, (congrArg Task.cpu (hother (hne hp))).trans h3⟩
    · rw [List.mem_singleton.mp hp]
      exact ⟨ht0, htlt, congrArg Task.cpu hsame⟩
  · intro p
    rw [h.ready p]
    change _ ↔ p ∈ s.tasks ++ [t] ∧ p ≠ t ∧ ((taskInit s t process).task p).state = .READY
    by_cases hpt : p = t
    · subst hpt
      simp [hnew]
    · rw [hother hpt]
      simp only [List.mem_append, List.mem_singleton, hpt, or_false]
      refine and_congr_right (fun hp => ?_)
      simp [hpt, (h.tasks p hp).1]
  · intro p wq
    rw [h.blocked p wq]
    change _ ↔ p ∈ s.tasks ++ [t] ∧ p ≠ t ∧ ((taskInit s t process).task p).state = .BLOCKED ∧
      ((taskInit s t process).task p).waitingOn = wq
    by_cases hpt : p = t
    · subst hpt
      simp [hnew]
    · rw [hother hpt]
      simp only [List.mem_append, List.mem_singleton, hpt, or_false]
      refine and_congr_right (fun hp => ?_)
      simp [hpt, (h.tasks p hp).1]
  · intro p hp hpt
    have hp' : p ∈ s.tasks := by simpa [hpt] using hp
    change ((taskInit s t process).task p).state = .BLOCKED ↔ ((taskInit s t process).task p).waitingOn ≠ 0
    rw [hother hpt]
    exact h.waiting p hp' (h.tasks p hp').1
  · intro p hp hnot
    by_cases hpt : p = t
    · subst hpt
      exact nodeInit_same _ _
    · have hp' : p ∈ s.tasks := by simpa [hpt] using hp
      exact (nodeInit_other hpt).trans (h.runNull p hp' hnot)
  · intro p hp hnot
    by_cases hpt : p = t
    · subst hpt
      exact nodeInit_same _ _
    · have hp' : p ∈ s.tasks := by simpa [hpt] using hp
      exact (nodeInit_other hpt).trans (h.waitNull p hp' hnot)
  · intro p hp hpt hr
    have hp' : p ∈ s.tasks := by simpa [hpt] using hp
    exact h.running p hp' (h.tasks p hp').1 ((congrArg Task.state (hother hpt)).symm.trans hr)

/-- A task that has just been set up goes to the end of the run queue. -/
lemma createTask_spec (h : QueueInv s run wait 0) {process : Nat} (ht0 : t ≠ 0) (htlt : t < 2 ^ 64)
    (hnew : t ∉ s.tasks) (hti : t ≠ s.cpu.idle) (htc : t ≠ s.cpu.cleanupTask) :
    ∃ s', createTask s t process = .ok s' ∧ QueueInv s' (run ++ [t]) wait 0 ∧
      Kept { taskInit s t process with tasks := s.tasks ++ [t] } s' := by
  have hq := @QueueInv.create s run wait t h process ht0 htlt hnew hti htc
  have hfields : (taskInit s t process).task t = ⟨s.cpu.addr, .READY, 0, process, 0⟩ :=
    Function.update_self ..
  exact schedulerEnqueue_spec hq (by simp)
    (by constructor <;> exact fun he => absurd ((congrArg Task.state hfields).symm.trans he) (by simp))
    (congrArg Task.waitingOn hfields)

lemma SchedInv.create (h : SchedInv s run wait) {process : Nat} (ht0 : t ≠ 0) (htlt : t < 2 ^ 64)
    (hnew : t ∉ s.tasks) (hti : t ≠ s.cpu.idle) (htc : t ≠ s.cpu.cleanupTask) :
    ∃ s', createTask s t process = .ok s' ∧ SchedInv s' (run ++ [t]) wait ∧
      Kept { taskInit s t process with tasks := s.tasks ++ [t] } s' := by
  obtain ⟨s', hok, h', hkept⟩ := @createTask_spec s run wait t h.queues process ht0 htlt hnew hti htc
  refine ⟨s', hok, ⟨h', fun wq => (hkept.locks wq).trans (h.unlocked wq), ?_, ?_⟩, hkept⟩
  · rw [hkept.idle, hkept.cleanupTask]
    exact h.distinct
  · rw [hkept.current, hkept.idle, hkept.cleanupTask, hkept.tasks]
    rcases h.current with h0 | hspecial | ⟨hmem, hrun⟩
    · exact .inl h0
    · exact .inr (.inl hspecial)
    · refine .inr (.inr ⟨List.mem_append_left _ hmem, hkept.still _ ?_⟩)
      have hct : s.cpu.current ≠ t := by
        intro he
        exact hnew (he ▸ hmem)
      exact (congrArg Task.state (Function.update_of_ne hct _ _)).trans hrun

lemma SchedInv.processExit (h : SchedInv s run wait) (process : Nat) :
    SchedInv (processExit s process) run wait := by
  have hq := h.queues
  exact ⟨⟨hq.addr_ne, hq.sleeping_ne, ⟨hq.idle.1, hq.idle.2, hq.idle.3, hq.idle.4, hq.idle.5⟩,
    ⟨hq.cleanup.1, hq.cleanup.2, hq.cleanup.3, hq.cleanup.4, hq.cleanup.5⟩, hq.unlocked, hq.runLinked,
    hq.waitLinked, hq.tasks, hq.ready, hq.blocked, hq.waiting, hq.runNull, hq.waitNull, hq.running⟩,
    h.unlocked, h.distinct, h.current⟩

lemma QueueInv.forget (h : QueueInv s run wait 0) {dead : Nat} (hstate : (s.task dead).state = .DEAD) :
    QueueInv { s with tasks := s.tasks.erase dead } run wait 0 := by
  have hsub : ∀ {p}, p ∈ s.tasks.erase dead → p ∈ s.tasks := fun hp => List.mem_of_mem_erase hp
  have hkeep : ∀ {p}, p ∈ s.tasks → (s.task p).state ≠ .DEAD → p ∈ s.tasks.erase dead := by
    intro p hp hpd
    have hpne : p ≠ dead := by rintro rfl; exact hpd hstate
    exact (List.mem_erase_of_ne hpne).mpr hp
  refine ⟨h.addr_ne, h.sleeping_ne, ⟨h.idle.1, fun hin => h.idle.2 (hsub hin), h.idle.3, h.idle.4, h.idle.5⟩,
    ⟨h.cleanup.1, fun hin => h.cleanup.2 (hsub hin), h.cleanup.3, h.cleanup.4, h.cleanup.5⟩, h.unlocked,
    h.runLinked, h.waitLinked, fun p hp => h.tasks p (hsub hp), ?_, ?_, fun p hp => h.waiting p (hsub hp),
    fun p hp => h.runNull p (hsub hp), fun p hp => h.waitNull p (hsub hp),
    fun p hp => h.running p (hsub hp)⟩
  · intro p
    rw [h.ready p]
    constructor
    · rintro ⟨hp, h0, hr⟩
      exact ⟨hkeep hp (by rw [hr]; decide), h0, hr⟩
    · rintro ⟨hp, h0, hr⟩
      exact ⟨hsub hp, h0, hr⟩
  · intro p wq
    rw [h.blocked p wq]
    constructor
    · rintro ⟨hp, h0, hb, hw⟩
      exact ⟨hkeep hp (by rw [hb]; decide), h0, hb, hw⟩
    · rintro ⟨hp, h0, hb, hw⟩
      exact ⟨hsub hp, h0, hb, hw⟩

lemma QueueInv.dead (h : QueueInv s run wait 0) (ht : t ∈ s.tasks) (hstate : (s.task t).state = .DEAD) :
    t ∉ run ∧ (∀ wq, t ∉ wait wq) ∧ (s.task t).waitingOn = 0 ∧ s.runnableNode t = ⟨0, 0⟩ ∧
      s.waitNode t = ⟨0, 0⟩ := by
  have hheld := h.hold ht (.inr hstate)
  have hrun := hheld.held_not_mem_run
  have hwait := hheld.held_not_mem_wait
  refine ⟨hrun, hwait, ?_, h.runNull t ht hrun, h.waitNull t ht hwait⟩
  have hiff := h.waiting t ht (h.tasks t ht).1
  rw [hstate] at hiff
  simpa using hiff

lemma SchedInv.cleanupRound (h : SchedInv s run wait) (hcur : s.cpu.current = s.cpu.cleanupTask) :
    ∃ s' run', taskCleanup s = .ok s' ∧ SchedInv s' run' wait ∧
      ((s.tasks.find? (fun t => (s.task t).state == .DEAD) = none ∧ SwitchesFrom s s' run run') ∨
        ∃ dead ∈ s.tasks, (s.task dead).state = .DEAD ∧ run' = run ∧ s' = { s with tasks := s.tasks.erase dead }) := by
  unfold taskCleanup
  cases hfind : s.tasks.find? (fun t => (s.task t).state == .DEAD) with
  | none =>
    obtain ⟨s', run', hok, h', hswitched⟩ := schedulerSwitch_spec (h.queues.setNeedsCleanup false) h.unlocked
      h.distinct (.inr (.inl (.inr hcur)))
    exact ⟨s', run', hok, h', .inl ⟨rfl, SwitchesFrom.of_shape hswitched (kept_setNeedsCleanup s false).toSameShape⟩⟩
  | some dead =>
    have hmem := List.mem_of_find?_eq_some hfind
    have hstate : (s.task dead).state = .DEAD := by simpa using List.find?_some hfind
    obtain ⟨-, -, hwait, hrunNull, hwaitNull⟩ := h.queues.dead hmem hstate
    refine ⟨{ s with tasks := s.tasks.erase dead }, run, ?_, ⟨h.queues.forget hstate, h.unlocked,
      h.distinct, .inr (.inl (.inr hcur))⟩, .inr ⟨dead, hmem, hstate, rfl, rfl⟩⟩
    simp only
    rw [assertThat_true hwait, assertThat_true (nodeIsNull_iff.mpr hwaitNull),
      assertThat_true (nodeIsNull_iff.mpr hrunNull)]
    rfl

/-- The operations of a run. -/
inductive SchedOp
  /-- A new task of a process is created and enqueued. -/
  | create (t process : Nat)
  | switch
  /-- `waitqueue_enqueue(current)`, then `scheduler_block_current`. -/
  | block (wq : Nat)
  /-- `waitqueue_dequeue`, then `scheduler_wake_blocked`. -/
  | wakeOne (wq : Nat)
  | wakeAll (wq : Nat)
  | sleep (now ticks : Nat)
  | wakeSleepers (now : Nat)
  | exit
  | processExit (process : Nat)
  /-- The cleanup task does one round of its loop. -/
  | cleanup

/-- What the callers of an operation provide: a new task is a fresh object, and only ordinary
tasks block, sleep and exit. -/
def SchedOp.Enabled (s : Sched) : SchedOp → Prop
  | create t _ => t ≠ 0 ∧ t < 2 ^ 64 ∧ t ∉ s.tasks ∧ t ≠ s.cpu.idle ∧ t ≠ s.cpu.cleanupTask
  | block wq => wq ≠ 0 ∧ s.cpu.current ∈ s.tasks
  | sleep _ _ => s.cpu.current ∈ s.tasks
  | exit => s.cpu.current ∈ s.tasks
  | cleanup => s.cpu.current = s.cpu.cleanupTask
  | _ => True

instance (s : Sched) : (op : SchedOp) → Decidable (op.Enabled s)
  | .create t _ => inferInstanceAs
      (Decidable (t ≠ 0 ∧ t < 2 ^ 64 ∧ t ∉ s.tasks ∧ t ≠ s.cpu.idle ∧ t ≠ s.cpu.cleanupTask))
  | .block wq => inferInstanceAs (Decidable (wq ≠ 0 ∧ s.cpu.current ∈ s.tasks))
  | .sleep _ _ => inferInstanceAs (Decidable (s.cpu.current ∈ s.tasks))
  | .exit => inferInstanceAs (Decidable (s.cpu.current ∈ s.tasks))
  | .cleanup => inferInstanceAs (Decidable (s.cpu.current = s.cpu.cleanupTask))
  | .switch | .wakeOne _ | .wakeAll _ | .wakeSleepers _ | .processExit _ => inferInstanceAs (Decidable True)

/-- The code of an operation. -/
def SchedOp.exec (s : Sched) : SchedOp → Except Halt Sched
  | create t process => createTask s t process
  | switch => schedulerSwitch s
  | block wq => waitqueueEnqueue s wq s.cpu.current >>= schedulerBlockCurrent
  | wakeOne wq => waitqueueDequeue s wq >>= fun r => schedulerWakeBlocked r.2 r.1
  | wakeAll wq => schedulerWakeAll s wq
  | sleep now ticks => schedulerSleepCurrent s now ticks
  | wakeSleepers now => schedulerWakeSleepers s now
  | exit => taskExit s s.cpu.current
  | processExit process => .ok (KaworuOS.processExit s process)
  | cleanup => taskCleanup s

/-- A step of a run. -/
def SchedStep (s s' : Sched) : Prop := ∃ op : SchedOp, op.Enabled s ∧ op.exec s = .ok s'

lemma SchedInv.running_of_mem (h : SchedInv s run wait) (hmem : s.cpu.current ∈ s.tasks) :
    (s.task s.cpu.current).state = .RUNNING := by
  rcases h.current with h0 | (hi | hc) | ⟨-, hrun⟩
  · exact absurd h0 (h.queues.tasks _ hmem).1
  · exact absurd hmem (hi ▸ h.queues.idle.not_mem)
  · exact absurd hmem (hc ▸ h.queues.cleanup.not_mem)
  · exact hrun

/-- The operations that end with `scheduler_switch`. -/
def SchedOp.switches (s : Sched) : SchedOp → Bool
  | switch | block _ | sleep _ _ | exit => true
  | cleanup => (s.tasks.find? (fun t => (s.task t).state == .DEAD)).isNone
  | _ => false

/-- The operation puts tasks on the wait queue or takes them off it. -/
def SchedOp.Touches (s : Sched) (wq : Nat) : SchedOp → Prop
  | block wq' | wakeOne wq' | wakeAll wq' => wq' = wq
  | sleep _ _ | wakeSleepers _ => s.cpu.sleepingTasks = wq
  | _ => False

/-- What an operation does to the queues, and what it leaves alone. Without a switch the run queue only gets longer
at its end. -/
structure SchedOp.Moves (op : SchedOp) (s s' : Sched) (run run' : List Nat) (wait wait' : Nat → List Nat) : Prop where
  switched : op.switches s = true → ∃ back, Picks s (run ++ back) s'.cpu.current run'
  grown : op.switches s = false → s'.cpu.current = s.cpu.current ∧ ∃ more, run' = run ++ more
  waiters : ∀ wq, ¬op.Touches s wq → wait' wq = wait wq
  alarms : ¬op.Touches s s.cpu.sleepingTasks → ∀ p ∈ s.tasks, (s'.task p).sleepUntil = (s.task p).sleepUntil
  process : ∀ p ∈ s.tasks, (s'.task p).process = (s.task p).process
  exiting : ∀ process, op ≠ .processExit process → s'.exiting process = s.exiting process
  idle : s'.cpu.idle = s.cpu.idle
  cleanupTask : s'.cpu.cleanupTask = s.cpu.cleanupTask
  sleepingTasks : s'.cpu.sleepingTasks = s.cpu.sleepingTasks

section Moves

variable {op : SchedOp} {run' : List Nat} {wait' : Nat → List Nat}

lemma SwitchesFrom.moves (h : SwitchesFrom s s' run run') (hop : op.switches s = true)
    (hwait : ∀ wq, ¬op.Touches s wq → wait' wq = wait wq)
    (htasks : ¬op.Touches s s.cpu.sleepingTasks → SameTasks s s') : op.Moves s s' run run' wait wait' := by
  obtain ⟨hshape, hpicks⟩ := h
  refine ⟨fun _ => hpicks, ?_, hwait, fun hp p _ => (htasks hp p).1, fun p _ => hshape.process p,
    fun process _ => congrFun hshape.exiting process, hshape.idle, hshape.cleanupTask, hshape.sleepingTasks⟩
  intro hno
  rw [hop] at hno
  cases hno

lemma Kept.moves (h : Kept s s') (hop : op.switches s = false) (more : List Nat)
    (hwait : ∀ wq, ¬op.Touches s wq → wait' wq = wait wq)
    (htasks : ¬op.Touches s s.cpu.sleepingTasks → SameTasks s s') :
    op.Moves s s' run (run ++ more) wait wait' := by
  refine ⟨?_, fun _ => ⟨h.current, more, rfl⟩, hwait, fun hp p _ => (htasks hp p).1, fun p _ => h.process p,
    fun process _ => congrFun h.exiting process, h.idle, h.cleanupTask, h.sleepingTasks⟩
  intro hyes
  rw [hop] at hyes
  cases hyes

lemma moves_create {process : Nat} (hnew : t ∉ s.tasks) (hok : createTask s t process = .ok s')
    (hkept : Kept { taskInit s t process with tasks := s.tasks ++ [t] } s') :
    (SchedOp.create t process).Moves s s' run (run ++ [t]) wait wait := by
  have hother : ∀ p ∈ s.tasks, (taskInit s t process).task p = s.task p := by
    intro p hp
    have hpt : p ≠ t := by
      rintro rfl
      exact hnew hp
    exact Function.update_of_ne hpt _ _
  have hfields : (taskInit s t process).task t = ⟨s.cpu.addr, .READY, 0, process, 0⟩ := Function.update_self ..
  have hself : ((taskInit s t process).task t).state = .READY := congrArg Task.state hfields
  have htasks : SameTasks { taskInit s t process with tasks := s.tasks ++ [t] } s' := by
    refine (noneDies_schedulerEnqueue hok ?_).sameTasks
    exact fun hdead => absurd (hself.symm.trans hdead) TaskState.noConfusion
  refine ⟨fun hno => (by cases hno), fun _ => ⟨hkept.current, [t], rfl⟩, fun _ _ => rfl, fun _ p hp => ?_,
    fun p hp => ?_,
    fun process _ => congrFun hkept.exiting process, hkept.idle, hkept.cleanupTask, hkept.sleepingTasks⟩
  · exact (htasks p).1.trans (congrArg Task.sleepUntil (hother p hp))
  · exact (hkept.process p).trans (congrArg Task.process (hother p hp))

end Moves

/-- Every operation succeeds, keeps the invariant and moves tasks as it should. -/
theorem SchedInv.exec (h : SchedInv s run wait) (op : SchedOp) (hop : op.Enabled s) :
    ∃ s' run' wait', op.exec s = .ok s' ∧ SchedInv s' run' wait' ∧ op.Moves s s' run run' wait wait' := by
  cases op with
  | create t process =>
    obtain ⟨h0, hlt, hnew, hi, hc⟩ := hop
    obtain ⟨s', hok, h', hkept⟩ := @SchedInv.create s run wait t h process h0 hlt hnew hi hc
    exact ⟨s', _, _, hok, h', moves_create hnew hok hkept⟩
  | switch =>
    obtain ⟨s', run', hok, h', hswitched⟩ := schedulerSwitch_spec h.queues h.unlocked h.distinct h.switchable
    exact ⟨s', run', wait, hok, h', SwitchesFrom.moves hswitched rfl (fun _ _ => rfl)
      (fun _ => sameTasks_schedulerSwitch hok)⟩
  | block wq =>
    obtain ⟨s', run', hok, h', hswitched⟩ := h.block hop.2 (h.running_of_mem hop.2) hop.1
    refine ⟨s', run', _, hok, h', hswitched.moves rfl (fun wq' hno => ?_) (fun _ => sameTasks_block hok)⟩
    exact Function.update_of_ne (fun he => hno he.symm) _ _
  | wakeOne wq =>
    obtain ⟨s', more, wait', hok, h', hwait, hkept⟩ := h.wakeOne wq
    exact ⟨s', _, wait', hok, h', hkept.moves rfl more (fun wq' hno => hwait wq' (fun he => hno he.symm))
      (fun _ => sameTasks_wakeOne hok)⟩
  | wakeAll wq =>
    obtain ⟨s', hok, h', hkept⟩ := h.wakeAll wq
    refine ⟨s', _, _, hok, h', hkept.moves rfl _ (fun wq' hno => ?_) (fun _ => sameTasks_schedulerWakeAll hok)⟩
    exact Function.update_of_ne (fun he => hno he.symm) _ _
  | sleep now ticks =>
    obtain ⟨s', run', k₁, k₂, hok, h', -, -, -, -, -, hswitched⟩ := h.sleep hop (h.running_of_mem hop) now ticks
    refine ⟨s', run', _, hok, h', hswitched.moves rfl (fun wq' hno => ?_) (fun hno => absurd rfl hno)⟩
    exact Function.update_of_ne (fun he => hno he.symm) _ _
  | wakeSleepers now =>
    obtain ⟨s', woken, rest, hok, h', -, -, hkept⟩ := h.wakeSleepers now
    refine ⟨s', _, _, hok, h', hkept.moves rfl woken (fun wq' hno => ?_) (fun hno => absurd rfl hno)⟩
    exact Function.update_of_ne (fun he => hno he.symm) _ _
  | exit =>
    obtain ⟨s', run', hok, h', hswitched⟩ := h.exit hop (h.running_of_mem hop)
    exact ⟨s', run', wait, hok, h', hswitched.moves rfl (fun _ _ => rfl) (fun _ => sameTasks_taskExit hok)⟩
  | processExit process =>
    refine ⟨_, run, wait, rfl, h.processExit process, ⟨fun hno => (by cases hno),
      fun _ => ⟨rfl, [], (List.append_nil run).symm⟩, fun _ _ => rfl, fun _ _ _ => rfl, fun _ _ => rfl,
      fun process' hne => ?_, rfl, rfl, rfl⟩⟩
    have hne : process' ≠ process := fun he => hne (he ▸ rfl)
    exact Function.update_of_ne hne _ _
  | cleanup =>
    obtain ⟨s', run', hok, h', ⟨hnone, hswitched⟩ | ⟨dead, hmem, hdead, rfl, rfl⟩⟩ := h.cleanupRound hop
    · have hswitches : SchedOp.cleanup.switches s = true := by rw [SchedOp.switches, hnone, Option.isNone_none]
      refine ⟨s', run', wait, hok, h', hswitched.moves hswitches (fun _ _ => rfl) (fun _ => ?_)⟩
      rw [taskCleanup, hnone] at hok
      exact sameTasks_schedulerSwitch (s := s.setNeedsCleanup false) hok
    · have hswitches : SchedOp.cleanup.switches s = false := by
        rw [SchedOp.switches, Option.isNone_eq_false_iff, List.find?_isSome]
        exact ⟨dead, hmem, by rw [hdead]; rfl⟩
      refine ⟨_, _, wait, hok, h', ⟨fun hyes => ?_, fun _ => ⟨rfl, [], (List.append_nil _).symm⟩, fun _ _ => rfl,
        fun _ _ _ => rfl, fun _ _ => rfl, fun _ _ => rfl, rfl, rfl, rfl⟩⟩
      rw [hswitches] at hyes
      cases hyes

/-- Every state of a run satisfies the invariant. -/
theorem SchedInv.reachable (h : SchedInv s run wait) (hrun : Relation.ReflTransGen SchedStep s s') :
    ∃ run' wait', SchedInv s' run' wait' := by
  induction hrun with
  | refl => exact ⟨run, wait, h⟩
  | tail _ hstep ih =>
    obtain ⟨run₁, wait₁, h₁⟩ := ih
    obtain ⟨op, hop, hexec⟩ := hstep
    obtain ⟨s₂, run₂, wait₂, hok, h₂, -⟩ := h₁.exec op hop
    rw [hok] at hexec
    cases hexec
    exact ⟨run₂, wait₂, h₂⟩

/-- What `common_cpu_init_tasks` finds: no ordinary task yet, and empty wait queues. -/
structure BootState (s : Sched) (idle cleanupTask : Nat) : Prop where
  addr : s.cpu.addr ≠ 0
  sleeping : s.cpu.sleepingTasks ≠ 0
  tasks : s.tasks = []
  queues : ∀ wq, s.waitQueue wq = ⟨false, intrusivelistInit⟩
  idle_ne : idle ≠ 0
  cleanup_ne : cleanupTask ≠ 0
  distinct : idle ≠ cleanupTask

lemma BootState.inv {idle cleanupTask : Nat} (h : BootState s idle cleanupTask) :
    SchedInv (commonCpuInitTasks s idle cleanupTask) [] (fun _ => []) := by
  let s₀ := commonCpuInitTasks s idle cleanupTask
  have htasks : s₀.tasks = [] := h.tasks
  have hqueue : ∀ wq, s₀.waitQueue wq = ⟨false, intrusivelistInit⟩ := by
    intro wq
    change Function.update s.waitQueue s.cpu.sleepingTasks _ wq = _
    by_cases hw : wq = s.cpu.sleepingTasks
    · rw [hw, Function.update_self]
    · rw [Function.update_of_ne hw]
      exact h.queues wq
  have hcleanup : s₀.task cleanupTask = ⟨s.cpu.addr, .READY, 0, 0, 0⟩ := Function.update_self ..
  have hidle : s₀.task idle = ⟨s.cpu.addr, .READY, 0, 0, 0⟩ := by
    change Function.update (Function.update s.task idle _) cleanupTask _ idle = _
    rw [Function.update_of_ne h.distinct, Function.update_self]
  have hspecial : ∀ {p}, p ≠ 0 → s₀.task p = ⟨s.cpu.addr, .READY, 0, 0, 0⟩ → SpecialTask s₀ p := by
    intro p hp hfields
    refine ⟨hp, by rw [htasks]; simp, ?_, ?_, ?_⟩
    · rw [hfields]
      rfl
    · rw [hfields]
    · rw [hfields]
      exact .inl rfl
  have hempty : ∀ p, p ∉ s₀.tasks := by
    intro p
    rw [htasks]
    simp
  refine ⟨⟨h.addr, h.sleeping, hspecial h.idle_ne hidle, hspecial h.cleanup_ne hcleanup, rfl, linked_init _, ?_,
    fun p hp => absurd hp (hempty p), ?_, ?_, fun p hp => absurd hp (hempty p),
    fun p hp => absurd hp (hempty p), fun p hp => absurd hp (hempty p), fun p hp => absurd hp (hempty p)⟩,
    ?_, h.distinct, .inl rfl⟩
  · intro wq
    rw [hqueue wq]
    exact linked_init _
  · intro p
    have hp := hempty p
    constructor
    · intro hin
      cases hin
    · rintro ⟨hin, -⟩
      exact absurd hin hp
  · intro p wq
    have hp := hempty p
    constructor
    · intro hin
      cases hin
    · rintro ⟨hin, -⟩
      exact absurd hin hp
  · intro wq
    rw [hqueue wq]

/-- The places in which a task can be. -/
inductive Place
  | runQueue
  | running
  | waitQueue (wq : Nat)
  | dead

/-- The task `t` is in a place, given the members of all queues. -/
def InPlace (s : Sched) (run : List Nat) (wait : Nat → List Nat) (t : Nat) : Place → Prop
  | .runQueue => (s.task t).state = .READY ∧ (s.task t).waitingOn = 0 ∧ (s.task t).cpu = s.cpu.addr ∧
      run.count t = 1 ∧ (∀ wq, t ∉ wait wq) ∧ t ≠ s.cpu.current
  | .running => (s.task t).state = .RUNNING ∧ t = s.cpu.current ∧ t ∉ run ∧ ∀ wq, t ∉ wait wq
  | .waitQueue wq => (s.task t).state = .BLOCKED ∧ (s.task t).waitingOn = wq ∧ (wait wq).count t = 1 ∧
      (∀ wq', wq' ≠ wq → t ∉ wait wq') ∧ t ∉ run ∧ t ≠ s.cpu.current
  | .dead => (s.task t).state = .DEAD ∧ t ∉ run ∧ (∀ wq, t ∉ wait wq) ∧
      s.runnableNode t = ⟨0, 0⟩ ∧ s.waitNode t = ⟨0, 0⟩ ∧ t ≠ s.cpu.current

lemma SchedInv.ne_current (h : SchedInv s run wait) (ht : t ∈ s.tasks)
    (hstate : (s.task t).state ≠ .RUNNING) : t ≠ s.cpu.current := by
  rintro rfl
  exact hstate (h.running_of_mem ht)

lemma SchedInv.existsUnique_place (h : SchedInv s run wait) (ht : t ∈ s.tasks) :
    ∃! place, InPlace s run wait t place := by
  obtain ⟨ht0, -, hcpu⟩ := h.queues.tasks t ht
  have hready := h.queues.ready t
  have hblocked := h.queues.blocked t
  have hwaiting := h.queues.waiting t ht ht0
  cases hstate : (s.task t).state with
  | READY =>
    refine ⟨.runQueue, ⟨hstate, ?_, hcpu, ?_, ?_, h.ne_current ht (by rw [hstate]; decide)⟩, ?_⟩
    · rw [hstate] at hwaiting
      simpa using hwaiting
    · exact List.count_eq_one_of_mem h.queues.runLinked.nodup (hready.mpr ⟨ht, ht0, hstate⟩)
    · intro wq hin
      exact absurd (hstate.symm.trans ((hblocked wq).mp hin).2.2.1) (by decide)
    · rintro (_ | _ | _ | _) hp
      · rfl
      all_goals exact absurd (hstate.symm.trans hp.1) (by decide)
  | RUNNING =>
    refine ⟨.running, ⟨hstate, h.queues.running t ht ht0 hstate, ?_, ?_⟩, ?_⟩
    · intro hin
      exact absurd (hstate.symm.trans (hready.mp hin).2.2) (by decide)
    · intro wq hin
      exact absurd (hstate.symm.trans ((hblocked wq).mp hin).2.2.1) (by decide)
    · rintro (_ | _ | _ | _) hp
      · exact absurd (hstate.symm.trans hp.1) (by decide)
      · rfl
      all_goals exact absurd (hstate.symm.trans hp.1) (by decide)
  | BLOCKED =>
    have hin : t ∈ wait (s.task t).waitingOn := (hblocked _).mpr ⟨ht, ht0, hstate, rfl⟩
    refine ⟨.waitQueue (s.task t).waitingOn, ⟨hstate, rfl, ?_, ?_, ?_,
      h.ne_current ht (by rw [hstate]; decide)⟩, ?_⟩
    · exact List.count_eq_one_of_mem (h.queues.waitLinked _).nodup hin
    · intro wq' hne hin'
      exact hne (h.queues.wait_unique hin' hin)
    · intro hrun
      exact absurd (hstate.symm.trans (hready.mp hrun).2.2) (by decide)
    · rintro (_ | _ | wq | _) hp
      · exact absurd (hstate.symm.trans hp.1) (by decide)
      · exact absurd (hstate.symm.trans hp.1) (by decide)
      · rw [hp.2.1]
      · exact absurd (hstate.symm.trans hp.1) (by decide)
  | DEAD =>
    obtain ⟨h1, h2, -, h3, h4⟩ := h.queues.dead ht hstate
    refine ⟨.dead, ⟨hstate, h1, h2, h3, h4, h.ne_current ht (by rw [hstate]; decide)⟩, ?_⟩
    rintro (_ | _ | _ | _) hp
    · exact absurd (hstate.symm.trans hp.1) (by decide)
    · exact absurd (hstate.symm.trans hp.1) (by decide)
    · exact absurd (hstate.symm.trans hp.1) (by decide)
    · rfl

/-- In every state of every run, no operation fails an `ASSERT` and every ordinary task is in
exactly one place. -/
theorem scheduler_place_invariant {idle cleanupTask : Nat} (hboot : BootState s idle cleanupTask)
    (hrun : Relation.ReflTransGen SchedStep (commonCpuInitTasks s idle cleanupTask) s') :
    (∀ op : SchedOp, op.Enabled s' → ∃ s'', op.exec s' = .ok s'') ∧
    ∃ (run : List Nat) (wait : Nat → List Nat),
      Linked s'.runnableNode s'.cpu.runnableTasks.runnables run ∧
      (∀ wq, Linked s'.waitNode (s'.waitQueue wq).waiters (wait wq)) ∧
      ∀ t ∈ s'.tasks, ∃! place, InPlace s' run wait t place := by
  obtain ⟨run, wait, h⟩ := hboot.inv.reachable hrun
  refine ⟨?_, run, wait, h.queues.runLinked, h.queues.waitLinked, fun t ht => h.existsUnique_place ht⟩
  intro op hop
  obtain ⟨s'', -, -, hok, -⟩ := h.exec op hop
  exact ⟨s'', hok⟩

/-- A CPU as it is before `common_cpu_init_tasks`. -/
def bareCpu : Sched where
  cpu := ⟨0x100, 0, 0, 0, false, ⟨false, ⟨0, 0, 0⟩⟩, 0x200⟩
  task := fun _ => ⟨0, .DEAD, 0, 0, 0⟩
  runnableNode := fun _ => ⟨1, 1⟩
  waitNode := fun _ => ⟨1, 1⟩
  waitQueue := fun _ => ⟨false, intrusivelistInit⟩
  exiting := fun _ => false
  tasks := []

/-- A run in which one of two tasks blocks, the other one exits, and the cleanup task reaps it. -/
theorem scheduler_place_invariant_run :
    ∃ s', Relation.ReflTransGen SchedStep (commonCpuInitTasks bareCpu 0x10 0x20) s' ∧
      s'.tasks = [0x30] ∧ (s'.task 0x30).state = .BLOCKED ∧ s'.cpu.current = 0x20 ∧
      ∃ (run : List Nat) (wait : Nat → List Nat),
        Linked s'.runnableNode s'.cpu.runnableTasks.runnables run ∧
        (∀ wq, Linked s'.waitNode (s'.waitQueue wq).waiters (wait wq)) ∧
        ∀ t ∈ s'.tasks, ∃! place, InPlace s' run wait t place := by
  let s₀ := commonCpuInitTasks bareCpu 0x10 0x20
  let s₁ := okOr bareCpu ((SchedOp.create 0x30 0).exec s₀)
  let s₂ := okOr bareCpu ((SchedOp.create 0x40 0).exec s₁)
  let s₃ := okOr bareCpu (SchedOp.switch.exec s₂)
  let s₄ := okOr bareCpu ((SchedOp.block 0x300).exec s₃)
  let s₅ := okOr bareCpu (SchedOp.exit.exec s₄)
  let s₆ := okOr bareCpu (SchedOp.cleanup.exec s₅)
  have hboot : BootState bareCpu 0x10 0x20 :=
    ⟨by decide, by decide, rfl, fun _ => rfl, by decide, by decide, by decide⟩
  have h₁ : SchedStep s₀ s₁ := ⟨.create 0x30 0, by decide +kernel, eq_ok_of_isOk _ (by decide +kernel)⟩
  have h₂ : SchedStep s₁ s₂ := ⟨.create 0x40 0, by decide +kernel, eq_ok_of_isOk _ (by decide +kernel)⟩
  have h₃ : SchedStep s₂ s₃ := ⟨.switch, trivial, eq_ok_of_isOk _ (by decide +kernel)⟩
  have h₄ : SchedStep s₃ s₄ := ⟨.block 0x300, by decide +kernel, eq_ok_of_isOk _ (by decide +kernel)⟩
  have h₅ : SchedStep s₄ s₅ := ⟨.exit, by decide +kernel, eq_ok_of_isOk _ (by decide +kernel)⟩
  have h₆ : SchedStep s₅ s₆ := ⟨.cleanup, by decide +kernel, eq_ok_of_isOk _ (by decide +kernel)⟩
  have hrun := (((((Relation.ReflTransGen.single h₁).tail h₂).tail h₃).tail h₄).tail h₅).tail h₆
  exact ⟨s₆, hrun, by decide +kernel, by decide +kernel, by decide +kernel,
    (scheduler_place_invariant hboot hrun).2⟩

end KaworuOS.Proofs
