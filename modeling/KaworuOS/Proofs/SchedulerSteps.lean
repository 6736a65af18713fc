import KaworuOS.Proofs.SchedulerInv
import KaworuOS.Lib.Outcome

/-!
# What the operations of the scheduler do to the queues
-/

namespace KaworuOS.Proofs
open Lib

variable {s s' s'' : Sched} {run : List Nat} {wait : Nat → List Nat} {held t : Nat}

/-- What no operation of the scheduler changes. -/
structure SameShape (s s' : Sched) : Prop where
  tasks : s'.tasks = s.tasks
  addr : s'.cpu.addr = s.cpu.addr
  idle : s'.cpu.idle = s.cpu.idle
  cleanupTask : s'.cpu.cleanupTask = s.cpu.cleanupTask
  sleepingTasks : s'.cpu.sleepingTasks = s.cpu.sleepingTasks
  locks : ∀ wq, (s'.waitQueue wq).locked = (s.waitQueue wq).locked
  process : ∀ p, (s'.task p).process = (s.task p).process
  exiting : s'.exiting = s.exiting

/-- What an operation that does not switch leaves alone as well: the current task goes on. -/
structure Kept (s s' : Sched) : Prop extends SameShape s s' where
  current : s'.cpu.current = s.cpu.current
  still : ∀ p, (s.task p).state = .RUNNING → (s'.task p).state = .RUNNING

lemma SameShape.trans (h : SameShape s s') (h' : SameShape s' s'') : SameShape s s'' :=
  ⟨h'.tasks.trans h.tasks, h'.addr.trans h.addr, h'.idle.trans h.idle, h'.cleanupTask.trans h.cleanupTask,
    h'.sleepingTasks.trans h.sleepingTasks, fun wq => (h'.locks wq).trans (h.locks wq),
    fun p => (h'.process p).trans (h.process p), h'.exiting.trans h.exiting⟩

lemma SameShape.refl (s : Sched) : SameShape s s := ⟨rfl, rfl, rfl, rfl, rfl, fun _ => rfl, fun _ => rfl, rfl⟩

lemma Kept.refl (s : Sched) : Kept s s := ⟨SameShape.refl s, rfl, fun _ h => h⟩

lemma Kept.trans (h : Kept s s') (h' : Kept s' s'') : Kept s s'' :=
  ⟨h.toSameShape.trans h'.toSameShape, h'.current.trans h.current, fun p hp => h'.still p (h.still p hp)⟩

lemma sameShape_setTask (s : Sched) (t : Nat) (fields : Task) (hprocess : fields.process = (s.task t).process) :
    SameShape s (s.setTask t fields) := by
  refine ⟨rfl, rfl, rfl, rfl, rfl, fun _ => rfl, fun p => ?_, rfl⟩
  by_cases hpt : p = t
  · rw [hpt, setTask_same, hprocess]
  · rw [setTask_other hpt]

lemma kept_setTask {fields : Task} (h : (s.task t).state ≠ .RUNNING) (hprocess : fields.process = (s.task t).process) :
    Kept s (s.setTask t fields) := by
  refine ⟨sameShape_setTask s t fields hprocess, rfl, fun p hp => ?_⟩
  have hpt : p ≠ t := by rintro rfl; exact h hp
  rw [setTask_other hpt]
  exact hp

lemma kept_setRunnables (s : Sched) (r : Nodes × IntrusiveList) : Kept s (s.setRunnables r) :=
  ⟨⟨rfl, rfl, rfl, rfl, rfl, fun _ => rfl, fun _ => rfl, rfl⟩, rfl, fun _ h => h⟩

lemma kept_setNeedsCleanup (s : Sched) (v : Bool) : Kept s (s.setNeedsCleanup v) :=
  ⟨⟨rfl, rfl, rfl, rfl, rfl, fun _ => rfl, fun _ => rfl, rfl⟩, rfl, fun _ h => h⟩

lemma kept_setWaiters (s : Sched) (wq : Nat) (r : Nodes × IntrusiveList) : Kept s (s.setWaiters wq r) := by
  refine ⟨⟨rfl, rfl, rfl, rfl, rfl, fun wq' => ?_, fun _ => rfl, rfl⟩, rfl, fun _ h => h⟩
  by_cases hw : wq' = wq
  · subst hw
    simp [Sched.setWaiters]
  · simp [Sched.setWaiters, Function.update_of_ne hw]

lemma runqueueEnqueue_eq (hlock : s.cpu.runnableTasks.locked = false)
    (hready : (s.task t).state = .READY) :
    runqueueEnqueue s t =
      .ok (s.setRunnables (intrusivelistInsertTail s.runnableNode s.cpu.runnableTasks.runnables t)) := by
  rcases s with ⟨⟨addr, current, idle, cleanup, needs, ⟨locked, runnables⟩, sleeping⟩, task, rn, wn, wq, ex, ts⟩
  simp only at hlock hready
  subst hlock
  simp [runqueueEnqueue, runqueueAcquire, runqueueEnqueueUnlocked, runqueueRelease, assertThat, hready,
    Sched.setRunLock, Sched.setRunnables, bind, Except.bind]

/-- `scheduler_enqueue` of a held task that is ready or dead. -/
lemma schedulerEnqueue_spec (h : QueueInv s run wait t) (ht : t ∈ s.tasks)
    (hstate : (s.task t).state ≠ .RUNNING ∧ (s.task t).state ≠ .BLOCKED)
    (hwait : (s.task t).waitingOn = 0) :
    ∃ s', schedulerEnqueue s t = .ok s' ∧ QueueInv s' (run ++ [t]) wait 0 ∧ Kept s s' := by
  obtain ⟨-, -, hcpu⟩ := h.tasks t ht
  let fields : Task := { s.task t with state := .READY, waitingOn := 0 }
  have hset : (s.setWaitingOn t 0).setState t .READY = s.setTask t fields := by
    simp [Sched.setState, Sched.setWaitingOn, setTask_setTask, setTask_same, fields]
  have hinv : QueueInv (s.setTask t fields) run wait t := h.setHeld ht hcpu
  have hfields := setTask_same s t fields
  refine ⟨_, ?_, hinv.putRun ht (by rw [hfields]) (by rw [hfields]),
    (kept_setTask hstate.1 (by rfl)).trans (kept_setRunnables _ _)⟩
  have hne : ¬(s.task t).cpu ≠ s.cpu.addr := by simpa using hcpu
  have haddr : (s.task t).cpu ≠ 0 := hcpu ▸ h.addr_ne
  unfold schedulerEnqueue
  rw [assertThat_true haddr, assertThat_true hstate.1, assertThat_true hstate.2, assertThat_true hwait,
    if_neg hne, hset]
  exact runqueueEnqueue_eq hinv.unlocked (by rw [hfields])

/-- Waking a task that has been taken off its wait queue. -/
lemma wake_spec (h : QueueInv s run wait t) (ht : t ∈ s.tasks) (hstate : (s.task t).state = .BLOCKED)
    (hwait : (s.task t).waitingOn = 0) :
    ∃ s', schedulerEnqueue (s.setState t .READY) t = .ok s' ∧ QueueInv s' (run ++ [t]) wait 0 ∧ Kept s s' := by
  obtain ⟨-, -, hcpu⟩ := h.tasks t ht
  have hinv : QueueInv (s.setState t .READY) run wait t := h.setHeld ht hcpu
  have hfields : (s.setState t .READY).task t = { s.task t with state := .READY } := setTask_same ..
  obtain ⟨s', hok, hinv', hkept⟩ := schedulerEnqueue_spec hinv ht (by rw [hfields]; simp)
    (by rw [hfields]; exact hwait)
  exact ⟨s', hok, hinv', (kept_setTask (by rw [hstate]; decide) (by rfl)).trans hkept⟩

lemma schedulerWakeBlocked_spec (h : QueueInv s run wait t) (ht : t ∈ s.tasks)
    (hstate : (s.task t).state = .BLOCKED) (hwait : (s.task t).waitingOn = 0) :
    ∃ s', schedulerWakeBlocked s t = .ok s' ∧ QueueInv s' (run ++ [t]) wait 0 ∧ Kept s s' := by
  obtain ⟨s', hok, hrest⟩ := wake_spec h ht hstate hwait
  refine ⟨s', ?_, hrest⟩
  rw [schedulerWakeBlocked, if_neg (h.tasks t ht).1, assertThat_true hstate, assertThat_true hwait]
  exact hok

/-- Taking the first waiter off a queue whose lock is held. -/
lemma waitqueueDequeueUnlocked_spec (h : QueueInv s run wait 0) {wq : Nat}
    (hlock : (s.waitQueue wq).locked = true) :
    (wait wq = [] ∧ waitqueueDequeueUnlocked s wq = .ok (0, s)) ∨
    ∃ t k s', wait wq = t :: k ∧ waitqueueDequeueUnlocked s wq = .ok (t, s') ∧
      QueueInv s' run (Function.update wait wq k) t ∧ t ∈ s'.tasks ∧ (s'.task t).state = .BLOCKED ∧
      (s'.task t).waitingOn = 0 ∧ Kept s s' := by
  have hlinked := h.waitLinked wq
  unfold waitqueueDequeueUnlocked
  rw [assertThat_true hlock]
  cases hw : wait wq with
  | nil =>
    left
    rw [hw] at hlinked
    rw [removeHead_nil hlinked]
    simp [bind, Except.bind, Sched.setWaiters]
  | cons t k =>
    right
    rw [hw] at hlinked
    rw [removeHead_cons hlinked]
    have htake := h.takeWait [] hw
    obtain ⟨ht, -, hstate, -⟩ := (h.blocked t wq).mp (by simp [hw])
    obtain ⟨ht0, -, hcpu⟩ := h.tasks t ht
    have hrun : (s.task t).state ≠ .RUNNING := by rw [hstate]; decide
    let r := intrusivelistRemove s.waitNode (s.waitQueue wq).waiters t
    let fields : Task := { s.task t with waitingOn := 0 }
    have hfields : ((s.setWaiters wq r).setTask t fields).task t = fields := setTask_same ..
    refine ⟨t, k, (s.setWaiters wq r).setTask t fields, rfl, ?_, htake.setHeld ht hcpu, ht, ?_, ?_,
      (kept_setWaiters s wq r).trans (kept_setTask hrun rfl)⟩
    · simp only [bind, Except.bind, if_neg ht0]
      rfl
    · rw [hfields]
      exact hstate
    · rw [hfields]

lemma QueueInv.wait_length_lt (h : QueueInv s run wait held) (wq : Nat) : (wait wq).length < 2 ^ 64 :=
  length_lt_of_nodup (by decide) (h.waitLinked wq).nodup (h.waitLinked wq).ne_zero
    (fun p hp => (h.tasks p ((h.blocked p wq).mp hp).1).2.1)

lemma QueueInv.run_length_lt (h : QueueInv s run wait held) : run.length < 2 ^ 64 :=
  length_lt_of_nodup (by decide) h.runLinked.nodup h.runLinked.ne_zero
    (fun p hp => (h.tasks p ((h.ready p).mp hp).1).2.1)

/-- `scheduler_wake_all` moves every waiter to the run queue. -/
lemma wakeAllLoop_spec {wq : Nat} (k : List Nat) {fuel : Nat} (h : QueueInv s run wait 0)
    (hk : wait wq = k) (hlock : (s.waitQueue wq).locked = true) (hfuel : k.length < fuel) :
    ∃ s', wakeAllLoop wq fuel s = .ok s' ∧ QueueInv s' (run ++ k) (Function.update wait wq []) 0 ∧ Kept s s' := by
  induction k generalizing s run wait fuel with
  | nil =>
    obtain ⟨fuel, rfl⟩ := Nat.exists_eq_succ_of_ne_zero (Nat.ne_zero_of_lt hfuel)
    rcases waitqueueDequeueUnlocked_spec h hlock with ⟨-, hdeq⟩ | ⟨t, k, s', hcons, -⟩
    · refine ⟨s, ?_, ?_, Kept.refl s⟩
      · simp [wakeAllLoop, hdeq, bind, Except.bind]
      · rw [← hk, Function.update_eq_self, hk, List.append_nil]
        exact h
    · rw [hk] at hcons
      cases hcons
  | cons t k ih =>
    obtain ⟨fuel, rfl⟩ := Nat.exists_eq_succ_of_ne_zero (Nat.ne_zero_of_lt hfuel)
    rcases waitqueueDequeueUnlocked_spec h hlock with ⟨hnil, -⟩ | ⟨t', k', s₁, hcons, hdeq, h₁, ht, hst, hwo, hkept₁⟩
    · rw [hk] at hnil
      cases hnil
    · rw [hk] at hcons
      obtain ⟨rfl, rfl⟩ := List.cons.inj hcons
      obtain ⟨s₂, hwake, h₂, hkept₂⟩ := wake_spec h₁ ht hst hwo
      have hlock₂ : (s₂.waitQueue wq).locked = true := by
        rw [hkept₂.locks, hkept₁.locks]
        exact hlock
      obtain ⟨s', hloop, h', hkept'⟩ := ih h₂ (by simp) hlock₂ (by simpa using hfuel)
      refine ⟨s', ?_, ?_, (hkept₁.trans hkept₂).trans hkept'⟩
      · rw [wakeAllLoop, hdeq]
        simp only [bind, Except.bind]
        rw [if_neg (h₁.tasks t ht).1, assertThat_true hst, assertThat_true (.inl hwo)]
        simp only [hwake]
        exact hloop
      · rwa [Function.update_idem, List.append_assoc, List.singleton_append] at h'

lemma setWaitLock_locked (s : Sched) (wq : Nat) (v : Bool) (wq' : Nat) :
    ((s.setWaitLock wq v).waitQueue wq').locked = if wq' = wq then v else (s.waitQueue wq').locked := by
  by_cases hw : wq' = wq
  · subst hw
    simp [Sched.setWaitLock]
  · simp [Sched.setWaitLock, hw]

lemma Kept.bracket {wq : Nat} {v w : Bool} (h : Kept (s.setWaitLock wq v) s')
    (hlock : (s.waitQueue wq).locked = w) : Kept s (s'.setWaitLock wq w) := by
  refine ⟨⟨h.tasks, h.addr, h.idle, h.cleanupTask, h.sleepingTasks, fun wq' => ?_, h.process, h.exiting⟩,
    h.current, h.still⟩
  have hl := h.locks wq'
  rw [setWaitLock_locked] at hl
  rw [setWaitLock_locked, hl]
  by_cases hw : wq' = wq
  · rw [if_pos hw, hw, hlock]
  · rw [if_neg hw, if_neg hw]

lemma waitqueueAcquire_eq {wq : Nat} (h : (s.waitQueue wq).locked = false) :
    waitqueueAcquire s wq = .ok (s.setWaitLock wq true) := by
  simp [waitqueueAcquire, h]

lemma waitqueueRelease_eq {wq : Nat} (h : (s.waitQueue wq).locked = true) :
    waitqueueRelease s wq = .ok (s.setWaitLock wq false) := by
  simp [waitqueueRelease, h]

lemma Kept.release {wq : Nat} (h : Kept (s.setWaitLock wq true) s') :
    waitqueueRelease s' wq = .ok (s'.setWaitLock wq false) := by
  apply waitqueueRelease_eq
  rw [h.locks, setWaitLock_locked, if_pos rfl]

lemma Linked.next_eq {nodes : Nodes} {il : IntrusiveList} {x : Nat} {l : List Nat}
    (h : Linked nodes il (x :: l)) : (nodes x).next = l.headD 0 := by
  obtain ⟨-, -, -, hrest⟩ := h.seg
  cases l with
  | nil => exact hrest.1
  | cons y l => exact hrest.1

lemma Linked.head_eq {nodes : Nodes} {il : IntrusiveList} {l : List Nat} (h : Linked nodes il l) :
    il.head = l.headD 0 := by
  cases l with
  | nil => exact h.seg.1
  | cons y l => exact h.seg.1

/-- What stays when no process exits: no task dies, and the tasks outside of `woken` keep their alarm. -/
structure NoneDies (s s' : Sched) (woken : List Nat) : Prop where
  exiting : s'.exiting = s.exiting
  needsCleanup : s'.cpu.needsCleanup = s.cpu.needsCleanup
  alive : ∀ p, (s.task p).state ≠ .DEAD → (s'.task p).state ≠ .DEAD
  alarm : ∀ p, p ∉ woken → (s'.task p).sleepUntil = (s.task p).sleepUntil
  process : ∀ p, (s'.task p).process = (s.task p).process

lemma NoneDies.refl (s : Sched) (woken : List Nat) : NoneDies s s woken :=
  ⟨rfl, rfl, fun _ h => h, fun _ _ => rfl, fun _ => rfl⟩

lemma NoneDies.trans {woken woken' : List Nat} (h : NoneDies s s' woken) (h' : NoneDies s' s'' woken') :
    NoneDies s s'' (woken ++ woken') := by
  refine ⟨h'.exiting.trans h.exiting, h'.needsCleanup.trans h.needsCleanup,
    fun p hp => h'.alive p (h.alive p hp), fun p hp => ?_, fun p => (h'.process p).trans (h.process p)⟩
  rw [List.mem_append, not_or] at hp
  exact (h'.alarm p hp.2).trans (h.alarm p hp.1)

lemma noneDies_setTask {fields : Task} {woken : List Nat} (hstate : fields.state ≠ .DEAD)
    (halarm : t ∈ woken ∨ fields.sleepUntil = (s.task t).sleepUntil) (hprocess : fields.process = (s.task t).process) :
    NoneDies s (s.setTask t fields) woken := by
  refine ⟨rfl, rfl, fun p hp => ?_, fun p hp => ?_, (sameShape_setTask s t fields hprocess).process⟩
  · by_cases hpt : p = t
    · rw [hpt, setTask_same]
      exact hstate
    · rw [setTask_other hpt]
      exact hp
  · by_cases hpt : p = t
    · subst hpt
      rw [setTask_same]
      exact halarm.resolve_left hp
    · rw [setTask_other hpt]

lemma noneDies_setState {state : TaskState} (hstate : state ≠ .DEAD) : NoneDies s (s.setState t state) [] :=
  noneDies_setTask hstate (.inr rfl) rfl

lemma noneDies_runqueueEnqueue (h : runqueueEnqueue s t = .ok s') : NoneDies s s' [] := by
  unfold runqueueEnqueue runqueueEnqueueUnlocked runqueueAcquire runqueueRelease at h
  obtain ⟨_, -, h⟩ := bind_eq_ok.mp h
  obtain ⟨s₁, h₁, h⟩ := bind_eq_ok.mp h
  obtain ⟨s₂, h₂, h⟩ := bind_eq_ok.mp h
  obtain ⟨_, -, h₂⟩ := bind_eq_ok.mp h₂
  obtain ⟨_, -, h₂⟩ := bind_eq_ok.mp h₂
  split at h₁
  · cases h₁
  · cases h₁
    cases h₂
    split at h
    · cases h
      exact ⟨rfl, rfl, fun _ hp => hp, fun _ _ => rfl, fun _ => rfl⟩
    · cases h

lemma noneDies_schedulerEnqueue (h : schedulerEnqueue s t = .ok s') (hstate : (s.task t).state ≠ .DEAD) :
    NoneDies s s' [] := by
  unfold schedulerEnqueue at h
  obtain ⟨_, -, h⟩ := bind_eq_ok.mp h
  obtain ⟨_, -, h⟩ := bind_eq_ok.mp h
  obtain ⟨_, -, h⟩ := bind_eq_ok.mp h
  obtain ⟨_, -, h⟩ := bind_eq_ok.mp h
  split at h
  · cases h
  · have hwaiting : NoneDies s (s.setWaitingOn t 0) [] := noneDies_setTask hstate (.inr rfl) (by rfl)
    exact (hwaiting.trans (noneDies_setState (by decide))).trans (noneDies_runqueueEnqueue h)

lemma noneDies_schedulerWakeBlocked (h : schedulerWakeBlocked s t = .ok s') : NoneDies s s' [] := by
  unfold schedulerWakeBlocked at h
  split at h
  · cases h
    exact NoneDies.refl _ _
  · obtain ⟨_, -, h⟩ := bind_eq_ok.mp h
    obtain ⟨_, -, h⟩ := bind_eq_ok.mp h
    have hstate : ((s.setState t .READY).task t).state ≠ .DEAD := by
      rw [Sched.setState, setTask_same]
      exact TaskState.noConfusion
    exact (noneDies_setState (by decide)).trans (noneDies_schedulerEnqueue h hstate)

/-- The members of a sleeping queue that the loop takes off it: a front part, up to the first member
whose time has not come. -/
structure WakesUp (s : Sched) (now : Nat) (k woken rest : List Nat) : Prop where
  split : k = woken ++ rest
  due : ∀ p ∈ woken, (s.task p).sleepUntil ≤ now
  first : ∀ p, rest.head? = some p → now < (s.task p).sleepUntil

/-- `scheduler_wake_sleepers` moves a front part of the sleeping queue to the run queue. -/
lemma wakeSleepersLoop_spec {now : Nat} (k : List Nat) {fuel : Nat} (h : QueueInv s run wait 0)
    (hk : wait s.cpu.sleepingTasks = k) (hlock : (s.waitQueue s.cpu.sleepingTasks).locked = true)
    (hfuel : k.length < fuel) :
    ∃ s' woken rest, wakeSleepersLoop now fuel (k.headD 0) s = .ok s' ∧ WakesUp s now k woken rest ∧
      QueueInv s' (run ++ woken) (Function.update wait s.cpu.sleepingTasks rest) 0 ∧ Kept s s' ∧
      NoneDies s s' woken := by
  induction k generalizing s run wait fuel with
  | nil =>
    obtain ⟨fuel, rfl⟩ := Nat.exists_eq_succ_of_ne_zero (Nat.ne_zero_of_lt hfuel)
    refine ⟨s, [], [], by simp [wakeSleepersLoop], ⟨rfl, by simp, by simp⟩, ?_, Kept.refl s, NoneDies.refl s _⟩
    rw [List.append_nil, ← hk, Function.update_eq_self]
    exact h
  | cons t k ih =>
    obtain ⟨fuel, rfl⟩ := Nat.exists_eq_succ_of_ne_zero (Nat.ne_zero_of_lt hfuel)
    let sl := s.cpu.sleepingTasks
    have hlinked := h.waitLinked sl
    rw [show wait sl = t :: k from hk] at hlinked
    obtain ⟨ht, -, hstate, -⟩ := (h.blocked t sl).mp (by simp [sl, hk])
    obtain ⟨ht0, -, hcpu⟩ := h.tasks t ht
    rw [List.headD_cons, wakeSleepersLoop, if_neg ht0]
    by_cases hnow : now < (s.task t).sleepUntil
    · rw [if_pos hnow]
      refine ⟨s, [], t :: k, rfl, ⟨rfl, by simp, ?_⟩, ?_, Kept.refl s, NoneDies.refl s _⟩
      · intro p hp
        rw [← Option.some.inj hp]
        exact hnow
      · rw [List.append_nil, ← hk, Function.update_eq_self]
        exact h
    · rw [if_neg hnow, hlinked.next_eq]
      let fields : Task := { s.task t with waitingOn := 0, sleepUntil := 0 }
      let s₁ := (s.setWaiters sl (intrusivelistRemove s.waitNode (s.waitQueue sl).waiters t)).setTask t fields
      have hset : ((s.setWaiters sl (intrusivelistRemove s.waitNode (s.waitQueue sl).waiters t)).setWaitingOn
          t 0).setSleepUntil t 0 = s₁ := by
        simp [Sched.setWaitingOn, Sched.setSleepUntil, setTask_setTask, setTask_same, s₁, fields,
          Sched.setWaiters]
      have hrun : (s.task t).state ≠ .RUNNING := by rw [hstate]; decide
      have hkept₁ : Kept s s₁ := (kept_setWaiters s sl _).trans (kept_setTask hrun rfl)
      have hlock₁ : (s₁.waitQueue sl).locked = true := (hkept₁.locks sl).trans hlock
      have htaken : QueueInv s₁ run (Function.update wait sl k) t := (h.takeWait [] hk).setHeld ht hcpu
      have h₁ := htaken.setWaitLock sl false
      have hfields : (s₁.setWaitLock sl false).task t = fields := setTask_same ..
      obtain ⟨s₂, hwake, h₂, hkept₂⟩ := schedulerWakeBlocked_spec h₁ ht (by rw [hfields]; exact hstate)
        (by rw [hfields])
      have hlock₂ : (s₂.waitQueue sl).locked = false := by
        rw [hkept₂.locks, setWaitLock_locked, if_pos rfl]
      have hkept₃ : Kept s (s₂.setWaitLock sl true) := hkept₁.trans (hkept₂.bracket hlock₁)
      have hsl : (s₂.setWaitLock sl true).cpu.sleepingTasks = sl := hkept₃.sleepingTasks
      have hdies₁ : NoneDies s s₁ [t] := by
        have hset : NoneDies (s.setWaiters sl _) s₁ [t] :=
          noneDies_setTask (by rw [show fields.state = _ from hstate]; decide) (.inl List.mem_cons_self) rfl
        exact ⟨hset.exiting, hset.needsCleanup, hset.alive, hset.alarm, hset.process⟩
      have hdies₂ : NoneDies s₁ (s₂.setWaitLock sl true) [] := by
        have hwoken := noneDies_schedulerWakeBlocked hwake
        exact ⟨hwoken.exiting, hwoken.needsCleanup, hwoken.alive, hwoken.alarm, hwoken.process⟩
      obtain ⟨s', woken, rest, hloop, hwakes, h', hkept', hdies'⟩ := ih (h₂.setWaitLock sl true)
        (by rw [hsl]; simp) (by rw [hsl, setWaitLock_locked, if_pos rfl]) (by simpa using hfuel)
      have hdies := hdies₁.trans hdies₂
      -- the other members keep their alarm until the loop comes to them
      have halarm : ∀ p ∈ k, ((s₂.setWaitLock sl true).task p).sleepUntil = (s.task p).sleepUntil := by
        intro p hp
        apply hdies.alarm
        have hne := (List.nodup_cons.mp hlinked.nodup).1
        rintro hpt
        obtain rfl : p = t := by simpa using hpt
        exact hne hp
      rw [hsl, Function.update_idem, List.append_assoc] at h'
      refine ⟨s', t :: woken, rest, ?_, ⟨?_, ?_, ?_⟩, h', hkept₃.trans hkept', hdies.trans hdies'⟩
      · dsimp only
        rw [hset, waitqueueRelease_eq hlock₁]
        simp only [bind, Except.bind]
        rw [hwake]
        simp only
        rw [waitqueueAcquire_eq hlock₂]
        exact hloop
      · rw [hwakes.split]
        rfl
      · intro p hp
        rcases List.mem_cons.mp hp with rfl | hp
        · omega
        · rw [← halarm p (hwakes.split ▸ List.mem_append_left rest hp)]
          exact hwakes.due p hp
      · intro p hp
        rw [← halarm p (hwakes.split ▸ List.mem_append_right woken (List.mem_of_mem_head? hp))]
        exact hwakes.first p hp

/-- `scheduler_wake_sleepers`. -/
lemma schedulerWakeSleepers_spec (h : QueueInv s run wait 0) (hunlocked : ∀ wq, (s.waitQueue wq).locked = false)
    (now : Nat) :
    ∃ s' woken rest, schedulerWakeSleepers s now = .ok s' ∧ WakesUp s now (wait s.cpu.sleepingTasks) woken rest ∧
      QueueInv s' (run ++ woken) (Function.update wait s.cpu.sleepingTasks rest) 0 ∧ Kept s s' ∧
      NoneDies s s' woken := by
  let sl := s.cpu.sleepingTasks
  have hlock : (s.waitQueue sl).locked = false := hunlocked sl
  have hq := h.setWaitLock sl true
  have hhead : intrusivelistPeekHead ((s.setWaitLock sl true).waitQueue sl).waiters = (wait sl).headD 0 :=
    (hq.waitLinked sl).head_eq
  obtain ⟨s₁, woken, rest, hloop, hwakes, h₁, hkept, hdies⟩ := @wakeSleepersLoop_spec _ _ _ now (wait sl) wordSize
    hq rfl (by rw [show (s.setWaitLock sl true).cpu.sleepingTasks = sl from rfl, setWaitLock_locked, if_pos rfl])
    (h.wait_length_lt sl)
  refine ⟨s₁.setWaitLock sl false, woken, rest, ?_, ⟨hwakes.split, hwakes.due, hwakes.first⟩,
    h₁.setWaitLock sl false, hkept.bracket hlock,
    ⟨hdies.exiting, hdies.needsCleanup, hdies.alive, hdies.alarm, hdies.process⟩⟩
  rw [schedulerWakeSleepers, waitqueueAcquire_eq hlock]
  simp only [bind, Except.bind]
  rw [hhead, hloop]
  exact hkept.release

/-- No ordinary task runs. -/
def NoneRunning (s : Sched) : Prop := ∀ p ∈ s.tasks, (s.task p).state ≠ .RUNNING

lemma schedulerPolicyPickNext_nil (h : QueueInv s [] wait 0) :
    schedulerPolicyPickNext s = .ok (0, s) := by
  have hempty := h.runLinked.isEmpty.mpr rfl
  have hlock := h.unlocked
  rcases s with ⟨⟨addr, current, idle, cleanup, needs, ⟨locked, runnables⟩, sleeping⟩, task, rn, wn, wq, ex, ts⟩
  simp only at hlock hempty
  subst hlock
  simp [schedulerPolicyPickNext, runqueueAcquire, runqueueRelease, assertThat, hempty, Sched.setRunLock,
    bind, Except.bind]

lemma schedulerPolicyPickNext_cons (h : QueueInv s (t :: run) wait 0) :
    schedulerPolicyPickNext s = .ok (t,
      s.setRunnables (intrusivelistRemove s.runnableNode s.cpu.runnableTasks.runnables t)) := by
  have hempty : intrusivelistIsEmpty s.cpu.runnableTasks.runnables = false := by
    have hne := h.runLinked.isEmpty.not.mpr (by simp)
    simpa using hne
  have hhead := removeHead_cons h.runLinked
  have hlock := h.unlocked
  rcases s with ⟨⟨addr, current, idle, cleanup, needs, ⟨locked, runnables⟩, sleeping⟩, task, rn, wn, wq, ex, ts⟩
  simp only at hlock hempty hhead
  subst hlock
  simp [schedulerPolicyPickNext, runqueueAcquire, runqueueDequeueUnlocked, runqueueRelease, assertThat,
    hempty, hhead, Sched.setRunLock, Sched.setRunnables, bind, Except.bind]

/-- The task that `scheduler_pick_next` takes, and what it leaves on the run queue: the cleanup task, the idle task
when no task of the queue lives on, or the first task of the queue whose process is not exiting. -/
inductive Picks (s : Sched) (run : List Nat) (next : Nat) (run' : List Nat) : Prop
  | cleanup (hnext : next = s.cpu.cleanupTask) (hrun : run' = run)
  | idle (hnext : next = s.cpu.idle) (hdead : ∀ p ∈ run, isTaskProcessExiting s p = true)
  | task (dead : List Nat) (hrun : run = dead ++ next :: run') (hdead : ∀ p ∈ dead, isTaskProcessExiting s p = true)

lemma SameShape.isTaskProcessExiting (h : SameShape s s') (p : Nat) :
    isTaskProcessExiting s' p = isTaskProcessExiting s p := by
  rw [KaworuOS.isTaskProcessExiting, KaworuOS.isTaskProcessExiting, h.process, h.exiting]

lemma Picks.of_shape {next : Nat} {run' : List Nat} (h : Picks s' run next run') (hshape : SameShape s s') :
    Picks s run next run' := by
  cases h with
  | cleanup hnext hrun => exact .cleanup (hnext.trans hshape.cleanupTask) hrun
  | idle hnext hdead =>
    exact .idle (hnext.trans hshape.idle) (fun p hp => (hshape.isTaskProcessExiting p).symm.trans (hdead p hp))
  | task dead hrun hdead =>
    exact .task dead hrun (fun p hp => (hshape.isTaskProcessExiting p).symm.trans (hdead p hp))

lemma Picks.cons {next : Nat} {run' : List Nat} (h : Picks s run next run') (hrest : next ≠ s.cpu.cleanupTask)
    (ht : KaworuOS.isTaskProcessExiting s t = true) : Picks s (t :: run) next run' := by
  cases h with
  | cleanup hnext hrun => exact absurd hnext hrest
  | idle hnext hdead => exact .idle hnext (List.forall_mem_cons.mpr ⟨ht, hdead⟩)
  | task dead hrun hdead =>
    exact .task (t :: dead) (congrArg (List.cons t) hrun) (List.forall_mem_cons.mpr ⟨ht, hdead⟩)

/-- The loop of `scheduler_pick_next` ends, with the idle task and an empty run queue or with a
ready task in hand. -/
lemma pickNextLoop_spec {fuel : Nat} (h : QueueInv s run wait 0) (hnone : NoneRunning s)
    (hdistinct : s.cpu.idle ≠ s.cpu.cleanupTask) (hfuel : run.length < fuel) :
    ∃ next s' run', pickNextLoop fuel s = .ok (next, s') ∧ SameShape s s' ∧ NoneRunning s' ∧
      ((next = s'.cpu.idle ∧ run' = [] ∧ QueueInv s' run' wait 0) ∨
        (next ∈ s'.tasks ∧ QueueInv s' run' wait next ∧ (s'.task next).state = .READY ∧
          (s'.task next).waitingOn = 0)) ∧ Picks s run next run' := by
  induction run generalizing s fuel with
  | nil =>
    obtain ⟨fuel, rfl⟩ := Nat.exists_eq_succ_of_ne_zero (Nat.ne_zero_of_lt hfuel)
    refine ⟨s.cpu.idle, s, [], ?_, SameShape.refl s, hnone, .inl ⟨rfl, rfl, h⟩, .idle rfl (by simp)⟩
    simp [pickNextLoop, schedulerPolicyPickNext_nil h, bind, Except.bind]
  | cons t run ih =>
    obtain ⟨fuel, rfl⟩ := Nat.exists_eq_succ_of_ne_zero (Nat.ne_zero_of_lt hfuel)
    obtain ⟨ht, ht0, hstate⟩ := (h.ready t).mp (by simp)
    have hwait : (s.task t).waitingOn = 0 := by
      have hiff := h.waiting t ht ht0
      rw [hstate] at hiff
      simpa using hiff
    let s₁ := s.setRunnables (intrusivelistRemove s.runnableNode s.cpu.runnableTasks.runnables t)
    have h₁ : QueueInv s₁ run wait t := h.takeRun
    have hkept₁ : Kept s s₁ := kept_setRunnables s _
    rw [pickNextLoop, schedulerPolicyPickNext_cons h]
    simp only [bind, Except.bind, if_neg ht0]
    by_cases hexit : isTaskProcessExiting s₁ t = true
    · -- the task of an exiting process is dead and leaves the queue
      rw [if_pos hexit]
      let fields : Task := { s.task t with state := .DEAD }
      have hfields : (s₁.setTask t fields).task t = fields := setTask_same ..
      have hheld : QueueInv (s₁.setTask t fields) run wait t := h₁.setHeld ht (h.tasks t ht).2.2
      have h₂ := hheld.letGo (by rw [hfields]; exact hwait) (.inr (by rw [hfields]))
      have hnone₂ : NoneRunning ((s₁.setTask t fields).setNeedsCleanup true) := by
        intro p hp hrun
        by_cases hpt : p = t
        · subst hpt
          exact absurd (hfields ▸ hrun : fields.state = .RUNNING) (by simp [fields])
        · exact hnone p hp ((setTask_other (s := s₁) hpt fields) ▸ hrun)
      obtain ⟨next, s', run', hloop, hshape, hnone', hrest, hpicks⟩ :=
        ih (h₂.setNeedsCleanup true) hnone₂ hdistinct (by simpa using hfuel)
      have hdead : SameShape s ((s₁.setTask t fields).setNeedsCleanup true) :=
        (hkept₁.toSameShape.trans (sameShape_setTask s₁ t fields rfl)).trans (kept_setNeedsCleanup _ true).toSameShape
      have hordinary : next ≠ s.cpu.cleanupTask := by
        have hshape' := hdead.trans hshape
        rcases hrest with ⟨rfl, -⟩ | ⟨hmem, -⟩
        · rw [hshape'.idle]
          exact hdistinct
        · rw [hshape'.tasks] at hmem
          exact (h.cleanup.ne_of_mem hmem).symm
      refine ⟨next, s', run', hloop, hdead.trans hshape, hnone', hrest, (hpicks.of_shape hdead).cons hordinary ?_⟩
      rw [← hkept₁.toSameShape.isTaskProcessExiting]
      exact hexit
    · rw [if_neg hexit]
      exact ⟨t, s₁, run, rfl, hkept₁.toSameShape, hnone, .inr ⟨ht, h₁, hstate, hwait⟩, .task [] rfl (by simp)⟩

/-- After the first half of a switch no ordinary task runs. -/
lemma putBackPrev_spec (h : QueueInv s run wait 0)
    (hcur : s.cpu.current = 0 ∨ SpecialTask s s.cpu.current ∧
      (s.cpu.current = s.cpu.idle ∨ s.cpu.current = s.cpu.cleanupTask) ∨ s.cpu.current ∈ s.tasks) :
    ∃ s' back, putBackPrev s = .ok s' ∧ SameShape s s' ∧ NoneRunning s' ∧ QueueInv s' (run ++ back) wait 0 := by
  have hother : ∀ p ∈ s.tasks, p ≠ s.cpu.current → (s.task p).state ≠ .RUNNING := by
    intro p hp hpc hrun
    exact hpc (h.running p hp (h.tasks p hp).1 hrun)
  unfold putBackPrev
  rcases hcur with h0 | ⟨hspecial, hwhich⟩ | hmem
  · refine ⟨s, [], by simp [h0], SameShape.refl s, ?_, by rwa [List.append_nil]⟩
    intro p hp
    exact hother p hp (h0 ▸ (h.tasks p hp).1)
  · have hblocked : (s.task s.cpu.current).state ≠ .BLOCKED := by
      rcases hspecial.state with hst | hst <;> rw [hst] <;> decide
    refine ⟨s, [], ?_, SameShape.refl s, ?_, by rwa [List.append_nil]⟩
    · simp only [if_neg hspecial.ne_zero]
      rw [assertThat_true hspecial.cpu, assertThat_true (.inl hblocked), assertThat_true (.inr hspecial.waitingOn),
        if_neg (by tauto)]
      rfl
    · intro p hp
      refine hother p hp ?_
      rintro rfl
      exact hspecial.not_mem hp
  · obtain ⟨hc0, -, hcpu⟩ := h.tasks _ hmem
    have hwaiting := h.waiting _ hmem hc0
    have hassert₁ : (s.task s.cpu.current).state ≠ .BLOCKED ∨ (s.task s.cpu.current).waitingOn ≠ 0 := by
      tauto
    have hassert₂ : (s.task s.cpu.current).state ≠ .READY ∨ (s.task s.cpu.current).waitingOn = 0 := by
      by_cases hst : (s.task s.cpu.current).state = .READY
      · right
        rw [hst] at hwaiting
        simpa using hwaiting
      · exact .inl hst
    have hci : s.cpu.current ≠ s.cpu.idle := (h.idle.ne_of_mem hmem).symm
    have hcc : s.cpu.current ≠ s.cpu.cleanupTask := (h.cleanup.ne_of_mem hmem).symm
    simp only [if_neg hc0]
    rw [assertThat_true hcpu, assertThat_true hassert₁, assertThat_true hassert₂]
    by_cases hrun : (s.task s.cpu.current).state = .RUNNING
    · have hwait : (s.task s.cpu.current).waitingOn = 0 := by
        rw [hrun] at hwaiting
        simpa using hwaiting
      let fields : Task := { s.task s.cpu.current with state := .READY }
      have hfields : (s.setTask s.cpu.current fields).task s.cpu.current = fields := setTask_same ..
      have h₁ : QueueInv (s.setTask s.cpu.current fields) run wait s.cpu.current :=
        (h.hold hmem (.inl hrun)).setHeld hmem hcpu
      refine ⟨_, _, ?_, (sameShape_setTask s _ fields rfl).trans (kept_setRunnables _ _).toSameShape, ?_,
        h₁.putRun hmem (by rw [hfields]) (by rw [hfields]; exact hwait)⟩
      · rw [if_pos ⟨hci, hcc, hrun⟩, assertThat_true hwait]
        exact runqueueEnqueue_eq h.unlocked (by rw [Sched.setState, setTask_same])
      · intro p hp hprun
        by_cases hpc : p = s.cpu.current
        · subst hpc
          exact absurd (hfields ▸ hprun : fields.state = .RUNNING) (by simp [fields])
        · exact hother p hp hpc ((setTask_other (s := s) hpc fields) ▸ hprun)
    · refine ⟨s, [], ?_, SameShape.refl s, ?_, by rwa [List.append_nil]⟩
      · rw [if_neg (by tauto)]
        rfl
      · intro p hp
        by_cases hpc : p = s.cpu.current
        · rw [hpc]
          exact hrun
        · exact hother p hp hpc

/-- A running task that goes to sleep is put in front of the first sleeper with a later alarm. -/
lemma sleepEnqueue_spec (h : QueueInv s run wait 0) (hunlocked : ∀ wq, (s.waitQueue wq).locked = false)
    (ht : t ∈ s.tasks) (hrun : (s.task t).state = .RUNNING) (now ticks : Nat) :
    ∃ s' k₁ k₂, sleepEnqueue s t now ticks = .ok s' ∧ wait s.cpu.sleepingTasks = k₁ ++ k₂ ∧
      (∀ p ∈ k₁, (s.task p).sleepUntil ≤ wadd now ticks) ∧
      (∀ p, k₂.head? = some p → wadd now ticks < (s.task p).sleepUntil) ∧
      QueueInv s' run (Function.update wait s.cpu.sleepingTasks (k₁ ++ t :: k₂)) 0 ∧ SameShape s s' ∧
      s'.cpu.current = s.cpu.current ∧ NoneDies s s' [t] ∧ (s'.task t).sleepUntil = wadd now ticks ∧
      (s'.task t).state = .BLOCKED := by
  obtain ⟨h0, -, hcpu⟩ := h.tasks t ht
  let sl := s.cpu.sleepingTasks
  let fields : Task := { s.task t with state := .BLOCKED, waitingOn := sl, sleepUntil := wadd now ticks }
  let s₁ := (s.setWaitLock sl true).setSleepUntil t (wadd now ticks)
  have hheld := h.hold ht (.inl hrun)
  have hnot : t ∉ wait sl := hheld.held_not_mem_wait sl
  have hlock : (s.waitQueue sl).locked = false := hunlocked sl
  have hlinked : Linked s₁.waitNode (s₁.waitQueue sl).waiters (wait sl) := by
    simpa [s₁, Sched.setSleepUntil, Sched.setTask, Sched.setWaitLock] using h.waitLinked sl
  obtain ⟨k₁, k₂, nodes', il', hk, hins, hbefore, hafter, hlinked', hsame⟩ :=
    @insertSorted_spec _ _ _ _ (taskComparatorSleepUntil s₁) hlinked h0 hnot (h.wait_length_lt sl)
  -- the comparator sees the new alarm of the task and the old ones of the others
  have hcompare : ∀ p ∈ wait sl, taskComparatorSleepUntil s₁ p t = decide (wadd now ticks < (s.task p).sleepUntil) := by
    intro p hp
    have hpt : p ≠ t := by
      rintro rfl
      exact hnot hp
    have hself : (s₁.task t).sleepUntil = wadd now ticks := congrArg Task.sleepUntil (setTask_same ..)
    have hother : s₁.task p = s.task p := setTask_other hpt _
    rw [taskComparatorSleepUntil, hself, hother]
  let s' := (s.setTask t fields).setWaiters sl (nodes', il')
  have hfields : s'.task t = fields := setTask_same ..
  refine ⟨s', k₁, k₂, ?_, hk, ?_, ?_, ?_, ?_, rfl, ?_, congrArg Task.sleepUntil hfields,
    congrArg Task.state hfields⟩
  · have hrelease : waitqueueRelease (((s₁.setWaiters sl (nodes', il')).setWaitingOn t sl).setState t .BLOCKED) sl =
        .ok s' := by
      simp [waitqueueRelease, Sched.setState, Sched.setWaitingOn, Sched.setSleepUntil, Sched.setTask,
        Sched.setWaiters, Sched.setWaitLock, s₁, s', fields, hlock]
    unfold sleepEnqueue
    dsimp only
    rw [waitqueueAcquire_eq (hunlocked s.cpu.sleepingTasks)]
    simp only [bind, Except.bind]
    rw [show (s.setWaitLock s.cpu.sleepingTasks true).setSleepUntil t (wadd now ticks) = s₁ from rfl,
      show s.cpu.sleepingTasks = sl from rfl, hins]
    exact hrelease
  · intro p hp
    have hno := hbefore p hp
    rw [hcompare p (hk ▸ List.mem_append_left k₂ hp)] at hno
    simpa using hno
  · intro p hp
    have hyes := hafter p hp
    rw [hcompare p (hk ▸ List.mem_append_right k₁ (List.mem_of_mem_head? hp))] at hyes
    simpa using hyes
  · have hset : (s.setTask t fields).task t = fields := setTask_same ..
    have hblocked : QueueInv (s.setTask t fields) run wait t := hheld.setHeld ht hcpu
    exact hblocked.putWait ht h.sleeping_ne (congrArg Task.state hset) (congrArg Task.waitingOn hset) hk hlinked'
      hsame
  · exact (sameShape_setTask s t fields rfl).trans (kept_setWaiters _ sl _).toSameShape
  · have hset : NoneDies s (s.setTask t fields) [t] :=
      noneDies_setTask TaskState.noConfusion (.inl List.mem_cons_self) rfl
    exact ⟨hset.exiting, hset.needsCleanup, hset.alive, hset.alarm, hset.process⟩

section Switch

lemma noneDies_putBackPrev (h : putBackPrev s = .ok s') : NoneDies s s' [] := by
  unfold putBackPrev at h
  dsimp only at h
  split at h
  · cases h
    exact NoneDies.refl _ _
  · obtain ⟨_, -, h⟩ := bind_eq_ok.mp h
    obtain ⟨_, -, h⟩ := bind_eq_ok.mp h
    obtain ⟨_, -, h⟩ := bind_eq_ok.mp h
    split at h
    · obtain ⟨_, -, h⟩ := bind_eq_ok.mp h
      obtain ⟨_, -, h⟩ := bind_eq_ok.mp h
      exact (noneDies_setState (by decide)).trans (noneDies_runqueueEnqueue h)
    · cases h
      exact NoneDies.refl _ _

lemma noneDies_schedulerPolicyPickNext (h : schedulerPolicyPickNext s = .ok (t, s')) : NoneDies s s' [] := by
  unfold schedulerPolicyPickNext runqueueAcquire runqueueRelease runqueueDequeueUnlocked at h
  obtain ⟨s₁, h₁, h⟩ := bind_eq_ok.mp h
  obtain ⟨_, -, h⟩ := bind_eq_ok.mp h
  split at h₁
  · cases h₁
  · cases h₁
    split at h
    · obtain ⟨s₂, h₂, h⟩ := bind_eq_ok.mp h
      split at h₂
      · cases h₂
        cases h
        exact ⟨rfl, rfl, fun _ hp => hp, fun _ _ => rfl, fun _ => rfl⟩
      · cases h₂
    · obtain ⟨r, hr, h⟩ := bind_eq_ok.mp h
      obtain ⟨_, -, hr⟩ := bind_eq_ok.mp hr
      cases hr
      obtain ⟨s₂, h₂, h⟩ := bind_eq_ok.mp h
      split at h₂
      · cases h₂
        cases h
        exact ⟨rfl, rfl, fun _ hp => hp, fun _ _ => rfl, fun _ => rfl⟩
      · cases h₂

lemma noneDies_schedulerPickNext (hexit : ∀ p, s.exiting p = false) (hneeds : s.cpu.needsCleanup = false)
    (h : schedulerPickNext s = .ok (t, s')) : NoneDies s s' [] := by
  unfold schedulerPickNext at h
  rw [if_neg (by rw [hneeds]; decide)] at h
  generalize wordSize = fuel at h
  cases fuel with
  | zero => cases h
  | succ fuel =>
    obtain ⟨⟨next, s₁⟩, h₁, h⟩ := bind_eq_ok.mp h
    have hdies := noneDies_schedulerPolicyPickNext h₁
    have hstays : isTaskProcessExiting s₁ next = false := by
      rw [isTaskProcessExiting, hdies.exiting, hexit, Bool.and_false]
    dsimp only at h
    split at h
    · cases h
      exact hdies
    · rw [if_neg (by rw [hstays]; decide)] at h
      cases h
      exact hdies

lemma noneDies_switchTo {prev next : Nat} (h : switchTo s prev next = .ok s') : NoneDies s s' [] := by
  have hset : NoneDies s ((s.setState next .RUNNING).setCurrent next) [] := by
    have hrun : NoneDies s (s.setState next .RUNNING) [] := noneDies_setState (by decide)
    exact ⟨hrun.exiting, hrun.needsCleanup, hrun.alive, hrun.alarm, hrun.process⟩
  unfold switchTo at h
  obtain ⟨_, -, h⟩ := bind_eq_ok.mp h
  obtain ⟨_, -, h⟩ := bind_eq_ok.mp h
  obtain ⟨_, -, h⟩ := bind_eq_ok.mp h
  dsimp only at h
  split at h
  · obtain ⟨_, -, h⟩ := bind_eq_ok.mp h
    cases h
    exact hset
  · split at h
    · cases h
      exact hset
    · split at h
      · cases h
        exact hset
      · obtain ⟨_, -, h⟩ := bind_eq_ok.mp h
        obtain ⟨_, -, h⟩ := bind_eq_ok.mp h
        cases h
        exact hset

lemma noneDies_schedulerSwitch (hexit : ∀ p, s.exiting p = false) (hneeds : s.cpu.needsCleanup = false)
    (h : schedulerSwitch s = .ok s') : NoneDies s s' [] := by
  unfold schedulerSwitch at h
  obtain ⟨s₁, h₁, h⟩ := bind_eq_ok.mp h
  obtain ⟨⟨next, s₂⟩, h₂, h⟩ := bind_eq_ok.mp h
  have hput := noneDies_putBackPrev h₁
  have hpick := noneDies_schedulerPickNext (fun p => (congrFun hput.exiting p).trans (hexit p))
    (hput.needsCleanup.trans hneeds) h₂
  exact (hput.trans hpick).trans (noneDies_switchTo h)

end Switch

section Tasks

/-- No task gets a new alarm, and each belongs to the same process. -/
def SameTasks (s s' : Sched) : Prop :=
  ∀ p, (s'.task p).sleepUntil = (s.task p).sleepUntil ∧ (s'.task p).process = (s.task p).process

lemma SameTasks.trans (h : SameTasks s s') (h' : SameTasks s' s'') : SameTasks s s'' :=
  fun p => ⟨(h' p).1.trans (h p).1, (h' p).2.trans (h p).2⟩

lemma NoneDies.sameTasks (h : NoneDies s s' []) : SameTasks s s' :=
  fun p => ⟨h.alarm p List.not_mem_nil, h.process p⟩

lemma sameTasks_setTask {fields : Task} (halarm : fields.sleepUntil = (s.task t).sleepUntil)
    (hprocess : fields.process = (s.task t).process) : SameTasks s (s.setTask t fields) := by
  intro p
  by_cases hpt : p = t
  · rw [hpt, setTask_same]
    exact ⟨halarm, hprocess⟩
  · rw [setTask_other hpt]
    exact ⟨rfl, rfl⟩

lemma sameTasks_pickNextLoop {fuel : Nat} (h : pickNextLoop fuel s = .ok (t, s')) : SameTasks s s' := by
  induction fuel generalizing s with
  | zero => cases h
  | succ fuel ih =>
    obtain ⟨⟨next, s₁⟩, h₁, h⟩ := bind_eq_ok.mp h
    have hpolicy := (noneDies_schedulerPolicyPickNext h₁).sameTasks
    dsimp only at h
    split at h
    · cases h
      exact hpolicy
    · split at h
      · have hdead : SameTasks s₁ ((s₁.setState next .DEAD).setNeedsCleanup true) := sameTasks_setTask rfl rfl
        exact (hpolicy.trans hdead).trans (ih h)
      · cases h
        exact hpolicy

lemma sameTasks_schedulerSwitch (h : schedulerSwitch s = .ok s') : SameTasks s s' := by
  unfold schedulerSwitch at h
  obtain ⟨s₁, h₁, h⟩ := bind_eq_ok.mp h
  obtain ⟨⟨next, s₂⟩, h₂, h⟩ := bind_eq_ok.mp h
  have hpick : SameTasks s₁ s₂ := by
    unfold schedulerPickNext at h₂
    split at h₂
    · cases h₂
      exact fun _ => ⟨rfl, rfl⟩
    · exact sameTasks_pickNextLoop h₂
  exact ((noneDies_putBackPrev h₁).sameTasks.trans hpick).trans (noneDies_switchTo h).sameTasks

lemma sameTasks_waitqueueEnqueue {wq : Nat} (h : waitqueueEnqueue s wq t = .ok s') : SameTasks s s' := by
  unfold waitqueueEnqueue waitqueueAcquire waitqueueEnqueueUnlocked waitqueueRelease at h
  obtain ⟨s₁, h₁, h⟩ := bind_eq_ok.mp h
  obtain ⟨s₂, h₂, h⟩ := bind_eq_ok.mp h
  obtain ⟨_, -, h₂⟩ := bind_eq_ok.mp h₂
  obtain ⟨_, -, h₂⟩ := bind_eq_ok.mp h₂
  split at h₁
  · cases h₁
  · cases h₁
    cases h₂
    split at h
    · cases h
      exact sameTasks_setTask rfl rfl
    · cases h

lemma sameTasks_waitqueueDequeueUnlocked {wq : Nat} (h : waitqueueDequeueUnlocked s wq = .ok (t, s')) :
    SameTasks s s' := by
  unfold waitqueueDequeueUnlocked at h
  obtain ⟨_, -, h⟩ := bind_eq_ok.mp h
  dsimp only at h
  split at h
  · cases h
    exact fun _ => ⟨rfl, rfl⟩
  · cases h
    exact sameTasks_setTask rfl rfl

lemma sameTasks_waitqueueDequeue {wq : Nat} (h : waitqueueDequeue s wq = .ok (t, s')) : SameTasks s s' := by
  unfold waitqueueDequeue waitqueueAcquire waitqueueRelease at h
  obtain ⟨s₁, h₁, h⟩ := bind_eq_ok.mp h
  obtain ⟨⟨t', s₂⟩, h₂, h⟩ := bind_eq_ok.mp h
  have hdeq := sameTasks_waitqueueDequeueUnlocked h₂
  obtain ⟨s₃, h₃, h⟩ := bind_eq_ok.mp h
  split at h₁
  · cases h₁
  · cases h₁
    split at h₃
    · cases h₃
      cases h
      exact hdeq
    · cases h₃

lemma sameTasks_wakeAllLoop {wq fuel : Nat} (h : wakeAllLoop wq fuel s = .ok s') : SameTasks s s' := by
  induction fuel generalizing s with
  | zero => cases h
  | succ fuel ih =>
    obtain ⟨⟨blocked, s₁⟩, h₁, h⟩ := bind_eq_ok.mp h
    have hdeq := sameTasks_waitqueueDequeueUnlocked h₁
    dsimp only at h
    split at h
    · cases h
      exact hdeq
    · obtain ⟨_, -, h⟩ := bind_eq_ok.mp h
      obtain ⟨_, -, h⟩ := bind_eq_ok.mp h
      obtain ⟨s₂, h₂, h⟩ := bind_eq_ok.mp h
      have hready : ((s₁.setState blocked .READY).task blocked).state ≠ .DEAD := by
        rw [Sched.setState, setTask_same]
        exact TaskState.noConfusion
      have hset : SameTasks s₁ (s₁.setState blocked .READY) := sameTasks_setTask rfl rfl
      exact ((hdeq.trans hset).trans (noneDies_schedulerEnqueue h₂ hready).sameTasks).trans (ih h)

lemma sameTasks_schedulerWakeAll {wq : Nat} (h : schedulerWakeAll s wq = .ok s') : SameTasks s s' := by
  unfold schedulerWakeAll waitqueueAcquire waitqueueRelease at h
  obtain ⟨s₁, h₁, hrest⟩ := bind_eq_ok.mp h
  obtain ⟨s₂, h₂, h₃⟩ := bind_eq_ok.mp hrest
  have hloop := sameTasks_wakeAllLoop h₂
  split at h₁
  · cases h₁
  · cases h₁
    split at h₃
    · cases h₃
      exact hloop
    · cases h₃

lemma sameTasks_wakeOne {wq : Nat}
    (h : (waitqueueDequeue s wq >>= fun r => schedulerWakeBlocked r.2 r.1) = .ok s') : SameTasks s s' := by
  obtain ⟨⟨t, s₁⟩, h₁, h⟩ := bind_eq_ok.mp h
  exact (sameTasks_waitqueueDequeue h₁).trans (noneDies_schedulerWakeBlocked h).sameTasks

lemma sameTasks_block {wq : Nat} (h : (waitqueueEnqueue s wq t >>= schedulerBlockCurrent) = .ok s') :
    SameTasks s s' := by
  obtain ⟨s₁, h₁, h⟩ := bind_eq_ok.mp h
  unfold schedulerBlockCurrent at h
  obtain ⟨_, -, h⟩ := bind_eq_ok.mp h
  obtain ⟨_, -, h⟩ := bind_eq_ok.mp h
  have hset : SameTasks s₁ (s₁.setState s₁.cpu.current .BLOCKED) := sameTasks_setTask rfl rfl
  exact ((sameTasks_waitqueueEnqueue h₁).trans hset).trans (sameTasks_schedulerSwitch h)

lemma sameTasks_taskExit (h : taskExit s t = .ok s') : SameTasks s s' := by
  have hset : SameTasks s ((s.setNeedsCleanup true).setState t .DEAD) := sameTasks_setTask rfl rfl
  exact hset.trans (sameTasks_schedulerSwitch h)

end Tasks

end KaworuOS.Proofs
