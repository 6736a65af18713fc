import KaworuOS.Proofs.TimedSleep

/-!
# The order of the sleeping queue

`intrusivelist_insert_sorted` puts a task behind all that wake up at the same time or earlier, so sleepers with one
deadline stay in the order in which they have gone to sleep. The loop of `scheduler_wake_sleepers` stops at the first
task whose time has not come, and in a sorted queue no task behind it has to be woken.
-/

namespace KaworuOS.Proofs
open Lib

variable {s s' : Sched} {run : List Nat} {wait : Nat → List Nat} {seq : Nat → Nat} {count : Nat}

/-- The scheduler, with a number for the last time that each task has gone to sleep, and the next one. -/
structure SleepCount where
  sched : Sched
  seq : Nat → Nat
  count : Nat

/-- No other code than `scheduler_sleep_current` and `scheduler_wake_sleepers` uses the sleeping queue. -/
def SchedOp.Apart (s : Sched) : SchedOp → Prop
  | block wq | wakeOne wq | wakeAll wq => wq ≠ s.cpu.sleepingTasks
  | _ => True

/-- A step of a run of the scheduler, which numbers the calls of `scheduler_sleep_current`. -/
inductive SleepCountStep : SleepCount → SleepCount → Prop
  | sleep {r : SleepCount} {now ticks : Nat} {s' : Sched} (hop : (SchedOp.sleep now ticks).Enabled r.sched)
      (hexec : schedulerSleepCurrent r.sched now ticks = .ok s') :
      SleepCountStep r ⟨s', Function.update r.seq r.sched.cpu.current r.count, r.count + 1⟩
  | other {r : SleepCount} {op : SchedOp} {s' : Sched} (hop : op.Enabled r.sched) (hapart : op.Apart r.sched)
      (hnot : ∀ now ticks, op ≠ .sleep now ticks) (hexec : op.exec r.sched = .ok s') :
      SleepCountStep r { r with sched := s' }

/-- `a` wakes up before `b`, or at the same time and has gone to sleep before `b`. -/
def WakesFirst (s : Sched) (seq : Nat → Nat) (a b : Nat) : Prop :=
  (s.task a).sleepUntil < (s.task b).sleepUntil ∨
    (s.task a).sleepUntil = (s.task b).sleepUntil ∧ seq a < seq b

/-- The sleeping queue is sorted, and `scheduler_wake_sleepers` moves those whose time has come to the end of the run
queue, in their order, and leaves the others as they are. -/
structure SleepCount.InOrder (r : SleepCount) : Prop where
  sorted : ∀ sleep, Linked r.sched.waitNode (r.sched.waitQueue r.sched.cpu.sleepingTasks).waiters sleep →
    sleep.Pairwise (WakesFirst r.sched r.seq)
  wakes : ∀ now, ∃ s' run sleep, schedulerWakeSleepers r.sched now = .ok s' ∧ OnQueues r.sched run sleep ∧
    OnQueues s' (run ++ sleep.filter (fun p => (r.sched.task p).sleepUntil ≤ now))
      (sleep.filter (fun p => now < (r.sched.task p).sleepUntil)) ∧
    ∀ p ∈ sleep, now < (r.sched.task p).sleepUntil → (s'.task p).sleepUntil = (r.sched.task p).sleepUntil

/-- The invariant: the queue is sorted, and its members have been numbered. -/
structure SleepSorted (s : Sched) (seq : Nat → Nat) (count : Nat) (sleep : List Nat) : Prop where
  sorted : sleep.Pairwise (WakesFirst s seq)
  numbered : ∀ p ∈ sleep, seq p < count

lemma WakesFirst.le {a b : Nat} (h : WakesFirst s seq a b) : (s.task a).sleepUntil ≤ (s.task b).sleepUntil := by
  rcases h with hlt | ⟨heq, -⟩
  · exact Nat.le_of_lt hlt
  · exact Nat.le_of_eq heq

lemma SleepSorted.congr {sleep sleep' : List Nat} (h : SleepSorted s seq count sleep) (hsub : sleep'.Sublist sleep)
    (halarms : ∀ p ∈ sleep', (s'.task p).sleepUntil = (s.task p).sleepUntil) : SleepSorted s' seq count sleep' := by
  refine ⟨(h.sorted.sublist hsub).imp_of_mem (fun ha hb hab => ?_), fun p hp => h.numbered p (hsub.subset hp)⟩
  rw [WakesFirst, halarms _ ha, halarms _ hb]
  exact hab

/-- A task that goes to sleep is put between those that wake up before it and those that wake up after it. -/
lemma SleepSorted.insert {k₁ k₂ : List Nat} {t deadline : Nat} (h : SleepSorted s seq count (k₁ ++ k₂))
    (hnot : t ∉ k₁ ++ k₂) (hbefore : ∀ p ∈ k₁, (s.task p).sleepUntil ≤ deadline)
    (hafter : ∀ p, k₂.head? = some p → deadline < (s.task p).sleepUntil) (hself : (s'.task t).sleepUntil = deadline)
    (hothers : ∀ p, p ≠ t → (s'.task p).sleepUntil = (s.task p).sleepUntil) :
    SleepSorted s' (Function.update seq t count) (count + 1) (k₁ ++ t :: k₂) := by
  have hne : ∀ p ∈ k₁ ++ k₂, p ≠ t := by
    rintro p hp rfl
    exact hnot hp
  have hkeep : ∀ p ∈ k₁ ++ k₂, (s'.task p).sleepUntil = (s.task p).sleepUntil ∧
      Function.update seq t count p = seq p :=
    fun p hp => ⟨hothers p (hne p hp), Function.update_of_ne (hne p hp) _ _⟩
  have hsorted : (k₁ ++ k₂).Pairwise (WakesFirst s' (Function.update seq t count)) := by
    refine h.sorted.imp_of_mem (fun ha hb hab => ?_)
    rw [WakesFirst, (hkeep _ ha).1, (hkeep _ hb).1, (hkeep _ ha).2, (hkeep _ hb).2]
    exact hab
  have hlater : ∀ p ∈ k₂, deadline < (s.task p).sleepUntil :=
    lt_of_head ((List.pairwise_append.mp h.sorted).2.1.imp WakesFirst.le) hafter
  obtain ⟨h1, h2, h3⟩ := List.pairwise_append.mp hsorted
  refine ⟨List.pairwise_append.mpr ⟨h1, List.pairwise_cons.mpr ⟨fun p hp => ?_, h2⟩, fun p hp q hq => ?_⟩,
    fun p hp => ?_⟩
  · left
    rw [hself, (hkeep p (List.mem_append_right k₁ hp)).1]
    exact hlater p hp
  · rcases List.mem_cons.mp hq with rfl | hq
    · -- the new task has the largest number
      have hle := hbefore p hp
      have hnumber := h.numbered p (List.mem_append_left k₂ hp)
      rw [WakesFirst, hself, (hkeep p (List.mem_append_left k₂ hp)).1, (hkeep p (List.mem_append_left k₂ hp)).2,
        Function.update_self]
      omega
    · exact h3 p hp q hq
  · by_cases hpt : p = t
    · rw [hpt, Function.update_self]
      exact Nat.lt_succ_self count
    · rw [Function.update_of_ne hpt]
      have hin : p ∈ k₁ ++ k₂ := by
        rcases List.mem_append.mp hp with hp | hp
        · exact List.mem_append_left k₂ hp
        · exact List.mem_append_right k₁ ((List.mem_cons.mp hp).resolve_left hpt)
      exact Nat.lt_succ_of_lt (h.numbered p hin)

/-- The front part that has been woken is what is due. -/
lemma WakesUp.filter {now : Nat} {k woken rest : List Nat} (h : WakesUp s now k woken rest)
    (hsorted : k.Pairwise (WakesFirst s seq)) :
    k.filter (fun p => (s.task p).sleepUntil ≤ now) = woken ∧
      k.filter (fun p => now < (s.task p).sleepUntil) = rest := by
  rw [h.split] at hsorted ⊢
  have hlater := lt_of_head ((List.pairwise_append.mp hsorted).2.1.imp WakesFirst.le) h.first
  rw [List.filter_append, List.filter_append]
  constructor
  · rw [List.filter_eq_self.mpr (fun p hp => by simpa using h.due p hp),
      List.filter_eq_nil_iff.mpr (fun p hp => by simpa using hlater p hp), List.append_nil]
  · rw [List.filter_eq_nil_iff.mpr (fun p hp => by simpa using h.due p hp),
      List.filter_eq_self.mpr (fun p hp => by simpa using hlater p hp), List.nil_append]

/-- Every operation keeps the order. -/
lemma SleepCountStep.sorted {r r' : SleepCount} (hinv : SchedInv r.sched run wait)
    (h : SleepSorted r.sched r.seq r.count (wait r.sched.cpu.sleepingTasks)) (hstep : SleepCountStep r r') :
    ∃ run' wait', SchedInv r'.sched run' wait' ∧
      SleepSorted r'.sched r'.seq r'.count (wait' r'.sched.cpu.sleepingTasks) := by
  cases hstep with
  | @sleep now ticks s' hop hexec =>
    have hrunning := hinv.running_of_mem hop
    obtain ⟨s₁, run', k₁, k₂, hok, hinv', hk, hbefore, hafter, hself, hothers, hshape, -⟩ :=
      hinv.sleep hop hrunning now ticks
    obtain rfl := Except.ok.inj (hexec.symm.trans hok)
    refine ⟨run', _, hinv', ?_⟩
    rw [hk] at h
    have hnot : r.sched.cpu.current ∉ k₁ ++ k₂ := hk ▸ (hinv.queues.hold hop (.inl hrunning)).held_not_mem_wait _
    show SleepSorted s' _ _ (Function.update wait r.sched.cpu.sleepingTasks _ s'.cpu.sleepingTasks)
    rw [hshape.sleepingTasks, Function.update_self]
    exact h.insert hnot hbefore hafter hself hothers
  | @other op s' hop hapart hnot hexec =>
    have huntouched : ¬op.Touches r.sched r.sched.cpu.sleepingTasks →
        ∃ run' wait', SchedInv s' run' wait' ∧ SleepSorted s' r.seq r.count (wait' s'.cpu.sleepingTasks) := by
      intro hno
      obtain ⟨s₁, run', wait', hok, hinv', hmoves⟩ := hinv.exec op hop
      obtain rfl := Except.ok.inj (hexec.symm.trans hok)
      refine ⟨run', wait', hinv', ?_⟩
      rw [hmoves.sleepingTasks, hmoves.waiters _ hno]
      refine h.congr (List.Sublist.refl _) (fun p hp => hmoves.alarms hno p ?_)
      exact ((hinv.queues.blocked p _).mp hp).1
    cases op with
    | sleep now ticks => exact absurd rfl (hnot now ticks)
    | wakeSleepers now =>
      obtain ⟨s₁, woken, rest, hok, hinv', hwakes, halarms, hkept⟩ := hinv.wakeSleepers now
      obtain rfl := Except.ok.inj (hexec.symm.trans hok)
      refine ⟨_, _, hinv', ?_⟩
      show SleepSorted s' _ _ (Function.update wait r.sched.cpu.sleepingTasks rest s'.cpu.sleepingTasks)
      rw [hkept.sleepingTasks, Function.update_self]
      have hsub : rest.Sublist (wait r.sched.cpu.sleepingTasks) := hwakes.split ▸ List.sublist_append_right woken rest
      have hnodup := (hinv.queues.waitLinked r.sched.cpu.sleepingTasks).nodup
      rw [hwakes.split] at hnodup
      exact h.congr hsub (fun p hp => halarms p (fun hin => (List.nodup_append.mp hnodup).2.2 p hin p hp rfl))
    | block wq => exact huntouched hapart
    | wakeOne wq => exact huntouched hapart
    | wakeAll wq => exact huntouched hapart
    | create _ _ | switch | exit | processExit _ | cleanup => exact huntouched id

lemma sleepCount_sorted {r r' : SleepCount} (hinv : SchedInv r.sched run wait)
    (h : SleepSorted r.sched r.seq r.count (wait r.sched.cpu.sleepingTasks))
    (hrun : Relation.ReflTransGen SleepCountStep r r') :
    ∃ run' wait', SchedInv r'.sched run' wait' ∧
      SleepSorted r'.sched r'.seq r'.count (wait' r'.sched.cpu.sleepingTasks) := by
  induction hrun with
  | refl => exact ⟨run, wait, hinv, h⟩
  | tail _ hstep ih =>
    obtain ⟨run₁, wait₁, hinv₁, h₁⟩ := ih
    exact hstep.sorted hinv₁ h₁

/-- **Order of the sleeping queue.** In every state of every run from the start of the scheduler, in which only
`scheduler_sleep_current` and `scheduler_wake_sleepers` use the sleeping queue, with arbitrary deadlines and values of
the counter. -/
theorem sleep_queue_in_order {idle cleanupTask : Nat} (hboot : BootState s idle cleanupTask) (seq : Nat → Nat)
    {r : SleepCount}
    (hrun : Relation.ReflTransGen SleepCountStep ⟨commonCpuInitTasks s idle cleanupTask, seq, 0⟩ r) : r.InOrder := by
  have hstart : SleepSorted (commonCpuInitTasks s idle cleanupTask) seq 0 [] :=
    ⟨List.Pairwise.nil, fun p hp => by cases hp⟩
  obtain ⟨run, wait, hinv, hsorted⟩ := sleepCount_sorted hboot.inv hstart hrun
  have hlinked := hinv.queues.waitLinked r.sched.cpu.sleepingTasks
  refine ⟨fun sleep hsleep => ?_, fun now => ?_⟩
  · rw [hsleep.unique hlinked]
    exact hsorted.sorted
  · obtain ⟨s', woken, rest, hok, hinv', hwakes, halarms, hkept⟩ := hinv.wakeSleepers now
    obtain ⟨hdue, hlater⟩ := hwakes.filter hsorted.sorted
    refine ⟨s', run, _, hok, ⟨hinv.queues.runLinked, hlinked⟩, ?_, fun p hp hnow => ?_⟩
    · rw [hdue, hlater]
      have hlinked' := hinv'.queues.waitLinked r.sched.cpu.sleepingTasks
      rw [Function.update_self] at hlinked'
      exact ⟨hinv'.queues.runLinked, by rwa [hkept.sleepingTasks]⟩
    · exact halarms p (fun hin => absurd (hwakes.due p hin) (Nat.not_le.mpr hnow))

/-- The state after an operation that returns. -/
def SleepCount.after (r : SleepCount) (op : SchedOp) : SleepCount :=
  { r with sched := okOr r.sched (op.exec r.sched) }

/-- The state after the current task has gone to sleep. -/
def SleepCount.afterSleep (r : SleepCount) (now ticks : Nat) : SleepCount :=
  ⟨okOr r.sched (schedulerSleepCurrent r.sched now ticks), Function.update r.seq r.sched.cpu.current r.count,
    r.count + 1⟩

lemma SleepCount.step_after (r : SleepCount) (op : SchedOp) (hop : op.Enabled r.sched) (hapart : op.Apart r.sched)
    (hnot : ∀ now ticks, op ≠ .sleep now ticks) (hok : (op.exec r.sched).isOk = true) : SleepCountStep r (r.after op) :=
  .other hop hapart hnot (eq_ok_of_isOk _ hok)

lemma SleepCount.step_afterSleep (r : SleepCount) (now ticks : Nat) (hop : (SchedOp.sleep now ticks).Enabled r.sched)
    (hok : (schedulerSleepCurrent r.sched now ticks).isOk = true) : SleepCountStep r (r.afterSleep now ticks) :=
  .sleep hop (eq_ok_of_isOk _ hok)

/-- Three tasks go to sleep, the first one and the third one with the same deadline: the queue holds the second one,
the first one and the third one. -/
theorem sleep_queue_in_order_three :
    ∃ r : SleepCount, Relation.ReflTransGen SleepCountStep ⟨commonCpuInitTasks bareCpu 0x10 0x20, fun _ => 0, 0⟩ r ∧
      Linked r.sched.waitNode (r.sched.waitQueue 0x200).waiters [0x40, 0x30, 0x50] ∧ r.InOrder := by
  let r₀ : SleepCount := ⟨commonCpuInitTasks bareCpu 0x10 0x20, fun _ => 0, 0⟩
  let r₁ := r₀.after (.create 0x30 0)
  let r₂ := r₁.after (.create 0x40 0)
  let r₃ := r₂.after (.create 0x50 0)
  let r₄ := r₃.after .switch
  let r₅ := r₄.afterSleep 1 9
  let r₆ := r₅.afterSleep 2 3
  let r₇ := r₆.afterSleep 3 7
  have hboot : BootState bareCpu 0x10 0x20 :=
    ⟨by decide, by decide, rfl, fun _ => rfl, by decide, by decide, by decide⟩
  have h₁ := r₀.step_after (.create 0x30 0) (by decide +kernel) trivial (fun _ _ => SchedOp.noConfusion)
    (by decide +kernel)
  have h₂ := r₁.step_after (.create 0x40 0) (by decide +kernel) trivial (fun _ _ => SchedOp.noConfusion)
    (by decide +kernel)
  have h₃ := r₂.step_after (.create 0x50 0) (by decide +kernel) trivial (fun _ _ => SchedOp.noConfusion)
    (by decide +kernel)
  have h₄ := r₃.step_after .switch trivial trivial (fun _ _ => SchedOp.noConfusion) (by decide +kernel)
  have h₅ := r₄.step_afterSleep 1 9 (by decide +kernel) (by decide +kernel)
  have h₆ := r₅.step_afterSleep 2 3 (by decide +kernel) (by decide +kernel)
  have h₇ := r₆.step_afterSleep 3 7 (by decide +kernel) (by decide +kernel)
  have hrun := ((((((Relation.ReflTransGen.single h₁).tail h₂).tail h₃).tail h₄).tail h₅).tail h₆).tail h₇
  refine ⟨r₇, hrun, ⟨?_, by decide +kernel, by decide⟩, sleep_queue_in_order hboot (fun _ => 0) hrun⟩
  simp only [NodeSeg, DSeg]
  decide +kernel

end KaworuOS.Proofs
