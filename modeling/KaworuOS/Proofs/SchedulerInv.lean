import KaworuOS.Scheduler
import KaworuOS.Proofs.IntrusiveList

/-!
# The queues of the scheduler agree with the states of the tasks

`QueueInv s run wait held` describes the run queue by the list `run` and every wait queue `wq` by
the list `wait wq`. The task `held` is the one that an operation has in its hands: it is on no
queue, and its fields are not constrained. Null stands for no such task.
-/

namespace KaworuOS.Proofs
open Lib

/-- A task of the CPU itself, idle or cleanup. -/
structure SpecialTask (s : Sched) (t : Nat) : Prop where
  ne_zero : t ≠ 0
  not_mem : t ∉ s.tasks
  cpu : (s.task t).cpu = s.cpu.addr
  waitingOn : (s.task t).waitingOn = 0
  state : (s.task t).state = .READY ∨ (s.task t).state = .RUNNING

/-- Queues, nodes and task fields agree, the task `held` aside. -/
structure QueueInv (s : Sched) (run : List Nat) (wait : Nat → List Nat) (held : Nat) : Prop where
  addr_ne : s.cpu.addr ≠ 0
  sleeping_ne : s.cpu.sleepingTasks ≠ 0
  idle : SpecialTask s s.cpu.idle
  cleanup : SpecialTask s s.cpu.cleanupTask
  unlocked : s.cpu.runnableTasks.locked = false
  runLinked : Linked s.runnableNode s.cpu.runnableTasks.runnables run
  waitLinked : ∀ wq, Linked s.waitNode (s.waitQueue wq).waiters (wait wq)
  tasks : ∀ t ∈ s.tasks, t ≠ 0 ∧ t < 2 ^ 64 ∧ (s.task t).cpu = s.cpu.addr
  ready : ∀ t, t ∈ run ↔ t ∈ s.tasks ∧ t ≠ held ∧ (s.task t).state = .READY
  blocked : ∀ t wq, t ∈ wait wq ↔
    t ∈ s.tasks ∧ t ≠ held ∧ (s.task t).state = .BLOCKED ∧ (s.task t).waitingOn = wq
  waiting : ∀ t ∈ s.tasks, t ≠ held → ((s.task t).state = .BLOCKED ↔ (s.task t).waitingOn ≠ 0)
  runNull : ∀ t ∈ s.tasks, t ∉ run → s.runnableNode t = ⟨0, 0⟩
  waitNull : ∀ t ∈ s.tasks, (∀ wq, t ∉ wait wq) → s.waitNode t = ⟨0, 0⟩
  running : ∀ t ∈ s.tasks, t ≠ held → (s.task t).state = .RUNNING → t = s.cpu.current

variable {s : Sched} {run : List Nat} {wait : Nat → List Nat} {held t : Nat}

lemma SpecialTask.ne_of_mem {p : Nat} (h : SpecialTask s p) (ht : t ∈ s.tasks) : p ≠ t := by
  rintro rfl
  exact h.not_mem ht

lemma QueueInv.held_not_mem_run (h : QueueInv s run wait held) : held ∉ run := by
  intro hin
  exact ((h.ready held).mp hin).2.1 rfl

lemma QueueInv.held_not_mem_wait (h : QueueInv s run wait held) (wq : Nat) : held ∉ wait wq := by
  intro hin
  exact ((h.blocked held wq).mp hin).2.1 rfl

lemma QueueInv.wait_unique (h : QueueInv s run wait held) {wq wq' : Nat} (h1 : t ∈ wait wq)
    (h2 : t ∈ wait wq') : wq = wq' :=
  ((h.blocked t wq).mp h1).2.2.2.symm.trans ((h.blocked t wq').mp h2).2.2.2

lemma SpecialTask.setTask {p : Nat} (h : SpecialTask s p) (hp : p ≠ t) (fields : Task) :
    SpecialTask (s.setTask t fields) p := by
  have htask : (s.setTask t fields).task p = s.task p := Function.update_of_ne hp _ _
  refine ⟨h.ne_zero, h.not_mem, ?_, ?_, ?_⟩
  · rw [htask]
    exact h.cpu
  · rw [htask]
    exact h.waitingOn
  · rw [htask]
    exact h.state

lemma setTask_same (s : Sched) (t : Nat) (fields : Task) : (s.setTask t fields).task t = fields :=
  Function.update_self ..

lemma setTask_other {p : Nat} (hp : p ≠ t) (fields : Task) :
    (s.setTask t fields).task p = s.task p :=
  Function.update_of_ne hp _ _

lemma setTask_setTask (s : Sched) (t : Nat) (f g : Task) :
    (s.setTask t f).setTask t g = s.setTask t g := by
  simp [Sched.setTask]

lemma QueueInv.setHeld (h : QueueInv s run wait t) (ht : t ∈ s.tasks) {fields : Task}
    (hcpu : fields.cpu = s.cpu.addr) : QueueInv (s.setTask t fields) run wait t := by
  have hother : ∀ p, p ≠ t → (s.setTask t fields).task p = s.task p := fun p hp => setTask_other hp _
  refine ⟨h.addr_ne, h.sleeping_ne, h.idle.setTask (h.idle.ne_of_mem ht) _,
    h.cleanup.setTask (h.cleanup.ne_of_mem ht) _, h.unlocked, h.runLinked, h.waitLinked, ?_, ?_, ?_, ?_,
    h.runNull, h.waitNull, ?_⟩
  · intro p hp
    by_cases hpt : p = t
    · subst hpt
      rw [setTask_same]
      exact ⟨(h.tasks p hp).1, (h.tasks p hp).2.1, hcpu⟩
    · rw [hother p hpt]
      exact h.tasks p hp
  · intro p
    rw [h.ready p]
    refine and_congr_right (fun _ => and_congr_right (fun hpt => ?_))
    rw [hother p hpt]
  · intro p wq
    rw [h.blocked p wq]
    refine and_congr_right (fun _ => and_congr_right (fun hpt => ?_))
    rw [hother p hpt]
  · intro p hp hpt
    rw [hother p hpt]
    exact h.waiting p hp hpt
  · intro p hp hpt
    rw [hother p hpt]
    exact h.running p hp hpt

lemma QueueInv.hold (h : QueueInv s run wait 0) (ht : t ∈ s.tasks)
    (hstate : (s.task t).state = .RUNNING ∨ (s.task t).state = .DEAD) : QueueInv s run wait t := by
  have hready : (s.task t).state ≠ .READY := by rcases hstate with hs | hs <;> simp [hs]
  have hblocked : (s.task t).state ≠ .BLOCKED := by rcases hstate with hs | hs <;> simp [hs]
  refine ⟨h.addr_ne, h.sleeping_ne, h.idle, h.cleanup, h.unlocked, h.runLinked, h.waitLinked, h.tasks,
    ?_, ?_, ?_, h.runNull, h.waitNull, ?_⟩
  · intro p
    rw [h.ready p]
    refine and_congr_right (fun hp => and_congr_left (fun hpr => ?_))
    have hpt : p ≠ t := by rintro rfl; exact hready hpr
    simp [hpt, (h.tasks p hp).1]
  · intro p wq
    rw [h.blocked p wq]
    refine and_congr_right (fun hp => and_congr_left (fun hpb => ?_))
    have hpt : p ≠ t := by rintro rfl; exact hblocked hpb.1
    simp [hpt, (h.tasks p hp).1]
  · intro p hp _
    exact h.waiting p hp (h.tasks p hp).1
  · intro p hp _
    exact h.running p hp (h.tasks p hp).1

lemma QueueInv.letGo (h : QueueInv s run wait t) (hwait : (s.task t).waitingOn = 0)
    (hstate : (s.task t).state = .RUNNING ∧ t = s.cpu.current ∨ (s.task t).state = .DEAD) :
    QueueInv s run wait 0 := by
  have hready : (s.task t).state ≠ .READY := by rcases hstate with ⟨hs, -⟩ | hs <;> simp [hs]
  have hblocked : (s.task t).state ≠ .BLOCKED := by rcases hstate with ⟨hs, -⟩ | hs <;> simp [hs]
  refine ⟨h.addr_ne, h.sleeping_ne, h.idle, h.cleanup, h.unlocked, h.runLinked, h.waitLinked, h.tasks,
    ?_, ?_, ?_, h.runNull, h.waitNull, ?_⟩
  · intro p
    rw [h.ready p]
    refine and_congr_right (fun hp => and_congr_left (fun hpr => ?_))
    have hpt : p ≠ t := by rintro rfl; exact hready hpr
    simp [hpt, (h.tasks p hp).1]
  · intro p wq
    rw [h.blocked p wq]
    refine and_congr_right (fun hp => and_congr_left (fun hpb => ?_))
    have hpt : p ≠ t := by rintro rfl; exact hblocked hpb.1
    simp [hpt, (h.tasks p hp).1]
  · intro p hp _
    by_cases hpt : p = t
    · subst hpt
      simp [hblocked, hwait]
    · exact h.waiting p hp hpt
  · intro p hp _ hrun
    by_cases hpt : p = t
    · subst hpt
      rcases hstate with ⟨-, hcur⟩ | hdead
      · exact hcur
      · rw [hdead] at hrun
        cases hrun
    · exact h.running p hp hpt hrun

lemma QueueInv.putRun (h : QueueInv s run wait t) (ht : t ∈ s.tasks)
    (hstate : (s.task t).state = .READY) (hwait : (s.task t).waitingOn = 0) :
    QueueInv (s.setRunnables (intrusivelistInsertTail s.runnableNode s.cpu.runnableTasks.runnables t))
      (run ++ [t]) wait 0 := by
  obtain ⟨ht0, -, -⟩ := h.tasks t ht
  obtain ⟨hlinked, hsame⟩ := insertTail_spec h.runLinked ht0 h.held_not_mem_run
  refine ⟨h.addr_ne, h.sleeping_ne, ⟨h.idle.1, h.idle.2, h.idle.3, h.idle.4, h.idle.5⟩,
    ⟨h.cleanup.1, h.cleanup.2, h.cleanup.3, h.cleanup.4, h.cleanup.5⟩, h.unlocked, hlinked, h.waitLinked,
    h.tasks, ?_, ?_, ?_, ?_, h.waitNull, ?_⟩
  · intro p
    rw [List.mem_append, List.mem_singleton, h.ready p]
    change _ ↔ p ∈ s.tasks ∧ p ≠ 0 ∧ (s.task p).state = .READY
    constructor
    · rintro (⟨hp, -, hr⟩ | rfl)
      · exact ⟨hp, (h.tasks p hp).1, hr⟩
      · exact ⟨ht, ht0, hstate⟩
    · rintro ⟨hp, -, hr⟩
      by_cases hpt : p = t
      · exact .inr hpt
      · exact .inl ⟨hp, hpt, hr⟩
  · intro p wq
    rw [h.blocked p wq]
    change _ ↔ p ∈ s.tasks ∧ p ≠ 0 ∧ (s.task p).state = .BLOCKED ∧ (s.task p).waitingOn = wq
    refine and_congr_right (fun hp => and_congr_left (fun hpb => ?_))
    have hpt : p ≠ t := by rintro rfl; rw [hstate] at hpb; cases hpb.1
    simp [hpt, (h.tasks p hp).1]
  · intro p hp _
    change (s.task p).state = .BLOCKED ↔ (s.task p).waitingOn ≠ 0
    by_cases hpt : p = t
    · subst hpt
      simp [hstate, hwait]
    · exact h.waiting p hp hpt
  · intro p hp hnot
    rw [List.mem_append, not_or] at hnot
    have hpt : p ∉ run ++ [t] := by simpa [List.mem_append, not_or] using hnot
    exact (hsame p hpt).trans (h.runNull p hp hnot.1)
  · intro p hp _ hrun
    have hpt : p ≠ t := by
      rintro rfl
      exact absurd (hstate.symm.trans hrun) (by decide)
    exact h.running p hp hpt hrun

lemma QueueInv.takeRun (h : QueueInv s (t :: run) wait 0) :
    QueueInv (s.setRunnables (intrusivelistRemove s.runnableNode s.cpu.runnableTasks.runnables t))
      run wait t := by
  obtain ⟨hlinked, hnull, hsame⟩ := @remove_spec _ _ [] run t h.runLinked
  have hnd := h.runLinked.nodup
  refine ⟨h.addr_ne, h.sleeping_ne, ⟨h.idle.1, h.idle.2, h.idle.3, h.idle.4, h.idle.5⟩,
    ⟨h.cleanup.1, h.cleanup.2, h.cleanup.3, h.cleanup.4, h.cleanup.5⟩, h.unlocked, hlinked, h.waitLinked,
    h.tasks, ?_, ?_, ?_, ?_, h.waitNull, ?_⟩
  · intro p
    change _ ↔ p ∈ s.tasks ∧ p ≠ t ∧ (s.task p).state = .READY
    have hp := h.ready p
    rw [List.mem_cons] at hp
    constructor
    · intro hin
      obtain ⟨h1, -, h2⟩ := hp.mp (.inr hin)
      refine ⟨h1, ?_, h2⟩
      rintro rfl
      exact (List.nodup_cons.mp hnd).1 hin
    · rintro ⟨h1, hpt, h2⟩
      exact (hp.mpr ⟨h1, (h.tasks p h1).1, h2⟩).resolve_left hpt
  · intro p wq
    rw [h.blocked p wq]
    change _ ↔ p ∈ s.tasks ∧ p ≠ t ∧ (s.task p).state = .BLOCKED ∧ (s.task p).waitingOn = wq
    refine and_congr_right (fun hp => and_congr_left (fun hpb => ?_))
    have hpt : p ≠ t := by
      rintro rfl
      have h1 := ((h.ready p).mp (by simp)).2.2
      rw [h1] at hpb
      cases hpb.1
    simp [hpt, (h.tasks p hp).1]
  · intro p hp _
    exact h.waiting p hp (h.tasks p hp).1
  · intro p hp hnot
    by_cases hpt : p = t
    · subst hpt
      exact hnull
    · have hout : p ∉ [] ++ t :: run := by simp [hpt, hnot]
      exact (hsame p hout).trans (h.runNull p hp (by simp [hpt, hnot]))
  · intro p hp _
    exact h.running p hp (h.tasks p hp).1

lemma QueueInv.putWait (h : QueueInv s run wait t) (ht : t ∈ s.tasks) {wq : Nat} (hwq : wq ≠ 0)
    (hstate : (s.task t).state = .BLOCKED) (hwait : (s.task t).waitingOn = wq) {k₁ k₂ : List Nat}
    (hk : wait wq = k₁ ++ k₂) {r : Nodes × IntrusiveList} (hlinked : Linked r.1 r.2 (k₁ ++ t :: k₂))
    (hsame : SameOutside s.waitNode r.1 (k₁ ++ t :: k₂)) :
    QueueInv (s.setWaiters wq r) run (Function.update wait wq (k₁ ++ t :: k₂)) 0 := by
  obtain ⟨ht0, -, -⟩ := h.tasks t ht
  have hmem : ∀ p, p ∈ k₁ ++ t :: k₂ ↔ p = t ∨ p ∈ wait wq := by
    intro p
    rw [hk, List.mem_append, List.mem_cons, List.mem_append]
    tauto
  refine ⟨h.addr_ne, h.sleeping_ne, ⟨h.idle.1, h.idle.2, h.idle.3, h.idle.4, h.idle.5⟩,
    ⟨h.cleanup.1, h.cleanup.2, h.cleanup.3, h.cleanup.4, h.cleanup.5⟩, h.unlocked, h.runLinked, ?_,
    h.tasks, ?_, ?_, ?_, h.runNull, ?_, ?_⟩
  · intro wq'
    by_cases hw : wq' = wq
    · subst hw
      simpa [Sched.setWaiters] using hlinked
    · have hframe : Linked r.1 (s.waitQueue wq').waiters (wait wq') := by
        refine (h.waitLinked wq').frame hsame (fun p hp hin => ?_)
        rcases (hmem p).mp hin with rfl | hin
        · exact h.held_not_mem_wait wq' hp
        · exact hw (h.wait_unique hp hin)
      simpa [Sched.setWaiters, Function.update_of_ne hw] using hframe
  · intro p
    rw [h.ready p]
    change _ ↔ p ∈ s.tasks ∧ p ≠ 0 ∧ (s.task p).state = .READY
    refine and_congr_right (fun hp => and_congr_left (fun hpr => ?_))
    have hpt : p ≠ t := by rintro rfl; exact absurd (hstate.symm.trans hpr) (by decide)
    simp [hpt, (h.tasks p hp).1]
  · intro p wq'
    change _ ↔ p ∈ s.tasks ∧ p ≠ 0 ∧ (s.task p).state = .BLOCKED ∧ (s.task p).waitingOn = wq'
    by_cases hpt : p = t
    · subst hpt
      by_cases hw : wq' = wq
      · subst hw
        simp [ht, ht0, hstate, hwait]
      · have hout := h.held_not_mem_wait wq'
        simp [Function.update_of_ne hw, hout, hwait, Ne.symm hw]
    · have hupd : p ∈ Function.update wait wq (k₁ ++ t :: k₂) wq' ↔ p ∈ wait wq' := by
        by_cases hw : wq' = wq
        · subst hw
          rw [Function.update_self, hmem p]
          simp [hpt]
        · rw [Function.update_of_ne hw]
      rw [hupd, h.blocked p wq']
      refine and_congr_right (fun hp => and_congr_left (fun _ => ?_))
      simp [hpt, (h.tasks p hp).1]
  · intro p hp _
    change (s.task p).state = .BLOCKED ↔ (s.task p).waitingOn ≠ 0
    by_cases hpt : p = t
    · subst hpt
      simp [hstate, hwait, hwq]
    · exact h.waiting p hp hpt
  · intro p hp hout
    have hk' : p ∉ k₁ ++ t :: k₂ := by simpa using hout wq
    refine (hsame p hk').trans (h.waitNull p hp (fun wq' => ?_))
    by_cases hw : wq' = wq
    · subst hw
      exact fun hin => hk' ((hmem p).mpr (.inr hin))
    · simpa [Function.update_of_ne hw] using hout wq'
  · intro p hp _ hrun
    have hpt : p ≠ t := by
      rintro rfl
      exact absurd (hstate.symm.trans hrun) (by decide)
    exact h.running p hp hpt hrun

lemma QueueInv.takeWait (h : QueueInv s run wait 0) {wq : Nat} (k₁ : List Nat) {k₂ : List Nat}
    (hk : wait wq = k₁ ++ t :: k₂) :
    QueueInv (s.setWaiters wq (intrusivelistRemove s.waitNode (s.waitQueue wq).waiters t)) run
      (Function.update wait wq (k₁ ++ k₂)) t := by
  have hlinkedOld : Linked s.waitNode (s.waitQueue wq).waiters (k₁ ++ t :: k₂) := hk ▸ h.waitLinked wq
  obtain ⟨hlinked, hnull, hsame⟩ := remove_spec hlinkedOld
  have hmem : ∀ p, p ∈ wait wq ↔ p = t ∨ p ∈ k₁ ++ k₂ := by
    intro p
    rw [hk, List.mem_append, List.mem_cons, List.mem_append]
    tauto
  have htk : t ∉ k₁ ++ k₂ := by
    have hnd := hlinkedOld.nodup
    rw [List.nodup_middle] at hnd
    exact (List.nodup_cons.mp hnd).1
  have htw : t ∈ wait wq := (hmem t).mpr (.inl rfl)
  obtain ⟨-, -, hstate, hwait⟩ := (h.blocked t wq).mp htw
  refine ⟨h.addr_ne, h.sleeping_ne, ⟨h.idle.1, h.idle.2, h.idle.3, h.idle.4, h.idle.5⟩,
    ⟨h.cleanup.1, h.cleanup.2, h.cleanup.3, h.cleanup.4, h.cleanup.5⟩, h.unlocked, h.runLinked, ?_,
    h.tasks, ?_, ?_, ?_, h.runNull, ?_, ?_⟩
  · intro wq'
    by_cases hw : wq' = wq
    · subst hw
      simpa [Sched.setWaiters] using hlinked
    · have hframe : Linked (intrusivelistRemove s.waitNode (s.waitQueue wq).waiters t).1
          (s.waitQueue wq').waiters (wait wq') := by
        refine (h.waitLinked wq').frame hsame (fun p hp hin => ?_)
        exact hw (h.wait_unique hp (hk ▸ hin))
      simpa [Sched.setWaiters, Function.update_of_ne hw] using hframe
  · intro p
    rw [h.ready p]
    change _ ↔ p ∈ s.tasks ∧ p ≠ t ∧ (s.task p).state = .READY
    refine and_congr_right (fun hp => and_congr_left (fun hpr => ?_))
    have hpt : p ≠ t := by rintro rfl; exact absurd (hstate.symm.trans hpr) (by decide)
    simp [hpt, (h.tasks p hp).1]
  · intro p wq'
    change _ ↔ p ∈ s.tasks ∧ p ≠ t ∧ (s.task p).state = .BLOCKED ∧ (s.task p).waitingOn = wq'
    by_cases hpt : p = t
    · subst hpt
      by_cases hw : wq' = wq
      · subst hw
        simp only [Function.update_self, ne_eq, not_true_eq_false, false_and, and_false, iff_false]
        exact htk
      · simp only [Function.update_of_ne hw, ne_eq, not_true_eq_false, false_and, and_false, iff_false]
        exact fun hin => hw (h.wait_unique hin htw)
    · have hupd : p ∈ Function.update wait wq (k₁ ++ k₂) wq' ↔ p ∈ wait wq' := by
        by_cases hw : wq' = wq
        · subst hw
          rw [Function.update_self, hmem p]
          simp [hpt]
        · rw [Function.update_of_ne hw]
      rw [hupd, h.blocked p wq']
      refine and_congr_right (fun hp => and_congr_left (fun _ => ?_))
      simp [hpt, (h.tasks p hp).1]
  · intro p hp _
    exact h.waiting p hp (h.tasks p hp).1
  · intro p hp hout
    by_cases hpt : p = t
    · subst hpt
      exact hnull
    · have hk' : p ∉ k₁ ++ k₂ := by simpa using hout wq
      have hw : ∀ wq', p ∉ wait wq' := by
        intro wq'
        by_cases hw : wq' = wq
        · subst hw
          rw [hmem p]
          simp [hpt, hk', -List.mem_append]
        · simpa [Function.update_of_ne hw] using hout wq'
      have hout' : p ∉ k₁ ++ t :: k₂ := hk ▸ hw wq
      exact (hsame p hout').trans (h.waitNull p hp hw)
  · intro p hp _
    exact h.running p hp (h.tasks p hp).1

lemma QueueInv.setCurrent (h : QueueInv s run wait held) (c : Nat)
    (hrun : ∀ p ∈ s.tasks, p ≠ held → (s.task p).state ≠ .RUNNING) :
    QueueInv (s.setCurrent c) run wait held where
  addr_ne := h.addr_ne
  sleeping_ne := h.sleeping_ne
  idle := ⟨h.idle.1, h.idle.2, h.idle.3, h.idle.4, h.idle.5⟩
  cleanup := ⟨h.cleanup.1, h.cleanup.2, h.cleanup.3, h.cleanup.4, h.cleanup.5⟩
  unlocked := h.unlocked
  runLinked := h.runLinked
  waitLinked := h.waitLinked
  tasks := h.tasks
  ready := h.ready
  blocked := h.blocked
  waiting := h.waiting
  runNull := h.runNull
  waitNull := h.waitNull
  running := fun p hp hph hr => absurd hr (hrun p hp hph)

lemma QueueInv.setWaitLock (h : QueueInv s run wait held) (wq : Nat) (v : Bool) :
    QueueInv (s.setWaitLock wq v) run wait held where
  addr_ne := h.addr_ne
  sleeping_ne := h.sleeping_ne
  idle := ⟨h.idle.1, h.idle.2, h.idle.3, h.idle.4, h.idle.5⟩
  cleanup := ⟨h.cleanup.1, h.cleanup.2, h.cleanup.3, h.cleanup.4, h.cleanup.5⟩
  unlocked := h.unlocked
  runLinked := h.runLinked
  waitLinked := by
    intro wq'
    by_cases hw : wq' = wq
    · subst hw
      simpa [Sched.setWaitLock] using h.waitLinked wq'
    · simpa [Sched.setWaitLock, Function.update_of_ne hw] using h.waitLinked wq'
  tasks := h.tasks
  ready := h.ready
  blocked := h.blocked
  waiting := h.waiting
  runNull := h.runNull
  waitNull := h.waitNull
  running := h.running

lemma QueueInv.setNeedsCleanup (h : QueueInv s run wait held) (v : Bool) :
    QueueInv (s.setNeedsCleanup v) run wait held :=
  ⟨h.addr_ne, h.sleeping_ne, ⟨h.idle.1, h.idle.2, h.idle.3, h.idle.4, h.idle.5⟩,
    ⟨h.cleanup.1, h.cleanup.2, h.cleanup.3, h.cleanup.4, h.cleanup.5⟩, h.unlocked, h.runLinked,
    h.waitLinked, h.tasks, h.ready, h.blocked, h.waiting, h.runNull, h.waitNull, h.running⟩

end KaworuOS.Proofs
