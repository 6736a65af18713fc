import KaworuOS.Lib.Run
import KaworuOS.ProcessLife
import KaworuOS.Proofs.Smp
import Mathlib.Logic.Relation

/-!
# What a step of exit, cleanup and `wait4` does

`LifeNext s c s'` lists every step of CPU `c`. The invariants of runs are proved from it, and nothing
else unfolds the steps.
-/

namespace KaworuOS.Proofs
open Lib

lemma mem_of_mem_unlink {l : List Nat} {a b : Nat} (h : a ∈ unlink l b) : a ∈ l := by
  unfold unlink at h
  split at h
  · exact List.mem_of_mem_erase h
  · cases h

variable {s s' : Smp} {t u c wq : Nat}

/-- What a switch does, whether or not the queues are in order. -/
structure Calm (s s' : Smp) : Prop where
  cpu : ∀ t, (s'.task t).cpu = (s.task t).cpu
  process : ∀ t, (s'.task t).process = (s.task t).process
  waitingOn : ∀ t, (s'.task t).waitingOn = (s.task t).waitingOn
  idle : s'.idle = s.idle
  cleanupTask : s'.cleanupTask = s.cleanupTask
  exiting : s'.exiting = s.exiting
  waitQueue : s'.waitQueue = s.waitQueue
  blocked : ∀ t, (s'.task t).state = .BLOCKED → (s.task t).state = .BLOCKED

lemma Calm.refl (s : Smp) : Calm s s :=
  ⟨fun _ => rfl, fun _ => rfl, fun _ => rfl, rfl, rfl, rfl, rfl, fun _ h => h⟩

lemma Calm.trans {s'' : Smp} (h : Calm s s') (h' : Calm s' s'') : Calm s s'' where
  cpu t := (h'.cpu t).trans (h.cpu t)
  process t := (h'.process t).trans (h.process t)
  waitingOn t := (h'.waitingOn t).trans (h.waitingOn t)
  idle := h'.idle.trans h.idle
  cleanupTask := h'.cleanupTask.trans h.cleanupTask
  exiting := h'.exiting.trans h.exiting
  waitQueue := h'.waitQueue.trans h.waitQueue
  blocked t hst := h.blocked t (h'.blocked t hst)

lemma calm_setState {state : TaskState} (hst : state ≠ .BLOCKED) : Calm s (s.setState t state) := by
  refine ⟨fun u => Smp.setState_cpu .., fun u => Smp.setState_process .., fun u => Smp.setState_waitingOn .., rfl, rfl,
    rfl, rfl, ?_⟩
  intro u hu
  by_cases hut : u = t
  · subst hut
    rw [Smp.setState_self] at hu
    exact absurd hu hst
  · rwa [Smp.setState_other _ _ _ hut] at hu

lemma putBackPrev_ok (h : s.putBackPrev c = .ok s') :
    (s' = s ∧ (s.current c ≠ 0 → (s.task (s.current c)).state = .RUNNING →
      s.current c = s.idle c ∨ s.current c = s.cleanupTask c)) ∨
    (s.current c ≠ 0 ∧ (s.task (s.current c)).state = .RUNNING ∧ (s.task (s.current c)).cpu = c ∧
      s.current c ≠ s.idle c ∧ s.current c ≠ s.cleanupTask c ∧
      s' = (s.setState (s.current c) .READY).setRunQueue c (s.runQueue c ++ [s.current c])) := by
  unfold Smp.putBackPrev at h
  dsimp only at h
  split at h
  case isTrue h0 => exact .inl ⟨(Except.ok.inj h).symm, fun hne => absurd h0 hne⟩
  case isFalse hne =>
    obtain ⟨_, hcpu, h⟩ := bind_eq_ok.mp h
    obtain ⟨_, -, h⟩ := bind_eq_ok.mp h
    obtain ⟨_, -, h⟩ := bind_eq_ok.mp h
    split at h
    case isTrue hback =>
      obtain ⟨_, -, h⟩ := bind_eq_ok.mp h
      obtain ⟨_, -, h⟩ := bind_eq_ok.mp h
      obtain ⟨_, -, h⟩ := bind_eq_ok.mp h
      exact .inr ⟨hne, hback.2.2, assertThat_ok hcpu, hback.1, hback.2.1, (Except.ok.inj h).symm⟩
    case isFalse hback =>
      refine .inl ⟨(Except.ok.inj h).symm, ?_⟩
      intro _ hst
      by_contra hor
      exact hback ⟨fun heq => hor (.inl heq), fun heq => hor (.inr heq), hst⟩

lemma calm_putBackPrev (h : s.putBackPrev c = .ok s') : Calm s s' ∧ s'.current = s.current := by
  rcases putBackPrev_ok h with ⟨rfl, -⟩ | ⟨-, -, -, -, -, rfl⟩
  · exact ⟨Calm.refl _, rfl⟩
  · have hcalm : Calm s (s.setState (s.current c) .READY) := calm_setState (by decide)
    exact ⟨⟨hcalm.cpu, hcalm.process, hcalm.waitingOn, rfl, rfl, rfl, rfl, hcalm.blocked⟩, rfl⟩

/-- The loop of `scheduler_pick_next` takes tasks from the run queue, and marks as dead those that it
does not return. -/
lemma pickNextLoop_effect (queue : List Nat) (s : Smp) :
    Calm s (Smp.pickNextLoop c queue s).2 ∧ (Smp.pickNextLoop c queue s).2.current = s.current ∧
      ∀ t, (s.task t).state = .DEAD → ((Smp.pickNextLoop c queue s).2.task t).state = .DEAD := by
  induction queue generalizing s with
  | nil => exact ⟨⟨fun _ => rfl, fun _ => rfl, fun _ => rfl, rfl, rfl, rfl, rfl, fun _ h => h⟩, rfl, fun _ h => h⟩
  | cons next rest ih =>
    unfold Smp.pickNextLoop
    split
    · obtain ⟨hcalm, hcur, hdead⟩ := ih (((s.setRunQueue c rest).setState next .DEAD).setNeedsCleanup c true)
      have hcalm' : Calm s (s.setState next .DEAD) := calm_setState (by decide)
      have hmarked : Calm s (((s.setRunQueue c rest).setState next .DEAD).setNeedsCleanup c true) :=
        ⟨hcalm'.cpu, hcalm'.process, hcalm'.waitingOn, rfl, rfl, rfl, rfl, hcalm'.blocked⟩
      refine ⟨hmarked.trans hcalm, hcur, ?_⟩
      intro t ht
      apply hdead
      show ((s.setState next .DEAD).task t).state = .DEAD
      by_cases htn : t = next
      · subst htn
        exact congrArg Task.state (Smp.setState_self ..)
      · rw [Smp.setState_other _ _ _ htn]
        exact ht
    · exact ⟨⟨fun _ => rfl, fun _ => rfl, fun _ => rfl, rfl, rfl, rfl, rfl, fun _ h => h⟩, rfl, fun _ h => h⟩

lemma schedulerPickNext_effect (s : Smp) (c : Nat) :
    Calm s (s.schedulerPickNext c).2 ∧ (s.schedulerPickNext c).2.current = s.current ∧
      ∀ t, (s.task t).state = .DEAD → ((s.schedulerPickNext c).2.task t).state = .DEAD := by
  unfold Smp.schedulerPickNext
  split
  · exact ⟨Calm.refl s, rfl, fun _ h => h⟩
  · exact pickNextLoop_effect _ s

lemma switchTo_ok {prev next : Nat} (h : s.switchTo c prev next = .ok s') :
    s' = (s.setState next .RUNNING).setCurrent c next ∧ (s.task next).cpu = c ∧
      ((s.task next).state = .READY ∨ next = s.idle c ∨ next = s.cleanupTask c) := by
  unfold Smp.switchTo at h
  obtain ⟨_, hcpu, h⟩ := bind_eq_ok.mp h
  obtain ⟨_, hst, h⟩ := bind_eq_ok.mp h
  obtain ⟨_, -, h⟩ := bind_eq_ok.mp h
  refine ⟨?_, assertThat_ok hcpu, assertThat_ok hst⟩
  dsimp only at h
  split at h
  · obtain ⟨_, -, h⟩ := bind_eq_ok.mp h
    exact (Except.ok.inj h).symm
  split at h
  · exact (Except.ok.inj h).symm
  · obtain ⟨_, -, h⟩ := bind_eq_ok.mp h
    exact (Except.ok.inj h).symm

lemma schedulerEnqueue_ok (h : s.schedulerEnqueue t = .ok s') :
    s' = ((s.setWaitingOn t 0).setState t .READY).setRunQueue (s.task t).cpu (s.runQueue (s.task t).cpu ++ [t]) := by
  unfold Smp.schedulerEnqueue Smp.runqueueEnqueue at h
  obtain ⟨_, -, h⟩ := bind_eq_ok.mp h
  obtain ⟨_, -, h⟩ := bind_eq_ok.mp h
  obtain ⟨_, -, h⟩ := bind_eq_ok.mp h
  obtain ⟨_, -, h⟩ := bind_eq_ok.mp h
  obtain ⟨_, -, h⟩ := bind_eq_ok.mp h
  exact (Except.ok.inj h).symm

lemma pick_process (h : (s.schedulerPickNext c).2.switchTo c (s.current c) (s.schedulerPickNext c).1 = .ok s')
    (t : Nat) :
    (s'.task t).process = (s.task t).process := by
  obtain ⟨rfl, -, -⟩ := switchTo_ok h
  exact (Smp.setState_process ..).trans ((schedulerPickNext_effect s c).1.process t)

/-- `scheduler_wake_all` makes the tasks of `queue` ready, which were blocked. -/
structure Woken (wq : Nat) (queue : List Nat) (s s' : Smp) : Prop where
  cpu : ∀ t, (s'.task t).cpu = (s.task t).cpu
  process : ∀ t, (s'.task t).process = (s.task t).process
  idle : s'.idle = s.idle
  cleanupTask : s'.cleanupTask = s.cleanupTask
  exiting : s'.exiting = s.exiting
  current : s'.current = s.current
  waitQueue : ∀ q, q ≠ wq → s'.waitQueue q = s.waitQueue q
  empty : s'.waitQueue wq = []
  nodup : queue.Nodup
  blocked : ∀ t ∈ queue, (s.task t).state = .BLOCKED
  woken : ∀ t ∈ queue, (s'.task t).state = .READY ∧ (s'.task t).waitingOn = 0
  other : ∀ t, t ∉ queue → s'.task t = s.task t
  runQueue : ∀ c, s'.runQueue c = s.runQueue c ++ queue.filter (fun t => (s.task t).cpu = c)

lemma wakeRound_ok {rest : List Nat}
    (h : (((s.setWaitQueue wq rest).setWaitingOn t 0).setState t .READY).schedulerEnqueue t = .ok s') :
    s'.task = Function.update s.task t { s.task t with waitingOn := 0, state := .READY } ∧
      s'.waitQueue = Function.update s.waitQueue wq rest ∧
      s'.runQueue = Function.update s.runQueue (s.task t).cpu (s.runQueue (s.task t).cpu ++ [t]) ∧
      s'.idle = s.idle ∧ s'.cleanupTask = s.cleanupTask ∧ s'.exiting = s.exiting ∧ s'.current = s.current := by
  obtain rfl := schedulerEnqueue_ok h
  have hcpu : ((((s.setWaitQueue wq rest).setWaitingOn t 0).setState t .READY).task t).cpu = (s.task t).cpu := by
    rw [Smp.setState_cpu, Smp.setWaitingOn_cpu]
    rfl
  refine ⟨?_, rfl, ?_, rfl, rfl, rfl, rfl⟩
  · funext u
    by_cases hu : u = t
    · subst hu
      simp [Smp.setRunQueue, Smp.setState, Smp.setWaitingOn, Smp.setTask, Smp.setWaitQueue]
    · simp [Smp.setRunQueue, Smp.setState, Smp.setWaitingOn, Smp.setTask, Smp.setWaitQueue, hu]
  · rw [hcpu]
    rfl

lemma wakeAllLoop_ok (queue : List Nat) (hq : s.waitQueue wq = queue) (h : Smp.wakeAllLoop wq queue s = .ok s') :
    Woken wq queue s s' := by
  induction queue generalizing s with
  | nil =>
    obtain rfl := Except.ok.inj h
    exact ⟨fun _ => rfl, fun _ => rfl, rfl, rfl, rfl, rfl, fun _ _ => rfl, hq, List.nodup_nil, fun _ ht => (nomatch ht),
      fun _ ht => (nomatch ht), fun _ _ => rfl, fun _ => (List.append_nil _).symm⟩
  | cons t rest ih =>
    unfold Smp.wakeAllLoop at h
    dsimp only at h
    obtain ⟨_, hblocked, h⟩ := bind_eq_ok.mp h
    obtain ⟨_, -, h⟩ := bind_eq_ok.mp h
    obtain ⟨s₁, henqueue, h⟩ := bind_eq_ok.mp h
    have hst : (s.task t).state = .BLOCKED := (Smp.setWaitingOn_state ..).symm.trans (assertThat_ok hblocked)
    obtain ⟨htask, hwait, hrun, hidle, hcleanup, hexiting, hcurrent⟩ := wakeRound_ok henqueue
    have hself : s₁.task t = { s.task t with waitingOn := 0, state := .READY } := by
      rw [htask, Function.update_self]
    have hother : ∀ u, u ≠ t → s₁.task u = s.task u := by
      intro u hu
      rw [htask, Function.update_of_ne hu]
    have hcpu : ∀ u, (s₁.task u).cpu = (s.task u).cpu := by
      intro u
      by_cases hu : u = t
      · rw [hu, hself]
      · rw [hother u hu]
    have hw := ih (by rw [hwait, Function.update_self]) h
    -- a second entry of `t` would be met in the state `READY`
    have hnotin : t ∉ rest := by
      intro hin
      have hbad := hw.blocked t hin
      rw [hself] at hbad
      cases hbad
    refine ⟨fun u => (hw.cpu u).trans (hcpu u), ?_, hw.idle.trans hidle, hw.cleanupTask.trans hcleanup,
      hw.exiting.trans hexiting, hw.current.trans hcurrent, ?_, hw.empty, List.nodup_cons.mpr ⟨hnotin, hw.nodup⟩,
      ?_, ?_, ?_, ?_⟩
    · intro u
      rw [hw.process]
      by_cases hu : u = t
      · rw [hu, hself]
      · rw [hother u hu]
    · intro q hq
      rw [hw.waitQueue q hq, hwait, Function.update_of_ne hq]
    · intro u hu
      rcases List.mem_cons.mp hu with rfl | hu
      · exact hst
      · rw [← hother u (fun heq => hnotin (heq ▸ hu))]
        exact hw.blocked u hu
    · intro u hu
      rcases List.mem_cons.mp hu with rfl | hu
      · rw [hw.other u hnotin, hself]
        exact ⟨rfl, rfl⟩
      · exact hw.woken u hu
    · intro u hu
      rw [List.mem_cons, not_or] at hu
      exact (hw.other u hu.2).trans (hother u hu.1)
    · intro d
      rw [hw.runQueue, hrun, List.filter_cons]
      simp only [hcpu]
      by_cases hd : (s.task t).cpu = d
      · subst hd
        simp
      · rw [Function.update_of_ne (fun heq => hd heq.symm), if_neg (by simpa using hd)]

lemma schedulerWakeAll_ok (h : s.schedulerWakeAll wq = .ok s') : Woken wq (s.waitQueue wq) s s' :=
  wakeAllLoop_ok _ rfl h

/-- A step of CPU `c`, whose current task is `cur` and runs for the process `p`. -/
inductive LifeNext (s : Life) (c : Nat) (cur p : Nat) : Life → Prop
  | wait4 (hpc : s.pc cur = .user) (hp : p ≠ 0) : LifeNext s c cur p (s.setPc cur .loop)
  | exit (hpc : s.pc cur = .user) (hp : p ≠ 0) (status : Int) :
    LifeNext s c cur p ((s.exitProcess p status).setPc cur .wake)
  | finish (hpc : s.pc cur = .user) (hp : p = 0) (hidle : cur ≠ s.smp.idle c) (hne : cur ≠ 0) :
    LifeNext s c cur p (s.setPc cur .exit)
  | loop (hpc : s.pc cur = .loop) : LifeNext s c cur p (s.setPc cur (.scan (s.proc p).children false))
  | zombie {child : Nat} {rest : List Nat} {seen : Bool} (hpc : s.pc cur = .scan (child :: rest) seen)
    (hz : (s.proc child).state = .ZOMBIE) (copied : Bool) :
    LifeNext s c cur p ((s.setProc p ((s.proc p).removeChild child)).setPc cur
      (if copied then .reap child else .user))
  | alive {child : Nat} {rest : List Nat} {seen : Bool} (hpc : s.pc cur = .scan (child :: rest) seen)
    (hz : (s.proc child).state ≠ .ZOMBIE) : LifeNext s c cur p (s.setPc cur (.scan rest true))
  | scanned (hpc : s.pc cur = .scan [] true) : LifeNext s c cur p (s.setPc cur .enqueue)
  | childless (hpc : s.pc cur = .scan [] false) : LifeNext s c cur p (s.setPc cur .user)
  | enqueue (hpc : s.pc cur = .enqueue) : LifeNext s c cur p
      ({ s with smp := (s.smp.setWaitQueue p (s.smp.waitQueue p ++ [cur])).setWaitingOn cur p }.setPc cur .block)
  | block (hpc : s.pc cur = .block) (hst : (s.smp.task cur).state = .RUNNING)
    (hwait : (s.smp.task cur).waitingOn ≠ 0) :
    LifeNext s c cur p ({ s with smp := s.smp.setState cur .BLOCKED }.setPc cur .switch)
  | reap {child : Nat} (hpc : s.pc cur = .reap child) :
    LifeNext s c cur p ({ s with processes := unlink s.processes child }.setPc cur (.dropSpace child))
  | dropSpace {child : Nat} (hpc : s.pc cur = .dropSpace child) (has : (s.proc child).addressSpace ≠ 0) :
    LifeNext s c cur p ({ s with spaces := (s.proc child).addressSpace :: s.spaces }.setPc cur (.dropFiles child))
  | noSpace {child : Nat} (hpc : s.pc cur = .dropSpace child) (has : (s.proc child).addressSpace = 0) :
    LifeNext s c cur p (s.setPc cur (.dropFiles child))
  | dropFiles {child : Nat} (hpc : s.pc cur = .dropFiles child) (hfiles : (s.proc child).files ≠ 0) :
    LifeNext s c cur p ({ s with tables := (s.proc child).files :: s.tables }.setPc cur (.free child))
  | noFiles {child : Nat} (hpc : s.pc cur = .dropFiles child) (hfiles : (s.proc child).files = 0) :
    LifeNext s c cur p (s.setPc cur (.free child))
  | free {child : Nat} (hpc : s.pc cur = .free child) :
    LifeNext s c cur p ({ s with freed := child :: s.freed }.setPc cur .user)
  | wake (hpc : s.pc cur = .wake) {smp : Smp} (hparent : (s.proc p).parent ≠ 0)
    (hw : Woken (s.proc p).parent (s.smp.waitQueue (s.proc p).parent) s.smp smp) :
    LifeNext s c cur p ({ s with smp := smp }.setPc cur .exit)
  | taskExit (hpc : s.pc cur = .exit) :
    LifeNext s c cur p ({ s with smp := s.smp.setNeedsCleanup c true }.setPc cur .setDead)
  | setDead (hpc : s.pc cur = .setDead) :
    LifeNext s c cur p ({ s with smp := s.smp.setState cur .DEAD }.setPc cur .yield)
  | leave {pc : LifePc} (hpc : (s.pc cur = .switch ∧ pc = .loop) ∨ (s.pc cur = .yield ∧ pc = .gone) ∨
      (s.pc cur = .rest ∧ pc = .find)) {smp : Smp} (hput : s.smp.putBackPrev c = .ok smp) :
    LifeNext s c cur p (({ s with smp := smp }.setPc cur pc).setPhase c .pick)
  | nothing (hpc : s.pc cur = .find) (hfind : s.findDeadTask = none) :
    LifeNext s c cur p ({ s with smp := s.smp.setNeedsCleanup c false }.setPc cur .rest)
  | find {dead : Nat} (hpc : s.pc cur = .find) (hfind : s.findDeadTask = some dead)
    (hwait : (s.smp.task dead).waitingOn = 0) (hqueue : dead ∉ s.smp.runQueue (s.smp.task dead).cpu) :
    LifeNext s c cur p (s.setPc cur (.remove dead))
  | remove {dead : Nat} (hpc : s.pc cur = .remove dead) :
    LifeNext s c cur p ({ s with tasks := unlink s.tasks dead, removed := dead :: s.removed }.setPc cur
      (if (s.smp.task dead).process = 0 then .destroy dead else .removeThread dead))
  | removeThread {dead q : Nat} (hpc : s.pc cur = .removeThread dead) (hq : q = (s.smp.task dead).process) :
    LifeNext s c cur p ((s.setProc q ((s.proc q).removeThread dead)).setPc cur (.lastThread dead))
  | lastThread {dead q : Nat} (hpc : s.pc cur = .lastThread dead) (hq : q = (s.smp.task dead).process)
    (hlast : s.smp.exiting q = true ∧ (s.proc q).threads = []) :
    LifeNext s c cur p (s.setPc cur (.destroySpace dead))
  | otherThreads {dead q : Nat} (hpc : s.pc cur = .lastThread dead) (hq : q = (s.smp.task dead).process)
    (hlast : ¬(s.smp.exiting q = true ∧ (s.proc q).threads = [])) :
    LifeNext s c cur p (s.setPc cur (.destroy dead))
  | destroySpace {dead q : Nat} (hpc : s.pc cur = .destroySpace dead) (hq : q = (s.smp.task dead).process) :
    LifeNext s c cur p ({ s with spaces := (s.proc q).addressSpace :: s.spaces }.setPc cur (.clearSpace dead))
  | clearSpace {dead q : Nat} (hpc : s.pc cur = .clearSpace dead) (hq : q = (s.smp.task dead).process) :
    LifeNext s c cur p ((s.setProc q { s.proc q with addressSpace := 0 }).setPc cur (.destroy dead))
  | destroy {dead : Nat} (hpc : s.pc cur = .destroy dead) :
    LifeNext s c cur p ({ s with destroyed := dead :: s.destroyed }.setPc cur .find)
  | timer (hpc : p = 0 ∨ s.pc cur = .user) {smp : Smp} (hput : s.smp.putBackPrev c = .ok smp) :
    LifeNext s c cur p ({ s with smp := smp }.setPhase c .pick)

/-- A step of CPU `c`: of its current task, or of `scheduler_switch`. -/
inductive LifeCase (s : Life) (c : Nat) : Life → Prop
  | task {s' : Life} (hrun : s.phase c = .run)
    (h : LifeNext s c (s.smp.current c) (s.smp.task (s.smp.current c)).process s') : LifeCase s c s'
  | pick (hphase : s.phase c = .pick) {smp : Smp}
    (h : (s.smp.schedulerPickNext c).2.switchTo c (s.smp.current c) (s.smp.schedulerPickNext c).1 = .ok smp) :
    LifeCase s c ({ s with smp := smp }.setPhase c
      (if s.smp.current c = (s.smp.schedulerPickNext c).1 ∨ s.smp.current c = 0 then .run
        else .leave (s.smp.current c)))
  | resume {prev : Nat} (hphase : s.phase c = .leave prev) : LifeCase s c (s.setPhase c .run)

variable {s s' : Life}

lemma waitqueueEnqueue_ok {smp smp' : Smp} (h : smp.waitqueueEnqueue wq t = .ok smp') :
    smp' = (smp.setWaitQueue wq (smp.waitQueue wq ++ [t])).setWaitingOn t wq := by
  unfold Smp.waitqueueEnqueue at h
  obtain ⟨_, -, h⟩ := bind_eq_ok.mp h
  exact (Except.ok.inj h).symm

lemma blockCurrent_ok {smp smp' : Smp} (h : smp.blockCurrent c = .ok smp') :
    (smp.task (smp.current c)).state = .RUNNING ∧ (smp.task (smp.current c)).waitingOn ≠ 0 ∧
      smp' = smp.setState (smp.current c) .BLOCKED := by
  unfold Smp.blockCurrent at h
  obtain ⟨_, -, h⟩ := bind_eq_ok.mp h
  obtain ⟨_, -, h⟩ := bind_eq_ok.mp h
  obtain ⟨_, -, h⟩ := bind_eq_ok.mp h
  obtain ⟨_, hst, h⟩ := bind_eq_ok.mp h
  obtain ⟨_, hwait, h⟩ := bind_eq_ok.mp h
  exact ⟨assertThat_ok hst, assertThat_ok hwait, (Except.ok.inj h).symm⟩

lemma beginSwitch_ok (h : s.beginSwitch c = .ok s') :
    ∃ smp, s.smp.putBackPrev c = .ok smp ∧ s' = { s with smp := smp }.setPhase c .pick := by
  obtain ⟨smp, hput, h⟩ := bind_eq_ok.mp h
  exact ⟨smp, hput, (Except.ok.inj h).symm⟩

lemma findStep_ok (hpc : s.pc (s.smp.current c) = .find) (h : s.findStep c = .ok s') :
    LifeNext s c (s.smp.current c) (s.smp.task (s.smp.current c)).process s' := by
  unfold Life.findStep at h
  split at h
  case h_1 hfind =>
    obtain rfl := Except.ok.inj h
    exact .nothing hpc hfind
  case h_2 dead hfind =>
    obtain ⟨_, hwait, h⟩ := bind_eq_ok.mp h
    obtain ⟨_, hqueue, h⟩ := bind_eq_ok.mp h
    obtain rfl := Except.ok.inj h
    exact .find hpc hfind (assertThat_ok hwait) (assertThat_ok hqueue)

lemma taskStep_ok {copied : Bool} (h : s.taskStep c copied = some (.ok s')) :
    LifeNext s c (s.smp.current c) (s.smp.task (s.smp.current c)).process s' := by
  unfold Life.taskStep at h
  dsimp only at h
  split at h
  case h_1 => cases h
  case h_2 => cases h
  case h_3 hpc =>
    obtain rfl := Except.ok.inj (Option.some.inj h)
    exact .loop hpc
  case h_4 child rest seen hpc =>
    obtain rfl := Except.ok.inj (Option.some.inj h)
    unfold Life.lookAt
    split
    case isTrue hz => exact .zombie hpc hz copied
    case isFalse hz => exact .alive hpc hz
  case h_5 hpc =>
    obtain rfl := Except.ok.inj (Option.some.inj h)
    exact .scanned hpc
  case h_6 hpc =>
    obtain rfl := Except.ok.inj (Option.some.inj h)
    exact .childless hpc
  case h_7 hpc =>
    obtain ⟨smp, henqueue, h⟩ := bind_eq_ok.mp (Option.some.inj h)
    obtain rfl := Except.ok.inj h
    obtain rfl := waitqueueEnqueue_ok henqueue
    exact .enqueue hpc
  case h_8 hpc =>
    obtain ⟨smp, hblock, h⟩ := bind_eq_ok.mp (Option.some.inj h)
    obtain rfl := Except.ok.inj h
    obtain ⟨hst, hwait, rfl⟩ := blockCurrent_ok hblock
    exact .block hpc hst hwait
  case h_9 hpc =>
    obtain ⟨smp, hput, rfl⟩ := beginSwitch_ok (Option.some.inj h)
    exact .leave (.inl ⟨hpc, rfl⟩) hput
  case h_10 child hpc =>
    obtain ⟨_, -, h⟩ := bind_eq_ok.mp (Option.some.inj h)
    obtain ⟨_, -, h⟩ := bind_eq_ok.mp h
    obtain rfl := Except.ok.inj h
    exact .reap hpc
  case h_11 child hpc =>
    obtain rfl := Except.ok.inj (Option.some.inj h)
    split
    case isTrue has => exact .dropSpace hpc has
    case isFalse has => exact .noSpace hpc (not_not.mp has)
  case h_12 child hpc =>
    obtain rfl := Except.ok.inj (Option.some.inj h)
    split
    case isTrue hfiles => exact .dropFiles hpc hfiles
    case isFalse hfiles => exact .noFiles hpc (not_not.mp hfiles)
  case h_13 child hpc =>
    obtain rfl := Except.ok.inj (Option.some.inj h)
    exact .free hpc
  case h_14 hpc =>
    obtain ⟨_, hparent, h⟩ := bind_eq_ok.mp (Option.some.inj h)
    obtain ⟨smp, hwake, h⟩ := bind_eq_ok.mp h
    obtain rfl := Except.ok.inj h
    exact .wake hpc (assertThat_ok hparent) (schedulerWakeAll_ok hwake)
  case h_15 hpc =>
    obtain rfl := Except.ok.inj (Option.some.inj h)
    exact .taskExit hpc
  case h_16 hpc =>
    obtain rfl := Except.ok.inj (Option.some.inj h)
    exact .setDead hpc
  case h_17 hpc =>
    obtain ⟨smp, hput, rfl⟩ := beginSwitch_ok (Option.some.inj h)
    exact .leave (.inr (.inl ⟨hpc, rfl⟩)) hput
  case h_18 hpc => exact findStep_ok hpc (Option.some.inj h)
  case h_19 hpc =>
    obtain ⟨smp, hput, rfl⟩ := beginSwitch_ok (Option.some.inj h)
    exact .leave (.inr (.inr ⟨hpc, rfl⟩)) hput
  case h_20 dead hpc =>
    obtain rfl := Except.ok.inj (Option.some.inj h)
    exact .remove hpc
  case h_21 dead hpc =>
    obtain rfl := Except.ok.inj (Option.some.inj h)
    exact .removeThread hpc rfl
  case h_22 dead hpc =>
    obtain rfl := Except.ok.inj (Option.some.inj h)
    unfold Process.threadCount
    split
    case isTrue hlast => exact .lastThread hpc rfl ⟨hlast.1, List.length_eq_zero_iff.mp hlast.2⟩
    case isFalse hlast => exact .otherThreads hpc rfl (fun hor => hlast ⟨hor.1, List.length_eq_zero_iff.mpr hor.2⟩)
  case h_23 dead hpc =>
    obtain rfl := Except.ok.inj (Option.some.inj h)
    exact .destroySpace hpc rfl
  case h_24 dead hpc =>
    obtain rfl := Except.ok.inj (Option.some.inj h)
    exact .clearSpace hpc rfl
  case h_25 dead hpc =>
    obtain rfl := Except.ok.inj (Option.some.inj h)
    exact .destroy hpc

lemma LifeOp.cases_of_run {op : LifeOp} (h : op.run s = some (.ok s')) :
    op.act s = some (.ok s') ∧ LifeCase s op.cpu s' := by
  have hact : op.act s = some (.ok s') := by
    unfold LifeOp.run at h
    split at h
    · cases h
    · exact h
  refine ⟨hact, ?_⟩
  cases op with
  | wait4 c =>
    simp only [LifeOp.act] at hact
    split at hact
    case isTrue hon =>
      obtain rfl := Except.ok.inj (Option.some.inj hact)
      exact .task hon.1 (.wait4 hon.2.1 hon.2.2)
    case isFalse => cases hact
  | exit c status =>
    simp only [LifeOp.act] at hact
    split at hact
    case isTrue hon =>
      obtain rfl := Except.ok.inj (Option.some.inj hact)
      exact .task hon.1 (.exit hon.2.1 hon.2.2 status)
    case isFalse => cases hact
  | finish c =>
    simp only [LifeOp.act] at hact
    split at hact
    case isTrue hon =>
      obtain rfl := Except.ok.inj (Option.some.inj hact)
      exact .task hon.1 (.finish hon.2.1 hon.2.2.1 hon.2.2.2.1 hon.2.2.2.2)
    case isFalse => cases hact
  | go c copied =>
    simp only [LifeOp.act] at hact
    split at hact
    case isTrue hrun => exact .task hrun (taskStep_ok hact)
    case isFalse => cases hact
  | timer c =>
    simp only [LifeOp.act] at hact
    split at hact
    case isTrue hon =>
      obtain ⟨smp, hput, rfl⟩ := beginSwitch_ok (Option.some.inj hact)
      exact .task hon.1 (.timer hon.2 hput)
    case isFalse => cases hact
  | pick c =>
    simp only [LifeOp.act] at hact
    split at hact
    case isTrue hphase =>
      obtain ⟨smp, hswitch, h'⟩ := bind_eq_ok.mp (Option.some.inj hact)
      obtain rfl := Except.ok.inj h'
      exact .pick hphase hswitch
    case isFalse => cases hact
  | resume c =>
    simp only [LifeOp.act] at hact
    split at hact
    case h_1 prev hphase =>
      have hs := Option.some.inj hact
      unfold Life.contextSwitch at hs
      split at hs
      · obtain rfl := Except.ok.inj hs
        exact .resume hphase
      · cases hs
    case h_2 => cases hact

/-- A step of a run on `cpus` in which every step meets `cond`. -/
def LifeStep (cpus : Nat → Prop) (cond : Life → LifeOp → Prop) (s s' : Life) : Prop :=
  ∃ op, cpus op.cpu ∧ cond s op ∧ op.run s = some (.ok s')

lemma LifeOp.pc_of_act {op : LifeOp} (h : op.act s = some (.ok s'))
    (hop : (∃ c, op = .wait4 c) ∨ (∃ c status, op = .exit c status) ∨ ∃ c, op = .finish c) :
    s.pc (s.smp.current op.cpu) = .user := by
  rcases hop with ⟨c, rfl⟩ | ⟨c, status, rfl⟩ | ⟨c, rfl⟩ <;>
  · simp only [LifeOp.act] at h
    split at h
    case isTrue hon => exact hon.2.1
    case isFalse => cases h

lemma LifeOp.timer_of_act (h : (LifeOp.timer c).act s = some (.ok s')) :
    ∃ smp, s.smp.putBackPrev c = .ok smp ∧ s' = { s with smp := smp }.setPhase c .pick := by
  simp only [LifeOp.act] at h
  split at h
  case isTrue => exact beginSwitch_ok (Option.some.inj h)
  case isFalse => cases h

lemma LifeOp.act_ne_of_run {op : LifeOp} {x : Except Halt Life} (h : s.phase op.cpu = .run)
    (hop : op = .pick op.cpu ∨ op = .resume op.cpu) : op.act s ≠ some x := by
  rcases hop with hop | hop <;> rw [hop] <;> simp [LifeOp.act, h]

lemma LifeCase.pc_other (h : LifeCase s c s') (ht : t ≠ s.smp.current c) : s'.pc t = s.pc t := by
  have hupdate : ∀ {pc : LifePc}, Function.update s.pc (s.smp.current c) pc t = s.pc t := Function.update_of_ne ht ..
  cases h with
  | task hrun hnext =>
    cases hnext
    case timer => rfl
    all_goals exact hupdate
  | pick => rfl
  | resume => rfl

/-- The state after a list of steps, if none of them fails. -/
abbrev runOps (s : Life) (ops : List LifeOp) : Option Life := runSteps LifeOp.run s ops

/-- The state after a list of steps, which is `s` when one of them fails. -/
abbrev afterOps (s : Life) (ops : List LifeOp) : Life := afterSteps LifeOp.run s ops

/-- All steps of the list pass `check`. -/
abbrev checkOps (check : Life → LifeOp → Bool) (s : Life) (ops : List LifeOp) : Bool :=
  checkSteps LifeOp.run check s ops

lemma runOps_steps {cpus : Nat → Prop} {cond : Life → LifeOp → Prop} (check : Life → LifeOp → Bool)
    (hcheck : ∀ s op, check s op = true → cpus op.cpu ∧ cond s op) {ops : List LifeOp}
    (hall : checkOps check s ops = true) (h : runOps s ops = some s') :
    Relation.ReflTransGen (LifeStep cpus cond) s s' := by
  refine runSteps_rel (fun hop hrun => ?_) hall h
  obtain ⟨hcpu, hcond⟩ := hcheck _ _ hop
  exact ⟨_, hcpu, hcond, hrun⟩

lemma runOps_pc {tasks : List Nat} {ops : List LifeOp}
    (hall : checkOps (fun s op => decide (s.smp.current op.cpu ∈ tasks)) s ops = true) (h : runOps s ops = some s')
    (ht : t ∉ tasks) : s'.pc t = s.pc t := by
  induction ops generalizing s with
  | nil =>
    obtain rfl := Option.some.inj h
    rfl
  | cons op ops ih =>
    obtain ⟨s₁, hrun, hop, hall, hrest⟩ := runSteps_cons hall h
    rw [ih hall hrest]
    exact (LifeOp.cases_of_run hrun).2.pc_other (fun heq => ht (heq ▸ of_decide_eq_true hop))

/-- On CPU 1 task 11 of the process 0x700 runs, and on CPU 2 task 12 of its child 0x800. -/
def family : Life where
  smp := { twoCpus with
    task := fun t =>
      if t = 11 then ⟨1, .RUNNING, 0, 0x700, 0⟩ else if t = 12 then ⟨2, .RUNNING, 0, 0x800, 0⟩ else twoCpuTask t }
  phase _ := .run
  pc t := if t = 201 ∨ t = 202 then .find else .user
  tasks := [11, 12]
  proc p :=
    if p = 0x700 then ⟨1, .RUNNING, 0, [0x800], [11], 0xA00, 0xB00, 0⟩
    else if p = 0x800 then ⟨2, .RUNNING, 0x700, [], [12], 0xA40, 0xB40, 0⟩
    else ⟨0, .RUNNING, 0, [], [], 0, 0, 0⟩
  processes := [0x700, 0x800]
  removed := []
  destroyed := []
  spaces := []
  tables := []
  freed := []

lemma family_pc (t : Nat) : family.pc t = .user ∨ family.pc t = .find := by
  unfold family
  dsimp only
  split
  · exact .inr rfl
  · exact .inl rfl

lemma family_task (t : Nat) : (t = 11 ∧ family.smp.task t = ⟨1, .RUNNING, 0, 0x700, 0⟩) ∨
    (t = 12 ∧ family.smp.task t = ⟨2, .RUNNING, 0, 0x800, 0⟩) ∨
    (t ≠ 11 ∧ t ≠ 12 ∧ (family.smp.task t).process = 0 ∧ (family.smp.task t).waitingOn = 0 ∧
      (family.smp.task t).state ≠ .BLOCKED) := by
  by_cases h₁ : t = 11
  · subst h₁
    exact .inl ⟨rfl, rfl⟩
  by_cases h₂ : t = 12
  · subst h₂
    exact .inr (.inl ⟨rfl, rfl⟩)
  have htask : family.smp.task t = twoCpuTask t := by simp [family, h₁, h₂]
  refine .inr (.inr ⟨h₁, h₂, ?_, ?_, ?_⟩) <;> rw [htask]
  · unfold twoCpuTask
    split_ifs <;> rfl
  · exact (twoCpuTask_cases t).1
  · exact (twoCpuTask_cases t).2.1

lemma family_proc (p : Nat) : (p = 0x700 ∧ family.proc p = ⟨1, .RUNNING, 0, [0x800], [11], 0xA00, 0xB00, 0⟩) ∨
    (p = 0x800 ∧ family.proc p = ⟨2, .RUNNING, 0x700, [], [12], 0xA40, 0xB40, 0⟩) ∨
    family.proc p = ⟨0, .RUNNING, 0, [], [], 0, 0, 0⟩ := by
  unfold family
  dsimp only
  split
  case isTrue h => exact .inl ⟨h, rfl⟩
  split
  case isTrue h => exact .inr (.inl ⟨h, rfl⟩)
  case isFalse => exact .inr (.inr rfl)

lemma family_pc_of_run {ops : List LifeOp}
    (hall : checkOps (fun s op => decide (s.smp.current op.cpu ∈ [11, 12])) family ops = true)
    (h : runOps family ops = some s) (h₁ : t ≠ 11) (h₂ : t ≠ 12) : s.pc t = .user ∨ s.pc t = .find := by
  rw [runOps_pc hall h (by simp [h₁, h₂])]
  exact family_pc t

/-- The steps on the two CPUs. -/
def onTwoCpus (op : LifeOp) : Bool := op.cpu == 1 || op.cpu == 2

lemma oneOrTwo_of_onTwoCpus {op : LifeOp} (h : onTwoCpus op = true) : OneOrTwo op.cpu := by
  simpa [onTwoCpus, OneOrTwo] using h

end KaworuOS.Proofs
