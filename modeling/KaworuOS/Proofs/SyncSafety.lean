import KaworuOS.Proofs.ProcessLife
import KaworuOS.Sync

/-!
# Owners, units and wake-ups

In every run, orderly or not, that no assertion has stopped: a mutex is owned by the task that has
acquired it, the units of a semaphore are conserved, and an object that could be taken while tasks
wait for it has given a wake-up that is still on its way.
-/

namespace KaworuOS.Proofs
open Lib

/-- What the calls have returned so far: who has come back with a mutex and has not begun to release it,
how many units of a semaphore the callers have, and which waiters a release has taken off the wait queue
that have not run their loop again. -/
structure Ledger where
  holders : Nat → List Nat
  held : Nat → Nat
  woken : Nat → List Nat

/-- The object of the acquire loop that a task is in. -/
def inLoop : SyncPc → Option SyncObject
  | .acquire o | .block o | .switch o => some o
  | .user | .wake _ => none

namespace Ledger

/-- The task has run the section of its loop again. -/
def ran (g : Ledger) (m t : Nat) : Ledger := { g with woken := Function.update g.woken m ((g.woken m).erase t) }

/-- The task has acquired the mutex. -/
def locked (g : Ledger) (m t : Nat) : Ledger := { g with holders := Function.update g.holders m (t :: g.holders m) }

/-- A unit of the semaphore is taken. -/
def taken (g : Ledger) (m : Nat) : Ledger := { g with held := Function.update g.held m (g.held m + 1) }

/-- A call comes back to the task with the object. -/
def got (g : Ledger) (t : Nat) : SyncObject → Ledger
  | .mutex m => g.locked m t
  | .semaphore m => g.taken m

/-- The task begins to release the object. -/
def lost (g : Ledger) (t : Nat) : SyncObject → Ledger
  | .mutex m => { g with holders := Function.update g.holders m ((g.holders m).erase t) }
  | .semaphore m => { g with held := Function.update g.held m (g.held m - 1) }

/-- The waiter that a release has in hand when its section ends. -/
def inHand : SyncPc → List Nat
  | .wake blocked => [blocked]
  | _ => []

/-- A release takes a waiter off the queue. -/
def dequeued (g : Ledger) (m : Nat) (waiter : List Nat) : Ledger :=
  { g with woken := Function.update g.woken m (g.woken m ++ waiter) }

/-- The ledger after a step that ends in `s'` with what a call has returned. An acquire has succeeded
when it has left its loop, and a try when it returns `true`. -/
def next (g : Ledger) (s : Sync) (op : LockOp) (returned : Option Bool) (s' : Sync) : Ledger :=
  match op with
  | .sync (.acquire c) =>
    match s.pc (s.smp.current c) with
    | .acquire o =>
      if s'.pc (s.smp.current c) = .user then (g.ran o.waiters (s.smp.current c)).got (s.smp.current c) o
      else g.ran o.waiters (s.smp.current c)
    | _ => g
  | .sync (.release c o) => (g.lost (s.smp.current c) o).dequeued o.waiters (inHand (s'.pc (s.smp.current c)))
  | .tryAcquire c o => if returned = some true then g.got (s.smp.current c) o else g
  | _ => g

/-- The task may release the object. -/
def Has (g : Ledger) (t : Nat) : SyncObject → Prop
  | .mutex m => t ∈ g.holders m
  | .semaphore m => 0 < g.held m

end Ledger

/-- An object is a mutex or a semaphore, and not at the null address. -/
def SyncObject.Valid (mutexes : Nat → Prop) : SyncObject → Prop
  | .mutex m => mutexes m ∧ m ≠ 0
  | .semaphore m => ¬mutexes m ∧ m ≠ 0

/-- The steps of a run: `pick` follows the first half of a switch, the other steps are those of a
current task, a mutex is released by a task that holds it, and a semaphore for an earlier acquire. -/
def LockOp.Allowed (cpus mutexes : Nat → Prop) (s : Sync) (g : Ledger) (op : LockOp) : Prop :=
  cpus op.cpu ∧
  match op with
  | .sync (.pick c) => s.switching c = true
  | .sync (.timer c) => s.switching c = false
  | .sync (.acquire c) | .sync (.block c) | .sync (.leave c) | .sync (.wake c) =>
    s.switching c = false ∧ s.smp.current c ≠ 0
  | .sync (.call c o) | .tryAcquire c o => (s.switching c = false ∧ s.smp.current c ≠ 0) ∧ SyncObject.Valid mutexes o
  | .sync (.release c o) => (s.switching c = false ∧ s.smp.current c ≠ 0) ∧ SyncObject.Valid mutexes o ∧
    g.Has (s.smp.current c) o

/-- Wait queues, program counters and pending wake-ups agree. -/
structure WaiterInv (cpus mutexes : Nat → Prop) (s : Sync) (woken : Nat → List Nat) : Prop where
  queue : ∀ wq, ∀ t ∈ s.smp.waitQueue wq, (s.smp.task t).waitingOn = wq ∧ wq ≠ 0
  queued : ∀ wq, ∀ t ∈ s.smp.waitQueue wq, ∃ o, inLoop (s.pc t) = some o ∧ o.waiters = wq
  nodup : ∀ wq, (s.smp.waitQueue wq).Nodup
  ne_zero : ∀ wq, ∀ t ∈ s.smp.waitQueue wq, t ≠ 0
  current : ∀ c, cpus c → s.smp.current c ≠ 0 → (s.smp.task (s.smp.current c)).cpu = c
  waiting : ∀ c, cpus c → s.switching c = false → s.smp.current c ≠ 0 → (s.smp.task (s.smp.current c)).waitingOn ≠ 0 →
    ∃ o, s.pc (s.smp.current c) = .block o ∨ s.pc (s.smp.current c) = .switch o
  valid : ∀ t o, inLoop (s.pc t) = some o → SyncObject.Valid mutexes o
  pending : ∀ m, ∀ t ∈ woken m, ∃ o, inLoop (s.pc t) = some o ∧ o.waiters = m
  woken_nodup : ∀ m, (woken m).Nodup
  apart : ∀ m, ∀ t ∈ woken m, t ∉ s.smp.waitQueue m

/-- Owners and units agree with what has been acquired, and no waiter is stranded. -/
structure ObjectInv (mutexes : Nat → Prop) (n : Nat → Nat) (s : Sync) (g : Ledger) : Prop where
  initial : s.initialCount = n
  holders : ∀ m, g.holders m = if s.owner m = 0 then [] else [s.owner m]
  units : ∀ m, s.count m + g.held m = n m
  mutex : ∀ m, mutexes m → s.owner m = 0 → s.smp.waitQueue m ≠ [] → g.woken m ≠ []
  semaphore : ∀ m, ¬mutexes m → s.smp.waitQueue m ≠ [] → s.count m ≤ (g.woken m).length

/-- The invariant of the runs. -/
structure LockInv (cpus mutexes : Nat → Prop) (n : Nat → Nat) (s : Sync) (g : Ledger) : Prop where
  queues : WaiterInv cpus mutexes s g.woken
  objects : ObjectInv mutexes n s g

variable {cpus mutexes : Nat → Prop} {s s' : Sync} {g : Ledger} {woken : Nat → List Nat} {n : Nat → Nat}
  {c m t : Nat} {o : SyncObject}

lemma WaiterInv.schedule (h : WaiterInv cpus mutexes s woken) (hqueue : s'.smp.waitQueue = s.smp.waitQueue)
    (hwaiting : ∀ t, (s'.smp.task t).waitingOn = (s.smp.task t).waitingOn)
    (hloop : ∀ t, inLoop (s'.pc t) = inLoop (s.pc t))
    (hcurrent : ∀ c, cpus c → s'.smp.current c ≠ 0 → (s'.smp.task (s'.smp.current c)).cpu = c)
    (hblock : ∀ c, cpus c → s'.switching c = false → s'.smp.current c ≠ 0 →
      (s.smp.task (s'.smp.current c)).waitingOn ≠ 0 →
      ∃ o, s'.pc (s'.smp.current c) = .block o ∨ s'.pc (s'.smp.current c) = .switch o) :
    WaiterInv cpus mutexes s' woken := by
  refine ⟨?_, ?_, ?_, ?_, hcurrent, ?_, ?_, ?_, h.woken_nodup, ?_⟩
  · intro wq t ht
    rw [hqueue] at ht
    rw [hwaiting]
    exact h.queue wq t ht
  · intro wq t ht
    rw [hqueue] at ht
    rw [hloop]
    exact h.queued wq t ht
  · rw [hqueue]
    exact h.nodup
  · rw [hqueue]
    exact h.ne_zero
  · intro c hc hsw hne hwait
    rw [hwaiting] at hwait
    exact hblock c hc hsw hne hwait
  · intro t o ho
    exact h.valid t o ((hloop t).symm.trans ho)
  · intro m t ht
    rw [hloop]
    exact h.pending m t ht
  · rw [hqueue]
    exact h.apart

lemma WaiterInv.setObjects (h : WaiterInv cpus mutexes s woken) (owner count : Nat → Nat) :
    WaiterInv cpus mutexes { s with owner := owner, count := count } woken :=
  ⟨h.queue, h.queued, h.nodup, h.ne_zero, h.current, h.waiting, h.valid, h.pending, h.woken_nodup, h.apart⟩

lemma WaiterInv.current_unique (h : WaiterInv cpus mutexes s woken) {d : Nat} (hc : cpus c) (hd : cpus d)
    (hne : s.smp.current c ≠ 0) (heq : s.smp.current d = s.smp.current c) : d = c := by
  have hcpu := h.current d hd (heq ▸ hne)
  rw [heq, h.current c hc hne] at hcpu
  exact hcpu.symm

lemma WaiterInv.beginSwitch (h : WaiterInv cpus mutexes s woken) {smp : Smp} {pc : Nat → SyncPc}
    (hput : s.smp.putBackPrev c = .ok smp) (hloop : ∀ t, inLoop (pc t) = inLoop (s.pc t))
    (hpc : ∀ d, cpus d → d ≠ c → s.smp.current d ≠ 0 → pc (s.smp.current d) = s.pc (s.smp.current d)) :
    WaiterInv cpus mutexes ({ s with smp := smp, pc := pc }.setSwitching c true) woken := by
  obtain ⟨hcalm, hcurrent⟩ := calm_putBackPrev hput
  refine h.schedule hcalm.waitQueue hcalm.waitingOn hloop ?_ ?_
  · intro d hd hne
    change smp.current d ≠ 0 at hne
    show (smp.task (smp.current d)).cpu = d
    rw [hcurrent] at hne ⊢
    rw [hcalm.cpu]
    exact h.current d hd hne
  · intro d hd hsw hne hwait
    change smp.current d ≠ 0 at hne
    change (s.smp.task (smp.current d)).waitingOn ≠ 0 at hwait
    show ∃ o, pc (smp.current d) = .block o ∨ pc (smp.current d) = .switch o
    rw [hcurrent] at hne hwait ⊢
    change Function.update s.switching c true d = false at hsw
    rcases eq_or_ne d c with rfl | hdc
    · rw [Function.update_self] at hsw
      cases hsw
    · rw [Function.update_of_ne hdc] at hsw
      rw [hpc d hd hdc hne]
      exact h.waiting d hd hsw hne hwait

lemma switchTo_waitingOn {smp smp' : Smp} {prev next : Nat} (h : smp.switchTo c prev next = .ok smp') :
    (smp.task next).waitingOn = 0 := by
  unfold Smp.switchTo at h
  obtain ⟨_, -, h⟩ := bind_eq_ok.mp h
  obtain ⟨_, -, h⟩ := bind_eq_ok.mp h
  obtain ⟨_, hwait, -⟩ := bind_eq_ok.mp h
  exact assertThat_ok hwait

lemma WaiterInv.endSwitch (h : WaiterInv cpus mutexes s woken) (hrun : s.endSwitch c = .ok s') :
    WaiterInv cpus mutexes s' woken := by
  unfold Sync.endSwitch at hrun
  obtain ⟨smp, hswitch, hrun⟩ := bind_eq_ok.mp hrun
  obtain rfl := Except.ok.inj hrun
  obtain ⟨hcalm, hcurrent, -⟩ := schedulerPickNext_effect s.smp c
  have hwait := switchTo_waitingOn hswitch
  obtain ⟨rfl, hcpu, -⟩ := switchTo_ok hswitch
  have hwaiting : ∀ t, ((((s.smp.schedulerPickNext c).2.setState (s.smp.schedulerPickNext c).1 .RUNNING).setCurrent c
      (s.smp.schedulerPickNext c).1).task t).waitingOn = (s.smp.task t).waitingOn :=
    fun t => (Smp.setState_waitingOn ..).trans (hcalm.waitingOn t)
  have hcases : ∀ d, (Function.update (s.smp.schedulerPickNext c).2.current c (s.smp.schedulerPickNext c).1) d =
      if d = c then (s.smp.schedulerPickNext c).1 else s.smp.current d := by
    intro d
    rcases eq_or_ne d c with rfl | hd
    · rw [Function.update_self, if_pos rfl]
    · rw [Function.update_of_ne hd, if_neg hd, hcurrent]
  refine h.schedule hcalm.waitQueue hwaiting (fun _ => rfl) ?_ ?_
  · intro d hd hne
    change Function.update (s.smp.schedulerPickNext c).2.current c (s.smp.schedulerPickNext c).1 d ≠ 0 at hne
    refine (Smp.setState_cpu ..).trans ((hcalm.cpu _).trans ?_)
    show (s.smp.task (Function.update (s.smp.schedulerPickNext c).2.current c (s.smp.schedulerPickNext c).1 d)).cpu = d
    rw [hcases] at hne ⊢
    split at hne
    case isTrue hdc =>
      rw [if_pos hdc, hdc, ← hcalm.cpu]
      exact hcpu
    case isFalse hdc =>
      rw [if_neg hdc]
      exact h.current d hd hne
  · intro d hd hsw hne hwait'
    change Function.update (s.smp.schedulerPickNext c).2.current c (s.smp.schedulerPickNext c).1 d ≠ 0 at hne
    change (s.smp.task (Function.update (s.smp.schedulerPickNext c).2.current c
      (s.smp.schedulerPickNext c).1 d)).waitingOn ≠ 0 at hwait'
    show ∃ o, s.pc (Function.update (s.smp.schedulerPickNext c).2.current c
      (s.smp.schedulerPickNext c).1 d) = .block o ∨
      s.pc (Function.update (s.smp.schedulerPickNext c).2.current c (s.smp.schedulerPickNext c).1 d) = .switch o
    rw [hcases] at hne hwait' ⊢
    change Function.update s.switching c false d = false at hsw
    rcases eq_or_ne d c with rfl | hdc
    · rw [if_pos rfl, ← hcalm.waitingOn] at hwait'
      exact absurd hwait hwait'
    · rw [if_neg hdc] at hne hwait' ⊢
      rw [Function.update_of_ne hdc] at hsw
      exact h.waiting d hd hsw hne hwait'

/-- What a step of the current task of `c` may rely on. -/
structure AtStep (cpus mutexes : Nat → Prop) (s : Sync) (woken : Nat → List Nat) (c : Nat) : Prop where
  inv : WaiterInv cpus mutexes s woken
  cpu : cpus c
  switching : s.switching c = false
  ne_zero : s.smp.current c ≠ 0

namespace AtStep

variable (h : AtStep cpus mutexes s woken c)
include h

lemma other {d : Nat} (hd : cpus d) (hdc : d ≠ c) : s.smp.current d ≠ s.smp.current c :=
  fun heq => hdc (h.inv.current_unique h.cpu hd h.ne_zero heq)

/-- A task that takes a step outside of the window between joining a queue and leaving its CPU waits
for nothing. -/
lemma waitingOn (hpc : ∀ o, s.pc (s.smp.current c) ≠ .block o ∧ s.pc (s.smp.current c) ≠ .switch o) :
    (s.smp.task (s.smp.current c)).waitingOn = 0 := by
  by_contra hne
  obtain ⟨o, ho⟩ := h.inv.waiting c h.cpu h.switching h.ne_zero hne
  exact ho.elim (hpc o).1 (hpc o).2

lemma not_queued (hpc : ∀ o, s.pc (s.smp.current c) ≠ .block o ∧ s.pc (s.smp.current c) ≠ .switch o) (wq : Nat) :
    s.smp.current c ∉ s.smp.waitQueue wq := by
  intro hin
  obtain ⟨hwait, hne⟩ := h.inv.queue wq _ hin
  exact hne (hwait.symm.trans (h.waitingOn hpc))

lemma schedule {pc : SyncPc} (hqueue : s'.smp.waitQueue = s.smp.waitQueue)
    (hwaiting : ∀ t, (s'.smp.task t).waitingOn = (s.smp.task t).waitingOn)
    (hcpu : ∀ t, (s'.smp.task t).cpu = (s.smp.task t).cpu) (hcurrent : s'.smp.current = s.smp.current)
    (hswitching : s'.switching = s.switching) (hpc : s'.pc = Function.update s.pc (s.smp.current c) pc)
    (hloop : inLoop pc = inLoop (s.pc (s.smp.current c)))
    (hwait : (∃ o, pc = .block o ∨ pc = .switch o) ∨ (s.smp.task (s.smp.current c)).waitingOn = 0) :
    WaiterInv cpus mutexes s' woken := by
  refine h.inv.schedule hqueue hwaiting ?_ ?_ ?_
  · intro t
    rw [hpc]
    rcases eq_or_ne t (s.smp.current c) with rfl | ht
    · rw [Function.update_self, hloop]
    · rw [Function.update_of_ne ht]
  · intro d hd hne
    rw [hcurrent] at hne ⊢
    rw [hcpu]
    exact h.inv.current d hd hne
  · intro d hd hsw hne hwait'
    rw [hcurrent] at hne hwait' ⊢
    rw [hswitching] at hsw
    rw [hpc]
    rcases eq_or_ne d c with rfl | hdc
    · rw [Function.update_self]
      exact hwait.resolve_right hwait'
    · rw [Function.update_of_ne (h.other hd hdc)]
      exact h.inv.waiting d hd hsw hne hwait'

lemma moveOn {pc : SyncPc} (hsmp : s'.smp = s.smp) (hswitching : s'.switching = s.switching)
    (hpc : s'.pc = Function.update s.pc (s.smp.current c) pc)
    (hold : ∀ o, s.pc (s.smp.current c) ≠ .block o ∧ s.pc (s.smp.current c) ≠ .switch o)
    (hvalid : ∀ o, inLoop pc = some o → SyncObject.Valid mutexes o) {woken' : Nat → List Nat}
    (hsub : ∀ m, (woken' m).Sublist (woken m)) (hnot : ∀ m, s.smp.current c ∉ woken' m) :
    WaiterInv cpus mutexes s' woken' := by
  have hother : ∀ t, t ≠ s.smp.current c → s'.pc t = s.pc t := by
    intro t ht
    rw [hpc, Function.update_of_ne ht]
  refine ⟨?_, ?_, ?_, ?_, ?_, ?_, ?_, ?_, fun m => (hsub m).nodup (h.inv.woken_nodup m), ?_⟩
  · rw [hsmp]
    exact h.inv.queue
  · intro wq t ht
    rw [hsmp] at ht
    rw [hother t (fun heq => h.not_queued hold wq (heq ▸ ht))]
    exact h.inv.queued wq t ht
  · rw [hsmp]
    exact h.inv.nodup
  · rw [hsmp]
    exact h.inv.ne_zero
  · rw [hsmp]
    exact h.inv.current
  · intro d hd hsw hne hwait
    rw [hsmp] at hne hwait ⊢
    rw [hswitching] at hsw
    rcases eq_or_ne d c with rfl | hdc
    · exact absurd (h.waitingOn hold) hwait
    · rw [hother _ (h.other hd hdc)]
      exact h.inv.waiting d hd hsw hne hwait
  · intro t o ho
    rcases eq_or_ne t (s.smp.current c) with rfl | ht
    · rw [hpc, Function.update_self] at ho
      exact hvalid o ho
    · rw [hother t ht] at ho
      exact h.inv.valid t o ho
  · intro m t ht
    rw [hother t (fun heq => hnot m (heq ▸ ht))]
    exact h.inv.pending m t ((hsub m).subset ht)
  · intro m t ht
    rw [hsmp]
    exact h.inv.apart m t ((hsub m).subset ht)

lemma not_pending (hpc : s.pc (s.smp.current c) = .acquire o) (m : Nat) :
    s.smp.current c ∉ Function.update woken o.waiters ((woken o.waiters).erase (s.smp.current c)) m := by
  rcases eq_or_ne m o.waiters with rfl | hm
  · rw [Function.update_self]
    exact fun hin => (h.inv.woken_nodup _).mem_erase_iff.mp hin |>.1 rfl
  · rw [Function.update_of_ne hm]
    intro hin
    obtain ⟨o', ho', hwaiters⟩ := h.inv.pending m _ hin
    rw [hpc] at ho'
    obtain rfl := Option.some.inj ho'
    exact hm hwaiters.symm

omit h in
lemma ran_sublist (woken : Nat → List Nat) (a t m : Nat) :
    (Function.update woken a ((woken a).erase t) m).Sublist (woken m) := by
  rcases eq_or_ne m a with rfl | hm
  · rw [Function.update_self]
    exact List.erase_sublist
  · rw [Function.update_of_ne hm]

lemma join (hpc : s.pc (s.smp.current c) = .acquire o)
    (hqueue : s'.smp.waitQueue = Function.update s.smp.waitQueue o.waiters
      (s.smp.waitQueue o.waiters ++ [s.smp.current c]))
    (hself : (s'.smp.task (s.smp.current c)).waitingOn = o.waiters)
    (hwaiting : ∀ t, t ≠ s.smp.current c → (s'.smp.task t).waitingOn = (s.smp.task t).waitingOn)
    (hcpu : ∀ t, (s'.smp.task t).cpu = (s.smp.task t).cpu) (hcurrent : s'.smp.current = s.smp.current)
    (hswitching : s'.switching = s.switching) (hpc' : s'.pc = Function.update s.pc (s.smp.current c) (.block o)) :
    WaiterInv cpus mutexes s' (Function.update woken o.waiters ((woken o.waiters).erase (s.smp.current c))) := by
  have hold : ∀ o, s.pc (s.smp.current c) ≠ .block o ∧ s.pc (s.smp.current c) ≠ .switch o := by
    rw [hpc]
    exact fun _ => ⟨nofun, nofun⟩
  have hne : o.waiters ≠ 0 := by
    have hvalid := h.inv.valid (s.smp.current c) o (by rw [hpc]; rfl)
    cases o with
    | mutex m => exact hvalid.2
    | semaphore m => exact hvalid.2
  have hloop : ∀ t, inLoop (s'.pc t) = inLoop (s.pc t) := by
    intro t
    rw [hpc']
    rcases eq_or_ne t (s.smp.current c) with rfl | ht
    · rw [Function.update_self, hpc]
      rfl
    · rw [Function.update_of_ne ht]
  have hmem : ∀ wq t, t ∈ s'.smp.waitQueue wq → t ∈ s.smp.waitQueue wq ∧ t ≠ s.smp.current c ∨
      t = s.smp.current c ∧ wq = o.waiters := by
    intro wq t ht
    rw [hqueue] at ht
    have hnew : ∀ {l}, t ∈ l → l = s.smp.waitQueue wq → t ∈ s.smp.waitQueue wq ∧ t ≠ s.smp.current c := by
      rintro l hl rfl
      exact ⟨hl, fun heq => h.not_queued hold wq (heq ▸ hl)⟩
    rcases eq_or_ne wq o.waiters with rfl | hwq
    · rw [Function.update_self] at ht
      rcases List.mem_append.mp ht with ht | ht
      · exact .inl (hnew ht rfl)
      · exact .inr ⟨List.mem_singleton.mp ht, rfl⟩
    · rw [Function.update_of_ne hwq] at ht
      exact .inl (hnew ht rfl)
  refine ⟨?_, ?_, ?_, ?_, ?_, ?_, ?_, ?_, fun m => (ran_sublist woken _ _ m).nodup (h.inv.woken_nodup m), ?_⟩
  · intro wq t ht
    rcases hmem wq t ht with ⟨hin, htc⟩ | ⟨rfl, rfl⟩
    · rw [hwaiting t htc]
      exact h.inv.queue wq t hin
    · exact ⟨hself, hne⟩
  · intro wq t ht
    rw [hloop]
    rcases hmem wq t ht with ⟨hin, -⟩ | ⟨rfl, rfl⟩
    · exact h.inv.queued wq t hin
    · exact ⟨o, by rw [hpc]; rfl, rfl⟩
  · rw [hqueue]
    exact forall_update (P := fun _ l => l.Nodup) h.inv.nodup (nodup_concat (h.inv.nodup _) (h.not_queued hold _))
  · intro wq t ht
    rcases hmem wq t ht with ⟨hin, -⟩ | ⟨rfl, -⟩
    · exact h.inv.ne_zero wq t hin
    · exact h.ne_zero
  · intro d hd hne'
    rw [hcurrent] at hne' ⊢
    rw [hcpu]
    exact h.inv.current d hd hne'
  · intro d hd hsw hne' hwait
    rw [hcurrent] at hne' hwait ⊢
    rw [hswitching] at hsw
    rw [hpc']
    rcases eq_or_ne d c with rfl | hdc
    · rw [Function.update_self]
      exact ⟨o, .inl rfl⟩
    · rw [hwaiting _ (h.other hd hdc)] at hwait
      rw [Function.update_of_ne (h.other hd hdc)]
      exact h.inv.waiting d hd hsw hne' hwait
  · intro t o' ho'
    rw [hloop] at ho'
    exact h.inv.valid t o' ho'
  · intro m t ht
    rw [hloop]
    exact h.inv.pending m t ((ran_sublist woken _ _ m).subset ht)
  · intro m t ht hin
    rcases hmem m t hin with ⟨hin, -⟩ | ⟨rfl, -⟩
    · exact h.inv.apart m t ((ran_sublist woken _ _ m).subset ht) hin
    · exact h.not_pending hpc m ht

lemma dequeue (hpc : s.pc (s.smp.current c) = .user) {w : Nat} {rest : List Nat} (hq : s.smp.waitQueue m = w :: rest)
    {pc : SyncPc} (hqueue : s'.smp.waitQueue = Function.update s.smp.waitQueue m rest)
    (hself : (s'.smp.task w).waitingOn = 0)
    (hwaiting : ∀ t, t ≠ w → (s'.smp.task t).waitingOn = (s.smp.task t).waitingOn)
    (hcpu : ∀ t, (s'.smp.task t).cpu = (s.smp.task t).cpu) (hcurrent : s'.smp.current = s.smp.current)
    (hswitching : s'.switching = s.switching) (hpc' : s'.pc = Function.update s.pc (s.smp.current c) pc)
    (hloop : inLoop pc = none) : WaiterInv cpus mutexes s' (Function.update woken m (woken m ++ [w])) := by
  have hold : ∀ o, s.pc (s.smp.current c) ≠ .block o ∧ s.pc (s.smp.current c) ≠ .switch o := by
    rw [hpc]
    exact fun _ => ⟨nofun, nofun⟩
  have hin : w ∈ s.smp.waitQueue m := by
    rw [hq]
    exact List.mem_cons_self
  have hnodup := h.inv.nodup m
  rw [hq] at hnodup
  obtain ⟨hnotin, hrest⟩ := List.nodup_cons.mp hnodup
  have hloop' : ∀ t, inLoop (s'.pc t) = inLoop (s.pc t) := by
    intro t
    rw [hpc']
    rcases eq_or_ne t (s.smp.current c) with rfl | ht
    · rw [Function.update_self, hpc, hloop]
      rfl
    · rw [Function.update_of_ne ht]
  have hmem : ∀ wq t, t ∈ s'.smp.waitQueue wq → t ∈ s.smp.waitQueue wq ∧ t ≠ w := by
    intro wq t ht
    rw [hqueue] at ht
    rcases eq_or_ne wq m with rfl | hwq
    · rw [Function.update_self] at ht
      refine ⟨?_, fun heq => hnotin (heq ▸ ht)⟩
      rw [hq]
      exact List.mem_cons_of_mem w ht
    · rw [Function.update_of_ne hwq] at ht
      refine ⟨ht, ?_⟩
      rintro rfl
      exact hwq ((h.inv.queue wq t ht).1.symm.trans (h.inv.queue m t hin).1)
  have hwoken : ∀ a t, t ∈ Function.update woken m (woken m ++ [w]) a → t ∈ woken a ∨ t = w ∧ a = m := by
    intro a t ht
    rcases eq_or_ne a m with rfl | ha
    · rw [Function.update_self] at ht
      exact (List.mem_append.mp ht).imp id fun hw => ⟨List.mem_singleton.mp hw, rfl⟩
    · rw [Function.update_of_ne ha] at ht
      exact .inl ht
  refine ⟨?_, ?_, ?_, ?_, ?_, ?_, ?_, ?_, ?_, ?_⟩
  · intro wq t ht
    obtain ⟨hin', htw⟩ := hmem wq t ht
    rw [hwaiting t htw]
    exact h.inv.queue wq t hin'
  · intro wq t ht
    rw [hloop']
    exact h.inv.queued wq t (hmem wq t ht).1
  · rw [hqueue]
    exact forall_update (P := fun _ l => l.Nodup) h.inv.nodup hrest
  · exact fun wq t ht => h.inv.ne_zero wq t (hmem wq t ht).1
  · intro d hd hne
    rw [hcurrent] at hne ⊢
    rw [hcpu]
    exact h.inv.current d hd hne
  · intro d hd hsw hne hwait
    rw [hcurrent] at hne hwait ⊢
    rw [hswitching] at hsw
    have hdw : s.smp.current d ≠ w := by
      intro heq
      rw [heq] at hwait
      exact hwait hself
    rw [hwaiting _ hdw] at hwait
    rcases eq_or_ne d c with rfl | hdc
    · exact absurd (h.waitingOn hold) hwait
    · rw [hpc', Function.update_of_ne (h.other hd hdc)]
      exact h.inv.waiting d hd hsw hne hwait
  · intro t o ho
    rw [hloop'] at ho
    exact h.inv.valid t o ho
  · intro a t ht
    rw [hloop']
    rcases hwoken a t ht with ht | ⟨rfl, rfl⟩
    · exact h.inv.pending a t ht
    · exact h.inv.queued a t hin
  · refine forall_update (P := fun _ l => l.Nodup) h.inv.woken_nodup (nodup_concat (h.inv.woken_nodup m) ?_)
    exact fun hw => h.inv.apart m w hw hin
  · intro a t ht hin'
    obtain ⟨hin', htw⟩ := hmem a t hin'
    rcases hwoken a t ht with ht | ⟨rfl, -⟩
    · exact h.inv.apart a t ht hin'
    · exact htw rfl

end AtStep

lemma schedulerWakeBlocked_effect {smp smp' : Smp} {w : Nat} (h : smp.schedulerWakeBlocked w = .ok smp') :
    smp'.waitQueue = smp.waitQueue ∧ (∀ t, (smp'.task t).waitingOn = (smp.task t).waitingOn) ∧
      (∀ t, (smp'.task t).cpu = (smp.task t).cpu) ∧ smp'.current = smp.current := by
  unfold Smp.schedulerWakeBlocked at h
  split at h
  case isTrue =>
    obtain rfl := Except.ok.inj h
    exact ⟨rfl, fun _ => rfl, fun _ => rfl, rfl⟩
  case isFalse =>
    obtain ⟨_, -, h⟩ := bind_eq_ok.mp h
    obtain ⟨_, hwait, h⟩ := bind_eq_ok.mp h
    obtain rfl := schedulerEnqueue_ok h
    refine ⟨rfl, fun t => ?_, fun t => ?_, rfl⟩
    · refine (Smp.setState_waitingOn ..).trans ?_
      rcases eq_or_ne t w with rfl | ht
      · rw [Smp.setWaitingOn_self]
        exact (assertThat_ok hwait).symm
      · rw [Smp.setWaitingOn_other _ _ _ ht, Smp.setState_waitingOn]
    · exact (Smp.setState_cpu ..).trans ((Smp.setWaitingOn_cpu ..).trans (Smp.setState_cpu ..))

lemma AtStep.dequeueWaiter (h : AtStep cpus mutexes s woken c) (hpc : s.pc (s.smp.current c) = .user) (m : Nat) :
    Ledger.inHand ((s.dequeueWaiter c m).pc (s.smp.current c)) = (s.smp.waitQueue m).head?.toList ∧
      WaiterInv cpus mutexes (s.dequeueWaiter c m)
        (Function.update woken m (woken m ++ (s.smp.waitQueue m).head?.toList)) ∧
      (s.dequeueWaiter c m).smp.waitQueue = Function.update s.smp.waitQueue m (s.smp.waitQueue m).tail ∧
      (s.dequeueWaiter c m).owner = s.owner ∧ (s.dequeueWaiter c m).count = s.count ∧
      (s.dequeueWaiter c m).initialCount = s.initialCount := by
  have hold : ∀ o, s.pc (s.smp.current c) ≠ .block o ∧ s.pc (s.smp.current c) ≠ .switch o := by
    rw [hpc]
    exact fun _ => ⟨nofun, nofun⟩
  have hqueue := h.inv.ne_zero m
  unfold Sync.dequeueWaiter Smp.waitqueueDequeue
  cases hq : s.smp.waitQueue m with
  | nil =>
    have hsame : Function.update woken m (woken m ++ ([] : List Nat).head?.toList) = woken := by
      rw [List.head?_nil, Option.toList_none, List.append_nil, Function.update_eq_self]
    rw [hsame]
    refine ⟨?_, ?_, ?_, rfl, rfl, rfl⟩
    · simp [Sync.setPc, Ledger.inHand]
    · exact h.schedule rfl (fun _ => rfl) (fun _ => rfl) rfl rfl rfl (by rw [hpc]; rfl) (.inr (h.waitingOn hold))
    · have hself : Function.update s.smp.waitQueue m [] = s.smp.waitQueue := by
        rw [← hq, Function.update_eq_self]
      exact hself.symm
  | cons w rest =>
    rw [hq] at hqueue
    refine ⟨?_, ?_, rfl, rfl, rfl, rfl⟩
    · refine (congrArg Ledger.inHand (Function.update_self ..)).trans ?_
      rw [if_neg (hqueue w List.mem_cons_self)]
      rfl
    · refine h.dequeue hpc hq rfl (congrArg Task.waitingOn (Smp.setWaitingOn_self ..))
        (fun t ht => congrArg Task.waitingOn (Smp.setWaitingOn_other _ _ _ ht))
          (fun t => Smp.setWaitingOn_cpu ..) rfl rfl rfl ?_
      split <;> rfl

namespace ObjectInv

variable {owner count : Nat → Nat} {smp : Smp} {woken' : Nat → List Nat}

lemma same (h : ObjectInv mutexes n s g) (howner : s'.owner = s.owner) (hcount : s'.count = s.count)
    (hinit : s'.initialCount = s.initialCount) (hqueue : s'.smp.waitQueue = s.smp.waitQueue) :
    ObjectInv mutexes n s' g := by
  refine ⟨hinit.trans h.initial, ?_, ?_, ?_, ?_⟩
  · rw [howner]
    exact h.holders
  · rw [hcount]
    exact h.units
  · rw [howner, hqueue]
    exact h.mutex
  · rw [hcount, hqueue]
    exact h.semaphore

lemma lock (h : ObjectInv mutexes n s g) (hm : mutexes m) (hfree : s.owner m = 0) (ht : t ≠ 0)
    (howner : s'.owner = Function.update s.owner m t) (hcount : s'.count = s.count)
    (hinit : s'.initialCount = s.initialCount) (hqueue : s'.smp.waitQueue = s.smp.waitQueue)
    (hwoken : ∀ a, a ≠ m → woken' a = g.woken a) :
    ObjectInv mutexes n s' ⟨Function.update g.holders m (t :: g.holders m), g.held, woken'⟩ := by
  refine ⟨hinit.trans h.initial, fun a => ?_, ?_, fun a ha hzero hne => ?_, fun a ha hne => ?_⟩
  · rw [howner]
    rcases eq_or_ne a m with rfl | ham
    · simp only [Function.update_self, h.holders, hfree, if_true, if_neg ht]
    · simp only [Function.update_of_ne ham]
      exact h.holders a
  · rw [hcount]
    exact h.units
  · rw [howner] at hzero
    rcases eq_or_ne a m with rfl | ham
    · rw [Function.update_self] at hzero
      exact absurd hzero ht
    · rw [Function.update_of_ne ham] at hzero
      rw [hqueue] at hne
      show woken' a ≠ []
      rw [hwoken a ham]
      exact h.mutex a ha hzero hne
  · rw [hqueue] at hne
    have ham : a ≠ m := fun heq => ha (heq ▸ hm)
    show s'.count a ≤ (woken' a).length
    rw [hcount, hwoken a ham]
    exact h.semaphore a ha hne

lemma takeUnit (h : ObjectInv mutexes n s g) (hm : ¬mutexes m) (hfree : 0 < s.count m) (howner : s'.owner = s.owner)
    (hcount : s'.count = Function.update s.count m (s.count m - 1)) (hinit : s'.initialCount = s.initialCount)
    (hqueue : s'.smp.waitQueue = s.smp.waitQueue) (hwoken : ∀ a, a ≠ m → woken' a = g.woken a)
    (hlength : (g.woken m).length ≤ (woken' m).length + 1) :
    ObjectInv mutexes n s' ⟨g.holders, Function.update g.held m (g.held m + 1), woken'⟩ := by
  refine ⟨hinit.trans h.initial, ?_, fun a => ?_, fun a ha hzero hne => ?_, fun a ha hne => ?_⟩
  · rw [howner]
    exact h.holders
  · have hunits := h.units a
    rw [hcount]
    rcases eq_or_ne a m with rfl | ham
    · simp only [Function.update_self]
      omega
    · simp only [Function.update_of_ne ham]
      exact hunits
  · rw [howner] at hzero
    rw [hqueue] at hne
    show woken' a ≠ []
    rw [hwoken a (fun heq => hm (heq ▸ ha))]
    exact h.mutex a ha hzero hne
  · rw [hqueue] at hne
    have hle := h.semaphore a ha hne
    show s'.count a ≤ (woken' a).length
    rw [hcount]
    rcases eq_or_ne a m with rfl | ham
    · rw [Function.update_self]
      omega
    · rw [Function.update_of_ne ham, hwoken a ham]
      exact hle

lemma wait (h : ObjectInv mutexes n s g) (hmutex : mutexes m → s.owner m ≠ 0) (hsemaphore : ¬mutexes m → s.count m = 0)
    (howner : s'.owner = s.owner) (hcount : s'.count = s.count) (hinit : s'.initialCount = s.initialCount)
    (hqueue : ∀ a, a ≠ m → s'.smp.waitQueue a = s.smp.waitQueue a) (hwoken : ∀ a, a ≠ m → woken' a = g.woken a) :
    ObjectInv mutexes n s' ⟨g.holders, g.held, woken'⟩ := by
  refine ⟨hinit.trans h.initial, ?_, ?_, fun a ha hzero hne => ?_, fun a ha hne => ?_⟩
  · rw [howner]
    exact h.holders
  · rw [hcount]
    exact h.units
  · rw [howner] at hzero
    have ham : a ≠ m := by
      rintro rfl
      exact hmutex ha hzero
    rw [hqueue a ham] at hne
    show woken' a ≠ []
    rw [hwoken a ham]
    exact h.mutex a ha hzero hne
  · show s'.count a ≤ (woken' a).length
    rw [hcount]
    rcases eq_or_ne a m with rfl | ham
    · rw [hsemaphore ha]
      exact Nat.zero_le _
    · rw [hqueue a ham] at hne
      rw [hwoken a ham]
      exact h.semaphore a ha hne

lemma head_of_tail {l : List Nat} (h : l.tail ≠ []) : ∃ w, l.head?.toList = [w] ∧ l ≠ [] := by
  cases l with
  | nil => exact absurd rfl h
  | cons w rest => exact ⟨w, rfl, nofun⟩

lemma unlock (h : ObjectInv mutexes n s g) (hm : mutexes m) (ht : t ∈ g.holders m)
    (howner : s'.owner = Function.update s.owner m 0) (hcount : s'.count = s.count)
    (hinit : s'.initialCount = s.initialCount)
    (hqueue : s'.smp.waitQueue = Function.update s.smp.waitQueue m (s.smp.waitQueue m).tail) :
    ObjectInv mutexes n s' ⟨Function.update g.holders m ((g.holders m).erase t), g.held,
      Function.update g.woken m (g.woken m ++ (s.smp.waitQueue m).head?.toList)⟩ := by
  refine ⟨hinit.trans h.initial, fun a => ?_, ?_, fun a ha hzero hne => ?_, fun a ha hne => ?_⟩
  · rw [howner]
    rcases eq_or_ne a m with rfl | ham
    · have hholders := h.holders a
      simp only [Function.update_self, if_true]
      split at hholders
      · rw [hholders] at ht
        cases ht
      · rw [hholders] at ht ⊢
        rw [List.mem_singleton.mp ht]
        simp
    · simp only [Function.update_of_ne ham]
      exact h.holders a
  · rw [hcount]
    exact h.units
  · rw [howner] at hzero
    rw [hqueue] at hne
    rcases eq_or_ne a m with rfl | ham
    · rw [Function.update_self] at hne
      obtain ⟨w, hw, -⟩ := head_of_tail hne
      simp [hw]
    · rw [Function.update_of_ne ham] at hzero hne
      simp only [Function.update_of_ne ham]
      exact h.mutex a ha hzero hne
  · have ham : a ≠ m := fun heq => ha (heq ▸ hm)
    rw [hqueue, Function.update_of_ne ham] at hne
    simp only [hcount, Function.update_of_ne ham]
    exact h.semaphore a ha hne

lemma putUnit (h : ObjectInv mutexes n s g) (hm : ¬mutexes m) (hheld : 0 < g.held m) (howner : s'.owner = s.owner)
    (hcount : s'.count = Function.update s.count m (s.count m + 1)) (hinit : s'.initialCount = s.initialCount)
    (hqueue : s'.smp.waitQueue = Function.update s.smp.waitQueue m (s.smp.waitQueue m).tail) :
    ObjectInv mutexes n s' ⟨g.holders, Function.update g.held m (g.held m - 1),
      Function.update g.woken m (g.woken m ++ (s.smp.waitQueue m).head?.toList)⟩ := by
  refine ⟨hinit.trans h.initial, ?_, fun a => ?_, fun a ha hzero hne => ?_, fun a ha hne => ?_⟩
  · rw [howner]
    exact h.holders
  · have hunits := h.units a
    rw [hcount]
    rcases eq_or_ne a m with rfl | ham
    · simp only [Function.update_self]
      omega
    · simp only [Function.update_of_ne ham]
      exact hunits
  · have ham : a ≠ m := fun heq => hm (heq ▸ ha)
    rw [howner] at hzero
    rw [hqueue, Function.update_of_ne ham] at hne
    simp only [Function.update_of_ne ham]
    exact h.mutex a ha hzero hne
  · rw [hqueue] at hne
    rw [hcount]
    rcases eq_or_ne a m with rfl | ham
    · rw [Function.update_self] at hne
      obtain ⟨w, hw, hne'⟩ := head_of_tail hne
      have hle := h.semaphore a ha hne'
      simp only [Function.update_self, hw, List.length_append, List.length_singleton]
      omega
    · rw [Function.update_of_ne ham] at hne
      simp only [Function.update_of_ne ham]
      exact h.semaphore a ha hne

end ObjectInv

lemma LockInv.wait (h : LockInv cpus mutexes n s g) (hstep : AtStep cpus mutexes s g.woken c)
    (hpc : s.pc (s.smp.current c) = .acquire o) {smp : Smp}
    (henq : s.smp.waitqueueEnqueue o.waiters (s.smp.current c) = .ok smp)
    (hmutex : mutexes o.waiters → s.owner o.waiters ≠ 0) (hsemaphore : ¬mutexes o.waiters → s.count o.waiters = 0) :
    LockInv cpus mutexes n ({ s with smp := smp }.setPc (s.smp.current c) (.block o))
      (g.ran o.waiters (s.smp.current c)) := by
  unfold Smp.waitqueueEnqueue at henq
  obtain ⟨_, -, henq⟩ := bind_eq_ok.mp henq
  obtain rfl := Except.ok.inj henq
  constructor
  · exact hstep.join hpc rfl (congrArg Task.waitingOn (Smp.setWaitingOn_self ..))
      (fun t ht => congrArg Task.waitingOn (Smp.setWaitingOn_other _ _ _ ht))
        (fun t => Smp.setWaitingOn_cpu ..) rfl rfl rfl
  · exact h.objects.wait hmutex hsemaphore rfl rfl rfl (fun a ha => Function.update_of_ne ha ..)
      (fun a ha => Function.update_of_ne ha ..)

lemma AtStep.leaveLoop (h : AtStep cpus mutexes s woken c) (hpc : s.pc (s.smp.current c) = .acquire o)
    (hsmp : s'.smp = s.smp) (hswitching : s'.switching = s.switching)
    (hpc' : s'.pc = Function.update s.pc (s.smp.current c) .user) :
    WaiterInv cpus mutexes s' (Function.update woken o.waiters ((woken o.waiters).erase (s.smp.current c))) := by
  refine h.moveOn hsmp hswitching hpc' ?_ nofun (ran_sublist woken _ _) (h.not_pending hpc)
  rw [hpc]
  exact fun _ => ⟨nofun, nofun⟩

lemma mutexAcquire_cases (h : s.mutexAcquire c m = .ok s') :
    (s.owner m = 0 ∧ s' = { s with owner := Function.update s.owner m (s.smp.current c) }.setPc
      (s.smp.current c) .user) ∨
    (s.owner m ≠ 0 ∧ ∃ smp, s.smp.waitqueueEnqueue m (s.smp.current c) = .ok smp ∧
      s' = { s with smp := smp }.setPc (s.smp.current c) (.block (.mutex m))) := by
  unfold Sync.mutexAcquire at h
  by_cases howner : s.owner m = 0
  · rw [if_pos howner] at h
    exact .inl ⟨howner, (Except.ok.inj h).symm⟩
  · rw [if_neg howner] at h
    obtain ⟨smp, henq, h⟩ := bind_eq_ok.mp h
    exact .inr ⟨howner, smp, henq, (Except.ok.inj h).symm⟩

lemma semaphoreAcquire_cases (h : s.semaphoreAcquire c m = .ok s') :
    (0 < s.count m ∧ s' = { s with count := Function.update s.count m (s.count m - 1) }.setPc (s.smp.current c) .user) ∨
    (s.count m = 0 ∧ ∃ smp, s.smp.waitqueueEnqueue m (s.smp.current c) = .ok smp ∧
      s' = { s with smp := smp }.setPc (s.smp.current c) (.block (.semaphore m))) := by
  unfold Sync.semaphoreAcquire at h
  by_cases hcount : 0 < s.count m
  · rw [if_pos hcount] at h
    exact .inl ⟨hcount, (Except.ok.inj h).symm⟩
  · rw [if_neg hcount] at h
    obtain ⟨smp, henq, h⟩ := bind_eq_ok.mp h
    exact .inr ⟨Nat.eq_zero_of_not_pos hcount, smp, henq, (Except.ok.inj h).symm⟩

/-- The entry of a turn of the acquire loop, for a task that has left it and for one that has not. -/
lemma Ledger.next_acquire (g : Ledger) (hpc : s.pc (s.smp.current c) = .acquire o) {pc : SyncPc}
    (hpc' : s'.pc = Function.update s.pc (s.smp.current c) pc) (returned : Option Bool) :
    g.next s (.sync (.acquire c)) returned s' =
      if pc = .user then (g.ran o.waiters (s.smp.current c)).got (s.smp.current c) o
      else g.ran o.waiters (s.smp.current c) := by
  simp only [Ledger.next, hpc, hpc', Function.update_self]

lemma LockInv.acquire (h : LockInv cpus mutexes n s g) (hstep : AtStep cpus mutexes s g.woken c)
    (hrun : SyncOp.run s (.acquire c) = some (.ok s')) (returned : Option Bool) :
    LockInv cpus mutexes n s' (g.next s (.sync (.acquire c)) returned s') := by
  simp only [SyncOp.run] at hrun
  split at hrun
  case h_1 m hpc =>
    have hvalid : mutexes m ∧ m ≠ 0 := hstep.inv.valid _ (.mutex m) (by rw [hpc]; rfl)
    rcases mutexAcquire_cases (Option.some.inj hrun) with ⟨howner, rfl⟩ | ⟨howner, smp, henq, rfl⟩
    · rw [Ledger.next_acquire g hpc rfl, if_pos rfl]
      refine ⟨hstep.leaveLoop hpc rfl rfl rfl, ?_⟩
      exact h.objects.lock hvalid.1 howner hstep.ne_zero rfl rfl rfl rfl (fun a ha => Function.update_of_ne ha ..)
    · rw [Ledger.next_acquire g hpc rfl, if_neg nofun]
      exact h.wait hstep hpc henq (fun _ => howner) (fun hm => absurd hvalid.1 hm)
  case h_2 m hpc =>
    have hvalid : ¬mutexes m ∧ m ≠ 0 := hstep.inv.valid _ (.semaphore m) (by rw [hpc]; rfl)
    rcases semaphoreAcquire_cases (Option.some.inj hrun) with ⟨hcount, rfl⟩ | ⟨hcount, smp, henq, rfl⟩
    · rw [Ledger.next_acquire g hpc rfl, if_pos rfl]
      refine ⟨hstep.leaveLoop hpc rfl rfl rfl, ?_⟩
      refine h.objects.takeUnit hvalid.1 hcount rfl rfl rfl rfl (fun a ha => Function.update_of_ne ha ..) ?_
      show (g.woken m).length ≤ (Function.update g.woken m ((g.woken m).erase (s.smp.current c)) m).length + 1
      rw [Function.update_self]
      have hlength : ((g.woken m).erase (s.smp.current c)).length = _ := List.length_erase
      split at hlength <;> omega
    · rw [Ledger.next_acquire g hpc rfl, if_neg nofun]
      exact h.wait hstep hpc henq (fun hm => absurd hm hvalid.1) (fun _ => hcount)
  case h_3 => cases hrun

lemma LockInv.of_inHand {l : List Nat}
    (h : LockInv cpus mutexes n s' ((g.lost (s.smp.current c) o).dequeued o.waiters l))
    (hhand : Ledger.inHand (s'.pc (s.smp.current c)) = l) {returned : Option Bool} :
    LockInv cpus mutexes n s' (g.next s (.sync (.release c o)) returned s') := by
  subst hhand
  exact h

lemma LockInv.release (h : LockInv cpus mutexes n s g) (hstep : AtStep cpus mutexes s g.woken c)
    (hvalid : SyncObject.Valid mutexes o) (hhas : g.Has (s.smp.current c) o)
    (hrun : SyncOp.run s (.release c o) = some (.ok s')) (returned : Option Bool) :
    LockInv cpus mutexes n s' (g.next s (.sync (.release c o)) returned s') := by
  simp only [SyncOp.run] at hrun
  split at hrun
  case isTrue hpc =>
    cases o with
    | mutex m =>
      have hsection := Option.some.inj hrun
      unfold Sync.mutexRelease at hsection
      obtain ⟨_, -, hsection⟩ := bind_eq_ok.mp hsection
      obtain ⟨_, -, hsection⟩ := bind_eq_ok.mp hsection
      obtain rfl := Except.ok.inj hsection
      have hstep' : AtStep cpus mutexes { s with owner := Function.update s.owner m 0 } g.woken c :=
        ⟨hstep.inv.setObjects _ s.count, hstep.cpu, hstep.switching, hstep.ne_zero⟩
      obtain ⟨hhand, hwaiters, hqueue, howner, hcount, hinit⟩ := hstep'.dequeueWaiter hpc m
      have hunlock := h.objects.unlock hvalid.1 hhas howner hcount hinit hqueue
      refine LockInv.of_inHand (s := s) (o := .mutex m) ?_ hhand
      exact ⟨hwaiters, hunlock⟩
    | semaphore m =>
      have hsection := Option.some.inj hrun
      unfold Sync.semaphoreRelease at hsection
      obtain ⟨_, -, hsection⟩ := bind_eq_ok.mp hsection
      obtain rfl := Except.ok.inj hsection
      have hstep' : AtStep cpus mutexes { s with count := Function.update s.count m (s.count m + 1) } g.woken c :=
        ⟨hstep.inv.setObjects s.owner _, hstep.cpu, hstep.switching, hstep.ne_zero⟩
      obtain ⟨hhand, hwaiters, hqueue, howner, hcount, hinit⟩ := hstep'.dequeueWaiter hpc m
      have hput := h.objects.putUnit hvalid.1 hhas howner hcount hinit hqueue
      refine LockInv.of_inHand (s := s) (o := .semaphore m) ?_ hhand
      exact ⟨hwaiters, hput⟩
  case isFalse => cases hrun

lemma mutexTryAcquire_cases (s : Sync) (c m : Nat) :
    (s.owner m = 0 ∧ s.mutexTryAcquire c m = (true, { s with owner := Function.update s.owner m (s.smp.current c) })) ∨
    s.mutexTryAcquire c m = (false, s) := by
  unfold Sync.mutexTryAcquire
  split
  case isTrue howner => exact .inl ⟨howner, rfl⟩
  case isFalse => exact .inr rfl

lemma semaphoreTryAcquire_cases (s : Sync) (m : Nat) :
    (0 < s.count m ∧ s.semaphoreTryAcquire m = (true, { s with count := Function.update s.count m (s.count m - 1) })) ∨
    s.semaphoreTryAcquire m = (false, s) := by
  unfold Sync.semaphoreTryAcquire
  split
  case isTrue hcount => exact .inl ⟨hcount, rfl⟩
  case isFalse => exact .inr rfl

lemma LockInv.tryAcquire (h : LockInv cpus mutexes n s g) (hne : s.smp.current c ≠ 0)
    (hvalid : SyncObject.Valid mutexes o) {returned : Option Bool}
    (hrun : LockOp.run s (.tryAcquire c o) = some (.ok (returned, s'))) :
    LockInv cpus mutexes n s' (g.next s (.tryAcquire c o) returned s') := by
  simp only [LockOp.run] at hrun
  split at hrun
  case isTrue hpc =>
    cases o with
    | mutex m =>
      have hcall := Except.ok.inj (Option.some.inj hrun)
      rcases mutexTryAcquire_cases s c m with ⟨howner, htry⟩ | htry
      · rw [htry] at hcall
        obtain ⟨rfl, rfl⟩ := Prod.mk.inj hcall
        refine ⟨h.queues.setObjects _ s.count, ?_⟩
        exact h.objects.lock hvalid.1 howner hne rfl rfl rfl rfl (fun _ _ => rfl)
      · rw [htry] at hcall
        obtain ⟨rfl, rfl⟩ := Prod.mk.inj hcall
        exact h
    | semaphore m =>
      have hcall := Except.ok.inj (Option.some.inj hrun)
      rcases semaphoreTryAcquire_cases s m with ⟨hcount, htry⟩ | htry
      · rw [htry] at hcall
        obtain ⟨rfl, rfl⟩ := Prod.mk.inj hcall
        refine ⟨h.queues.setObjects s.owner _, ?_⟩
        exact h.objects.takeUnit hvalid.1 hcount rfl rfl rfl rfl (fun _ _ => rfl) (Nat.le_succ _)
      · rw [htry] at hcall
        obtain ⟨rfl, rfl⟩ := Prod.mk.inj hcall
        exact h
  case isFalse => cases hrun

lemma inLoop_update (s : Sync) {pc : SyncPc} (hloop : inLoop pc = inLoop (s.pc (s.smp.current c))) (t : Nat) :
    inLoop (Function.update s.pc (s.smp.current c) pc t) = inLoop (s.pc t) := by
  rcases eq_or_ne t (s.smp.current c) with rfl | ht
  · rw [Function.update_self, hloop]
  · rw [Function.update_of_ne ht]

lemma LockOp.run_sync {op : SyncOp} {returned : Option Bool} (h : LockOp.run s (.sync op) = some (.ok (returned, s'))) :
    op.run s = some (.ok s') := by
  obtain ⟨r, hrun, heq⟩ := Option.map_eq_some_iff.mp h
  cases r with
  | error e => cases heq
  | ok s₁ =>
    obtain ⟨-, rfl⟩ := Prod.mk.inj (Except.ok.inj heq)
    exact hrun

lemma LockInv.op (h : LockInv cpus mutexes n s g) {op : LockOp} (hop : LockOp.Allowed cpus mutexes s g op)
    {returned : Option Bool} (hrun : op.run s = some (.ok (returned, s'))) :
    LockInv cpus mutexes n s' (g.next s op returned s') := by
  obtain ⟨hc, hop⟩ := hop
  have hstep : ∀ {c}, cpus c → s.switching c = false ∧ s.smp.current c ≠ 0 → AtStep cpus mutexes s g.woken c :=
    fun hc hcur => ⟨h.queues, hc, hcur.1, hcur.2⟩
  cases op with
  | tryAcquire c o => exact h.tryAcquire hop.1.2 hop.2 hrun
  | sync op =>
    replace hrun := LockOp.run_sync hrun
    cases op with
    | call c o =>
      change cpus c at hc
      obtain ⟨hcur, hvalid⟩ := hop
      simp only [SyncOp.run] at hrun
      split at hrun
      case isTrue hpc =>
        obtain rfl := Except.ok.inj (Option.some.inj hrun)
        have hold : ∀ o, s.pc (s.smp.current c) ≠ .block o ∧ s.pc (s.smp.current c) ≠ .switch o := by
          rw [hpc]
          exact fun _ => ⟨nofun, nofun⟩
        have hnot : ∀ m, s.smp.current c ∉ g.woken m := by
          intro m hin
          obtain ⟨o', ho', -⟩ := h.queues.pending m _ hin
          rw [hpc] at ho'
          cases ho'
        have hmove : WaiterInv cpus mutexes (s.setPc (s.smp.current c) (.acquire o)) g.woken := by
          have hsmp : (s.setPc (s.smp.current c) (.acquire o)).smp = s.smp := rfl
          refine (hstep hc hcur).moveOn hsmp rfl rfl hold (fun o' ho' => ?_) (fun m => List.Sublist.refl _) hnot
          obtain rfl := Option.some.inj ho'
          exact hvalid
        exact ⟨hmove, h.objects.same rfl rfl rfl rfl⟩
      case isFalse => cases hrun
    | acquire c => exact h.acquire (hstep hc hop) hrun returned
    | block c =>
      change cpus c at hc
      simp only [SyncOp.run] at hrun
      split at hrun
      case h_1 o hpc =>
        obtain ⟨smp, hblock, hrun⟩ := bind_eq_ok.mp (Option.some.inj hrun)
        obtain rfl := Except.ok.inj hrun
        unfold Smp.blockCurrent at hblock
        obtain ⟨_, -, hblock⟩ := bind_eq_ok.mp hblock
        obtain ⟨_, -, hblock⟩ := bind_eq_ok.mp hblock
        obtain ⟨_, -, hblock⟩ := bind_eq_ok.mp hblock
        obtain ⟨_, -, hblock⟩ := bind_eq_ok.mp hblock
        obtain ⟨_, -, hblock⟩ := bind_eq_ok.mp hblock
        obtain rfl := Except.ok.inj hblock
        refine ⟨(hstep hc hop).schedule rfl (fun t => Smp.setState_waitingOn ..)
          (fun t => Smp.setState_cpu ..) rfl rfl rfl
          (by rw [hpc]; rfl) (.inl ⟨o, .inr rfl⟩), h.objects.same rfl rfl rfl rfl⟩
      case h_2 => cases hrun
    | leave c =>
      change cpus c at hc
      simp only [SyncOp.run] at hrun
      split at hrun
      case h_1 o hpc =>
        obtain ⟨smp, hput, hrun⟩ := bind_eq_ok.mp (Option.some.inj hrun)
        obtain rfl := Except.ok.inj hrun
        refine ⟨h.queues.beginSwitch hput (inLoop_update s (by rw [hpc]; rfl)) ?_,
          h.objects.same rfl rfl rfl (calm_putBackPrev hput).1.waitQueue⟩
        exact fun d hd hdc _ => Function.update_of_ne ((hstep hc hop).other hd hdc) ..
      case h_2 => cases hrun
    | release c o => exact h.release (hstep hc hop.1) hop.2.1 hop.2.2 hrun returned
    | wake c =>
      change cpus c at hc
      simp only [SyncOp.run] at hrun
      split at hrun
      case h_1 w hpc =>
        obtain ⟨smp, hwake, hrun⟩ := bind_eq_ok.mp (Option.some.inj hrun)
        obtain rfl := Except.ok.inj hrun
        obtain ⟨hqueue, hwaiting, hcpu, hcurrent⟩ := schedulerWakeBlocked_effect hwake
        have hold : ∀ o, s.pc (s.smp.current c) ≠ .block o ∧ s.pc (s.smp.current c) ≠ .switch o := by
          rw [hpc]
          exact fun _ => ⟨nofun, nofun⟩
        exact ⟨(hstep hc hop).schedule hqueue hwaiting hcpu hcurrent rfl rfl (by rw [hpc]; rfl)
          (.inr ((hstep hc hop).waitingOn hold)), h.objects.same rfl rfl rfl hqueue⟩
      case h_2 => cases hrun
    | timer c =>
      obtain ⟨smp, hput, hrun⟩ := bind_eq_ok.mp (Option.some.inj hrun)
      obtain rfl := Except.ok.inj hrun
      exact ⟨h.queues.beginSwitch hput (fun _ => rfl) (fun _ _ _ _ => rfl),
        h.objects.same rfl rfl rfl (calm_putBackPrev hput).1.waitQueue⟩
    | pick c =>
      have hend := Option.some.inj hrun
      refine ⟨h.queues.endSwitch hend, ?_⟩
      unfold Sync.endSwitch at hend
      obtain ⟨smp, hswitch, hend⟩ := bind_eq_ok.mp hend
      obtain rfl := Except.ok.inj hend
      obtain ⟨rfl, -, -⟩ := switchTo_ok hswitch
      exact h.objects.same rfl rfl rfl (schedulerPickNext_effect s.smp c).1.waitQueue

/-- A step of a run that no assertion stops, with its entry in the ledger. -/
def LockStep (cpus mutexes : Nat → Prop) (x y : Sync × Ledger) : Prop :=
  ∃ op returned, LockOp.Allowed cpus mutexes x.1 x.2 op ∧ op.run x.1 = some (.ok (returned, y.1)) ∧
    y.2 = x.2.next x.1 op returned y.1

/-- Before the first call nobody waits or holds anything. -/
structure LockStart (cpus : Nat → Prop) (s : Sync) (g : Ledger) : Prop where
  nobody : ∀ wq, s.smp.waitQueue wq = []
  current : ∀ c, cpus c → s.smp.current c ≠ 0 → (s.smp.task (s.smp.current c)).cpu = c
  waiting : ∀ t, (s.smp.task t).waitingOn = 0
  pc : ∀ t, s.pc t = .user
  owner : ∀ m, s.owner m = 0
  count : ∀ m, s.count m = s.initialCount m
  ledger : g = ⟨fun _ => [], fun _ => 0, fun _ => []⟩

lemma LockStart.inv (h : LockStart cpus s g) : LockInv cpus mutexes s.initialCount s g := by
  have hnot : ∀ wq t, t ∉ s.smp.waitQueue wq := by
    intro wq t ht
    rw [h.nobody] at ht
    cases ht
  have hloop : ∀ t, inLoop (s.pc t) = none := by
    intro t
    rw [h.pc]
    rfl
  rw [h.ledger]
  constructor
  · refine ⟨fun wq t ht => absurd ht (hnot wq t), fun wq t ht => absurd ht (hnot wq t), fun wq => ?_,
      fun wq t ht => absurd ht (hnot wq t), h.current,
      fun c _ _ _ hwait => absurd (h.waiting _) hwait, fun t o ho => ?_, fun m t ht => (nomatch ht),
      fun _ => List.nodup_nil, fun m t ht => (nomatch ht)⟩
    · rw [h.nobody]
      exact List.nodup_nil
    · rw [hloop] at ho
      cases ho
  · refine ⟨rfl, fun m => ?_, fun m => h.count m, fun m _ _ hne => absurd (h.nobody m) hne,
      fun m _ hne => absurd (h.nobody m) hne⟩
    rw [h.owner, if_pos rfl]

lemma LockInv.run {x y : Sync × Ledger} (h : LockInv cpus mutexes n x.1 x.2)
    (hrun : Relation.ReflTransGen (LockStep cpus mutexes) x y) : LockInv cpus mutexes n y.1 y.2 := by
  induction hrun with
  | refl => exact h
  | tail _ hstep ih =>
    obtain ⟨op, returned, hop, hrun, hledger⟩ := hstep
    rw [hledger]
    exact ih.op hop hrun

/-- **Mutex safety.** The owner is the task that has acquired the mutex and has not begun to release
it, and a free mutex with waiters has a waiter that a release has taken off the queue and that is
still to run its loop again. -/
theorem mutex_owner_is_holder {x : Sync × Ledger} (hstart : LockStart cpus s g)
    (hrun : Relation.ReflTransGen (LockStep cpus mutexes) (s, g) x) (hm : mutexes m) :
    (∀ t, t ≠ 0 → (x.1.owner m = t ↔ t ∈ x.2.holders m)) ∧ (x.2.holders m).length ≤ 1 ∧
      (x.1.owner m = 0 → x.1.smp.waitQueue m ≠ [] →
        ∃ t ∈ x.2.woken m, inLoop (x.1.pc t) = some (.mutex m)) := by
  have hinv : LockInv cpus mutexes s.initialCount x.1 x.2 := LockInv.run hstart.inv hrun
  have hholders := hinv.objects.holders m
  refine ⟨fun t ht => ?_, ?_, fun howner hne => ?_⟩
  · rw [hholders]
    split
    case isTrue hzero =>
      rw [hzero]
      exact ⟨fun heq => absurd heq.symm ht, fun hin => (nomatch hin)⟩
    case isFalse => rw [List.mem_singleton, eq_comm]
  · rw [hholders]
    split
    · exact Nat.zero_le 1
    · exact Nat.le_refl 1
  · obtain ⟨t, ht⟩ := List.exists_mem_of_ne_nil _ (hinv.objects.mutex m hm howner hne)
    obtain ⟨o, ho, hwaiters⟩ := hinv.queues.pending m t ht
    have hvalid := hinv.queues.valid t o ho
    refine ⟨t, ht, ?_⟩
    cases o with
    | mutex a =>
      obtain rfl : a = m := hwaiters
      exact ho
    | semaphore a =>
      obtain rfl : a = m := hwaiters
      exact absurd hm hvalid.1

/-- Task 11 runs on CPU 1 and task 12 on CPU 2, whose run queue has task 13. -/
def lockBoot : Sync where
  smp := { twoCpus with
    task := fun t => if t = 13 then ⟨2, .READY, 0, 0, 0⟩ else twoCpuTask t
    runQueue := fun c => if c = 2 then [13] else [] }
  switching _ := false
  pc _ := .user
  owner _ := 0
  count _ := 1
  initialCount _ := 1

def emptyLedger : Ledger := ⟨fun _ => [], fun _ => 0, fun _ => []⟩

lemma lockBoot_start : LockStart OneOrTwo lockBoot emptyLedger := by
  refine ⟨fun _ => rfl, ?_, fun t => ?_, fun _ => rfl, fun _ => rfl, fun _ => rfl, rfl⟩
  · rintro c (rfl | rfl) - <;> rfl
  · by_cases ht : t = 13
    · simp [lockBoot, ht]
    · simp only [lockBoot, if_neg ht]
      exact (twoCpuTask_cases t).1

/-- A step on the state and its ledger. -/
def lockRun (x : Sync × Ledger) (op : LockOp) : Option (Except Halt (Sync × Ledger)) :=
  (op.run x.1).map fun r => r.map fun y => (y.2, x.2.next x.1 op y.1 y.2)

/-- The mutex is at address 0x500, and 0x600 is a semaphore. -/
def lockValid : SyncObject → Bool
  | .mutex m => m == 0x500
  | .semaphore m => m == 0x600

def lockHas (g : Ledger) (t : Nat) : SyncObject → Bool
  | .mutex m => decide (t ∈ g.holders m)
  | .semaphore m => decide (0 < g.held m)

/-- The step is allowed on the two CPUs. -/
def lockAllowed (x : Sync × Ledger) (op : LockOp) : Bool :=
  (op.cpu == 1 || op.cpu == 2) && match op with
    | .sync (.pick c) => x.1.switching c
    | .sync (.timer c) => !x.1.switching c
    | .sync (.acquire c) | .sync (.block c) | .sync (.leave c) | .sync (.wake c) =>
      !x.1.switching c && x.1.smp.current c != 0
    | .sync (.call c o) | .tryAcquire c o => !x.1.switching c && x.1.smp.current c != 0 && lockValid o
    | .sync (.release c o) =>
      !x.1.switching c && x.1.smp.current c != 0 && lockValid o && lockHas x.2 (x.1.smp.current c) o

lemma lockStep_of_lockAllowed {x y : Sync × Ledger} {op : LockOp} (hop : lockAllowed x op = true)
    (hrun : lockRun x op = some (.ok y)) : LockStep OneOrTwo (· = 0x500) x y := by
  obtain ⟨r, hr, heq⟩ := Option.map_eq_some_iff.mp hrun
  cases r with
  | error e => cases heq
  | ok r =>
    obtain rfl := Except.ok.inj heq
    refine ⟨op, r.1, ?_, hr, rfl⟩
    obtain ⟨hcpu, hop⟩ := (Bool.and_eq_true _ _).mp hop
    have hvalid : ∀ {o}, lockValid o = true → SyncObject.Valid (· = 0x500) o := by
      intro o ho
      cases o with
      | mutex m =>
        obtain rfl := beq_iff_eq.mp ho
        exact ⟨rfl, by decide⟩
      | semaphore m =>
        obtain rfl := beq_iff_eq.mp ho
        exact ⟨by decide, by decide⟩
    have hhas : ∀ {o}, lockHas x.2 (x.1.smp.current op.cpu) o = true → x.2.Has (x.1.smp.current op.cpu) o := by
      intro o ho
      cases o with
      | mutex m => exact (of_decide_eq_true ho : x.1.smp.current op.cpu ∈ x.2.holders m)
      | semaphore m => exact (of_decide_eq_true ho : 0 < x.2.held m)
    refine ⟨by simpa [OneOrTwo] using hcpu, ?_⟩
    cases op with
    | tryAcquire c o =>
      simp only [Bool.and_eq_true, Bool.not_eq_true', bne_iff_ne] at hop
      exact ⟨hop.1, hvalid hop.2⟩
    | sync op =>
      cases op with
      | pick c => exact hop
      | timer c => simpa using hop
      | acquire c | block c | leave c | wake c =>
        simp only [Bool.and_eq_true, Bool.not_eq_true', bne_iff_ne] at hop
        exact hop
      | call c o =>
        simp only [Bool.and_eq_true, Bool.not_eq_true', bne_iff_ne] at hop
        exact ⟨hop.1, hvalid hop.2⟩
      | release c o =>
        simp only [Bool.and_eq_true, Bool.not_eq_true', bne_iff_ne] at hop
        exact ⟨hop.1.1, hvalid hop.1.2, hhas hop.2⟩

lemma lockRun_steps (ops : List LockOp) (hall : checkSteps lockRun lockAllowed (lockBoot, emptyLedger) ops = true)
    (hsome : (runSteps lockRun (lockBoot, emptyLedger) ops).isSome = true) :
    Relation.ReflTransGen (LockStep OneOrTwo (· = 0x500)) (lockBoot, emptyLedger)
      (afterSteps lockRun (lockBoot, emptyLedger) ops) :=
  runSteps_rel lockStep_of_lockAllowed hall (runSteps_afterSteps hsome)

/-- Task 11 acquires the object `o`, and the tasks 12 and 13 wait for it. -/
def twoWait (o : SyncObject) : List LockOp :=
  [.call 1 o, .acquire 1, .call 2 o, .acquire 2, .block 2, .leave 2, .pick 2, .call 2 o, .acquire 2].map .sync

/-- The mutex is free while task 13 waits, and task 12 is on its way. -/
theorem mutex_owner_is_holder_released : LockStart OneOrTwo lockBoot emptyLedger ∧
    ∃ x, Relation.ReflTransGen (LockStep OneOrTwo (· = 0x500)) (lockBoot, emptyLedger) x ∧
      x.1.owner 0x500 = 0 ∧ x.1.smp.waitQueue 0x500 = [13] ∧ x.2.woken 0x500 = [12] ∧
      (∀ t, t ≠ 0 → (x.1.owner 0x500 = t ↔ t ∈ x.2.holders 0x500)) ∧ (x.2.holders 0x500).length ≤ 1 ∧
      (x.1.owner 0x500 = 0 → x.1.smp.waitQueue 0x500 ≠ [] →
        ∃ t ∈ x.2.woken 0x500, inLoop (x.1.pc t) = some (.mutex 0x500)) := by
  have hrun := lockRun_steps (twoWait (.mutex 0x500) ++ [.sync (.release 1 (.mutex 0x500))])
    (by decide +kernel) (by decide +kernel)
  exact ⟨lockBoot_start, _, hrun, by decide +kernel, by decide +kernel, by decide +kernel,
    mutex_owner_is_holder lockBoot_start hrun rfl⟩

/-- **Semaphore conservation.** Free and taken units make up the initial count, so that the assertion
of `semaphore_release` holds; and when tasks wait, no more units are free than there are waiters that
a release has taken off the queue and that are still to run their loops again. -/
theorem semaphore_units_conserved {x : Sync × Ledger} (hstart : LockStart cpus s g)
    (hrun : Relation.ReflTransGen (LockStep cpus mutexes) (s, g) x) (hm : ¬mutexes m) :
    x.1.count m + x.2.held m = s.initialCount m ∧
      (∀ c e, LockOp.Allowed cpus mutexes x.1 x.2 (.sync (.release c (.semaphore m))) →
        LockOp.run x.1 (.sync (.release c (.semaphore m))) ≠ some (.error e)) ∧
      (x.1.smp.waitQueue m ≠ [] → x.1.count m ≤ (x.2.woken m).length ∧ (x.2.woken m).Nodup ∧
        ∀ t ∈ x.2.woken m, inLoop (x.1.pc t) = some (.semaphore m)) := by
  have hinv : LockInv cpus mutexes s.initialCount x.1 x.2 := LockInv.run hstart.inv hrun
  have hunits := hinv.objects.units m
  refine ⟨hunits, ?_, fun hne => ⟨hinv.objects.semaphore m hm hne, hinv.queues.woken_nodup m, fun t ht => ?_⟩⟩
  · rintro c e ⟨-, -, -, hheld⟩ hfail
    have hheld : 0 < x.2.held m := hheld
    have hlt : x.1.count m < x.1.initialCount m := by
      rw [hinv.objects.initial]
      omega
    simp only [LockOp.run, SyncOp.run] at hfail
    split at hfail
    case isTrue =>
      have hsection := Option.some.inj hfail
      unfold Sync.semaphoreRelease at hsection
      rw [assertThat_true hlt] at hsection
      cases hsection
    case isFalse => cases hfail
  · obtain ⟨o, ho, hwaiters⟩ := hinv.queues.pending m t ht
    have hvalid := hinv.queues.valid t o ho
    cases o with
    | mutex a =>
      obtain rfl : a = m := hwaiters
      exact absurd hvalid.1 hm
    | semaphore a =>
      obtain rfl : a = m := hwaiters
      exact ho

/-- One unit is free while task 13 waits, and task 12 is on its way to it. -/
theorem semaphore_units_conserved_released : LockStart OneOrTwo lockBoot emptyLedger ∧
    ∃ x, Relation.ReflTransGen (LockStep OneOrTwo (· = 0x500)) (lockBoot, emptyLedger) x ∧
      x.1.count 0x600 = 1 ∧ x.1.smp.waitQueue 0x600 = [13] ∧ x.2.woken 0x600 = [12] ∧
      x.1.count 0x600 + x.2.held 0x600 = lockBoot.initialCount 0x600 := by
  have hrun := lockRun_steps (twoWait (.semaphore 0x600) ++ [.sync (.release 1 (.semaphore 0x600))])
    (by decide +kernel) (by decide +kernel)
  exact ⟨lockBoot_start, _, hrun, by decide +kernel, by decide +kernel, by decide +kernel,
    (semaphore_units_conserved lockBoot_start hrun (by decide)).1⟩

end KaworuOS.Proofs
