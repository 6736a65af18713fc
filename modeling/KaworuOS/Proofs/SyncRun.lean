import KaworuOS.Sync
import KaworuOS.Lib.Run
import KaworuOS.Proofs.Smp
import Mathlib.Logic.Relation

/-!
# Runs of mutexes and semaphores on several CPUs

A waiter is on the wait queue while it is still running, until `scheduler_block_current` has marked
it as blocked and has switched away from it. In an orderly run no release and no switch falls into
this window at the wrong place, and then no assertion fails.
-/

namespace KaworuOS.Proofs
open Lib

/-- What the callers promise and the hardware does: the step is on a CPU, `pick` is the step that
follows the first half of a switch, a call is made by a task that is neither idle nor cleanup, and a
release by a task that has the object. -/
def SyncOp.Allowed (cpus : Nat → Prop) (s : Sync) (op : SyncOp) : Prop :=
  cpus op.cpu ∧
  match op with
  | .pick c => s.switching c = true
  | .timer c => s.switching c = false
  | .acquire c | .block c | .leave c | .wake c => s.switching c = false ∧ s.smp.current c ≠ 0
  | .call c o => (s.switching c = false ∧ s.smp.current c ≠ 0) ∧ ¬Special s.smp (s.smp.current c) ∧ o.waiters ≠ 0
  | .release c o => (s.switching c = false ∧ s.smp.current c ≠ 0) ∧ ¬Special s.smp (s.smp.current c) ∧
    match o with
    | .mutex m => s.owner m = s.smp.current c
    | .semaphore m => s.count m < s.initialCount m

/-- A release takes a waiter off the queue only when the waiter is marked as blocked; and a CPU
switches neither away from a task that is on a wait queue and not yet marked, nor from one that a
release has taken off the queue and not yet woken. -/
def SyncOp.Orderly (s : Sync) : SyncOp → Prop
  | .release _ o => ∀ w ∈ (s.smp.waitQueue o.waiters).head?, (s.smp.task w).state = .BLOCKED
  | .leave c | .timer c => (∀ o, s.pc (s.smp.current c) ≠ .block o) ∧ ∀ t, s.pc t ≠ .wake (s.smp.current c)
  | _ => True

/-- The invariant of orderly runs. -/
structure SyncInv (cpus : Nat → Prop) (s : Sync) : Prop where
  smp : SmpInv cpus s.smp
  block : ∀ t o, s.pc t = .block o → (s.smp.task t).state = .RUNNING ∧ (s.smp.task t).waitingOn ≠ 0 ∧
    s.smp.current (s.smp.task t).cpu = t
  acquire : ∀ t o, s.pc t = .acquire o ∨ s.pc t = .block o ∨ s.pc t = .switch o → o.waiters ≠ 0
  waiter : ∀ wq, ∀ t ∈ s.smp.waitQueue wq, (s.smp.task t).state = .RUNNING → ∃ o, s.pc t = .block o
  blocked : ∀ t, (s.smp.task t).state = .BLOCKED → (s.smp.task t).waitingOn = 0 → ∃ r, s.pc r = .wake t
  wake : ∀ r t, s.pc r = .wake t → t ≠ 0 ∧ (s.smp.task t).state = .BLOCKED ∧ (s.smp.task t).waitingOn = 0
  wake_unique : ∀ r r' t, s.pc r = .wake t → s.pc r' = .wake t → r = r'
  current : ∀ c, cpus c → s.smp.current c ≠ 0 → s.switching c = false →
    (s.smp.task (s.smp.current c)).state = .RUNNING ∨ ∃ o, s.pc (s.smp.current c) = .switch o
  switching : ∀ c, cpus c → s.switching c = true → (s.smp.task (s.smp.current c)).state = .RUNNING →
    s.smp.current c ≠ 0 → Special s.smp (s.smp.current c)
  special : ∀ t, s.pc t ≠ .user → ¬Special s.smp t

variable {cpus : Nat → Prop} {s s' : Sync} {c t : Nat} {o : SyncObject}

lemma setPc_self (s : Sync) (t : Nat) (pc : SyncPc) : (s.setPc t pc).pc t = pc := Function.update_self ..

lemma setPc_other (s : Sync) {u : Nat} (pc : SyncPc) (hu : u ≠ t) : (s.setPc t pc).pc u = s.pc u :=
  Function.update_of_ne hu ..

/-- The program counters after one task has moved on. -/
lemma setPc_cases (s : Sync) (t u : Nat) (pc pc' : SyncPc) (h : (s.setPc t pc).pc u = pc') :
    u = t ∧ pc' = pc ∨ u ≠ t ∧ s.pc u = pc' := by
  by_cases hu : u = t
  · subst hu
    rw [setPc_self] at h
    exact .inl ⟨rfl, h.symm⟩
  · rw [setPc_other s pc hu] at h
    exact .inr ⟨hu, h⟩

namespace SyncInv

lemma current_running (h : SyncInv cpus s) (hc : cpus c) (hne : s.smp.current c ≠ 0) (hsw : s.switching c = false)
    (hpc : ∀ o, s.pc (s.smp.current c) ≠ .switch o) : (s.smp.task (s.smp.current c)).state = .RUNNING :=
  (h.current c hc hne hsw).resolve_right (fun ⟨o, ho⟩ => hpc o ho)

lemma waitingOn_of_running (h : SyncInv cpus s) (hst : (s.smp.task t).state = .RUNNING)
    (hpc : ∀ o, s.pc t ≠ .block o) : (s.smp.task t).waitingOn = 0 := by
  by_contra hne
  obtain ⟨o, ho⟩ := h.waiter _ t ((h.smp.task t).waiting hne) hst
  exact hpc o ho

/-- The task `t` moves on to `pc`. Its own fields and those of `w` change as given, but not who is
current. -/
structure Moves (s s' : Sync) (t w : Nat) (pc : SyncPc) : Prop where
  static : Static s.smp s'.smp
  current : s'.smp.current = s.smp.current
  switching : s'.switching = s.switching
  pc_self : s'.pc t = pc
  pc_other : ∀ u, u ≠ t → s'.pc u = s.pc u
  task : ∀ u, u ≠ t → u ≠ w → s'.smp.task u = s.smp.task u
  queue : ∀ wq u, u ≠ t → u ≠ w → u ∈ s'.smp.waitQueue wq → u ∈ s.smp.waitQueue wq

/-- The parts of the invariant that promise a task at a certain program counter. -/
structure Promises (cpus : Nat → Prop) (s : Sync) : Prop where
  waiter : ∀ wq, ∀ t ∈ s.smp.waitQueue wq, (s.smp.task t).state = .RUNNING → ∃ o, s.pc t = .block o
  blocked : ∀ t, (s.smp.task t).state = .BLOCKED → (s.smp.task t).waitingOn = 0 → ∃ r, s.pc r = .wake t
  current : ∀ c, cpus c → s.smp.current c ≠ 0 → s.switching c = false →
    (s.smp.task (s.smp.current c)).state = .RUNNING ∨ ∃ o, s.pc (s.smp.current c) = .switch o

lemma goOn_promises (h : SyncInv cpus s) {pc : SyncPc} (hsmp : s'.smp = s.smp) (hm : Moves s s' t t pc)
    (hold : s.pc t = .user ∨ ∃ o, s.pc t = .acquire o) : Promises cpus s' := by
  have hother : ∀ {u pc'}, s.pc u = pc' → pc' ≠ .user → (∀ o, pc' ≠ .acquire o) → s'.pc u = pc' := by
    intro u pc' hu h1 h2
    rw [hm.pc_other u, hu]
    rintro rfl
    rcases hold with h0 | ⟨o, h0⟩
    · exact h1 (hu.symm.trans h0)
    · exact h2 o (hu.symm.trans h0)
  constructor
  · intro wq u hin hst
    rw [hsmp] at hin hst
    obtain ⟨o, ho⟩ := h.waiter wq u hin hst
    exact ⟨o, hother ho (by simp) (by simp)⟩
  · intro u hst hwait
    rw [hsmp] at hst hwait
    obtain ⟨r, hr⟩ := h.blocked u hst hwait
    exact ⟨r, hother hr (by simp) (by simp)⟩
  · intro c hc hne hsw
    rw [hsmp] at hne ⊢
    rw [hm.switching] at hsw
    rcases h.current c hc hne hsw with hrun | ⟨o, ho⟩
    · exact .inl hrun
    · exact .inr ⟨o, hother ho (by simp) (by simp)⟩

lemma goOn (h : SyncInv cpus s) {pc : SyncPc} (hsmp : s'.smp = s.smp) (hm : Moves s s' t t pc)
    (hold : s.pc t = .user ∨ ∃ o, s.pc t = .acquire o)
    (hnew : pc = .user ∨ ∃ o, pc = .acquire o ∧ o.waiters ≠ 0 ∧ ¬Special s.smp t) : SyncInv cpus s' := by
  obtain ⟨p1, p2, p3⟩ := h.goOn_promises hsmp hm hold
  obtain ⟨-, -, m3, m4, m5, -, -⟩ := hm
  obtain ⟨h1, h2, h3, -, -, h6, h7, -, h9, h10⟩ := h
  refine ⟨hsmp ▸ h1, ?_, ?_, p1, p2, ?_, ?_, p3, ?_, ?_⟩ <;> grind

lemma join (h : SyncInv cpus s) (hinv : SmpInv cpus s'.smp) (hm : Moves s s' t t (.block o))
    (hold : s.pc t = .acquire o) (hst : (s'.smp.task t).state = .RUNNING) (hwait : (s'.smp.task t).waitingOn ≠ 0)
    (hcur : s.smp.current (s.smp.task t).cpu = t) (hrun : (s.smp.task t).state = .RUNNING) : SyncInv cpus s' := by
  have hspecial := hm.static.special
  have hcpu := hm.static.cpu
  have hpromises : Promises cpus s' := by
    constructor
    · intro wq u hin hst'
      by_cases hu : u = t
      · exact ⟨o, hu ▸ hm.pc_self⟩
      · rw [hm.task u hu hu] at hst'
        obtain ⟨o', ho'⟩ := h.waiter wq u (hm.queue wq u hu hu hin) hst'
        exact ⟨o', (hm.pc_other u hu).trans ho'⟩
    · intro u hst' hwait'
      have hu : u ≠ t := by
        rintro rfl
        exact hwait hwait'
      rw [hm.task u hu hu] at hst' hwait'
      obtain ⟨r, hr⟩ := h.blocked u hst' hwait'
      refine ⟨r, (hm.pc_other r ?_).trans hr⟩
      rintro rfl
      rw [hold] at hr
      cases hr
    · intro c hc hne hsw
      rw [hm.current] at hne ⊢
      rw [hm.switching] at hsw
      by_cases hu : s.smp.current c = t
      · exact .inl (hu ▸ hst)
      · rw [hm.task _ hu hu, hm.pc_other _ hu]
        exact h.current c hc hne hsw
  obtain ⟨p1, p2, p3⟩ := hpromises
  obtain ⟨-, m2, m3, m4, m5, m6, m7⟩ := hm
  obtain ⟨-, h2, h3, -, -, h6, h7, -, h9, h10⟩ := h
  refine ⟨hinv, ?_, ?_, p1, p2, ?_, ?_, p3, ?_, ?_⟩ <;> grind

lemma mark (h : SyncInv cpus s) (hinv : SmpInv cpus s'.smp) (hm : Moves s s' t t (.switch o))
    (hold : s.pc t = .block o) (hst : (s'.smp.task t).state = .BLOCKED)
    (hwait : (s'.smp.task t).waitingOn = (s.smp.task t).waitingOn) : SyncInv cpus s' := by
  have hspecial := hm.static.special
  have hcpu := hm.static.cpu
  have hpromises : Promises cpus s' := by
    constructor
    · intro wq u hin hst'
      have hu : u ≠ t := by
        rintro rfl
        rw [hst] at hst'
        cases hst'
      rw [hm.task u hu hu] at hst'
      obtain ⟨o', ho'⟩ := h.waiter wq u (hm.queue wq u hu hu hin) hst'
      exact ⟨o', (hm.pc_other u hu).trans ho'⟩
    · intro u hst' hwait'
      have hu : u ≠ t := by
        rintro rfl
        rw [hwait] at hwait'
        exact (h.block u o hold).2.1 hwait'
      rw [hm.task u hu hu] at hst' hwait'
      obtain ⟨r, hr⟩ := h.blocked u hst' hwait'
      refine ⟨r, (hm.pc_other r ?_).trans hr⟩
      rintro rfl
      rw [hold] at hr
      cases hr
    · intro c hc hne hsw
      rw [hm.current] at hne ⊢
      rw [hm.switching] at hsw
      by_cases hu : s.smp.current c = t
      · exact .inr ⟨o, hu ▸ hm.pc_self⟩
      · rw [hm.task _ hu hu, hm.pc_other _ hu]
        exact h.current c hc hne hsw
  obtain ⟨p1, p2, p3⟩ := hpromises
  obtain ⟨-, m2, m3, m4, m5, m6, m7⟩ := hm
  obtain ⟨-, h2, h3, -, -, h6, h7, -, h9, h10⟩ := h
  refine ⟨hinv, ?_, ?_, p1, p2, ?_, ?_, p3, ?_, ?_⟩ <;> grind

lemma take (h : SyncInv cpus s) {w : Nat} (hinv : SmpInv cpus s'.smp) (hm : Moves s s' t w (.wake w))
    (hold : s.pc t = .user) (hnot : ¬Special s.smp t) (htask : s'.smp.task t = s.smp.task t)
    (hqueue : ∀ wq, t ∈ s'.smp.waitQueue wq → t ∈ s.smp.waitQueue wq) (hne : w ≠ 0) (htw : t ≠ w)
    (hst : (s.smp.task w).state = .BLOCKED) (hst' : (s'.smp.task w).state = .BLOCKED)
    (hwait : (s.smp.task w).waitingOn ≠ 0) (hwait' : (s'.smp.task w).waitingOn = 0) : SyncInv cpus s' := by
  have hspecial := hm.static.special
  have hcpu := hm.static.cpu
  have hsame : ∀ u, u ≠ w → s'.smp.task u = s.smp.task u := by
    intro u hu
    by_cases hut : u = t
    · rw [hut, htask]
    · exact hm.task u hut hu
  have hpromises : Promises cpus s' := by
    constructor
    · intro wq u hin hrun
      have hu : u ≠ w := by
        rintro rfl
        rw [hst'] at hrun
        cases hrun
      rw [hsame u hu] at hrun
      by_cases hut : u = t
      · subst hut
        obtain ⟨o', ho'⟩ := h.waiter wq u (hqueue wq hin) hrun
        rw [hold] at ho'
        cases ho'
      · obtain ⟨o', ho'⟩ := h.waiter wq u (hm.queue wq u hut hu hin) hrun
        exact ⟨o', (hm.pc_other u hut).trans ho'⟩
    · intro u hblocked hzero
      by_cases hu : u = w
      · exact ⟨t, hu ▸ hm.pc_self⟩
      · rw [hsame u hu] at hblocked hzero
        obtain ⟨r, hr⟩ := h.blocked u hblocked hzero
        refine ⟨r, (hm.pc_other r ?_).trans hr⟩
        rintro rfl
        rw [hold] at hr
        cases hr
    · intro c hc hne' hsw
      rw [hm.current] at hne' ⊢
      rw [hm.switching] at hsw
      rcases h.current c hc hne' hsw with hrun | ⟨o, ho⟩
      · refine .inl ?_
        rw [hsame]
        · exact hrun
        · intro heq
          rw [heq, hst] at hrun
          cases hrun
      · refine .inr ⟨o, (hm.pc_other _ ?_).trans ho⟩
        intro heq
        rw [heq, hold] at ho
        cases ho
  obtain ⟨p1, p2, p3⟩ := hpromises
  obtain ⟨-, m2, m3, m4, m5, m6, m7⟩ := hm
  obtain ⟨-, h2, h3, -, -, h6, h7, -, h9, h10⟩ := h
  refine ⟨hinv, ?_, ?_, p1, p2, ?_, ?_, p3, ?_, ?_⟩ <;> grind

lemma awake (h : SyncInv cpus s) {w : Nat} (hinv : SmpInv cpus s'.smp) (hm : Moves s s' t w .user)
    (hold : s.pc t = .wake w) (htask : s'.smp.task t = s.smp.task t)
    (hqueue : s'.smp.waitQueue = s.smp.waitQueue) (hst' : (s'.smp.task w).state = .READY) : SyncInv cpus s' := by
  have hspecial := hm.static.special
  have hcpu := hm.static.cpu
  obtain ⟨hne, hst, hwait⟩ := h.wake t w hold
  have hsame : ∀ u, u ≠ w → s'.smp.task u = s.smp.task u := by
    intro u hu
    by_cases hut : u = t
    · rw [hut, htask]
    · exact hm.task u hut hu
  have hpromises : Promises cpus s' := by
    constructor
    · intro wq u hin hrun
      have hu : u ≠ w := by
        rintro rfl
        rw [hst'] at hrun
        cases hrun
      rw [hsame u hu] at hrun
      rw [hqueue] at hin
      obtain ⟨o', ho'⟩ := h.waiter wq u hin hrun
      refine ⟨o', (hm.pc_other u ?_).trans ho'⟩
      rintro rfl
      rw [hold] at ho'
      cases ho'
    · intro u hblocked hzero
      have hu : u ≠ w := by
        rintro rfl
        rw [hst'] at hblocked
        cases hblocked
      rw [hsame u hu] at hblocked hzero
      obtain ⟨r, hr⟩ := h.blocked u hblocked hzero
      refine ⟨r, (hm.pc_other r ?_).trans hr⟩
      rintro rfl
      rw [hold] at hr
      exact hu (SyncPc.wake.inj hr).symm
    · intro c hc hne' hsw
      rw [hm.current] at hne' ⊢
      rw [hm.switching] at hsw
      rcases h.current c hc hne' hsw with hrun | ⟨o, ho⟩
      · refine .inl ?_
        rw [hsame]
        · exact hrun
        · intro heq
          rw [heq, hst] at hrun
          cases hrun
      · refine .inr ⟨o, (hm.pc_other _ ?_).trans ho⟩
        intro heq
        rw [heq, hold] at ho
        cases ho
  obtain ⟨p1, p2, p3⟩ := hpromises
  obtain ⟨-, m2, m3, m4, m5, m6, m7⟩ := hm
  obtain ⟨-, h2, h3, -, -, h6, h7, -, h9, h10⟩ := h
  refine ⟨hinv, ?_, ?_, p1, p2, ?_, ?_, p3, ?_, ?_⟩ <;> grind

lemma switched (h : SyncInv cpus s) {smp : Smp} {v : Bool} (hinv : SmpInv cpus smp) (hframe : Frame c s.smp smp)
    (hhere : ∀ u o, s.pc u = .block o → (s.smp.task u).cpu ≠ c)
    (hrun : v = false → (smp.task (smp.current c)).state = .RUNNING)
    (hspecial : v = true → (smp.task (smp.current c)).state = .RUNNING → smp.current c ≠ 0 →
      Special smp (smp.current c)) : SyncInv cpus ({ s with smp := smp }.setSwitching c v) := by
  have hstatic : Static s.smp smp := ⟨hframe.cpu, hframe.idle, hframe.cleanupTask⟩
  have hswitching : ∀ d, d ≠ c → (({ s with smp := smp }).setSwitching c v).switching d = s.switching d :=
    fun d hd => Function.update_of_ne hd ..
  have hself : (({ s with smp := smp }).setSwitching c v).switching c = v := Function.update_self ..
  have hcurrent : ∀ d, cpus d → d ≠ c → smp.current d ≠ 0 →
    smp.task (smp.current d) = s.smp.task (s.smp.current d) := by
    intro d hd hdc hne
    rw [hframe.current d hdc] at hne ⊢
    apply hframe.other
    rw [(h.smp.cpu d hd).current_cpu hne]
    exact hdc
  constructor
  · exact hinv
  · intro u o ho
    have hcpu := hhere u o ho
    obtain ⟨h1, h2, h3⟩ := h.block u o ho
    show (smp.task u).state = _ ∧ (smp.task u).waitingOn ≠ 0 ∧ smp.current (smp.task u).cpu = u
    rw [hframe.other u hcpu, hframe.current _ hcpu]
    exact ⟨h1, h2, h3⟩
  · exact h.acquire
  · intro wq u hin hst
    have hin' : u ∈ s.smp.waitQueue wq := by
      rw [← hframe.waitQueue]
      exact hin
    refine h.waiter wq u hin' ?_
    refine ((h.smp.task u).waiter wq hin').state.resolve_left (fun hblocked => ?_)
    have hst' : (smp.task u).state = .RUNNING := hst
    rw [(hframe.blocked u).mpr hblocked] at hst'
    cases hst'
  · intro u hst hwait
    exact h.blocked u ((hframe.blocked u).mp hst) ((hframe.waitingOn u).symm.trans hwait)
  · intro r u hr
    obtain ⟨h1, h2, h3⟩ := h.wake r u hr
    exact ⟨h1, (hframe.blocked u).mpr h2, (hframe.waitingOn u).trans h3⟩
  · exact h.wake_unique
  · intro d hd hne hsw
    by_cases hdc : d = c
    · subst hdc
      rw [hself] at hsw
      exact .inl (hrun hsw)
    · rw [hswitching d hdc] at hsw
      have hne' : smp.current d ≠ 0 := hne
      show (smp.task (smp.current d)).state = _ ∨ ∃ o, s.pc (smp.current d) = _
      rw [hcurrent d hd hdc hne']
      rw [hframe.current d hdc] at hne' ⊢
      exact h.current d hd hne' hsw
  · intro d hd hsw hst hne
    by_cases hdc : d = c
    · subst hdc
      rw [hself] at hsw
      exact hspecial hsw hst hne
    · rw [hswitching d hdc] at hsw
      have hne' : smp.current d ≠ 0 := hne
      have hst' : (smp.task (smp.current d)).state = .RUNNING := hst
      rw [hcurrent d hd hdc hne'] at hst'
      show Special smp (smp.current d)
      rw [hframe.current d hdc] at hne' ⊢
      rw [hstatic.special]
      exact h.switching d hd hsw hst' hne'
  · intro u hu hsp
    exact h.special u hu ((hstatic.special u).mp hsp)

lemma beginSwitch (h : SyncInv cpus s) (hc : cpus c) (hblock : ∀ o, s.pc (s.smp.current c) ≠ .block o)
    (hwake : ∀ t, s.pc t ≠ .wake (s.smp.current c)) :
    ∃ s', s.beginSwitch c = .ok s' ∧ SyncInv cpus s' ∧ s'.pc = s.pc ∧
      (∀ t, (s'.smp.task t).cpu = (s.smp.task t).cpu) ∧ s'.switching c = true := by
  obtain ⟨smp, hrun, hinv, hframe, -, hspecial⟩ := h.smp.putBackPrev hc
    (fun _ hst hwait => by
      obtain ⟨r, hr⟩ := h.blocked _ hst hwait
      exact hwake r hr)
    (fun _ hst _ => h.waitingOn_of_running hst hblock)
  refine ⟨({ s with smp := smp }).setSwitching c true, ?_, ?_, rfl, hframe.cpu, Function.update_self ..⟩
  · unfold Sync.beginSwitch
    rw [hrun]
    rfl
  · refine h.switched hinv hframe ?_ (fun hv => nomatch hv) (fun _ => hspecial)
    intro u o ho hcpu
    have h1 := (h.block u o ho).2.2
    rw [hcpu] at h1
    exact hblock o (h1 ▸ ho)

lemma endSwitch (h : SyncInv cpus s) (hc : cpus c) (hsw : s.switching c = true) :
    ∃ s', s.endSwitch c = .ok s' ∧ SyncInv cpus s' := by
  obtain ⟨smp, hrun, hinv, hframe, -, hst⟩ := h.smp.pick hc (h.switching c hc hsw)
  refine ⟨({ s with smp := smp }).setSwitching c false, ?_, ?_⟩
  · unfold Sync.endSwitch
    rw [hrun]
    rfl
  · refine h.switched hinv hframe ?_ (fun _ => hst) (fun hv => nomatch hv)
    intro u o ho hcpu
    obtain ⟨h1, h2, h3⟩ := h.block u o ho
    rw [hcpu] at h3
    have hne : u ≠ 0 := ((h.smp.task u).waiter _ ((h.smp.task u).waiting h2)).ne_zero
    have hsp := h.switching c hc hsw (by rw [h3]; exact h1) (by rw [h3]; exact hne)
    rw [h3] at hsp
    refine h.special u ?_ hsp
    rw [ho]
    simp

lemma objects (h : SyncInv cpus s) (owner count : Nat → Nat) :
    SyncInv cpus { s with owner := owner, count := count } :=
  ⟨h.smp, h.block, h.acquire, h.waiter, h.blocked, h.wake, h.wake_unique, h.current, h.switching, h.special⟩

lemma got (h : SyncInv cpus s) (hold : s.pc t = .user ∨ ∃ o, s.pc t = .acquire o) : SyncInv cpus (s.setPc t .user) :=
  h.goOn rfl ⟨⟨fun _ => rfl, rfl, rfl⟩, rfl, rfl, setPc_self s t .user, fun _ hu => setPc_other s .user hu,
    fun _ _ _ => rfl, fun _ _ _ _ hin => hin⟩ hold (.inl rfl)

lemma called (h : SyncInv cpus s) (hold : s.pc t = .user) (ho : o.waiters ≠ 0) (hspecial : ¬Special s.smp t) :
    SyncInv cpus (s.setPc t (.acquire o)) :=
  h.goOn rfl ⟨⟨fun _ => rfl, rfl, rfl⟩, rfl, rfl, setPc_self s t _, fun _ hu => setPc_other s _ hu,
    fun _ _ _ => rfl, fun _ _ _ _ hin => hin⟩ (.inl hold) (.inr ⟨o, rfl, ho, hspecial⟩)

section Current

variable (h : SyncInv cpus s) (hc : cpus c) (hne : s.smp.current c ≠ 0) (hsw : s.switching c = false)
include h hc hne hsw

lemma wait (hpc : s.pc (s.smp.current c) = .acquire o) :
    ∃ smp, s.smp.waitqueueEnqueue o.waiters (s.smp.current c) = .ok smp ∧
      SyncInv cpus ({ s with smp := smp }.setPc (s.smp.current c) (.block o)) := by
  have hrun : (s.smp.task (s.smp.current c)).state = .RUNNING :=
    h.current_running hc hne hsw (fun o' ho' => by rw [hpc] at ho'; cases ho')
  have hzero : (s.smp.task (s.smp.current c)).waitingOn = 0 :=
    h.waitingOn_of_running hrun (fun o' ho' => by rw [hpc] at ho'; cases ho')
  have hspecial : ¬Special s.smp (s.smp.current c) := h.special _ (by rw [hpc]; simp)
  have hwq : o.waiters ≠ 0 := h.acquire _ o (.inl hpc)
  have hcpu := (h.smp.cpu c hc).current_cpu hne
  refine ⟨(s.smp.setWaitQueue o.waiters (s.smp.waitQueue o.waiters ++ [s.smp.current c])).setWaitingOn
    (s.smp.current c) o.waiters, ?_, ?_⟩
  · unfold Smp.waitqueueEnqueue
    rw [assertThat_true (by rw [hrun]; decide)]
    rfl
  · refine h.join (t := s.smp.current c) (o := o)
      (h.smp.enqueue hne hwq hzero (.inr hrun) hspecial) ?_ hpc ?_ ?_ ?_ hrun
    · refine ⟨⟨fun u => Smp.setWaitingOn_cpu _ _ u _, rfl, rfl⟩, rfl, rfl, setPc_self _ _ _,
        fun u hu => setPc_other _ _ hu, fun u hu _ => Smp.setWaitingOn_other _ _ _ hu, ?_⟩
      intro wq u hu _
      refine forall_update (P := fun d l => u ∈ l → u ∈ s.smp.waitQueue d) (fun _ hin => hin) ?_ wq
      intro hin
      exact (List.mem_append.mp hin).resolve_right (fun hu' => hu (List.mem_singleton.mp hu'))
    · exact (Smp.setWaitingOn_state (s.smp.setWaitQueue _ _) _ _ _).trans hrun
    · show ((Smp.setWaitingOn (s.smp.setWaitQueue _ _) _ _).task (s.smp.current c)).waitingOn ≠ 0
      rw [Smp.setWaitingOn_self]
      exact hwq
    · rw [hcpu]

omit hsw in
lemma marked (hpc : s.pc (s.smp.current c) = .block o) :
    ∃ smp, s.smp.blockCurrent c = .ok smp ∧
      SyncInv cpus ({ s with smp := smp }.setPc (s.smp.current c) (.switch o)) := by
  obtain ⟨hrun, hwait, -⟩ := h.block _ o hpc
  have hspecial : ¬Special s.smp (s.smp.current c) := h.special _ (by rw [hpc]; simp)
  have hcpu := (h.smp.cpu c hc).current_cpu hne
  have hidle : s.smp.current c ≠ s.smp.idle c := by
    intro heq
    refine hspecial (.inl ?_)
    rw [hcpu]
    exact heq
  have hself : (s.smp.setState (s.smp.current c) .BLOCKED).task (s.smp.current c) =
      { s.smp.task (s.smp.current c) with state := .BLOCKED } := Smp.setState_self ..
  have hinv := h.smp.setBlocked hrun (by rw [hcpu]; exact hc) hspecial
  refine ⟨s.smp.setState (s.smp.current c) .BLOCKED, ?_, ?_⟩
  · unfold Smp.blockCurrent
    rw [assertThat_true hne, assertThat_true hidle, assertThat_true hcpu, assertThat_true hrun, assertThat_true hwait]
    rfl
  · refine h.mark (t := s.smp.current c) (o := o) hinv ?_ hpc ?_ ?_
    · exact ⟨static_setState .., rfl, rfl, setPc_self _ _ _, fun u hu => setPc_other _ _ hu,
        fun u hu _ => Smp.setState_other _ _ _ hu, fun _ _ _ _ hin => hin⟩
    · exact congrArg Task.state hself
    · exact Smp.setState_waitingOn ..

lemma dequeued {m : Nat} (hpc : s.pc (s.smp.current c) = .user) (hspecial : ¬Special s.smp (s.smp.current c))
    (horderly : ∀ w ∈ (s.smp.waitQueue m).head?, (s.smp.task w).state = .BLOCKED) :
    SyncInv cpus (s.dequeueWaiter c m) := by
  unfold Sync.dequeueWaiter Smp.waitqueueDequeue
  cases hq : s.smp.waitQueue m with
  | nil => exact h.got (.inl hpc)
  | cons w rest =>
    have hin : w ∈ s.smp.waitQueue m := by
      rw [hq]
      exact List.mem_cons_self
    have hw := (h.smp.task w).waiter m hin
    have hst : (s.smp.task w).state = .BLOCKED := horderly w (by rw [hq]; rfl)
    have hrun : (s.smp.task (s.smp.current c)).state = .RUNNING :=
      h.current_running hc hne hsw (fun o' ho' => by rw [hpc] at ho'; cases ho')
    have htw : s.smp.current c ≠ w := by
      intro heq
      rw [heq, hst] at hrun
      cases hrun
    show SyncInv cpus (Sync.setPc _ _ (if w = 0 then _ else _))
    rw [if_neg hw.ne_zero]
    have hqueue : ∀ wq u, u ∈ ((s.smp.setWaitQueue m rest).setWaitingOn w 0).waitQueue wq → u ∈ s.smp.waitQueue wq := by
      intro wq u
      refine forall_update (P := fun d l => u ∈ l → u ∈ s.smp.waitQueue d) (fun _ hin => hin) ?_ wq
      intro hin
      rw [hq]
      exact List.mem_cons_of_mem w hin
    have hself : ((s.smp.setWaitQueue m rest).setWaitingOn w 0).task w = { s.smp.task w with waitingOn := 0 } :=
      Smp.setWaitingOn_self ..
    refine h.take (t := s.smp.current c) (w := w) (h.smp.dequeue hq) ?_ hpc hspecial
      (Smp.setWaitingOn_other _ w 0 htw) (fun wq => hqueue wq _) hw.ne_zero htw hst ?_ ?_ ?_
    · exact ⟨⟨fun u => Smp.setWaitingOn_cpu _ w u 0, rfl, rfl⟩, rfl, rfl, setPc_self _ _ _,
        fun u hu => setPc_other _ _ hu, fun u _ hu => Smp.setWaitingOn_other _ _ _ hu, fun wq u _ _ => hqueue wq u⟩
    · exact (congrArg Task.state hself).trans hst
    · rw [hw.waitingOn]
      exact hw.queue_ne_zero
    · exact congrArg Task.waitingOn hself

lemma woken {w : Nat} (hpc : s.pc (s.smp.current c) = .wake w) :
    ∃ smp, s.smp.schedulerWakeBlocked w = .ok smp ∧
      SyncInv cpus ({ s with smp := smp }.setPc (s.smp.current c) .user) := by
  obtain ⟨hw, hst, hwait⟩ := h.wake _ w hpc
  obtain ⟨hrun, hinv⟩ := h.smp.wakeBlocked hw hst hwait
  have hrunning : (s.smp.task (s.smp.current c)).state = .RUNNING :=
    h.current_running hc hne hsw (fun o' ho' => by rw [hpc] at ho'; cases ho')
  have htw : s.smp.current c ≠ w := by
    intro heq
    rw [heq, hst] at hrunning
    cases hrunning
  refine ⟨_, hrun, ?_⟩
  refine h.awake (t := s.smp.current c) (w := w) hinv ?_ hpc (Smp.setState_other _ w _ htw) rfl ?_
  · exact ⟨⟨fun u => Smp.setState_cpu _ w u _, rfl, rfl⟩, rfl, rfl, setPc_self _ _ _,
      fun u hu => setPc_other _ _ hu, fun u _ hu => Smp.setState_other _ _ _ hu, fun _ _ _ _ hin => hin⟩
  · exact congrArg Task.state (Smp.setState_self ..)

end Current

lemma left (h : SyncInv cpus s) (hpc : s.pc t = .switch o) (hsw : s.switching (s.smp.task t).cpu = true) :
    SyncInv cpus (s.setPc t (.acquire o)) := by
  have hother : ∀ {u pc}, s.pc u = pc → (∀ o, pc ≠ .switch o) → (s.setPc t (.acquire o)).pc u = pc := by
    intro u pc hu hne
    rw [setPc_other s _ (u := u), hu]
    rintro rfl
    exact hne o (hu.symm.trans hpc)
  have hold : ∀ {u pc}, (s.setPc t (.acquire o)).pc u = pc → (∀ o, pc ≠ .acquire o) → s.pc u = pc := by
    intro u pc hu hne
    rcases setPc_cases s t u _ pc hu with ⟨-, rfl⟩ | ⟨-, hu⟩
    · exact absurd rfl (hne o)
    · exact hu
  constructor
  · exact h.smp
  · intro u o' ho'
    exact h.block u o' (hold ho' (by simp))
  · intro u o' ho'
    by_cases hu : u = t
    · subst hu
      rw [setPc_self] at ho'
      have heq : o' = o := by simpa [eq_comm] using ho'
      rw [heq]
      exact h.acquire u o (.inr (.inr hpc))
    · rw [setPc_other s _ hu] at ho'
      exact h.acquire u o' ho'
  · intro wq u hin hst
    obtain ⟨o', ho'⟩ := h.waiter wq u hin hst
    exact ⟨o', hother ho' (by simp)⟩
  · intro u hst hwait
    obtain ⟨r, hr⟩ := h.blocked u hst hwait
    exact ⟨r, hother hr (by simp)⟩
  · intro r u hr
    exact h.wake r u (hold hr (by simp))
  · intro r r' u hr hr'
    exact h.wake_unique r r' u (hold hr (by simp)) (hold hr' (by simp))
  · intro c hc hne hsw'
    have hu : s.smp.current c ≠ t := by
      rintro rfl
      rw [(h.smp.cpu c hc).current_cpu hne] at hsw
      rw [show s.switching c = false from hsw'] at hsw
      cases hsw
    show _ ∨ ∃ o', (s.setPc t (.acquire o)).pc (s.smp.current c) = .switch o'
    rw [setPc_other s _ hu]
    exact h.current c hc hne hsw'
  · exact h.switching
  · intro u hu
    by_cases hut : u = t
    · subst hut
      refine h.special u ?_
      rw [hpc]
      simp
    · rw [setPc_other s _ hut] at hu
      exact h.special u hu

lemma step (h : SyncInv cpus s) {op : SyncOp} (hop : SyncOp.Allowed cpus s op) (horderly : SyncOp.Orderly s op)
    {r : Except Halt Sync} (hrun : op.run s = some r) : ∃ s', r = .ok s' ∧ SyncInv cpus s' := by
  obtain ⟨hc, hop⟩ := hop
  cases op with
  | call c o =>
    obtain ⟨-, hspecial, ho⟩ := hop
    simp only [SyncOp.run] at hrun
    split at hrun
    case isTrue hpc =>
      obtain rfl := Option.some.inj hrun
      exact ⟨_, rfl, h.called hpc ho hspecial⟩
    case isFalse => cases hrun
  | acquire c =>
    obtain ⟨hsw, hne⟩ := hop
    simp only [SyncOp.run] at hrun
    split at hrun
    case h_1 m hpc =>
      obtain rfl := Option.some.inj hrun
      unfold Sync.mutexAcquire
      by_cases howner : s.owner m = 0
      · refine ⟨_, if_pos howner, ?_⟩
        exact (h.objects (Function.update s.owner m (s.smp.current c)) s.count).got (.inr ⟨_, hpc⟩)
      · obtain ⟨smp, henq, hinv⟩ := h.wait hc hne hsw hpc
        refine ⟨_, (if_neg howner).trans ?_, hinv⟩
        show (Bind.bind (s.smp.waitqueueEnqueue m (s.smp.current c)) _) = _
        rw [show s.smp.waitqueueEnqueue m (s.smp.current c) = .ok smp from henq]
        rfl
    case h_2 m hpc =>
      obtain rfl := Option.some.inj hrun
      unfold Sync.semaphoreAcquire
      by_cases hcount : 0 < s.count m
      · refine ⟨_, if_pos hcount, ?_⟩
        exact (h.objects s.owner (Function.update s.count m (s.count m - 1))).got (.inr ⟨_, hpc⟩)
      · obtain ⟨smp, henq, hinv⟩ := h.wait hc hne hsw hpc
        refine ⟨_, (if_neg hcount).trans ?_, hinv⟩
        show (Bind.bind (s.smp.waitqueueEnqueue m (s.smp.current c)) _) = _
        rw [show s.smp.waitqueueEnqueue m (s.smp.current c) = .ok smp from henq]
        rfl
    case h_3 => cases hrun
  | block c =>
    change cpus c at hc
    obtain ⟨hsw, hne⟩ := hop
    simp only [SyncOp.run] at hrun
    split at hrun
    case h_1 o hpc =>
      obtain rfl := Option.some.inj hrun
      obtain ⟨smp, hblock, hinv⟩ := h.marked hc hne hpc
      rw [hblock]
      exact ⟨_, rfl, hinv⟩
    case h_2 => cases hrun
  | leave c =>
    change cpus c at hc
    obtain ⟨hsw, hne⟩ := hop
    simp only [SyncOp.run] at hrun
    split at hrun
    case h_1 o hpc =>
      obtain rfl := Option.some.inj hrun
      obtain ⟨s₁, hbegin, hinv, hpc₁, hcpu, hsw₁⟩ := h.beginSwitch hc horderly.1 horderly.2
      have hleft := hinv.left (t := s.smp.current c) (o := o) (by rw [hpc₁]; exact hpc)
        (by rw [hcpu, (h.smp.cpu c hc).current_cpu hne]; exact hsw₁)
      refine ⟨_, ?_, hleft⟩
      unfold Sync.beginSwitch at hbegin ⊢
      show (Bind.bind (s.smp.putBackPrev c) _) = _
      cases hput : s.smp.putBackPrev c with
      | error e =>
        rw [hput] at hbegin
        cases hbegin
      | ok smp =>
        rw [hput] at hbegin
        obtain rfl := Except.ok.inj hbegin
        rfl
    case h_2 => cases hrun
  | release c o =>
    obtain ⟨⟨hsw, hne⟩, hspecial, hhas⟩ := hop
    simp only [SyncOp.run] at hrun
    split at hrun
    case isTrue hpc =>
      cases o with
      | mutex m =>
        obtain rfl := Option.some.inj hrun
        have howner : s.owner m = s.smp.current c := hhas
        refine ⟨_, ?_, ((h.objects (Function.update s.owner m 0) s.count).dequeued hc hne hsw hpc hspecial horderly)⟩
        unfold Sync.mutexRelease
        rw [assertThat_true howner, assertThat_true (howner ▸ hne)]
        rfl
      | semaphore m =>
        obtain rfl := Option.some.inj hrun
        refine ⟨_, ?_, ((h.objects s.owner (Function.update s.count m (s.count m + 1))).dequeued hc hne hsw hpc hspecial
          horderly)⟩
        unfold Sync.semaphoreRelease
        rw [assertThat_true hhas]
        rfl
    case isFalse => cases hrun
  | wake c =>
    obtain ⟨hsw, hne⟩ := hop
    simp only [SyncOp.run] at hrun
    split at hrun
    case h_1 w hpc =>
      obtain rfl := Option.some.inj hrun
      obtain ⟨smp, hwake, hinv⟩ := h.woken hc hne hsw hpc
      rw [hwake]
      exact ⟨_, rfl, hinv⟩
    case h_2 => cases hrun
  | timer c =>
    obtain rfl := Option.some.inj hrun
    obtain ⟨s', hbegin, hinv, -⟩ := h.beginSwitch hc horderly.1 horderly.2
    exact ⟨s', hbegin, hinv⟩
  | pick c =>
    obtain rfl := Option.some.inj hrun
    exact h.endSwitch hc hop

end SyncInv

/-- A step of a run: the callers keep their promises and no assertion fails. -/
def SyncStep (cpus : Nat → Prop) (s s' : Sync) : Prop :=
  ∃ op, SyncOp.Allowed cpus s op ∧ op.run s = some (.ok s')

/-- A step of an orderly run. -/
def OrderlySyncStep (cpus : Nat → Prop) (s s' : Sync) : Prop :=
  ∃ op, SyncOp.Allowed cpus s op ∧ SyncOp.Orderly s op ∧ op.run s = some (.ok s')

/-- Before the first call every CPU runs a task, and nobody waits. -/
structure SyncStart (cpus : Nat → Prop) (s : Sync) : Prop where
  smp : SmpInv cpus s.smp
  running : ∀ c, cpus c → s.smp.current c ≠ 0 → (s.smp.task (s.smp.current c)).state = .RUNNING
  nobody : ∀ wq, s.smp.waitQueue wq = []
  unblocked : ∀ t, (s.smp.task t).state ≠ .BLOCKED
  switching : ∀ c, s.switching c = false
  pc : ∀ t, s.pc t = .user

lemma SyncStart.inv (h : SyncStart cpus s) : SyncInv cpus s := by
  refine ⟨h.smp, ?_, ?_, ?_, ?_, ?_, ?_, ?_, ?_, ?_⟩
  · intro t o ho
    rw [h.pc] at ho
    cases ho
  · intro t o ho
    rw [h.pc] at ho
    simp at ho
  · intro wq t hin
    rw [h.nobody] at hin
    cases hin
  · intro t ht
    exact absurd ht (h.unblocked t)
  · intro r t hr
    rw [h.pc] at hr
    cases hr
  · intro r r' t hr
    rw [h.pc] at hr
    cases hr
  · intro c hc hne _
    exact .inl (h.running c hc hne)
  · intro c hc hsw
    rw [h.switching] at hsw
    cases hsw
  · intro t ht
    exact absurd (h.pc t) ht

/-- **The blocking hand-shake.** In every orderly run no assertion fails. -/
theorem orderly_sync_never_fails {op : SyncOp} (hstart : SyncStart cpus s)
    (hrun : Relation.ReflTransGen (OrderlySyncStep cpus) s s') (hop : SyncOp.Allowed cpus s' op)
    (horderly : SyncOp.Orderly s' op) (e : Halt) : op.run s' ≠ some (.error e) := by
  have hinv : SyncInv cpus s' := by
    clear hop horderly
    induction hrun with
    | refl => exact hstart.inv
    | tail _ hstep ih =>
      obtain ⟨op', hop', horderly', hrun'⟩ := hstep
      obtain ⟨s'', heq, hinv⟩ := ih.step hop' horderly' hrun'
      obtain rfl := Except.ok.inj heq
      exact hinv
  intro hfail
  obtain ⟨s'', heq, -⟩ := hinv.step hop horderly hfail
  cases heq

def syncBoot : Sync where
  smp := twoCpus
  switching _ := false
  pc _ := .user
  owner _ := 0
  count _ := 0
  initialCount _ := 0

lemma syncBoot_start : SyncStart OneOrTwo syncBoot where
  smp := twoCpus_inv
  running := by rintro c (rfl | rfl) - <;> rfl
  nobody _ := rfl
  unblocked t := (twoCpuTask_cases t).2.1
  switching _ := rfl
  pc _ := rfl

def syncCalled : Sync := afterSteps SyncOp.run syncBoot [.call 1 (.mutex 0x500)]

def syncOwned : Sync := afterSteps SyncOp.run syncCalled [.acquire 1]

def syncCalledTwice : Sync := afterSteps SyncOp.run syncOwned [.call 2 (.mutex 0x500)]

def syncWaiting : Sync := afterSteps SyncOp.run syncCalledTwice [.acquire 2]

def syncReleased : Sync := afterSteps SyncOp.run syncWaiting [.release 1 (.mutex 0x500)]

lemma syncBoot_steps : SyncOp.Allowed OneOrTwo syncBoot (.call 1 (.mutex 0x500)) ∧
    SyncOp.Allowed OneOrTwo syncCalled (.acquire 1) ∧
    SyncOp.Allowed OneOrTwo syncOwned (.call 2 (.mutex 0x500)) ∧
    SyncOp.Allowed OneOrTwo syncCalledTwice (.acquire 2) := by
  unfold SyncOp.Allowed OneOrTwo Special
  decide +kernel

/-- CPU 1 releases the mutex while the task of CPU 2 is on the wait queue and still running. -/
theorem sync_fails_in_window : ∃ s op, SyncStart OneOrTwo syncBoot ∧
    Relation.ReflTransGen (SyncStep OneOrTwo) syncBoot s ∧ SyncOp.Allowed OneOrTwo s op ∧
    op.run s = some (.error .panic) := by
  obtain ⟨h1, h2, h3, h4⟩ := syncBoot_steps
  have h5 : SyncOp.Allowed OneOrTwo syncWaiting (.release 1 (.mutex 0x500)) ∧
      SyncOp.Allowed OneOrTwo syncReleased (.wake 1) := by
    unfold SyncOp.Allowed OneOrTwo Special
    decide +kernel
  refine ⟨syncReleased, .wake 1, syncBoot_start, ?_, h5.2, ?_⟩
  · refine ((((Relation.ReflTransGen.single ⟨_, h1, ?_⟩).tail ⟨_, h2, ?_⟩).tail ⟨_, h3, ?_⟩).tail ⟨_, h4, ?_⟩).tail
      ⟨_, h5.1, ?_⟩ <;> exact step_afterSteps (by decide +kernel)
  · exact eq_error_of_haltOf (by decide +kernel)

def syncMarked : Sync := afterSteps SyncOp.run syncWaiting [.block 2]

def syncTaken : Sync := afterSteps SyncOp.run syncMarked [.release 1 (.mutex 0x500)]

/-- The same release, made after the task of CPU 2 has been marked as blocked. -/
theorem orderly_sync_never_fails_marked : SyncStart OneOrTwo syncBoot ∧
    Relation.ReflTransGen (OrderlySyncStep OneOrTwo) syncBoot syncTaken ∧ SyncOp.Allowed OneOrTwo syncTaken (.wake 1) ∧
    ∀ e, SyncOp.run syncTaken (.wake 1) ≠ some (.error e) := by
  obtain ⟨h1, h2, h3, h4⟩ := syncBoot_steps
  have h5 : SyncOp.Allowed OneOrTwo syncWaiting (.block 2) ∧
      SyncOp.Allowed OneOrTwo syncMarked (.release 1 (.mutex 0x500)) ∧ SyncOp.Allowed OneOrTwo syncTaken (.wake 1) := by
    unfold SyncOp.Allowed OneOrTwo Special
    decide +kernel
  have horderly : SyncOp.Orderly syncMarked (.release 1 (.mutex 0x500)) := by
    unfold SyncOp.Orderly
    decide +kernel
  have hrun : Relation.ReflTransGen (OrderlySyncStep OneOrTwo) syncBoot syncTaken := by
    refine (((((Relation.ReflTransGen.single ⟨_, h1, trivial, ?_⟩).tail ⟨_, h2, trivial, ?_⟩).tail
      ⟨_, h3, trivial, ?_⟩).tail ⟨_, h4, trivial, ?_⟩).tail ⟨_, h5.1, trivial, ?_⟩).tail ⟨_, h5.2.1, horderly, ?_⟩ <;>
      exact step_afterSteps (by decide +kernel)
  exact ⟨syncBoot_start, hrun, h5.2.2, orderly_sync_never_fails syncBoot_start hrun h5.2.2 trivial⟩

end KaworuOS.Proofs
