import KaworuOS.Completion
import KaworuOS.Lib.Run
import KaworuOS.Proofs.Smp
import Mathlib.Logic.Relation

/-!
# Runs of completions on several CPUs

Between its two sections a waiter is marked as blocked and is on no queue. A signal in this gap does
not see the waiter, and a switch finds a blocked task that waits for nothing. In an orderly run
neither happens, and then no wake-up is lost.
-/

namespace KaworuOS.Proofs
open Lib

/-- What the callers promise and the hardware does: the step is on a CPU, `pick` is the step that
follows the first half of a switch, the caller is neither idle nor cleanup, and a completion is
signalled only when it is not done. -/
def CompletionOp.Allowed (cpus : Nat → Prop) (s : Completions) (op : CompletionOp) : Prop :=
  cpus op.cpu ∧
  match op with
  | .pick c => s.switching c = true
  | .timer c | .reset c _ => s.switching c = false
  | .signal c cm => s.switching c = false ∧ s.done cm = false
  | .check c | .enqueue c | .leave c => s.switching c = false ∧ s.smp.current c ≠ 0
  | .call c cm => (s.switching c = false ∧ s.smp.current c ≠ 0) ∧ ¬Special s.smp (s.smp.current c) ∧ cm ≠ 0

/-- A waiter puts itself on the queue only when no signal has come since it looked, and the timer
does not preempt it before that. -/
def CompletionOp.Orderly (s : Completions) : CompletionOp → Prop
  | .enqueue c => ∀ cm, s.pc (s.smp.current c) = .enqueue cm → s.done cm = false
  | .timer c => ∀ cm, s.pc (s.smp.current c) ≠ .enqueue cm
  | _ => True

/-- What is true of a task and its program counter. -/
structure WaitOk (cpus : Nat → Prop) (s : Completions) (t : Nat) : Prop where
  gap : ∀ cm, s.pc t = .enqueue cm → t ≠ 0 ∧ (s.smp.task t).state = .BLOCKED ∧ (s.smp.task t).waitingOn = 0 ∧
    s.smp.current (s.smp.task t).cpu = t
  waiter : ∀ wq, t ∈ s.smp.waitQueue wq → (s.smp.task t).state = .BLOCKED
  blocked : (s.smp.task t).state = .BLOCKED → (s.smp.task t).waitingOn = 0 → ∃ cm, s.pc t = .enqueue cm
  queue_ne_zero : ∀ cm, s.pc t = .wait cm ∨ s.pc t = .enqueue cm ∨ s.pc t = .switch cm → cm ≠ 0
  current : ∀ c, cpus c → s.smp.current c = t → t ≠ 0 → s.switching c = false →
    (s.smp.task t).state = .RUNNING ∨ ∃ cm, s.pc t = .enqueue cm ∨ s.pc t = .switch cm
  switching : ∀ c, cpus c → s.smp.current c = t → s.switching c = true → t ≠ 0 →
    ((s.smp.task t).state = .RUNNING → Special s.smp t) ∧ ∀ cm, s.pc t ≠ .enqueue cm
  special : s.pc t ≠ .user → ¬Special s.smp t

/-- The invariant of orderly runs. -/
structure CompletionInv (cpus : Nat → Prop) (s : Completions) : Prop where
  smp : SmpInv cpus s.smp
  task : ∀ t, WaitOk cpus s t
  done : ∀ cm, s.done cm = true → s.smp.waitQueue cm = []

variable {cpus : Nat → Prop} {s s' : Completions} {c t u cm : Nat}

lemma WaitOk.congr (h : WaitOk cpus s u) (hstatic : Static s.smp s'.smp) (htask : s'.smp.task u = s.smp.task u)
    (hpc : s'.pc u = s.pc u) (hqueue : ∀ wq, u ∈ s'.smp.waitQueue wq → u ∈ s.smp.waitQueue wq)
    (hcurrent : ∀ c, s'.smp.current c = u ↔ s.smp.current c = u)
    (hswitching : ∀ c, s.smp.current c = u → s'.switching c = s.switching c) : WaitOk cpus s' u where
  gap cm ho := by
    rw [hpc] at ho
    rw [htask, hcurrent]
    exact h.gap cm ho
  waiter wq hin := by
    rw [htask]
    exact h.waiter wq (hqueue wq hin)
  blocked hst hwait := by
    rw [htask] at hst hwait
    rw [hpc]
    exact h.blocked hst hwait
  queue_ne_zero cm ho := by
    rw [hpc] at ho
    exact h.queue_ne_zero cm ho
  current c hc hcur hne hsw := by
    rw [hcurrent] at hcur
    rw [hswitching c hcur] at hsw
    rw [htask, hpc]
    exact h.current c hc hcur hne hsw
  switching c hc hcur hsw hne := by
    rw [hcurrent] at hcur
    rw [hswitching c hcur] at hsw
    rw [htask, hpc, hstatic.special]
    exact h.switching c hc hcur hsw hne
  special hne := by
    rw [hpc] at hne
    rw [hstatic.special]
    exact h.special hne

lemma SmpInv.signalLoop {smp : Smp} (h : SmpInv cpus smp) (queue : List Nat) (hq : smp.waitQueue cm = queue)
    (hst : ∀ t ∈ queue, (smp.task t).state = .BLOCKED) :
    ∃ smp', KaworuOS.signalLoop cm queue smp = .ok smp' ∧ SmpInv cpus smp' ∧ Static smp smp' ∧
      smp'.current = smp.current ∧ smp'.waitQueue cm = [] ∧ (∀ wq, wq ≠ cm → smp'.waitQueue wq = smp.waitQueue wq) ∧
      (∀ u, u ∉ queue → smp'.task u = smp.task u) ∧ ∀ u ∈ queue, (smp'.task u).state = .READY := by
  induction queue generalizing smp with
  | nil => exact ⟨smp, rfl, h, ⟨fun _ => rfl, rfl, rfl⟩, rfl, hq, fun _ _ => rfl, fun _ _ => rfl,
      fun _ hu => nomatch hu⟩
  | cons t rest ih =>
    have hin : t ∈ smp.waitQueue cm := by
      rw [hq]
      exact List.mem_cons_self
    have hnodup := h.wait_nodup cm
    rw [hq] at hnodup
    obtain ⟨hnotin, -⟩ := List.nodup_cons.mp hnodup
    have hne := ((h.task t).waiter cm hin).ne_zero
    have hblocked := hst t List.mem_cons_self
    have hdeq := h.dequeue hq
    have hself : ((smp.setWaitQueue cm rest).setWaitingOn t 0).task t = { smp.task t with waitingOn := 0 } :=
      Smp.setWaitingOn_self ..
    obtain ⟨hwake, hinv⟩ := hdeq.wakeBlocked hne ((congrArg Task.state hself).trans hblocked)
      (congrArg Task.waitingOn hself)
    generalize hsmp₁ :
      (((smp.setWaitQueue cm rest).setWaitingOn t 0).setState t .READY).setRunQueue _ _ = smp₁ at hwake hinv
    have htask₁ : ∀ u, u ≠ t → smp₁.task u = smp.task u := by
      intro u hu
      subst hsmp₁
      exact (Smp.setState_other _ _ _ hu).trans (Smp.setWaitingOn_other _ _ _ hu)
    have hready₁ : (smp₁.task t).state = .READY := by
      subst hsmp₁
      exact congrArg Task.state (Smp.setState_self ..)
    have hqueue₁ : smp₁.waitQueue cm = rest := by
      subst hsmp₁
      exact Smp.setWaitQueue_self ..
    have hother₁ : ∀ wq, wq ≠ cm → smp₁.waitQueue wq = smp.waitQueue wq := by
      intro wq hwq
      subst hsmp₁
      exact Smp.setWaitQueue_other _ _ _ hwq
    have hstatic₁ : Static smp smp₁ := by
      subst hsmp₁
      exact ⟨fun u => (Smp.setState_cpu _ _ _ _).trans (Smp.setWaitingOn_cpu _ _ _ _), rfl, rfl⟩
    have hcurrent₁ : smp₁.current = smp.current := by
      subst hsmp₁
      rfl
    obtain ⟨smp', hrun, hinv', hstatic, hcurrent, hempty, hother, htask, hready⟩ := ih hinv hqueue₁ (by
      intro u hu
      rw [htask₁ u (fun heq => hnotin (heq ▸ hu))]
      exact hst u (List.mem_cons_of_mem t hu))
    refine ⟨smp', ?_, hinv', ?_, hcurrent.trans hcurrent₁, hempty, fun wq hwq => (hother wq hwq).trans (hother₁ wq hwq),
      ?_, ?_⟩
    · unfold KaworuOS.signalLoop
      show (Bind.bind (((smp.setWaitQueue cm rest).setWaitingOn t 0).schedulerWakeBlocked t) _) = _
      rw [hwake]
      exact hrun
    · exact ⟨fun u => (hstatic.cpu u).trans (hstatic₁.cpu u), hstatic.idle.trans hstatic₁.idle,
        hstatic.cleanupTask.trans hstatic₁.cleanupTask⟩
    · intro u hu
      rw [List.mem_cons, not_or] at hu
      exact (htask u hu.2).trans (htask₁ u hu.1)
    · intro u hu
      rcases List.mem_cons.mp hu with rfl | hu
      · rw [htask u hnotin]
        exact hready₁
      · exact hready u hu

namespace CompletionInv

lemma waitingOn_of_running (h : CompletionInv cpus s) (hst : (s.smp.task t).state = .RUNNING) :
    (s.smp.task t).waitingOn = 0 := by
  by_contra hne
  rw [(h.task t).waiter _ ((h.smp.task t).waiting hne)] at hst
  cases hst

lemma setPc_self (s : Completions) (t : Nat) (pc : CompletionPc) : (s.setPc t pc).pc t = pc := Function.update_self ..

lemma setPc_other (s : Completions) (pc : CompletionPc) (hu : u ≠ t) : (s.setPc t pc).pc u = s.pc u :=
  Function.update_of_ne hu ..

lemma goOn (h : CompletionInv cpus s) {pc : CompletionPc} (hold : s.pc t = .user ∨ ∃ cm, s.pc t = .wait cm)
    (hnew : pc = .user ∨ ∃ cm, pc = .wait cm ∧ cm ≠ 0 ∧ ¬Special s.smp t) : CompletionInv cpus (s.setPc t pc) := by
  refine ⟨h.smp, ?_, h.done⟩
  intro u
  by_cases hu : u = t
  case neg =>
    exact (h.task u).congr ⟨fun _ => rfl, rfl, rfl⟩ rfl (setPc_other s pc hu) (fun _ hin => hin) (fun _ => Iff.rfl)
      (fun _ _ => rfl)
  subst hu
  have hself := setPc_self s u pc
  obtain ⟨h1, h2, h3, h4, h5, h6, h7⟩ := h.task u
  have hnone : ∀ cm, s.pc u ≠ .enqueue cm ∧ s.pc u ≠ .switch cm ∧ pc ≠ .enqueue cm := by
    intro cm
    rcases hold with ho | ⟨cm', ho⟩ <;> rcases hnew with rfl | ⟨cm'', rfl, -⟩ <;> simp [ho]
  constructor
  · intro cm hcm
    rw [hself] at hcm
    exact absurd hcm (hnone cm).2.2
  · exact h2
  · intro hst hwait
    obtain ⟨cm, hcm⟩ := h3 hst hwait
    exact absurd hcm (hnone cm).1
  · intro cm hcm
    rw [hself] at hcm
    rcases hnew with rfl | ⟨cm', rfl, hne, -⟩
    · simp at hcm
    · have heq : cm' = cm := by simpa using hcm
      exact heq ▸ hne
  · intro c hc hcur hne hsw
    rcases h5 c hc hcur hne hsw with hrun | ⟨cm, hcm | hcm⟩
    · exact .inl hrun
    · exact absurd hcm (hnone cm).1
    · exact absurd hcm (hnone cm).2.1
  · intro c hc hcur hsw hne
    refine ⟨(h6 c hc hcur hsw hne).1, ?_⟩
    intro cm hcm
    rw [hself] at hcm
    exact absurd hcm (hnone cm).2.2
  · intro hne
    rw [hself] at hne
    rcases hnew with rfl | ⟨cm', rfl, -, hspecial⟩
    · exact absurd rfl hne
    · exact hspecial

section Current

variable (h : CompletionInv cpus s) (hc : cpus c) (hne : s.smp.current c ≠ 0) (hsw : s.switching c = false)
include h hc hne hsw

omit hsw in
lemma current_unique {d : Nat} (hd : cpus d) (hcur : s.smp.current d = s.smp.current c) : d = c := by
  have h1 := (h.smp.cpu c hc).current_cpu hne
  have h2 := (h.smp.cpu d hd).current_cpu (hcur ▸ hne)
  rw [hcur] at h2
  exact h2.symm.trans h1

lemma mark (hpc : s.pc (s.smp.current c) = .wait cm) :
    CompletionInv cpus ({ s with smp := s.smp.setState (s.smp.current c) .BLOCKED }.setPc (s.smp.current c)
      (.enqueue cm)) := by
  have hrun : (s.smp.task (s.smp.current c)).state = .RUNNING := by
    refine ((h.task _).current c hc rfl hne hsw).resolve_right ?_
    rintro ⟨cm', hcm | hcm⟩ <;> rw [hpc] at hcm <;> cases hcm
  have hwait := h.waitingOn_of_running hrun
  have hcpu := (h.smp.cpu c hc).current_cpu hne
  have hspecial : ¬Special s.smp (s.smp.current c) := (h.task _).special (by rw [hpc]; simp)
  have hinv := h.smp.setBlocked hrun (by rw [hcpu]; exact hc) hspecial
  have hself : (s.smp.setState (s.smp.current c) .BLOCKED).task (s.smp.current c) =
      { s.smp.task (s.smp.current c) with state := .BLOCKED } := Smp.setState_self ..
  refine ⟨hinv, ?_, h.done⟩
  intro u
  by_cases hu : u = s.smp.current c
  case neg =>
    exact (h.task u).congr (static_setState ..) (Smp.setState_other _ _ _ hu) (setPc_other _ _ hu) (fun _ hin => hin)
      (fun _ => Iff.rfl) (fun _ _ => rfl)
  subst hu
  constructor
  · intro cm' _
    exact ⟨hne, congrArg Task.state hself, (Smp.setState_waitingOn ..).trans hwait,
      congrArg s.smp.current ((Smp.setState_cpu ..).trans hcpu)⟩
  · intro wq hin
    exact absurd hin (h.smp.not_waiter hwait wq)
  · intro _ _
    exact ⟨cm, setPc_self _ _ _⟩
  · intro cm' hcm
    rw [setPc_self] at hcm
    have heq : cm = cm' := by simpa using hcm
    exact heq ▸ (h.task _).queue_ne_zero cm (.inl hpc)
  · intro d _ _ _ _
    exact .inr ⟨cm, .inl (setPc_self _ _ _)⟩
  · intro d hd hcur hsw' _
    obtain rfl := h.current_unique hc hne hd hcur
    rw [show s.switching d = true from hsw'] at hsw
    cases hsw
  · exact fun _ hsp => hspecial (((static_setState ..).special _).mp hsp)

lemma join (hpc : s.pc (s.smp.current c) = .enqueue cm) (hdone : s.done cm = false) :
    ∃ s', s.enqueueCurrent c cm = .ok s' ∧ CompletionInv cpus s' := by
  obtain ⟨-, hst, hwait, -⟩ := (h.task _).gap cm hpc
  have hspecial : ¬Special s.smp (s.smp.current c) := (h.task _).special (by rw [hpc]; simp)
  have hcm : cm ≠ 0 := (h.task _).queue_ne_zero cm (.inr (.inl hpc))
  have hinv := h.smp.enqueue hne hcm hwait (.inl hst) hspecial
  have hself := Smp.setWaitingOn_self (s.smp.setWaitQueue cm (s.smp.waitQueue cm ++ [s.smp.current c]))
    (s.smp.current c) cm
  have hstatic : Static s.smp ((s.smp.setWaitQueue cm (s.smp.waitQueue cm ++ [s.smp.current c])).setWaitingOn
      (s.smp.current c) cm) := ⟨fun v => Smp.setWaitingOn_cpu _ _ v _, rfl, rfl⟩
  refine ⟨{ s with
    smp := (s.smp.setWaitQueue cm (s.smp.waitQueue cm ++ [s.smp.current c])).setWaitingOn (s.smp.current c) cm }.setPc
      (s.smp.current c) (.switch cm), ?_, hinv, ?_, ?_⟩
  · unfold Completions.enqueueCurrent Smp.waitqueueEnqueue
    rw [assertThat_true (by rw [hst]; decide)]
    rfl
  · intro u
    by_cases hu : u = s.smp.current c
    case neg =>
      refine (h.task u).congr hstatic (Smp.setWaitingOn_other _ _ _ hu)
        (setPc_other _ _ hu) ?_ (fun _ => Iff.rfl) (fun _ _ => rfl)
      refine forall_update (P := fun d l => u ∈ l → u ∈ s.smp.waitQueue d) (fun _ hin => hin) ?_
      intro hin
      exact (List.mem_append.mp hin).resolve_right (fun hu' => hu (List.mem_singleton.mp hu'))
    subst hu
    have hpc' : ∀ {cm'}, CompletionPc.switch cm ≠ .enqueue cm' := by simp
    constructor
    · intro cm' hcm'
      exact absurd ((setPc_self _ _ _).symm.trans hcm') hpc'
    · intro wq _
      exact (Smp.setWaitingOn_state _ _ _ _).trans hst
    · intro _ hwait'
      have h0 : cm = 0 := (congrArg Task.waitingOn hself).symm.trans hwait'
      exact absurd h0 hcm
    · intro cm' hcm'
      rw [setPc_self] at hcm'
      have heq : cm = cm' := by simpa using hcm'
      exact heq ▸ hcm
    · intro d _ _ _ _
      exact .inr ⟨cm, .inr (setPc_self _ _ _)⟩
    · intro d hd hcur hsw' _
      obtain rfl := h.current_unique hc hne hd hcur
      rw [show s.switching d = true from hsw'] at hsw
      cases hsw
    · exact fun _ hsp => hspecial ((hstatic.special _).mp hsp)
  · intro cm' hdone'
    have hne' : cm' ≠ cm := by
      rintro rfl
      rw [show s.done cm' = true from hdone'] at hdone
      cases hdone
    exact (Smp.setWaitQueue_other _ _ _ hne').trans (h.done cm' hdone')

end Current

lemma switched (h : CompletionInv cpus s) {smp : Smp} {v : Bool} (hc : cpus c) (hinv : SmpInv cpus smp)
    (hframe : Frame c s.smp smp) (hgap : ∀ cm, s.pc (s.smp.current c) ≠ .enqueue cm)
    (hrun : v = false → (smp.task (smp.current c)).state = .RUNNING)
    (hspecial : v = true → smp.current c = s.smp.current c ∧ ((smp.task (smp.current c)).state = .RUNNING →
      smp.current c ≠ 0 → Special smp (smp.current c))) :
    CompletionInv cpus ({ s with smp := smp }.setSwitching c v) := by
  have hstatic : Static s.smp smp := ⟨hframe.cpu, hframe.idle, hframe.cleanupTask⟩
  have hself : ({ s with smp := smp }.setSwitching c v).switching c = v := Function.update_self ..
  have hother : ∀ {d}, d ≠ c → ({ s with smp := smp }.setSwitching c v).switching d = s.switching d :=
    fun hd => Function.update_of_ne hd ..
  refine ⟨hinv, ?_, ?_⟩
  · intro u
    obtain ⟨h1, h2, h3, h4, h5, h6, h7⟩ := h.task u
    constructor
    · intro cm hcm
      obtain ⟨g1, g2, g3, g4⟩ := h1 cm hcm
      refine ⟨g1, (hframe.blocked u).mpr g2, (hframe.waitingOn u).trans g3, ?_⟩
      show smp.current (smp.task u).cpu = u
      rw [hframe.cpu, hframe.current, g4]
      intro hcpu
      rw [hcpu] at g4
      exact hgap cm (g4 ▸ hcm)
    · intro wq hin
      refine (hframe.blocked u).mpr (h2 wq ?_)
      rw [← hframe.waitQueue]
      exact hin
    · intro hst hwait
      exact h3 ((hframe.blocked u).mp hst) ((hframe.waitingOn u).symm.trans hwait)
    · exact h4
    · intro d hd hcur hne hsw
      by_cases hdc : d = c
      · subst hdc
        rw [hself] at hsw
        exact .inl (hcur ▸ hrun hsw)
      · rw [hother hdc] at hsw
        have hcur' : s.smp.current d = u := (hframe.current d hdc).symm.trans hcur
        have hcpu : (s.smp.task u).cpu ≠ c := by
          rw [← hcur', (h.smp.cpu d hd).current_cpu (hcur' ▸ hne)]
          exact hdc
        show (smp.task u).state = _ ∨ _
        rw [hframe.other u hcpu]
        exact h5 d hd hcur' hne hsw
    · intro d hd hcur hsw hne
      by_cases hdc : d = c
      · subst hdc
        rw [hself] at hsw
        obtain ⟨hsame, hsp⟩ := hspecial hsw
        refine ⟨fun hst => ?_, fun cm hcm => hgap cm ?_⟩
        · rw [show smp.current d = u from hcur] at hsp
          exact hsp hst hne
        · rw [← hsame, show smp.current d = u from hcur]
          exact hcm
      · rw [hother hdc] at hsw
        have hcur' : s.smp.current d = u := (hframe.current d hdc).symm.trans hcur
        have hcpu : (s.smp.task u).cpu ≠ c := by
          rw [← hcur', (h.smp.cpu d hd).current_cpu (hcur' ▸ hne)]
          exact hdc
        show ((smp.task u).state = _ → Special smp u) ∧ _
        rw [hframe.other u hcpu, hstatic.special]
        exact h6 d hd hcur' hsw hne
    · intro hne hsp
      exact h7 hne ((hstatic.special u).mp hsp)
  · intro cm hdone
    show smp.waitQueue cm = []
    rw [hframe.waitQueue]
    exact h.done cm hdone

lemma beginSwitch (h : CompletionInv cpus s) (hc : cpus c) (hgap : ∀ cm, s.pc (s.smp.current c) ≠ .enqueue cm) :
    ∃ smp, s.smp.putBackPrev c = .ok smp ∧ CompletionInv cpus ({ s with smp := smp }.setSwitching c true) ∧
      Frame c s.smp smp ∧ smp.current = s.smp.current := by
  obtain ⟨smp, hrun, hinv, hframe, hcur, hspecial⟩ := h.smp.putBackPrev hc
    (fun _ hst hwait => by
      obtain ⟨cm, hcm⟩ := (h.task _).blocked hst hwait
      exact hgap cm hcm)
    (fun _ hst _ => h.waitingOn_of_running hst)
  exact ⟨smp, hrun, h.switched hc hinv hframe hgap (fun hv => nomatch hv) (fun _ => ⟨congrFun hcur c, hspecial⟩),
    hframe,
    hcur⟩

lemma endSwitch (h : CompletionInv cpus s) (hc : cpus c) (hsw : s.switching c = true) :
    ∃ s', s.endSwitch c = .ok s' ∧ CompletionInv cpus s' := by
  obtain ⟨smp, hrun, hinv, hframe, -, hst⟩ := h.smp.pick hc
    (fun hst hne => ((h.task _).switching c hc rfl hsw hne).1 hst)
  refine ⟨({ s with smp := smp }).setSwitching c false, ?_, ?_⟩
  · unfold Completions.endSwitch
    rw [hrun]
    rfl
  · refine h.switched hc hinv hframe ?_ (fun _ => hst) (fun hv => nomatch hv)
    intro cm hcm
    exact ((h.task _).switching c hc rfl hsw ((h.task _).gap cm hcm).1).2 cm hcm

lemma left (h : CompletionInv cpus s) (hpc : s.pc t = .switch cm) (hcpu : ∀ d, s.smp.current d = t → cpus d → t ≠ 0 →
    s.switching d = true) : CompletionInv cpus (s.setPc t (.wait cm)) := by
  refine ⟨h.smp, ?_, h.done⟩
  intro u
  by_cases hu : u = t
  case neg =>
    exact (h.task u).congr ⟨fun _ => rfl, rfl, rfl⟩ rfl (setPc_other s _ hu) (fun _ hin => hin) (fun _ => Iff.rfl)
      (fun _ _ => rfl)
  subst hu
  have hself := setPc_self s u (.wait cm)
  obtain ⟨h1, h2, h3, h4, h5, h6, h7⟩ := h.task u
  constructor
  · intro cm' hcm
    rw [hself] at hcm
    cases hcm
  · exact h2
  · intro hst hwait
    obtain ⟨cm', hcm⟩ := h3 hst hwait
    rw [hpc] at hcm
    cases hcm
  · intro cm' hcm
    rw [hself] at hcm
    have heq : cm = cm' := by simpa using hcm
    exact heq ▸ h4 cm (.inr (.inr hpc))
  · intro d hd hcur hne hsw
    have hsw' := hcpu d hcur hd hne
    rw [show s.switching d = false from hsw] at hsw'
    cases hsw'
  · intro d hd hcur hsw hne
    refine ⟨(h6 d hd hcur hsw hne).1, fun cm' hcm => ?_⟩
    rw [hself] at hcm
    cases hcm
  · intro _
    exact h7 (by rw [hpc]; simp)

lemma signal (h : CompletionInv cpus s) (hdone : s.done cm = false) :
    ∃ s', s.completionSignal cm = .ok s' ∧ CompletionInv cpus s' := by
  obtain ⟨smp, hrun, hinv, hstatic, hcurrent, hempty, hother, htask, hready⟩ :=
    h.smp.signalLoop (s.smp.waitQueue cm) rfl (fun t ht => (h.task t).waiter cm ht)
  refine ⟨{ s with smp := smp }.setDone cm true, ?_, hinv, ?_, ?_⟩
  · unfold Completions.completionSignal
    rw [assertThat_true hdone]
    show (Bind.bind (signalLoop cm (s.smp.waitQueue cm) s.smp) _) = _
    rw [hrun]
    rfl
  · intro u
    have hqueue : ∀ wq, u ∈ smp.waitQueue wq → u ∈ s.smp.waitQueue wq ∧ wq ≠ cm := by
      intro wq hin
      have hwq : wq ≠ cm := by
        rintro rfl
        rw [hempty] at hin
        cases hin
      rw [hother wq hwq] at hin
      exact ⟨hin, hwq⟩
    by_cases hu : u ∈ s.smp.waitQueue cm
    case neg =>
      exact (h.task u).congr hstatic (htask u hu) rfl (fun wq hin => (hqueue wq hin).1)
        (fun c => by
          show smp.current c = u ↔ _
          rw [hcurrent])
        (fun _ _ => rfl)
    obtain ⟨h1, h2, h3, h4, h5, h6, h7⟩ := h.task u
    have hst := hready u hu
    have hw := (h.smp.task u).waiter cm hu
    have hnot : ∀ cm', s.pc u ≠ .enqueue cm' := by
      intro cm' hcm
      exact hw.queue_ne_zero (hw.waitingOn.symm.trans (h1 cm' hcm).2.2.1)
    have hcur : ∀ {c}, ({ s with smp := smp }.setDone cm true).smp.current c = u → s.smp.current c = u := by
      intro c hc
      rw [← hcurrent]
      exact hc
    constructor
    · intro cm' hcm
      exact absurd hcm (hnot cm')
    · intro wq hin
      obtain ⟨hin', hwq⟩ := hqueue wq hin
      exact absurd (((h.smp.task u).waiter wq hin').waitingOn.symm.trans hw.waitingOn) hwq
    · intro hblocked
      rw [show (smp.task u).state = .BLOCKED from hblocked] at hst
      cases hst
    · exact h4
    · intro c hc hc' hne hsw
      rcases h5 c hc (hcur hc') hne hsw with hrunning | hpc
      · rw [h2 cm hu] at hrunning
        cases hrunning
      · exact .inr hpc
    · intro c hc hc' hsw hne
      refine ⟨fun hrunning => ?_, hnot⟩
      rw [show (smp.task u).state = .RUNNING from hrunning] at hst
      cases hst
    · exact fun hne hsp => h7 hne ((hstatic.special u).mp hsp)
  · intro cm' hdone'
    by_cases hcm : cm' = cm
    · rw [hcm]
      exact hempty
    · have hdone'' : s.done cm' = true := (Function.update_of_ne hcm ..).symm.trans hdone'
      exact (hother cm' hcm).trans (h.done cm' hdone'')

lemma reset (h : CompletionInv cpus s) (cm : Nat) : CompletionInv cpus (s.completionReset cm) := by
  refine ⟨h.smp, fun u => ?_, ?_⟩
  · exact (h.task u).congr ⟨fun _ => rfl, rfl, rfl⟩ rfl rfl (fun _ hin => hin) (fun _ => Iff.rfl) (fun _ _ => rfl)
  · intro cm' hdone
    have hcm : cm' ≠ cm := by
      rintro rfl
      rw [show (s.completionReset cm').done cm' = false from Function.update_self ..] at hdone
      cases hdone
    exact h.done cm' ((Function.update_of_ne hcm ..).symm.trans hdone)

lemma step (h : CompletionInv cpus s) {op : CompletionOp} (hop : CompletionOp.Allowed cpus s op)
    (horderly : CompletionOp.Orderly s op) {r : Except Halt Completions} (hrun : op.run s = some r) :
    ∃ s', r = .ok s' ∧ CompletionInv cpus s' := by
  obtain ⟨hc, hop⟩ := hop
  cases op with
  | call c cm =>
    obtain ⟨-, hspecial, hcm⟩ := hop
    simp only [CompletionOp.run] at hrun
    split at hrun
    case isTrue hpc =>
      obtain rfl := Option.some.inj hrun
      exact ⟨_, rfl, h.goOn (.inl hpc) (.inr ⟨cm, rfl, hcm, hspecial⟩)⟩
    case isFalse => cases hrun
  | check c =>
    obtain ⟨hsw, hne⟩ := hop
    simp only [CompletionOp.run] at hrun
    split at hrun
    case h_1 cm hpc =>
      obtain rfl := Option.some.inj hrun
      refine ⟨_, rfl, ?_⟩
      unfold Completions.checkDone
      by_cases hdone : s.done cm = true
      · rw [if_pos hdone]
        exact h.goOn (.inr ⟨cm, hpc⟩) (.inl rfl)
      · rw [if_neg hdone]
        exact h.mark hc hne hsw hpc
    case h_2 => cases hrun
  | enqueue c =>
    obtain ⟨hsw, hne⟩ := hop
    simp only [CompletionOp.run] at hrun
    split at hrun
    case h_1 cm hpc =>
      obtain rfl := Option.some.inj hrun
      exact h.join hc hne hsw hpc (horderly cm hpc)
    case h_2 => cases hrun
  | leave c =>
    obtain ⟨hsw, hne⟩ := hop
    simp only [CompletionOp.run] at hrun
    split at hrun
    case h_1 cm hpc =>
      obtain rfl := Option.some.inj hrun
      have hgap : ∀ cm', s.pc (s.smp.current c) ≠ .enqueue cm' := by
        intro cm' hcm
        rw [hpc] at hcm
        cases hcm
      obtain ⟨smp, hput, hinv, hframe, hcur⟩ := h.beginSwitch hc hgap
      refine ⟨_, ?_, hinv.left (t := s.smp.current c) hpc ?_⟩
      · unfold Completions.beginSwitch
        show (Bind.bind (s.smp.putBackPrev c) _) = _
        rw [show s.smp.putBackPrev c = .ok smp from hput]
        rfl
      · intro d hd hcd _
        have hd' : s.smp.current d = s.smp.current c := (congrFun hcur d).symm.trans hd
        obtain rfl := h.current_unique hc hne hcd hd'
        exact Function.update_self ..
    case h_2 => cases hrun
  | signal c cm =>
    obtain rfl := Option.some.inj hrun
    exact h.signal hop.2
  | reset c cm =>
    obtain rfl := Option.some.inj hrun
    exact ⟨_, rfl, h.reset cm⟩
  | timer c =>
    obtain rfl := Option.some.inj hrun
    obtain ⟨smp, hput, hinv, -⟩ := h.beginSwitch hc horderly
    refine ⟨_, ?_, hinv⟩
    unfold Completions.beginSwitch
    rw [show s.smp.putBackPrev c = .ok smp from hput]
    rfl
  | pick c =>
    obtain rfl := Option.some.inj hrun
    exact h.endSwitch hc hop

end CompletionInv

/-- A step of a run: the callers keep their promises and no assertion fails. -/
def CompletionStep (cpus : Nat → Prop) (s s' : Completions) : Prop :=
  ∃ op, CompletionOp.Allowed cpus s op ∧ op.run s = some (.ok s')

/-- A step of an orderly run. -/
def OrderlyCompletionStep (cpus : Nat → Prop) (s s' : Completions) : Prop :=
  ∃ op, CompletionOp.Allowed cpus s op ∧ CompletionOp.Orderly s op ∧ op.run s = some (.ok s')

/-- A task sleeps on a completion that is done. -/
def LostWakeup (s : Completions) : Prop :=
  ∃ cm, s.done cm = true ∧ ∃ t ∈ s.smp.waitQueue cm, (s.smp.task t).state = .BLOCKED

/-- Before the first call every CPU runs a task, and nobody waits. -/
structure CompletionStart (cpus : Nat → Prop) (s : Completions) : Prop where
  smp : SmpInv cpus s.smp
  running : ∀ c, cpus c → s.smp.current c ≠ 0 → (s.smp.task (s.smp.current c)).state = .RUNNING
  nobody : ∀ wq, s.smp.waitQueue wq = []
  unblocked : ∀ t, (s.smp.task t).state ≠ .BLOCKED
  switching : ∀ c, s.switching c = false
  pc : ∀ t, s.pc t = .user

lemma CompletionStart.inv (h : CompletionStart cpus s) : CompletionInv cpus s := by
  refine ⟨h.smp, ?_, fun cm _ => h.nobody cm⟩
  intro t
  have hpc := h.pc t
  constructor
  · intro cm hcm
    rw [hpc] at hcm
    cases hcm
  · intro wq hin
    rw [h.nobody] at hin
    cases hin
  · intro hst
    exact absurd hst (h.unblocked t)
  · intro cm hcm
    rw [hpc] at hcm
    simp at hcm
  · rintro c hc rfl hne -
    exact .inl (h.running c hc hne)
  · intro c hc hcur hsw
    rw [h.switching] at hsw
    cases hsw
  · exact fun hne => absurd hpc hne

/-- **No lost wake-up.** In every orderly run no task sleeps on a completion that is done, and no
assertion fails. -/
theorem orderly_completion_never_lost (hstart : CompletionStart cpus s)
    (hrun : Relation.ReflTransGen (OrderlyCompletionStep cpus) s s') :
    ¬LostWakeup s' ∧ ∀ op, CompletionOp.Allowed cpus s' op → CompletionOp.Orderly s' op →
      ∀ e, op.run s' ≠ some (.error e) := by
  have hinv : CompletionInv cpus s' := by
    induction hrun with
    | refl => exact hstart.inv
    | tail _ hstep ih =>
      obtain ⟨op, hop, horderly, hrun'⟩ := hstep
      obtain ⟨s'', heq, hinv⟩ := ih.step hop horderly hrun'
      obtain rfl := Except.ok.inj heq
      exact hinv
  constructor
  · rintro ⟨cm, hdone, t, hin, -⟩
    rw [hinv.done cm hdone] at hin
    cases hin
  · intro op hop horderly e hfail
    obtain ⟨s'', heq, -⟩ := hinv.step hop horderly hfail
    cases heq

def completionBoot : Completions where
  smp := twoCpus
  switching _ := false
  pc _ := .user
  done _ := false

lemma completionBoot_start : CompletionStart OneOrTwo completionBoot where
  smp := twoCpus_inv
  running := by rintro c (rfl | rfl) - <;> rfl
  nobody _ := rfl
  unblocked t := (twoCpuTask_cases t).2.1
  switching _ := rfl
  pc _ := rfl

def completionCalled : Completions := afterSteps CompletionOp.run completionBoot [.call 1 0x500]

def completionMarked : Completions := afterSteps CompletionOp.run completionCalled [.check 1]

def completionSignalled : Completions := afterSteps CompletionOp.run completionMarked [.signal 2 0x500]

def completionLost : Completions := afterSteps CompletionOp.run completionSignalled [.enqueue 1]

lemma completionBoot_steps : CompletionOp.Allowed OneOrTwo completionBoot (.call 1 0x500) ∧
    CompletionOp.Allowed OneOrTwo completionCalled (.check 1) := by
  unfold CompletionOp.Allowed OneOrTwo Special
  decide +kernel

/-- A signal of CPU 2 in the gap is lost, and the timer of CPU 1 in the gap trips an assertion. -/
theorem completion_lost_in_gap : CompletionStart OneOrTwo completionBoot ∧
    (∃ s, Relation.ReflTransGen (CompletionStep OneOrTwo) completionBoot s ∧ LostWakeup s) ∧
    ∃ s op, Relation.ReflTransGen (CompletionStep OneOrTwo) completionBoot s ∧ CompletionOp.Allowed OneOrTwo s op ∧
      op.run s = some (.error .panic) := by
  obtain ⟨h1, h2⟩ := completionBoot_steps
  have h3 : CompletionOp.Allowed OneOrTwo completionMarked (.signal 2 0x500) ∧
      CompletionOp.Allowed OneOrTwo completionSignalled (.enqueue 1) ∧
      CompletionOp.Allowed OneOrTwo completionMarked (.timer 1) := by
    unfold CompletionOp.Allowed OneOrTwo Special
    decide +kernel
  have hmarked : Relation.ReflTransGen (CompletionStep OneOrTwo) completionBoot completionMarked := by
    refine (Relation.ReflTransGen.single ⟨_, h1, ?_⟩).tail ⟨_, h2, ?_⟩ <;> exact step_afterSteps (by decide +kernel)
  refine ⟨completionBoot_start, ⟨completionLost, ?_, 0x500, ?_⟩, completionMarked, .timer 1, hmarked, h3.2.2, ?_⟩
  · refine (hmarked.tail ⟨_, h3.1, ?_⟩).tail ⟨_, h3.2.1, ?_⟩ <;> exact step_afterSteps (by decide +kernel)
  · decide +kernel
  · exact eq_error_of_haltOf (by decide +kernel)

def completionWaiting : Completions := afterSteps CompletionOp.run completionMarked [.enqueue 1]

def completionWoken : Completions := afterSteps CompletionOp.run completionWaiting [.signal 2 0x500]

/-- The same signal, sent after the task of CPU 1 has joined the queue. -/
theorem orderly_completion_never_lost_waiting : CompletionStart OneOrTwo completionBoot ∧
    Relation.ReflTransGen (OrderlyCompletionStep OneOrTwo) completionBoot completionWoken ∧
    completionWoken.done 0x500 = true ∧ ¬LostWakeup completionWoken := by
  obtain ⟨h1, h2⟩ := completionBoot_steps
  have h3 : CompletionOp.Allowed OneOrTwo completionMarked (.enqueue 1) ∧
      CompletionOp.Allowed OneOrTwo completionWaiting (.signal 2 0x500) := by
    unfold CompletionOp.Allowed OneOrTwo Special
    decide +kernel
  have horderly : CompletionOp.Orderly completionMarked (.enqueue 1) := fun _ _ => rfl
  have hrun : Relation.ReflTransGen (OrderlyCompletionStep OneOrTwo) completionBoot completionWoken := by
    refine (((Relation.ReflTransGen.single ⟨_, h1, trivial, ?_⟩).tail ⟨_, h2, trivial, ?_⟩).tail
      ⟨_, h3.1, horderly, ?_⟩).tail ⟨_, h3.2, trivial, ?_⟩ <;> exact step_afterSteps (by decide +kernel)
  exact ⟨completionBoot_start, hrun, by decide +kernel, (orderly_completion_never_lost completionBoot_start hrun).1⟩

end KaworuOS.Proofs
