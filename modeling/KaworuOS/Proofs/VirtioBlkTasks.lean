import KaworuOS.Lib.Outcome
import KaworuOS.Proofs.VirtioBlk

/-!
# Several tasks in the block driver

All requests share one page and three descriptors. A task that enters the driver while another one is
inside overwrites what that one has submitted. When a call begins only after the others have
returned, the driver is at every time that of a single caller.
-/

namespace KaworuOS.Proofs
open Lib

variable {s s' : BlkTasks} {t u : Nat}

/-- A call begins when no other call is inside of the driver, and the completion is armed when the
interrupts of the earlier requests have been handled. -/
def BlkTasksOp.Serial (s : BlkTasks) : BlkTasksOp → Prop
  | .call _ _ => ∀ u, s.pc u = .idle
  | .go t => s.pc t = .reset → s.dev.unsent = 0 ∧ s.dev.isr = false ∧ s.dev.handler = .idle
  | _ => True

/-- The task has published its request. -/
def BlkPc.Submitted (pc : BlkPc) : Prop := pc = .lastUsed ∨ BlkPc.Waiting pc ∨ pc = .finish ∨ pc = .copy

/-- The driver with a given call in it. -/
def Blk.seenBy (d : Blk) (pc : BlkPc) (call : BlkCall) : Blk := { d with pc := pc, call := call, answer := none }

lemma Progress.congr_call {d : Blk} {call : BlkCall} {answer : Option BlkAnswer} (h : Progress d)
    (hcall : call = d.call ∨ d.pc = .idle) : Progress { d with call := call, answer := answer } := by
  cases h with
  | rest hpc hrest hused => exact .rest hpc (hrest.congr rfl rfl rfl rfl rfl) hused
  | armed hpc hrest hsilent hused =>
    exact .armed hpc (hrest.congr rfl rfl rfl rfl rfl) ⟨hsilent.owed, hsilent.done⟩ hused
  | pending hpc hsilent hstage =>
    obtain rfl : call = d.call := hcall.resolve_right (ne_idle_of_filling hpc.not_filling)
    refine .pending hpc ⟨hsilent.owed, hsilent.done⟩ ?_
    rcases hstage with ho | ⟨r, hr⟩
    · exact .inl ⟨ho.flight, ho.seen, ho.taken, ho.ring⟩
    · exact .inr ⟨r, hr.flight, hr.seen, hr.taken, hr.id, hr.writing, hr.sector, hr.moved, hr.answered⟩
  | completed hpc hdone =>
    have hne : d.pc ≠ .idle := by
      rintro hidle
      simp [hidle, BlkPc.Waiting] at hpc
    obtain rfl : call = d.call := hcall.resolve_right hne
    exact .completed hpc ⟨hdone.rest.congr rfl rfl rfl rfl rfl, hdone.mem, hdone.data⟩

lemma BlkInv.congr_call {d : Blk} (h : BlkInv d) (call : BlkCall) (hcall : call = d.call ∨ d.pc = .idle) :
    BlkInv { d with call := call, answer := none } := by
  have heq : d.pc ≠ .idle → call = d.call := hcall.resolve_right
  refine ⟨h.ack, h.once, fun hf => ?_, fun hf => ?_, fun hf => ?_, h.progress.congr_call hcall,
    fun a ha => (nomatch ha)⟩
  · obtain rfl := heq (by rcases hf with hf | hf <;> rw [hf] <;> decide)
    exact h.data hf
  · obtain rfl := heq (by rw [hf]; decide)
    obtain ⟨htype, hsector⟩ := h.header hf
    exact ⟨htype, hsector⟩
  · obtain rfl := heq (ne_idle_of_filling hf)
    exact (h.prepared hf).congr rfl rfl rfl (fun _ => rfl) rfl rfl

lemma Blk.take_seenBy (d : Blk) (pc : BlkPc) (call : BlkCall) :
    (Blk.seenBy d pc call).take = d.take.map (Blk.seenBy · pc call) := by
  unfold Blk.take
  split <;> split <;> first | rfl | contradiction

lemma Blk.move_seenBy (d : Blk) (pc : BlkPc) (call : BlkCall) (r : DeviceRequest) :
    (Blk.seenBy d pc call).move r = (d.move r).map (Blk.seenBy · pc call) := by
  by_cases hc : r ∈ d.flight ∧ r.stage = .taken
  · simp only [Blk.move, Blk.seenBy, hc, and_self, if_true]
    cases r.writing <;> rfl
  · simp only [Blk.move, Blk.seenBy, hc, if_false, Option.map_none]

lemma Blk.respond_seenBy (d : Blk) (pc : BlkPc) (call : BlkCall) (r : DeviceRequest) (status : UInt8) :
    (Blk.seenBy d pc call).respond r status = (d.respond r status).map (Blk.seenBy · pc call) := by
  unfold Blk.respond
  split <;> split <;> first | rfl | contradiction

lemma Blk.complete_seenBy (d : Blk) (pc : BlkPc) (call : BlkCall) (r : DeviceRequest) :
    (Blk.seenBy d pc call).complete r = (d.complete r).map (Blk.seenBy · pc call) := by
  unfold Blk.complete
  split <;> split <;> first | rfl | contradiction

lemma Blk.raise_seenBy (d : Blk) (pc : BlkPc) (call : BlkCall) :
    (Blk.seenBy d pc call).raise = d.raise.map (Blk.seenBy · pc call) := by
  unfold Blk.raise
  split <;> split <;> first | rfl | contradiction

lemma Blk.go_call {d v : Blk} (h : d.go = some v) : v.call = d.call := by
  unfold Blk.go at h
  split at h
  case h_1 | h_11 => cases h
  case h_8 =>
    obtain rfl := Option.some.inj h
    split <;> rfl
  case h_12 =>
    obtain rfl := Option.some.inj h
    unfold Blk.finish
    split
    · rfl
    · split <;> rfl
  all_goals
    obtain rfl := Option.some.inj h
    rfl

lemma Blk.go_answer {d v : Blk} (h : d.go = some v) (hpc : v.pc = .idle) :
    ∃ errno copied, v.answer = some ⟨d.call, d.published, errno, copied⟩ := by
  unfold Blk.go at h
  split at h
  case h_1 | h_11 => cases h
  case h_7 =>
    obtain rfl := Option.some.inj h
    dsimp only at hpc
    split at hpc <;> cases hpc
  case h_8 hpoll =>
    obtain rfl := Option.some.inj h
    split at hpc
    · rw [hpoll] at hpc
      cases hpc
    · cases hpc
  case h_9 =>
    obtain rfl := Option.some.inj h
    dsimp only at hpc
    split at hpc <;> cases hpc
  case h_12 =>
    obtain rfl := Option.some.inj h
    unfold Blk.finish at hpc ⊢
    split
    · exact ⟨_, _, rfl⟩
    · rename_i hzero
      rw [if_neg hzero] at hpc
      split
      · exact ⟨_, _, rfl⟩
      · rename_i hread
        rw [if_neg hread] at hpc
        cases hpc
  case h_13 =>
    obtain rfl := Option.some.inj h
    exact ⟨_, _, rfl⟩
  all_goals
    obtain rfl := Option.some.inj h
    cases hpc

/-- At most one task is inside of the driver, and for it the driver is that of a single caller. -/
def BlkTasksInv (s : BlkTasks) : Prop := ∃ t, (∀ u, u ≠ t → s.pc u = .idle) ∧ BlkInv (s.view t)

lemma BlkTasksInv.view_idle (h : BlkTasksInv s) (hidle : ∀ u, s.pc u = .idle) (t : Nat) : BlkInv (s.view t) := by
  obtain ⟨v, -, hv⟩ := h
  have hswap := hv.congr_call (s.call t) (.inr (hidle v))
  have heq : s.view t = { s.view v with call := s.call t, answer := none } := by
    simp only [BlkTasks.view, hidle]
  rw [heq]
  exact hswap

lemma BlkTasksInv.begin (h : BlkTasksInv s) (hidle : ∀ u, s.pc u = .idle) (call : BlkCall) :
    BlkTasksInv (s.begin t call) := by
  refine ⟨t, fun u hu => ?_, ?_⟩
  · simp only [BlkTasks.begin, Function.update_of_ne hu]
    exact hidle u
  · have hbegin := (h.view_idle hidle t).begin (hidle t) call
    have heq : (s.begin t call).view t = (s.view t).begin call := by
      simp only [BlkTasks.begin, BlkTasks.view, Function.update_self]
      rfl
    rw [heq]
    exact hbegin

lemma BlkTasksInv.inside (h : BlkTasksInv s) (hpc : s.pc t ≠ .idle) :
    (∀ u, u ≠ t → s.pc u = .idle) ∧ BlkInv (s.view t) := by
  obtain ⟨v, hothers, hv⟩ := h
  obtain rfl : t = v := by
    by_contra hne
    exact hpc (hothers t hne)
  exact ⟨hothers, hv⟩

lemma Blk.ne_idle_of_go {d v : Blk} (h : d.go = some v) : d.pc ≠ .idle := by
  intro hpc
  rw [Blk.go, hpc] at h
  cases h

lemma BlkTasksInv.go (h : BlkTasksInv s) (hserial : BlkTasksOp.Serial s (.go t)) (hgo : s.go t = some s') :
    BlkTasksInv s' := by
  obtain ⟨v, hv, rfl⟩ := Option.map_eq_some_iff.mp hgo
  obtain ⟨hothers, hview⟩ := h.inside (Blk.ne_idle_of_go hv)
  have hinv : BlkInv v := hview.go hserial hv
  refine ⟨t, fun u hu => ?_, ?_⟩
  · dsimp only
    rw [Function.update_of_ne hu]
    exact hothers u hu
  · have hcall := hinv.congr_call (s.call t) (.inl (Blk.go_call hv).symm)
    simp only [BlkTasks.view, Function.update_self]
    exact hcall

lemma BlkTasksInv.device (h : BlkTasksInv s) {f : Blk → Option Blk} {d : Blk}
    (hseen : ∀ d pc call, f (Blk.seenBy d pc call) = (f d).map (Blk.seenBy · pc call))
    (hf : ∀ {d d' : Blk}, BlkInv d → f d = some d' → BlkInv d') (hd : f s.dev = some d) :
    BlkTasksInv { s with dev := d } := by
  obtain ⟨t, hothers, hview⟩ := h
  refine ⟨t, hothers, hf hview ?_⟩
  have heq := hseen s.dev (s.pc t) (s.call t)
  rw [hd] at heq
  exact heq

lemma BlkTasksInv.irq (h : BlkTasksInv s) : ∃ s', s.irq = .ok s' ∧ BlkTasksInv s' := by
  obtain ⟨t, hothers, hview⟩ := h
  obtain ⟨v, hv, hinv⟩ := hview.irq
  unfold BlkTasks.irq
  have hdone : s.dev.handler = .assert → s.dev.done = false := fun hh => hview.not_done (.inl hh)
  unfold Blk.irq at hv ⊢
  cases hh : s.dev.handler with
  | idle =>
    refine ⟨_, rfl, t, hothers, ?_⟩
    simp only [BlkTasks.view, hh] at hv
    obtain rfl := Except.ok.inj hv
    by_cases hisr : s.dev.isr = true
    · simp only [hisr, if_true, BlkTasks.view] at hinv ⊢
      exact hinv
    · simp only [hisr, hh, Bool.false_eq_true, if_false, BlkTasks.view] at hinv ⊢
      exact hinv
  | ack =>
    refine ⟨_, rfl, t, hothers, ?_⟩
    simp only [BlkTasks.view, hh] at hv
    obtain rfl := Except.ok.inj hv
    exact hinv
  | assert =>
    simp only [BlkTasks.view, hh, assertThat_true (hdone hh)] at hv
    refine ⟨{ s with dev := { s.dev with handler := .signal } }, ?_, t, hothers, ?_⟩
    · simp only [assertThat_true (hdone hh)]
      rfl
    · obtain rfl := Except.ok.inj hv
      exact hinv
  | signal =>
    simp only [BlkTasks.view, hh] at hv
    obtain rfl := Except.ok.inj hv
    refine ⟨_, rfl, t, fun u hu => ?_, hinv⟩
    simp [hothers u hu]

lemma BlkTasksInv.op (h : BlkTasksInv s) {op : BlkTasksOp} (hserial : BlkTasksOp.Serial s op)
    (hrun : op.run s = some (.ok s')) : BlkTasksInv s' := by
  have hmap : ∀ {x : Option Blk}, x.map (fun d => Except.ok (ε := Halt) { s with dev := d }) = some (.ok s') →
      ∃ d, x = some d ∧ { s with dev := d } = s' := by
    intro x hx
    obtain ⟨d, hd, heq⟩ := Option.map_eq_some_iff.mp hx
    exact ⟨d, hd, Except.ok.inj heq⟩
  cases op with
  | call t c =>
    simp only [BlkTasksOp.run] at hrun
    split at hrun
    · obtain rfl := Except.ok.inj (Option.some.inj hrun)
      exact h.begin hserial c
    · cases hrun
  | go t =>
    obtain ⟨s₁, hgo, heq⟩ := Option.map_eq_some_iff.mp hrun
    obtain rfl := Except.ok.inj heq
    exact h.go hserial hgo
  | take =>
    obtain ⟨d, hd, rfl⟩ := hmap hrun
    exact h.device Blk.take_seenBy BlkInv.take hd
  | move r =>
    obtain ⟨d, hd, rfl⟩ := hmap hrun
    exact h.device (Blk.move_seenBy · · · r) BlkInv.move hd
  | respond r status =>
    obtain ⟨d, hd, rfl⟩ := hmap hrun
    exact h.device (Blk.respond_seenBy · · · r status) BlkInv.respond hd
  | complete r =>
    obtain ⟨d, hd, rfl⟩ := hmap hrun
    exact h.device (Blk.complete_seenBy · · · r) BlkInv.complete hd
  | raise =>
    obtain ⟨d, hd, rfl⟩ := hmap hrun
    exact h.device Blk.raise_seenBy BlkInv.raise hd
  | irq =>
    obtain ⟨s₁, hirq, hinv⟩ := h.irq
    obtain rfl := Except.ok.inj (hirq.symm.trans (Option.some.inj hrun))
    exact hinv

/-- A step of a task, of the device or of the handler that meets `cond`. -/
def BlkTasksStep (cond : BlkTasks → BlkTasksOp → Prop) (s s' : BlkTasks) : Prop :=
  ∃ op, cond s op ∧ BlkTasksOp.run s op = some (.ok s')

/-- Before the first call all tasks are outside of the driver, and the driver has just been set up. -/
structure BlkTasksStart (s : BlkTasks) : Prop where
  idle : ∀ t, s.pc t = .idle
  dev : BlkStart s.dev

/-- What a task has submitted stays as it is until the device has completed it, and a call that
returns EOK has read or written its own sector. -/
structure BlkTasksSafe (s : BlkTasks) : Prop where
  kept : ∀ t, BlkPc.Submitted (s.pc t) → s.id t ∉ s.dev.completed → Prepared (s.view t)
  answers : ∀ t s', BlkTasksOp.run s (.go t) = some (.ok s') → s'.pc t = .idle →
    ∃ a, s'.answer t = some a ∧ a.call = s.call t ∧ (a.errno = .EOK →
      (a.call.writing = false → a.copied = some (s'.dev.disk a.call.sector)) ∧
      ∀ buf, a.call.buf = some buf → s'.dev.disk a.call.sector = buf)

lemma BlkPc.Submitted.not_filling {pc : BlkPc} (h : BlkPc.Submitted pc) : BlkPc.filling pc = false := by
  rcases h with rfl | h | rfl | rfl
  · rfl
  · exact h.not_filling
  · rfl
  · rfl

lemma BlkTasksInv.safe (h : BlkTasksInv s) : BlkTasksSafe s := by
  refine ⟨fun t hpc _ => ?_, fun t s' hrun hidle => ?_⟩
  · exact (h.inside (ne_idle_of_filling (s := s.view t) hpc.not_filling)).2.prepared hpc.not_filling
  · obtain ⟨s₁, hgo, heq⟩ := Option.map_eq_some_iff.mp hrun
    obtain rfl := Except.ok.inj heq
    obtain ⟨v, hv, rfl⟩ := Option.map_eq_some_iff.mp hgo
    dsimp only at hidle ⊢
    rw [Function.update_self] at hidle
    have hinv : BlkInv v := by
      refine (h.inside (Blk.ne_idle_of_go hv)).2.go (fun hreset => ?_) hv
      rw [Blk.go, hreset] at hv
      obtain rfl := Option.some.inj hv
      cases hidle
    obtain ⟨errno, copied, hanswer⟩ := Blk.go_answer hv hidle
    have hok := hinv.answer _ hanswer
    refine ⟨⟨s.call t, s.id t, errno, copied⟩, ?_, rfl, fun herr => ?_⟩
    · rw [hanswer]
      exact Function.update_self ..
    · exact ⟨fun hread => hok.copied hread herr, fun buf hbuf => hok.stored buf hbuf herr⟩

/-- **Requests do not mix** in a run in which a call begins only after the other calls have returned
and the interrupts of their requests have been handled. -/
theorem serial_requests_do_not_mix {s₀ : BlkTasks} (hstart : BlkTasksStart s₀)
    (hrun : Relation.ReflTransGen (BlkTasksStep BlkTasksOp.Serial) s₀ s) : BlkTasksSafe s := by
  have hinv : BlkTasksInv s := by
    induction hrun with
    | refl =>
      refine ⟨0, fun u _ => hstart.idle u, ?_⟩
      have hcall := hstart.dev.inv.congr_call (s₀.call 0) (.inr hstart.dev.pc)
      simp only [BlkTasks.view, hstart.idle 0, ← hstart.dev.pc]
      exact hcall
    | tail _ hstep ih =>
      obtain ⟨op, hserial, hop⟩ := hstep
      exact ih.op hserial hop
  exact hinv.safe

/-- The tasks before the first call. -/
def blkTasksBoot : BlkTasks := ⟨blkBoot, fun _ => .idle, fun _ => .read 0, fun _ => none, fun _ => 0⟩

lemma blkTasksBoot_start : BlkTasksStart blkTasksBoot := ⟨fun _ => rfl, blkBoot_start⟩

/-- The task `t` prepares a call, up to its submission. -/
def tasksPrepare (t : Nat) (call : BlkCall) : List BlkTasksOp := [.call t call, .go t, .go t]

/-- The task `t` submits the request that is prepared. -/
def tasksSubmit (t : Nat) : List BlkTasksOp := [.go t, .go t, .go t, .go t]

/-- The device works on the request `id`, and its interrupt is handled. -/
def tasksServe (id n : Nat) (writing : Bool) : List BlkTasksOp :=
  [.take, .move ⟨id, writing, n, .taken⟩, .respond ⟨id, writing, n, .moved⟩ 0, .complete ⟨id, writing, n, .answered⟩,
    .raise, .irq, .irq, .irq, .irq]

/-- The request of one task is overwritten by another one: after its submission, so that the device
sees another sector; or before, so that a write stores nothing and a read gets another sector. -/
theorem overlapping_requests_mix : BlkTasksStart blkTasksBoot ∧
    (∃ s, Relation.ReflTransGen (BlkTasksStep fun _ _ => True) blkTasksBoot s ∧ BlkPc.Submitted (s.pc 1) ∧
      s.id 1 ∉ s.dev.completed ∧ s.call 1 = .read 5 ∧ s.dev.request.sector = 6) ∧
    (∃ s a, Relation.ReflTransGen (BlkTasksStep fun _ _ => True) blkTasksBoot s ∧ s.answer 1 = some a ∧
      a.call = .write 5 (fun _ => 9) ∧ a.errno = .EOK ∧ s.dev.disk 5 ≠ fun _ => 9) ∧
    ∃ s a, Relation.ReflTransGen (BlkTasksStep fun _ _ => True) blkTasksBoot s ∧ s.answer 1 = some a ∧
      a.call = .read 5 ∧ a.errno = .EOK ∧ a.copied = some (s.dev.disk 6) ∧ s.dev.disk 5 ≠ s.dev.disk 6 := by
  have hsteps : ∀ {ops s}, checkSteps BlkTasksOp.run (fun _ _ => true) blkTasksBoot ops = true →
      runSteps BlkTasksOp.run blkTasksBoot ops = some s →
      Relation.ReflTransGen (BlkTasksStep fun _ _ => True) blkTasksBoot s :=
    fun hall hs => runSteps_rel (fun _ hop => ⟨_, trivial, hop⟩) hall hs
  refine ⟨blkTasksBoot_start, ?_, ?_, ?_⟩
  · refine ⟨afterSteps BlkTasksOp.run blkTasksBoot
      (tasksPrepare 1 (.read 5) ++ tasksSubmit 1 ++ tasksPrepare 2 (.read 6)),
      hsteps (by decide +kernel) (runSteps_afterSteps (by decide +kernel)), .inr (.inl (.inr (.inl ?_))),
      by decide +kernel, by rfl, by decide +kernel⟩
    decide +kernel
  · refine ⟨afterSteps BlkTasksOp.run blkTasksBoot (tasksPrepare 1 (.write 5 fun _ => 9) ++ tasksPrepare 2 (.read 6) ++
      tasksSubmit 1 ++ tasksServe 1 6 false ++ [.go 1, .go 1]), ⟨.write 5 fun _ => 9, 1, .EOK, none⟩,
      hsteps (by decide +kernel) (runSteps_afterSteps (by decide +kernel)), by rfl, rfl, rfl, fun heq => ?_⟩
    exact absurd (congrFun heq 0) (by decide +kernel)
  · refine ⟨afterSteps BlkTasksOp.run blkTasksBoot (tasksPrepare 1 (.read 5) ++ tasksPrepare 2 (.read 6) ++
      tasksSubmit 1 ++ tasksServe 1 6 false ++ [.go 1, .go 1, .go 1]), ⟨.read 5, 1, .EOK, some (blkBoot.disk 6)⟩,
      hsteps (by decide +kernel) (runSteps_afterSteps (by decide +kernel)), by rfl, rfl, rfl, by rfl, fun heq => ?_⟩
    exact absurd (congrFun heq 0) (by decide +kernel)

/-- A step of the tasks 1 and 2 that takes its turn. -/
def takesTurn (s : BlkTasks) : BlkTasksOp → Bool
  | .call t _ => (t == 1 || t == 2) && s.pc 1 == .idle && s.pc 2 == .idle
  | .go t => (t == 1 || t == 2) &&
      (s.pc t != .reset || (s.dev.unsent == 0 && !s.dev.isr && s.dev.handler == .idle))
  | _ => true

/-- Only the tasks 1 and 2 use the driver. -/
def TwoTasks (s : BlkTasks) : Prop := ∀ u, u ≠ 1 → u ≠ 2 → s.pc u = .idle

lemma takesTurn_serial {op : BlkTasksOp} (hs : TwoTasks s) (h : takesTurn s op = true)
    (hrun : BlkTasksOp.run s op = some (.ok s')) : BlkTasksStep BlkTasksOp.Serial s s' ∧ TwoTasks s' := by
  have hdevice : ∀ {x : Option Blk}, x.map (fun d => Except.ok (ε := Halt) { s with dev := d }) = some (.ok s') →
      TwoTasks s' := by
    intro x hx
    obtain ⟨d, -, heq⟩ := Option.map_eq_some_iff.mp hx
    obtain rfl := Except.ok.inj heq
    exact hs
  have hother : ∀ {t u : Nat} {pc : BlkPc}, t = 1 ∨ t = 2 → u ≠ 1 → u ≠ 2 → Function.update s.pc t pc u = .idle := by
    intro t u pc ht h1 h2
    rw [Function.update_of_ne (by rcases ht with rfl | rfl <;> assumption)]
    exact hs u h1 h2
  cases op with
  | call t c =>
    simp only [takesTurn, Bool.and_eq_true, Bool.or_eq_true, beq_iff_eq] at h
    obtain ⟨⟨ht, hpc1⟩, hpc2⟩ := h
    refine ⟨⟨.call t c, fun u => ?_, hrun⟩, ?_⟩
    · by_cases h1 : u = 1
      · rw [h1, hpc1]
      · by_cases h2 : u = 2
        · rw [h2, hpc2]
        · exact hs u h1 h2
    · simp only [BlkTasksOp.run] at hrun
      split at hrun
      · obtain rfl := Except.ok.inj (Option.some.inj hrun)
        exact fun u h1 h2 => hother ht h1 h2
      · cases hrun
  | go t =>
    simp only [takesTurn, Bool.and_eq_true, Bool.or_eq_true, beq_iff_eq, bne_iff_ne, Bool.not_eq_true'] at h
    obtain ⟨ht, hreset⟩ := h
    refine ⟨⟨.go t, fun hpc => ?_, hrun⟩, ?_⟩
    · obtain ⟨⟨hunsent, hisr⟩, hhandler⟩ := hreset.resolve_left (not_not_intro hpc)
      exact ⟨hunsent, hisr, hhandler⟩
    · obtain ⟨s₁, hgo, heq⟩ := Option.map_eq_some_iff.mp hrun
      obtain rfl := Except.ok.inj heq
      obtain ⟨v, -, rfl⟩ := Option.map_eq_some_iff.mp hgo
      exact fun u h1 h2 => hother ht h1 h2
  | take => exact ⟨⟨.take, trivial, hrun⟩, hdevice hrun⟩
  | move r => exact ⟨⟨.move r, trivial, hrun⟩, hdevice hrun⟩
  | respond r status => exact ⟨⟨.respond r status, trivial, hrun⟩, hdevice hrun⟩
  | complete r => exact ⟨⟨.complete r, trivial, hrun⟩, hdevice hrun⟩
  | raise => exact ⟨⟨.raise, trivial, hrun⟩, hdevice hrun⟩
  | irq =>
    refine ⟨⟨.irq, trivial, hrun⟩, fun u h1 h2 => ?_⟩
    have hirq := Option.some.inj hrun
    obtain ⟨d, -, heq⟩ := bind_eq_ok.mp hirq
    obtain rfl := Except.ok.inj heq
    have hidle := hs u h1 h2
    dsimp only
    split <;> simp [hidle]

/-- Task 1 writes a sector, and then task 2 reads it. -/
theorem serial_requests_do_not_mix_twice : BlkTasksStart blkTasksBoot ∧
    ∃ s, Relation.ReflTransGen (BlkTasksStep BlkTasksOp.Serial) blkTasksBoot s ∧
      s.answer 2 = some ⟨.read 5, 2, .EOK, some fun _ => 9⟩ ∧ BlkTasksSafe s := by
  have hrun : Relation.ReflTransGen (BlkTasksStep BlkTasksOp.Serial) blkTasksBoot
      (afterSteps BlkTasksOp.run blkTasksBoot (tasksPrepare 1 (.write 5 fun _ => 9) ++ tasksSubmit 1 ++
        tasksServe 1 5 true ++ [.go 1, .go 1] ++ tasksPrepare 2 (.read 5) ++ tasksSubmit 2 ++ tasksServe 2 5 false ++
        [.go 2, .go 2, .go 2])) :=
    runSteps_rel_of_inv (I := TwoTasks) takesTurn_serial (fun _ _ _ => rfl) (by decide +kernel)
      (runSteps_afterSteps (by decide +kernel))
  exact ⟨blkTasksBoot_start, _, hrun, by rfl, serial_requests_do_not_mix blkTasksBoot_start hrun⟩

end KaworuOS.Proofs
