import KaworuOS.Lib.Outcome
import KaworuOS.Spinlock
import Mathlib.Tactic.Cases

/-!
# Spinlocks mask the interrupts of their CPU

The depth counts the locks that a CPU holds or waits for, and the mask at depth 0 is restored with the last of them,
in whichever order they are released.
-/

namespace KaworuOS.Proofs
open Lib

/-- What the callers promise on a CPU that takes at most `limit` locks at a time: no lock is acquired that is held, and
only held ones are released. The other CPUs leave the held ones alone and do not write `cpu` into any. -/
def SpinOp.Allowed (cpu limit : Nat) (s : SpinCpu) : SpinOp → Prop
  | .acquire sp => s.spinning = none ∧ sp ∉ s.held ∧ s.held.length < limit
  | .turn sp => s.spinning = some sp
  | .release sp => s.spinning = none ∧ sp ∈ s.held
  | .other sp lock => sp ∉ s.held ∧ lock.cpu ≠ cpu

/-- A CPU that holds no lock, with IRQ and FIQ masked or unmasked together. -/
structure SpinStart (cpu : Nat) (s : SpinCpu) : Prop where
  held : s.held = []
  spinning : s.spinning = none
  depth : s.irqDisableDepth = 0
  together : s.daif &&& DAIF_I = 0 ↔ s.daif &&& DAIF_F = 0
  free : ∀ sp, s.holding cpu sp = false

/-- The runs of a CPU, in which it takes at most `limit` locks at a time. -/
inductive SpinRun (cpu limit : Nat) (s₀ : SpinCpu) : SpinCpu → Prop
  | start : SpinRun cpu limit s₀ s₀
  | step {s s' : SpinCpu} (h : SpinRun cpu limit s₀ s) (op : SpinOp) (hallowed : SpinOp.Allowed cpu limit s op)
      (hrun : op.run s cpu = .ok s') : SpinRun cpu limit s₀ s'

/-- The mask follows the locks: between the calls the depth is the number of locks held, the interrupts are disabled
while it is positive, no call panics, and without a lock the interrupts are as they were before the first one. -/
structure MaskFollows (cpu : Nat) (s₀ s : SpinCpu) : Prop where
  depth : s.spinning = none → s.irqDisableDepth.toInt = s.held.length
  disabled : 0 < s.irqDisableDepth.toInt → s.daif &&& (DAIF_F ||| DAIF_I) = DAIF_F ||| DAIF_I
  acquires : s.spinning = none → ∀ sp, sp ∉ s.held → ∃ s', s.spinlockAcquire cpu sp = .ok s'
  releases : s.spinning = none → ∀ sp ∈ s.held, ∃ s', s.spinlockRelease cpu sp = .ok s'
  restored : s.spinning = none → s.held = [] → rIntrdEnabled s.daif = rIntrdEnabled s₀.daif

/-- The locks that the CPU holds or waits for. -/
def SpinCpu.level (s : SpinCpu) : Nat := s.held.length + if s.spinning.isSome then 1 else 0

/-- The invariant of a run. -/
structure SpinInv (cpu limit : Nat) (s₀ s : SpinCpu) : Prop where
  nodup : s.held.Nodup
  mine : ∀ sp, s.holding cpu sp = true ↔ sp ∈ s.held
  waits : ∀ sp, s.spinning = some sp → sp ∉ s.held
  bound : SpinCpu.level s ≤ limit
  depth : s.irqDisableDepth = BitVec.ofNat 32 (SpinCpu.level s)
  outside : SpinCpu.level s = 0 → s.daif = s₀.daif
  inside : 0 < SpinCpu.level s → s.daif = wIntrdDisable s₀.daif ∧ s.irqWasEnabled = rIntrdEnabled s₀.daif

variable {cpu limit sp : Nat} {s₀ s s' : SpinCpu}

lemma or_and_not {w : Nat} {d m : BitVec w} (h : d &&& m = 0) : (d ||| m) &&& ~~~m = d := by
  ext i hi
  have hbit : (d &&& m)[i] = false := by simp [h]
  rw [BitVec.getElem_and] at hbit
  rw [BitVec.getElem_and, BitVec.getElem_or, BitVec.getElem_not]
  cases hd : d[i] <;> cases hm : m[i] <;> simp_all

lemma or_eq_self {w : Nat} {d m : BitVec w} (h : d &&& m = m) : d ||| m = d := by
  ext i hi
  have hbit : (d &&& m)[i] = m[i] := by rw [h]
  rw [BitVec.getElem_and] at hbit
  rw [BitVec.getElem_or, ← hbit]
  cases d[i] <;> simp

lemma or_and_right {w : Nat} (d m : BitVec w) : (d ||| m) &&& m = m := by
  ext i hi
  rw [BitVec.getElem_and, BitVec.getElem_or]
  cases d[i] <;> simp

/-- A single bit is masked or not. -/
lemma and_twoPow_cases {w : Nat} (d : BitVec w) (i : Nat) :
    d &&& BitVec.twoPow w i = 0 ∨ d &&& BitVec.twoPow w i = BitVec.twoPow w i := by
  rw [BitVec.and_twoPow]
  split_ifs
  · exact .inr rfl
  · exact .inl rfl

lemma wIntrdDisable_masks (d : BitVec 64) : wIntrdDisable d &&& (DAIF_F ||| DAIF_I) = DAIF_F ||| DAIF_I :=
  or_and_right d _

lemma wIntrdDisable_twice (d : BitVec 64) : wIntrdDisable (wIntrdDisable d) = wIntrdDisable d :=
  or_eq_self (wIntrdDisable_masks d)

lemma wIntrdDisable_disabled (d : BitVec 64) : rIntrdEnabled (wIntrdDisable d) = false := by
  rw [rIntrdEnabled, wIntrdDisable_masks]
  decide

lemma wIntrdEnable_disable {d : BitVec 64} (h : rIntrdEnabled d = true) : wIntrdEnable (wIntrdDisable d) = d :=
  or_and_not (of_decide_eq_true h)

/-- Where both are masked there is nothing to restore. -/
lemma wIntrdDisable_eq_self {d : BitVec 64} (htogether : d &&& DAIF_I = 0 ↔ d &&& DAIF_F = 0)
    (h : rIntrdEnabled d = false) : wIntrdDisable d = d := by
  have hF : DAIF_F = BitVec.twoPow 64 6 := by decide
  have hI : DAIF_I = BitVec.twoPow 64 7 := by decide
  have hnot : ¬d &&& (DAIF_F ||| DAIF_I) = 0 := of_decide_eq_false h
  rw [BitVec.and_or_distrib_left] at hnot
  apply or_eq_self
  rw [BitVec.and_or_distrib_left]
  have hcasesF := and_twoPow_cases d 6
  have hcasesI := and_twoPow_cases d 7
  rw [← hF] at hcasesF
  rw [← hI] at hcasesI
  rcases hcasesF with h0 | hmaskedF
  · exact absurd (by rw [h0, htogether.mpr h0]; rfl) hnot
  · rcases hcasesI with h0 | hmaskedI
    · exact absurd (by rw [h0, htogether.mp h0]; rfl) hnot
    · rw [hmaskedF, hmaskedI]

lemma holding_setLock {lock : SpinLock} {x : Nat} : (s.setLock sp lock).holding cpu x =
    if x = sp then lock.locked && lock.cpu == cpu else s.holding cpu x := by
  unfold SpinCpu.holding SpinCpu.setLock
  dsimp only
  split_ifs with hx
  · rw [hx, Function.update_self]
  · rw [Function.update_of_ne hx]

lemma holding_congr (h : s'.lock = s.lock) : s'.holding cpu sp = s.holding cpu sp := by
  unfold SpinCpu.holding
  rw [h]

/-- The depth is 0 only at level 0. -/
lemma depth_eq_zero_iff {n : Nat} (h : n < 2 ^ 32) : BitVec.ofNat 32 n = 0 ↔ n = 0 := by
  rw [← BitVec.toNat_inj, BitVec.toNat_ofNat, Nat.mod_eq_of_lt h]
  rfl

/-- What `irq_push_intr` writes at every level. -/
lemma push_mask (m : IrqMask) :
    m.irqPushIntr.daif = wIntrdDisable m.daif ∧ m.irqPushIntr.irqDisableDepth = m.irqDisableDepth + 1 := by
  unfold IrqMask.irqPushIntr
  dsimp only
  split_ifs
  · exact ⟨rfl, rfl⟩
  · exact ⟨rfl, rfl⟩

/-- `irq_pop_intr` where interrupts are disabled at a positive level. -/
lemma pop_mask {m : IrqMask} (hdisabled : rIntrdEnabled m.daif = false) (hdepth : ¬m.irqDisableDepth.slt 1) :
    m.irqPopIntr = .ok { m with
      irqDisableDepth := m.irqDisableDepth - 1
      daif := if m.irqDisableDepth - 1 = 0 ∧ m.irqWasEnabled then wIntrdEnable m.daif else m.daif } := by
  unfold IrqMask.irqPopIntr
  rw [assertThat_true hdisabled, ok_bind, assertThat_true hdepth, ok_bind]
  dsimp only
  split_ifs
  · rfl
  · rfl

/-- What `irq_push_intr` leaves alone. -/
lemma irqPushIntr_frame : s.irqPushIntr.lock = s.lock ∧ s.irqPushIntr.held = s.held ∧
    s.irqPushIntr.spinning = s.spinning ∧ s.irqPushIntr.irqDisableDepth = s.irqDisableDepth + 1 ∧
    s.irqPushIntr.daif = wIntrdDisable s.daif :=
  ⟨rfl, rfl, rfl, (push_mask s.toIrqMask).2, (push_mask s.toIrqMask).1⟩

/-- The mask before the first lock is remembered. -/
lemma SpinInv.push (h : SpinInv cpu limit s₀ s) (hlimit : limit < 2 ^ 32) :
    s.irqPushIntr.daif = wIntrdDisable s₀.daif ∧ s.irqPushIntr.irqWasEnabled = rIntrdEnabled s₀.daif := by
  have hlevel := h.bound
  rw [irqPushIntr_frame.2.2.2.2]
  unfold SpinCpu.irqPushIntr IrqMask.irqPushIntr
  dsimp only
  rw [h.depth]
  rcases Nat.eq_zero_or_pos (SpinCpu.level s) with hzero | hpos
  · rw [if_pos ((depth_eq_zero_iff (by omega)).mpr hzero), h.outside hzero]
    exact ⟨rfl, rfl⟩
  · obtain ⟨hdaif, hwas⟩ := h.inside hpos
    rw [if_neg fun heq => hpos.ne' ((depth_eq_zero_iff (by omega)).mp heq), hdaif, wIntrdDisable_twice]
    exact ⟨rfl, hwas⟩

/-- What `irq_pop_intr` does when it returns. -/
lemma irqPopIntr_ok (h : s.irqPopIntr = .ok s') : s'.lock = s.lock ∧ s'.held = s.held ∧ s'.spinning = s.spinning ∧
    s'.irqDisableDepth = s.irqDisableDepth - 1 ∧ s'.irqWasEnabled = s.irqWasEnabled ∧
    s'.daif = if s.irqDisableDepth - 1 = 0 ∧ s.irqWasEnabled then wIntrdEnable s.daif else s.daif := by
  obtain ⟨mask, hpop, h⟩ := bind_eq_ok.mp h
  obtain rfl := Except.ok.inj h
  obtain ⟨_, hdisabled, hrest⟩ := bind_eq_ok.mp hpop
  obtain ⟨_, hdepth, -⟩ := bind_eq_ok.mp hrest
  rw [pop_mask (assertThat_ok hdisabled) (assertThat_ok hdepth)] at hpop
  obtain rfl := Except.ok.inj hpop
  exact ⟨rfl, rfl, rfl, rfl, rfl, rfl⟩

lemma spinlockAcquire_ok (h : s.holding cpu sp = false) :
    s.spinlockAcquire cpu sp = .ok { s.irqPushIntr with spinning := some sp } := by
  unfold SpinCpu.spinlockAcquire
  dsimp only
  rw [holding_congr irqPushIntr_frame.1, assertThat_true h]
  rfl

/-- `spinlock_release` returns what `irq_pop_intr` does. -/
lemma spinlockRelease_eq (h : s.holding cpu sp = true) :
    s.spinlockRelease cpu sp = SpinCpu.irqPopIntr { s.setLock sp ⟨false, 0⟩ with held := s.held.erase sp } := by
  unfold SpinCpu.spinlockRelease
  rw [assertThat_true h]
  rfl

lemma irqPopIntr_returns (hdisabled : rIntrdEnabled s.daif = false) (hdepth : ¬s.irqDisableDepth.slt 1) :
    ∃ s', s.irqPopIntr = .ok s' := by
  unfold SpinCpu.irqPopIntr
  rw [pop_mask hdisabled hdepth]
  exact ⟨_, rfl⟩

lemma irqPopIntr_underflow (hdisabled : rIntrdEnabled s.daif = false) (hdepth : s.irqDisableDepth.slt 1 = true) :
    s.irqPopIntr = .error .panic := by
  unfold SpinCpu.irqPopIntr IrqMask.irqPopIntr
  rw [assertThat_true hdisabled, ok_bind, assertThat, if_neg (not_not.mpr hdepth)]
  rfl

lemma SpinStart.inv (h : SpinStart cpu s₀) : SpinInv cpu limit s₀ s₀ := by
  have hlevel : SpinCpu.level s₀ = 0 := by simp [SpinCpu.level, h.held, h.spinning]
  refine ⟨?_, fun sp => ?_, fun sp hsp => ?_, ?_, ?_, fun _ => rfl, fun hpos => ?_⟩
  · rw [h.held]
    exact List.nodup_nil
  · rw [h.free sp, h.held]
    simp
  · rw [h.spinning] at hsp
    cases hsp
  · rw [hlevel]
    exact Nat.zero_le limit
  · rw [hlevel, h.depth]
    rfl
  · omega

lemma SpinInv.acquire (h : SpinInv cpu limit s₀ s) (hlimit : limit < 2 ^ 32)
    (hallowed : SpinOp.Allowed cpu limit s (.acquire sp)) (hrun : s.spinlockAcquire cpu sp = .ok s') :
    SpinInv cpu limit s₀ s' := by
  obtain ⟨hspinning, hnot, hroom⟩ := hallowed
  obtain ⟨_, -, hrun⟩ := bind_eq_ok.mp hrun
  obtain rfl := Except.ok.inj hrun
  obtain ⟨hlock, hheld, -, hdepth, -⟩ := @irqPushIntr_frame s
  have hlevel : SpinCpu.level s = s.held.length := by simp [SpinCpu.level, hspinning]
  have hlevel' : SpinCpu.level { s.irqPushIntr with spinning := some sp } = s.held.length + 1 := by
    simp [SpinCpu.level, hheld]
  refine ⟨?_, fun x => ?_, fun x hx => ?_, ?_, ?_, fun hzero => ?_, fun _ => h.push hlimit⟩
  · rw [hheld]
    exact h.nodup
  · have hsame : ({ s.irqPushIntr with spinning := some sp } : SpinCpu).holding cpu x = s.holding cpu x :=
      holding_congr hlock
    rw [hheld]
    exact (Iff.of_eq (congrArg (· = true) hsame)).trans (h.mine x)
  · obtain rfl := Option.some.inj hx
    rwa [hheld]
  · rw [hlevel']
    exact hroom
  · rw [hlevel', hdepth, h.depth, hlevel, BitVec.ofNat_add]
    rfl
  · cases hlevel'.symm.trans hzero

lemma SpinInv.turn (h : SpinInv cpu limit s₀ s) (hspinning : s.spinning = some sp) :
    SpinInv cpu limit s₀ (s.spinlockAcquireTurn cpu sp) := by
  unfold SpinCpu.spinlockAcquireTurn
  split_ifs with hlocked
  · exact h
  · -- the lock is counted as held from here on
    have hlevel : SpinCpu.level { s.setLock sp ⟨true, cpu⟩ with held := sp :: s.held, spinning := none } =
        SpinCpu.level s := by
      simp [SpinCpu.level, hspinning]
    refine ⟨List.nodup_cons.mpr ⟨h.waits sp hspinning, h.nodup⟩, fun x => ?_, fun x hx => (by cases hx), ?_, ?_, ?_, ?_⟩
    · refine (Iff.of_eq (congrArg (· = true) (@holding_setLock cpu sp s ⟨true, cpu⟩ x))).trans ?_
      rw [List.mem_cons]
      split_ifs with hx
      · simp [hx]
      · rw [h.mine x]
        exact (or_iff_right hx).symm
    · rw [hlevel]
      exact h.bound
    · rw [hlevel]
      exact h.depth
    · rw [hlevel]
      exact h.outside
    · rw [hlevel]
      exact h.inside

lemma SpinInv.release (h : SpinInv cpu limit s₀ s) (hlimit : limit < 2 ^ 32) (hstart : SpinStart cpu s₀)
    (hallowed : SpinOp.Allowed cpu limit s (.release sp)) (hrun : s.spinlockRelease cpu sp = .ok s') :
    SpinInv cpu limit s₀ s' := by
  obtain ⟨hspinning, hheld⟩ := hallowed
  obtain ⟨_, -, hrun⟩ := bind_eq_ok.mp hrun
  obtain ⟨hlock' : s'.lock = (s.setLock sp ⟨false, 0⟩).lock, hheld' : s'.held = s.held.erase sp,
    hspinning' : s'.spinning = s.spinning, hdepth' : s'.irqDisableDepth = s.irqDisableDepth - 1,
    hwas' : s'.irqWasEnabled = s.irqWasEnabled,
    hdaif' : s'.daif = if s.irqDisableDepth - 1 = 0 ∧ s.irqWasEnabled then wIntrdEnable s.daif else s.daif⟩ :=
    irqPopIntr_ok hrun
  have hpos : 0 < s.held.length := List.length_pos_of_mem hheld
  have hlength : (s.held.erase sp).length = s.held.length - 1 := List.length_erase_of_mem hheld
  have hlevel : SpinCpu.level s = s.held.length := by simp [SpinCpu.level, hspinning]
  have hlevel' : SpinCpu.level s' = s.held.length - 1 := by
    simp [SpinCpu.level, hheld', hspinning', hspinning, hlength]
  have hbound := h.bound
  obtain ⟨hdaif, hwas⟩ := h.inside (by omega)
  have hdepth : s'.irqDisableDepth = BitVec.ofNat 32 (s.held.length - 1) := by
    have hsucc : s.held.length = s.held.length - 1 + 1 := by omega
    rw [hdepth', h.depth, hlevel, hsucc, BitVec.ofNat_add, Nat.add_sub_cancel]
    exact BitVec.add_sub_cancel _ _
  have hzero : s.irqDisableDepth - 1 = 0 ↔ s.held.length - 1 = 0 := by
    rw [← depth_eq_zero_iff (by omega), ← hdepth, hdepth']
  refine ⟨?_, fun x => ?_, fun x hx => ?_, ?_, ?_, fun hlast => ?_, fun hmore => ?_⟩
  · rw [hheld']
    exact h.nodup.erase sp
  · rw [holding_congr hlock', hheld']
    rw [holding_setLock, h.nodup.mem_erase_iff]
    split_ifs with hx
    · simp [hx]
    · rw [h.mine x]
      exact (and_iff_right hx).symm
  · rw [hspinning'] at hx
    cases hspinning.symm.trans hx
  · omega
  · rw [hlevel', hdepth]
  · rw [hdaif', hdaif, hwas]
    -- the mask before the first lock comes back
    cases henabled : rIntrdEnabled s₀.daif with
    | true => rw [if_pos ⟨hzero.mpr (hlevel'.symm.trans hlast), rfl⟩, wIntrdEnable_disable henabled]
    | false => rw [if_neg fun hn => Bool.false_ne_true hn.2, wIntrdDisable_eq_self hstart.together henabled]
  · have hmore' : ¬(s.irqDisableDepth - 1 = 0 ∧ s.irqWasEnabled) := fun hn => by
      rw [hlevel', hzero.mp hn.1] at hmore
      cases hmore
    rw [hdaif', if_neg hmore', hwas']
    exact ⟨hdaif, hwas⟩

/-- Another CPU changes a lock that this one does not hold. -/
lemma SpinInv.other {lock : SpinLock} (h : SpinInv cpu limit s₀ s) (hnot : sp ∉ s.held) (hcpu : lock.cpu ≠ cpu) :
    SpinInv cpu limit s₀ (s.setLock sp lock) := by
  refine ⟨h.nodup, fun x => ?_, h.waits, h.bound, h.depth, h.outside, h.inside⟩
  rw [holding_setLock]
  split_ifs with hx
  · subst hx
    exact iff_of_false (by simp [hcpu]) hnot
  · exact h.mine x

lemma SpinInv.step {op : SpinOp} (h : SpinInv cpu limit s₀ s) (hlimit : limit < 2 ^ 32) (hstart : SpinStart cpu s₀)
    (hallowed : SpinOp.Allowed cpu limit s op) (hrun : op.run s cpu = .ok s') : SpinInv cpu limit s₀ s' := by
  cases op with
  | acquire sp => exact h.acquire hlimit hallowed hrun
  | turn sp =>
    obtain rfl := Except.ok.inj hrun
    exact h.turn hallowed
  | release sp => exact h.release hlimit hstart hallowed hrun
  | other sp lock =>
    obtain rfl := Except.ok.inj hrun
    exact h.other hallowed.1 hallowed.2

lemma SpinRun.inv (hstart : SpinStart cpu s₀) (hlimit : limit < 2 ^ 32) (h : SpinRun cpu limit s₀ s) :
    SpinInv cpu limit s₀ s := by
  induction h with
  | start => exact hstart.inv
  | step _ op hallowed hrun ih => exact ih.step hlimit hstart hallowed hrun

/-- The depth of an `i32` is the level as long as that fits. -/
lemma SpinInv.toInt_depth (h : SpinInv cpu limit s₀ s) (hlimit : limit < 2 ^ 31) :
    s.irqDisableDepth.toInt = SpinCpu.level s := by
  have hbound := h.bound
  rw [h.depth, BitVec.toInt_ofNat']
  exact Int.bmod_eq_of_le (by omega) (by omega)

lemma SpinInv.follows (h : SpinInv cpu limit s₀ s) (hlimit : limit < 2 ^ 31) : MaskFollows cpu s₀ s := by
  have hdepth := h.toInt_depth hlimit
  have hlevel (hspinning : s.spinning = none) : SpinCpu.level s = s.held.length := by simp [SpinCpu.level, hspinning]
  refine ⟨fun hspinning => ?_, fun hpos => ?_, fun _ sp hsp => ?_, fun hspinning sp hsp => ?_,
    fun hspinning hnone => ?_⟩
  · rw [hdepth, hlevel hspinning]
  · rw [hdepth] at hpos
    rw [(h.inside (by omega)).1, wIntrdDisable_masks]
  · have hnot : s.holding cpu sp = false := Bool.eq_false_iff.mpr fun hheld => hsp ((h.mine sp).mp hheld)
    exact ⟨_, spinlockAcquire_ok hnot⟩
  · have hmine : s.holding cpu sp = true := (h.mine sp).mpr hsp
    have hpos : 0 < SpinCpu.level s := by
      rw [hlevel hspinning]
      exact List.length_pos_of_mem hsp
    have hdisabled : rIntrdEnabled s.daif = false := by rw [(h.inside hpos).1, wIntrdDisable_disabled]
    have hcounted : ¬s.irqDisableDepth.slt 1 := by
      have hone : (1 : BitVec 32).toInt = 1 := by decide
      rw [BitVec.slt_iff_toInt_lt, hdepth, hone]
      omega
    rw [spinlockRelease_eq hmine]
    exact irqPopIntr_returns hdisabled hcounted
  · rw [h.outside (by rw [hlevel hspinning, hnone]; rfl)]

/-- The mask follows the locks of a CPU in every run in which it takes fewer than `2 ^ 31` locks at a time. -/
theorem mask_follows_spinlocks (hstart : SpinStart cpu s₀) (h : SpinRun cpu (2 ^ 31 - 1) s₀ s) : MaskFollows cpu s₀ s :=
  (h.inv hstart (by decide)).follows (by decide)

/-- A CPU with its interrupts unmasked, and free locks. -/
def freeCpu : SpinCpu where
  daif := 0
  irqDisableDepth := 0
  irqWasEnabled := false
  lock _ := ⟨false, 0⟩
  held := []
  spinning := none

lemma freeCpu_start : SpinStart cpu freeCpu :=
  ⟨rfl, rfl, rfl, by decide, fun _ => rfl⟩

/-- The state of CPU 1 after steps, of which the newest is the first. -/
def spinAfter : List SpinOp → SpinCpu
  | [] => freeCpu
  | op :: ops => okOr (spinAfter ops) (op.run (spinAfter ops) 1)

lemma spinRun_after {op : SpinOp} {ops : List SpinOp} (h : SpinRun 1 limit freeCpu (spinAfter ops))
    (hallowed : SpinOp.Allowed 1 limit (spinAfter ops) op) (hok : (op.run (spinAfter ops) 1).isOk = true) :
    SpinRun 1 limit freeCpu (spinAfter (op :: ops)) :=
  h.step op hallowed (eq_ok_of_isOk _ hok)

/-- Two locks, of which the one that was taken first is released first. -/
theorem mask_follows_spinlocks_two :
    MaskFollows 1 freeCpu (spinAfter [.release 48, .release 24, .turn 48, .acquire 48, .turn 24, .acquire 24]) := by
  have hfirst : SpinRun 1 (2 ^ 31 - 1) freeCpu (spinAfter [.turn 24, .acquire 24]) :=
    spinRun_after (spinRun_after .start ⟨rfl, by decide, by decide⟩ (by decide +kernel)) (by rfl) (by decide +kernel)
  have hsecond : SpinRun 1 (2 ^ 31 - 1) freeCpu (spinAfter [.turn 48, .acquire 48, .turn 24, .acquire 24]) :=
    spinRun_after (spinRun_after hfirst ⟨by decide +kernel, by decide +kernel, by decide +kernel⟩ (by decide +kernel))
      (by rfl) (by decide +kernel)
  have hrelease := @spinRun_after _ (.release 24) _ hsecond ⟨by decide +kernel, by decide +kernel⟩ (by decide +kernel)
  exact mask_follows_spinlocks freeCpu_start
    (spinRun_after hrelease ⟨by decide +kernel, by decide +kernel⟩ (by decide +kernel))

/-- A CPU can take any number of locks, here at addresses up to `24 * n`. -/
lemma takes_locks (n : Nat) (hn : n ≤ limit) : ∃ s, SpinRun 1 limit freeCpu s ∧
    s.spinning = none ∧ s.held.length = n ∧ (∀ sp ∈ s.held, sp ≤ 24 * n) ∧
      ∀ sp, sp ∉ s.held → (s.lock sp).locked = false := by
  induction n with
  | zero => exact ⟨freeCpu, .start, rfl, rfl, fun _ hsp => (by cases hsp), fun _ _ => rfl⟩
  | succ n ih =>
    obtain ⟨s, hrun, hspinning, hlength, hle, hfree⟩ := ih (by omega)
    have hnot : 24 * (n + 1) ∉ s.held := fun hmem => by
      have hlast := hle _ hmem
      omega
    obtain ⟨hlock, hheld, -⟩ := @irqPushIntr_frame s
    have hunlocked := hfree _ hnot
    have hacquire : s.spinlockAcquire 1 (24 * (n + 1)) = .ok { s.irqPushIntr with spinning := some (24 * (n + 1)) } :=
      spinlockAcquire_ok (by rw [SpinCpu.holding, hunlocked, Bool.false_and])
    have hrun' := hrun.step (.acquire _) ⟨hspinning, hnot, by omega⟩ hacquire
    have hturn := hrun'.step (.turn _) rfl rfl
    have hnow : ¬(s.irqPushIntr.lock (24 * (n + 1))).locked = true := by rw [hlock, hunlocked]; exact Bool.false_ne_true
    rw [SpinCpu.spinlockAcquireTurn, if_neg hnow] at hturn
    refine ⟨_, hturn, rfl, ?_, fun sp hsp => ?_, fun sp hsp => ?_⟩
    · rw [List.length_cons, hheld, hlength]
    · rcases List.mem_cons.mp hsp with rfl | hsp
      · exact le_rfl
      · rw [hheld] at hsp
        have hold := hle sp hsp
        omega
    · obtain ⟨hne, hsp⟩ := List.ne_and_not_mem_of_not_mem_cons hsp
      rw [hheld] at hsp
      exact (congrArg SpinLock.locked (Function.update_of_ne hne _ _)).trans
        ((congrArg (fun f => (f sp).locked) hlock).trans
        (hfree sp hsp))

/-- With `2 ^ 31` locks the depth is negative, and none of them can be released. -/
theorem mask_lost_at_depth : ∃ s, SpinRun 1 (2 ^ 31) freeCpu s ∧ s.held.length = 2 ^ 31 ∧
    s.irqDisableDepth.toInt = -2 ^ 31 ∧ (∀ sp ∈ s.held, s.spinlockRelease 1 sp = .error .panic) ∧
      ¬MaskFollows 1 freeCpu s := by
  obtain ⟨s, hrun, hspinning, hlength, -, -⟩ := @takes_locks (2 ^ 31) (2 ^ 31) le_rfl
  have hinv := hrun.inv freeCpu_start (by decide)
  have hlevel : SpinCpu.level s = 2 ^ 31 := by simp [SpinCpu.level, hspinning, hlength]
  have hdepth : s.irqDisableDepth.toInt = -2 ^ 31 := by
    rw [hinv.depth, hlevel]
    decide
  refine ⟨s, hrun, hlength, hdepth, fun sp hsp => ?_, fun hfollows => ?_⟩
  · have hdisabled : rIntrdEnabled s.daif = false := by
      rw [(hinv.inside (by rw [hlevel]; decide)).1, wIntrdDisable_disabled]
    have hslt : s.irqDisableDepth.slt 1 = true := by
      rw [BitVec.slt_iff_toInt_lt, hdepth]
      decide
    rw [spinlockRelease_eq ((hinv.mine sp).mpr hsp)]
    exact irqPopIntr_underflow hdisabled hslt
  · have hequal := hfollows.depth hspinning
    rw [hdepth, hlength] at hequal
    omega

end KaworuOS.Proofs
