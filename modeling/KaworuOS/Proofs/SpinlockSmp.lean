import KaworuOS.Proofs.SpinlockIrq
import KaworuOS.SpinlockSmp
import Mathlib.Data.Fintype.Card

/-!
# Spinlocks exclude each other

At most one CPU is between the exchange that takes a lock and the store that frees it, an interrupt never comes there,
and so no change to what the lock guards is lost. A `panic` is always the fault of the context that called.
-/

namespace KaworuOS

variable {κ α : Type}

/-- The call has still to check whether its CPU holds the lock. -/
def LockPc.checking : LockPc κ → Bool
  | acquireLocked _ | acquireCpu _ | releaseLocked _ | releaseCpu _ => true
  | _ => false

/-- The lock between whose two words the call is. -/
def LockPc.writing : LockPc κ → Option κ
  | acquireOwn sp | releaseStore sp => some sp
  | _ => none

/-- The lock that the call is releasing. -/
def LockPc.releasing : LockPc κ → Option κ
  | releaseLocked sp | releaseCpu sp | releaseDisown sp | releaseStore sp => some sp
  | _ => none

/-- The call has disabled the interrupts for a lock that is not among those held. -/
def LockPc.counts : LockPc κ → Bool
  | acquireLocked _ | acquireCpu _ | acquireLoop _ | releasePop => true
  | _ => false

/-- How often the context has disabled the interrupts. -/
def LockContext.level (ctx : LockContext κ α) : Nat := ctx.held.length + if ctx.pc.counts then 1 else 0

/-- What a call knows of the lock. -/
def LockContext.Knows (ctx : LockContext κ α) : Prop :=
  match ctx.pc with
  | .user | .releasePop => ctx.misused = false
  | .acquireLocked sp | .acquireCpu sp => ctx.misused = true ↔ sp ∈ ctx.held
  | .acquireLoop sp => ctx.misused = false ∧ sp ∉ ctx.held
  | .releaseLocked sp | .releaseCpu sp => ctx.misused = true ↔ sp ∉ ctx.held
  | .acquireOwn sp | .releaseDisown sp | .releaseStore sp => ctx.misused = false ∧ sp ∈ ctx.held
  | .panicked => ctx.misused = true

/-- A context as an interrupt leaves it. -/
structure LockContext.Idle (ctx : LockContext κ α) : Prop where
  held : ctx.held = []
  counts : ctx.pc.counts = false
  writing : ctx.pc.writing = none
  running : ctx.pc ≠ .panicked
  knows : ctx.Knows
  loaded : ∀ sp, ctx.loaded sp = none

namespace Proofs
open Lib

variable {ι : Type} [DecidableEq ι] [DecidableEq κ]

/-- No CPU is in a call, no lock is taken and no interrupt is being handled. -/
structure LocksStart (s : LockSmp ι κ α) : Prop where
  free : ∀ sp, s.lock sp = ⟨false, none⟩
  entry : ∀ c, (s.cpu c).ctx = LockContext.entry κ α
  depth : ∀ c, (s.cpu c).mask.irqDisableDepth = 0
  interrupted : ∀ c, (s.cpu c).interrupted = []
  log : ∀ sp, s.log sp = []

/-- The runs. -/
inductive LocksRun (s₀ : LockSmp ι κ α) : LockSmp ι κ α → Prop
  | start : LocksRun s₀ s₀
  | step {s s' : LockSmp ι κ α} (h : LocksRun s₀ s) (op : LockMove ι κ α) (hrun : op.run s = some s') : LocksRun s₀ s'

/-- What the locks are for. A lock has one holder, and what an interrupt comes upon holds none. The calls that panic are
those that take a lock twice or release what is not held, and none of these gets behind its check. What a lock guards is
the outcome of all the changes to it, one after the other, and what has been read under a lock stays true. -/
structure LocksSafe (s₀ s : LockSmp ι κ α) : Prop where
  exclusive : ∀ sp c d, sp ∈ (s.cpu c).ctx.held → sp ∈ (s.cpu d).ctx.held → c = d
  interrupted : ∀ c, ∀ x ∈ (s.cpu c).interrupted, x.2.held = []
  panics : ∀ c, (s.cpu c).ctx.pc = .panicked → (s.cpu c).ctx.misused = true
  caught : ∀ c, (s.cpu c).ctx.misused = true → (s.cpu c).ctx.pc.checking = true ∨ (s.cpu c).ctx.pc = .panicked
  kept : ∀ sp, s.data sp = (s.log sp).foldl (fun a f => f a) (s₀.data sp)
  fresh : ∀ c sp v, (s.cpu c).ctx.loaded sp = some v → s.data sp = v

/-- The invariant of a CPU. -/
structure LockCpuInv (x : LockCpu κ α) : Prop where
  nodup : x.ctx.held.Nodup
  knows : x.ctx.Knows
  masked : 0 < x.ctx.level → x.mask.Masked
  depth : x.ctx.pc ≠ .panicked → x.mask.irqDisableDepth = BitVec.ofNat 32 x.ctx.level
  interrupted : ∀ y ∈ x.interrupted, y.2.Idle

/-- The invariant of a run. -/
structure LocksInv (s₀ s : LockSmp ι κ α) : Prop where
  cpus : ∀ c, LockCpuInv (s.cpu c)
  exclusive : ∀ sp c d, sp ∈ (s.cpu c).ctx.held → sp ∈ (s.cpu d).ctx.held → c = d
  locked : ∀ sp, (s.lock sp).locked = true ↔ ∃ c, sp ∈ (s.cpu c).ctx.held
  owner : ∀ sp c, (s.lock sp).cpu = some c ↔ sp ∈ (s.cpu c).ctx.held ∧ (s.cpu c).ctx.pc.writing ≠ some sp
  loaded : ∀ c sp v, (s.cpu c).ctx.loaded sp = some v →
    sp ∈ (s.cpu c).ctx.held ∧ (s.cpu c).ctx.pc.releasing ≠ some sp ∧ s.data sp = v
  kept : ∀ sp, s.data sp = (s.log sp).foldl (fun a f => f a) (s₀.data sp)

variable {s₀ s s' : LockSmp ι κ α} {c d : ι} {sp : κ} {x : LockCpu κ α} {ctx : LockContext κ α}

omit [DecidableEq κ] in
@[simp] lemma setCpu_cpu_self : (s.setCpu c x).cpu c = x := Function.update_self ..

omit [DecidableEq κ] in
lemma setCpu_cpu_ne (h : d ≠ c) : (s.setCpu c x).cpu d = s.cpu d := Function.update_of_ne h ..

lemma push_masked (m : IrqMask) : m.irqPushIntr.Masked := by
  unfold IrqMask.Masked
  rw [(push_mask m).1]
  exact wIntrdDisable_masks m.daif

/-- The first word of a masked `DAIF` is not that of an enabled one. -/
lemma masked_disabled {m : IrqMask} (h : m.Masked) : rIntrdEnabled m.daif = false := by
  rw [rIntrdEnabled, show m.daif &&& (DAIF_F ||| DAIF_I) = DAIF_F ||| DAIF_I from h]
  decide

/-- `irq_pop_intr` returns at a positive level, and unmasks only at level 0. -/
lemma masked_pop {m : IrqMask} {n : Nat} (h : m.Masked) (hdepth : m.irqDisableDepth = BitVec.ofNat 32 (n + 1))
    (hn : n + 1 < 2 ^ 31) :
    ∃ m', m.irqPopIntr = .ok m' ∧ m'.irqDisableDepth = BitVec.ofNat 32 n ∧ (0 < n → m'.Masked) := by
  have hslt : ¬m.irqDisableDepth.slt 1 := by
    have hint : (BitVec.ofNat 32 (n + 1)).toInt = (n + 1 : Nat) := by
      simp only [BitVec.toInt, BitVec.toNat_ofNat]
      omega
    have hone : (1 : BitVec 32).toInt = 1 := by decide
    rw [hdepth, BitVec.slt_iff_toInt_lt, hint, hone]
    omega
  have hsub : m.irqDisableDepth - 1 = BitVec.ofNat 32 n := by
    rw [hdepth]
    apply BitVec.eq_of_toNat_eq
    rw [BitVec.toNat_sub, BitVec.toNat_ofNat, BitVec.toNat_ofNat]
    have hone : (1 : BitVec 32).toNat = 1 := by decide
    omega
  refine ⟨_, pop_mask (masked_disabled h) hslt, hsub, ?_⟩
  intro hpos
  unfold IrqMask.Masked
  dsimp only
  rw [if_neg]
  · exact h
  · rintro ⟨hzero, -⟩
    rw [hsub, depth_eq_zero_iff (by omega)] at hzero
    omega

omit [DecidableEq κ] in
/-- A CPU whose locks stay as they are. -/
lemma LocksInv.setCpu (h : LocksInv s₀ s) (hx : LockCpuInv x) (hheld : x.ctx.held = (s.cpu c).ctx.held)
    (hwriting : x.ctx.pc.writing = (s.cpu c).ctx.pc.writing)
    (hloaded : ∀ sp v, x.ctx.loaded sp = some v →
      sp ∈ x.ctx.held ∧ x.ctx.pc.releasing ≠ some sp ∧ s.data sp = v) :
    LocksInv s₀ (s.setCpu c x) := by
  have hmem : ∀ sp d, sp ∈ ((s.setCpu c x).cpu d).ctx.held ↔ sp ∈ (s.cpu d).ctx.held := by
    intro sp d
    rcases eq_or_ne d c with rfl | hd
    · rw [setCpu_cpu_self, hheld]
    · rw [setCpu_cpu_ne hd]
  have hpc : ∀ d, ((s.setCpu c x).cpu d).ctx.pc.writing = (s.cpu d).ctx.pc.writing := by
    intro d
    rcases eq_or_ne d c with rfl | hd
    · rw [setCpu_cpu_self, hwriting]
    · rw [setCpu_cpu_ne hd]
  refine ⟨fun d => ?_, fun sp d e hd he => ?_, fun sp => ?_, fun sp d => ?_, fun d sp v hv => ?_, h.kept⟩
  · rcases eq_or_ne d c with rfl | hd
    · rwa [setCpu_cpu_self]
    · rw [setCpu_cpu_ne hd]
      exact h.cpus d
  · rw [hmem] at hd he
    exact h.exclusive sp d e hd he
  · simp only [hmem]
    exact h.locked sp
  · rw [hmem, hpc]
    exact h.owner sp d
  · rcases eq_or_ne d c with rfl | hd
    · rw [setCpu_cpu_self] at hv ⊢
      exact hloaded sp v hv
    · rw [setCpu_cpu_ne hd] at hv ⊢
      exact h.loaded d sp v hv

omit [DecidableEq κ] in
lemma level_setPc (pc : LockPc κ) : ({ ctx with pc := pc } : LockContext κ α).level =
    ctx.held.length + if pc.counts then 1 else 0 := rfl

omit [DecidableEq κ] in
/-- The call goes on to its next access, or panics. -/
lemma LockCpuInv.setPc (h : LockCpuInv x) (hrunning : x.ctx.pc ≠ .panicked) (pc : LockPc κ)
    (hknows : ({ x.ctx with pc := pc } : LockContext κ α).Knows)
    (hcounts : pc = .panicked ∨ pc.counts = x.ctx.pc.counts) :
    LockCpuInv { x with ctx := { x.ctx with pc := pc } } := by
  refine ⟨h.nodup, hknows, fun hpos => h.masked ?_, fun hpc => ?_, h.interrupted⟩
  · rw [level_setPc] at hpos
    unfold LockContext.level
    rcases hcounts with rfl | heq
    · have hlen : 0 < x.ctx.held.length := hpos
      omega
    · rwa [← heq]
  · rcases hcounts with rfl | heq
    · exact absurd rfl hpc
    · rw [level_setPc, heq]
      exact h.depth hrunning

omit [DecidableEq κ] in
/-- No locks are held where the interrupts are not masked. -/
lemma LockCpuInv.level_zero (h : LockCpuInv x) (hmasked : ¬x.mask.Masked) : x.ctx.level = 0 := by
  by_contra hne
  exact hmasked (h.masked (Nat.pos_of_ne_zero hne))

omit [DecidableEq κ] in
/-- The lock of which the access writes one word has its other word written by the same call. -/
lemma LockCpuInv.writing_held (h : LockCpuInv x) (hw : x.ctx.pc.writing = some sp) : sp ∈ x.ctx.held := by
  have hknows := h.knows
  unfold LockContext.Knows at hknows
  unfold LockPc.writing at hw
  split at hw
  case h_1 pc hpc =>
    obtain rfl := Option.some.inj hw
    rw [hpc] at hknows
    exact hknows.2
  case h_2 pc hpc =>
    obtain rfl := Option.some.inj hw
    rw [hpc] at hknows
    exact hknows.2
  case h_3 => cases hw

lemma LocksInv.acquire (h : LocksInv s₀ s) (hpc : (s.cpu c).ctx.pc = .user) :
    LocksInv s₀ (s.spinlockAcquire c sp) := by
  have hcpu := h.cpus c
  have hlevel : (s.cpu c).ctx.level = (s.cpu c).ctx.held.length := by
    unfold LockContext.level
    rw [hpc]
    rfl
  apply h.setCpu
  · refine ⟨hcpu.nodup, ?_, fun _ => push_masked _, fun _ => ?_, hcpu.interrupted⟩
    · exact decide_eq_true_iff
    · rw [(push_mask _).2, hcpu.depth (by rw [hpc]; nofun), hlevel]
      exact (BitVec.ofNat_add ..).symm
  · rfl
  · rw [hpc]
    rfl
  · intro sp' v hv
    have hold := h.loaded c sp' v hv
    exact ⟨hold.1, nofun, hold.2.2⟩

lemma LocksInv.release (h : LocksInv s₀ s) (hpc : (s.cpu c).ctx.pc = .user) :
    LocksInv s₀ (s.spinlockRelease c sp) := by
  have hcpu := h.cpus c
  apply h.setCpu
  · have hcpu' := hcpu.setPc (by rw [hpc]; nofun) .user (by rw [← hpc]; exact hcpu.knows) (.inr (by rw [hpc]))
    exact ⟨hcpu'.nodup, decide_eq_true_iff, hcpu'.masked, fun _ => hcpu'.depth nofun, hcpu'.interrupted⟩
  · rfl
  · rw [hpc]
    rfl
  · intro sp' v hv
    dsimp only at hv
    rcases eq_or_ne sp' sp with rfl | hne
    · rw [Function.update_self] at hv
      cases hv
    · rw [Function.update_of_ne hne] at hv
      have hold := h.loaded c sp' v hv
      exact ⟨hold.1, fun heq => hne (Option.some.inj heq).symm, hold.2.2⟩

omit [DecidableEq κ] in
lemma LocksInv.setPc (h : LocksInv s₀ s) (hrunning : (s.cpu c).ctx.pc ≠ .panicked) (pc : LockPc κ)
    (hknows : ({ (s.cpu c).ctx with pc := pc } : LockContext κ α).Knows)
    (hcounts : pc = .panicked ∨ pc.counts = (s.cpu c).ctx.pc.counts) (hwriting : pc.writing = (s.cpu c).ctx.pc.writing)
    (hreleasing : ∀ sp, pc.releasing = some sp → (s.cpu c).ctx.pc.releasing = some sp) :
    LocksInv s₀ (s.setPc c pc) := by
  apply h.setCpu
  · exact (h.cpus c).setPc hrunning pc hknows hcounts
  · rfl
  · exact hwriting
  · intro sp v hv
    have hold := h.loaded c sp v hv
    exact ⟨hold.1, fun heq => hold.2.1 (hreleasing sp heq), hold.2.2⟩

/-- A lock that no other CPU holds, and the CPU that writes to it. -/
lemma LocksInv.setLock (h : LocksInv s₀ s) (hx : LockCpuInv x) {w : LockWords ι}
    (hothers : ∀ d, d ≠ c → sp ∉ (s.cpu d).ctx.held)
    (hheld : ∀ sp', sp' ≠ sp → (sp' ∈ x.ctx.held ↔ sp' ∈ (s.cpu c).ctx.held))
    (hlocked : w.locked = true ↔ sp ∈ x.ctx.held)
    (hwriting : ∀ sp', sp' ≠ sp → (x.ctx.pc.writing = some sp' ↔ (s.cpu c).ctx.pc.writing = some sp'))
    (howner : ∀ d, w.cpu = some d ↔ d = c ∧ sp ∈ x.ctx.held ∧ x.ctx.pc.writing ≠ some sp)
    (hloaded : ∀ sp v, x.ctx.loaded sp = some v →
      sp ∈ x.ctx.held ∧ x.ctx.pc.releasing ≠ some sp ∧ s.data sp = v) :
    LocksInv s₀ ((s.setLock sp w).setCpu c x) := by
  refine ⟨fun d => ?_, fun sp' d e hd he => ?_, fun sp' => ?_, fun sp' d => ?_, fun d sp' v hv => ?_, h.kept⟩
  · rcases eq_or_ne d c with rfl | hd
    · rwa [setCpu_cpu_self]
    · rw [setCpu_cpu_ne hd]
      exact h.cpus d
  · have hmem : ∀ d, sp' ∈ (((s.setLock sp w).setCpu c x).cpu d).ctx.held → d ≠ c →
        sp' ≠ sp ∧ sp' ∈ (s.cpu d).ctx.held := by
      intro d hd hne
      rw [setCpu_cpu_ne hne] at hd
      exact ⟨fun heq => hothers d hne (heq ▸ hd), hd⟩
    have hold : ∀ d, sp' ≠ sp → sp' ∈ (((s.setLock sp w).setCpu c x).cpu d).ctx.held → sp' ∈ (s.cpu d).ctx.held := by
      intro d hsp hd
      rcases eq_or_ne d c with rfl | hne
      · rw [setCpu_cpu_self] at hd
        exact (hheld sp' hsp).mp hd
      · exact (hmem d hd hne).2
    rcases eq_or_ne sp' sp with hsp | hsp
    · by_contra hne
      rcases eq_or_ne d c with rfl | hdc
      · exact (hmem e he (Ne.symm hne)).1 hsp
      · exact (hmem d hd hdc).1 hsp
    · exact h.exclusive sp' d e (hold d hsp hd) (hold e hsp he)
  · show (Function.update s.lock sp w sp').locked = true ↔ _
    rcases eq_or_ne sp' sp with rfl | hsp
    · rw [Function.update_self, hlocked]
      constructor
      · intro hmem
        exact ⟨c, by rwa [setCpu_cpu_self]⟩
      · rintro ⟨d, hd⟩
        rcases eq_or_ne d c with rfl | hne
        · rwa [setCpu_cpu_self] at hd
        · rw [setCpu_cpu_ne hne] at hd
          exact absurd hd (hothers d hne)
    · rw [Function.update_of_ne hsp, h.locked]
      apply exists_congr
      intro d
      rcases eq_or_ne d c with rfl | hne
      · rw [setCpu_cpu_self]
        exact (hheld sp' hsp).symm
      · rw [setCpu_cpu_ne hne]
        rfl
  · show (Function.update s.lock sp w sp').cpu = some d ↔ _
    rcases eq_or_ne sp' sp with rfl | hsp
    · rw [Function.update_self, howner]
      rcases eq_or_ne d c with rfl | hne
      · rw [setCpu_cpu_self]
        exact and_iff_right rfl
      · rw [setCpu_cpu_ne hne]
        exact ⟨fun h1 => absurd h1.1 hne, fun h1 => absurd h1.1 (hothers d hne)⟩
    · rw [Function.update_of_ne hsp, h.owner]
      rcases eq_or_ne d c with rfl | hne
      · rw [setCpu_cpu_self, hheld sp' hsp, Ne, Ne, hwriting sp' hsp]
      · rw [setCpu_cpu_ne hne]
        rfl
  · rcases eq_or_ne d c with rfl | hd
    · rw [setCpu_cpu_self] at hv ⊢
      exact hloaded sp' v hv
    · rw [setCpu_cpu_ne hd] at hv ⊢
      exact h.loaded d sp' v hv

omit [DecidableEq ι] [DecidableEq κ] in
lemma LocksInv.not_held (h : LocksInv s₀ s) (hfree : ¬(s.lock sp).locked = true) (d : ι) :
    sp ∉ (s.cpu d).ctx.held := fun hmem => hfree ((h.locked sp).mpr ⟨d, hmem⟩)

omit [DecidableEq ι] [DecidableEq κ] in
lemma LocksInv.others (h : LocksInv s₀ s) (hheld : sp ∈ (s.cpu c).ctx.held) :
    ∀ d, d ≠ c → sp ∉ (s.cpu d).ctx.held := fun d hne hmem => hne (h.exclusive sp d c hmem hheld)

omit [DecidableEq ι] [DecidableEq κ] in
lemma LocksInv.knows (h : LocksInv s₀ s) {pc : LockPc κ} (hpc : (s.cpu c).ctx.pc = pc) :
    ({ (s.cpu c).ctx with pc := pc } : LockContext κ α).Knows := by
  rw [← hpc]
  exact (h.cpus c).knows

omit [DecidableEq κ] in
/-- What the check of the first word finds out. -/
lemma LocksInv.acquireLocked (h : LocksInv s₀ s) (hpc : (s.cpu c).ctx.pc = .acquireLocked sp) :
    LocksInv s₀ (s.setPc c (if (s.lock sp).locked then .acquireCpu sp else .acquireLoop sp)) := by
  have hrunning : (s.cpu c).ctx.pc ≠ .panicked := by
    rw [hpc]
    nofun
  have hknows : (s.cpu c).ctx.misused = true ↔ sp ∈ (s.cpu c).ctx.held := h.knows hpc
  split_ifs with hlocked
  · exact h.setPc hrunning _ hknows (.inr (by rw [hpc]; rfl)) (by rw [hpc]; rfl) nofun
  · have hnot := h.not_held hlocked c
    have hright : (s.cpu c).ctx.misused = false := Bool.eq_false_iff.mpr fun hm => hnot (hknows.mp hm)
    exact h.setPc hrunning _ ⟨hright, hnot⟩ (.inr (by rw [hpc]; rfl)) (by rw [hpc]; rfl) nofun

omit [DecidableEq κ] in
/-- Only the CPU itself writes its address to a lock. -/
lemma LocksInv.acquireCpu (h : LocksInv s₀ s) (hpc : (s.cpu c).ctx.pc = .acquireCpu sp) :
    LocksInv s₀ (s.setPc c (if (s.lock sp).cpu = some c then .panicked else .acquireLoop sp)) := by
  have hrunning : (s.cpu c).ctx.pc ≠ .panicked := by
    rw [hpc]
    nofun
  have hknows : (s.cpu c).ctx.misused = true ↔ sp ∈ (s.cpu c).ctx.held := h.knows hpc
  have howner := h.owner sp c
  rw [hpc] at howner
  split_ifs with hmine
  · exact h.setPc hrunning _ (hknows.mpr (howner.mp hmine).1) (.inl rfl) (by rw [hpc]; rfl) nofun
  · have hnot : sp ∉ (s.cpu c).ctx.held := fun hmem => hmine (howner.mpr ⟨hmem, nofun⟩)
    have hright : (s.cpu c).ctx.misused = false := Bool.eq_false_iff.mpr fun hm => hnot (hknows.mp hm)
    exact h.setPc hrunning _ ⟨hright, hnot⟩ (.inr (by rw [hpc]; rfl)) (by rw [hpc]; rfl) nofun

omit [DecidableEq κ] in
lemma LocksInv.releaseLocked (h : LocksInv s₀ s) (hpc : (s.cpu c).ctx.pc = .releaseLocked sp) :
    LocksInv s₀ (s.setPc c (if (s.lock sp).locked then .releaseCpu sp else .panicked)) := by
  have hrunning : (s.cpu c).ctx.pc ≠ .panicked := by
    rw [hpc]
    nofun
  have hknows : (s.cpu c).ctx.misused = true ↔ sp ∉ (s.cpu c).ctx.held := h.knows hpc
  split_ifs with hlocked
  · exact h.setPc hrunning _ hknows (.inr (by rw [hpc]; rfl)) (by rw [hpc]; rfl) (fun sp' heq => by rw [hpc]; exact heq)
  · exact h.setPc hrunning _ (hknows.mpr (h.not_held hlocked c)) (.inl rfl) (by rw [hpc]; rfl) nofun

omit [DecidableEq κ] in
lemma LocksInv.releaseCpu (h : LocksInv s₀ s) (hpc : (s.cpu c).ctx.pc = .releaseCpu sp) :
    LocksInv s₀ (s.setPc c (if (s.lock sp).cpu = some c then .releaseDisown sp else .panicked)) := by
  have hrunning : (s.cpu c).ctx.pc ≠ .panicked := by
    rw [hpc]
    nofun
  have hknows : (s.cpu c).ctx.misused = true ↔ sp ∉ (s.cpu c).ctx.held := h.knows hpc
  have howner := h.owner sp c
  rw [hpc] at howner
  split_ifs with hmine
  · have hmem := (howner.mp hmine).1
    have hright : (s.cpu c).ctx.misused = false := Bool.eq_false_iff.mpr fun hm => hknows.mp hm hmem
    exact h.setPc hrunning _ ⟨hright, hmem⟩ (.inr (by rw [hpc]; rfl)) (by rw [hpc]; rfl)
      (fun sp' heq => by rw [hpc]; exact heq)
  · have hnot : sp ∉ (s.cpu c).ctx.held := fun hmem => hmine (howner.mpr ⟨hmem, nofun⟩)
    exact h.setPc hrunning _ (hknows.mpr hnot) (.inl rfl) (by rw [hpc]; rfl) nofun

/-- The exchange finds the lock free. -/
lemma LocksInv.acquireLoop (h : LocksInv s₀ s) (hpc : (s.cpu c).ctx.pc = .acquireLoop sp)
    (hfree : ¬(s.lock sp).locked = true) :
    LocksInv s₀ ((s.setLock sp { s.lock sp with locked := true }).setCtx c
      { (s.cpu c).ctx with pc := .acquireOwn sp, held := sp :: (s.cpu c).ctx.held }) := by
  have hcpu := h.cpus c
  obtain ⟨hright, hnot⟩ : (s.cpu c).ctx.misused = false ∧ sp ∉ (s.cpu c).ctx.held := h.knows hpc
  have hlevel : (s.cpu c).ctx.level = (sp :: (s.cpu c).ctx.held).length := by
    unfold LockContext.level
    rw [hpc]
    rfl
  apply h.setLock
  · refine ⟨List.nodup_cons.mpr ⟨hnot, hcpu.nodup⟩, ⟨hright, List.mem_cons_self⟩, fun _ => ?_, fun _ => ?_,
      hcpu.interrupted⟩
    · apply hcpu.masked
      rw [hlevel]
      exact Nat.succ_pos _
    · show (s.cpu c).mask.irqDisableDepth = _
      rw [hcpu.depth (by rw [hpc]; nofun), hlevel]
      rfl
  · exact fun d _ => h.not_held hfree d
  · exact fun sp' hne => List.mem_cons.trans (or_iff_right hne)
  · exact ⟨fun _ => List.mem_cons_self, fun _ => rfl⟩
  · intro sp' hne
    rw [hpc]
    exact ⟨fun heq => absurd (Option.some.inj heq).symm hne, nofun⟩
  · intro d
    show (s.lock sp).cpu = some d ↔ _
    rw [h.owner]
    exact ⟨fun hold => absurd hold.1 (h.not_held hfree d), fun hnew => absurd rfl hnew.2.2⟩
  · intro sp' v hv
    have hold := h.loaded c sp' v hv
    exact ⟨List.mem_cons_of_mem sp hold.1, nofun, hold.2.2⟩

lemma LocksInv.acquireOwn (h : LocksInv s₀ s) (hpc : (s.cpu c).ctx.pc = .acquireOwn sp) :
    LocksInv s₀ ((s.setLock sp { s.lock sp with cpu := some c }).setPc c .user) := by
  obtain ⟨hright, hmem⟩ : (s.cpu c).ctx.misused = false ∧ sp ∈ (s.cpu c).ctx.held := h.knows hpc
  apply h.setLock
  · exact (h.cpus c).setPc (by rw [hpc]; nofun) .user hright (.inr (by rw [hpc]; rfl))
  · exact h.others hmem
  · exact fun _ _ => Iff.rfl
  · exact ⟨fun _ => hmem, fun _ => (h.locked sp).mpr ⟨c, hmem⟩⟩
  · intro sp' hne
    rw [hpc]
    exact ⟨nofun, fun heq => absurd (Option.some.inj heq).symm hne⟩
  · intro d
    exact ⟨fun heq => ⟨(Option.some.inj heq).symm, hmem, nofun⟩, fun hnew => by rw [hnew.1]⟩
  · intro sp' v hv
    have hold := h.loaded c sp' v hv
    exact ⟨hold.1, nofun, hold.2.2⟩

lemma LocksInv.releaseDisown (h : LocksInv s₀ s) (hpc : (s.cpu c).ctx.pc = .releaseDisown sp) :
    LocksInv s₀ ((s.setLock sp { s.lock sp with cpu := none }).setPc c (.releaseStore sp)) := by
  obtain ⟨hright, hmem⟩ : (s.cpu c).ctx.misused = false ∧ sp ∈ (s.cpu c).ctx.held := h.knows hpc
  apply h.setLock
  · exact (h.cpus c).setPc (by rw [hpc]; nofun) (.releaseStore sp) ⟨hright, hmem⟩ (.inr (by rw [hpc]; rfl))
  · exact h.others hmem
  · exact fun _ _ => Iff.rfl
  · exact ⟨fun _ => hmem, fun _ => (h.locked sp).mpr ⟨c, hmem⟩⟩
  · intro sp' hne
    rw [hpc]
    exact ⟨fun heq => absurd (Option.some.inj heq).symm hne, nofun⟩
  · exact fun d => ⟨nofun, fun hnew => absurd rfl hnew.2.2⟩
  · intro sp' v hv
    have hold := h.loaded c sp' v hv
    rw [hpc] at hold
    exact ⟨hold.1, hold.2.1, hold.2.2⟩

/-- The store that frees the lock. -/
lemma LocksInv.releaseStore (h : LocksInv s₀ s) (hpc : (s.cpu c).ctx.pc = .releaseStore sp) :
    LocksInv s₀ ((s.setLock sp { s.lock sp with locked := false }).setCtx c
      { (s.cpu c).ctx with pc := .releasePop, held := (s.cpu c).ctx.held.erase sp }) := by
  have hcpu := h.cpus c
  obtain ⟨hright, hmem⟩ : (s.cpu c).ctx.misused = false ∧ sp ∈ (s.cpu c).ctx.held := h.knows hpc
  have herase : ∀ {sp'}, sp' ∈ (s.cpu c).ctx.held.erase sp ↔ sp' ≠ sp ∧ sp' ∈ (s.cpu c).ctx.held :=
    hcpu.nodup.mem_erase_iff
  have hlen : 0 < (s.cpu c).ctx.held.length := List.length_pos_of_mem hmem
  have hlevel : (s.cpu c).ctx.level = ((s.cpu c).ctx.held.erase sp).length + 1 := by
    unfold LockContext.level
    rw [hpc, List.length_erase_of_mem hmem, Nat.sub_add_cancel hlen]
    rfl
  apply h.setLock
  · refine ⟨hcpu.nodup.erase sp, hright, fun _ => ?_, fun _ => ?_, hcpu.interrupted⟩
    · apply hcpu.masked
      rw [hlevel]
      exact Nat.succ_pos _
    · show (s.cpu c).mask.irqDisableDepth = _
      rw [hcpu.depth (by rw [hpc]; nofun), hlevel]
      rfl
  · exact h.others hmem
  · exact fun sp' hne => herase.trans (and_iff_right hne)
  · exact ⟨nofun, fun hnew => absurd rfl (herase.mp hnew).1⟩
  · intro sp' hne
    rw [hpc]
    exact ⟨nofun, fun heq => absurd (Option.some.inj heq).symm hne⟩
  · intro d
    show (s.lock sp).cpu = some d ↔ _
    rw [h.owner]
    constructor
    · rintro ⟨hheld, hwriting⟩
      obtain rfl := h.exclusive sp d c hheld hmem
      exact absurd (by rw [hpc]; rfl) hwriting
    · exact fun hnew => absurd rfl (herase.mp hnew.2.1).1
  · intro sp' v hv
    have hold := h.loaded c sp' v hv
    rw [hpc] at hold
    exact ⟨herase.mpr ⟨fun heq => hold.2.1 (by rw [heq]; rfl), hold.1⟩, nofun, hold.2.2⟩

omit [DecidableEq κ] in
/-- `irq_pop_intr` never panics. -/
lemma LocksInv.releasePop [Fintype κ] (h : LocksInv s₀ s) (hcard : Fintype.card κ + 1 < 2 ^ 31)
    (hpc : (s.cpu c).ctx.pc = .releasePop) :
    ∃ mask, (s.cpu c).mask.irqPopIntr = .ok mask ∧
      LocksInv s₀ (s.setCpu c { s.cpu c with mask := mask, ctx := { (s.cpu c).ctx with pc := .user } }) := by
  have hcpu := h.cpus c
  have hright : (s.cpu c).ctx.misused = false := h.knows hpc
  have hlevel : (s.cpu c).ctx.level = (s.cpu c).ctx.held.length + 1 := by
    unfold LockContext.level
    rw [hpc]
    rfl
  have hlen := hcpu.nodup.length_le_card
  have hmasked := hcpu.masked (by omega)
  have hdepth := hcpu.depth (by rw [hpc]; nofun)
  rw [hlevel] at hdepth
  obtain ⟨mask, hpop, hdepth', hmasked'⟩ := masked_pop hmasked hdepth (by omega)
  refine ⟨mask, hpop, h.setCpu ?_ rfl (by rw [hpc]; rfl) ?_⟩
  · exact ⟨hcpu.nodup, hright, hmasked', fun _ => hdepth', hcpu.interrupted⟩
  · intro sp v hv
    have hold := h.loaded c sp v hv
    exact ⟨hold.1, nofun, hold.2.2⟩

lemma LocksInv.turn [Fintype κ] (h : LocksInv s₀ s) (hcard : Fintype.card κ + 1 < 2 ^ 31)
    (hrun : s.turn c = some s') : LocksInv s₀ s' := by
  unfold LockSmp.turn at hrun
  cases hpc : (s.cpu c).ctx.pc with
  | user => simp only [hpc, reduceCtorEq] at hrun
  | panicked => simp only [hpc, reduceCtorEq] at hrun
  | acquireLocked sp =>
    simp only [hpc, Option.some.injEq] at hrun
    exact hrun ▸ h.acquireLocked hpc
  | acquireCpu sp =>
    simp only [hpc, Option.some.injEq] at hrun
    exact hrun ▸ h.acquireCpu hpc
  | acquireLoop sp =>
    simp only [hpc] at hrun
    split_ifs at hrun with hlocked
    · obtain rfl := Option.some.inj hrun
      exact h
    · obtain rfl := Option.some.inj hrun
      exact h.acquireLoop hpc hlocked
  | acquireOwn sp =>
    simp only [hpc, Option.some.injEq] at hrun
    exact hrun ▸ h.acquireOwn hpc
  | releaseLocked sp =>
    simp only [hpc, Option.some.injEq] at hrun
    exact hrun ▸ h.releaseLocked hpc
  | releaseCpu sp =>
    simp only [hpc, Option.some.injEq] at hrun
    exact hrun ▸ h.releaseCpu hpc
  | releaseDisown sp =>
    simp only [hpc, Option.some.injEq] at hrun
    exact hrun ▸ h.releaseDisown hpc
  | releaseStore sp =>
    simp only [hpc, Option.some.injEq] at hrun
    exact hrun ▸ h.releaseStore hpc
  | releasePop =>
    obtain ⟨mask, hpop, hinv⟩ := h.releasePop hcard hpc
    simp only [hpc, hpop, Option.some.injEq] at hrun
    exact hrun ▸ hinv

lemma LocksInv.load (h : LocksInv s₀ s) (hpc : (s.cpu c).ctx.pc = .user) (hmem : sp ∈ (s.cpu c).ctx.held) :
    LocksInv s₀ (s.setCtx c
      { (s.cpu c).ctx with loaded := Function.update (s.cpu c).ctx.loaded sp (some (s.data sp)) }) := by
  have hcpu := h.cpus c
  apply h.setCpu
  · exact ⟨hcpu.nodup, hcpu.knows, hcpu.masked, hcpu.depth, hcpu.interrupted⟩
  · rfl
  · rfl
  · intro sp' v hv
    dsimp only at hv ⊢
    rw [hpc]
    rcases eq_or_ne sp' sp with rfl | hne
    · rw [Function.update_self] at hv
      exact ⟨hmem, nofun, Option.some.inj hv⟩
    · rw [Function.update_of_ne hne] at hv
      have hold := h.loaded c sp' v hv
      exact ⟨hold.1, nofun, hold.2.2⟩

/-- Nobody else has read what is written. -/
lemma LocksInv.store (h : LocksInv s₀ s) {v : α} (f : α → α) (hpc : (s.cpu c).ctx.pc = .user)
    (hv : (s.cpu c).ctx.loaded sp = some v) :
    LocksInv s₀
      { s.setCtx c { (s.cpu c).ctx with loaded := Function.update (s.cpu c).ctx.loaded sp none } with
        data := Function.update s.data sp (f v)
        log := Function.update s.log sp (s.log sp ++ [f]) } := by
  have hcpu := h.cpus c
  obtain ⟨hmem, -, hdata⟩ := h.loaded c sp v hv
  have hforget : LocksInv s₀
      (s.setCtx c { (s.cpu c).ctx with loaded := Function.update (s.cpu c).ctx.loaded sp none }) := by
    apply h.setCpu
    · exact ⟨hcpu.nodup, hcpu.knows, hcpu.masked, hcpu.depth, hcpu.interrupted⟩
    · rfl
    · rfl
    · intro sp' w hw
      dsimp only at hw
      rcases eq_or_ne sp' sp with rfl | hne
      · rw [Function.update_self] at hw
        cases hw
      · rw [Function.update_of_ne hne] at hw
        exact h.loaded c sp' w hw
  refine ⟨hforget.cpus, hforget.exclusive, hforget.locked, hforget.owner, fun d sp' w hw => ?_, fun sp' => ?_⟩
  · obtain ⟨hheld, hreleasing, hkept⟩ := hforget.loaded d sp' w hw
    refine ⟨hheld, hreleasing, ?_⟩
    have hne : sp' ≠ sp := by
      rintro rfl
      obtain rfl | hd := eq_or_ne d c
      · dsimp only [LockSmp.setCtx] at hw
        rw [setCpu_cpu_self] at hw
        dsimp only at hw
        rw [Function.update_self] at hw
        cases hw
      · dsimp only [LockSmp.setCtx] at hheld
        rw [setCpu_cpu_ne hd] at hheld
        exact h.others hmem d hd hheld
    show Function.update s.data sp (f v) sp' = w
    rw [Function.update_of_ne hne]
    exact hkept
  · show Function.update s.data sp (f v) sp' = (Function.update s.log sp (s.log sp ++ [f]) sp').foldl _ _
    rcases eq_or_ne sp' sp with rfl | hne
    · rw [Function.update_self, Function.update_self, List.foldl_append, ← h.kept sp', hdata]
      rfl
    · rw [Function.update_of_ne hne, Function.update_of_ne hne]
      exact h.kept sp'

omit [DecidableEq κ] in
/-- A context that is not masked is between its critical sections. -/
lemma LockCpuInv.idle (h : LockCpuInv x) (hmasked : ¬x.mask.Masked) (hrunning : x.ctx.pc ≠ .panicked)
    (hloaded : ∀ sp v, x.ctx.loaded sp = some v → sp ∈ x.ctx.held) : x.ctx.Idle := by
  have hlevel := h.level_zero hmasked
  unfold LockContext.level at hlevel
  have hheld : x.ctx.held = [] := List.eq_nil_of_length_eq_zero (by omega)
  refine ⟨hheld, ?_, ?_, hrunning, h.knows, fun sp => ?_⟩
  · by_contra hcounts
    rw [Bool.not_eq_false] at hcounts
    rw [if_pos hcounts] at hlevel
    omega
  · by_contra hwriting
    obtain ⟨sp, hsp⟩ := Option.ne_none_iff_exists'.mp hwriting
    have hmem := h.writing_held hsp
    rw [hheld] at hmem
    cases hmem
  · by_contra hsome
    obtain ⟨v, hv⟩ := Option.ne_none_iff_exists'.mp hsome
    have hmem := hloaded sp v hv
    rw [hheld] at hmem
    cases hmem

omit [DecidableEq κ] in
lemma LocksInv.interrupt (h : LocksInv s₀ s) (hmasked : ¬(s.cpu c).mask.Masked)
    (hrunning : (s.cpu c).ctx.pc ≠ .panicked) :
    LocksInv s₀ (s.setCpu c
      { mask := { (s.cpu c).mask with daif := (s.cpu c).mask.daif ||| DAIF_ALL }
        ctx := LockContext.entry κ α
        interrupted := ((s.cpu c).mask.daif, (s.cpu c).ctx) :: (s.cpu c).interrupted }) := by
  have hcpu := h.cpus c
  have hidle := hcpu.idle hmasked hrunning (fun sp v hv => (h.loaded c sp v hv).1)
  apply h.setCpu
  · refine ⟨List.nodup_nil, rfl, fun hpos => absurd hpos (Nat.lt_irrefl 0), fun _ => ?_, fun y hy => ?_⟩
    · show (s.cpu c).mask.irqDisableDepth = _
      rw [hcpu.depth hrunning, hcpu.level_zero hmasked]
      rfl
    · rcases List.mem_cons.mp hy with rfl | hy
      · exact hidle
      · exact hcpu.interrupted y hy
  · exact hidle.held.symm
  · exact hidle.writing.symm
  · exact fun sp v hv => by cases hv

omit [DecidableEq κ] in
/-- A handler returns to a context that has no lock. -/
lemma LocksInv.eret (h : LocksInv s₀ s) {spsr : BitVec 64} {below : List (BitVec 64 × LockContext κ α)}
    (hbelow : (s.cpu c).interrupted = (spsr, ctx) :: below) (hpc : (s.cpu c).ctx.pc = .user)
    (hheld : (s.cpu c).ctx.held = []) :
    LocksInv s₀ (s.setCpu c ⟨{ (s.cpu c).mask with daif := spsr }, ctx, below⟩) := by
  have hcpu := h.cpus c
  have hinterrupted := hcpu.interrupted
  rw [hbelow] at hinterrupted
  have hidle : ctx.Idle := hinterrupted (spsr, ctx) List.mem_cons_self
  have hlevel : ctx.level = 0 := by
    unfold LockContext.level
    rw [hidle.held, hidle.counts]
    rfl
  have hdepth := hcpu.depth (by rw [hpc]; nofun)
  unfold LockContext.level at hdepth
  rw [hheld, hpc] at hdepth
  apply h.setCpu
  · refine ⟨?_, hidle.knows, fun hpos => ?_, fun _ => ?_, fun y hy => hinterrupted y (List.mem_cons_of_mem _ hy)⟩
    · show ctx.held.Nodup
      rw [hidle.held]
      exact List.nodup_nil
    · exact absurd hpos (by rw [hlevel]; exact Nat.lt_irrefl 0)
    · show (s.cpu c).mask.irqDisableDepth = _
      rw [hdepth, hlevel]
      rfl
  · exact hidle.held.trans hheld.symm
  · rw [hpc]
    exact hidle.writing
  · intro sp v hv
    have hnone : ctx.loaded sp = none := hidle.loaded sp
    rw [hnone] at hv
    cases hv

omit [DecidableEq κ] in
lemma LocksInv.setDaif (h : LocksInv s₀ s) (daif : BitVec 64) (hpc : (s.cpu c).ctx.pc = .user)
    (hheld : (s.cpu c).ctx.held = []) :
    LocksInv s₀ (s.setCpu c { s.cpu c with mask := { (s.cpu c).mask with daif := daif } }) := by
  have hcpu := h.cpus c
  have hlevel : (s.cpu c).ctx.level = 0 := by
    unfold LockContext.level
    rw [hheld, hpc]
    rfl
  apply h.setCpu
  · refine ⟨hcpu.nodup, hcpu.knows, fun hpos => ?_, hcpu.depth, hcpu.interrupted⟩
    exact absurd hpos (by rw [hlevel]; exact Nat.lt_irrefl 0)
  · rfl
  · rfl
  · exact h.loaded c

/-- Each step keeps the invariant. -/
lemma LocksInv.step [Fintype κ] (h : LocksInv s₀ s) (hcard : Fintype.card κ + 1 < 2 ^ 31) {op : LockMove ι κ α}
    (hrun : op.run s = some s') : LocksInv s₀ s' := by
  cases op with
  | acquire c sp =>
    simp only [LockMove.run, Option.ite_none_right_eq_some, Option.some.injEq] at hrun
    exact hrun.2 ▸ h.acquire hrun.1
  | release c sp =>
    simp only [LockMove.run, Option.ite_none_right_eq_some, Option.some.injEq] at hrun
    exact hrun.2 ▸ h.release hrun.1
  | turn c => exact h.turn hcard hrun
  | load c sp =>
    simp only [LockMove.run, Option.ite_none_right_eq_some, Option.some.injEq] at hrun
    exact hrun.2 ▸ h.load hrun.1.1 hrun.1.2
  | store c sp f =>
    simp only [LockMove.run] at hrun
    split at hrun
    case h_1 v hpc hv =>
      obtain rfl := Option.some.inj hrun
      exact h.store f hpc hv
    case h_2 => cases hrun
  | interrupt c =>
    simp only [LockMove.run, Option.ite_none_left_eq_some, Option.some.injEq, not_or] at hrun
    exact hrun.2 ▸ h.interrupt hrun.1.1 hrun.1.2
  | eret c =>
    simp only [LockMove.run] at hrun
    split at hrun
    case h_1 => cases hrun
    case h_2 spsr ctx below hbelow =>
      split_ifs at hrun with hguard
      obtain rfl := Option.some.inj hrun
      exact h.eret hbelow hguard.1 hguard.2
  | setDaif c daif =>
    simp only [LockMove.run, Option.ite_none_right_eq_some, Option.some.injEq] at hrun
    exact hrun.2 ▸ h.setDaif daif hrun.1.1 hrun.1.2

omit [DecidableEq ι] [DecidableEq κ] in
lemma LocksStart.inv (h : LocksStart s) : LocksInv s s := by
  have hheld : ∀ c, (s.cpu c).ctx.held = [] := by
    intro c
    rw [h.entry c]
    rfl
  refine ⟨fun c => ?_, fun sp c d hc _ => ?_, fun sp => ?_, fun sp c => ?_, fun c sp v hv => ?_, fun sp => ?_⟩
  · refine ⟨?_, ?_, fun hpos => ?_, fun _ => ?_, fun y hy => ?_⟩
    · rw [hheld c]
      exact List.nodup_nil
    · rw [h.entry c]
      rfl
    · rw [h.entry c] at hpos
      exact absurd hpos (Nat.lt_irrefl 0)
    · rw [h.depth c, h.entry c]
      rfl
    · rw [h.interrupted c] at hy
      cases hy
  · rw [hheld c] at hc
    cases hc
  · rw [h.free sp]
    exact ⟨nofun, fun ⟨c, hc⟩ => by rw [hheld c] at hc; cases hc⟩
  · rw [h.free sp, hheld c]
    exact ⟨nofun, fun hmem => by cases hmem.1⟩
  · rw [h.entry c] at hv
    cases hv
  · rw [h.log sp]
    rfl

omit [DecidableEq κ] in
/-- What the invariant says of a call that is past its check. -/
lemma Knows.caught (h : ctx.Knows) (hm : ctx.misused = true) : ctx.pc.checking = true ∨ ctx.pc = .panicked := by
  unfold LockContext.Knows at h
  split at h
  all_goals rename_i hpc
  all_goals rw [hpc]
  case h_1 | h_2 => exact absurd h (by rw [hm]; nofun)
  case h_3 | h_4 | h_6 | h_7 => exact .inl rfl
  case h_5 | h_8 | h_9 | h_10 => exact absurd h.1 (by rw [hm]; nofun)
  case h_11 => exact .inr rfl

/-- Whatever the order of the accesses and wherever the interrupts come, the locks do what they are for, as long as there
are fewer than `2 ^ 31 - 1` of them. -/
theorem spinlocks_exclude [Fintype κ] (hcard : Fintype.card κ + 1 < 2 ^ 31) (hstart : LocksStart s₀)
    (hrun : LocksRun s₀ s) : LocksSafe s₀ s := by
  have hinv : LocksInv s₀ s := by
    induction hrun with
    | start => exact hstart.inv
    | step _ op hop ih => exact ih.step hcard hop
  refine ⟨hinv.exclusive, fun c x hx => ((hinv.cpus c).interrupted x hx).held, fun c hpc => hinv.knows hpc,
    fun c hm => Knows.caught (hinv.cpus c).knows hm, hinv.kept, fun c sp v hv => (hinv.loaded c sp v hv).2.2⟩

/-- The runs on a list of steps. -/
lemma LocksRun.of_foldlM {ops : List (LockMove ι κ α)} (h : LocksRun s₀ s)
    (hops : ops.foldlM LockMove.run s = some s') : LocksRun s₀ s' := by
  induction ops generalizing s with
  | nil =>
    obtain rfl := Option.some.inj hops
    exact h
  | cons op ops ih =>
    obtain ⟨s₁, hop, hrest⟩ := Option.bind_eq_some_iff.mp hops
    exact ih (h.step op hop) hrest

/-- Two CPUs and one lock, whose datum is a number. -/
def lockedCpus : LockSmp (Fin 2) Unit Nat where
  lock _ := ⟨false, none⟩
  cpu _ := ⟨⟨0, 0, false⟩, LockContext.entry Unit Nat, []⟩
  data _ := 0
  log _ := []

/-- Both CPUs increment it, the second one in an interrupt handler that comes while the first one holds the lock. -/
def twoIncrements : List (LockMove (Fin 2) Unit Nat) :=
  [.acquire 0 (), .turn 0, .turn 0, .turn 0, .load 0 (), .interrupt 1, .acquire 1 (), .turn 1, .turn 1, .turn 1,
    .store 0 () (· + 1), .release 0 (), .turn 0, .turn 0, .turn 0, .turn 0, .turn 1, .turn 0, .turn 1, .load 1 (),
    .store 1 () (· + 1), .release 1 (), .turn 1, .turn 1, .turn 1, .turn 1, .turn 1, .eret 1]

theorem spinlocks_exclude_two_cpus :
    ∃ s, LocksRun lockedCpus s ∧ s.data () = 2 ∧ LocksSafe lockedCpus s := by
  have hdata : (twoIncrements.foldlM LockMove.run lockedCpus).map (fun s => s.data ()) = some 2 := by
    decide +kernel
  obtain ⟨s, hs, hs2⟩ := Option.map_eq_some_iff.mp hdata
  have hrun : LocksRun lockedCpus s := LocksRun.start.of_foldlM hs
  have hstart : LocksStart lockedCpus :=
    ⟨fun _ => rfl, fun _ => rfl, fun _ => rfl, fun _ => rfl, fun _ => rfl⟩
  exact ⟨s, hrun, hs2, spinlocks_exclude (by decide) hstart hrun⟩

end Proofs

end KaworuOS
