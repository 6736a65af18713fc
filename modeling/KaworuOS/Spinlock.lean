import KaworuOS.Base
import Mathlib.Logic.Function.Basic

/-!
# Spinlocks and the interrupt mask of a CPU (`kernel/sync/spinlock.c`, `kernel/irq/irq_controller.c`)

One CPU acquires and releases locks, which other CPUs change too. A call is one step, but `spinlock_acquire` is cut at
each turn of its loop. `DAIF` and the `i32` of the depth are words; the names of the locks are left out.
-/

namespace KaworuOS

/-- `DAIF_I`. -/
def DAIF_I : BitVec 64 := 1 <<< 7

/-- `DAIF_F`. -/
def DAIF_F : BitVec 64 := 1 <<< 6

/-- `r_intrd_enabled`. -/
def rIntrdEnabled (daif : BitVec 64) : Bool := daif &&& (DAIF_F ||| DAIF_I) = 0

/-- `w_intrd_disable`. -/
def wIntrdDisable (daif : BitVec 64) : BitVec 64 := daif ||| (DAIF_F ||| DAIF_I)

/-- `w_intrd_enable`. -/
def wIntrdEnable (daif : BitVec 64) : BitVec 64 := daif &&& ~~~(DAIF_F ||| DAIF_I)

/-- The register and the fields of a `Cpu` that mask its interrupts. -/
structure IrqMask where
  daif : BitVec 64
  irqDisableDepth : BitVec 32
  irqWasEnabled : Bool
  deriving DecidableEq, Repr

namespace IrqMask

/-- `irq_push_intr`. -/
def irqPushIntr (m : IrqMask) : IrqMask :=
  let enabledPreviously := rIntrdEnabled m.daif
  let m := { m with daif := wIntrdDisable m.daif }
  let m := if m.irqDisableDepth = 0 then { m with irqWasEnabled := enabledPreviously } else m
  { m with irqDisableDepth := m.irqDisableDepth + 1 }

/-- `irq_pop_intr`. -/
def irqPopIntr (m : IrqMask) : Except Halt IrqMask := do
  assertThat (rIntrdEnabled m.daif = false)
  assertThat (¬m.irqDisableDepth.slt 1)
  let m := { m with irqDisableDepth := m.irqDisableDepth - 1 }
  return if m.irqDisableDepth = 0 ∧ m.irqWasEnabled then { m with daif := wIntrdEnable m.daif } else m

end IrqMask

/-- `SpinLock` without its name. -/
structure SpinLock where
  locked : Bool
  cpu : Nat
  deriving DecidableEq, Repr

/-- The mask of a CPU and the locks. Where the CPU is does not stand in the code: `held` lists the
locks that it has acquired, and `spinning` is the lock for which it is in the loop of `spinlock_acquire`. -/
structure SpinCpu extends IrqMask where
  lock : Nat → SpinLock
  held : List Nat
  spinning : Option Nat

namespace SpinCpu

def setLock (s : SpinCpu) (sp : Nat) (lock : SpinLock) : SpinCpu :=
  { s with lock := Function.update s.lock sp lock }

/-- `irq_push_intr`. -/
def irqPushIntr (s : SpinCpu) : SpinCpu := { s with toIrqMask := s.toIrqMask.irqPushIntr }

/-- `irq_pop_intr`. -/
def irqPopIntr (s : SpinCpu) : Except Halt SpinCpu := do
  let mask ← s.toIrqMask.irqPopIntr
  return { s with toIrqMask := mask }

/-- `holding`, on the CPU `cpu`. -/
def holding (s : SpinCpu) (cpu sp : Nat) : Bool := (s.lock sp).locked && (s.lock sp).cpu == cpu

/-- `spinlock_acquire` up to its loop. -/
def spinlockAcquire (s : SpinCpu) (cpu sp : Nat) : Except Halt SpinCpu := do
  let s := s.irqPushIntr
  assertThat (s.holding cpu sp = false)
  return { s with spinning := some sp }

/-- A turn of the loop of `spinlock_acquire`: an exchange, and what comes behind the loop when it has found the lock
free. -/
def spinlockAcquireTurn (s : SpinCpu) (cpu sp : Nat) : SpinCpu :=
  if (s.lock sp).locked then s
  else { s.setLock sp ⟨true, cpu⟩ with held := sp :: s.held, spinning := none }

/-- `spinlock_release`. -/
def spinlockRelease (s : SpinCpu) (cpu sp : Nat) : Except Halt SpinCpu := do
  assertThat (s.holding cpu sp = true)
  let s := s.setLock sp ⟨false, 0⟩
  irqPopIntr { s with held := s.held.erase sp }

end SpinCpu

/-- What the CPU does, and what the others do to a lock. -/
inductive SpinOp
  | acquire (sp : Nat)
  | turn (sp : Nat)
  | release (sp : Nat)
  | other (sp : Nat) (lock : SpinLock)
  deriving DecidableEq, Repr

/-- The state after a step of the CPU `cpu`. -/
def SpinOp.run (s : SpinCpu) (cpu : Nat) : SpinOp → Except Halt SpinCpu
  | acquire sp => s.spinlockAcquire cpu sp
  | turn sp => .ok (s.spinlockAcquireTurn cpu sp)
  | release sp => s.spinlockRelease cpu sp
  | other sp lock => .ok (s.setLock sp lock)

end KaworuOS
