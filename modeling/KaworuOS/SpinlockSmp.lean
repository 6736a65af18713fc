import KaworuOS.Spinlock

/-!
# Spinlocks between CPUs and interrupt handlers (`kernel/sync/spinlock.c`)

Any number of CPUs call `spinlock_acquire` and `spinlock_release`. Each access to the words of a lock is a step, in
sequential consistency, which the barriers and the atomic accesses ask for. A CPU that does not mask its interrupts may
be interrupted at any time. `irq_push_intr` and `irq_pop_intr` read and write what belongs to the CPU, and are one step
each.
-/

namespace KaworuOS

/-- The masks of an exception that is taken, `DAIF.D`, `A`, `I` and `F`. -/
def DAIF_ALL : BitVec 64 := 15 <<< 6

namespace IrqMask

/-- Neither an IRQ nor a FIQ is taken. -/
def Masked (m : IrqMask) : Prop := m.daif &&& (DAIF_F ||| DAIF_I) = DAIF_F ||| DAIF_I

instance (m : IrqMask) : Decidable m.Masked := inferInstanceAs (Decidable (_ = _))

end IrqMask

/-- The words of a `SpinLock`. -/
structure LockWords (ι : Type) where
  locked : Bool
  cpu : Option ι
  deriving DecidableEq, Repr

/-- The access that comes next. -/
inductive LockPc (κ : Type)
  /-- Outside of the calls. -/
  | user
  /-- `sp->locked` and `sp->cpu` in `holding`, called by `spinlock_acquire`. -/
  | acquireLocked (sp : κ)
  | acquireCpu (sp : κ)
  /-- The exchange of the loop. -/
  | acquireLoop (sp : κ)
  /-- The store to `sp->cpu` behind it. -/
  | acquireOwn (sp : κ)
  /-- `sp->locked` and `sp->cpu` in `holding`, called by `spinlock_release`. -/
  | releaseLocked (sp : κ)
  | releaseCpu (sp : κ)
  /-- The stores to `sp->cpu` and to `sp->locked`. -/
  | releaseDisown (sp : κ)
  | releaseStore (sp : κ)
  /-- `irq_pop_intr`. -/
  | releasePop
  /-- At a `panic`. -/
  | panicked
  deriving DecidableEq, Repr

/-- A thread or an interrupt handler. What is not in the code: `held` lists the locks from the exchange that finds
them free to the store that frees them, `loaded` is what was read under each lock to be written back, and `misused`
says that the call is one for a lock already held, or one that releases a lock that is not held. -/
structure LockContext (κ α : Type) where
  pc : LockPc κ
  held : List κ
  loaded : κ → Option α
  misused : Bool

/-- A CPU: its masks, what it runs, and what that has interrupted, each with its `SPSR`. -/
structure LockCpu (κ α : Type) where
  mask : IrqMask
  ctx : LockContext κ α
  interrupted : List (BitVec 64 × LockContext κ α)

/-- The locks, the CPUs, and what each lock guards. The changes that were made to it are not in the code. -/
structure LockSmp (ι κ α : Type) where
  lock : κ → LockWords ι
  cpu : ι → LockCpu κ α
  data : κ → α
  log : κ → List (α → α)

/-- A context at its entry. -/
def LockContext.entry (κ α : Type) : LockContext κ α := ⟨.user, [], fun _ => none, false⟩

namespace LockSmp

variable {ι κ α : Type} [DecidableEq ι] [DecidableEq κ]

def setCpu (s : LockSmp ι κ α) (c : ι) (x : LockCpu κ α) : LockSmp ι κ α :=
  { s with cpu := Function.update s.cpu c x }

def setCtx (s : LockSmp ι κ α) (c : ι) (ctx : LockContext κ α) : LockSmp ι κ α :=
  s.setCpu c { s.cpu c with ctx := ctx }

def setPc (s : LockSmp ι κ α) (c : ι) (pc : LockPc κ) : LockSmp ι κ α :=
  s.setCtx c { (s.cpu c).ctx with pc := pc }

def setLock (s : LockSmp ι κ α) (sp : κ) (w : LockWords ι) : LockSmp ι κ α :=
  { s with lock := Function.update s.lock sp w }

/-- `spinlock_acquire` is called. -/
def spinlockAcquire (s : LockSmp ι κ α) (c : ι) (sp : κ) : LockSmp ι κ α :=
  let x := s.cpu c
  s.setCpu c
    { x with
      mask := x.mask.irqPushIntr
      ctx := { x.ctx with pc := .acquireLocked sp, misused := decide (sp ∈ x.ctx.held) } }

/-- `spinlock_release` is called. What was read under the lock is not kept. -/
def spinlockRelease (s : LockSmp ι κ α) (c : ι) (sp : κ) : LockSmp ι κ α :=
  let ctx := (s.cpu c).ctx
  s.setCtx c
    { ctx with
      pc := .releaseLocked sp
      loaded := Function.update ctx.loaded sp none
      misused := decide (sp ∉ ctx.held) }

/-- The next access of a call. -/
def turn (s : LockSmp ι κ α) (c : ι) : Option (LockSmp ι κ α) :=
  let ctx := (s.cpu c).ctx
  match ctx.pc with
  | .user => none
  | .acquireLocked sp => some (s.setPc c (if (s.lock sp).locked then .acquireCpu sp else .acquireLoop sp))
  | .acquireCpu sp => some (s.setPc c (if (s.lock sp).cpu = some c then .panicked else .acquireLoop sp))
  | .acquireLoop sp =>
    if (s.lock sp).locked then some s
    else
      some ((s.setLock sp { s.lock sp with locked := true }).setCtx c
        { ctx with pc := .acquireOwn sp, held := sp :: ctx.held })
  | .acquireOwn sp => some ((s.setLock sp { s.lock sp with cpu := some c }).setPc c .user)
  | .releaseLocked sp => some (s.setPc c (if (s.lock sp).locked then .releaseCpu sp else .panicked))
  | .releaseCpu sp => some (s.setPc c (if (s.lock sp).cpu = some c then .releaseDisown sp else .panicked))
  | .releaseDisown sp => some ((s.setLock sp { s.lock sp with cpu := none }).setPc c (.releaseStore sp))
  | .releaseStore sp =>
    some ((s.setLock sp { s.lock sp with locked := false }).setCtx c
      { ctx with pc := .releasePop, held := ctx.held.erase sp })
  | .releasePop =>
    match (s.cpu c).mask.irqPopIntr with
    | .ok mask => some (s.setCpu c { s.cpu c with mask := mask, ctx := { ctx with pc := .user } })
    | .error _ => some (s.setPc c .panicked)
  | .panicked => none

end LockSmp

/-- The steps. -/
inductive LockMove (ι κ α : Type)
  | acquire (c : ι) (sp : κ)
  | release (c : ι) (sp : κ)
  | turn (c : ι)
  /-- What `sp` guards is read, and later written as a function of what was read. -/
  | load (c : ι) (sp : κ)
  | store (c : ι) (sp : κ) (f : α → α)
  /-- An interrupt is taken, and its handler returns. -/
  | interrupt (c : ι)
  | eret (c : ι)
  | setDaif (c : ι) (daif : BitVec 64)

variable {ι κ α : Type} [DecidableEq ι] [DecidableEq κ]

/-- The state after a step, or `none` for one that the CPU does not take. The locks may be called wrongly, but what a
lock guards is read and written only under it, a handler releases the locks that it has taken, and code that holds a
lock does not write `DAIF` by itself. -/
def LockMove.run (s : LockSmp ι κ α) : LockMove ι κ α → Option (LockSmp ι κ α)
  | acquire c sp => if (s.cpu c).ctx.pc = .user then some (s.spinlockAcquire c sp) else none
  | release c sp => if (s.cpu c).ctx.pc = .user then some (s.spinlockRelease c sp) else none
  | turn c => s.turn c
  | load c sp =>
    let ctx := (s.cpu c).ctx
    if ctx.pc = .user ∧ sp ∈ ctx.held then
      some (s.setCtx c { ctx with loaded := Function.update ctx.loaded sp (some (s.data sp)) })
    else none
  | store c sp f =>
    let ctx := (s.cpu c).ctx
    match ctx.pc, ctx.loaded sp with
    | .user, some v =>
      some { s.setCtx c { ctx with loaded := Function.update ctx.loaded sp none } with
        data := Function.update s.data sp (f v)
        log := Function.update s.log sp (s.log sp ++ [f]) }
    | _, _ => none
  | interrupt c =>
    let x := s.cpu c
    if x.mask.Masked ∨ x.ctx.pc = .panicked then none
    else
      some (s.setCpu c
        { mask := { x.mask with daif := x.mask.daif ||| DAIF_ALL }
          ctx := LockContext.entry κ α
          interrupted := (x.mask.daif, x.ctx) :: x.interrupted })
  | eret c =>
    let x := s.cpu c
    match x.interrupted with
    | [] => none
    | (spsr, ctx) :: interrupted =>
      if x.ctx.pc = .user ∧ x.ctx.held = [] then
        some (s.setCpu c ⟨{ x.mask with daif := spsr }, ctx, interrupted⟩)
      else none
  | setDaif c daif =>
    let x := s.cpu c
    if x.ctx.pc = .user ∧ x.ctx.held = [] then some (s.setCpu c { x with mask := { x.mask with daif := daif } })
    else none

end KaworuOS
