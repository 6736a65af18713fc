import KaworuOS.Smp

/-!
# Mutexes and semaphores (`sync/mutex.c`, `sync/semaphore.c`)

The calls run on several CPUs at once. A step is a section under a spinlock, the part of
`scheduler_block_current` before its `scheduler_switch`, `scheduler_wake_blocked`, or one half of
`scheduler_switch`; between two steps of a call the other CPUs may step, and the timer may preempt
the task. Where a task is in its call is its program counter.
-/

namespace KaworuOS

/-- A `Mutex` or a `Semaphore`, by its address. -/
inductive SyncObject
  | mutex (addr : Nat)
  | semaphore (addr : Nat)
  deriving DecidableEq, Repr

/-- The wait queue inside the object. -/
def SyncObject.waiters : SyncObject → Nat
  | mutex addr => addr
  | semaphore addr => addr

/-- What a task does next. -/
inductive SyncPc
  /-- Outside of the calls. -/
  | user
  /-- At the head of the loop of `mutex_acquire` or `semaphore_acquire`. -/
  | acquire (o : SyncObject)
  /-- On the wait queue, before `scheduler_block_current`. -/
  | block (o : SyncObject)
  /-- Marked as blocked, before the `scheduler_switch` of `scheduler_block_current`. -/
  | switch (o : SyncObject)
  /-- In `mutex_release` or `semaphore_release`, before `scheduler_wake_blocked`. -/
  | wake (blocked : Nat)
  deriving DecidableEq, Repr

/-- The tasks and the objects. A CPU is `switching` between the two halves of `scheduler_switch`. -/
structure Sync where
  smp : Smp
  switching : Nat → Bool
  pc : Nat → SyncPc
  owner : Nat → Nat
  count : Nat → Nat
  initialCount : Nat → Nat

namespace Sync

def setPc (s : Sync) (t : Nat) (pc : SyncPc) : Sync := { s with pc := Function.update s.pc t pc }

def setSwitching (s : Sync) (c : Nat) (v : Bool) : Sync := { s with switching := Function.update s.switching c v }

/-- The section of `mutex_acquire`. -/
def mutexAcquire (s : Sync) (c m : Nat) : Except Halt Sync :=
  let current := s.smp.current c
  if s.owner m = 0 then .ok ({ s with owner := Function.update s.owner m current }.setPc current .user)
  else do
    let smp ← s.smp.waitqueueEnqueue m current
    .ok ({ s with smp := smp }.setPc current (.block (.mutex m)))

/-- The section of `semaphore_acquire`. -/
def semaphoreAcquire (s : Sync) (c m : Nat) : Except Halt Sync :=
  let current := s.smp.current c
  if 0 < s.count m then .ok ({ s with count := Function.update s.count m (s.count m - 1) }.setPc current .user)
  else do
    let smp ← s.smp.waitqueueEnqueue m current
    .ok ({ s with smp := smp }.setPc current (.block (.semaphore m)))

/-- What the two releases do after they have given the object back. -/
def dequeueWaiter (s : Sync) (c m : Nat) : Sync :=
  let (blocked, smp) := s.smp.waitqueueDequeue m
  { s with smp := smp }.setPc (s.smp.current c) (if blocked = 0 then .user else .wake blocked)

/-- The section of `mutex_release`. -/
def mutexRelease (s : Sync) (c m : Nat) : Except Halt Sync := do
  assertThat (s.owner m ≠ 0)
  assertThat (s.owner m = s.smp.current c)
  .ok (dequeueWaiter { s with owner := Function.update s.owner m 0 } c m)

/-- The section of `semaphore_release`. -/
def semaphoreRelease (s : Sync) (c m : Nat) : Except Halt Sync := do
  assertThat (s.count m < s.initialCount m)
  .ok (dequeueWaiter { s with count := Function.update s.count m (s.count m + 1) } c m)

/-- `mutex_try_acquire`. -/
def mutexTryAcquire (s : Sync) (c m : Nat) : Bool × Sync :=
  if s.owner m = 0 then (true, { s with owner := Function.update s.owner m (s.smp.current c) }) else (false, s)

/-- `semaphore_try_acquire`. -/
def semaphoreTryAcquire (s : Sync) (m : Nat) : Bool × Sync :=
  if 0 < s.count m then (true, { s with count := Function.update s.count m (s.count m - 1) }) else (false, s)

/-- The first half of `scheduler_switch` on `c`. -/
def beginSwitch (s : Sync) (c : Nat) : Except Halt Sync := do
  let smp ← s.smp.putBackPrev c
  .ok ({ s with smp := smp }.setSwitching c true)

/-- The second half of `scheduler_switch` on `c`. -/
def endSwitch (s : Sync) (c : Nat) : Except Halt Sync := do
  let smp ← s.smp.switchToNext c
  .ok ({ s with smp := smp }.setSwitching c false)

end Sync

/-- The steps on CPU `c`. -/
inductive SyncOp
  | call (c : Nat) (o : SyncObject)
  | acquire (c : Nat)
  | block (c : Nat)
  | leave (c : Nat)
  | release (c : Nat) (o : SyncObject)
  | wake (c : Nat)
  | timer (c : Nat)
  | pick (c : Nat)
  deriving DecidableEq, Repr

/-- The CPU of a step. -/
def SyncOp.cpu : SyncOp → Nat
  | call c _ | acquire c | block c | leave c | release c _ | wake c | timer c | pick c => c

/-- The outcome of a step, or `none` for a step that the current task is not at. -/
def SyncOp.run (s : Sync) : SyncOp → Option (Except Halt Sync)
  | call c o =>
    if s.pc (s.smp.current c) = .user then some (.ok (s.setPc (s.smp.current c) (.acquire o))) else none
  | acquire c =>
    match s.pc (s.smp.current c) with
    | .acquire (.mutex m) => some (s.mutexAcquire c m)
    | .acquire (.semaphore m) => some (s.semaphoreAcquire c m)
    | _ => none
  | block c =>
    match s.pc (s.smp.current c) with
    | .block o => some (do
      let smp ← s.smp.blockCurrent c
      .ok ({ s with smp := smp }.setPc (s.smp.current c) (.switch o)))
    | _ => none
  | leave c =>
    match s.pc (s.smp.current c) with
    | .switch o => some ((s.setPc (s.smp.current c) (.acquire o)).beginSwitch c)
    | _ => none
  | release c o =>
    if s.pc (s.smp.current c) = .user then
      match o with
      | .mutex m => some (s.mutexRelease c m)
      | .semaphore m => some (s.semaphoreRelease c m)
    else none
  | wake c =>
    match s.pc (s.smp.current c) with
    | .wake blocked => some (do
      let smp ← s.smp.schedulerWakeBlocked blocked
      .ok ({ s with smp := smp }.setPc (s.smp.current c) .user))
    | _ => none
  | timer c => some (s.beginSwitch c)
  | pick c => some (s.endSwitch c)

/-- The steps, with the calls that do not block. -/
inductive LockOp
  | sync (op : SyncOp)
  | tryAcquire (c : Nat) (o : SyncObject)
  deriving DecidableEq, Repr

/-- The CPU of a step. -/
def LockOp.cpu : LockOp → Nat
  | sync op => op.cpu
  | tryAcquire c _ => c

/-- The outcome of a step, with what a call that returns a value returns, or `none` for a step that the
current task is not at. -/
def LockOp.run (s : Sync) : LockOp → Option (Except Halt (Option Bool × Sync))
  | sync op => (op.run s).map fun r => r.map fun s' => (none, s')
  | tryAcquire c o =>
    if s.pc (s.smp.current c) = .user then
      match o with
      | .mutex m => some (.ok ((s.mutexTryAcquire c m).map some id))
      | .semaphore m => some (.ok ((s.semaphoreTryAcquire m).map some id))
    else none

end KaworuOS
