import KaworuOS.Base
import Mathlib.Logic.Function.Basic

/-!
# The block driver (`drivers/virtio/virtio_blk.c`)

One task calls the driver, the device works on the published chains, and the interrupt handler of
the driver signals the completion that blocking calls wait for. The three take their steps in any
order. One interrupt line has one active handler at a time, so one program counter is enough for it.
-/

namespace KaworuOS

/-- `SECTOR_SIZE`. -/
abbrev SECTOR_SIZE : Nat := 512

/-- The bytes of a sector. -/
abbrev Sector : Type := Fin SECTOR_SIZE → UInt8

/-- `VIRTIO_QUEUE_ENTRY_COUNT`. -/
abbrev VIRTIO_QUEUE_ENTRY_COUNT : Nat := 16

/-- `VIRTQ_DESC_F_NEXT`. -/
abbrev VIRTQ_DESC_F_NEXT : Nat := 1

/-- `VIRTQ_DESC_F_WRITE`. -/
abbrev VIRTQ_DESC_F_WRITE : Nat := 2

/-- `VIRTIO_BLOCK_TYPE_IN`. -/
abbrev VIRTIO_BLOCK_TYPE_IN : Nat := 0

/-- `VIRTIO_BLOCK_TYPE_OUT`. -/
abbrev VIRTIO_BLOCK_TYPE_OUT : Nat := 1

/-- `VirtIOQueueDesc`. -/
structure VirtIOQueueDesc where
  addr : Nat
  len : Nat
  flags : Nat
  next : Nat
  deriving DecidableEq, Repr

/-- `VirtQ`, with the fields of the available and of the used ring that the driver reads or writes. -/
structure VirtQ where
  descs : Nat → VirtIOQueueDesc
  availIndex : UInt16
  availRing : Nat → Nat
  usedIndex : UInt16
  lastUsedIndex : UInt16

/-- `VirtIOBlkRequest`. -/
structure VirtIOBlkRequest where
  type : Nat
  sector : Nat
  data : Sector
  status : UInt8

/-- `virtq_is_busy`. -/
def VirtQ.isBusy (vq : VirtQ) : Bool := vq.lastUsedIndex != vq.usedIndex

/-- The calls of `BlockOps` that reach the device. -/
inductive BlkCall
  | read (sector : Nat)
  | readSync (sector : Nat)
  | write (sector : Nat) (buf : Sector)
  | writeSync (sector : Nat) (buf : Sector)

namespace BlkCall

def sector : BlkCall → Nat
  | read n | readSync n | write n _ | writeSync n _ => n

def writing : BlkCall → Bool
  | read _ | readSync _ => false
  | write .. | writeSync .. => true

/-- The buffer of a write. -/
def buf : BlkCall → Option Sector
  | read _ | readSync _ => none
  | write _ b | writeSync _ b => some b

/-- Whether the call polls (`virtio_blk_submit_and_wait`) rather than blocks
(`virtio_blk_submit_and_block`). -/
def polls : BlkCall → Bool
  | read _ | write .. => false
  | readSync _ | writeSync .. => true

end BlkCall

/-- What the calling task does next. -/
inductive BlkPc
  /-- Outside of the driver. -/
  | idle
  /-- Before the header of the request is written. -/
  | fill
  /-- Before the descriptors are written. -/
  | descs
  /-- Before `completion_reset`. -/
  | reset
  /-- Before the entry of the available ring is written. -/
  | ring
  /-- Before `avail.index++`. -/
  | index
  /-- Before `last_used_index++`. -/
  | lastUsed
  /-- In the loop of `virtio_blk_submit_and_wait`. -/
  | poll
  /-- At the head of the loop of `completion_wait`. -/
  | wait
  /-- In `completion_wait`, marked as blocked and not on the wait queue. -/
  | enqueue
  /-- On the wait queue. -/
  | asleep
  /-- Before the status is read. -/
  | finish
  /-- Before the data of a read is copied. -/
  | copy
  deriving DecidableEq, Repr

/-- What `virtio_blk_irq_handler` does next. -/
inductive IrqPc
  | idle
  /-- Before the write to the acknowledge register. -/
  | ack
  /-- Before the assertion of `completion_signal`. -/
  | assert
  /-- Before the section of `completion_signal` under its lock. -/
  | signal
  deriving DecidableEq, Repr

/-- How far the device is with a request. -/
inductive DeviceStage
  | taken
  | moved
  | answered
  deriving DecidableEq, Repr

/-- A request that the device has taken from the available ring. -/
structure DeviceRequest where
  id : Nat
  writing : Bool
  sector : Nat
  stage : DeviceStage
  deriving DecidableEq, Repr

/-- What a call has returned to its caller, and the bytes that it has copied to the buffer of a read. -/
structure BlkAnswer where
  call : BlkCall
  id : Nat
  errno : Errno
  copied : Option Sector

/-- The driver, its queue and request page, the device and the interrupt handler. The requests are
numbered as the driver publishes them (`published`) and as the device takes them (`taken`). -/
structure Blk where
  pc : BlkPc
  call : BlkCall
  answer : Option BlkAnswer
  published : Nat
  requestAddr : Nat
  queue : VirtQ
  request : VirtIOBlkRequest
  done : Bool
  handler : IrqPc
  isr : Bool
  unsent : Nat
  availSeen : UInt16
  taken : Nat
  flight : List DeviceRequest
  completed : List Nat
  disk : Nat → Sector

namespace Blk

/-- The header that `virtio_blk_add_requests` writes. -/
def fillRequest (req : VirtIOBlkRequest) (sector : Nat) (writing : Bool) : VirtIOBlkRequest :=
  { req with sector := sector, type := if writing then VIRTIO_BLOCK_TYPE_OUT else VIRTIO_BLOCK_TYPE_IN }

/-- The descriptors that `virtio_blk_add_requests` writes. -/
def fillDescs (descs : Nat → VirtIOQueueDesc) (addr : Nat) (writing : Bool) : Nat → VirtIOQueueDesc
  | 0 => ⟨addr, 16, VIRTQ_DESC_F_NEXT, 1⟩
  | 1 => ⟨addr + 16, SECTOR_SIZE, VIRTQ_DESC_F_NEXT ||| (if writing then 1 else VIRTQ_DESC_F_WRITE), 2⟩
  | 2 => { descs 2 with addr := addr + 528, len := 1, flags := VIRTQ_DESC_F_WRITE }
  | n => descs n

/-- The start of `read`, `read_sync`, `write` and `write_sync`, up to `virtio_blk_add_requests`. -/
def begin (s : Blk) (call : BlkCall) : Blk :=
  let request := match call with
    | .write _ buf | .writeSync _ buf => { s.request with data := buf }
    | .read _ | .readSync _ => s.request
  { s with pc := .fill, call := call, answer := none, request := request }

/-- The call returns. -/
def answerWith (s : Blk) (errno : Errno) (copied : Option Sector) : Blk :=
  { s with pc := .idle, answer := some ⟨s.call, s.published, errno, copied⟩ }

/-- The check of the status at the end of a call. -/
def finish (s : Blk) : Blk :=
  if s.request.status ≠ 0 then s.answerWith .ENODEV none
  else if s.call.writing then s.answerWith .EOK none
  else { s with pc := .copy }

/-- The next step of the calling task. -/
def go (s : Blk) : Option Blk :=
  match s.pc with
  | .idle => none
  | .fill => some { s with request := fillRequest s.request s.call.sector s.call.writing, pc := .descs }
  | .descs =>
    let descs := fillDescs s.queue.descs s.requestAddr s.call.writing
    some { s with queue := { s.queue with descs := descs }, pc := .reset }
  | .reset => some { s with done := false, pc := .ring }
  | .ring =>
    let slot := s.queue.availIndex.toNat % VIRTIO_QUEUE_ENTRY_COUNT
    some { s with queue := { s.queue with availRing := Function.update s.queue.availRing slot 0 }, pc := .index }
  | .index =>
    some { s with
      queue := { s.queue with availIndex := s.queue.availIndex + 1 }
      published := s.published + 1
      pc := .lastUsed }
  | .lastUsed =>
    some { s with
      queue := { s.queue with lastUsedIndex := s.queue.lastUsedIndex + 1 }
      pc := if s.call.polls then .poll else .wait }
  | .poll => some (if s.queue.isBusy then s else { s with pc := .finish })
  | .wait => some { s with pc := if s.done then .finish else .enqueue }
  | .enqueue => some { s with pc := .asleep }
  | .asleep => none
  | .finish => some s.finish
  | .copy => some (s.answerWith .EOK (some s.request.data))

/-- The descriptors of the chain that starts with the descriptor `i`. -/
def chain (descs : Nat → VirtIOQueueDesc) : Nat → Nat → List VirtIOQueueDesc
  | 0, _ => []
  | fuel + 1, i =>
    descs i :: if (descs i).flags &&& VIRTQ_DESC_F_NEXT = 0 then [] else chain descs fuel (descs i).next

/-- The buffers of a chain, with whether the device may write to them. -/
def buffers (l : List VirtIOQueueDesc) : List (Nat × Nat × Bool) :=
  l.map fun d => (d.addr, d.len, d.flags &&& VIRTQ_DESC_F_WRITE != 0)

/-- The chain of the request in the available ring is one that a block device accepts: the header,
the data, which the device may write for a read, and the status byte. -/
def accepts (s : Blk) : Bool :=
  let head := s.queue.availRing (s.availSeen.toNat % VIRTIO_QUEUE_ENTRY_COUNT)
  let writing := s.request.type == VIRTIO_BLOCK_TYPE_OUT
  buffers (chain s.queue.descs VIRTIO_QUEUE_ENTRY_COUNT head) ==
    [(s.requestAddr, 16, false), (s.requestAddr + 16, SECTOR_SIZE, !writing), (s.requestAddr + 528, 1, true)]

/-- The device takes the next chain of the available ring and reads the header. -/
def take (s : Blk) : Option Blk :=
  if s.availSeen ≠ s.queue.availIndex ∧ s.accepts then
    let r : DeviceRequest :=
      ⟨s.taken + 1, s.request.type == VIRTIO_BLOCK_TYPE_OUT, s.request.sector, .taken⟩
    some { s with availSeen := s.availSeen + 1, taken := s.taken + 1, flight := s.flight ++ [r] }
  else none

/-- The device moves the data of a request. -/
def move (s : Blk) (r : DeviceRequest) : Option Blk :=
  if r ∈ s.flight ∧ r.stage = .taken then
    let s := { s with flight := { r with stage := .moved } :: s.flight.erase r }
    some (if r.writing then { s with disk := Function.update s.disk r.sector s.request.data }
      else { s with request := { s.request with data := s.disk r.sector } })
  else none

/-- The device writes the status of a request, which is zero only when the data has been moved. -/
def respond (s : Blk) (r : DeviceRequest) (status : UInt8) : Option Blk :=
  if r ∈ s.flight ∧ (r.stage = .moved ∨ r.stage = .taken ∧ status ≠ 0) then
    some { s with
      flight := { r with stage := .answered } :: s.flight.erase r
      request := { s.request with status := status } }
  else none

/-- The device puts a request on the used ring. -/
def complete (s : Blk) (r : DeviceRequest) : Option Blk :=
  if r ∈ s.flight ∧ r.stage = .answered then
    some { s with
      flight := s.flight.erase r
      queue := { s.queue with usedIndex := s.queue.usedIndex + 1 }
      completed := r.id :: s.completed
      unsent := s.unsent + 1 }
  else none

/-- The device raises the interrupt for a request that it has completed. -/
def raise (s : Blk) : Option Blk :=
  if 0 < s.unsent then some { s with unsent := s.unsent - 1, isr := true } else none

/-- The next step of `virtio_blk_irq_handler`. -/
def irq (s : Blk) : Except Halt Blk :=
  match s.handler with
  | .idle => .ok (if s.isr then { s with handler := .ack } else s)
  | .ack => .ok { s with isr := false, handler := .assert }
  | .assert => do
    assertThat (s.done = false)
    .ok { s with handler := .signal }
  | .signal => .ok { s with done := true, pc := if s.pc = .asleep then .wait else s.pc, handler := .idle }

end Blk

/-- The steps of the calling task, of the device and of the interrupt handler. -/
inductive BlkOp
  | call (call : BlkCall)
  | go
  | take
  | move (r : DeviceRequest)
  | respond (r : DeviceRequest) (status : UInt8)
  | complete (r : DeviceRequest)
  | raise
  | irq

/-- The outcome of a step, or `none` for a step that is not possible. -/
def BlkOp.run (s : Blk) : BlkOp → Option (Except Halt Blk)
  | call c => if s.pc = .idle then some (.ok (s.begin c)) else none
  | go => s.go.map .ok
  | take => s.take.map .ok
  | move r => (s.move r).map .ok
  | respond r status => (s.respond r status).map .ok
  | complete r => (s.complete r).map .ok
  | raise => s.raise.map .ok
  | irq => some s.irq

/-- Several tasks in the driver of one device. The fields of `dev` that belong to a call are those of
the task that took the last step. -/
structure BlkTasks where
  dev : Blk
  pc : Nat → BlkPc
  call : Nat → BlkCall
  answer : Nat → Option BlkAnswer
  id : Nat → Nat

namespace BlkTasks

/-- The driver as the task `t` sees it inside of a call. -/
def view (s : BlkTasks) (t : Nat) : Blk := { s.dev with pc := s.pc t, call := s.call t, answer := none }

/-- The task `t` starts a call. -/
def begin (s : BlkTasks) (t : Nat) (call : BlkCall) : BlkTasks :=
  { s with
    dev := (s.view t).begin call
    pc := Function.update s.pc t .fill
    call := Function.update s.call t call
    answer := Function.update s.answer t none }

/-- The next step of the task `t`. -/
def go (s : BlkTasks) (t : Nat) : Option BlkTasks :=
  (s.view t).go.map fun v =>
    { s with
      dev := v
      pc := Function.update s.pc t v.pc
      answer := match v.answer with
        | none => s.answer
        | some a => Function.update s.answer t (some { a with id := s.id t })
      id := if s.pc t = .index then Function.update s.id t v.published else s.id }

/-- The next step of the interrupt handler, which wakes every task on the wait queue. -/
def irq (s : BlkTasks) : Except Halt BlkTasks := do
  let dev ← s.dev.irq
  .ok { s with
    dev := dev
    pc := if s.dev.handler = .signal then fun t => if s.pc t = .asleep then .wait else s.pc t else s.pc }

end BlkTasks

/-- The steps of the tasks, of the device and of the interrupt handler. -/
inductive BlkTasksOp
  | call (t : Nat) (call : BlkCall)
  | go (t : Nat)
  | take
  | move (r : DeviceRequest)
  | respond (r : DeviceRequest) (status : UInt8)
  | complete (r : DeviceRequest)
  | raise
  | irq

/-- The outcome of a step, or `none` for a step that is not possible. -/
def BlkTasksOp.run (s : BlkTasks) : BlkTasksOp → Option (Except Halt BlkTasks)
  | call t c => if s.pc t = .idle then some (.ok (s.begin t c)) else none
  | go t => (s.go t).map .ok
  | take => s.dev.take.map fun d => .ok { s with dev := d }
  | move r => (s.dev.move r).map fun d => .ok { s with dev := d }
  | respond r status => (s.dev.respond r status).map fun d => .ok { s with dev := d }
  | complete r => (s.dev.complete r).map fun d => .ok { s with dev := d }
  | raise => s.dev.raise.map fun d => .ok { s with dev := d }
  | irq => some s.irq

end KaworuOS
