import KaworuOS.RingBuffer
import KaworuOS.SysIo

/-!
# Interrupts and input (`kernel/irq/irq_controller.c`, `drivers/irqchip/arm-gicv2.c`, `drivers/uart/pl011.c`, `kernel/io/console.c`, `kernel/core/fd_table.c`, `fs/file.c`)

A byte that arrives at the UART raises an interrupt, whose handler puts the byte into the ring buffer of the console.
Tasks that read take bytes out of it, one in each turn of the loop of `std_read_op`. A section under the lock of the
buffer is one step, and interrupts come between the turns.
-/

namespace KaworuOS
open Lib

/-- `MAX_IRQ`. -/
abbrev MAX_IRQ : Nat := 1024

/-- `GICD_ISENABLERn`. -/
abbrev GICD_ISENABLERn : Nat := 0x100

/-- `GICD_ICENABLERn`. -/
abbrev GICD_ICENABLERn : Nat := 0x180

/-- The interrupt controller: the interrupts that it forwards, what it answers to a read of `GICC_IAR`, the answers
that have been read and not been written to `GICC_EOIR`, and the number that `GICD_TYPER` stands for. -/
structure Gic where
  enabled : Nat → Bool
  iar : Nat
  active : List Nat
  interruptsCount : Nat

namespace Gic

/-- A write to the distributor. In the two banks of enable bits only the ones of a value have an effect. -/
def writeDist (g : Gic) (offset value : Nat) : Gic :=
  if GICD_ISENABLERn ≤ offset ∧ offset < GICD_ICENABLERn then
    { g with enabled := fun i => g.enabled i ||
      (decide (i / 32 = (offset - GICD_ISENABLERn) / 4) && value.testBit (i % 32)) }
  else if GICD_ICENABLERn ≤ offset ∧ offset < GICD_ICENABLERn + 0x80 then
    { g with enabled := fun i => g.enabled i &&
      !(decide (i / 32 = (offset - GICD_ICENABLERn) / 4) && value.testBit (i % 32)) }
  else g

/-- `arm_gic_irq_enable`. -/
def irqEnable (g : Gic) (irq : Nat) : Gic := g.writeDist (GICD_ISENABLERn + irq / 32 * 4) (2 ^ (irq % 32))

/-- The answer is an interrupt. The numbers from 1020 on say that there is none. -/
def pending (iar : Nat) : Bool := decide (iar % 1024 < 1020)

/-- `arm_gic_irq_get_active`, by which an interrupt becomes active. -/
def irqGetActive (g : Gic) : Nat × Gic := (g.iar, if pending g.iar then { g with active := g.iar :: g.active } else g)

/-- `arm_gic_irq_eoi`. -/
def irqEoi (g : Gic) (irq : Nat) : Gic := { g with active := g.active.erase irq }

end Gic

/-- The handlers that drivers give to `request_irq`: that of the UART, and others. -/
inductive IrqHandler
  | uart
  | other (n : Nat)
  deriving DecidableEq, Repr

/-- `irq_desc`. -/
structure IrqDesc where
  handler : Option IrqHandler
  data : Nat

/-- The state that interrupts and readers work on. `uartdr` is what the data register of the UART holds. -/
structure Input where
  mm : Mm
  recvRb : RingBuffer
  files : Files
  irqTable : Nat → IrqDesc
  gic : Gic
  needsResched : Bool
  current : Nat
  uartdr : UInt8

/-- Code that runs on it. -/
abbrev InputCall := Call Halt Input

namespace Input

/-- A call that works on memory. -/
def withMm {α : Type} (x : Kernel α) : InputCall α := fun s => ((x s.mm).1, { s with mm := (x s.mm).2 })

/-- A call that works on files and tables. -/
def withFiles {α : Type} (x : FileCall α) : InputCall α := fun s =>
  ((x s.files).1, { s with files := (x s.files).2 })

/-- Stores a byte. -/
def store (a : Nat) (byte : UInt8) : InputCall Unit :=
  Call.update (fun s => { s with mm := { s.mm with mem := s.mm.mem.set a byte } })

/-- `ringbuffer_push` on the buffer of the console. -/
def push (data : Nat) : InputCall Errno := do
  let rb ← Call.read Input.recvRb
  let (err, rb) ← withMm (ringbufferPush rb data)
  Call.update (fun s => { s with recvRb := rb })
  return err

/-- `ringbuffer_pop` on the buffer of the console. -/
def pop (data : Nat) : InputCall Errno := do
  let rb ← Call.read Input.recvRb
  let (err, rb) ← withMm (ringbufferPop rb data)
  Call.update (fun s => { s with recvRb := rb })
  return err

end Input

/-- `CONSOLE_RECV_RING_BUFFER_SIZE`. -/
abbrev CONSOLE_RECV_RING_BUFFER_SIZE : Nat := 1024

/-- What `console_init` does for the input, with the storage at `buffer`. -/
def consoleInitInput (buffer : Nat) : InputCall Unit :=
  Call.update (fun s => { s with recvRb := ringbufferInit 1 buffer CONSOLE_RECV_RING_BUFFER_SIZE })

/-- `console_receive_char`. The character lies at the address `p` of the argument. -/
def consoleReceiveChar (p : Nat) (c : UInt8) : InputCall Errno := do
  Input.store p c
  Input.push p

/-- `console_read`. -/
def consoleRead (out : Nat) : InputCall Bool := do
  let rb ← Call.read Input.recvRb
  if ringbufferEmpty rb then return false
  let _ ← Input.pop out
  return true

/-- `recieve_irq_handler`. The write to `UARTICR` clears nothing. -/
def recieveIrqHandler (p : Nat) : InputCall Unit := do
  let read ← Call.read Input.uartdr
  let _ ← consoleReceiveChar p read
  return ()

/-- The code of a handler. That of the other drivers is given as `others`. -/
def IrqHandler.code (others : Nat → Nat → InputCall Unit) (p : Nat) : IrqHandler → Nat → InputCall Unit
  | .uart, _ => recieveIrqHandler p
  | .other n, data => others n data

/-- The handler runs, if there is one. -/
def IrqDesc.run (others : Nat → Nat → InputCall Unit) (p : Nat) (desc : IrqDesc) : InputCall Unit :=
  match desc.handler with
  | none => return ()
  | some handler => handler.code others p desc.data

/-- `irq_dispatcher`. There is no entry `MAX_IRQ`. -/
def irqDispatcher (others : Nat → Nat → InputCall Unit) (p : Nat) : InputCall Unit := do
  let gic ← Call.read Input.gic
  let active := gic.irqGetActive.1
  Call.update (fun s => { s with gic := gic.irqGetActive.2 })
  if MAX_IRQ < active ∨ gic.interruptsCount < active then return ()
  if active = MAX_IRQ then Call.halt .fault
  else do
    let desc ← Call.read (fun s => s.irqTable active)
    desc.run others p
    Call.update (fun s => { s with gic := s.gic.irqEoi active })

/-- `irq_handle`. -/
def irqHandle (others : Nat → Nat → InputCall Unit) (p : Nat) : InputCall Bool := do
  irqDispatcher others p
  let resched ← Call.read (fun s => decide (s.needsResched ∧ s.current ≠ 0))
  if resched then do
    Call.update (fun s => { s with needsResched := false })
    return true
  else return false

/-- `irq_set_handler`. -/
def irqSetHandler (irq : Nat) (handler : IrqHandler) (data : Nat) : InputCall Unit :=
  if MAX_IRQ ≤ irq then Call.halt .fault
  else Call.update (fun s => { s with irqTable := Function.update s.irqTable irq ⟨some handler, data⟩ })

/-- `request_irq`. -/
def requestIrq (irq : Nat) (handler : IrqHandler) (data : Nat) : InputCall Errno := do
  irqSetHandler irq handler data
  Call.update (fun s => { s with gic := s.gic.irqEnable irq })
  return .EOK

/-- `reject_irq`. -/
def rejectIrq (irq : Nat) : InputCall Errno :=
  if MAX_IRQ ≤ irq then Call.halt .fault
  else do
    Call.update (fun s => { s with
      irqTable := Function.update s.irqTable irq { s.irqTable irq with handler := none } })
    return .EOK

/-- `file_mode_is_readable`. -/
def fileModeIsReadable (file : File) : Bool := decide (file.mode &&& FILE_MODE_READ ≠ 0)

/-- The variables of a `file_read` in `std_read_op`. Its local byte lies at `out`. -/
structure Reader where
  file : Nat
  buf : Nat
  bufCount : Nat
  out : Nat
  readCount : Nat
  deriving DecidableEq, Repr

/-- `file_read` up to the loop of `std_read_op`, or its result. -/
def fileReadBegin (file buf count out : Nat) : InputCall (Int ⊕ Reader) := do
  let f ← Input.withFiles (Files.deref Files.file file)
  if fileModeIsReadable f = false then return .inl (-(Errno.code .EBADF : Int))
  if f.ops = STDREAD_OPS then return .inr ⟨file, buf, count, out, 0⟩
  else return .inl (-(ENOSYS : Int))

/-- One turn of the loop of `std_read_op`, or its result. -/
def stdReadTurn (r : Reader) : InputCall (Int ⊕ Reader) := do
  if r.readCount < r.bufCount then
    if ← consoleRead r.out then do
      let c ← Call.read (fun s => s.mm.mem r.out)
      Input.store (wadd r.buf r.readCount) c
      return .inr { r with readCount := r.readCount + 1 }
    else return .inl r.readCount
  else return .inl r.readCount

/-- `file_read` from the result of `std_read_op` on. -/
def fileReadEnd (file : Nat) (ret : Int) : InputCall Int := do
  if 0 < ret then
    Input.withFiles (Call.update (fun s => s.setFile file { s.file file with offset := (s.file file).offset + ret }))
  return ret

end KaworuOS
