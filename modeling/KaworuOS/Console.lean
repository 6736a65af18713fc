import KaworuOS.Pmm

/-!
# The console (`kernel/io/console.c`, `kernel/io/io.h`, `lib/allocator/arena.c`)

The bytes of messages are memory of the kernel. The events in `io_event_buffer_storage` are stored and
read as whole structures, by the address of the structure. Each call holds the write lock from
beginning to end. A backend remembers what it has been given.
-/

namespace KaworuOS
open Lib

/-- `Arena`. -/
structure Arena where
  pool : Nat
  count : Nat
  capacity : Nat
  deriving DecidableEq, Repr

/-- `arena_init`, which does not touch the count. -/
def arenaInit (arena : Arena) (pool capacity : Nat) : Arena := { arena with pool := pool, capacity := capacity }

/-- `arena_left`. -/
def arenaLeft (arena : Arena) : Nat := wsub arena.capacity arena.count

/-- `arena_alloc`, with the arena as it is afterwards. -/
def arenaAlloc (arena : Arena) (size : Nat) : Except Errno Nat × Arena :=
  if arenaLeft arena < size then (.error .ENOMEM, arena)
  else (.ok (wadd arena.pool arena.count), { arena with count := wadd arena.count size })

/-- `arena_can_fit`. -/
def arenaCanFit (arena : Arena) (size : Nat) : Bool := decide (size ≤ wsub arena.capacity arena.count)

/-- `arena_reset`. -/
def arenaReset (arena : Arena) : Arena := { arena with count := 0 }

/-- `IOColor`. -/
structure IOColor where
  color : UInt8
  bright : Bool
  deriving DecidableEq, Repr

/-- `IO_DEFAULT_COLOR_FG`, which is `IO_COLOR_WHITE_BRIGHT`. -/
def IO_DEFAULT_COLOR_FG : IOColor := ⟨7, true⟩

/-- `IO_DEFAULT_COLOR_BG`, which is `IO_COLOR_BLACK`. -/
def IO_DEFAULT_COLOR_BG : IOColor := ⟨0, false⟩

/-- `IOEvent`. -/
structure IOEvent where
  fg : IOColor
  bg : IOColor
  msg : Nat
  len : Nat
  deriving DecidableEq, Repr

/-- `sizeof(IOEvent)`: two colours of two bytes, padding, a pointer and a length. -/
abbrev IO_EVENT_SIZE : Nat := 24

/-- `IO_EVENT_BUFFER_SIZE`, with the `_IO_EVENT_BUFFER_COUNT` of five. -/
abbrev IO_EVENT_BUFFER_SIZE : Nat := IO_EVENT_SIZE * 5

/-- `IO_EVENT_MSG_BUFFER_SIZE`, with the `_IO_EVENT_MSG_SIZE_ESTIMATE` of a hundred. -/
abbrev IO_EVENT_MSG_BUFFER_SIZE : Nat := 5 * 100

/-- `io_event_default`. -/
def ioEventDefault (msg len : Nat) : IOEvent where
  msg := msg
  len := len
  bg := IO_DEFAULT_COLOR_BG
  fg := IO_DEFAULT_COLOR_FG

/-- What a backend makes of an event: its colours, its length and the bytes of its message. -/
structure Shown where
  fg : IOColor
  bg : IOColor
  len : Nat
  bytes : List UInt8
  deriving DecidableEq, Repr

/-- The event as it is shown with the given memory. -/
def IOEvent.shown (ev : IOEvent) (mem : Mem) : Shown := ⟨ev.fg, ev.bg, ev.len, mem.bytes ev.msg ev.len⟩

/-- `ConsoleBackend`, with the events that its device has been given, in order, and the number of times
it has been flushed. -/
structure ConsoleBackend where
  device : Nat
  received : List Shown
  flushes : Nat

/-- `Console`, with the memory that it reads and writes. `writes` counts the events that `write_event` has
stored, and `settled` is this number at the last flush. -/
structure Console where
  mem : Mem
  eventAt : Nat → IOEvent
  backends : List ConsoleBackend
  ioEvents : Arena
  ioMessages : Arena
  enableBuffering : Bool
  writes : Nat
  settled : Nat

/-- Code that runs on the console. -/
abbrev ConsoleCall := Call Halt Console

/-- `console_init`. The arguments `events` and `messages` are the addresses of
`io_event_buffer_storage` and `io_event_msg_buffer`. -/
def consoleInit (events messages : Nat) (buffering : Bool) : ConsoleCall Errno := do
  Call.update (fun c => { c with
    ioEvents := arenaInit c.ioEvents events IO_EVENT_BUFFER_SIZE
    ioMessages := arenaInit c.ioMessages messages IO_EVENT_MSG_BUFFER_SIZE
    enableBuffering := buffering })
  return .EOK

/-- `write_to_all_backends`. -/
def writeToAllBackends (ev : IOEvent) : ConsoleCall Unit :=
  Call.update (fun c => { c with
    backends := c.backends.map (fun b => { b with received := b.received ++ [ev.shown c.mem] }) })

/-- `finalize_write`. -/
def finalizeWrite : ConsoleCall Unit := do
  let events ← Call.read (fun c => c.ioEvents.pool)
  let count ← Call.read (fun c => c.ioEvents.count / IO_EVENT_SIZE)
  Call.each (fun i => do
    let ev ← Call.read (fun c => c.eventAt (wadd events (wmul i IO_EVENT_SIZE)))
    writeToAllBackends ev) (List.range count)

/-- `can_fit`. -/
def canFit (c : Console) (ev : IOEvent) : Bool :=
  arenaCanFit c.ioMessages ev.len && arenaCanFit c.ioEvents IO_EVENT_SIZE

/-- `reset_buffers`. -/
def resetBuffers : ConsoleCall Unit :=
  Call.update (fun c => { c with ioMessages := arenaReset c.ioMessages, ioEvents := arenaReset c.ioEvents })

/-- `write_event`, with the event as it is afterwards. -/
def writeEvent (ev : IOEvent) : ConsoleCall IOEvent := do
  match ← Call.read (fun c => arenaAlloc c.ioMessages ev.len) with
  | (.error _, _) => Call.halt .panic
  | (.ok msgAlloc, messages) => do
    Call.update (fun c => { c with ioMessages := messages, mem := copyBytes c.mem msgAlloc ev.msg ev.len })
    let ev := { ev with msg := msgAlloc }
    match ← Call.read (fun c => arenaAlloc c.ioEvents IO_EVENT_SIZE) with
    | (.error _, _) => Call.halt .panic
    | (.ok eventAlloc, events) => do
      Call.update (fun c => { c with
        ioEvents := events
        eventAt := Function.update c.eventAt eventAlloc ev
        writes := c.writes + 1 })
      return ev

/-- `_console_flush`. -/
def consoleFlushLocked : ConsoleCall Errno := do
  finalizeWrite
  Call.update (fun c => { c with
    backends := c.backends.map (fun b => { b with flushes := b.flushes + 1 })
    settled := c.writes })
  resetBuffers
  return .EOK

/-- `console_flush`. -/
def consoleFlush : ConsoleCall Errno := do
  let _ ← consoleFlushLocked
  return .EOK

/-- `_console_write`, with the event as it is afterwards. -/
def consoleWriteLocked (e : IOEvent) : ConsoleCall (Errno × IOEvent) := do
  let c ← Call.read id
  if !c.enableBuffering then
    let e ← writeEvent e
    let _ ← consoleFlushLocked
    return (.EOK, e)
  if !canFit c e then
    let _ ← consoleFlushLocked
    let e ← writeEvent e
    return (.EOK, e)
  let e ← writeEvent e
  return (.EOK, e)

/-- The loop of `console_write_multiple`, with the events as they are afterwards. -/
def consoleWriteEach : List IOEvent → ConsoleCall (Errno × List IOEvent)
  | [] => return (.EOK, [])
  | event :: events => do
    let (ret, event) ← consoleWriteLocked event
    if ret ≠ .EOK then return (ret, event :: events)
    let (ret, events) ← consoleWriteEach events
    return (ret, event :: events)

/-- `console_write_multiple`. The caller's events point to the console's copies afterwards. -/
def consoleWriteMultiple (events : List IOEvent) : ConsoleCall (Errno × List IOEvent) := consoleWriteEach events

/-- `console_write`, which has a copy of the caller's event. -/
def consoleWrite (e : IOEvent) : ConsoleCall Errno := do
  let (ret, _) ← consoleWriteLocked e
  return ret

/-- `console_set_buffering`, which leaves what has been buffered where it is. -/
def consoleSetBuffering (buffering : Bool) : ConsoleCall Unit :=
  Call.update (fun c => { c with enableBuffering := buffering })

/-- `console_write_char`. The character lies at the address `p` of the argument. -/
def consoleWriteChar (p : Nat) (ch : UInt8) : ConsoleCall Errno := do
  Call.update (fun c => { c with mem := c.mem.set p ch })
  consoleWrite (ioEventDefault p 1)

end KaworuOS
