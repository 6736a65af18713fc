import KaworuOS.Console
import KaworuOS.Printf
import Mathlib.Data.List.TakeWhile

/-!
# Log lines (`kernel/debug/log.c`, `kernel/debug/log.h`)

A line of the log is printed into buffers on the stack, piece by piece, and the pieces are written to the console as
events and flushed. The buffers are given by their addresses, which are the same for every line of a call.
-/

namespace KaworuOS
open Lib

/-- A string literal. -/
def CString.ofString (s : String) : CString where
  bytes := (s.toList.map fun c => UInt8.ofNat c.toNat).takeWhile fun b => b ≠ 0
  noNul h := by simpa using List.mem_takeWhile_imp h

/-- `LEVEL_DEBUG`. -/
abbrev LEVEL_DEBUG : Nat := 1

/-- `LEVEL_WARN`. -/
abbrev LEVEL_WARN : Nat := 3

/-- `IO_COLOR_WHITE_BRIGHT`. -/
def IO_COLOR_WHITE_BRIGHT : IOColor := ⟨7, true⟩

/-- `IO_COLOR_YELLOW_BRIGHT`. -/
def IO_COLOR_YELLOW_BRIGHT : IOColor := ⟨3, true⟩

/-- `individual_buffer_sizes`. -/
abbrev INDIVIDUAL_BUFFER_SIZES : Nat := 1 <<< 10

/-- `level_buffer_size`. -/
abbrev LEVEL_BUFFER_SIZE : Nat := 20

/-- The log: the level that the kernel is compiled with, `dynamic_log_level`, the addresses of `level_buffer` and of
`buffers`, and what prints `%f`. -/
structure Logger where
  LEVEL : Nat
  dynamicLogLevel : Nat
  levelBuffer : Nat
  buffers : Nat
  printDouble : BitVec 64 → PrintBuffer → Except Halt PrintBuffer

/-- An event with what `vsnprintf` has printed to a buffer of `size` bytes. -/
def logEvent (log : Logger) (fg bg : IOColor) (buffer size : Nat) (fmt : CString) (args : List VaArg) :
    ConsoleCall IOEvent := do
  let bytes ← Call.read (fun c => c.mem.bytes buffer size)
  let (wrote, printed) ← Call.lift (vsnprintf log.printDouble bytes size fmt args)
  Call.update (fun c => { c with mem := c.mem.write buffer printed.bytes })
  return { fg := fg, bg := bg, msg := buffer, len := wrote }

/-- A line: the arguments of a call of `__log` or of `__user_log`. -/
inductive LogLine
  | log (levelStr : CString) (level : Nat) (color : IOColor) (file func : CString) (line : Nat) (fmt : CString)
    (args : List VaArg)
  | userLog (levelStr : CString) (color : IOColor) (fmt : CString) (args : List VaArg)

/-- `__log`. -/
def _log (log : Logger) (levelStr : CString) (level : Nat) (color : IOColor) (file func : CString) (line : Nat)
    (fmt : CString) (args : List VaArg) : ConsoleCall Unit := do
  if level < log.dynamicLogLevel then return ()
  let event₀ ← logEvent log IO_DEFAULT_COLOR_BG color log.levelBuffer LEVEL_BUFFER_SIZE (.ofString "[ %s ]")
    [.str levelStr]
  let event₁ ← logEvent log color IO_DEFAULT_COLOR_BG log.buffers INDIVIDUAL_BUFFER_SIZES (.ofString " %s:%s:%d: ")
    [.str file, .str func, .i32 line]
  let event₂ ← logEvent log color IO_DEFAULT_COLOR_BG
    (log.buffers + INDIVIDUAL_BUFFER_SIZES) INDIVIDUAL_BUFFER_SIZES fmt
    args
  let _ ← consoleWriteMultiple [event₀, event₁, event₂]
  let _ ← consoleFlush
  return ()

/-- `__user_log`. -/
def _userLog (log : Logger) (levelStr : CString) (color : IOColor) (fmt : CString) (args : List VaArg) :
    ConsoleCall Unit := do
  let event₀ ← logEvent log IO_DEFAULT_COLOR_BG color log.levelBuffer LEVEL_BUFFER_SIZE (.ofString "[ %s ]")
    [.str levelStr]
  let event₁ ← logEvent log IO_DEFAULT_COLOR_FG IO_DEFAULT_COLOR_BG log.buffers INDIVIDUAL_BUFFER_SIZES fmt args
  let _ ← consoleWriteMultiple [event₀, event₁]
  let _ ← consoleFlush
  return ()

/-- Prints a line. -/
def LogLine.call (log : Logger) : LogLine → ConsoleCall Unit
  | .log levelStr level color file func line fmt args => _log log levelStr level color file func line fmt args
  | .userLog levelStr color fmt args => _userLog log levelStr color fmt args

/-- `DEBUG`, at a place of the sources. -/
def DEBUG (file func : String) (line : Nat) (fmt : String) (args : List VaArg) : LogLine :=
  .log (.ofString "DEBUG") LEVEL_DEBUG IO_COLOR_WHITE_BRIGHT (.ofString file) (.ofString func) line
    (.ofString (fmt ++ "\n")) args

/-- `WARN`. -/
def WARN (log : Logger) (file func : String) (line : Nat) (fmt : String) (args : List VaArg) : LogLine :=
  if LEVEL_WARN < log.LEVEL then
    .userLog (.ofString "WARN") IO_COLOR_YELLOW_BRIGHT (.ofString (" " ++ fmt ++ "\n")) args
  else
    .log (.ofString "WARN") LEVEL_WARN IO_COLOR_YELLOW_BRIGHT (.ofString file) (.ofString func) line
      (.ofString (fmt ++ "\n")) args

end KaworuOS
