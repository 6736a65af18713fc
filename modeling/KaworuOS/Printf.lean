import KaworuOS.Base
import Mathlib.Data.Int.Notation

/-!
# Formatted output (`kernel/debug/printf.c`)

A string is given by its bytes without the terminator. A write outside of a buffer, a use of `write_count` after the
pointer to it has been moved and an argument of another type are a `fault`. What `%f` prints is a parameter.
-/

namespace KaworuOS

/-- A NUL-terminated string. -/
structure CString where
  bytes : List UInt8
  noNul : 0 ∉ bytes

/-- `"null"`, `"true"` and `"false"`. -/
def nullText : List UInt8 := [110, 117, 108, 108]

def trueText : List UInt8 := [116, 114, 117, 101]

def falseText : List UInt8 := [102, 97, 108, 115, 101]

/-- What `va_arg` may find: an `i32`, an `i64`, a pointer to a string, which may be null, or the bits of an `f64`. -/
inductive VaArg
  | i32 (v : BitVec 32)
  | i64 (v : BitVec 64)
  | str (s : Option CString)
  | f64 (bits : BitVec 64)

/-- The buffer, and `write_count`. -/
structure PrintBuffer where
  bytes : List UInt8
  writeCount : Nat
  deriving DecidableEq

namespace PrintBuffer

/-- `buffer[write_count++] = ch`. -/
def put (b : PrintBuffer) (ch : UInt8) : Except Halt PrintBuffer :=
  if b.writeCount < b.bytes.length then .ok ⟨b.bytes.set b.writeCount ch, b.writeCount + 1⟩ else .error .fault

/-- `buffer[write_count] = ch`. -/
def putAt (b : PrintBuffer) (ch : UInt8) : Except Halt PrintBuffer :=
  if b.writeCount < b.bytes.length then .ok { b with bytes := b.bytes.set b.writeCount ch } else .error .fault

/-- Several bytes, one after the other. -/
def putAll (b : PrintBuffer) : List UInt8 → Except Halt PrintBuffer
  | [] => .ok b
  | ch :: rest => do
    let b ← b.put ch
    putAll b rest

end PrintBuffer

/-- `digits`. -/
def digits : List UInt8 := [48, 49, 50, 51, 52, 53, 54, 55, 56, 57, 65, 66, 67, 68, 69, 70, 0]

/-- The loop of `_print_int`. The bytes that it has written are `buf`, and there is room for `room` more. -/
def printIntLoop (base : Nat) : Nat → Nat → List UInt8 → Except Halt (List UInt8)
  | 0, _, _ => .error .fault
  | room + 1, xx, buf =>
    match digits[xx % base]? with
    | none => .error .fault
    | some digit =>
      if xx / base ≠ 0 then printIntLoop base room (xx / base) (buf ++ [digit])
      else .ok (buf ++ [digit])

/-- `_print_int`: the bytes of `buf` up to `*size`. -/
def _printInt (x : Int) (base : Nat) (sign : Bool) : Except Halt (List UInt8) := do
  let isNegative := sign ∧ x < 0
  let xx := if isNegative then (-x % 2 ^ 64).toNat else (x % 2 ^ 64).toNat
  let buf ← printIntLoop base 32 xx []
  if isNegative then
    if buf.length < 32 then return buf ++ [45] else throw .fault
  else return buf

/-- `print_int`. -/
def printInt (b : PrintBuffer) (x : Int) (base : Nat) (sign : Bool) : Except Halt PrintBuffer := do
  let buf ← _printInt x base sign
  b.putAll buf.reverse

/-- The loop of `print_string`. For a `'\n'` it does not increment `write_count` again but moves the pointer to it. -/
def printStringLoop : List UInt8 → Bool → PrintBuffer → Except Halt PrintBuffer
  | [], _, b => .ok b
  | ch :: s, moved, b => do
    if moved then throw .fault
    else
      let b ← b.put ch
      if ch = 10 then
        let b ← b.putAt 13
        printStringLoop s true b
      else printStringLoop s false b

/-- `print_string`. -/
def printString (b : PrintBuffer) (s : List UInt8) : Except Halt PrintBuffer := printStringLoop s false b

/-- What `__vsnprintf` does with a character that is not in a format specifier. -/
def printLiteral (b : PrintBuffer) (ch : UInt8) : Except Halt PrintBuffer := do
  let b ← b.put ch
  if ch = 10 then b.put 13 else return b

variable (printDouble : BitVec 64 → PrintBuffer → Except Halt PrintBuffer)

/-- What `__vsnprintf` does with the character `ch` of a format specifier, and the arguments that it leaves. -/
def printSpecifier (b : PrintBuffer) (ch : UInt8) (ap : List VaArg) : Except Halt (PrintBuffer × List VaArg) :=
  if ch = 100 then
    match ap with
    | .i32 v :: ap => do return (← printInt b v.toInt 10 true, ap)
    | _ => .error .fault
  else if ch = 120 then
    match ap with
    | .i64 v :: ap => do return (← printInt b v.toInt 16 false, ap)
    | _ => .error .fault
  else if ch = 102 then
    match ap with
    | .f64 bits :: ap => do return (← printDouble bits b, ap)
    | _ => .error .fault
  else if ch = 112 then
    match ap with
    | .i64 v :: ap => do
      let b ← b.put 48
      let b ← b.put 120
      return (← printInt b v.toInt 16 false, ap)
    | _ => .error .fault
  else if ch = 115 then
    match ap with
    | .str s :: ap => do return (← printString b ((s.map CString.bytes).getD nullText), ap)
    | _ => .error .fault
  else if ch = 99 then
    match ap with
    | .i32 v :: ap => do return (← b.put (UInt8.ofNat v.toNat), ap)
    | _ => .error .fault
  else if ch = 98 then
    match ap with
    | .i32 v :: ap => do return (← printString b (if v ≠ 0 then trueText else falseText), ap)
    | _ => .error .fault
  else if ch = 37 then do return (← b.put 37, ap)
  else do
    let b ← b.put 37
    return (← b.put ch, ap)

/-- The loop of `__vsnprintf` over the characters of the format that are left. -/
def vsnprintfLoop (bufSize : Nat) :
    List UInt8 → Bool → List VaArg → PrintBuffer → Except Halt (Nat × PrintBuffer)
  | [], _, _, b => .ok (b.writeCount, b)
  | ch :: fmt, stateFormatSpecifier, ap, b =>
    if bufSize < b.writeCount then .ok (0, b)
    else if !stateFormatSpecifier then
      if ch = 37 then vsnprintfLoop bufSize fmt true ap b
      else do
        let b ← printLiteral b ch
        vsnprintfLoop bufSize fmt false ap b
    else do
      let (b, ap) ← printSpecifier printDouble b ch ap
      vsnprintfLoop bufSize fmt false ap b

/-- `__vsnprintf`: what it returns, and the buffer. -/
def vsnprintf (buffer : List UInt8) (bufSize : Nat) (fmt : CString) (ap : List VaArg) :
    Except Halt (Nat × PrintBuffer) :=
  vsnprintfLoop printDouble bufSize fmt.bytes false ap ⟨buffer, 0⟩

end KaworuOS
