import KaworuOS.Strings

/-!
# Reading numbers (`lib/stdlib.c`, `lib/ctype.h`)

A character is unsigned on AArch64. The variable `s` points behind the character that is in `c`.
-/

namespace KaworuOS
open Lib

/-- `isdigit`. -/
def isdigit (c : BitVec 32) : Bool := decide ((c - 48).toNat < 10)

/-- `isalpha`. -/
def isalpha (c : BitVec 32) : Bool := decide (((c ||| 32) - 97).toNat < 26)

/-- `isupper`. -/
def isupper (c : BitVec 32) : Bool := decide ((c - 65).toNat < 26)

/-- `isspace`. -/
def isspace (c : BitVec 32) : Bool := decide (c = 32) || decide ((c - 9).toNat < 5)

/-- `ULONG_MAX`. -/
abbrev ULONG_MAX : Nat := 2 ^ 64 - 1

/-- A character as an `i32`. -/
def castI32 (ch : UInt8) : BitVec 32 := BitVec.ofNat 32 ch.toNat

/-- The cast of an `i64` to `usize`. -/
def castUsize (x : Int) : Nat := (x % wordSize).toNat

/-- `c = *s++`. -/
def nextChar (mem : Mem) (s : Nat) : StringCall (BitVec 32 × Nat) := do
  let ch ← readChar mem s
  return (castI32 ch, wadd s 1)

/-- The first loop of `strtoul`. After `2 ^ 64` turns it is back where it started, as the other one is. -/
def strtoulSpaces (mem : Mem) : Nat → Nat → StringCall (BitVec 32 × Nat)
  | 0, _ => Call.halt .hang
  | turns + 1, s => do
    let (c, s) ← nextChar mem s
    if isspace c then strtoulSpaces mem turns s else return (c, s)

/-- The sign, which is not there if it is neither of the two. -/
def strtoulSign (mem : Mem) (c : BitVec 32) (s : Nat) : StringCall (Bool × BitVec 32 × Nat) := do
  if c = 45 then
    let (c, s) ← nextChar mem s
    return (true, c, s)
  else if c = 43 then
    let (c, s) ← nextChar mem s
    return (false, c, s)
  else return (false, c, s)

/-- The condition for the prefix of hexadecimal numbers. -/
def strtoulHex (mem : Mem) (base : Int) (c : BitVec 32) (s : Nat) : StringCall Bool := do
  if (base = 0 ∨ base = 16) ∧ c = 48 then
    let x ← readChar mem s
    return decide (x = 120 ∨ x = 88)
  else return false

/-- The base, behind the prefix. -/
def strtoulBase (mem : Mem) (base : Int) (c : BitVec 32) (s : Nat) : StringCall (Int × BitVec 32 × Nat) := do
  if ← strtoulHex mem base c s then
    let ch ← readChar mem (wadd s 1)
    return (16, castI32 ch, wadd s 2)
  else return (if base = 0 then if c = 48 then 8 else 10 else base, c, s)

/-- The digit that a character stands for. -/
def strtoulDigit (c : BitVec 32) : Option (BitVec 32) :=
  if isdigit c then some (c - 48)
  else if isalpha c then some (c - if isupper c then 55 else 87)
  else none

/-- What is done with a digit: `acc` and `any`. -/
def strtoulAccumulate (base : Int) (cutoff : Nat) (cutlim : BitVec 32) (acc : Nat) (any : Int) (c : BitVec 32) :
    Nat × Int :=
  if any < 0 then (acc, any)
  else if cutoff < acc ∨ (acc = cutoff ∧ cutlim.toInt < c.toInt) then (ULONG_MAX, -1)
  else (wadd (wmul acc (castUsize base)) (castUsize c.toInt), 1)

/-- The second loop of `strtoul`. -/
def strtoulLoop (mem : Mem) (base : Int) (cutoff : Nat) (cutlim : BitVec 32) :
    Nat → BitVec 32 → Nat → Nat → Int → StringCall (Nat × Int × Nat)
  | 0, _, _, _, _ => Call.halt .hang
  | turns + 1, c, s, acc, any =>
    match strtoulDigit c with
    | none => return (acc, any, s)
    | some digit =>
      if base ≤ digit.toInt then return (acc, any, s)
      else do
        let (acc, any) := strtoulAccumulate base cutoff cutlim acc any digit
        let (c, s) ← nextChar mem s
        strtoulLoop mem base cutoff cutlim turns c s acc any

/-- `strtoul`: what it returns, and what it stores at `endptr` unless that is null. -/
def strtoul (mem : Mem) (nptr : Nat) (base : Int) : StringCall (Nat × Nat) := do
  let (c, s) ← strtoulSpaces mem wordSize nptr
  let (neg, c, s) ← strtoulSign mem c s
  let (base, c, s) ← strtoulBase mem base c s
  let cutoff := ULONG_MAX / castUsize base
  let cutlim := BitVec.ofNat 32 (ULONG_MAX % castUsize base)
  let (acc, any, s) ← strtoulLoop mem base cutoff cutlim wordSize c s 0 0
  let acc := if neg ∧ 0 < any then wsub 0 acc else acc
  return (acc, if any ≠ 0 then wsub s 1 else nptr)

end KaworuOS
