import KaworuOS.Pmm

/-!
# Memory and strings (`lib/string.c`)

`memmove`, `strlen` and the search for a character. Memory is indexed by addresses, and pointers are counted modulo
`2 ^ 64`. The string functions remember what they read.
-/

namespace KaworuOS
open Lib

/-- The loop of `memmove` from the last byte on. -/
def copyBytesBack (mem : Mem) (lastd lasts : Nat) : Nat → Mem
  | 0 => mem
  | len + 1 => copyBytesBack (mem.set lastd (mem lasts)) (wsub lastd 1) (wsub lasts 1) len

/-- `memmove`: what it returns, and the memory. Its other loop is that of `memcpy`. -/
def memmove (dest src len : Nat) (mem : Mem) : Nat × Mem :=
  if dest < src then (dest, copyBytes mem dest src len)
  else (dest, copyBytesBack mem (wadd dest (wsub len 1)) (wadd src (wsub len 1)) len)

/-- Code that reads strings, with the addresses that it has read so far, the newest first. -/
abbrev StringCall := Call Halt (List Nat)

def readChar (mem : Mem) (p : Nat) : StringCall UInt8 := fun reads => (.ok (mem p), p :: reads)

/-- The cast of an `i32` to `u8`. -/
def castU8 (c : BitVec 32) : UInt8 := UInt8.ofNat c.toNat

/-- The loop of `strlen`. After `2 ^ 64` turns it is back where it started. -/
def strlenLoop (mem : Mem) : Nat → Nat → StringCall Nat
  | 0, _ => Call.halt .hang
  | turns + 1, p => do
    let ch ← readChar mem p
    if ch ≠ 0 then strlenLoop mem turns (wadd p 1) else return wadd p 1

/-- `strlen`. -/
def strlen (mem : Mem) (s : Nat) : StringCall Nat := do
  let p ← strlenLoop mem wordSize s
  return wsub (wsub p s) 1

/-- The loop of `strchrnul`, which looks for the terminator at the beginning of the string in every turn. -/
def strchrnulLoop (mem : Mem) (s : Nat) (c : UInt8) : Nat → Nat → StringCall Nat
  | 0, _ => Call.halt .hang
  | turns + 1, p => do
    let first ← readChar mem s
    if first = 0 then return p
    let ch ← readChar mem p
    if ch ≠ c then strchrnulLoop mem s c turns (wadd p 1) else return p

/-- `strchrnul`. -/
def strchrnul (mem : Mem) (s : Nat) (c : BitVec 32) : StringCall Nat := do
  if castU8 c = 0 then
    let len ← strlen mem s
    return wadd s len
  strchrnulLoop mem s (castU8 c) wordSize s

/-- `strchr`. -/
def strchr (mem : Mem) (s : Nat) (c : BitVec 32) : StringCall Nat := do
  let r ← strchrnul mem s c
  let ch ← readChar mem r
  return if ch = castU8 c then r else 0

end KaworuOS
