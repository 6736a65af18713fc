import Mathlib.Data.Nat.Bitwise

/-!
# Bit fields of a machine word

A bit field occupies `width` bits of a word, from bit `lo` on. Writing a field truncates the
value to the width and leaves every other bit of the word alone.
-/

namespace KaworuOS.Lib

/-- The place of a bit field in a word. -/
structure BitField where
  lo : Nat
  width : Nat
  deriving DecidableEq, Repr

namespace BitField

/-- Reads a field. -/
def get (f : BitField) (raw : Nat) : Nat := (raw >>> f.lo) % 2 ^ f.width

/-- Writes a field: its old bits are cleared, then the new ones are put in their place. -/
def set (f : BitField) (raw v : Nat) : Nat :=
  (raw ^^^ (f.get raw <<< f.lo)) ||| ((v % 2 ^ f.width) <<< f.lo)

/-- The two fields share no bit. -/
def Disjoint (f g : BitField) : Prop := f.lo + f.width ≤ g.lo ∨ g.lo + g.width ≤ f.lo

instance (f g : BitField) : Decidable (Disjoint f g) :=
  inferInstanceAs (Decidable (f.lo + f.width ≤ g.lo ∨ g.lo + g.width ≤ f.lo))

lemma testBit_get (f : BitField) (raw i : Nat) :
    (f.get raw).testBit i = (decide (i < f.width) && raw.testBit (f.lo + i)) := by
  rw [get, Nat.testBit_mod_two_pow, Nat.testBit_shiftRight]

lemma testBit_set (f : BitField) (raw v i : Nat) :
    (f.set raw v).testBit i =
      if f.lo ≤ i ∧ i < f.lo + f.width then v.testBit (i - f.lo) else raw.testBit i := by
  rw [set, Nat.testBit_or, Nat.testBit_xor, Nat.testBit_shiftLeft, Nat.testBit_shiftLeft, testBit_get,
    Nat.testBit_mod_two_pow]
  by_cases hlo : f.lo ≤ i
  · have hi : f.lo + (i - f.lo) = i := by omega
    by_cases hhi : i < f.lo + f.width
    · have hw : i - f.lo < f.width := by omega
      simp [hlo, hhi, hi, hw]
    · have hw : ¬i - f.lo < f.width := by omega
      simp [hhi, hw]
  · simp [hlo]

@[simp] lemma get_set_same (f : BitField) (raw v : Nat) : f.get (f.set raw v) = v % 2 ^ f.width := by
  apply Nat.eq_of_testBit_eq
  intro i
  rw [testBit_get, testBit_set, Nat.testBit_mod_two_pow]
  by_cases hi : i < f.width
  · have h1 : f.lo + i - f.lo = i := by omega
    simp [hi, h1]
  · simp [hi]

lemma get_set_of_disjoint {f g : BitField} (h : Disjoint f g) (raw v : Nat) :
    f.get (g.set raw v) = f.get raw := by
  apply Nat.eq_of_testBit_eq
  intro i
  rw [testBit_get, testBit_get, testBit_set]
  by_cases hi : i < f.width
  · have hout : ¬(g.lo ≤ f.lo + i ∧ f.lo + i < g.lo + g.width) := by
      unfold Disjoint at h
      omega
    rw [if_neg hout]
  · simp [hi]

lemma get_zero (f : BitField) : f.get 0 = 0 := by simp [get]

lemma set_lt {f : BitField} {n : Nat} (hf : f.lo + f.width ≤ n) {raw : Nat} (hraw : raw < 2 ^ n)
    (v : Nat) : f.set raw v < 2 ^ n := by
  apply Nat.lt_pow_two_of_testBit
  intro i hi
  rw [testBit_set, if_neg (by omega)]
  exact Nat.testBit_lt_two_pow (lt_of_lt_of_le hraw (Nat.pow_le_pow_right (by omega) hi))

end BitField

end KaworuOS.Lib
