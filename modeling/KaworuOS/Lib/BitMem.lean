import KaworuOS.Lib.ByteMem
import Mathlib.Data.Nat.Bitwise

/-!
# Bits of a byte-addressed memory

Bit `p` of a memory is bit `p % 8` of its byte `p / 8`, counted from the least significant.
-/

namespace KaworuOS.Lib

/-- Whether bit `i` of a byte is set. -/
def getBit (b : UInt8) (i : Nat) : Bool := b.toNat >>> i &&& 1 != 0

/-- The byte with bit `i` set. -/
def setBit (b : UInt8) (i : Nat) : UInt8 := UInt8.ofNat (b.toNat ||| 1 <<< i)

/-- The byte with bit `i` cleared. -/
def clearBit (b : UInt8) (i : Nat) : UInt8 := UInt8.ofNat (b.toNat &&& (255 ^^^ 1 <<< i))

lemma getBit_eq_testBit (b : UInt8) (i : Nat) : getBit b i = b.toNat.testBit i := by
  simp [getBit, Nat.testBit, Nat.and_comm]

lemma testBit_one_shiftLeft (i j : Nat) : (1 <<< i).testBit j = decide (i = j) := by
  rw [Nat.one_shiftLeft, Nat.testBit_two_pow]

lemma getBit_setBit (b : UInt8) (i : Nat) {j : Nat} (hj : j < 8) :
    getBit (setBit b i) j = (decide (i = j) || getBit b j) := by
  rw [getBit_eq_testBit, getBit_eq_testBit, setBit, UInt8.toNat_ofNat', Nat.testBit_mod_two_pow,
    Nat.testBit_or, testBit_one_shiftLeft]
  simp [hj, Bool.or_comm]

lemma getBit_clearBit (b : UInt8) (i : Nat) {j : Nat} (hj : j < 8) :
    getBit (clearBit b i) j = (!decide (i = j) && getBit b j) := by
  have hones : (255 : Nat).testBit j = true := by
    rw [show (255 : Nat) = 2 ^ 8 - 1 by decide, Nat.testBit_two_pow_sub_one]
    simpa using hj
  rw [getBit_eq_testBit, getBit_eq_testBit, clearBit, UInt8.toNat_ofNat', Nat.testBit_mod_two_pow,
    Nat.testBit_and, Nat.testBit_xor, testBit_one_shiftLeft, hones]
  simp [hj, Bool.and_comm]

namespace Mem

/-- Bit `p` of the memory. -/
def bit (m : Mem) (p : Nat) : Bool := getBit (m (p / 8)) (p % 8)

/-- Sets bit `p`. -/
def setBit (m : Mem) (p : Nat) : Mem := m.set (p / 8) (Lib.setBit (m (p / 8)) (p % 8))

/-- Clears bit `p`. -/
def clearBit (m : Mem) (p : Nat) : Mem := m.set (p / 8) (Lib.clearBit (m (p / 8)) (p % 8))

lemma bit_setBit (m : Mem) (p q : Nat) : (m.setBit p).bit q = (decide (p = q) || m.bit q) := by
  unfold bit setBit
  by_cases hbyte : q / 8 = p / 8
  · rw [hbyte, set_same, getBit_setBit _ _ (Nat.mod_lt q (by decide))]
    have hiff : p % 8 = q % 8 ↔ p = q := by omega
    simp [hiff]
  · rw [set_other m _ hbyte]
    have hne : p ≠ q := by rintro rfl; exact hbyte rfl
    simp [hne]

lemma bit_clearBit (m : Mem) (p q : Nat) : (m.clearBit p).bit q = (!decide (p = q) && m.bit q) := by
  unfold bit clearBit
  by_cases hbyte : q / 8 = p / 8
  · rw [hbyte, set_same, getBit_clearBit _ _ (Nat.mod_lt q (by decide))]
    have hiff : p % 8 = q % 8 ↔ p = q := by omega
    simp [hiff]
  · rw [set_other m _ hbyte]
    have hne : p ≠ q := by rintro rfl; exact hbyte rfl
    simp [hne]

lemma eq_of_bit {m m' : Mem} (h : ∀ p, m'.bit p = m.bit p) : m' = m := by
  funext a
  rw [← UInt8.toNat_inj]
  apply Nat.eq_of_testBit_eq
  intro i
  by_cases hi : i < 8
  · have hbit := h (8 * a + i)
    have h1 : (8 * a + i) / 8 = a := by omega
    have h2 : (8 * a + i) % 8 = i := by omega
    rwa [bit, bit, h1, h2, getBit_eq_testBit, getBit_eq_testBit] at hbit
  · have hlt : ∀ b : UInt8, b.toNat.testBit i = false := fun b =>
      Nat.testBit_lt_two_pow (lt_of_lt_of_le b.toNat_lt (Nat.pow_le_pow_right (by omega) (by omega)))
    rw [hlt, hlt]

lemma bit_fill_zero (m : Mem) {n p : Nat} (hp : p / 8 < n) : (m.fill 0 n 0).bit p = false := by
  have hbyte : m.fill 0 n 0 (p / 8) = 0 := by simp [fill, hp]
  rw [bit, hbyte]
  simp [getBit]

lemma bit_foldl_setBit (m : Mem) (l : List Nat) (q : Nat) :
    (l.foldl setBit m).bit q = (decide (q ∈ l) || m.bit q) := by
  induction l generalizing m with
  | nil => simp
  | cons p l ih =>
    rw [List.foldl_cons, ih, bit_setBit]
    by_cases hpq : p = q
    · simp [hpq]
    · simp [hpq, Ne.symm hpq]

lemma bit_foldl_clearBit (m : Mem) (l : List Nat) (q : Nat) :
    (l.foldl clearBit m).bit q = (!decide (q ∈ l) && m.bit q) := by
  induction l generalizing m with
  | nil => simp
  | cons p l ih =>
    rw [List.foldl_cons, ih, bit_clearBit]
    by_cases hpq : p = q
    · simp [hpq]
    · simp [hpq, Ne.symm hpq]

end Mem

end KaworuOS.Lib
