import KaworuOS.Lib.Guarded
import KaworuOS.Lib.Outcome
import KaworuOS.Printf
import Mathlib.Data.Nat.Digits.Lemmas

/-!
# Numbers in formatted output

`_print_int` writes the digits from the last one on, and `print_int` copies them in the other order. The scratch
buffer has room for the longest number in base 10 and its sign.
-/

namespace KaworuOS.Proofs
open Lib

/-- The character of a digit. -/
def digitChar (d : Nat) : UInt8 := UInt8.ofNat (if d < 10 then 48 + d else 55 + d)

/-- The digits of a number, least significant first; zero has one digit. -/
def numeralDigits (base n : Nat) : List Nat := if n = 0 then [0] else Nat.digits base n

/-- The canonical numeral. -/
def numeral (base n : Nat) : List UInt8 := (numeralDigits base n).reverse.map digitChar

/-- The canonical numeral of an integer. -/
def intNumeral (base : Nat) (x : Int) : List UInt8 :=
  if x < 0 then 45 :: numeral base x.natAbs else numeral base x.natAbs

lemma digits_getElem {d : Nat} (h : d < 16) : digits[d]? = some (digitChar d) := by
  interval_cases d <;> rfl

lemma numeralDigits_of_lt {base n : Nat} (h : n < base) : numeralDigits base n = [n] := by
  unfold numeralDigits
  split_ifs with hn
  · rw [hn]
  · exact Nat.digits_of_lt base n hn h

lemma numeralDigits_of_le {base n : Nat} (hbase : 1 < base) (h : base ≤ n) :
    numeralDigits base n = n % base :: numeralDigits base (n / base) := by
  have hpos : n / base ≠ 0 := Nat.ne_of_gt (Nat.div_pos h (by omega))
  rw [numeralDigits, if_neg (by omega), numeralDigits, if_neg hpos, Nat.digits_def' hbase (by omega)]

lemma numeralDigits_length_le {base n k : Nat} (hbase : 1 < base) (h : n < base ^ (k + 1)) :
    (numeralDigits base n).length ≤ k + 1 := by
  unfold numeralDigits
  split_ifs with hn
  · simp
  · exact (Nat.digits_length_le_iff hbase n).mpr h

/-- The loop writes all digits if there is room for them. -/
lemma printIntLoop_eq {base room n : Nat} {buf : List UInt8} (hbase : 1 < base) (hbase' : base ≤ 16)
    (hroom : (numeralDigits base n).length ≤ room) :
    printIntLoop base room n buf = .ok (buf ++ (numeralDigits base n).map digitChar) := by
  induction room generalizing n buf with
  | zero =>
    have hpos : 0 < (numeralDigits base n).length := by
      rcases Nat.lt_or_ge n base with h | h
      · rw [numeralDigits_of_lt h]
        exact Nat.one_pos
      · rw [numeralDigits_of_le hbase h]
        exact Nat.succ_pos _
    omega
  | succ room ih =>
    have hdigit : digits[n % base]? = some (digitChar (n % base)) :=
      digits_getElem ((Nat.mod_lt n (by omega)).trans_le hbase')
    rcases Nat.lt_or_ge n base with h | h
    · have hlast : ¬n / base ≠ 0 := not_not.mpr (Nat.div_eq_of_lt h)
      rw [Nat.mod_eq_of_lt h] at hdigit
      simp only [printIntLoop, Nat.mod_eq_of_lt h, hdigit, if_neg hlast, numeralDigits_of_lt h, List.map_cons,
        List.map_nil]
    · have hmore : n / base ≠ 0 := Nat.ne_of_gt (Nat.div_pos h (by omega))
      rw [numeralDigits_of_le hbase h, List.length_cons] at hroom
      simp only [printIntLoop, hdigit, if_pos hmore]
      rw [ih (by omega), numeralDigits_of_le hbase h, List.map_cons, List.append_assoc, List.singleton_append]

/-- A word has at most 31 digits in the bases that are used. -/
lemma numeralDigits_length_lt {base n : Nat} (hbase : base = 10 ∨ base = 16) (h : n < 2 ^ 64) :
    (numeralDigits base n).length ≤ 31 := by
  rcases hbase with rfl | rfl
  · exact numeralDigits_length_le (by norm_num) (h.trans (by norm_num))
  · exact numeralDigits_length_le (by norm_num) (h.trans (by norm_num))

/-- With a sign, `_print_int` writes the canonical numeral of its argument backwards. -/
lemma _printInt_signed {x : Int} (h : -2 ^ 63 ≤ x) (h' : x < 2 ^ 63) :
    _printInt x 10 true = .ok (intNumeral 10 x).reverse := by
  unfold _printInt intNumeral
  by_cases hneg : x < 0
  · have hxx : (-x % 2 ^ 64).toNat = x.natAbs := by omega
    have hlen : (numeralDigits 10 x.natAbs).length ≤ 31 := numeralDigits_length_lt (.inl rfl) (by omega)
    simp only [hneg, true_and, if_true, hxx]
    rw [printIntLoop_eq (by norm_num) (by norm_num) (by omega), ok_bind, if_pos (by simp; omega)]
    simp [numeral]
    rfl
  · have hxx : (x % 2 ^ 64).toNat = x.natAbs := by omega
    have hlen : (numeralDigits 10 x.natAbs).length ≤ 31 := numeralDigits_length_lt (.inl rfl) (by omega)
    simp only [hneg, and_false, if_false, hxx]
    rw [printIntLoop_eq (by norm_num) (by norm_num) (by omega), ok_bind]
    simp [numeral]
    rfl

/-- Without one it writes the numeral of the word. -/
lemma _printInt_unsigned (v : BitVec 64) : _printInt v.toInt 16 false = .ok (numeral 16 v.toNat).reverse := by
  have hlt := v.isLt
  have hlen : (numeralDigits 16 v.toNat).length ≤ 31 := numeralDigits_length_lt (.inr rfl) hlt
  have hword : (v.toInt % 2 ^ 64).toNat = v.toNat := by
    rw [BitVec.toInt_eq_toNat_cond]
    split_ifs <;> omega
  unfold _printInt
  simp only [Bool.false_eq_true, false_and, if_false, hword]
  rw [printIntLoop_eq (by norm_num) (by norm_num) (by omega), ok_bind]
  simp [numeral]
  rfl

/-- The digits are copied in the other order. -/
lemma printInt_eq_putAll {b : PrintBuffer} {x : Int} {base : Nat} {sign : Bool} {text : List UInt8}
    (h : _printInt x base sign = .ok text.reverse) : printInt b x base sign = b.putAll text := by
  rw [printInt, h, ok_bind, List.reverse_reverse]

end KaworuOS.Proofs
