import KaworuOS.Proofs.Printf

/-!
# Numerals that can be read back

What `print_int` appends is the canonical numeral of its argument: reading it gives the argument.
-/

namespace KaworuOS.Proofs
open Lib

/-- The value of a digit character. -/
def digitValue (ch : UInt8) : Nat := if ch.toNat < 58 then ch.toNat - 48 else ch.toNat - 55

/-- Reads digits, the most significant one first. -/
def readDigits (base : Nat) (text : List UInt8) : Nat := text.foldl (fun n ch => base * n + digitValue ch) 0

/-- A text without its `'-'`. -/
def unsigned (text : List UInt8) : List UInt8 := if text.head? = some 45 then text.tail else text

/-- Reads a numeral. -/
def readInt (base : Nat) (text : List UInt8) : Int :=
  if text.head? = some 45 then -(readDigits base (unsigned text) : Int) else readDigits base (unsigned text)

/-- The canonical numeral of `x`: a `'-'` exactly if `x` is negative, then digits without a leading zero. -/
structure Canonical (base : Nat) (x : Int) (text : List UInt8) : Prop where
  sign : text.head? = some 45 ↔ x < 0
  nonempty : unsigned text ≠ []
  digit : ∀ ch ∈ unsigned text, ∃ d < base, ch = digitChar d
  noLeadingZero : (unsigned text).head? = some 48 → unsigned text = [48]
  zero : x = 0 → text = [48]
  value : readInt base text = x

/-- `print_int` appends the canonical numeral of `value` if there is room for it, and stays in its scratch buffer of 32
bytes. -/
def AppendsNumeral (b : PrintBuffer) (x : Int) (base : Nat) (sign : Bool) (value : Int) : Prop :=
  ∃ text, Canonical base value text ∧ (∃ buf, _printInt x base sign = .ok buf ∧ buf.length ≤ 32) ∧
    Guarded .fault (b.writeCount + text.length ≤ b.bytes.length) (printInt b x base sign) ∧
    ∀ b', printInt b x base sign = .ok b' → Appends b b' text

variable {base n : Nat}

lemma numeralDigits_lt (hbase : 1 < base) {d : Nat} (h : d ∈ numeralDigits base n) : d < base := by
  unfold numeralDigits at h
  split_ifs at h
  · obtain rfl := List.mem_singleton.mp h
    omega
  · exact Nat.digits_lt_base hbase h

lemma ofDigits_numeralDigits : Nat.ofDigits base (numeralDigits base n) = n := by
  unfold numeralDigits
  split_ifs with hn
  · rw [hn, Nat.ofDigits_singleton]
  · exact Nat.ofDigits_digits base n

lemma digitValue_digitChar {d : Nat} (h : d < 16) : digitValue (digitChar d) = d := by
  interval_cases d <;> rfl

lemma digitChar_ne_minus {d : Nat} (h : d < 16) : digitChar d ≠ 45 := by
  interval_cases d <;> decide

lemma digitChar_eq_zero {d : Nat} (h : d < 16) (hd : digitChar d = 48) : d = 0 := by
  have hvalue := digitValue_digitChar h
  rw [hd] at hvalue
  exact hvalue.symm

/-- Reading the digits of a numeral is the inverse of writing them. -/
lemma readDigits_numeral (hbase : 1 < base) (hbase' : base ≤ 16) : readDigits base (numeral base n) = n := by
  have hfold : ∀ l : List Nat, (∀ d ∈ l, d < base) →
      (l.map digitChar).foldr (fun ch n => base * n + digitValue ch) 0 = Nat.ofDigits base l := by
    intro l hl
    induction l with
    | nil => rfl
    | cons d l ih =>
      obtain ⟨hd, hl⟩ := List.forall_mem_cons.mp hl
      rw [List.map_cons, List.foldr_cons, ih hl, digitValue_digitChar (hd.trans_le hbase'), Nat.ofDigits_cons,
        Nat.add_comm]
  rw [readDigits, numeral, List.map_reverse, List.foldl_reverse, hfold _ fun d hd => numeralDigits_lt hbase hd,
    ofDigits_numeralDigits]

lemma numeral_ne_nil : numeral base n ≠ [] := by
  have hdigits : numeralDigits base n ≠ [] := by
    unfold numeralDigits
    split_ifs with hn
    · exact List.cons_ne_nil 0 []
    · exact Nat.digits_ne_nil_iff_ne_zero.mpr hn
  rw [numeral]
  exact fun h => hdigits (List.reverse_eq_nil_iff.mp (List.map_eq_nil_iff.mp h))

lemma numeral_length : (numeral base n).length = (numeralDigits base n).length := by
  rw [numeral, List.length_map, List.length_reverse]

lemma mem_numeral (hbase : 1 < base) {ch : UInt8} (h : ch ∈ numeral base n) : ∃ d < base, ch = digitChar d := by
  obtain ⟨d, hd, rfl⟩ := List.mem_map.mp h
  exact ⟨d, numeralDigits_lt hbase (List.mem_reverse.mp hd), rfl⟩

lemma numeral_head_ne_minus (hbase : 1 < base) (hbase' : base ≤ 16) : (numeral base n).head? ≠ some 45 := by
  intro h
  obtain ⟨d, hd, hch⟩ := mem_numeral hbase (List.mem_of_mem_head? h)
  exact digitChar_ne_minus (hd.trans_le hbase') hch.symm

lemma unsigned_numeral (hbase : 1 < base) (hbase' : base ≤ 16) : unsigned (numeral base n) = numeral base n :=
  if_neg (numeral_head_ne_minus hbase hbase')

lemma numeral_noLeadingZero (hbase : 1 < base) (hbase' : base ≤ 16) (h : (numeral base n).head? = some 48) :
    numeral base n = [48] := by
  unfold numeral numeralDigits at h ⊢
  split_ifs at h ⊢ with hn
  · rfl
  · have hne : Nat.digits base n ≠ [] := Nat.digits_ne_nil_iff_ne_zero.mpr hn
    rw [List.head?_map, List.head?_reverse, List.getLast?_eq_getLast_of_ne_nil hne] at h
    have hlast := Nat.getLast_digit_ne_zero base hn
    have hlt : (Nat.digits base n).getLast hne < 16 := (Nat.digits_lt_base hbase (List.getLast_mem hne)).trans_le hbase'
    exact absurd (digitChar_eq_zero hlt (Option.some.inj h)) hlast

lemma canonical_numeral (hbase : 1 < base) (hbase' : base ≤ 16) : Canonical base n (numeral base n) := by
  have hsign := @numeral_head_ne_minus base n hbase hbase'
  have hunsigned := @unsigned_numeral base n hbase hbase'
  refine ⟨⟨fun h => absurd h hsign, fun h => by omega⟩, ?_, ?_, ?_, ?_, ?_⟩
  · rw [hunsigned]
    exact numeral_ne_nil
  · rw [hunsigned]
    exact fun ch hch => mem_numeral hbase hch
  · rw [hunsigned]
    exact numeral_noLeadingZero hbase hbase'
  · intro h
    obtain rfl : n = 0 := by omega
    rfl
  · rw [readInt, if_neg hsign, hunsigned, readDigits_numeral hbase hbase']

lemma canonical_intNumeral (hbase : 1 < base) (hbase' : base ≤ 16) (x : Int) :
    Canonical base x (intNumeral base x) := by
  unfold intNumeral
  split_ifs with hneg
  · have hcanonical := @canonical_numeral base x.natAbs hbase hbase'
    have hunsigned : unsigned (45 :: numeral base x.natAbs) = unsigned (numeral base x.natAbs) :=
      (if_pos rfl).trans (unsigned_numeral hbase hbase').symm
    refine ⟨⟨fun _ => hneg, fun _ => rfl⟩, ?_, ?_, ?_, fun h => by omega, ?_⟩
    · rw [hunsigned]
      exact hcanonical.nonempty
    · rw [hunsigned]
      exact hcanonical.digit
    · rw [hunsigned]
      exact hcanonical.noLeadingZero
    · rw [readInt, if_pos List.head?_cons, hunsigned, unsigned_numeral hbase hbase', readDigits_numeral hbase hbase']
      omega
  · have hcanonical := @canonical_numeral base x.natAbs hbase hbase'
    rwa [Int.natAbs_of_nonneg (not_lt.mp hneg)] at hcanonical

/-- A numeral is not empty, so that there is nothing to assume about the buffer. -/
lemma putAll_prints_of_ne_nil {b : PrintBuffer} {l : List UInt8} (h : l ≠ []) :
    Prints b True l.length l (b.putAll l) := by
  cases l with
  | nil => exact absurd rfl h
  | cons ch l =>
    refine ((put_prints b ch).bind fun b' hb' => putAll_prints hb'.le l).congr and_self_iff ?_ rfl
    simp only [List.length_cons, List.length_nil]
    omega

lemma appendsNumeral_of_eq {b : PrintBuffer} {x value : Int} {sign : Bool} {text : List UInt8}
    (hcanonical : Canonical base value text) (hscratch : _printInt x base sign = .ok text.reverse)
    (hlen : text.length ≤ 32) : AppendsNumeral b x base sign value := by
  have hne : text ≠ [] := by
    rintro rfl
    exact hcanonical.nonempty rfl
  have hprints := @putAll_prints_of_ne_nil b text hne
  rw [← printInt_eq_putAll hscratch] at hprints
  exact ⟨text, hcanonical, ⟨_, hscratch, by rwa [List.length_reverse]⟩, hprints.guarded.congr (and_iff_right trivial),
    hprints.appends⟩

/-- The decimal numeral of every `i64`, and the hexadecimal one of its word. -/
theorem print_int_renders (b : PrintBuffer) (v : BitVec 64) :
    AppendsNumeral b v.toInt 10 true v.toInt ∧ AppendsNumeral b v.toInt 16 false v.toNat := by
  have hlt := v.isLt
  have hlo := BitVec.le_toInt v
  have hhi := BitVec.toInt_lt (x := v)
  constructor
  · refine appendsNumeral_of_eq (canonical_intNumeral (by norm_num) (by norm_num) _)
      (_printInt_signed (by omega) (by omega)) ?_
    have hlen : (numeralDigits 10 v.toInt.natAbs).length ≤ 31 := numeralDigits_length_lt (.inl rfl) (by omega)
    unfold intNumeral
    split_ifs
    · rw [List.length_cons, numeral_length]
      omega
    · rw [numeral_length]
      omega
  · refine appendsNumeral_of_eq (canonical_numeral (by norm_num) (by norm_num)) (_printInt_unsigned v) ?_
    have hlen : (numeralDigits 16 v.toNat).length ≤ 31 := numeralDigits_length_lt (.inr rfl) hlt
    rw [numeral_length]
    omega

end KaworuOS.Proofs
