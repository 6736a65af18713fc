import Mathlib.Data.Nat.Digits.Defs
import Mathlib.Data.List.Basic

/-!
# Numerals read up to a greatest number

Digits come with the most significant one first. The number so far times the base plus the next digit is compared with
the greatest number through the quotient and the remainder of that, so that nothing is computed that is too large.
-/

namespace KaworuOS.Lib

/-- The number after `n` and more digits. -/
def horner (base n : Nat) (ds : List Nat) : Nat := ds.foldl (fun n d => n * base + d) n

/-- The next digit, unless the number has become too large. -/
def pushDigit (max base : Nat) (n : Option Nat) (d : Nat) : Option Nat :=
  n.bind fun n => if max / base < n ∨ (n = max / base ∧ max % base < d) then none else some (n * base + d)

variable {max base n d : Nat} {ds : List Nat}

@[simp] lemma horner_nil : horner base n [] = n := rfl

@[simp] lemma horner_cons : horner base n (d :: ds) = horner base (n * base + d) ds := rfl

lemma horner_zero : horner base 0 ds = Nat.ofDigits base ds.reverse := by
  rw [horner, ← List.reverse_reverse ds, List.foldl_reverse, Nat.ofDigits_eq_foldr, List.reverse_reverse]
  congr 1
  funext d n
  rw [Nat.cast_id, Nat.mul_comm, Nat.add_comm]

/-- Digits only make a number larger. -/
lemma le_horner (hbase : 1 ≤ base) : n ≤ horner base n ds := by
  induction ds generalizing n with
  | nil => exact Nat.le_refl n
  | cons d ds ih =>
    rw [horner_cons]
    calc n ≤ n * base := Nat.le_mul_of_pos_right n hbase
      _ ≤ n * base + d := Nat.le_add_right _ _
      _ ≤ _ := ih

/-- The comparison with the quotient and the remainder is the one that is meant. -/
lemma over_iff (hd : d < base) : max / base < n ∨ (n = max / base ∧ max % base < d) ↔ max < n * base + d := by
  have hbase : 0 < base := Nat.zero_lt_of_lt hd
  have hdiv := Nat.div_add_mod max base
  have hmod := Nat.mod_lt max hbase
  generalize max / base = q at *
  generalize max % base = r at *
  subst hdiv
  rcases Nat.lt_trichotomy q n with hlt | rfl | hgt
  · have hle : (q + 1) * base ≤ n * base := Nat.mul_le_mul_right base hlt
    rw [Nat.add_mul, Nat.one_mul] at hle
    rw [Nat.mul_comm base q]
    exact iff_of_true (.inl hlt) (by omega)
  · rw [Nat.mul_comm base q]
    simp
  · have hle : (n + 1) * base ≤ q * base := Nat.mul_le_mul_right base hgt
    rw [Nat.add_mul, Nat.one_mul] at hle
    rw [Nat.mul_comm base q]
    exact iff_of_false (by omega) (by omega)

lemma pushDigit_some (hd : d < base) :
    pushDigit max base (some n) d = if n * base + d ≤ max then some (n * base + d) else none := by
  rw [pushDigit, Option.bind_some, if_congr (over_iff hd) rfl rfl]
  by_cases hle : n * base + d ≤ max
  · rw [if_neg (Nat.not_lt_of_le hle), if_pos hle]
  · rw [if_pos (Nat.lt_of_not_le hle), if_neg hle]

lemma foldl_pushDigit_none : ds.foldl (pushDigit max base) none = none := by
  induction ds with
  | nil => rfl
  | cons d ds ih => exact ih

/-- The digits give the number, or nothing if it is too large. -/
theorem foldl_pushDigit (hn : n ≤ max) (hds : ∀ d ∈ ds, d < base) : ds.foldl (pushDigit max base) (some n) =
    if horner base n ds ≤ max then some (horner base n ds) else none := by
  induction ds generalizing n with
  | nil => rw [List.foldl_nil, horner_nil, if_pos hn]
  | cons d ds ih =>
    obtain ⟨hd, hds⟩ := List.forall_mem_cons.mp hds
    rw [List.foldl_cons, pushDigit_some hd, horner_cons]
    by_cases hle : n * base + d ≤ max
    · rw [if_pos hle]
      exact ih hle hds
    · have hgrow : n * base + d ≤ horner base (n * base + d) ds := le_horner (Nat.one_le_of_lt hd)
      rw [if_neg hle, foldl_pushDigit_none, if_neg (fun h => hle (hgrow.trans h))]

end KaworuOS.Lib
