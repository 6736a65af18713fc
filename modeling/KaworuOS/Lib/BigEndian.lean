import Mathlib.Data.Nat.Digits.Defs
import Mathlib.Tactic.Ring

/-!
# Big-endian numbers
-/

namespace KaworuOS.Lib

/-- The number with these bytes, the most significant one first. -/
def bigEndian (l : List UInt8) : Nat := Nat.ofDigits 256 (l.reverse.map UInt8.toNat)

lemma bigEndian_append (l l' : List UInt8) :
    bigEndian (l ++ l') = bigEndian l * 256 ^ l'.length + bigEndian l' := by
  unfold bigEndian
  rw [List.reverse_append, List.map_append, Nat.ofDigits_append, List.length_map, List.length_reverse]
  ring

lemma bigEndian_lt (l : List UInt8) : bigEndian l < 256 ^ l.length := by
  have hlt : ∀ x ∈ l.reverse.map UInt8.toNat, x < 256 := by
    intro x hx
    obtain ⟨b, -, rfl⟩ := List.mem_map.mp hx
    exact b.toNat_lt
  have h := Nat.ofDigits_lt_base_pow_length (by decide : 1 < 256) hlt
  rwa [List.length_map, List.length_reverse] at h

/-- Four bytes put together with shifts. -/
lemma bigEndian_four (b₀ b₁ b₂ b₃ : UInt8) :
    (b₀.toNat <<< 24 ||| b₁.toNat <<< 16) ||| b₂.toNat <<< 8 ||| b₃.toNat = bigEndian [b₀, b₁, b₂, b₃] := by
  have h₁ : b₁.toNat < 2 ^ 8 := b₁.toNat_lt
  have h₂ : b₂.toNat < 2 ^ 8 := b₂.toNat_lt
  have h₃ : b₃.toNat < 2 ^ 8 := b₃.toNat_lt
  have e₁ : b₀.toNat <<< 24 ||| b₁.toNat <<< 16 = (b₀.toNat * 2 ^ 8 + b₁.toNat) <<< 16 := by
    rw [← Nat.shiftLeft_add_eq_or_of_lt (i := 24) (by rw [Nat.shiftLeft_eq]; omega), Nat.shiftLeft_eq,
      Nat.shiftLeft_eq, Nat.shiftLeft_eq]
    ring
  have e₂ (a : Nat) : a <<< 16 ||| b₂.toNat <<< 8 = (a * 2 ^ 8 + b₂.toNat) <<< 8 := by
    rw [← Nat.shiftLeft_add_eq_or_of_lt (i := 16) (by rw [Nat.shiftLeft_eq]; omega), Nat.shiftLeft_eq,
      Nat.shiftLeft_eq, Nat.shiftLeft_eq]
    ring
  rw [e₁, e₂, ← Nat.shiftLeft_add_eq_or_of_lt h₃, Nat.shiftLeft_eq]
  simp only [bigEndian, List.reverse_cons, List.reverse_nil, List.nil_append, List.cons_append, List.map_cons,
    List.map_nil, Nat.ofDigits_cons, Nat.ofDigits_nil]
  ring

/-- The bytes of a longer field, split where the first `m` of them end. -/
lemma bigEndian_take_add {l : List UInt8} {m n : Nat} (h : m + n ≤ l.length) :
    bigEndian (l.take (m + n)) = bigEndian (l.take m) * 256 ^ n + bigEndian ((l.drop m).take n) := by
  have hlen : ((l.drop m).take n).length = n := by
    rw [List.length_take, List.length_drop]
    omega
  rw [List.take_add, bigEndian_append, hlen]

end KaworuOS.Lib
