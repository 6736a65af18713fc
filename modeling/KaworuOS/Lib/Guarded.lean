import Mathlib.Init

/-!
# Calls with a guard

A guarded call returns when its guard holds and stops with one particular error when it does not. The guard of a
sequence of calls is the conjunction of their guards.
-/

namespace KaworuOS.Lib

variable {ε α β : Type}

/-- The call `x` returns if `P` holds, and stops with `e` otherwise. -/
def Guarded (e : ε) (P : Prop) (x : Except ε α) : Prop := (P ∧ ∃ a, x = .ok a) ∨ (¬P ∧ x = .error e)

namespace Guarded

variable {e : ε} {P Q : Prop} {x : Except ε α}

lemma ok (a : α) : Guarded e True (Except.ok a : Except ε α) := .inl ⟨trivial, a, rfl⟩

lemma congr (h : Guarded e P x) (hPQ : P ↔ Q) : Guarded e Q x := by
  rwa [← propext hPQ]

lemma bind {f : α → Except ε β} (h : Guarded e P x) (hf : ∀ a, x = .ok a → Guarded e Q (f a)) :
    Guarded e (P ∧ Q) (x >>= f) := by
  rcases h with ⟨hP, a, rfl⟩ | ⟨hP, rfl⟩
  · rcases hf a rfl with ⟨hQ, b, hb⟩ | ⟨hQ, hb⟩
    · exact .inl ⟨⟨hP, hQ⟩, b, hb⟩
    · exact .inr ⟨fun h => hQ h.2, hb⟩
  · exact .inr ⟨fun h => hP h.1, rfl⟩

/-- A guarded call that is known to return. -/
lemma holds (h : Guarded e P x) {a : α} (hx : x = .ok a) : P := by
  rcases h with ⟨hP, -⟩ | ⟨-, herr⟩
  · exact hP
  · rw [hx] at herr
    cases herr

lemma returns (h : Guarded e P x) (hP : P) : ∃ a, x = .ok a := by
  rcases h with ⟨-, ha⟩ | ⟨hn, -⟩
  · exact ha
  · exact absurd hP hn

end Guarded

end KaworuOS.Lib
