import Mathlib.Data.List.Basic

/-!
# Partial maps that are built from pieces

A piece gives values to some arguments. It may be added where the map has no values.
-/

namespace KaworuOS.Lib

/-- A part of a map. -/
structure Piece (α β : Type) where
  has : α → Prop
  value : α → β

/-- The map `M'` is `M` with the pieces, each of which has been added where there was nothing. -/
inductive Adds {α β : Type} : (α → Option β) → List (Piece α β) → (α → Option β) → Prop
  | nil {M : α → Option β} : Adds M [] M
  | cons {M M₁ M' : α → Option β} {p : Piece α β} {ps : List (Piece α β)} (free : ∀ a, p.has a → M a = none)
      (added : ∀ a, p.has a → M₁ a = some (p.value a)) (kept : ∀ a, ¬p.has a → M₁ a = M a) (rest : Adds M₁ ps M') :
      Adds M (p :: ps) M'

namespace Adds

variable {α β : Type} {M M' : α → Option β} {p : Piece α β} {ps : List (Piece α β)} {a : α} {b : β}

/-- What the map had stays. -/
lemma keeps (h : Adds M ps M') (ha : M a = some b) : M' a = some b := by
  induction h with
  | nil => exact ha
  | cons free added kept rest ih =>
    refine ih ((kept a fun hp => ?_).trans ha)
    rw [free a hp] at ha
    cases ha

/-- The pieces are in the map. -/
lemma of_mem (h : Adds M ps M') (hp : p ∈ ps) (ha : p.has a) : M' a = some (p.value a) := by
  induction h with
  | nil => cases hp
  | cons free added kept rest ih =>
    rcases List.mem_cons.mp hp with rfl | hp
    · exact rest.keeps (added a ha)
    · exact ih hp

/-- Nothing else is. -/
lemma some_iff (h : Adds M ps M') : M' a = some b ↔ M a = some b ∨ ∃ p ∈ ps, p.has a ∧ b = p.value a := by
  constructor
  · intro ha
    induction h with
    | nil => exact .inl ha
    | @cons M M₁ M' p ps free added kept rest ih =>
      rcases ih ha with hold | ⟨q, hq, hhas, hb⟩
      · by_cases hp : p.has a
        · rw [added a hp] at hold
          exact .inr ⟨p, List.mem_cons_self, hp, (Option.some.inj hold).symm⟩
        · exact .inl ((kept a hp).symm.trans hold)
      · exact .inr ⟨q, List.mem_cons_of_mem _ hq, hhas, hb⟩
  · rintro (ha | ⟨p, hp, hhas, rfl⟩)
    · exact h.keeps ha
    · exact h.of_mem hp hhas

lemma append {M₁ : α → Option β} {qs : List (Piece α β)} (h : Adds M ps M₁) (h' : Adds M₁ qs M') :
    Adds M (ps ++ qs) M' := by
  induction h with
  | nil => exact h'
  | cons free added kept rest ih => exact .cons free added kept (ih h')

end Adds

end KaworuOS.Lib
