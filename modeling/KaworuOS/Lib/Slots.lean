import Mathlib.Data.List.Basic

/-!
# Tables of slots

A table is a list, and one slot of it is written.
-/

namespace KaworuOS.Lib

variable {α : Type} {l : List α} {slot i : Nat} {x a : α}

/-- An entry of a table after one slot has been written. -/
lemma getElem?_set_cases (h : (l.set slot x)[i]? = some a) : (i = slot ∧ a = x) ∨ (i ≠ slot ∧ l[i]? = some a) := by
  rw [List.getElem?_set] at h
  by_cases hi : slot = i
  · rw [if_pos hi] at h
    split at h
    · exact .inl ⟨hi.symm, (Option.some.inj h).symm⟩
    · cases h
  · rw [if_neg hi] at h
    exact .inr ⟨fun h' => hi h'.symm, h⟩

lemma mem_set_cases (h : a ∈ l.set slot x) : a = x ∨ ∃ i, i ≠ slot ∧ l[i]? = some a := by
  obtain ⟨i, hi⟩ := List.mem_iff_getElem?.mp h
  rcases getElem?_set_cases hi with ⟨-, rfl⟩ | ⟨hne, hi⟩
  · exact .inl rfl
  · exact .inr ⟨i, hne, hi⟩

end KaworuOS.Lib
