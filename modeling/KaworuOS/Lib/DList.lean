import Mathlib.Data.List.Nodup
import Mathlib.Data.Finset.Card
import Mathlib.Data.Finset.Range
import KaworuOS.Lib.Chain

/-!
# Doubly linked segments

`DSeg next prev b f l e a` is a segment with members `l`. Its first member is `f` and its last one
`e`; `b` is the node in front of it and `a` the node behind it. For an empty segment the front is
followed directly by `a`. Zero is the null address.
-/

namespace KaworuOS.Lib

/-- The nodes of `l` are linked both ways between `b` and `a`. -/
def DSeg (next prev : Nat → Nat) : Nat → Nat → List Nat → Nat → Nat → Prop
  | b, f, [], e, a => f = a ∧ e = b
  | b, f, x :: l, e, a => f = x ∧ x ≠ 0 ∧ prev x = b ∧ DSeg next prev x (next x) l e a

variable {next prev next' prev' : Nat → Nat} {b f e a x : Nat} {l l₁ l₂ : List Nat}

lemma dseg_append : DSeg next prev b f (l₁ ++ l₂) e a ↔
    ∃ m n, DSeg next prev b f l₁ m n ∧ DSeg next prev m n l₂ e a := by
  induction l₁ generalizing b f with
  | nil =>
    constructor
    · intro h
      exact ⟨b, f, ⟨rfl, rfl⟩, h⟩
    · rintro ⟨m, n, ⟨rfl, rfl⟩, h⟩
      exact h
  | cons y l₁ ih =>
    simp only [List.cons_append, DSeg, ih]
    constructor
    · rintro ⟨hf, hy, hp, m, n, h1, h2⟩
      exact ⟨m, n, ⟨hf, hy, hp, h1⟩, h2⟩
    · rintro ⟨m, n, ⟨hf, hy, hp, h1⟩, h2⟩
      exact ⟨hf, hy, hp, m, n, h1, h2⟩

lemma DSeg.congr (h : DSeg next prev b f l e a) (hn : ∀ y ∈ l, next' y = next y)
    (hp : ∀ y ∈ l, prev' y = prev y) : DSeg next' prev' b f l e a := by
  induction l generalizing b f with
  | nil => exact h
  | cons y l ih =>
    obtain ⟨hf, hy, hb, hr⟩ := h
    refine ⟨hf, hy, ?_, ?_⟩
    · rw [hp y (by simp)]
      exact hb
    · rw [hn y (by simp)]
      exact ih hr (fun z hz => hn z (by simp [hz])) (fun z hz => hp z (by simp [hz]))

lemma DSeg.cons (f' : Nat) (hx : x ≠ 0) (hb : prev x = b) (hf : next x = f')
    (h : DSeg next prev x f' l e a) : DSeg next prev b x (x :: l) e a :=
  ⟨rfl, hx, hb, hf.symm ▸ h⟩

lemma DSeg.ne_zero (h : DSeg next prev b f l e a) : ∀ y ∈ l, y ≠ 0 := by
  induction l generalizing b f with
  | nil => simp
  | cons y l ih =>
    obtain ⟨-, hy, -, hr⟩ := h
    intro z hz
    rcases List.mem_cons.mp hz with rfl | hz
    · exact hy
    · exact ih hr z hz

lemma DSeg.first_mem (h : DSeg next prev b f l e a) (hl : l ≠ []) : f ∈ l := by
  cases l with
  | nil => exact absurd rfl hl
  | cons y l => simp [h.1]

lemma DSeg.last_mem (h : DSeg next prev b f l e a) (hl : l ≠ []) : e ∈ l := by
  induction l generalizing b f with
  | nil => exact absurd rfl hl
  | cons y l ih =>
    obtain ⟨-, -, -, hr⟩ := h
    cases l with
    | nil => simp [hr.2]
    | cons z l => exact List.mem_cons_of_mem _ (ih hr (by simp))

lemma DSeg.first_eq_zero_iff (h : DSeg next prev b f l e 0) : f = 0 ↔ l = [] := by
  cases l with
  | nil => simp [h.1]
  | cons y l =>
    have hy := h.2.1
    simp [h.1, hy]

lemma DSeg.last_eq_zero_iff (h : DSeg next prev 0 f l e a) : e = 0 ↔ l = [] := by
  constructor
  · intro he
    by_contra hl
    exact h.ne_zero e (h.last_mem hl) he
  · rintro rfl
    exact h.2

lemma DSeg.forward (h : DSeg next prev b f l e a) : Seg next f l a := by
  induction l generalizing b f with
  | nil => exact h.1
  | cons y l ih =>
    obtain ⟨hf, hy, -, hr⟩ := h
    exact ⟨hf, hy, ih hr⟩

lemma DSeg.backward (h : DSeg next prev b f l e a) : Seg prev e l.reverse b := by
  induction l generalizing b f with
  | nil => exact h.2
  | cons y l ih =>
    obtain ⟨-, hy, hb, hr⟩ := h
    rw [List.reverse_cons]
    exact seg_append.mpr ⟨y, ih hr, rfl, hy, hb⟩

lemma DSeg.setAfter {a' : Nat} (h : DSeg next prev b f l e a) (hl : l ≠ []) (hnd : l.Nodup)
    (he : next' e = a') (hn : ∀ y ∈ l, y ≠ e → next' y = next y) (hp : ∀ y ∈ l, prev' y = prev y) :
    DSeg next' prev' b f l e a' := by
  induction l generalizing b f with
  | nil => exact absurd rfl hl
  | cons y l ih =>
    obtain ⟨hf, hy, hb, hr⟩ := h
    refine ⟨hf, hy, by rw [hp y (by simp)]; exact hb, ?_⟩
    cases l with
    | nil =>
      obtain ⟨-, rfl⟩ := hr
      exact ⟨he, rfl⟩
    | cons z l =>
      have hye : y ≠ e := by
        rintro rfl
        exact (List.nodup_cons.mp hnd).1 (hr.last_mem (by simp))
      rw [hn y (by simp) hye]
      exact ih hr (by simp) (List.nodup_cons.mp hnd).2 (fun w hw => hn w (by simp [hw]))
        (fun w hw => hp w (by simp [hw]))

lemma DSeg.setBefore {b' : Nat} (h : DSeg next prev b f l e a) (hl : l ≠ []) (hnd : l.Nodup)
    (hf : prev' f = b') (hn : ∀ y ∈ l, next' y = next y) (hp : ∀ y ∈ l, y ≠ f → prev' y = prev y) :
    DSeg next' prev' b' f l e a := by
  cases l with
  | nil => exact absurd rfl hl
  | cons y l =>
    obtain ⟨rfl, hy, hb, hr⟩ := h
    refine ⟨rfl, hy, hf, ?_⟩
    rw [hn f (by simp)]
    refine hr.congr (fun z hz => hn z (by simp [hz])) (fun z hz => hp z (by simp [hz]) ?_)
    rintro rfl
    exact (List.nodup_cons.mp hnd).1 hz

lemma length_lt_of_nodup {n : Nat} (hn : 0 < n) (hnd : l.Nodup) (h0 : ∀ y ∈ l, y ≠ 0)
    (hlt : ∀ y ∈ l, y < n) : l.length < n := by
  have hsub : l.toFinset ⊆ (Finset.range n).erase 0 := by
    intro y hy
    rw [List.mem_toFinset] at hy
    rw [Finset.mem_erase, Finset.mem_range]
    exact ⟨h0 y hy, hlt y hy⟩
  have hcard := Finset.card_le_card hsub
  rw [List.toFinset_card_of_nodup hnd, Finset.card_erase_of_mem (Finset.mem_range.mpr hn),
    Finset.card_range] at hcard
  omega

end KaworuOS.Lib
