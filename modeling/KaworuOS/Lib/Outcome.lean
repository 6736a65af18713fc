import Mathlib.Init

/-!
# Calls that may stop without returning

A call that reads and writes a state of type `σ` is a value of `Except ε (α × σ)`.
-/

namespace KaworuOS.Lib

variable {ε α β σ : Type}

lemma error_of_map {x : Except ε α} {e : ε} (h : x.map (fun _ => ()) = .error e) : x = .error e := by
  cases x with
  | error e' =>
    obtain rfl := Except.error.inj h
    rfl
  | ok a => cases h

lemma bind_eq_ok {x : Except ε α} {f : α → Except ε β} {b : β} :
    (x >>= f) = .ok b ↔ ∃ a, x = .ok a ∧ f a = .ok b := by
  cases x with
  | error e => simp [bind, Except.bind]
  | ok a => simp [bind, Except.bind]

lemma bind_congr_of_ok {x : Except ε α} {f g : α → Except ε β} (h : ∀ a, x = .ok a → f a = g a) :
    x >>= f = x >>= g := by
  cases x with
  | error e => rfl
  | ok a => exact h a rfl

lemma map_eq_ok {x : Except ε α} {f : α → β} {b : β} : x.map f = .ok b ↔ ∃ a, x = .ok a ∧ f a = b := by
  cases x with
  | error e => simp [Except.map]
  | ok a => simp [Except.map]

lemma ok_bind (a : α) (f : α → Except ε β) : (Except.ok a >>= f) = f a := rfl

/-- What a call returns, without its state. -/
def resultOf (x : Except ε (α × σ)) : Except ε α := x.map Prod.fst

/-- The state after a call, which is `s` when the call does not return. -/
def stateAfter (s : σ) : Except ε (α × σ) → σ
  | .ok (_, s') => s'
  | .error _ => s

lemma eq_ok_of_resultOf (s : σ) {x : Except ε (α × σ)} {a : α} (h : resultOf x = .ok a) :
    x = .ok (a, stateAfter s x) := by
  cases x with
  | error e => cases h
  | ok r =>
    cases h
    rfl

/-- The state that a call gives, which is `s` when the call does not return. -/
def okOr (s : σ) : Except ε σ → σ
  | .ok s' => s'
  | .error _ => s

/-- Two calls that both stop in the same way, or both return with results that `R` relates. -/
inductive Paired {α' : Type} (R : α → α' → Prop) : Except ε α → Except ε α' → Prop
  | error (e : ε) : Paired R (.error e) (.error e)
  | ok {a : α} {a' : α'} (h : R a a') : Paired R (.ok a) (.ok a')

lemma Paired.bind {α' β' : Type} {R : α → α' → Prop} {Q : β → β' → Prop} {x : Except ε α} {x' : Except ε α'}
    {f : α → Except ε β} {f' : α' → Except ε β'} (hx : Paired R x x')
    (hf : ∀ a a', R a a' → Paired Q (f a) (f' a')) : Paired Q (x >>= f) (x' >>= f') := by
  cases hx with
  | error e => exact .error e
  | ok h => exact hf _ _ h

lemma Paired.bind_same {β' : Type} {Q : β → β' → Prop} (x : Except ε α) {f : α → Except ε β}
    {f' : α → Except ε β'} (hf : ∀ a, Paired Q (f a) (f' a)) : Paired Q (x >>= f) (x >>= f') := by
  cases x with
  | error e => exact .error e
  | ok a => exact hf a

/-- Two calls give the same answer and leave states that `R` relates. -/
def SameAnswer (R : σ → σ → Prop) (x y : α × σ) : Prop := x.1 = y.1 ∧ R x.2 y.2

lemma eq_ok_of_isOk (s : σ) {x : Except ε σ} (h : x.isOk = true) : x = .ok (okOr s x) := by
  cases x with
  | error e => cases h
  | ok s' => rfl

end KaworuOS.Lib
