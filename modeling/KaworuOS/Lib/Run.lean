import Mathlib.Logic.Relation

/-!
# Runs from lists of steps

A machine takes the step `op` in the state `s` when `step s op` is `some` outcome. A run on a given
list of steps is computed, and lies in a relation when each of its steps does.
-/

namespace KaworuOS.Lib

variable {σ ι ε : Type}

/-- The state after the steps of a list, or `none` when one of them fails. -/
def runSteps (step : σ → ι → Option (Except ε σ)) (s : σ) : List ι → Option σ
  | [] => some s
  | op :: ops =>
    match step s op with
    | some (.ok s') => runSteps step s' ops
    | _ => none

/-- The state after the steps of a list, which is `s` when one of them fails. -/
def afterSteps (step : σ → ι → Option (Except ε σ)) (s : σ) (ops : List ι) : σ := (runSteps step s ops).getD s

/-- All steps of the list succeed and pass `check`. -/
def checkSteps (step : σ → ι → Option (Except ε σ)) (check : σ → ι → Bool) (s : σ) : List ι → Bool
  | [] => true
  | op :: ops =>
    match step s op with
    | some (.ok s') => check s op && checkSteps step check s' ops
    | _ => false

variable {step : σ → ι → Option (Except ε σ)} {check : σ → ι → Bool} {s s' : σ} {op : ι} {ops : List ι}

lemma runSteps_afterSteps (h : (runSteps step s ops).isSome = true) :
    runSteps step s ops = some (afterSteps step s ops) := by
  obtain ⟨s', hs'⟩ := Option.isSome_iff_exists.mp h
  rw [afterSteps, hs']
  rfl

lemma step_afterSteps (h : (runSteps step s [op]).isSome = true) : step s op = some (.ok (afterSteps step s [op])) := by
  have hops := runSteps_afterSteps h
  unfold runSteps at hops
  split at hops
  case h_1 s₁ hrun => rw [hrun, Option.some.inj hops]
  case h_2 => cases hops

lemma runSteps_cons (hall : checkSteps step check s (op :: ops) = true) (h : runSteps step s (op :: ops) = some s') :
    ∃ s₁, step s op = some (.ok s₁) ∧ check s op = true ∧ checkSteps step check s₁ ops = true ∧
      runSteps step s₁ ops = some s' := by
  unfold runSteps at h
  split at h
  case h_1 s₁ hrun =>
    simp only [checkSteps, hrun, Bool.and_eq_true] at hall
    exact ⟨s₁, hrun, hall.1, hall.2, h⟩
  case h_2 => cases h

/-- A run of checked steps is a run of the relation that the checked steps are in, as long as what the
steps rely on is kept. -/
lemma runSteps_rel_of_inv {R : σ → σ → Prop} {I : σ → Prop}
    (hR : ∀ {s op s'}, I s → check s op = true → step s op = some (.ok s') → R s s' ∧ I s') (hs : I s)
    (hall : checkSteps step check s ops = true) (h : runSteps step s ops = some s') : Relation.ReflTransGen R s s' := by
  induction ops generalizing s with
  | nil =>
    obtain rfl := Option.some.inj h
    exact .refl
  | cons op ops ih =>
    obtain ⟨s₁, hrun, hop, hall, hrest⟩ := runSteps_cons hall h
    obtain ⟨hstep, hs₁⟩ := hR hs hop hrun
    exact .head hstep (ih hs₁ hall hrest)

lemma runSteps_rel {R : σ → σ → Prop} (hR : ∀ {s op s'}, check s op = true → step s op = some (.ok s') → R s s')
    (hall : checkSteps step check s ops = true) (h : runSteps step s ops = some s') : Relation.ReflTransGen R s s' :=
  runSteps_rel_of_inv (I := fun _ => True) (fun _ hop hrun => ⟨hR hop hrun, trivial⟩) trivial hall h

/-- What every step keeps that leaves a quantity alone is kept by a run that leaves it alone, if no step
lowers the quantity. -/
lemma run_inv_of_const {R : σ → σ → Prop} {I : σ → Prop} {m : σ → Nat} (hle : ∀ {x y}, R x y → m x ≤ m y)
    (hstep : ∀ {x y}, I x → R x y → m y = m x → I y) (hs : I s) (hrun : Relation.ReflTransGen R s s')
    (hm : m s' = m s) : I s' := by
  have hmono : ∀ {y}, Relation.ReflTransGen R s y → m s ≤ m y := by
    intro y hy
    induction hy with
    | refl => exact Nat.le_refl _
    | tail _ hstep ih => exact Nat.le_trans ih (hle hstep)
  induction hrun with
  | refl => exact hs
  | @tail y z hrun hlast ih =>
    have h1 := hmono hrun
    have h2 := hle hlast
    exact hstep (ih (by omega)) hlast (by omega)

end KaworuOS.Lib
