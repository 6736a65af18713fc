import Mathlib.Init

/-!
# Calls that may stop without returning and leave a state behind

A call reads and writes a state of type `σ` and either returns a value or stops with a reason. The
state is there in both cases, so that one can still ask what a call did before it stopped.
-/

namespace KaworuOS.Lib

/-- A call on states of type `σ` that returns an `α` or stops with an `ε`. -/
def Call (ε σ α : Type) : Type := σ → Except ε α × σ

namespace Call

variable {ε σ α β : Type}

/-- What happens after a call has returned or stopped. -/
def next (f : α → Call ε σ β) : Except ε α × σ → Except ε β × σ
  | (.ok a, s) => f a s
  | (.error e, s) => (.error e, s)

instance : Monad (Call ε σ) where
  pure a := fun s => (.ok a, s)
  bind x f := fun s => next f (x s)

/-- Stops. -/
def halt (e : ε) : Call ε σ α := fun s => (.error e, s)

/-- Reads from the state. -/
def read (f : σ → α) : Call ε σ α := fun s => (.ok (f s), s)

/-- Changes the state. -/
def update (f : σ → σ) : Call ε σ Unit := fun s => (.ok (), f s)

/-- The outcome of a pure computation that may stop. -/
def lift (x : Except ε α) : Call ε σ α := fun s => (x, s)

/-- Does `f` for each element of a list, in order. -/
def each (f : α → Call ε σ Unit) : List α → Call ε σ Unit
  | [] => pure ()
  | a :: l => do
    f a
    each f l

lemma bind_ok {x : Call ε σ α} {f : α → Call ε σ β} {s s' : σ} {a : α} (h : x s = (.ok a, s')) :
    (x >>= f) s = f a s' := by
  show next f (x s) = f a s'
  rw [h]
  rfl

lemma bind_error {x : Call ε σ α} {f : α → Call ε σ β} {s s' : σ} {e : ε}
    (h : x s = (.error e, s')) : (x >>= f) s = (.error e, s') := by
  show next f (x s) = _
  rw [h]
  rfl

lemma ok_of_bind {x : Call ε σ α} {f : α → Call ε σ β} {s s' : σ} {b : β} (h : (x >>= f) s = (.ok b, s')) :
    ∃ a s₁, x s = (.ok a, s₁) ∧ f a s₁ = (.ok b, s') := by
  rcases hx : x s with ⟨r, s₁⟩
  cases r with
  | error e =>
    rw [bind_error hx] at h
    cases h
  | ok a =>
    rw [bind_ok hx] at h
    exact ⟨a, s₁, rfl, h⟩

/-- What only looks at the result of a call, and returns, returns when the call does and in the same state. -/
lemma bind_returns {x : Call ε σ α} {f : α → Call ε σ β} (hf : ∀ a s, ∃ b, f a s = (.ok b, s)) (s : σ) :
    ((x >>= f) s).2 = (x s).2 ∧ ((∃ a, (x s).1 = .ok a) → ∃ b, ((x >>= f) s).1 = .ok b) := by
  rcases hx : x s with ⟨r, s'⟩
  cases r with
  | error e =>
    rw [bind_error hx]
    exact ⟨rfl, nofun⟩
  | ok a =>
    obtain ⟨b, hb⟩ := hf a s'
    rw [bind_ok hx, hb]
    exact ⟨rfl, fun _ => ⟨b, rfl⟩⟩

lemma eq_of_fst {x : Call ε σ α} {s : σ} {r : Except ε α} (h : (x s).1 = r) : x s = (r, (x s).2) :=
  Prod.ext h rfl

/-- The value that a call returns, or `d` if it stops. -/
def valueD (x : Call ε σ α) (s : σ) (d : α) : α :=
  match (x s).1 with
  | .ok a => a
  | .error _ => d

lemma eq_valueD {x : Call ε σ α} {s : σ} (d : α) (h : (x s).1.isOk = true) :
    x s = (.ok (x.valueD s d), (x s).2) := by
  unfold valueD
  cases hx : (x s).1 with
  | ok a => exact eq_of_fst hx
  | error e =>
    rw [hx] at h
    cases h

lemma eq_pairD {x : Call ε σ (α × β)} {s : σ} (d : α × β) {a : α} (h : (x s).1.isOk = true)
    (ha : (x.valueD s d).1 = a) : x s = (.ok (a, (x.valueD s d).2), (x s).2) := by
  subst ha
  exact eq_valueD d h

@[simp] lemma pure_apply (a : α) (s : σ) : (pure a : Call ε σ α) s = (.ok a, s) := rfl

@[simp] lemma halt_apply (e : ε) (s : σ) : (halt e : Call ε σ α) s = (.error e, s) := rfl

@[simp] lemma lift_apply (x : Except ε α) (s : σ) : (lift x : Call ε σ α) s = (x, s) := rfl

@[simp] lemma read_bind (g : σ → α) (f : α → Call ε σ β) (s : σ) : (read g >>= f) s = f (g s) s := rfl

@[simp] lemma update_bind (g : σ → σ) (f : Unit → Call ε σ β) (s : σ) :
    (update g >>= f) s = f () (g s) := rfl

@[simp] lemma pure_bind' (a : α) (f : α → Call ε σ β) (s : σ) : (pure a >>= f) s = f a s := rfl

@[simp] lemma lift_ok_bind (a : α) (f : α → Call ε σ β) (s : σ) :
    ((lift (.ok a) : Call ε σ α) >>= f) s = f a s := rfl

lemma each_congr {f g : α → Call ε σ Unit} {l : List α} (h : ∀ a ∈ l, f a = g a) : each f l = each g l := by
  induction l with
  | nil => rfl
  | cons a l ih => rw [each, each, h a List.mem_cons_self, ih (fun b hb => h b (List.mem_cons_of_mem a hb))]

/-- The call leaves the state alone. -/
def Quiet (x : Call ε σ α) : Prop := ∀ s, (x s).2 = s

lemma quiet_pure (a : α) : Quiet (pure a : Call ε σ α) := fun _ => rfl

lemma quiet_bind {x : Call ε σ α} {f : α → Call ε σ β} (hx : Quiet x) (hf : ∀ a, Quiet (f a)) :
    Quiet (x >>= f) := by
  intro s
  have h1 := hx s
  rcases hxs : x s with ⟨r, s'⟩
  rw [hxs] at h1
  obtain rfl : s' = s := h1
  cases r with
  | error e => rw [bind_error hxs]
  | ok a =>
    rw [bind_ok hxs]
    exact hf a s'

lemma quiet_ite {c : Prop} [Decidable c] {x y : Call ε σ α} (hx : Quiet x) (hy : Quiet y) :
    Quiet (if c then x else y) := by
  split
  · exact hx
  · exact hy

/-- A quantity that a call never makes smaller, whether or not it returns. -/
def Mono (m : σ → Nat) (x : Call ε σ α) : Prop := ∀ s, m s ≤ m (x s).2

variable {m : σ → Nat}

lemma Mono.le {x : Call ε σ α} (h : Mono m x) {s s' : σ} {r : Except ε α} (hrun : x s = (r, s')) :
    m s ≤ m s' := by
  have h1 := h s
  rwa [hrun] at h1

lemma mono_pure (a : α) : Mono m (pure a : Call ε σ α) := fun _ => Nat.le_refl _

lemma mono_halt (e : ε) : Mono m (halt e : Call ε σ α) := fun _ => Nat.le_refl _

lemma mono_read (f : σ → α) : Mono m (read f : Call ε σ α) := fun _ => Nat.le_refl _

lemma mono_lift (x : Except ε α) : Mono m (lift x : Call ε σ α) := fun _ => Nat.le_refl _

lemma mono_update {f : σ → σ} (h : ∀ s, m s ≤ m (f s)) : Mono m (update f : Call ε σ Unit) := h

lemma mono_bind {x : Call ε σ α} {f : α → Call ε σ β} (hx : Mono m x) (hf : ∀ a, Mono m (f a)) :
    Mono m (x >>= f) := by
  intro s
  have h1 := hx s
  rcases hxs : x s with ⟨r, s'⟩
  rw [hxs] at h1
  cases r with
  | error e => rwa [bind_error hxs]
  | ok a =>
    rw [bind_ok hxs]
    exact Nat.le_trans h1 (hf a s')

lemma lt_bind {x : Call ε σ α} {f : α → Call ε σ β} {s : σ} (hf : ∀ a, Mono m (f a))
    (hx : m s < m (x s).2) : m s < m ((x >>= f) s).2 := by
  rcases hxs : x s with ⟨r, s'⟩
  rw [hxs] at hx
  cases r with
  | error e => rwa [bind_error hxs]
  | ok a =>
    rw [bind_ok hxs]
    exact Nat.lt_of_lt_of_le hx (hf a s')

lemma mono_ite {c : Prop} [Decidable c] {x y : Call ε σ α} (hx : Mono m x) (hy : Mono m y) :
    Mono m (if c then x else y) := by
  split
  · exact hx
  · exact hy

lemma mono_each {f : α → Call ε σ Unit} (h : ∀ a, Mono m (f a)) (l : List α) :
    Mono m (each f l) := by
  induction l with
  | nil => exact mono_pure ()
  | cons a l ih => exact mono_bind (h a) (fun _ => ih)

/-- A quantity that a call makes smaller by `k` at most, whether or not it returns. -/
def Loses (m : σ → Nat) (k : Nat) (x : Call ε σ α) : Prop := ∀ s, m s ≤ m (x s).2 + k

lemma Mono.loses {x : Call ε σ α} (h : Mono m x) : Loses m 0 x := h

lemma loses_bind {x : Call ε σ α} {f : α → Call ε σ β} {k l n : Nat} (hx : Loses m k x) (hf : ∀ a, Loses m l (f a))
    (hn : k + l = n) : Loses m n (x >>= f) := by
  subst hn
  intro s
  have h1 := hx s
  rcases hxs : x s with ⟨r, s'⟩
  rw [hxs] at h1
  cases r with
  | error e =>
    rw [bind_error hxs]
    exact Nat.le_trans h1 (by omega)
  | ok a =>
    rw [bind_ok hxs]
    have h2 := hf a s'
    have h3 : m s ≤ m s' + k := h1
    omega

/-- The call returns a value and a state with `Q`, or it stops with a reason and a state with `E`. -/
def Ends (E : ε → σ → Prop) (x : Call ε σ α) (s : σ) (Q : α → σ → Prop) : Prop :=
  match x s with
  | (.ok a, s') => Q a s'
  | (.error e, s') => E e s'

variable {E : ε → σ → Prop} {Q R : α → σ → Prop}

lemma Ends.ok {x : Call ε σ α} {s s' : σ} {a : α} (h : Ends E x s Q) (hrun : x s = (.ok a, s')) : Q a s' := by
  rw [Ends, hrun] at h
  exact h

lemma ends_of_ok {x : Call ε σ α} {s s' : σ} {a : α} (hrun : x s = (.ok a, s')) (h : Q a s') : Ends E x s Q := by
  rw [Ends, hrun]
  exact h

lemma ends_of_error {x : Call ε σ α} {s s' : σ} {e : ε} (hrun : x s = (.error e, s')) (h : E e s') :
    Ends E x s Q := by
  rw [Ends, hrun]
  exact h

lemma Ends.mono {x : Call ε σ α} {s : σ} (h : Ends E x s Q) (himp : ∀ a s', Q a s' → R a s') : Ends E x s R := by
  rcases hx : x s with ⟨r, s'⟩
  cases r with
  | ok a => exact ends_of_ok hx (himp a s' (h.ok hx))
  | error e =>
    rw [Ends, hx] at h
    exact ends_of_error hx h

lemma Ends.and {x : Call ε σ α} {s : σ} (h : Ends E x s Q) (h' : Ends E x s R) :
    Ends E x s (fun a s' => Q a s' ∧ R a s') := by
  rcases hx : x s with ⟨r, s'⟩
  cases r with
  | ok a => exact ends_of_ok hx ⟨h.ok hx, h'.ok hx⟩
  | error e =>
    rw [Ends, hx] at h
    exact ends_of_error hx h

lemma ends_true (x : Call ε σ α) (s : σ) : Ends (fun _ _ => True) x s (fun _ _ => True) := by
  rcases hx : x s with ⟨_ | _, s'⟩
  · exact ends_of_error hx trivial
  · exact ends_of_ok hx trivial

lemma Ends.returns {x : Call ε σ α} {s : σ} (h : Ends E x s Q) : Ends (fun _ _ => True) x s Q := by
  rcases hx : x s with ⟨r, s'⟩
  cases r with
  | ok a => exact ends_of_ok hx (h.ok hx)
  | error e => exact ends_of_error hx trivial

lemma Loses.ends {k : Nat} {x : Call ε σ α} (h : Loses m k x) (s : σ) :
    Ends (fun _ _ => True) x s (fun _ s' => m s ≤ m s' + k) := by
  have h1 := h s
  rcases hx : x s with ⟨_ | _, s'⟩
  · exact ends_of_error hx trivial
  · rw [hx] at h1
    exact ends_of_ok hx h1

lemma Mono.ends {x : Call ε σ α} (h : Mono m x) (s : σ) : Ends (fun _ _ => True) x s (fun _ s' => m s ≤ m s') :=
  h.loses.ends s

lemma Ends.bind {x : Call ε σ α} {f : α → Call ε σ β} {s : σ} {Q' : β → σ → Prop} (h : Ends E x s Q)
    (hf : ∀ a s', Q a s' → Ends E (f a) s' Q') : Ends E (x >>= f) s Q' := by
  rcases hx : x s with ⟨r, s'⟩
  cases r with
  | ok a =>
    rw [Ends, bind_ok hx]
    exact hf a s' (h.ok hx)
  | error e =>
    rw [Ends, hx] at h
    exact ends_of_error (bind_error hx) h

lemma ends_bind_ok {x : Call ε σ α} {f : α → Call ε σ β} {s s' : σ} {a : α} {Q' : β → σ → Prop}
    (hx : x s = (.ok a, s')) (hf : Ends E (f a) s' Q') : Ends E (x >>= f) s Q' := by
  rw [Ends, bind_ok hx]
  exact hf

lemma ends_each {f : α → Call ε σ Unit} (I : List α → σ → Prop)
    (hf : ∀ a l s, I (a :: l) s → Ends E (f a) s (fun _ s' => I l s')) (l : List α) (s : σ) (h : I l s) :
    Ends E (each f l) s (fun _ s' => I [] s') := by
  induction l generalizing s with
  | nil => exact h
  | cons a l ih => exact (hf a l s h).bind (fun _ s' h' => ih s' h')

end Call

end KaworuOS.Lib
