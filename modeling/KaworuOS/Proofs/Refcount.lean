import KaworuOS.Refcount
import Mathlib.Algebra.Order.BigOperators.Group.Finset
import Mathlib.Logic.Relation

/-!
# Reference counters under contention

The count is the number of references whatever the threads do between their exchanges, because an exchange that
succeeds compares with the count itself. The cleanup is owed from the exchange from 1 to 0 on until it has been run.
-/

namespace KaworuOS.Proofs
open scoped BigOperators

variable {ι : Type} [DecidableEq ι] [Fintype ι]

/-- A sum after the change of one entry. -/
lemma sum_update_add {α : Type} (f : α → Nat) (g : ι → α) (t : ι) (a : α) :
    ∑ u, f (Function.update g t a u) + f (g t) = ∑ u, f (g u) + f a := by
  have hrest : ∑ u ∈ Finset.univ.erase t, f (Function.update g t a u) = ∑ u ∈ Finset.univ.erase t, f (g u) :=
    Finset.sum_congr rfl fun u hu => by rw [Function.update_of_ne (Finset.ne_of_mem_erase hu)]
  rw [← Finset.add_sum_erase _ _ (Finset.mem_univ t),
    ← Finset.add_sum_erase _ (fun u => f (g u)) (Finset.mem_univ t), hrest, Function.update_self]
  omega

/-- What the callers promise: while a thread is in `refcount_get` there is a reference, and there are always fewer
than `UINT_MAX`. -/
structure Refcount.Allowed (s : Refcount ι) : Prop where
  sponsored : ∀ t, (s.pc t).inGet → 0 < s.total
  bounded : s.total < UINT_MAX

/-- The runs from `refcount_init` on, in which the promises hold. -/
inductive RefcountRun (t₀ : ι) : Refcount ι → Prop
  | init : RefcountRun t₀ (Refcount.refcountInit t₀)
  | step {s s' : Refcount ι} (h : RefcountRun t₀ s) (op : RefOp ι) (hop : op.run s = some s')
      (hallowed : Refcount.Allowed s') : RefcountRun t₀ s'

/-- The thread has taken the count from 1 to 0 and has not called the cleanup function yet. -/
def RefPc.cleaning : RefPc → Nat
  | .putExit 1 _ => 1
  | _ => 0

/-- How often the cleanup function still has to be called. -/
def Refcount.owed (s : Refcount ι) : Nat := ∑ t, RefPc.cleaning (s.pc t)

/-- What a thread may rely on where it is. -/
def RefPc.Fits (held : Nat) : RefPc → Prop
  | .user | .getLoad => True
  | .getLoop old => old < UINT_MAX
  | .putLoad => 0 < held
  | .putLoop old => 0 < held ∧ 0 < old ∧ old < UINT_MAX
  | .putExit old left => old = left + 1 ∧ left < UINT_MAX
  | .panicked => False

/-- What a call of `refcount_put` has to report. -/
structure PutResult.Reports (r : PutResult) : Prop where
  value : r.value = r.left
  cleaned : r.cleaned = true ↔ r.left = 0

/-- The invariant of a run. -/
structure RefInv (s : Refcount ι) : Prop where
  count : s.count = s.total
  pc : ∀ t, RefPc.Fits (s.held t) (s.pc t)
  cleanups : s.cleanups = s.puts.countP (·.cleaned)
  once : s.cleanups + Refcount.owed s = if s.count = 0 then 1 else 0
  puts : ∀ r ∈ s.puts, PutResult.Reports r

variable {s s' : Refcount ι} {t : ι}

omit [DecidableEq ι] in
lemma held_le_total (s : Refcount ι) (t : ι) : s.held t ≤ s.total :=
  Finset.single_le_sum (fun u _ => Nat.zero_le (s.held u)) (Finset.mem_univ t)

lemma total_setHeld (s : Refcount ι) (t : ι) (n : Nat) : (s.setHeld t n).total + s.held t = s.total + n :=
  sum_update_add id s.held t n

lemma owed_setPc (s : Refcount ι) (t : ι) (pc : RefPc) :
    Refcount.owed (s.setPc t pc) + RefPc.cleaning (s.pc t) = Refcount.owed s + RefPc.cleaning pc :=
  sum_update_add RefPc.cleaning s.pc t pc

lemma RefPc.Fits.mono {held held' : Nat} {pc : RefPc} (h : RefPc.Fits held pc) (hle : held ≤ held') :
    RefPc.Fits held' pc := by
  cases pc with
  | putLoad => exact Nat.lt_of_lt_of_le h hle
  | putLoop old => exact ⟨Nat.lt_of_lt_of_le h.1 hle, h.2⟩
  | _ => exact h

omit [Fintype ι] in
lemma setHeld_held_of_ne {u : ι} (s : Refcount ι) (n : Nat) (h : u ≠ t) : (s.setHeld t n).held u = s.held u :=
  Function.update_of_ne h _ _

omit [Fintype ι] in
/-- Only the thread that moves has to show where it is. -/
lemma fits_setPc {pc : RefPc} (hself : RefPc.Fits (s.held t) pc)
    (hother : ∀ u, u ≠ t → RefPc.Fits (s.held u) (s.pc u)) (u : ι) :
    RefPc.Fits ((s.setPc t pc).held u) ((s.setPc t pc).pc u) := by
  by_cases hut : u = t
  · subst hut
    simpa only [Refcount.setPc, Function.update_self] using hself
  · simpa only [Refcount.setPc, Function.update_of_ne hut] using hother u hut

/-- A thread moves on without an exchange. -/
lemma RefInv.setPc (hs : RefInv s) {pc : RefPc} (hfits : RefPc.Fits (s.held t) pc)
    (hclean : RefPc.cleaning pc = RefPc.cleaning (s.pc t)) : RefInv (s.setPc t pc) where
  count := hs.count
  pc := fits_setPc hfits fun u _ => hs.pc u
  cleanups := hs.cleanups
  once := by
    have howed := owed_setPc s t pc
    have honce := hs.once
    rw [hclean] at howed
    rw [show Refcount.owed (s.setPc t pc) = Refcount.owed s by omega]
    exact honce
  puts := hs.puts

/-- A thread reads the count. There is a reference at that time, and the count is not at its limit. -/
lemma RefInv.load (hs : RefInv s) (hallowed : Refcount.Allowed s) (hop : (RefOp.load t).run s = some s') :
    RefInv s' := by
  have hlt : s.count < UINT_MAX := hs.count ▸ hallowed.bounded
  have hpc := hs.pc t
  dsimp only [RefOp.run] at hop
  split at hop
  next h =>
    obtain rfl := Option.some.inj hop
    exact hs.setPc hlt (by rw [h]; rfl)
  next h =>
    obtain rfl := Option.some.inj hop
    rw [h] at hpc
    have hpos : 0 < s.count := hs.count ▸ Nat.lt_of_lt_of_le hpc (held_le_total s t)
    exact hs.setPc ⟨hpc, hpos, hlt⟩ (by rw [h]; rfl)
  next => cases hop

/-- The exchange of `refcount_get`. -/
lemma RefInv.gotten (hs : RefInv s) (hallowed : Refcount.Allowed s) (hpc : s.pc t = .getLoop s.count) :
    RefInv (((s.setCount (s.count + 1)).setHeld t (s.held t + 1)).setPc t .user) where
  count := by
    have htotal := total_setHeld (s.setCount (s.count + 1)) t (s.held t + 1)
    have hcount := hs.count
    show s.count + 1 = ((s.setCount (s.count + 1)).setHeld t (s.held t + 1)).total
    have hsame : (s.setCount (s.count + 1)).total = s.total := rfl
    have hheld : (s.setCount (s.count + 1)).held t = s.held t := rfl
    omega
  pc := by
    refine fits_setPc trivial fun u hut => ?_
    rw [setHeld_held_of_ne _ _ hut]
    exact hs.pc u
  cleanups := hs.cleanups
  once := by
    have hpos : 0 < s.total := hallowed.sponsored t (by rw [hpc]; rfl)
    have howed := owed_setPc s t .user
    have honce := hs.once
    rw [if_neg (by rw [hs.count]; omega)] at honce
    rw [hpc] at howed
    show s.cleanups + Refcount.owed (s.setPc t .user) = if s.count + 1 = 0 then 1 else 0
    simp only [RefPc.cleaning] at howed
    rw [if_neg (Nat.succ_ne_zero _)]
    omega
  puts := hs.puts

/-- The exchange of `refcount_put`. From 1 to 0 it leaves the cleanup to be done. -/
lemma RefInv.given (hs : RefInv s) (hallowed : Refcount.Allowed s) (hpc : s.pc t = .putLoop s.count) :
    RefInv (((s.setCount (s.count - 1)).setHeld t (s.held t - 1)).setPc t (.putExit s.count (s.total - 1))) where
  count := by
    have htotal := total_setHeld (s.setCount (s.count - 1)) t (s.held t - 1)
    have hcount := hs.count
    have hfits := hs.pc t
    rw [hpc] at hfits
    show s.count - 1 = ((s.setCount (s.count - 1)).setHeld t (s.held t - 1)).total
    have hsame : (s.setCount (s.count - 1)).total = s.total := rfl
    have hheld : (s.setCount (s.count - 1)).held t = s.held t := rfl
    have hpos := hfits.1
    omega
  pc := by
    refine fits_setPc ?_ fun u hut => ?_
    · have hfits := hs.pc t
      rw [hpc] at hfits
      have hpos := hfits.2.1
      have hcount := hs.count
      have hbounded := hallowed.bounded
      exact ⟨by omega, by omega⟩
    · rw [setHeld_held_of_ne _ _ hut]
      exact hs.pc u
  cleanups := hs.cleanups
  once := by
    have hfits := hs.pc t
    rw [hpc] at hfits
    have hpos := hfits.2.1
    have howed := owed_setPc s t (.putExit s.count (s.total - 1))
    have honce := hs.once
    rw [if_neg (by omega)] at honce
    rw [hpc] at howed
    show s.cleanups + Refcount.owed (s.setPc t (.putExit s.count (s.total - 1))) = if s.count - 1 = 0 then 1 else 0
    by_cases hone : s.count = 1
    · rw [hone] at howed ⊢
      simp only [RefPc.cleaning] at howed
      rw [if_pos (by rfl)]
      omega
    · have hclean : RefPc.cleaning (.putExit s.count (s.total - 1)) = 0 := by
        unfold RefPc.cleaning
        split
        next heq => exact absurd (RefPc.putExit.inj heq).1 hone
        · rfl
      rw [hclean] at howed
      simp only [RefPc.cleaning] at howed
      rw [if_neg (by omega)]
      omega
  puts := hs.puts

lemma wrap_pred {n : Nat} (hpos : 0 < n) (hlt : n < UINT_MAX) : (n + 2 ^ 32 - 1) % 2 ^ 32 = n - 1 := by
  rw [show n + 2 ^ 32 - 1 = n - 1 + 2 ^ 32 by omega, Nat.add_mod_right, Nat.mod_eq_of_lt]
  exact Nat.lt_of_le_of_lt (Nat.sub_le n 1) (Nat.lt_trans hlt (by decide))

/-- One turn of a loop: an exchange that succeeds, or another turn with the count that it has found. -/
lemma RefInv.turn (hs : RefInv s) (hallowed : Refcount.Allowed s) {spurious : Bool}
    (hop : (RefOp.turn t spurious).run s = some s') : RefInv s' := by
  have hlt : s.count < UINT_MAX := hs.count ▸ hallowed.bounded
  have hpc := hs.pc t
  dsimp only [RefOp.run] at hop
  split at hop
  next old h =>
    rw [h] at hpc
    obtain rfl := Option.some.inj hop
    rw [Refcount.refcountGetTurn, if_neg (Nat.ne_of_lt hpc), atomicCompareExchangeWeak]
    by_cases hsucceeds : s.count = old ∧ ¬spurious
    · obtain ⟨rfl, hspurious⟩ := hsucceeds
      rw [if_pos ⟨rfl, hspurious⟩, Nat.mod_eq_of_lt (Nat.add_lt_of_lt_sub hlt)]
      exact hs.gotten hallowed h
    · rw [if_neg hsucceeds]
      exact hs.setPc hlt (by rw [h]; rfl)
  next old h =>
    rw [h] at hpc
    obtain rfl := Option.some.inj hop
    rw [Refcount.refcountPutTurn, if_neg (Nat.ne_of_gt hpc.2.1), atomicCompareExchangeWeak]
    by_cases hsucceeds : s.count = old ∧ ¬spurious
    · obtain ⟨rfl, hspurious⟩ := hsucceeds
      have hdec : (s.count + 2 ^ 32 - 1) % 2 ^ 32 = s.count - 1 := wrap_pred hpc.2.1 hlt
      have hleft : ((s.setCount (s.count - 1)).setHeld t (s.held t - 1)).total = s.total - 1 := by
        have htotal := total_setHeld (s.setCount (s.count - 1)) t (s.held t - 1)
        have hsame : (s.setCount (s.count - 1)).total = s.total := rfl
        have hheld : (s.setCount (s.count - 1)).held t = s.held t := rfl
        have hpos := hpc.1
        omega
      rw [if_pos ⟨rfl, hspurious⟩, hdec]
      dsimp only
      rw [hleft]
      exact hs.given hallowed h
    · have hpos : 0 < s.count := hs.count ▸ Nat.lt_of_lt_of_le hpc.1 (held_le_total s t)
      rw [if_neg hsucceeds]
      exact hs.setPc ⟨hpc.1, hpos, hlt⟩ (by rw [h]; rfl)
  next => cases hop

/-- A call of `refcount_put` returns, and has called the cleanup function if it owed that. -/
lemma RefInv.reported (hs : RefInv s) {r : PutResult} (hr : PutResult.Reports r)
    (hclean : (if r.cleaned then 1 else 0) = RefPc.cleaning (s.pc t)) :
    RefInv { s.putReturn t r with cleanups := s.cleanups + if r.cleaned then 1 else 0 } where
  count := hs.count
  pc := fits_setPc trivial fun u _ => hs.pc u
  cleanups := by
    have hcleanups := hs.cleanups
    show s.cleanups + (if r.cleaned then 1 else 0) = (r :: s.puts).countP (·.cleaned)
    rw [List.countP_cons, hcleanups]
  once := by
    have howed := owed_setPc s t .user
    have honce := hs.once
    show s.cleanups + (if r.cleaned then 1 else 0) + Refcount.owed (s.setPc t .user) = if s.count = 0 then 1 else 0
    have huser : RefPc.cleaning .user = 0 := rfl
    omega
  puts := by
    intro q hq
    rcases List.mem_cons.mp hq with rfl | hq
    · exact hr
    · exact hs.puts q hq

lemma RefInv.exit (hs : RefInv s) (hop : (RefOp.exit t).run s = some s') : RefInv s' := by
  have hpc := hs.pc t
  dsimp only [RefOp.run] at hop
  split at hop
  next old left h =>
    rw [h] at hpc
    obtain ⟨rfl, hleft⟩ := hpc
    obtain rfl := Option.some.inj hop
    unfold Refcount.refcountPutExit
    split_ifs with hone
    · obtain rfl : left = 0 := by omega
      exact hs.reported (r := ⟨0, true, 0⟩) ⟨rfl, by simp⟩ (by rw [h]; rfl)
    · have hvalue : (left + 1 + 2 ^ 32 - 1) % 2 ^ 32 = left := by
        rw [show left + 1 + 2 ^ 32 - 1 = left + 2 ^ 32 by omega, Nat.add_mod_right]
        exact Nat.mod_eq_of_lt (Nat.lt_trans hleft (by decide))
      have hclean : RefPc.cleaning (s.pc t) = 0 := by
        rw [h]
        unfold RefPc.cleaning
        split
        next heq => exact absurd (RefPc.putExit.inj heq).1 hone
        · rfl
      rw [hvalue]
      exact hs.reported (r := ⟨left, false, left⟩) ⟨rfl, by simp; omega⟩ (by rw [hclean]; rfl)
  next => cases hop

/-- A reference changes hands. -/
lemma RefInv.hand (hs : RefInv s) {u : ι} (hop : (RefOp.hand t u).run s = some s') : RefInv s' := by
  dsimp only [RefOp.run] at hop
  split at hop
  next h =>
    obtain ⟨htu, hfree⟩ := h
    obtain rfl := Option.some.inj hop
    have hheld : (s.setHeld t (s.held t - 1)).held u = s.held u := Function.update_of_ne htu.symm _ _
    have htotal := total_setHeld s t (s.held t - 1)
    have htotal' := total_setHeld (s.setHeld t (s.held t - 1)) u (s.held u + 1)
    refine ⟨?_, fun v => ?_, hs.cleanups, hs.once, hs.puts⟩
    · have hcount := hs.count
      show s.count = _
      omega
    · have hpc := hs.pc v
      show RefPc.Fits (((s.setHeld t (s.held t - 1)).setHeld u (s.held u + 1)).held v) (s.pc v)
      by_cases hvu : v = u
      · subst hvu
        simp only [Refcount.setHeld, Function.update_self]
        exact hpc.mono (Nat.le_succ _)
      · by_cases hvt : v = t
        · -- a reference that is being put stays behind
          subst hvt
          simp only [Refcount.setHeld, Function.update_of_ne htu, Function.update_self]
          cases hcase : s.pc v with
          | putLoad =>
            rw [hcase] at hfree
            exact Nat.sub_pos_of_lt hfree
          | putLoop old =>
            rw [hcase] at hfree hpc
            exact ⟨Nat.sub_pos_of_lt hfree, hpc.2⟩
          | _ =>
            rw [hcase] at hpc
            exact hpc
        · simpa only [Refcount.setHeld, Function.update_of_ne hvu, Function.update_of_ne hvt] using hpc
  next => cases hop

lemma RefInv.step (hs : RefInv s) (hallowed : Refcount.Allowed s) {op : RefOp ι} (hop : op.run s = some s') :
    RefInv s' := by
  cases op with
  | get t =>
    dsimp only [RefOp.run] at hop
    split at hop
    next h =>
      obtain rfl := Option.some.inj hop
      exact hs.setPc trivial (by rw [h]; rfl)
    next => cases hop
  | put t =>
    dsimp only [RefOp.run] at hop
    split at hop
    next h =>
      obtain rfl := Option.some.inj hop
      exact hs.setPc h.2 (by rw [h.1]; rfl)
    next => cases hop
  | load t => exact hs.load hallowed hop
  | turn t spurious => exact hs.turn hallowed hop
  | exit t => exact hs.exit hop
  | hand t u => exact hs.hand hop

lemma total_refcountInit (t₀ : ι) : (Refcount.refcountInit t₀).total = 1 := by
  have h := sum_update_add id (fun _ => 0) t₀ 1
  rwa [id_eq, id_eq, Nat.add_zero, Finset.sum_const_zero, Nat.zero_add] at h

lemma RefcountRun.allowed {t₀ : ι} (h : RefcountRun t₀ s) : Refcount.Allowed s := by
  cases h with
  | init =>
    refine ⟨fun _ _ => ?_, ?_⟩
    · rw [total_refcountInit]
      exact Nat.one_pos
    · rw [total_refcountInit]
      decide
  | step _ _ _ hallowed => exact hallowed

lemma RefcountRun.inv {t₀ : ι} (h : RefcountRun t₀ s) : RefInv s := by
  induction h with
  | init =>
    refine ⟨?_, fun _ => trivial, rfl, ?_, fun r hr => by cases hr⟩
    · exact (total_refcountInit _).symm
    · simp [Refcount.owed, Refcount.refcountInit, RefPc.cleaning]
  | step h op hop _ ih => exact ih.step h.allowed hop

/-- In every run, the count is the number of references; the cleanup function is called once, by the call of
`refcount_put` that leaves none, which is the only one that may still have to call it; every other call returns the
number that it has left, none returns `-ENOENT`, and no `ASSERT` fails. -/
theorem refcount_under_contention {t₀ : ι} (h : RefcountRun t₀ s) :
    s.count = ∑ t, s.held t ∧
      s.cleanups + Refcount.owed s = (if s.count = 0 then 1 else 0) ∧
      s.cleanups = s.puts.countP (·.cleaned) ∧
      (∀ r ∈ s.puts, (r.cleaned = true ↔ r.left = 0) ∧ (r.cleaned = false → r.value = r.left) ∧
        r.value ≠ -Errno.ENOENT.code) ∧
      ∀ t, s.pc t ≠ .panicked := by
  have hs := h.inv
  refine ⟨hs.count, hs.once, hs.cleanups, fun r hr => ⟨(hs.puts r hr).cleaned, fun _ => (hs.puts r hr).value, ?_⟩,
    fun t ht => ?_⟩
  · rw [(hs.puts r hr).value]
    simp only [Errno.code]
    omega
  · have hpc := hs.pc t
    rw [ht] at hpc
    exact hpc

/-- Two threads give up the last two references at once. Both have loaded 2 when the exchange of the first one
succeeds. That of the other one fails, once more for no reason, and the third one leaves nothing. -/
theorem refcount_under_contention_last :
    ∃ s : Refcount (Fin 2), RefcountRun 0 s ∧ s.puts = [⟨1, false, 1⟩, ⟨0, true, 0⟩] ∧ s.cleanups = 1 ∧
      s.cleanups = s.puts.countP (·.cleaned) := by
  have hget : RefcountRun (0 : Fin 2) _ := .step .init (.get 0) rfl ⟨by decide, by decide⟩
  have hloaded : RefcountRun (0 : Fin 2) _ := .step hget (.load 0) rfl ⟨by decide, by decide⟩
  have hgot : RefcountRun (0 : Fin 2) _ := .step hloaded (.turn 0 false) rfl ⟨by decide, by decide⟩
  have hhanded : RefcountRun (0 : Fin 2) _ := .step hgot (.hand 0 1) rfl ⟨by decide, by decide⟩
  have hput₀ : RefcountRun (0 : Fin 2) _ := .step hhanded (.put 0) rfl ⟨by decide, by decide⟩
  have hput₁ : RefcountRun (0 : Fin 2) _ := .step hput₀ (.put 1) rfl ⟨by decide, by decide⟩
  have hload₀ : RefcountRun (0 : Fin 2) _ := .step hput₁ (.load 0) rfl ⟨by decide, by decide⟩
  have hload₁ : RefcountRun (0 : Fin 2) _ := .step hload₀ (.load 1) rfl ⟨by decide, by decide⟩
  have hleft₀ : RefcountRun (0 : Fin 2) _ := .step hload₁ (.turn 0 false) rfl ⟨by decide, by decide⟩
  have hfailed : RefcountRun (0 : Fin 2) _ := .step hleft₀ (.turn 1 false) rfl ⟨by decide, by decide⟩
  have hspurious : RefcountRun (0 : Fin 2) _ := .step hfailed (.turn 1 true) rfl ⟨by decide, by decide⟩
  have hleft₁ : RefcountRun (0 : Fin 2) _ := .step hspurious (.turn 1 false) rfl ⟨by decide, by decide⟩
  have hexit₁ : RefcountRun (0 : Fin 2) _ := .step hleft₁ (.exit 1) rfl ⟨by decide, by decide⟩
  have hexit₀ : RefcountRun (0 : Fin 2) _ := .step hexit₁ (.exit 0) rfl ⟨by decide, by decide⟩
  exact ⟨_, hexit₀, rfl, rfl, (refcount_under_contention hexit₀).2.2.1⟩

end KaworuOS.Proofs
