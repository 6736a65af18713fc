import KaworuOS.Proofs.Pmm
import KaworuOS.Strings

/-!
# Moving overlapping ranges

Each loop of `memmove` goes away from the part of the source that it overwrites, so that what it has still to read is
as it was before the call. Both leave the same memory.
-/

namespace KaworuOS.Proofs
open Lib

lemma wsub_last (a len : Nat) : wsub (wadd a (wsub (len + 1) 1)) 1 = wadd a (wsub len 1) := by
  unfold wsub wadd wordSize
  omega

lemma wadd_last {a len : Nat} (h : a + len + 1 ≤ 2 ^ 64) : wadd a (wsub (len + 1) 1) = a + len := by
  unfold wsub wadd wordSize
  omega

/-- From the last byte on, the destination may begin inside of the source. -/
lemma copyBytesBack_eq_blit (mem : Mem) {dest src len : Nat} (hdest : dest + len ≤ 2 ^ 64) (hsrc : src + len ≤ 2 ^ 64)
    (hbehind : src ≤ dest) :
    copyBytesBack mem (wadd dest (wsub len 1)) (wadd src (wsub len 1)) len = mem.blit dest src len := by
  induction len generalizing mem with
  | zero =>
    funext x
    simp only [copyBytesBack, Mem.blit]
    rw [if_neg (by omega)]
  | succ len ih =>
    rw [copyBytesBack, wsub_last, wsub_last, ih _ (by omega) (by omega), wadd_last hdest, wadd_last hsrc]
    funext x
    unfold Mem.blit
    by_cases hx : x = dest + len
    · subst hx
      rw [if_neg (by omega), if_pos (by omega), Mem.set_same, Nat.add_sub_cancel_left]
    · by_cases hin : dest ≤ x ∧ x < dest + len
      · rw [if_pos hin, if_pos (by omega)]
        exact Mem.set_other mem _ (by omega)
      · rw [if_neg hin, if_neg (by omega), Mem.set_other mem _ hx]

lemma memmove_eq_blit (mem : Mem) {dest src len : Nat} (hdest : dest + len ≤ 2 ^ 64) (hsrc : src + len ≤ 2 ^ 64) :
    memmove dest src len mem = (dest, mem.blit dest src len) := by
  unfold memmove
  split_ifs with hlt
  · rw [copyBytes_eq_blit mem hdest hsrc (.inl hlt.le)]
  · rw [copyBytesBack_eq_blit mem hdest hsrc (not_lt.mp hlt)]

/-- The bytes that were at `src` are at `dest`, and all others are unchanged. -/
theorem memmove_moves (mem : Mem) {dest src len : Nat} (hdest : dest + len ≤ 2 ^ 64) (hsrc : src + len ≤ 2 ^ 64) :
    (memmove dest src len mem).1 = dest ∧
      (∀ i < len, (memmove dest src len mem).2 (dest + i) = mem (src + i)) ∧
      ∀ x, x < dest ∨ dest + len ≤ x → (memmove dest src len mem).2 x = mem x := by
  rw [memmove_eq_blit mem hdest hsrc]
  exact ⟨rfl, fun i hi => Mem.blit_apply mem hi, fun x hx => if_neg (by omega)⟩

/-- Three bytes are moved by one, over two of themselves. -/
theorem memmove_moves_overlap :
    (∀ i < 3, (memmove 17 16 3 (fun x => UInt8.ofNat x)).2 (17 + i) = UInt8.ofNat (16 + i)) ∧
      (memmove 17 16 3 (fun x => UInt8.ofNat x)).2 16 = 16 := by
  obtain ⟨-, hmoved, hrest⟩ := @memmove_moves (fun x => UInt8.ofNat x) 17 16 3 (by decide)
    (by decide)
  exact ⟨hmoved, hrest 16 (.inl (by decide))⟩

end KaworuOS.Proofs
