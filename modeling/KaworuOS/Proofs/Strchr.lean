import KaworuOS.Printf
import KaworuOS.Strings
import Mathlib.Data.List.Basic
import Mathlib.Tactic.IntervalCases

/-!
# Searching a string for a character

The loop of `strchrnul` asks whether the string is empty, not whether it is at the terminator. It stops inside of the
string only for a character that is there; for any other one it goes on behind the terminator.
-/

namespace KaworuOS.Proofs
open Lib

variable {mem : Mem} {s : Nat} {str : CString} {c : BitVec 32}

/-- A string with its terminator is in the memory at `s`. -/
structure StringAt (mem : Mem) (s : Nat) (str : CString) : Prop where
  fits : s + str.bytes.length < 2 ^ 64
  bytes : ∀ i < str.bytes.length, str.bytes[i]? = some (mem (s + i))
  terminator : mem (s + str.bytes.length) = 0

/-- The call returns `r` and reads only between `lo` and `hi`. -/
def ReadsWithin {α : Type} (lo hi : Nat) (x : StringCall α) (r : α) : Prop :=
  ∀ reads, ∃ new, x reads = (.ok r, new ++ reads) ∧ ∀ a ∈ new, lo ≤ a ∧ a ≤ hi

/-- `strchrnul` and `strchr` return the position of the first such character. If there is none it is that of the
terminator for `strchrnul`, and null for `strchr`. Neither reads a byte behind the terminator. -/
structure StopsAtTerminator (mem : Mem) (s : Nat) (str : CString) (c : BitVec 32) : Prop where
  strchrnul : ReadsWithin s (s + str.bytes.length) (strchrnul mem s c) (s + str.bytes.idxOf (castU8 c))
  strchr : ReadsWithin s (s + str.bytes.length) (strchr mem s c)
    (if castU8 c ∈ str.bytes ++ [0] then s + str.bytes.idxOf (castU8 c) else 0)

namespace ReadsWithin

variable {α β : Type} {lo hi : Nat} {x : StringCall α} {r : α}

lemma pure (r : α) : ReadsWithin lo hi (pure r) r := fun _ => ⟨[], rfl, fun a ha => by cases ha⟩

lemma bind {f : α → StringCall β} {r' : β} (h : ReadsWithin lo hi x r) (hf : ReadsWithin lo hi (f r) r') :
    ReadsWithin lo hi (x >>= f) r' := by
  intro reads
  obtain ⟨new, hx, hnew⟩ := h reads
  obtain ⟨new', hfr, hnew'⟩ := hf (new ++ reads)
  refine ⟨new' ++ new, ?_, fun a ha => (List.mem_append.mp ha).elim (hnew' a) (hnew a)⟩
  rw [Call.bind_ok hx, hfr, List.append_assoc]

/-- A read is followed by what the code does with the byte. -/
lemma readChar {p : Nat} {f : UInt8 → StringCall β} {r' : β} (hlo : lo ≤ p) (hhi : p ≤ hi)
    (hf : ReadsWithin lo hi (f (mem p)) r') : ReadsWithin lo hi (readChar mem p >>= f) r' := by
  refine bind (fun reads => ⟨[p], rfl, fun a ha => ?_⟩) hf
  obtain rfl := List.mem_singleton.mp ha
  exact ⟨hlo, hhi⟩

end ReadsWithin

lemma StringAt.ne_zero (h : StringAt mem s str) {i : Nat} (hi : i < str.bytes.length) : mem (s + i) ≠ 0 := by
  intro hzero
  have hbyte := h.bytes i hi
  rw [hzero] at hbyte
  exact str.noNul (List.mem_of_getElem? hbyte)

lemma StringAt.at_idxOf (h : StringAt mem s str) {u : UInt8} (hmem : u ∈ str.bytes) :
    mem (s + str.bytes.idxOf u) = u := by
  have hbyte := h.bytes _ (List.idxOf_lt_length_of_mem hmem)
  rw [List.getElem?_idxOf hmem] at hbyte
  exact (Option.some.inj hbyte).symm

lemma StringAt.before_idxOf (h : StringAt mem s str) {u : UInt8} {k : Nat} (hmem : u ∈ str.bytes)
    (hk : k < str.bytes.idxOf u) : mem (s + k) ≠ u := by
  intro heq
  have hbyte := h.bytes k (hk.trans (List.idxOf_lt_length_of_mem hmem))
  rw [heq] at hbyte
  have htake : u ∈ str.bytes.take (k + 1) :=
    List.mem_of_getElem? ((List.getElem?_take_of_lt (Nat.lt_succ_self k)).trans hbyte)
  have hle := (List.mem_take_iff_idxOf_lt hmem).mp htake
  omega

lemma strlenLoop_reads (h : StringAt mem s str) {turns i : Nat} (hi : i ≤ str.bytes.length)
    (hturns : str.bytes.length < i + turns) :
    ReadsWithin s (s + str.bytes.length) (strlenLoop mem turns (s + i)) (wadd (s + str.bytes.length) 1) := by
  have hfits := h.fits
  induction turns generalizing i with
  | zero => omega
  | succ turns ih =>
    refine .readChar (by omega) (by omega) ?_
    rcases Nat.lt_or_ge i str.bytes.length with hlt | hge
    · have hnext : wadd (s + i) 1 = s + (i + 1) := wadd_of_lt (by omega)
      rw [if_pos (h.ne_zero hlt), hnext]
      exact ih (by omega) (by omega)
    · obtain rfl : i = str.bytes.length := by omega
      rw [if_neg (not_not.mpr h.terminator)]
      exact .pure _

/-- `strlen` reads the string up to its terminator. -/
lemma strlen_reads (h : StringAt mem s str) :
    ReadsWithin s (s + str.bytes.length) (strlen mem s) str.bytes.length := by
  have hfits := h.fits
  have hlen : wsub (wsub (wadd (s + str.bytes.length) 1) s) 1 = str.bytes.length := by
    unfold wsub wadd wordSize
    omega
  have hloop : ReadsWithin s (s + str.bytes.length) (strlenLoop mem wordSize s) (wadd (s + str.bytes.length) 1) :=
    strlenLoop_reads h (Nat.zero_le _) (by simp only [wordSize]; omega)
  refine hloop.bind ?_
  rw [hlen]
  exact .pure _

/-- The loop of `strchrnul` stops at a character that comes first. -/
lemma strchrnulLoop_reads (h : StringAt mem s str) {u : UInt8} {turns i j : Nat} (hij : i ≤ j)
    (hj : j < str.bytes.length) (hfound : mem (s + j) = u) (hbefore : ∀ k < j, mem (s + k) ≠ u)
    (hturns : j < i + turns) :
    ReadsWithin s (s + str.bytes.length) (strchrnulLoop mem s u turns (s + i)) (s + j) := by
  have hfits := h.fits
  induction turns generalizing i with
  | zero => omega
  | succ turns ih =>
    refine .readChar le_rfl (by omega) ?_
    have hfirst : mem s ≠ 0 := h.ne_zero (i := 0) (by omega)
    rw [if_neg hfirst]
    refine .readChar (by omega) (by omega) ?_
    rcases Nat.lt_or_ge i j with hlt | hge
    · have hnext : wadd (s + i) 1 = s + (i + 1) := wadd_of_lt (by omega)
      rw [if_pos (hbefore i hlt), hnext]
      exact ih (by omega) (by omega)
    · obtain rfl : i = j := by omega
      rw [if_neg (not_not.mpr hfound)]
      exact .pure _

/-- In a string that is not empty the loop returns only where the character is. -/
lemma strchrnulLoop_found {u : UInt8} {turns p r : Nat} {reads reads' : List Nat} (hfirst : mem s ≠ 0)
    (hcall : strchrnulLoop mem s u turns p reads = (.ok r, reads')) : mem r = u := by
  induction turns generalizing p reads with
  | zero => cases hcall
  | succ turns ih =>
    obtain ⟨first, reads₁, hread, hcall⟩ := Call.ok_of_bind hcall
    obtain ⟨rfl, rfl⟩ : mem s = first ∧ s :: reads = reads₁ := by simpa [readChar] using hread
    rw [if_neg hfirst] at hcall
    obtain ⟨ch, reads₂, hread, hcall⟩ := Call.ok_of_bind hcall
    obtain ⟨rfl, rfl⟩ : mem p = ch ∧ p :: s :: reads = reads₂ := by simpa [readChar] using hread
    split_ifs at hcall with hch
    · exact ih hcall
    · obtain ⟨hr, -⟩ := Prod.mk.inj hcall
      obtain rfl := Except.ok.inj hr
      exact not_not.mp hch

/-- Where `strchrnul` returns the right position, `strchr` does too. -/
lemma strchr_reads (h : StringAt mem s str)
    (hnul : ReadsWithin s (s + str.bytes.length) (strchrnul mem s c) (s + str.bytes.idxOf (castU8 c))) :
    ReadsWithin s (s + str.bytes.length) (strchr mem s c)
      (if castU8 c ∈ str.bytes ++ [0] then s + str.bytes.idxOf (castU8 c) else 0) := by
  have hle : str.bytes.idxOf (castU8 c) ≤ str.bytes.length := List.idxOf_le_length
  refine hnul.bind (.readChar (by omega) (by omega) ?_)
  have hfound : mem (s + str.bytes.idxOf (castU8 c)) = castU8 c ↔ castU8 c ∈ str.bytes ++ [0] := by
    by_cases hmem : castU8 c ∈ str.bytes
    · exact iff_of_true (h.at_idxOf hmem) (List.mem_append_left _ hmem)
    · rw [List.idxOf_eq_length hmem, h.terminator, List.mem_append, List.mem_singleton, or_iff_right hmem]
      exact eq_comm
  simp only [hfound]
  exact .pure _

/-- The position for the terminator is found by `strlen`, and an empty string ends the loop at once. -/
lemma strchrnul_reads (h : StringAt mem s str) (hcases : castU8 c = 0 ∨ str.bytes = [] ∨ castU8 c ∈ str.bytes) :
    ReadsWithin s (s + str.bytes.length) (strchrnul mem s c) (s + str.bytes.idxOf (castU8 c)) := by
  have hfits := h.fits
  unfold strchrnul
  by_cases hzero : castU8 c = 0
  · rw [if_pos hzero, hzero, List.idxOf_eq_length str.noNul]
    refine (strlen_reads h).bind ?_
    rw [wadd_of_lt hfits]
    exact .pure _
  · rw [if_neg hzero]
    rcases (or_iff_right hzero).mp hcases with hempty | hmem
    · have hterm : mem s = 0 := by simpa [hempty] using h.terminator
      refine .readChar le_rfl (Nat.le_add_right _ _) ?_
      rw [if_pos hterm, hempty]
      exact .pure _
    · have hlt := List.idxOf_lt_length_of_mem hmem
      exact strchrnulLoop_reads h (Nat.zero_le _) hlt (h.at_idxOf hmem) (fun _ hk => h.before_idxOf hmem hk)
        (by simp only [wordSize]; omega)

/-- `strchrnul` and `strchr` stop at the terminator if and only if the character is the terminator, the string is empty
or the character is in the string. -/
theorem strchr_stops_iff (h : StringAt mem s str) :
    StopsAtTerminator mem s str c ↔ castU8 c = 0 ∨ str.bytes = [] ∨ castU8 c ∈ str.bytes := by
  constructor
  · intro hstops
    by_contra hnot
    push Not at hnot
    obtain ⟨hzero, hne, hmem⟩ := hnot
    have hpos : 0 < str.bytes.length := List.length_pos_iff.mpr hne
    obtain ⟨new, hcall, -⟩ := hstops.strchrnul []
    rw [strchrnul, if_neg hzero, List.idxOf_eq_length hmem] at hcall
    have hfound := strchrnulLoop_found (h.ne_zero (i := 0) hpos) hcall
    exact hzero (hfound.symm.trans h.terminator)
  · exact fun hcases => ⟨strchrnul_reads h hcases, strchr_reads h (strchrnul_reads h hcases)⟩

/-- `"hi"` at 16, with a `'b'` behind it. -/
def hiMem : Mem := fun a => if a = 16 then 104 else if a = 17 then 105 else if a = 20 then 98 else 0

/-- `"hi"`. -/
def hiString : CString := ⟨[104, 105], by decide⟩

lemma hiMem_string : StringAt hiMem 16 hiString := by
  refine ⟨by decide, fun i hi => ?_, by decide⟩
  have hlt : i < 2 := hi
  interval_cases i
  · rfl
  · rfl

/-- The `'i'` of `"hi"`. -/
theorem strchr_stops_iff_hi : StopsAtTerminator hiMem 16 hiString 105 :=
  (strchr_stops_iff hiMem_string).mpr (.inr (.inr (by decide)))

/-- `strchr` finds a `'b'` behind the terminator of `"hi"`. -/
theorem strchr_runs_past_terminator : StringAt hiMem 16 hiString ∧ (strchr hiMem 16 98 []).1 = .ok 20 ∧
    ¬StopsAtTerminator hiMem 16 hiString 98 := by
  have hrun : (strchr hiMem 16 98 []).1 = .ok 20 := by rfl
  refine ⟨hiMem_string, hrun, fun h => ?_⟩
  obtain ⟨new, hcall, -⟩ := h.strchr []
  rw [hcall] at hrun
  cases Except.ok.inj hrun

end KaworuOS.Proofs
