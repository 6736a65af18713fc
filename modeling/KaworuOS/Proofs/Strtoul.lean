import KaworuOS.Lib.Saturate
import KaworuOS.Proofs.Strchr
import KaworuOS.Strtoul
import Mathlib.Data.List.TakeWhile

/-!
# What `strtoul` reads

The specification takes the text apart from left to right: spaces, a sign, the prefix of the base, and digits. What is
left of the text tells where the code is, because its two variables are the first character of it and the position
behind that.
-/

namespace KaworuOS.Proofs
open Lib

/-- White space. -/
def spaceChar (ch : UInt8) : Bool := decide (ch = 32 ∨ (9 ≤ ch ∧ ch ≤ 13))

/-- The value of a digit or a letter. -/
def digitOf (ch : UInt8) : Option Nat :=
  if 48 ≤ ch ∧ ch ≤ 57 then some (ch.toNat - 48)
  else if 65 ≤ ch ∧ ch ≤ 90 then some (ch.toNat - 55)
  else if 97 ≤ ch ∧ ch ≤ 122 then some (ch.toNat - 87)
  else none

/-- The character is a digit of the base. -/
def digitIn (base : Int) (ch : UInt8) : Bool := (digitOf ch).any fun d : Nat => decide ((d : Int) < base)

/-- The values of the digits that come first. -/
def digitsOf (base : Int) (l : List UInt8) : List Nat := (l.takeWhile (digitIn base)).filterMap digitOf

/-- Whether there is a minus sign, and what comes behind a sign. -/
def splitSign : List UInt8 → Bool × List UInt8
  | ch :: l => if ch = 45 then (true, l) else if ch = 43 then (false, l) else (false, ch :: l)
  | [] => (false, [])

/-- A text begins with the prefix of hexadecimal numbers. -/
def hexPrefix (base : Int) (l : List UInt8) : Bool :=
  decide ((base = 0 ∨ base = 16) ∧ l.head? = some 48 ∧ (l.tail.head? = some 120 ∨ l.tail.head? = some 88))

/-- The base of a number, and what comes behind the prefix. -/
def splitBase (base : Int) (l : List UInt8) : Int × List UInt8 :=
  if hexPrefix base l then (16, l.drop 2) else (if base = 0 then if l.head? = some 48 then 8 else 10 else base, l)

/-- A number with its sign in front of the rest of the text. -/
structure Scanned where
  neg : Bool
  base : Int
  number : List UInt8

/-- Takes a text apart. -/
def scanNumber (base : Int) (text : List UInt8) : Scanned :=
  let (neg, l) := splitSign (text.dropWhile spaceChar)
  let (base, l) := splitBase base l
  ⟨neg, base, l⟩

namespace Scanned

/-- The digits. -/
def digits (p : Scanned) : List Nat := digitsOf p.base p.number

/-- What is behind them. -/
def after (p : Scanned) : List UInt8 := p.number.dropWhile (digitIn p.base)

/-- The number without its sign. -/
def magnitude (p : Scanned) : Nat := Nat.ofDigits p.base.toNat p.digits.reverse

/-- The number modulo `2 ^ 64`, or the greatest word if it does not fit without its sign. -/
def value (p : Scanned) : Nat :=
  if ULONG_MAX < p.magnitude then ULONG_MAX else if p.neg then (2 ^ 64 - p.magnitude) % 2 ^ 64 else p.magnitude

/-- The end of the number in a text of the given length, or its beginning if there are no digits. -/
def stop (p : Scanned) (length : Nat) : Nat := if p.digits = [] then 0 else length - p.after.length

end Scanned

variable {mem : Mem} {e lo p : Nat} {base : Int} {l l' : List UInt8} {ch : UInt8}

section Char

lemma forall_char {P : UInt8 → Prop} (h : ∀ n < 256, P (UInt8.ofNat n)) (ch : UInt8) : P ch := by
  have hch := h ch.toNat ch.toNat_lt
  rwa [UInt8.ofNat_toNat] at hch

lemma isspace_castI32 (ch : UInt8) : isspace (castI32 ch) = spaceChar ch :=
  forall_char (P := fun ch => isspace (castI32 ch) = spaceChar ch) (by decide +kernel) ch

lemma strtoulDigit_castI32 (ch : UInt8) : strtoulDigit (castI32 ch) = (digitOf ch).map (BitVec.ofNat 32) :=
  forall_char (P := fun ch => strtoulDigit (castI32 ch) = (digitOf ch).map (BitVec.ofNat 32)) (by decide +kernel) ch

lemma digitOf_lt {d : Nat} (h : digitOf ch = some d) : d < 36 := by
  have hall : (digitOf ch).all (fun d => d < 36) = true :=
    forall_char (P := fun ch => (digitOf ch).all (fun d => d < 36) = true) (by decide +kernel) ch
  rw [h] at hall
  exact of_decide_eq_true hall

lemma castI32_eq_iff {a : UInt8} : castI32 ch = castI32 a ↔ ch = a := by
  refine ⟨fun h => ?_, fun h => congrArg _ h⟩
  have hnat := congrArg BitVec.toNat h
  have h1 := ch.toNat_lt
  have h2 := a.toNat_lt
  simp only [castI32, BitVec.toNat_ofNat] at hnat
  rw [Nat.mod_eq_of_lt (by omega), Nat.mod_eq_of_lt (by omega)] at hnat
  exact UInt8.toNat_inj.mp hnat

end Char

/-- The rest of a string that ends at `e` is at `p`. -/
structure Rest (mem : Mem) (e : Nat) (l : List UInt8) (p : Nat) : Prop where
  pos : p + l.length = e
  bytes : ∀ i, i < l.length → l[i]? = some (mem (p + i))
  terminator : mem e = 0
  fits : e < 2 ^ 64

namespace Rest

lemma head (h : Rest mem e l p) : mem p = l.headD 0 := by
  cases l with
  | nil =>
    have hpos : p = e := h.pos
    rw [hpos]
    exact h.terminator
  | cons ch l =>
    have hbyte := h.bytes 0 (Nat.succ_pos _)
    exact (Option.some.inj hbyte).symm

lemma tail (h : Rest mem e (ch :: l) p) : Rest mem e l (p + 1) := by
  have hpos := h.pos
  rw [List.length_cons] at hpos
  refine ⟨by omega, fun i hi => ?_, h.terminator, h.fits⟩
  have hbyte := h.bytes (i + 1) (Nat.succ_lt_succ hi)
  rw [List.getElem?_cons_succ] at hbyte
  rw [hbyte, Nat.add_assoc, Nat.add_comm 1 i]

lemma le (h : Rest mem e l p) : p ≤ e := Nat.le.intro h.pos

lemma next (h : Rest mem e (ch :: l) p) : wadd p 1 = p + 1 := by
  have hle := h.tail.le
  have hfits := h.fits
  exact wadd_of_lt (by omega)

/-- `c = *s++` at the rest of a string. -/
lemma nextChar (h : Rest mem e l p) (hlo : lo ≤ p) :
    ReadsWithin lo e (nextChar mem p) (castI32 (l.headD 0), wadd p 1) := by
  refine .readChar hlo h.le ?_
  rw [h.head]
  exact .pure _

end Rest

/-- The first loop skips white space. -/
lemma strtoulSpaces_reads {turns : Nat} (h : Rest mem e l p) (hlo : lo ≤ p) (hturns : l.length < turns) :
    ∃ p', Rest mem e (l.dropWhile spaceChar) p' ∧ lo ≤ p' ∧
      ReadsWithin lo e (strtoulSpaces mem turns p) (castI32 ((l.dropWhile spaceChar).headD 0), wadd p' 1) := by
  induction l generalizing p turns with
  | nil =>
    obtain ⟨turns, rfl⟩ := Nat.exists_eq_add_one_of_ne_zero (Nat.ne_of_gt hturns)
    refine ⟨p, h, hlo, (h.nextChar hlo).bind ?_⟩
    exact .pure _
  | cons ch l ih =>
    obtain ⟨turns, rfl⟩ := Nat.exists_eq_add_one_of_ne_zero (Nat.ne_of_gt (Nat.zero_lt_of_lt hturns))
    have hspace : isspace (castI32 ((ch :: l).headD 0)) = spaceChar ch := isspace_castI32 ch
    by_cases hch : spaceChar ch = true
    · obtain ⟨p', hrest, hlo', hreads⟩ := ih h.tail (Nat.le_add_right_of_le hlo) (Nat.lt_of_succ_lt_succ hturns)
      rw [List.dropWhile_cons_of_pos hch]
      refine ⟨p', hrest, hlo', (h.nextChar hlo).bind ?_⟩
      dsimp only
      rw [hspace, if_pos hch, h.next]
      exact hreads
    · rw [List.dropWhile_cons_of_neg hch]
      refine ⟨p, h, hlo, (h.nextChar hlo).bind ?_⟩
      dsimp only
      rw [hspace, if_neg hch]
      exact .pure _

/-- The sign. -/
lemma strtoulSign_reads (h : Rest mem e l p) (hlo : lo ≤ p) : ∃ p', Rest mem e (splitSign l).2 p' ∧ lo ≤ p' ∧
    ReadsWithin lo e (strtoulSign mem (castI32 (l.headD 0)) (wadd p 1))
      ((splitSign l).1, castI32 ((splitSign l).2.headD 0), wadd p' 1) := by
  cases l with
  | nil => exact ⟨p, h, hlo, .pure _⟩
  | cons ch l =>
    have hminus : castI32 ch = 45 ↔ ch = 45 := castI32_eq_iff (a := 45)
    have hplus : castI32 ch = 43 ↔ ch = 43 := castI32_eq_iff (a := 43)
    have hsplit : splitSign (ch :: l) = if ch = 45 then (true, l) else if ch = 43 then (false, l) else (false,
      ch :: l) :=
      rfl
    rw [strtoulSign, hsplit, List.headD_cons, if_congr hminus rfl (if_congr hplus rfl rfl), h.next]
    by_cases h1 : ch = 45
    · rw [if_pos h1, if_pos h1]
      exact ⟨p + 1, h.tail, Nat.le_add_right_of_le hlo, (h.tail.nextChar (Nat.le_add_right_of_le hlo)).bind (.pure _)⟩
    · rw [if_neg h1, if_neg h1]
      by_cases h2 : ch = 43
      · rw [if_pos h2, if_pos h2]
        exact ⟨p + 1, h.tail, Nat.le_add_right_of_le hlo, (h.tail.nextChar (Nat.le_add_right_of_le hlo)).bind (.pure _)⟩
      · rw [if_neg h2, if_neg h2, ← h.next]
        exact ⟨p, h, hlo, .pure _⟩

lemma strtoulHex_reads (h : Rest mem e l p) (hlo : lo ≤ p) :
    ReadsWithin lo e (strtoulHex mem base (castI32 (l.headD 0)) (wadd p 1)) (hexPrefix base l) := by
  have hzero : castI32 (l.headD 0) = 48 ↔ l.head? = some 48 := by
    cases l with
    | nil => decide
    | cons ch l => exact (castI32_eq_iff (a := 48)).trans (Option.some_inj (b := 48)).symm
  unfold strtoulHex hexPrefix
  rw [if_congr (and_congr_right' hzero) rfl rfl]
  by_cases hfirst : (base = 0 ∨ base = 16) ∧ l.head? = some 48
  · rw [if_pos hfirst]
    cases l with
    | nil => cases hfirst.2
    | cons ch l =>
      rw [h.next]
      refine .readChar (Nat.le_add_right_of_le hlo) h.tail.le ?_
      have hx : ∀ x : UInt8, x ≠ 0 → (l.headD 0 = x ↔ l.head? = some x) := by
        intro x hx
        cases l with
        | nil => exact iff_of_false hx.symm (by simp)
        | cons y l => exact (Option.some_inj (a := y)).symm
      have hsame : decide (mem (p + 1) = 120 ∨ mem (p + 1) = 88) = decide ((base = 0 ∨ base = 16) ∧
          (ch :: l).head? = some 48 ∧ ((ch :: l).tail.head? = some 120 ∨ (ch :: l).tail.head? = some 88)) := by
        rw [h.tail.head, decide_eq_decide, hx 120 (by decide), hx 88 (by decide)]
        exact ⟨fun hor => ⟨hfirst.1, hfirst.2, hor⟩, fun hand => hand.2.2⟩
      rw [hsame]
      exact .pure _
  · rw [if_neg hfirst, decide_eq_false (fun hand => hfirst ⟨hand.1, hand.2.1⟩)]
    exact .pure _

/-- The prefix of the base. -/
lemma strtoulBase_reads (h : Rest mem e l p) (hlo : lo ≤ p) : ∃ p', Rest mem e (splitBase base l).2 p' ∧ lo ≤ p' ∧
    ReadsWithin lo e (strtoulBase mem base (castI32 (l.headD 0)) (wadd p 1))
      ((splitBase base l).1, castI32 ((splitBase base l).2.headD 0), wadd p' 1) := by
  have hhex : ReadsWithin lo e (strtoulHex mem base (castI32 (l.headD 0)) (wadd p 1)) (hexPrefix base l) :=
    strtoulHex_reads h hlo
  unfold splitBase
  by_cases hpre : hexPrefix base l = true
  · obtain ⟨-, hfirst, hsecond⟩ := of_decide_eq_true hpre
    obtain ⟨l₁, rfl⟩ : ∃ l₁, l = 48 :: l₁ := List.head?_eq_some_iff.mp hfirst
    obtain ⟨x, l₂, rfl⟩ : ∃ x l₂, l₁ = x :: l₂ :=
      hsecond.elim (fun hx => ⟨_, List.head?_eq_some_iff.mp hx⟩) (fun hx => ⟨_, List.head?_eq_some_iff.mp hx⟩)
    have hrest := h.tail.tail
    have hlo' : lo ≤ p + 1 + 1 := Nat.le_add_right_of_le (Nat.le_add_right_of_le hlo)
    have htwo : wadd (wadd p 1) 2 = wadd (p + 1 + 1) 1 := by
      rw [h.next]
      rfl
    rw [if_pos hpre]
    refine ⟨p + 1 + 1, hrest, hlo', hhex.bind ?_⟩
    rw [if_pos hpre, htwo, h.next, h.tail.next]
    refine .readChar hlo' hrest.le ?_
    rw [hrest.head]
    exact .pure _
  · rw [if_neg hpre]
    refine ⟨p, h, hlo, hhex.bind ?_⟩
    have hzero : castI32 (l.headD 0) = 48 ↔ l.head? = some 48 := by
      cases l with
      | nil => decide
      | cons ch l => exact (castI32_eq_iff (a := 48)).trans (Option.some_inj (b := 48)).symm
    have hbase : (if base = 0 then if castI32 (l.headD 0) = 48 then 8 else 10 else base) =
        if base = 0 then if l.head? = some 48 then 8 else 10 else base := by
      rw [if_congr hzero rfl rfl]
    rw [if_neg hpre, hbase]
    exact .pure _

/-- The variables `acc` and `any` for a number that has been read so far, or that is too large. -/
def accumulated (started : Bool) : Option Nat → Nat × Int
  | none => (ULONG_MAX, -1)
  | some n => (n, if started then 1 else 0)

section Accumulate

variable {d : Nat}

lemma toInt_ofNat_small {n : Nat} (h : n < 2 ^ 31) : (BitVec.ofNat 32 n).toInt = n := by
  rw [BitVec.toInt_eq_toNat_of_lt] <;> rw [BitVec.toNat_ofNat] <;> omega

/-- What is done with a digit. -/
lemma strtoulAccumulate_eq (started : Bool) (o : Option Nat) (hbase : 0 < base) (hbase' : base ≤ 2 ^ 31)
    (hd : d < base.toNat) (hd' : d < 36) :
    strtoulAccumulate base (ULONG_MAX / castUsize base) (BitVec.ofNat 32 (ULONG_MAX % castUsize base))
      (accumulated started o).1 (accumulated started o).2 (BitVec.ofNat 32 d) =
    accumulated true (pushDigit ULONG_MAX base.toNat o d) := by
  have hcast : castUsize base = base.toNat := by
    unfold castUsize wordSize
    omega
  have hlim := Nat.mod_lt ULONG_MAX (show 0 < base.toNat by omega)
  have hcutlim : (BitVec.ofNat 32 (ULONG_MAX % base.toNat)).toInt = (ULONG_MAX % base.toNat : Nat) :=
    toInt_ofNat_small (by omega)
  have hdigit : (BitVec.ofNat 32 d).toInt = d := toInt_ofNat_small (by omega)
  have hword : castUsize (d : Int) = d := by
    unfold castUsize wordSize
    omega
  unfold strtoulAccumulate
  rw [hcast, hcutlim, hdigit, hword]
  simp only [Nat.cast_lt]
  cases o with
  | none => rfl
  | some n =>
    have hany : ¬(accumulated started (some n)).2 < 0 := by
      cases started with
      | false => exact Int.not_lt.mpr (Int.le_refl 0)
      | true => exact Int.not_lt.mpr Int.one_nonneg
    rw [if_neg hany, pushDigit, Option.bind_some]
    by_cases hover : ULONG_MAX / base.toNat < n ∨ (n = ULONG_MAX / base.toNat ∧ ULONG_MAX % base.toNat < d)
    · rw [if_pos hover]
      exact if_pos hover
    · have hle : n * base.toNat + d ≤ 2 ^ 64 - 1 := Nat.le_of_not_lt ((over_iff hd).not.mp hover)
      have hword : wadd (wmul n base.toNat) d = n * base.toNat + d := by
        rw [wmul, wordSize, Nat.mod_eq_of_lt (by omega)]
        exact wadd_of_lt (by omega)
      rw [if_neg hover]
      refine (if_neg hover).trans ?_
      show (wadd (wmul n base.toNat) d, (1 : Int)) = _
      rw [hword]
      rfl

end Accumulate

section Loop

variable {turns s acc cutoff d : Nat} {any : Int} {cutlim : BitVec 32}

lemma digitIn_of_digitOf (hd : digitOf ch = some d) : digitIn base ch = decide ((d : Int) < base) := by
  unfold digitIn
  rw [hd]
  rfl

lemma digitsOf_cons_pos (hd : digitOf ch = some d) (hlt : (d : Int) < base) :
    digitsOf base (ch :: l) = d :: digitsOf base l := by
  have hin : digitIn base ch = true := (digitIn_of_digitOf hd).trans (decide_eq_true hlt)
  rw [digitsOf, List.takeWhile_cons_of_pos hin, List.filterMap_cons_some hd]
  rfl

lemma digitsOf_cons_neg (hin : ¬digitIn base ch = true) : digitsOf base (ch :: l) = [] := by
  rw [digitsOf, List.takeWhile_cons_of_neg hin]
  rfl

/-- A digit of the base is accumulated. -/
lemma strtoulLoop_pos (hd : digitOf ch = some d) (hlt : (d : Int) < base) :
    strtoulLoop mem base cutoff cutlim (turns + 1) (castI32 ch) s acc any = nextChar mem s >>= fun next =>
      strtoulLoop mem base cutoff cutlim turns next.1 next.2
        (strtoulAccumulate base cutoff cutlim acc any (BitVec.ofNat 32 d)).1
        (strtoulAccumulate base cutoff cutlim acc any (BitVec.ofNat 32 d)).2 := by
  have hsmall : (BitVec.ofNat 32 d).toInt = d := toInt_ofNat_small (Nat.lt_trans (digitOf_lt hd) (by norm_num))
  rw [strtoulLoop, strtoulDigit_castI32, hd]
  simp only [Option.map_some]
  rw [hsmall, if_neg (Int.not_le.mpr hlt)]

/-- Anything else ends the loop. -/
lemma strtoulLoop_neg (hin : ¬digitIn base ch = true) :
    strtoulLoop mem base cutoff cutlim (turns + 1) (castI32 ch) s acc any = pure (acc, any, s) := by
  rw [strtoulLoop, strtoulDigit_castI32]
  cases hd : digitOf ch with
  | none => rfl
  | some d =>
    have hsmall : (BitVec.ofNat 32 d).toInt = d := toInt_ofNat_small (Nat.lt_trans (digitOf_lt hd) (by norm_num))
    rw [digitIn_of_digitOf hd, decide_eq_true_iff] at hin
    simp only [Option.map_some]
    rw [hsmall, if_pos (Int.not_lt.mp hin)]

/-- What the second loop returns: the number, and the position behind its digits. -/
def loopResult (base : Int) (l : List UInt8) (started : Bool) (o : Option Nat) (p : Nat) : Nat × Int × Nat :=
  let acc := accumulated (started || decide (digitsOf base l ≠ []))
    ((digitsOf base l).foldl (pushDigit ULONG_MAX base.toNat) o)
  (acc.1, acc.2, wadd p 1)

/-- The second loop reads the digits that come first, and the character behind them. -/
lemma strtoulLoop_reads (started : Bool) (o : Option Nat) (hbase : base ≤ 2 ^ 31) (h : Rest mem e l p)
    (hlo : lo ≤ p) (hturns : l.length < turns) : ∃ p', Rest mem e (l.dropWhile (digitIn base)) p' ∧ ReadsWithin lo e
      (strtoulLoop mem base (ULONG_MAX / castUsize base) (BitVec.ofNat 32 (ULONG_MAX % castUsize base)) turns
        (castI32 (l.headD 0)) (wadd p 1) (accumulated started o).1 (accumulated started o).2)
      (loopResult base l started o p') := by
  induction l generalizing p turns started o with
  | nil =>
    obtain ⟨turns, rfl⟩ := Nat.exists_eq_add_one_of_ne_zero (Nat.ne_of_gt hturns)
    refine ⟨p, h, ?_⟩
    have hresult : loopResult base [] started o
      p = ((accumulated started o).1, (accumulated started o).2, wadd p 1) := by
      unfold loopResult
      simp [digitsOf]
    rw [hresult]
    exact .pure _
  | cons ch l ih =>
    obtain ⟨turns, rfl⟩ := Nat.exists_eq_add_one_of_ne_zero (Nat.ne_of_gt (Nat.zero_lt_of_lt hturns))
    rw [List.headD_cons]
    by_cases hin : digitIn base ch = true
    · obtain ⟨d, hd⟩ : ∃ d, digitOf ch = some d := by
        cases hd : digitOf ch with
        | none =>
          rw [digitIn, hd] at hin
          cases hin
        | some d => exact ⟨d, rfl⟩
      have hlt : (d : Int) < base := of_decide_eq_true ((digitIn_of_digitOf hd).symm.trans hin)
      have hstep := strtoulAccumulate_eq started o (by omega) hbase (by omega) (digitOf_lt hd)
      obtain ⟨p', hrest, hreads⟩ := ih true (pushDigit ULONG_MAX base.toNat o d) h.tail (Nat.le_add_right_of_le hlo)
        (Nat.lt_of_succ_lt_succ hturns)
      rw [List.dropWhile_cons_of_pos hin]
      refine ⟨p', hrest, ?_⟩
      have hresult : loopResult base (ch :: l) started o p' =
          loopResult base l true (pushDigit ULONG_MAX base.toNat o d) p' := by
        unfold loopResult
        rw [digitsOf_cons_pos hd hlt]
        simp
      rw [hresult, strtoulLoop_pos hd hlt, hstep, h.next]
      exact (h.tail.nextChar (Nat.le_add_right_of_le hlo)).bind hreads
    · rw [List.dropWhile_cons_of_neg hin]
      refine ⟨p, h, ?_⟩
      have hresult : loopResult base (ch :: l) started o p =
          ((accumulated started o).1, (accumulated started o).2, wadd p 1) := by
        unfold loopResult
        rw [digitsOf_cons_neg hin]
        simp
      rw [hresult, strtoulLoop_neg hin]
      exact .pure _

end Loop

lemma digitsOf_lt : ∀ d ∈ digitsOf base l, d < base.toNat := by
  intro d hd
  obtain ⟨ch, hch, hdigit⟩ := List.mem_filterMap.mp hd
  have hin : digitIn base ch = true := List.mem_takeWhile_imp hch
  have hlt : (d : Int) < base := of_decide_eq_true ((digitIn_of_digitOf hdigit).symm.trans hin)
  omega

lemma splitBase_le (hbase : base ≤ 2 ^ 31) : (splitBase base l).1 ≤ 2 ^ 31 := by
  unfold splitBase
  split_ifs <;> first | exact hbase | norm_num

/-- The number with its sign, from the two variables. -/
lemma accumulated_value (q : Scanned) :
    (if q.neg = true ∧ 0 < (loopResult q.base q.number false (some 0) p).2.1
      then wsub 0 (loopResult q.base q.number false (some 0) p).1
      else (loopResult q.base q.number false (some 0) p).1) = q.value := by
  have hmagnitude : horner q.base.toNat 0 (digitsOf q.base q.number) = q.magnitude := horner_zero
  unfold loopResult
  rw [foldl_pushDigit (Nat.zero_le _) digitsOf_lt, hmagnitude, Bool.false_or, Scanned.value]
  by_cases hover : ULONG_MAX < q.magnitude
  · rw [if_neg (Nat.not_le_of_lt hover), if_pos hover]
    simp [accumulated]
  · rw [if_pos (Nat.le_of_not_lt hover), if_neg hover]
    by_cases hdigits : digitsOf q.base q.number = []
    · have hzero : q.magnitude = 0 := by
        rw [← hmagnitude, hdigits]
        rfl
      simp [accumulated, hdigits, hzero]
    · cases hneg : q.neg with
      | false => simp [accumulated]
      | true =>
        simp only [accumulated, ne_eq, hdigits, not_false_eq_true, decide_true, if_true, Int.one_pos, and_self]
        rw [wsub, Nat.zero_add]

/-- There is a number if and only if there are digits. -/
lemma accumulated_any (q : Scanned) : (loopResult q.base q.number false (some 0) p).2.1 ≠ 0 ↔ q.digits ≠ [] := by
  unfold loopResult Scanned.digits
  rw [foldl_pushDigit (Nat.zero_le _) digitsOf_lt, Bool.false_or]
  split_ifs with hle
  · by_cases hdigits : digitsOf q.base q.number = [] <;> simp [accumulated, hdigits]
  · have hne : digitsOf q.base q.number ≠ [] := by
      intro hnil
      rw [hnil] at hle
      exact hle (Nat.zero_le _)
    simp [accumulated, hne]

/-- **`strtoul`.** It returns the number that the text begins with and the end of it, and reads no byte behind the
terminator. -/
theorem strtoul_reads_number {nptr : Nat} {str : CString} (h : StringAt mem nptr str) (hbase : base ≤ 2 ^ 31) :
    ReadsWithin nptr (nptr + str.bytes.length) (strtoul mem nptr base)
      ((scanNumber base str.bytes).value, nptr + (scanNumber base str.bytes).stop str.bytes.length) := by
  have hrest : Rest mem (nptr + str.bytes.length) str.bytes nptr := ⟨rfl, h.bytes, h.terminator, h.fits⟩
  have hfits := h.fits
  obtain ⟨p₁, hrest₁, hlo₁, hreads₁⟩ :=
    strtoulSpaces_reads hrest (Nat.le_refl nptr) (show str.bytes.length < wordSize by
    unfold wordSize
    omega)
  obtain ⟨p₂, hrest₂, hlo₂, hreads₂⟩ := strtoulSign_reads hrest₁ hlo₁
  obtain ⟨p₃, hrest₃, hlo₃, hreads₃⟩ : ∃ p', Rest mem _ (splitBase base _).2 p' ∧ nptr ≤ p' ∧ ReadsWithin nptr _
      (strtoulBase mem base _ _) _ := strtoulBase_reads hrest₂ hlo₂
  have hlength : (splitBase base (splitSign (str.bytes.dropWhile spaceChar)).2).2.length < wordSize := by
    have hpos := hrest₃.pos
    unfold wordSize
    omega
  obtain ⟨p₄, hrest₄, hreads₄⟩ := strtoulLoop_reads false (some 0) (splitBase_le hbase) hrest₃ hlo₃ hlength
  refine hreads₁.bind (hreads₂.bind (hreads₃.bind (hreads₄.bind ?_)))
  have hstop : (if (loopResult (scanNumber base str.bytes).base (scanNumber base str.bytes).number false
    (some 0) p₄).2.1 ≠ 0
      then wsub (wadd p₄ 1) 1 else nptr) = nptr + (scanNumber base str.bytes).stop str.bytes.length := by
    rw [if_congr (accumulated_any _) rfl rfl, Scanned.stop]
    by_cases hdigits : (scanNumber base str.bytes).digits = []
    · rw [if_pos hdigits, if_neg (not_not.mpr hdigits), Nat.add_zero]
    · have hnumber : p₃ + (scanNumber base str.bytes).number.length = nptr + str.bytes.length := hrest₃.pos
      have hafter : p₄ + (scanNumber base str.bytes).after.length = nptr + str.bytes.length := hrest₄.pos
      have hle : (scanNumber base str.bytes).after.length ≤ (scanNumber base str.bytes).number.length :=
        List.length_dropWhile_le _ _
      rw [if_neg hdigits, if_pos hdigits]
      unfold wsub wadd wordSize
      omega
  have hvalue := accumulated_value (p := p₄) (scanNumber base str.bytes)
  rw [← hvalue, ← hstop]
  exact .pure _

/-- `" -0x1Fz"`. -/
def hexText : CString := ⟨[32, 45, 48, 120, 49, 70, 122], by decide⟩

/-- A negative number in base 16, with a letter behind it that is no digit. -/
theorem strtoul_reads_number_hex :
    ReadsWithin 0x100 0x107 (strtoul (fun a => hexText.bytes.getD (a - 0x100) 0) 0x100 0) (2 ^ 64 - 31, 0x106) := by
  have hstr : StringAt (fun a => hexText.bytes.getD (a - 0x100) 0) 0x100 hexText := ⟨by decide, by decide, by decide⟩
  exact strtoul_reads_number hstr (by norm_num)

end KaworuOS.Proofs
