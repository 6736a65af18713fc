import KaworuOS.Proofs.Numerals
import KaworuOS.Proofs.Strtoul

/-!
# Printed numbers are read back

`strtoul` gives back what `__vsnprintf` has been given, for a decimal number modulo `2 ^ 64`. It stops where the number
ends, whatever white space is in front of it and whatever is behind it, unless that goes on like a number.
-/

namespace KaworuOS.Proofs
open Lib

/-- No digit and no letter comes next. -/
def Ends (rest : List UInt8) : Prop := ∀ ch, rest.head? = some ch → digitOf ch = none

/-- Behind its prefix the text is the number `n` and then `rest`. -/
structure SplitsAs (base : Int) (l : List UInt8) (n : Nat) (rest : List UInt8) : Prop where
  digits : digitsOf (splitBase base l).1 (splitBase base l).2 ≠ []
  value : Nat.ofDigits (splitBase base l).1.toNat (digitsOf (splitBase base l).1 (splitBase base l).2).reverse = n
  after : (splitBase base l).2.dropWhile (digitIn (splitBase base l).1) = rest

variable {base : Int} {b n d : Nat} {l rest spaces : List UInt8}

lemma digitOf_digitChar (hd : d < 16) : digitOf (digitChar d) = some d := by
  interval_cases d <;> rfl

lemma spaceChar_digitChar (hd : d < 16) : spaceChar (digitChar d) = false := by
  interval_cases d <;> rfl

lemma splitSign_digitChar (hd : d < 16) : splitSign (digitChar d :: l) = (false, digitChar d :: l) := by
  interval_cases d <;> rfl

/-- Digits of the base in front of something else. -/
lemma digits_split (hb : b ≤ 16) (hrest : Ends rest) (ds : List Nat) (hds : ∀ d ∈ ds, d < b) :
    digitsOf b (ds.map digitChar ++ rest) = ds ∧ (ds.map digitChar ++ rest).dropWhile (digitIn b) = rest := by
  induction ds with
  | nil =>
    cases rest with
    | nil => exact ⟨rfl, rfl⟩
    | cons ch rest =>
      have hout : ¬digitIn b ch = true := by
        unfold digitIn
        rw [hrest ch rfl]
        exact Bool.false_ne_true
      exact ⟨digitsOf_cons_neg hout, List.dropWhile_cons_of_neg hout⟩
  | cons d ds ih =>
    obtain ⟨hd, hds⟩ := List.forall_mem_cons.mp hds
    obtain ⟨ih1, ih2⟩ := ih hds
    have hdigit := digitOf_digitChar (hd.trans_le hb)
    have hlt : (d : Int) < b := Int.ofNat_lt.mpr hd
    constructor
    · rw [List.map_cons, List.cons_append, digitsOf_cons_pos hdigit hlt, ih1]
    · rw [List.map_cons, List.cons_append,
        List.dropWhile_cons_of_pos ((digitIn_of_digitOf hdigit).trans (decide_eq_true hlt)), ih2]

lemma numeral_split (hb : 1 < b) (hb' : b ≤ 16) (hrest : Ends rest) :
    digitsOf b (numeral b n ++ rest) = (numeralDigits b n).reverse ∧
      (numeral b n ++ rest).dropWhile (digitIn b) = rest :=
  digits_split hb' hrest _ fun _ hd => numeralDigits_lt hb (List.mem_reverse.mp hd)

lemma numeral_head (hb : 1 < b) : ∃ d l, numeral b n = digitChar d :: l ∧ d < b := by
  obtain ⟨ch, l, hl⟩ := List.exists_cons_of_ne_nil (@numeral_ne_nil b n)
  obtain ⟨d, hd, rfl⟩ := mem_numeral hb (hl ▸ List.mem_cons_self : ch ∈ numeral b n)
  exact ⟨d, l, hl, hd⟩

/-- A numeral has no prefix. -/
lemma hexPrefix_numeral (hb : 1 < b) (hb' : b ≤ 16) (hrest : Ends rest) :
    hexPrefix base (numeral b n ++ rest) = false := by
  obtain ⟨d, l, hl, -⟩ := numeral_head (b := b) (n := n) hb
  have hnext : ∀ ch, ((numeral b n ++ rest).tail.head? = some ch) → ch ≠ 120 ∧ ch ≠ 88 := by
    intro ch hch
    rw [hl] at hch
    cases l with
    | nil =>
      have hout := hrest ch hch
      constructor <;> rintro rfl <;> cases hout
    | cons ch' l =>
      obtain rfl := Option.some.inj hch
      obtain ⟨d', hd', rfl⟩ := mem_numeral hb (n := n) (hl ▸ List.mem_cons_of_mem _ List.mem_cons_self)
      have hdigit := digitOf_digitChar (hd'.trans_le hb')
      have h16 := hd'.trans_le hb'
      constructor
      · intro hx
        rw [hx] at hdigit
        obtain rfl : 33 = d' := Option.some.inj hdigit
        omega
      · intro hx
        rw [hx] at hdigit
        obtain rfl : 33 = d' := Option.some.inj hdigit
        omega
  refine decide_eq_false fun hand => ?_
  rcases hand.2.2 with hx | hx
  · exact (hnext _ hx).1 rfl
  · exact (hnext _ hx).2 rfl

/-- A numeral in its base. -/
lemma splitsAs_numeral (hb : 1 < b) (hb' : b ≤ 16) (hrest : Ends rest) : SplitsAs b (numeral b n ++ rest) n rest := by
  have hbase : splitBase b (numeral b n ++ rest) = ((b : Int), numeral b n ++ rest) := by
    rw [splitBase, hexPrefix_numeral hb hb' hrest, if_neg Bool.false_ne_true, if_neg (by omega)]
  obtain ⟨h1, h2⟩ := numeral_split (n := n) hb hb' hrest
  constructor
  · rw [hbase, h1]
    intro hnil
    exact @numeral_ne_nil b n (by rw [numeral, hnil]; rfl)
  · rw [hbase, h1, List.reverse_reverse, Int.toNat_natCast, ofDigits_numeralDigits]
  · rw [hbase]
    exact h2

/-- A decimal numeral whose base is not given. Only that of zero begins like an octal one. -/
lemma splitsAs_decimal (hrest : Ends rest) : SplitsAs 0 (numeral 10 n ++ rest) n rest := by
  by_cases hzero : (numeral 10 n).head? = some 48
  · have hdigits : numeral 10 n = [48] := numeral_noLeadingZero (by norm_num) (by norm_num) hzero
    have hn : n = 0 := by
      have hread := @readDigits_numeral 10 n (by norm_num) (by norm_num)
      rw [hdigits] at hread
      exact hread.symm
    obtain ⟨h1, h2⟩ := digits_split (b := 8) (by norm_num) hrest [0] (by decide)
    have hbase : splitBase 0 (numeral 10 n ++ rest) = (8, [48] ++ rest) := by
      rw [splitBase, hexPrefix_numeral (by norm_num) (by norm_num) hrest, if_neg Bool.false_ne_true, hdigits]
      rfl
    constructor <;> rw [hbase]
    · exact (congrArg (· ≠ []) h1).mpr (List.cons_ne_nil 0 [])
    · have hvalue : digitsOf 8 ([48] ++ rest) = [0] := h1
      rw [hvalue, hn]
      rfl
    · exact h2
  · have hfirst : ¬(numeral 10 n ++ rest).head? = some 48 := by
      rw [List.head?_append_of_ne_nil _ numeral_ne_nil]
      exact hzero
    have hbase : splitBase 0 (numeral 10 n ++ rest) = splitBase 10 (numeral 10 n ++ rest) := by
      have hprefix : ∀ base, hexPrefix base (numeral 10 n ++ rest) = false := fun _ =>
        hexPrefix_numeral (by norm_num) (by norm_num) hrest
      rw [splitBase, splitBase, hprefix, hprefix, if_neg Bool.false_ne_true, if_neg Bool.false_ne_true, if_pos rfl,
        if_neg hfirst, if_neg (by norm_num)]
    have hten := splitsAs_numeral (n := n) (b := 10) (by norm_num) (by norm_num) hrest
    constructor <;> rw [hbase]
    · exact hten.digits
    · exact hten.value
    · exact hten.after

/-- A pointer. -/
lemma splitsAs_pointer (hbase : base = 0 ∨ base = 16) (hrest : Ends rest) :
    SplitsAs base (48 :: 120 :: (numeral 16 n ++ rest)) n rest := by
  have hprefix : hexPrefix base (48 :: 120 :: (numeral 16 n ++ rest)) = true := decide_eq_true ⟨hbase, rfl, .inl rfl⟩
  have hsplit : splitBase base (48 :: 120 :: (numeral 16 n ++ rest)) = (((16 : Nat) : Int), numeral 16 n ++ rest) := by
    rw [splitBase, if_pos hprefix]
    rfl
  obtain ⟨h1, h2⟩ := numeral_split (b := 16) (n := n) (by norm_num) (by norm_num) hrest
  constructor <;> rw [hsplit]
  · rw [h1]
    intro hnil
    exact @numeral_ne_nil 16 n (by rw [numeral, hnil]; rfl)
  · rw [h1, List.reverse_reverse]
    exact ofDigits_numeralDigits
  · exact h2

/-- A number behind white space. -/
lemma scanNumber_of_splitsAs (neg : Bool) (sign : List UInt8) (hspaces : ∀ ch ∈ spaces, spaceChar ch = true)
    (hsign : (sign ++ l).dropWhile spaceChar = sign ++ l) (hneg : splitSign (sign ++ l) = (neg, l))
    (h : SplitsAs base l n rest) (hn : n < 2 ^ 64) :
    (scanNumber base (spaces ++ sign ++ l)).value = (if neg then (2 ^ 64 - n) % 2 ^ 64 else n) ∧
      (scanNumber base (spaces ++ sign ++ l)).stop
        (spaces ++ sign ++ l).length = (spaces ++ sign ++ l).length - rest.length := by
  have hdrop : (spaces ++ sign ++ l).dropWhile spaceChar = sign ++ l := by
    rw [List.append_assoc, List.dropWhile_append_of_pos hspaces, hsign]
  have hscan : scanNumber base (spaces ++ sign ++ l) = ⟨neg, (splitBase base l).1, (splitBase base l).2⟩ := by
    unfold scanNumber
    rw [hdrop, hneg]
  rw [hscan]
  constructor
  · have hmagnitude : (⟨neg, (splitBase base l).1, (splitBase base l).2⟩ : Scanned).magnitude = n := h.value
    rw [Scanned.value, hmagnitude, if_neg (Nat.not_lt.mpr (Nat.le_sub_one_of_lt hn))]
  · have hafter : (⟨neg, (splitBase base l).1, (splitBase base l).2⟩ : Scanned).after = rest := h.after
    have hdigits : ¬(⟨neg, (splitBase base l).1, (splitBase base l).2⟩ : Scanned).digits = [] := h.digits
    rw [Scanned.stop, if_neg hdigits, hafter]

/-- The bases in which a piece can be read, and its number as a word. -/
inductive Reads : Piece → Int → Nat → Prop
  | decimal (v : BitVec 32) {base : Int} (hbase : base = 0 ∨ base = 10) :
      Reads (.decimal v) base (v.toInt % 2 ^ 64).toNat
  | hex (v : BitVec 64) : Reads (.hex v) 16 v.toNat
  | pointer (v : BitVec 64) {base : Int} (hbase : base = 0 ∨ base = 16) : Reads (.pointer v) base v.toNat

/-- A number that begins with a digit. -/
lemma scanNumber_unsigned (hd : d < 16) (hspaces : ∀ ch ∈ spaces, spaceChar ch = true)
    (hhead : l.head? = some (digitChar d)) (h : SplitsAs base l n rest) (hn : n < 2 ^ 64) :
    (scanNumber base (spaces ++ l)).value = n ∧
      (scanNumber base (spaces ++ l)).stop (spaces ++ l).length = (spaces ++ l).length - rest.length := by
  obtain ⟨l', rfl⟩ := List.head?_eq_some_iff.mp hhead
  have hspace : ¬spaceChar (digitChar d) = true := by
    rw [spaceChar_digitChar hd]
    exact Bool.false_ne_true
  have hscan := scanNumber_of_splitsAs false [] hspaces (List.dropWhile_cons_of_neg hspace)
    (splitSign_digitChar hd) h hn
  rw [List.append_nil] at hscan
  exact hscan

/-- The same for any numeral. -/
lemma scanNumber_decimal {x : Int} (hbase : base = 0 ∨ base = 10) (hlo : -2 ^ 63 ≤ x) (hhi : x < 2 ^ 63)
    (hspaces : ∀ ch ∈ spaces, spaceChar ch = true) (hrest : Ends rest) :
    (scanNumber base (spaces ++ (intNumeral 10 x ++ rest))).value = (x % 2 ^ 64).toNat ∧
      (scanNumber base (spaces ++ (intNumeral 10 x ++ rest))).stop (spaces ++ (intNumeral 10 x ++ rest)).length =
        (spaces ++ (intNumeral 10 x ++ rest)).length - rest.length := by
  have hsplits : SplitsAs base (numeral 10 x.natAbs ++ rest) x.natAbs rest := by
    rcases hbase with rfl | rfl
    · exact splitsAs_decimal hrest
    · exact splitsAs_numeral (by norm_num) (by norm_num) hrest
  obtain ⟨d, l, hl, hd⟩ := numeral_head (b := 10) (n := x.natAbs) (by norm_num)
  have hhead : (numeral 10 x.natAbs ++ rest).head? = some (digitChar d) := by
    rw [hl]
    rfl
  have habs : x.natAbs < 2 ^ 64 := by omega
  unfold intNumeral
  by_cases hneg : x < 0
  · have hscan := scanNumber_of_splitsAs true [45] hspaces rfl rfl hsplits habs
    rw [if_pos hneg]
    rw [List.append_assoc] at hscan
    refine ⟨hscan.1.trans ?_, hscan.2⟩
    rw [if_pos rfl]
    omega
  · have hscan := scanNumber_unsigned (hd.trans (by norm_num)) hspaces hhead hsplits habs
    rw [if_neg hneg]
    refine ⟨hscan.1.trans ?_, hscan.2⟩
    omega

/-- The text of a piece is read as its number. -/
lemma Reads.scan {q : Piece} (h : Reads q base n) (hspaces : ∀ ch ∈ spaces, spaceChar ch = true) (hrest : Ends rest) :
    (scanNumber base (spaces ++ (q.text ++ rest))).value = n ∧
      (scanNumber base (spaces ++ (q.text ++ rest))).stop (spaces ++ (q.text ++ rest)).length =
        (spaces ++ (q.text ++ rest)).length - rest.length := by
  cases h with
  | decimal v hbase =>
    have hlo := BitVec.le_toInt v
    have hhi := BitVec.toInt_lt (x := v)
    exact scanNumber_decimal hbase (by omega) (by omega) hspaces hrest
  | hex v =>
    obtain ⟨d, l, hl, hd⟩ := numeral_head (b := 16) (n := v.toNat) (by norm_num)
    have hhead : (numeral 16 v.toNat ++ rest).head? = some (digitChar d) := by
      rw [hl]
      rfl
    exact scanNumber_unsigned hd hspaces hhead (splitsAs_numeral (by norm_num) (by norm_num) hrest) v.isLt
  | pointer v hbase =>
    have hhead : (48 :: 120 :: (numeral 16 v.toNat ++ rest)).head? = some (digitChar 0) := rfl
    exact scanNumber_unsigned (by norm_num) hspaces hhead (splitsAs_pointer hbase hrest) v.isLt

/-- **Printed numbers are read back.** What `__vsnprintf` has printed for a number, `strtoul` reads as that number, and
it stops behind it. -/
theorem printed_number_is_read_back {printDouble : BitVec 64 → PrintBuffer → Except Halt PrintBuffer} {q : Piece}
    {buffer : List UInt8} {fmt str : CString} {ap : List VaArg} {len s : Nat} {buf : PrintBuffer} {mem : Mem}
    (hq : Reads q base n) (hfmt : pieces fmt.bytes ap = some [q])
    (hprint : vsnprintf printDouble buffer buffer.length fmt ap = .ok (len, buf))
    (hspaces : ∀ ch ∈ spaces, spaceChar ch = true) (hrest : Ends rest)
    (hstr : str.bytes = spaces ++ (buf.bytes.take len ++ rest)) (h : StringAt mem s str) :
    ReadsWithin s (s + str.bytes.length) (strtoul mem s base) (n, s + (spaces.length + len)) := by
  obtain ⟨-, hlen, htext⟩ := (vsnprintf_prints hfmt).2 len buf hprint
  rw [List.flatMap_singleton] at hlen htext
  have hbase : base ≤ 2 ^ 31 := by
    cases hq with
    | decimal v hbase => omega
    | hex v => norm_num
    | pointer v hbase => omega
  obtain ⟨hvalue, hstop⟩ := hq.scan hspaces hrest
  rw [htext] at hstr
  have hend : (scanNumber base str.bytes).stop str.bytes.length = spaces.length + len := by
    rw [hstr, hstop, hlen, List.length_append, List.length_append]
    omega
  have hread := strtoul_reads_number h hbase
  rw [hend, hstr, hvalue] at hread
  rw [hstr]
  exact hread

/-- `" -7,"`. -/
def sevenText : CString := ⟨[32, 45, 55, 44], by decide⟩

/-- `-7` is printed, and read from the middle of a text. -/
theorem printed_number_is_read_back_seven :
    ReadsWithin 0x100 0x104 (strtoul (fun a => sevenText.bytes.getD (a - 0x100) 0) 0x100 0) (2 ^ 64 - 7, 0x103) := by
  have hstr : StringAt (fun a => sevenText.bytes.getD (a - 0x100) 0) 0x100 sevenText :=
    ⟨by decide, by decide, by decide⟩
  have hspaces : ∀ ch ∈ [32], spaceChar ch = true := by
    intro ch hch
    obtain rfl := List.mem_singleton.mp hch
    decide
  have hrest : Ends [44] := by
    intro ch hch
    obtain rfl := Option.some.inj hch
    decide
  have hprint : vsnprintf (fun _ b => .ok b) [0, 0, 0, 0] [0, 0, 0, 0].length ⟨[37, 100], by decide⟩ [.i32 (-7)] =
      .ok (2, ⟨[45, 55, 0, 0], 2⟩) := rfl
  exact printed_number_is_read_back (Reads.decimal (-7) (.inl rfl)) rfl hprint hspaces hrest rfl hstr

end KaworuOS.Proofs
