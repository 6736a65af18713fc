import KaworuOS.Proofs.PrintInt

/-!
# Formats as lists of pieces

A format with its arguments is a list of pieces. Every piece is printed by itself: what `__vsnprintf` does is what it
does for the pieces in order, and its check of the size is never true before a write behind the buffer.
-/

namespace KaworuOS.Proofs
open Lib

/-- A literal character or a conversion with its argument. -/
inductive Piece
  | literal (ch : UInt8)
  | decimal (v : BitVec 32)
  | hex (v : BitVec 64)
  | pointer (v : BitVec 64)
  | string (s : List UInt8)
  | char (v : BitVec 32)
  | bool (v : BitVec 32)
  | percent
  /-- A `%` in front of a character that is no conversion. -/
  | unknown (ch : UInt8)

/-- The piece for the character `ch` behind a `%`, and the arguments behind its own. -/
def conversion (ch : UInt8) (ap : List VaArg) : Option (Piece × List VaArg) :=
  if ch = 100 then
    match ap with
    | .i32 v :: ap => some (.decimal v, ap)
    | _ => none
  else if ch = 120 then
    match ap with
    | .i64 v :: ap => some (.hex v, ap)
    | _ => none
  else if ch = 102 then none
  else if ch = 112 then
    match ap with
    | .i64 v :: ap => some (.pointer v, ap)
    | _ => none
  else if ch = 115 then
    match ap with
    | .str s :: ap => some (.string ((s.map CString.bytes).getD nullText), ap)
    | _ => none
  else if ch = 99 then
    match ap with
    | .i32 v :: ap => some (.char v, ap)
    | _ => none
  else if ch = 98 then
    match ap with
    | .i32 v :: ap => some (.bool v, ap)
    | _ => none
  else if ch = 37 then some (.percent, ap)
  else some (.unknown ch, ap)

/-- The pieces of a format, if the arguments match its conversions and there is no `%f`. A `%` at its end is
nothing. -/
def pieces : List UInt8 → List VaArg → Option (List Piece)
  | [], _ => some []
  | [ch], _ => if ch = 37 then some [] else some [.literal ch]
  | ch :: ch' :: fmt, ap =>
    if ch = 37 then do
      let (p, ap) ← conversion ch' ap
      return p :: (← pieces fmt ap)
    else do return .literal ch :: (← pieces (ch' :: fmt) ap)

/-- What `__vsnprintf` does for a piece. -/
def Piece.print (b : PrintBuffer) : Piece → Except Halt PrintBuffer
  | literal ch => printLiteral b ch
  | decimal v => printInt b v.toInt 10 true
  | hex v => printInt b v.toInt 16 false
  | pointer v => do
    let b ← b.put 48
    let b ← b.put 120
    printInt b v.toInt 16 false
  | string s => printString b s
  | char v => b.put (UInt8.ofNat v.toNat)
  | bool v => printString b (if v ≠ 0 then trueText else falseText)
  | percent => b.put 37
  | unknown ch => do
    let b ← b.put 37
    b.put ch

/-- Every `'\\n'` with a `'\\r'` behind it. -/
def expand (s : List UInt8) : List UInt8 := s.flatMap fun ch => if ch = 10 then [10, 13] else [ch]

/-- The text that a piece stands for. -/
def Piece.render : Piece → List UInt8
  | literal ch => expand [ch]
  | decimal v => intNumeral 10 v.toInt
  | hex v => numeral 16 v.toNat
  | pointer v => 48 :: 120 :: numeral 16 v.toNat
  | string s => expand s
  | char v => [UInt8.ofNat v.toNat]
  | bool v => if v ≠ 0 then trueText else falseText
  | percent => [37]
  | unknown ch => [37, ch]

/-- The text that `__vsnprintf` leaves for a piece. -/
def Piece.text : Piece → List UInt8
  | string s => s
  | p => p.render

/-- How many bytes are written for a piece: the `'\\r'` for a newline at the end of a string is written behind the
text. -/
def Piece.room : Piece → Nat
  | string s => s.length + if s.getLast? = some 10 then 1 else 0
  | p => p.render.length

/-- Printing the piece does not come across a newline in front of other characters of a string. -/
def Piece.Plain : Piece → Prop
  | string s => 10 ∉ s.dropLast
  | _ => True

variable {printDouble : BitVec 64 → PrintBuffer → Except Halt PrintBuffer}

lemma printSpecifier_eq {b : PrintBuffer} {ch : UInt8} {ap ap' : List VaArg} {p : Piece}
    (h : conversion ch ap = some (p, ap')) :
    printSpecifier printDouble b ch ap = p.print b >>= fun b => .ok (b, ap') := by
  unfold conversion at h
  unfold printSpecifier
  split_ifs at h ⊢
  · split at h <;> cases h
    rfl
  · split at h <;> cases h
    rfl
  · split at h <;> cases h
    simp only [Piece.print, bind_assoc]
    rfl
  · split at h <;> cases h
    rfl
  · split at h <;> cases h
    rfl
  · split at h <;> cases h
    rfl
  · cases h
    rfl
  · cases h
    simp only [Piece.print, bind_assoc]
    rfl

/-- The buffer `b'` is `b` with `l` behind what has been printed. -/
structure Appends (b b' : PrintBuffer) (l : List UInt8) : Prop where
  length : b'.bytes.length = b.bytes.length
  count : b'.writeCount = b.writeCount + l.length
  text : b'.bytes.take b'.writeCount = b.bytes.take b.writeCount ++ l
  le : b'.writeCount ≤ b'.bytes.length

/-- The call prints `l` and writes up to `room` bytes. It returns if `P` holds and there is room for them. -/
structure Prints (b : PrintBuffer) (P : Prop) (room : Nat) (l : List UInt8) (x : Except Halt PrintBuffer) : Prop where
  guarded : Guarded .fault (P ∧ b.writeCount + room ≤ b.bytes.length) x
  appends : ∀ b', x = .ok b' → Appends b b' l

lemma Appends.refl {b : PrintBuffer} (h : b.writeCount ≤ b.bytes.length) : Appends b b [] :=
  ⟨rfl, rfl, (List.append_nil _).symm, h⟩

lemma Appends.trans {b b' b'' : PrintBuffer} {l l' : List UInt8} (h : Appends b b' l) (h' : Appends b' b'' l') :
    Appends b b'' (l ++ l') where
  length := h'.length.trans h.length
  count := by rw [h'.count, h.count, List.length_append, Nat.add_assoc]
  text := by rw [h'.text, h.text, List.append_assoc]
  le := h'.le

namespace Prints

variable {b : PrintBuffer} {P Q : Prop} {room room' : Nat} {l l' : List UInt8} {x : Except Halt PrintBuffer}

lemma congr (h : Prints b P room l x) (hPQ : P ↔ Q) (hroom : room = room') (hl : l = l') : Prints b Q room' l' x := by
  subst hroom hl
  exact ⟨h.guarded.congr (and_congr_left' hPQ), h.appends⟩

lemma ok (h : b.writeCount ≤ b.bytes.length) : Prints b True 0 [] (.ok b) :=
  ⟨(Guarded.ok b).congr ⟨fun _ => ⟨trivial, h⟩, fun _ => trivial⟩, fun _ hb' => Except.ok.inj hb' ▸ .refl h⟩

lemma congr_of_not (h : Prints b P room l x) (hP : ¬P) (hQ : ¬Q) : Prints b Q room' l' x := by
  rcases h.guarded with ⟨hn, -⟩ | ⟨-, rfl⟩
  · exact absurd hn.1 hP
  · exact ⟨.inr ⟨fun hn => hQ hn.1, rfl⟩, fun b' hb' => by cases hb'⟩

lemma fault : Prints b False room l (.error .fault) :=
  ⟨.inr ⟨fun hn => hn.1, rfl⟩, fun b' hb' => by cases hb'⟩

/-- The second call begins where the first one has stopped. -/
lemma bind {f : PrintBuffer → Except Halt PrintBuffer} (h : Prints b P room l x)
    (hf : ∀ b', Appends b b' l → Prints b' Q room' l' (f b')) :
    Prints b (P ∧ Q) (max room (l.length + room')) (l ++ l') (x >>= f) := by
  constructor
  · have hg : Guarded .fault ((P ∧ b.writeCount + room ≤ b.bytes.length) ∧
        (Q ∧ b.writeCount + (l.length + room') ≤ b.bytes.length)) (x >>= f) := by
      refine h.guarded.bind fun b' hb' => ?_
      have happ := h.appends b' hb'
      refine (hf b' happ).guarded.congr (and_congr_right' ?_)
      rw [happ.count, happ.length, Nat.add_assoc]
    refine hg.congr ⟨?_, ?_⟩
    · rintro ⟨⟨hP, h₁⟩, hQ, h₂⟩
      exact ⟨⟨hP, hQ⟩, by omega⟩
    · rintro ⟨⟨hP, hQ⟩, h⟩
      exact ⟨⟨hP, by omega⟩, hQ, by omega⟩
  · intro b'' hb''
    obtain ⟨b', hx, hfb⟩ := bind_eq_ok.mp hb''
    have happ := h.appends b' hx
    exact happ.trans ((hf b' happ).appends b'' hfb)

end Prints

variable {b : PrintBuffer}

lemma put_prints (b : PrintBuffer) (ch : UInt8) : Prints b True 1 [ch] (b.put ch) := by
  unfold PrintBuffer.put
  split
  next h =>
    refine ⟨.inl ⟨⟨trivial, h⟩, _, rfl⟩, fun b' hb' => ?_⟩
    obtain rfl := Except.ok.inj hb'
    refine ⟨List.length_set, rfl, ?_, ?_⟩
    · show (b.bytes.set b.writeCount ch).take (b.writeCount + 1) = _
      rw [List.take_succ_eq_append_getElem (by rwa [List.length_set]), List.getElem_set_self,
        List.take_set_of_le le_rfl]
    · show b.writeCount + 1 ≤ (b.bytes.set b.writeCount ch).length
      rw [List.length_set]
      exact h
  next h => exact ⟨.inr ⟨fun hn => h hn.2, rfl⟩, fun b' hb' => by cases hb'⟩

/-- A byte that is written behind the text does not belong to it. -/
lemma putAt_prints (b : PrintBuffer) (ch : UInt8) : Prints b True 1 [] (b.putAt ch) := by
  unfold PrintBuffer.putAt
  split
  next h =>
    refine ⟨.inl ⟨⟨trivial, h⟩, _, rfl⟩, fun b' hb' => ?_⟩
    obtain rfl := Except.ok.inj hb'
    refine ⟨List.length_set, rfl, ?_, ?_⟩
    · show (b.bytes.set b.writeCount ch).take b.writeCount = _
      rw [List.take_set_of_le le_rfl, List.append_nil]
    · show b.writeCount ≤ (b.bytes.set b.writeCount ch).length
      rw [List.length_set]
      exact h.le
  next h => exact ⟨.inr ⟨fun hn => h hn.2, rfl⟩, fun b' hb' => by cases hb'⟩

lemma putAll_prints (h : b.writeCount ≤ b.bytes.length) (l : List UInt8) : Prints b True l.length l (b.putAll l) := by
  induction l generalizing b with
  | nil => exact .ok h
  | cons ch l ih =>
    refine ((put_prints b ch).bind fun b' hb' => ih hb'.le).congr (and_self_iff) ?_ rfl
    simp only [List.length_cons, List.length_nil]
    omega

lemma printInt_signed_prints (h : b.writeCount ≤ b.bytes.length) (v : BitVec 32) :
    Prints b True (intNumeral 10 v.toInt).length (intNumeral 10 v.toInt) (printInt b v.toInt 10 true) := by
  have hlo := BitVec.le_toInt v
  have hhi := BitVec.toInt_lt (x := v)
  rw [printInt_eq_putAll (_printInt_signed (by omega) (by omega))]
  exact putAll_prints h _

lemma printInt_unsigned_prints (h : b.writeCount ≤ b.bytes.length) (v : BitVec 64) :
    Prints b True (numeral 16 v.toNat).length (numeral 16 v.toNat) (printInt b v.toInt 16 false) := by
  rw [printInt_eq_putAll (_printInt_unsigned v)]
  exact putAll_prints h _

lemma printLiteral_prints (b : PrintBuffer) (ch : UInt8) :
    Prints b True (expand [ch]).length (expand [ch]) (printLiteral b ch) := by
  by_cases hch : ch = 10
  · subst hch
    exact ((put_prints b 10).bind fun b' _ => put_prints b' 13).congr (and_self_iff) rfl rfl
  · have hexpand : expand [ch] = [ch] := by simp [expand, hch]
    have hput : Prints b (True ∧ True) (max 1 (1 + 0)) ([ch] ++ []) (printLiteral b ch) := by
      refine (put_prints b ch).bind fun b' hb' => ?_
      rw [if_neg hch]
      exact .ok hb'.le
    rw [hexpand]
    exact hput.congr (and_self_iff) rfl rfl

/-- A newline must be the last character of a string: behind it, `write_count` is out of reach. -/
lemma printStringLoop_prints (h : b.writeCount ≤ b.bytes.length) (s : List UInt8) :
    Prints b (10 ∉ s.dropLast) (s.length + if s.getLast? = some 10 then 1 else 0) s (printStringLoop s false b) := by
  induction s generalizing b with
  | nil => exact (Prints.ok h).congr (by simp) rfl rfl
  | cons ch s ih =>
    by_cases hch : ch = 10
    · subst hch
      cases s with
      | nil =>
        have hlast : Prints b (True ∧ True ∧ True) (max 1 (1 + max 1 (0 + 0))) ([10] ++ ([] ++ []))
            (printStringLoop [10] false b) :=
          (put_prints b 10).bind fun b' _ => (putAt_prints b' 13).bind fun b'' hb'' => .ok hb''.le
        exact hlast.congr (by simp) rfl rfl
      | cons d s =>
        have hfault : Prints b (True ∧ True ∧ False) (max 1 (1 + max 1 (0 + 0))) ([10] ++ ([] ++ []))
            (printStringLoop (10 :: d :: s) false b) :=
          (put_prints b 10).bind fun b' _ => (putAt_prints b' 13).bind fun b'' _ => .fault
        exact hfault.congr_of_not (by simp) (by simp)
    · have hput : Prints b (True ∧ 10 ∉ s.dropLast) (max 1 (1 + (s.length + if s.getLast? = some 10 then 1 else 0)))
          ([ch] ++ s) (printStringLoop (ch :: s) false b) := by
        refine (put_prints b ch).bind fun b' hb' => ?_
        rw [if_neg hch]
        exact ih hb'.le
      refine hput.congr ?_ ?_ rfl
      · cases s with
        | nil => simp
        | cons d s => simp [Ne.symm hch]
      · cases s with
        | nil => simp [hch]
        | cons d s =>
          simp only [List.getLast?_cons_cons, List.length_cons]
          omega

/-- The texts of the code itself have no newline. -/
lemma printText_prints (h : b.writeCount ≤ b.bytes.length) {s : List UInt8} (hs : 10 ∉ s) :
    Prints b True s.length s (printString b s) := by
  refine (printStringLoop_prints h s).congr ?_ ?_ rfl
  · exact ⟨fun _ => trivial, fun _ hmem => hs (List.dropLast_subset s hmem)⟩
  · rw [if_neg fun hlast => hs (List.mem_of_getLast? hlast), Nat.add_zero]

lemma Piece.print_prints (h : b.writeCount ≤ b.bytes.length) (p : Piece) :
    Prints b p.Plain p.room p.text (p.print b) := by
  cases p with
  | literal ch => exact printLiteral_prints b ch
  | decimal v => exact printInt_signed_prints h v
  | hex v => exact printInt_unsigned_prints h v
  | pointer v =>
    have hput : Prints b (True ∧ True ∧ True) (max 1 (1 + max 1 (1 + (numeral 16 v.toNat).length)))
        ([48] ++ ([120] ++ numeral 16 v.toNat)) (Piece.print b (.pointer v)) :=
      (put_prints b 48).bind fun b' _ => (put_prints b' 120).bind fun b'' hb'' => printInt_unsigned_prints hb''.le v
    refine hput.congr (by simp [Piece.Plain]) ?_ rfl
    simp only [Piece.room, Piece.render, List.length_cons]
    omega
  | string s => exact printStringLoop_prints h s
  | char v => exact put_prints b _
  | bool v =>
    by_cases hv : v ≠ 0
    · simp only [Piece.print, Piece.room, Piece.text, Piece.render, if_pos hv]
      exact printText_prints h (by decide)
    · simp only [Piece.print, Piece.room, Piece.text, Piece.render, if_neg hv]
      exact printText_prints h (by decide)
  | percent => exact put_prints b 37
  | unknown ch =>
    exact ((put_prints b 37).bind fun b' _ => put_prints b' ch).congr (and_self_iff) rfl rfl

/-- Prints the pieces in order. -/
def printAll (b : PrintBuffer) : List Piece → Except Halt PrintBuffer
  | [] => .ok b
  | p :: ps => do
    let b ← p.print b
    printAll b ps

/-- How many bytes are written for a list of pieces. -/
def needed : List Piece → Nat
  | [] => 0
  | p :: ps => max p.room (p.text.length + needed ps)

lemma printAll_prints (h : b.writeCount ≤ b.bytes.length) (ps : List Piece) :
    Prints b (∀ p ∈ ps, p.Plain) (needed ps) (ps.flatMap Piece.text) (printAll b ps) := by
  induction ps generalizing b with
  | nil => exact (Prints.ok h).congr (by simp) rfl rfl
  | cons p ps ih =>
    refine ((p.print_prints h).bind fun b' hb' => ih hb'.le).congr ?_ rfl rfl
    exact List.forall_mem_cons.symm

/-- What is printed behind a piece does not depend on how it is printed. -/
lemma printAll_cons {p : Piece} {ps : List Piece} {f : PrintBuffer → Except Halt (Nat × PrintBuffer)}
    (h : b.writeCount ≤ b.bytes.length)
    (hf : ∀ b', Appends b b' p.text → f b' = printAll b' ps >>= fun b => .ok (b.writeCount, b)) :
    p.print b >>= f = printAll b (p :: ps) >>= fun b => .ok (b.writeCount, b) := by
  rw [printAll, bind_assoc]
  exact bind_congr_of_ok fun b' hb' => hf b' ((p.print_prints h).appends b' hb')

lemma vsnprintfLoop_literal {ch : UInt8} {fmt : List UInt8} {ap : List VaArg} {n : Nat} (h : b.writeCount ≤ n)
    (hch : ch ≠ 37) :
    vsnprintfLoop printDouble n (ch :: fmt) false ap b =
      Piece.print b (.literal ch) >>= vsnprintfLoop printDouble n fmt false ap := by
  rw [vsnprintfLoop, if_neg (Nat.not_lt.mpr h), if_pos (by rfl), if_neg hch]
  rfl

lemma vsnprintfLoop_specifier {ch : UInt8} {fmt : List UInt8} {ap ap' : List VaArg} {n : Nat} {p : Piece}
    (h : b.writeCount ≤ n) (hp : conversion ch ap = some (p, ap')) :
    vsnprintfLoop printDouble n (37 :: ch :: fmt) false ap b =
      p.print b >>= vsnprintfLoop printDouble n fmt false ap' := by
  rw [vsnprintfLoop, if_neg (Nat.not_lt.mpr h), if_pos (by rfl), if_pos rfl, vsnprintfLoop,
    if_neg (Nat.not_lt.mpr h), if_neg (by decide), printSpecifier_eq hp, bind_assoc]
  rfl

/-- `__vsnprintf` prints the pieces of its format, and its check of the size does not matter. -/
lemma vsnprintfLoop_eq {fmt : List UInt8} {ap : List VaArg} {ps : List Piece} {n : Nat}
    (hps : pieces fmt ap = some ps) (hn : b.bytes.length = n) (h : b.writeCount ≤ b.bytes.length) :
    vsnprintfLoop printDouble n fmt false ap b = printAll b ps >>= fun b => .ok (b.writeCount, b) := by
  induction fmt, ap using pieces.induct generalizing b ps with
  | case1 ap =>
    obtain rfl := Option.some.inj hps
    rfl
  | case2 ap =>
    obtain rfl := Option.some.inj hps
    rw [vsnprintfLoop, if_neg (by omega), if_pos (by rfl), if_pos rfl]
    rfl
  | case3 ch ap hch =>
    rw [pieces, if_neg hch] at hps
    obtain rfl := Option.some.inj hps
    rw [vsnprintfLoop_literal (hn ▸ h) hch]
    exact printAll_cons h fun b' _ => rfl
  | case4 ch' fmt ap ih =>
    rw [pieces, if_pos rfl] at hps
    obtain ⟨⟨p, ap'⟩, hp, hps⟩ := Option.bind_eq_some_iff.mp hps
    obtain ⟨ps', hps', hps⟩ := Option.bind_eq_some_iff.mp hps
    obtain rfl := Option.some.inj hps
    rw [vsnprintfLoop_specifier (hn ▸ h) hp]
    exact printAll_cons h fun b' hb' => ih ap' hps' (hb'.length.trans hn) hb'.le
  | case5 ch ch' fmt ap hch ih =>
    rw [pieces, if_neg hch] at hps
    obtain ⟨ps', hps', hps⟩ := Option.bind_eq_some_iff.mp hps
    obtain rfl := Option.some.inj hps
    rw [vsnprintfLoop_literal (hn ▸ h) hch]
    exact printAll_cons h fun b' hb' => ih hps' (hb'.length.trans hn) hb'.le

/-- The outcome of `__vsnprintf`: it returns when no string has a newline in front of other characters and there is
room for what is written, and then it has printed the texts of the pieces. -/
lemma vsnprintf_prints {buffer : List UInt8} {fmt : CString} {ap : List VaArg} {ps : List Piece}
    (hps : pieces fmt.bytes ap = some ps) :
    Guarded .fault ((∀ p ∈ ps, p.Plain) ∧ needed ps ≤ buffer.length)
        (vsnprintf printDouble buffer buffer.length fmt ap) ∧
      ∀ len b, vsnprintf printDouble buffer buffer.length fmt ap = .ok (len, b) →
        len ≤ buffer.length ∧ len = (ps.flatMap Piece.text).length ∧ b.bytes.take len = ps.flatMap Piece.text := by
  have hall := printAll_prints (b := ⟨buffer, 0⟩) (Nat.zero_le _) ps
  have heq : vsnprintf printDouble buffer buffer.length fmt ap =
      printAll ⟨buffer, 0⟩ ps >>= fun b => .ok (b.writeCount, b) := vsnprintfLoop_eq hps rfl (Nat.zero_le _)
  rw [heq]
  constructor
  · refine (hall.guarded.bind fun b _ => Guarded.ok _).congr ?_
    rw [and_true, Nat.zero_add]
  · intro len b h
    obtain ⟨b', hb', h⟩ := bind_eq_ok.mp h
    obtain ⟨rfl, rfl⟩ := Prod.mk.inj (Except.ok.inj h)
    have happ := hall.appends _ hb'
    have hcount := happ.count
    have htext := happ.text
    have hle := happ.le
    rw [happ.length] at hle
    refine ⟨hle, ?_, ?_⟩
    · rw [hcount, Nat.zero_add]
    · rw [htext]
      rfl

end KaworuOS.Proofs
