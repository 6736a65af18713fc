import KaworuOS.Proofs.Printf

/-!
# Formatting and the size of the buffer

The size is compared with what has been written once for every character of the format and never before a write. So
`__vsnprintf` stays in its buffer exactly when everything fits, and when no string moves the pointer to the count.
-/

namespace KaworuOS.Proofs
open Lib

variable {printDouble : BitVec 64 → PrintBuffer → Except Halt PrintBuffer}

/-- `__vsnprintf` returns at most the size of its buffer and has not written behind it. -/
def StaysIn (printDouble : BitVec 64 → PrintBuffer → Except Halt PrintBuffer) (buffer : List UInt8) (fmt : CString)
    (ap : List VaArg) : Prop :=
  ∃ len b, vsnprintf printDouble buffer buffer.length fmt ap = .ok (len, b) ∧ len ≤ buffer.length

lemma plain_iff {ps : List Piece} : (∀ p ∈ ps, p.Plain) ↔ ∀ s, Piece.string s ∈ ps → 10 ∉ s.dropLast := by
  refine ⟨fun h s hs => h _ hs, fun h p hp => ?_⟩
  cases p with
  | string s => exact h s hp
  | _ => trivial

/-- `__vsnprintf` stays in its buffer if and only if no string argument has a newline in front of other characters and
all bytes that are written fit into the buffer. -/
theorem printf_stays_in_iff {buffer : List UInt8} {fmt : CString} {ap : List VaArg} {ps : List Piece}
    (hps : pieces fmt.bytes ap = some ps) :
    StaysIn printDouble buffer fmt ap ↔
      (∀ s, Piece.string s ∈ ps → 10 ∉ s.dropLast) ∧ needed ps ≤ buffer.length := by
  obtain ⟨hguarded, hprinted⟩ := @vsnprintf_prints printDouble buffer fmt ap ps hps
  rw [plain_iff] at hguarded
  constructor
  · rintro ⟨len, b, h, -⟩
    exact hguarded.holds h
  · intro hfits
    obtain ⟨⟨len, b⟩, h⟩ := hguarded.returns hfits
    exact ⟨len, b, h, (hprinted len b h).1⟩

/-- The format `"[ %s ]"` of the logger. -/
def levelFormat : CString := ⟨[91, 32, 37, 115, 32, 93], by decide⟩

/-- `"INFO"`. -/
def levelInfo : CString := ⟨[73, 78, 70, 79], by decide⟩

/-- For formats without `%f`. -/
def printNothing (_ : BitVec 64) (b : PrintBuffer) : Except Halt PrintBuffer := .ok b

theorem printf_stays_in_iff_level :
    StaysIn printNothing (List.replicate 20 0) levelFormat [.str (some levelInfo)] := by
  have hps : pieces levelFormat.bytes [.str (some levelInfo)] =
      some [.literal 91, .literal 32, .string [73, 78, 70, 79], .literal 32, .literal 93] := rfl
  refine (printf_stays_in_iff hps).mpr ⟨?_, by decide⟩
  intro s hs
  simp only [List.mem_cons, reduceCtorEq, Piece.string.injEq, List.not_mem_nil, or_false, false_or] at hs
  subst hs
  decide

/-- `"ab"`. -/
def twoLetters : CString := ⟨[97, 98], by decide⟩

/-- A format without conversions that is longer than the buffer. -/
theorem printf_leaves_buffer : ¬StaysIn printNothing [0] twoLetters [] := by
  have hrun : vsnprintf printNothing [0] 1 twoLetters [] = .error .fault := by rfl
  rintro ⟨len, b, h, -⟩
  cases hrun.symm.trans h

/-- In every buffer that is large enough, `__vsnprintf` writes `text` and returns its length. -/
def Renders (printDouble : BitVec 64 → PrintBuffer → Except Halt PrintBuffer) (fmt : CString) (ap : List VaArg)
    (text : List UInt8) : Prop :=
  ∃ size, ∀ buffer : List UInt8, size ≤ buffer.length →
    ∃ b, vsnprintf printDouble buffer buffer.length fmt ap = .ok (text.length, b) ∧ b.bytes.take text.length = text

lemma expand_of_not_mem {s : List UInt8} (h : 10 ∉ s) : expand s = s := by
  unfold expand
  induction s with
  | nil => rfl
  | cons ch s ih =>
    obtain ⟨hch, hs⟩ := List.ne_and_not_mem_of_not_mem_cons h
    rw [List.flatMap_cons, if_neg (Ne.symm hch), ih hs, List.singleton_append]

lemma length_expand (s : List UInt8) : (expand s).length = s.length + s.count 10 := by
  unfold expand
  induction s with
  | nil => rfl
  | cons ch s ih =>
    rw [List.flatMap_cons, List.length_append, ih, List.length_cons]
    by_cases hch : ch = 10
    · subst hch
      rw [if_pos rfl, List.count_cons_self]
      simp only [List.length_cons, List.length_nil]
      omega
    · rw [if_neg hch, List.count_cons_of_ne hch]
      simp only [List.length_cons, List.length_nil]
      omega

/-- What is left of a piece is shorter than its rendering by the newlines of a string. -/
lemma Piece.text_length_le (p : Piece) : p.text.length ≤ p.render.length := by
  cases p with
  | string s =>
    show s.length ≤ (expand s).length
    rw [length_expand]
    omega
  | _ => exact le_rfl

lemma text_length_eq_of_flatMap {ps : List Piece}
    (h : (ps.flatMap Piece.text).length = (ps.flatMap Piece.render).length) :
    ∀ p ∈ ps, p.text.length = p.render.length := by
  have hle : ∀ qs : List Piece, (qs.flatMap Piece.text).length ≤ (qs.flatMap Piece.render).length := by
    intro qs
    induction qs with
    | nil => exact le_rfl
    | cons q qs ih =>
      rw [List.flatMap_cons, List.flatMap_cons, List.length_append, List.length_append]
      exact Nat.add_le_add q.text_length_le ih
  induction ps with
  | nil => exact fun p hp => by cases hp
  | cons q qs ih =>
    rw [List.flatMap_cons, List.flatMap_cons, List.length_append, List.length_append] at h
    have hq := q.text_length_le
    have hqs := hle qs
    exact List.forall_mem_cons.mpr ⟨by omega, ih (by omega)⟩

lemma renders_iff {fmt : CString} {ap : List VaArg} {ps : List Piece} (hps : pieces fmt.bytes ap = some ps) :
    Renders printDouble fmt ap (ps.flatMap Piece.render) ↔ ∀ s, Piece.string s ∈ ps → 10 ∉ s := by
  constructor
  · rintro ⟨size, h⟩ s hs hnewline
    obtain ⟨b, hb, -⟩ := h (List.replicate size 0) (by rw [List.length_replicate])
    have hlen := ((vsnprintf_prints hps).2 _ _ hb).2.1
    have hpiece := text_length_eq_of_flatMap hlen.symm _ hs
    have hcount : 0 < s.count 10 := List.count_pos_iff.mpr hnewline
    have hexpand : s.length = (expand s).length := hpiece
    rw [length_expand] at hexpand
    omega
  · intro h
    have htext : ps.flatMap Piece.text = ps.flatMap Piece.render := by
      refine List.flatMap_congr fun p hp => ?_
      cases p with
      | string s => exact (expand_of_not_mem (h s hp)).symm
      | _ => rfl
    refine ⟨needed ps, fun buffer hsize => ?_⟩
    obtain ⟨hguarded, hprinted⟩ := @vsnprintf_prints printDouble buffer fmt ap ps hps
    have hplain : ∀ p ∈ ps, p.Plain := plain_iff.mpr fun s hs hmem => h s hs (List.dropLast_subset s hmem)
    obtain ⟨⟨len, b⟩, hb⟩ := hguarded.returns ⟨hplain, hsize⟩
    obtain ⟨-, hlen, htake⟩ := hprinted len b hb
    rw [htext] at hlen htake
    subst hlen
    exact ⟨b, hb, htake⟩

/-- A format without `%` is its characters. -/
lemma pieces_literals {l : List UInt8} (h : 37 ∉ l) (ap : List VaArg) : pieces l ap = some (l.map .literal) := by
  induction l with
  | nil => rfl
  | cons ch l ih =>
    obtain ⟨hch, hl⟩ := List.ne_and_not_mem_of_not_mem_cons h
    cases l with
    | nil =>
      rw [pieces, if_neg (Ne.symm hch)]
      rfl
    | cons d l =>
      rw [pieces, if_neg (Ne.symm hch), ih hl]
      rfl

lemma flatMap_render_literals (l : List UInt8) : (l.map Piece.literal).flatMap Piece.render = expand l := by
  rw [List.flatMap_map]
  unfold expand
  refine List.flatMap_congr fun ch _ => ?_
  exact List.append_nil _

/-- The format `"%s"`. -/
def stringFormat : CString := ⟨[37, 115], by decide⟩

/-- A text given as the format and as the argument of `"%s"` is printed alike, with every `'\n'` expanded. -/
def PrintsAlike (printDouble : BitVec 64 → PrintBuffer → Except Halt PrintBuffer) (t : CString) : Prop :=
  Renders printDouble t [] (expand t.bytes) ∧ Renders printDouble stringFormat [.str (some t)] (expand t.bytes)

lemma printsAlike_iff {t : CString} (ht : 37 ∉ t.bytes) : PrintsAlike printDouble t ↔ 10 ∉ t.bytes := by
  have hliteral : Renders printDouble t [] (expand t.bytes) := by
    have h := @renders_iff printDouble t [] _ (pieces_literals ht [])
    rw [flatMap_render_literals] at h
    exact h.mpr fun s hs => by simp at hs
  have hstring : Renders printDouble stringFormat [.str (some t)] (expand t.bytes) ↔ 10 ∉ t.bytes := by
    have h := @renders_iff printDouble stringFormat [.str (some t)] [.string t.bytes] rfl
    rw [List.flatMap_singleton] at h
    exact h.trans (by simp)
  exact ⟨fun h => hstring.mp h.2, fun h => ⟨hliteral, hstring.mpr h⟩⟩

/-- A text is printed alike in both ways if and only if it has no newline; and the output of a format is the
renderings of its pieces in order if and only if no string argument has one. -/
theorem printf_renders_iff (printDouble : BitVec 64 → PrintBuffer → Except Halt PrintBuffer) :
    (∀ t : CString, 37 ∉ t.bytes → (PrintsAlike printDouble t ↔ 10 ∉ t.bytes)) ∧
      ∀ (fmt : CString) (ap : List VaArg) (ps : List Piece), pieces fmt.bytes ap = some ps →
        (Renders printDouble fmt ap (ps.flatMap Piece.render) ↔ ∀ s, Piece.string s ∈ ps → 10 ∉ s) :=
  ⟨fun _ ht => printsAlike_iff ht, fun _ _ _ hps => renders_iff hps⟩

theorem printf_renders_iff_letters : PrintsAlike printNothing twoLetters :=
  ((printf_renders_iff printNothing).1 twoLetters (by decide)).mpr (by decide)

/-- A newline is two bytes in a format and one byte from `"%s"`. -/
theorem printf_newline_differs : ¬PrintsAlike printNothing ⟨[10], by decide⟩ :=
  fun h => (printsAlike_iff (by decide)).mp h (by decide)

end KaworuOS.Proofs
