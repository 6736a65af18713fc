import KaworuOS.DebugLog
import KaworuOS.Proofs.Console
import KaworuOS.Proofs.Printf

/-!
# What a line of the log shows

A line whose formats fit in its buffers is shown by the console, piece by piece, and flushed. It changes no memory but its
own buffers and the storage of the console.
-/

namespace KaworuOS.Proofs
open Lib

/-- An upper bound for what is written for a piece. -/
def Piece.width : Piece → Nat
  | literal _ => 2
  | decimal _ => 32
  | hex _ => 31
  | pointer _ => 33
  | string s => s.length + 1
  | char _ => 1
  | bool _ => 5
  | percent => 1
  | unknown _ => 2

/-- `Plain`, as a test. -/
def Piece.isPlain : Piece → Bool
  | string s => !s.dropLast.contains 10
  | _ => true

lemma Piece.plain_of_isPlain {p : Piece} (h : p.isPlain = true) : p.Plain := by
  cases p with
  | string s =>
    rw [isPlain, Bool.not_eq_true', List.contains_eq_mem, decide_eq_false_iff_not] at h
    exact h
  | _ => exact trivial

lemma numeral_length_le {base n : Nat} (hbase : base = 10 ∨ base = 16) (h : n < 2 ^ 64) :
    (numeral base n).length ≤ 31 := by
  rw [numeral, List.length_map, List.length_reverse]
  exact numeralDigits_length_lt hbase h

lemma intNumeral_length_le (v : BitVec 32) : (intNumeral 10 v.toInt).length ≤ 32 := by
  have hlo := BitVec.le_toInt v
  have hhi := @BitVec.toInt_lt 32 v
  have hlen : (numeral 10 v.toInt.natAbs).length ≤ 31 := numeral_length_le (.inl rfl) (by omega)
  unfold intNumeral
  split <;> simp <;> omega

lemma Piece.width_bounds (p : Piece) : p.room ≤ p.width ∧ p.text.length ≤ p.width := by
  cases p with
  | literal ch =>
    have hlen : (expand [ch]).length ≤ 2 := by
      by_cases hch : ch = 10
      · simp [expand, hch]
      · simp [expand, hch]
    exact ⟨hlen, hlen⟩
  | decimal v => exact ⟨intNumeral_length_le v, intNumeral_length_le v⟩
  | hex v => exact ⟨numeral_length_le (.inr rfl) v.isLt, numeral_length_le (.inr rfl) v.isLt⟩
  | pointer v =>
    have hlen : (numeral 16 v.toNat).length ≤ 31 := numeral_length_le (.inr rfl) v.isLt
    exact ⟨Nat.add_le_add_right hlen 2, Nat.add_le_add_right hlen 2⟩
  | string s =>
    refine ⟨?_, Nat.le_succ _⟩
    rw [room, width]
    split <;> omega
  | char v => exact ⟨Nat.le_refl 1, Nat.le_refl 1⟩
  | bool v =>
    have hlen : (if v ≠ 0 then trueText else falseText).length ≤ 5 := by
      split <;> decide
    exact ⟨hlen, hlen⟩
  | percent => exact ⟨Nat.le_refl 1, Nat.le_refl 1⟩
  | unknown ch => exact ⟨Nat.le_refl 2, Nat.le_refl 2⟩

lemma needed_le_widths (ps : List Piece) :
    needed ps ≤ (ps.map Piece.width).sum ∧ (ps.flatMap Piece.text).length ≤ (ps.map Piece.width).sum := by
  induction ps with
  | nil => exact ⟨Nat.le_refl 0, Nat.le_refl 0⟩
  | cons p ps ih =>
    obtain ⟨hroom, htext⟩ := p.width_bounds
    rw [needed, List.map_cons, List.sum_cons, List.flatMap_cons, List.length_append]
    omega

/-- The text of a format with its arguments. -/
def formatText (fmt : CString) (args : List VaArg) : List UInt8 := ((pieces fmt.bytes args).getD []).flatMap Piece.text

/-- The arguments match the format, and what is printed fits in `size` bytes and in a message of the console. -/
def FormatFits (size : Nat) (fmt : CString) (args : List VaArg) : Prop :=
  ∃ ps, pieces fmt.bytes args = some ps ∧ (∀ p ∈ ps, p.Plain) ∧ needed ps ≤ size ∧
    (ps.flatMap Piece.text).length ≤ IO_EVENT_MSG_BUFFER_SIZE

/-- A bound for what is written for the pieces. -/
def fitsIn (size : Nat) (ps : List Piece) : Bool :=
  ps.all Piece.isPlain && decide ((ps.map Piece.width).sum ≤ min size IO_EVENT_MSG_BUFFER_SIZE)

/-- A number does not matter for the bound. -/
def blankArg : VaArg → VaArg
  | .i32 _ => .i32 0
  | .i64 _ => .i64 0
  | .str s => .str s
  | .f64 _ => .f64 0

/-- The same for a piece. -/
def Piece.blank : Piece → Piece
  | decimal _ => decimal 0
  | hex _ => hex 0
  | pointer _ => pointer 0
  | char _ => char 0
  | bool _ => bool 0
  | p => p

lemma fitsIn_blank (size : Nat) (ps : List Piece) : fitsIn size (ps.map Piece.blank) = fitsIn size ps := by
  have hplain : Piece.isPlain ∘ Piece.blank = Piece.isPlain := funext fun p => by cases p <;> rfl
  have hwidth : Piece.width ∘ Piece.blank = Piece.width := funext fun p => by cases p <;> rfl
  rw [fitsIn, fitsIn, List.all_map, List.map_map, hplain, hwidth]

lemma conversion_blank (ch : UInt8) (args : List VaArg) :
    conversion ch (args.map blankArg) = (conversion ch args).map fun x => (x.1.blank, x.2.map blankArg) := by
  unfold conversion
  split_ifs
  all_goals
    first
    | rfl
    | (cases args with
      | nil => rfl
      | cons arg args => cases arg <;> rfl)

lemma pieces_blank (fmt : List UInt8) (args : List VaArg) :
    pieces fmt (args.map blankArg) = (pieces fmt args).map (List.map Piece.blank) := by
  induction fmt, args using pieces.induct with
  | case1 args => rfl
  | case2 args => rfl
  | case3 ch args hch =>
    rw [pieces, pieces, if_neg hch]
    rfl
  | case4 ch fmt args ih =>
    rw [pieces, pieces, if_pos rfl, if_pos rfl, conversion_blank]
    cases hconv : conversion ch args with
    | none => rfl
    | some x =>
      show (pieces fmt (x.2.map blankArg) >>= fun ps => some (x.1.blank :: ps)) =
        (pieces fmt x.2 >>= fun ps => some (x.1 :: ps)).map (List.map Piece.blank)
      rw [ih x.2]
      cases pieces fmt x.2 <;> rfl
  | case5 ch ch' fmt args hch ih =>
    rw [pieces, pieces, if_neg hch, if_neg hch, ih]
    cases pieces (ch' :: fmt) args <;> rfl

/-- It is enough that the pieces are bounded with other numbers in their place. -/
lemma formatFits_of_blank {size : Nat} {fmt : CString} {args : List VaArg} (blanks : List VaArg)
    (hblanks : args.map blankArg = blanks) (h : (pieces fmt.bytes blanks).any (fitsIn size) = true) :
    FormatFits size fmt args := by
  rw [← hblanks, pieces_blank, Option.any_map] at h
  obtain ⟨ps, hps, hfits⟩ := (Option.any_eq_true _ _).mp h
  rw [fitsIn_blank, fitsIn, Bool.and_eq_true, List.all_eq_true, decide_eq_true_iff] at hfits
  obtain ⟨hplain, hwidth⟩ := hfits
  obtain ⟨hneeded, htext⟩ := needed_le_widths ps
  exact ⟨ps, hps, fun p hp => Piece.plain_of_isPlain (hplain p hp), by omega, by omega⟩

/-- The event as it is shown. -/
def formatShown (fg bg : IOColor) (fmt : CString) (args : List VaArg) : Shown :=
  ⟨fg, bg, (formatText fmt args).length, formatText fmt args⟩

/-- The event is shown as `d`, and its message lies in the buffer. -/
structure Formatted (mem : Mem) (buffer size : Nat) (ev : IOEvent) (d : Shown) : Prop where
  shown : ev.shown mem = d
  msg : ev.msg = buffer
  size : ev.len ≤ size
  len : ev.len ≤ IO_EVENT_MSG_BUFFER_SIZE

variable {log : Logger} {fg bg : IOColor} {buffer size : Nat} {fmt : CString} {args : List VaArg} {c c' : Console}
  {mem mem' : Mem} {ev : IOEvent} {d : Shown} {events messages : Nat} {written : List Shown}

lemma Formatted.keep (h : Formatted mem buffer size ev d)
    (hmem : ∀ x, buffer ≤ x → x < buffer + size → mem' x = mem x) : Formatted mem' buffer size ev d := by
  refine ⟨?_, h.msg, h.size, h.len⟩
  have hsize := h.size
  have hbytes : mem'.bytes ev.msg ev.len = mem.bytes ev.msg ev.len := by
    apply Mem.bytes_congr
    rw [h.msg]
    exact fun x h1 h2 => hmem x h1 (by omega)
  rw [← h.shown, IOEvent.shown, IOEvent.shown, hbytes]

lemma vsnprintf_length {printDouble : BitVec 64 → PrintBuffer → Except Halt PrintBuffer} {bytes : List UInt8}
    {ps : List Piece} {len : Nat} {b : PrintBuffer} (hps : pieces fmt.bytes args = some ps)
    (h : vsnprintf printDouble bytes bytes.length fmt args = .ok (len, b)) : b.bytes.length = bytes.length := by
  have hall := @printAll_prints ⟨bytes, 0⟩ (Nat.zero_le _) ps
  have heq : vsnprintf printDouble bytes bytes.length fmt args =
      printAll ⟨bytes, 0⟩ ps >>= fun b => .ok (b.writeCount, b) := vsnprintfLoop_eq hps rfl (Nat.zero_le _)
  rw [heq] at h
  obtain ⟨b', hb', h⟩ := bind_eq_ok.mp h
  obtain ⟨-, rfl⟩ := Prod.mk.inj (Except.ok.inj h)
  exact (hall.appends _ hb').length

/-- A format that fits is printed to the buffer. -/
lemma logEvent_ok (log : Logger) (fg bg : IOColor) (buffer : Nat) (c : Console) (h : FormatFits size fmt args) :
    ∃ ev mem',
    logEvent log fg bg buffer size fmt args c = (.ok ev, { c with mem := mem' }) ∧
      Formatted mem' buffer size ev (formatShown fg bg fmt args) ∧
      ∀ x, ¬(buffer ≤ x ∧ x < buffer + size) → mem' x = c.mem x := by
  obtain ⟨ps, hps, hplain, hneeded, htext⟩ := h
  have hlen : (c.mem.bytes buffer size).length = size := by
    rw [Mem.bytes, List.length_map, List.length_range]
  have hspec := @vsnprintf_prints log.printDouble (c.mem.bytes buffer size) fmt args ps hps
  have hlength := @vsnprintf_length fmt args log.printDouble (c.mem.bytes buffer size) ps
  rw [hlen] at hspec hlength
  obtain ⟨hguard, hprinted⟩ := hspec
  have hformat : formatText fmt args = ps.flatMap Piece.text := by
    rw [formatText, hps]
    rfl
  rcases hguard with ⟨-, ⟨wrote, b⟩, hrun⟩ | ⟨hn, -⟩
  · obtain ⟨hwrote, hcount, htake⟩ := hprinted wrote b hrun
    have hsize := hlength hps hrun
    refine ⟨⟨fg, bg, buffer, wrote⟩, c.mem.write buffer b.bytes, ?_, ⟨?_, rfl, hwrote, ?_⟩, ?_⟩
    · unfold logEvent
      rw [Call.read_bind, hrun]
      rfl
    · rw [IOEvent.shown, Mem.bytes_write _ _
        (show wrote ≤ b.bytes.length by omega), htake, hcount, formatShown, hformat]
    · exact hcount.trans_le htext
    · rw [← hsize]
      exact fun x hx => Mem.write_other _ hx
  · exact absurd ⟨hplain, hneeded⟩ hn

/-- The buffers of the log. -/
def LogBytes (log : Logger) (x : Nat) : Prop :=
  (log.levelBuffer ≤ x ∧ x < log.levelBuffer + LEVEL_BUFFER_SIZE) ∨
    (log.buffers ≤ x ∧ x < log.buffers + (INDIVIDUAL_BUFFER_SIZES + INDIVIDUAL_BUFFER_SIZES))

/-- The buffers of the log lie in the address space, apart from each other and from the storage of the console. -/
structure LogReady (events messages : Nat) (log : Logger) : Prop where
  level_le : log.levelBuffer + LEVEL_BUFFER_SIZE ≤ wordSize
  buffers_le : log.buffers + (INDIVIDUAL_BUFFER_SIZES + INDIVIDUAL_BUFFER_SIZES) ≤ wordSize
  disjoint : ∀ x, log.levelBuffer ≤ x → x < log.levelBuffer + LEVEL_BUFFER_SIZE →
    ¬(log.buffers ≤ x ∧ x < log.buffers + (INDIVIDUAL_BUFFER_SIZES + INDIVIDUAL_BUFFER_SIZES))
  console : ∀ x, LogBytes log x → ¬ConsoleBytes events messages x

/-- What the console is given by a line. -/
def lineShown (log : Logger) : LogLine → List Shown
  | .log levelStr level color file func line fmt args =>
    if level < log.dynamicLogLevel then []
    else
      [formatShown IO_DEFAULT_COLOR_BG color (.ofString "[ %s ]") [.str levelStr],
        formatShown color IO_DEFAULT_COLOR_BG (.ofString " %s:%s:%d: ") [.str file, .str func, .i32 line],
        formatShown color IO_DEFAULT_COLOR_BG fmt args]
  | .userLog levelStr color fmt args =>
    [formatShown IO_DEFAULT_COLOR_BG color (.ofString "[ %s ]") [.str levelStr],
      formatShown IO_DEFAULT_COLOR_FG IO_DEFAULT_COLOR_BG fmt args]

/-- The formats of a line fit in its buffers, unless the line is not printed. -/
def LineFits (log : Logger) : LogLine → Prop
  | .log levelStr level _ file func line fmt args =>
    log.dynamicLogLevel ≤ level → FormatFits LEVEL_BUFFER_SIZE (.ofString "[ %s ]") [.str levelStr] ∧
      FormatFits INDIVIDUAL_BUFFER_SIZES (.ofString " %s:%s:%d: ") [.str file, .str func, .i32 line] ∧
      FormatFits INDIVIDUAL_BUFFER_SIZES fmt args
  | .userLog levelStr _ fmt args =>
    FormatFits LEVEL_BUFFER_SIZE (.ofString "[ %s ]") [.str levelStr] ∧ FormatFits INDIVIDUAL_BUFFER_SIZES fmt args

/-- What is written to the console and flushed. -/
lemma ConsoleInv.writeFlush (h : ConsoleInv events messages c written) (hshape : ConsoleShape events messages)
    {evs : List IOEvent} (hlen : ∀ ev ∈ evs, ev.len ≤ IO_EVENT_MSG_BUFFER_SIZE)
    (hev : ∀ ev ∈ evs, MessageApart events messages ev) : ∃ c',
    (do
      let _ ← consoleWriteMultiple evs
      let _ ← consoleFlush
      return ()) c = ((.ok () : Except Halt Unit), c') ∧
      ConsoleInv events messages c' (written ++ evs.map fun ev => ev.shown c.mem) ∧
        SameMessages messages c.mem c'.mem := by
  obtain ⟨evs', c₁, hwrite, hinv₁, hsame⟩ := h.writeEach hshape evs hlen hev
  obtain ⟨c₂, hflush, hinv₂, -, -, hmem, -⟩ := hinv₁.flush hshape
  have hflush' : consoleFlush c₁ = (.ok .EOK, c₂) := by
    rw [consoleFlush, Call.bind_ok hflush]
    rfl
  rw [consoleWriteMultiple, Call.bind_ok hwrite, Call.bind_ok hflush']
  refine ⟨c₂, rfl, hinv₂, ?_⟩
  rw [hmem]
  exact hsame

lemma Formatted.apart (h : Formatted mem buffer size ev d) (hsize : 0 < size) (hbound : buffer + size ≤ wordSize)
    (hspan : ∀ x, buffer ≤ x → x < buffer + size → ¬ConsoleBytes events messages x) : MessageApart events messages ev :=
  messageApart_of_span hbound hsize hspan h.msg h.size

section Line

variable (h : ConsoleInv events messages c written) (hshape : ConsoleShape events messages)
  (hlog : LogReady events messages log)

include hlog

lemma LogReady.level_apart (h : Formatted mem log.levelBuffer LEVEL_BUFFER_SIZE ev d) :
    MessageApart events messages ev :=
  h.apart (by decide) hlog.level_le fun x h1 h2 => hlog.console x (.inl ⟨h1, h2⟩)

lemma LogReady.first_apart (h : Formatted mem log.buffers INDIVIDUAL_BUFFER_SIZES ev d) :
    MessageApart events messages ev := by
  have hle := hlog.buffers_le
  exact h.apart (by decide) (by omega) fun x h1 h2 => hlog.console x (.inr ⟨h1, by omega⟩)

lemma LogReady.second_apart (h : Formatted mem (log.buffers + INDIVIDUAL_BUFFER_SIZES) INDIVIDUAL_BUFFER_SIZES ev d) :
    MessageApart events messages ev := by
  have hle := hlog.buffers_le
  exact h.apart (by decide) (by omega) fun x h1 h2 => hlog.console x (.inr ⟨by omega, by omega⟩)

include h hshape

/-- The end of a line, when its events have been prepared. -/
lemma ConsoleInv.endLine (evs : List IOEvent) {ds : List Shown} (hmem : ∀ x, ¬LogBytes log x → mem' x = c.mem x)
    (hshown : evs.map (fun ev => ev.shown mem') = ds) (hlen : ∀ ev ∈ evs, ev.len ≤ IO_EVENT_MSG_BUFFER_SIZE)
    (hev : ∀ ev ∈ evs, MessageApart events messages ev) : ∃ c',
    (do
      let _ ← consoleWriteMultiple evs
      let _ ← consoleFlush
      return ()) { c with mem := mem' } = ((.ok () : Except Halt Unit), c') ∧
      ConsoleInv events messages c' (written ++ ds) ∧
      ∀ x, ¬ConsoleBytes events messages x → ¬LogBytes log x → c'.mem x = c.mem x := by
  have hprinted : ConsoleInv events messages { c with mem := mem' } written :=
    h.setMem fun x h1 h2 => hmem x fun hx => hlog.console x hx (.inr ⟨h1, h2⟩)
  obtain ⟨c', hrun, hinv, hsame⟩ := hprinted.writeFlush hshape hlen hev
  rw [← hshown]
  refine ⟨c', hrun, hinv, fun x h1 h2 => (hsame x ?_).trans (hmem x h2)⟩
  unfold ConsoleBytes at h1
  omega

/-- A line that fits is shown. -/
lemma ConsoleInv.logLine {line : LogLine} (hfits : LineFits log line) : ∃ c', line.call log c = (.ok (), c') ∧
    ConsoleInv events messages c' (written ++ lineShown log line) ∧
    ∀ x, ¬ConsoleBytes events messages x → ¬LogBytes log x → c'.mem x = c.mem x := by
  have hdisj := hlog.disjoint
  cases line with
  | log levelStr level color file func line fmt args =>
    by_cases hlevel : level < log.dynamicLogLevel
    · refine ⟨c, ?_, ?_, fun _ _ _ => rfl⟩
      · rw [LogLine.call, _log, if_pos hlevel]
        rfl
      · rw [lineShown, if_pos hlevel, List.append_nil]
        exact h
    · obtain ⟨hfits₀, hfits₁, hfits₂⟩ := hfits (Nat.le_of_not_lt hlevel)
      obtain ⟨ev₀, m₀, hrun₀, hprep₀, hout₀⟩ := logEvent_ok log IO_DEFAULT_COLOR_BG color log.levelBuffer c hfits₀
      obtain ⟨ev₁, m₁, hrun₁, hprep₁, hout₁⟩ := logEvent_ok log color IO_DEFAULT_COLOR_BG log.buffers
        { c with mem := m₀ } hfits₁
      obtain ⟨ev₂, m₂, hrun₂, hprep₂, hout₂⟩ := logEvent_ok log color IO_DEFAULT_COLOR_BG
        (log.buffers + INDIVIDUAL_BUFFER_SIZES) { c with mem := m₁ } hfits₂
      -- the events that are there stay as they are while the next one is printed
      have hkeep₀ : Formatted m₂ log.levelBuffer LEVEL_BUFFER_SIZE ev₀ _ := hprep₀.keep fun x h1 h2 =>
        (hout₂ x fun hx => hdisj x h1 h2 (by omega)).trans (hout₁ x fun hx => hdisj x h1 h2 (by omega))
      have hkeep₁ : Formatted m₂ log.buffers INDIVIDUAL_BUFFER_SIZES ev₁ _ := hprep₁.keep fun x h1 h2 =>
        hout₂ x (by omega)
      have hmem : ∀ x, ¬LogBytes log x → m₂ x = c.mem x := by
        intro x hx
        unfold LogBytes at hx
        exact (hout₂ x (by omega)).trans ((hout₁ x (by omega)).trans (hout₀ x (by omega)))
      obtain ⟨c', hrun, hinv, hout⟩ := h.endLine hshape hlog [ev₀, ev₁, ev₂] hmem rfl
        (by simp [hprep₀.len, hprep₁.len, hprep₂.len])
        (by simp [hlog.level_apart hprep₀, hlog.first_apart hprep₁, hlog.second_apart hprep₂])
      refine ⟨c', ?_, ?_, hout⟩
      · rw [LogLine.call, _log, if_neg hlevel, Call.bind_ok hrun₀, Call.bind_ok hrun₁, Call.bind_ok hrun₂]
        exact hrun
      · rw [lineShown, if_neg hlevel, ← hkeep₀.shown, ← hkeep₁.shown, ← hprep₂.shown]
        exact hinv
  | userLog levelStr color fmt args =>
    obtain ⟨hfits₀, hfits₁⟩ := hfits
    obtain ⟨ev₀, m₀, hrun₀, hprep₀, hout₀⟩ := logEvent_ok log IO_DEFAULT_COLOR_BG color log.levelBuffer c hfits₀
    obtain ⟨ev₁, m₁, hrun₁, hprep₁, hout₁⟩ := logEvent_ok log IO_DEFAULT_COLOR_FG IO_DEFAULT_COLOR_BG log.buffers
      { c with mem := m₀ } hfits₁
    have hkeep₀ : Formatted m₁ log.levelBuffer LEVEL_BUFFER_SIZE ev₀ _ := hprep₀.keep fun x h1 h2 =>
      hout₁ x fun hx => hdisj x h1 h2 (by omega)
    have hmem : ∀ x, ¬LogBytes log x → m₁ x = c.mem x := by
      intro x hx
      unfold LogBytes at hx
      exact (hout₁ x (by omega)).trans (hout₀ x (by omega))
    obtain ⟨c', hrun, hinv, hout⟩ := h.endLine hshape hlog [ev₀, ev₁] hmem rfl
      (by simp [hprep₀.len, hprep₁.len]) (by simp [hlog.level_apart hprep₀, hlog.first_apart hprep₁])
    refine ⟨c', ?_, ?_, hout⟩
    · rw [LogLine.call, _userLog, Call.bind_ok hrun₀, Call.bind_ok hrun₁]
      exact hrun
    · rw [lineShown, ← hkeep₀.shown, ← hprep₁.shown]
      exact hinv

end Line

end KaworuOS.Proofs
