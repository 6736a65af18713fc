import KaworuOS.Proofs.Console

/-!
# Room for what is written to the console

`_console_write` asks whether an event fits only when buffering is enabled, and flushes when it does not. A
message that is larger than the buffer does not fit after the flush either, and without buffering nothing
makes room for it.
-/

namespace KaworuOS.Proofs
open Lib

/-- The calls on the console that are made between its initialisation and a panic, and other code. -/
inductive ConsoleUse
  | write (e : IOEvent)
  | writeMultiple (evs : List IOEvent)
  | flush
  | setBuffering (buffering : Bool)
  | other (mem : Mem)

/-- The call of the sources. -/
def ConsoleUse.call : ConsoleUse → ConsoleCall Unit
  | write e => do
    let _ ← consoleWrite e
    return ()
  | writeMultiple evs => do
    let _ ← consoleWriteMultiple evs
    return ()
  | flush => do
    let _ ← consoleFlush
    return ()
  | setBuffering buffering => consoleSetBuffering buffering
  | other mem => Call.update (fun c => { c with mem := mem })

/-- One call after the other, until one of them stops. -/
def useConsole (uses : List ConsoleUse) : ConsoleCall Unit := Call.each ConsoleUse.call uses

/-- The event finds room: with buffering its message is not larger than the buffer, and without it there is room
beside what has been left in the buffers. -/
def Fits (c : Console) (ev : IOEvent) : Prop :=
  if c.enableBuffering then ev.len ≤ IO_EVENT_MSG_BUFFER_SIZE else canFit c ev = true

/-- The events of a call find room. After the first of them the buffers can be emptied. -/
def FitsEach (c : Console) : List IOEvent → Prop
  | [] => True
  | ev :: evs => Fits c ev ∧ ∀ e ∈ evs, e.len ≤ IO_EVENT_MSG_BUFFER_SIZE

/-- What is written by a call finds room in the console before the call. -/
def ConsoleUse.FitsIn (c : Console) : ConsoleUse → Prop
  | write e => Fits c e
  | writeMultiple evs => FitsEach c evs
  | _ => True

/-- Each of the calls finds room in the state in which it is made. -/
def AllFit : List ConsoleUse → Console → Prop
  | [], _ => True
  | use :: uses, c => use.FitsIn c ∧ AllFit uses (use.call c).2

/-- There is room, the mode is the one of `c`, and nothing is left in the buffers unless it is to be. -/
structure RoomAfter (c c' : Console) : Prop where
  room : HasRoom c'
  mode : c'.enableBuffering = c.enableBuffering
  empty : c.enableBuffering = false → c'.ioEvents.count = 0 ∧ c'.ioMessages.count = 0

variable {c c' : Console} {ev : IOEvent}

lemma arenaAlloc_full {arena : Arena} {size : Nat} (hcapacity : arena.capacity < 2 ^ 64)
    (hle : arena.count ≤ arena.capacity) (hfull : ¬arena.count + size ≤ arena.capacity) :
    arenaAlloc arena size = (.error .ENOMEM, arena) := by
  have hleft : wsub arena.capacity arena.count = arena.capacity - arena.count := wsub_of_le hle hcapacity
  rw [arenaAlloc, arenaLeft, hleft, if_pos (by omega)]

lemma writeEvent_long {errno : Errno} {messages' : Arena}
    (hmsg : arenaAlloc c.ioMessages ev.len = (.error errno, messages')) : (writeEvent ev c).1 = .error .panic := by
  have h1 : Call.read (ε := Halt) (fun c : Console => arenaAlloc c.ioMessages ev.len) c =
      (.ok (.error errno, messages'), c) := congrArg (fun r => (Except.ok r, c)) hmsg
  have hpanic : writeEvent ev c = (.error .panic, c) := by
    unfold writeEvent
    exact (Call.bind_ok h1).trans rfl
  rw [hpanic]

lemma writeEvent_full {m : Nat} {errno : Errno} {messages' events' : Arena}
    (hmsg : arenaAlloc c.ioMessages ev.len = (.ok m, messages'))
    (hevent : arenaAlloc c.ioEvents IO_EVENT_SIZE = (.error errno, events')) :
    (writeEvent ev c).1 = .error .panic := by
  let c₁ : Console := { c with ioMessages := messages', mem := copyBytes c.mem m ev.msg ev.len }
  have h1 : Call.read (ε := Halt) (fun c : Console => arenaAlloc c.ioMessages ev.len) c =
      (.ok (.ok m, messages'), c) := congrArg (fun r => (Except.ok r, c)) hmsg
  have h2 : Call.read (ε := Halt) (fun c : Console => arenaAlloc c.ioEvents IO_EVENT_SIZE) c₁ =
      (.ok (.error errno, events'), c₁) := congrArg (fun r => (Except.ok r, c₁)) hevent
  have hpanic : writeEvent ev c = (.error .panic, c₁) := by
    unfold writeEvent
    refine (Call.bind_ok h1).trans ?_
    refine (Call.bind_ok (x := Call.update _) rfl).trans ?_
    exact (Call.bind_ok h2).trans rfl
  rw [hpanic]

section Room

variable (h : HasRoom c)
include h

lemma HasRoom.writeEvent_returns (hfit : canFit c ev = true) :
    ∃ ev' c', writeEvent ev c = (.ok ev', c') ∧ HasRoom c' ∧ c'.enableBuffering = c.enableBuffering := by
  obtain ⟨hlen, hroom⟩ := h.canFit_iff.mp hfit
  have h1 : c.ioEvents.capacity = 120 := h.events_capacity
  have h2 : c.ioMessages.capacity = 500 := h.messages_capacity
  have hmsg := @arenaAlloc_fits c.ioMessages ev.len (by omega) (by omega)
  have hevent := @arenaAlloc_fits c.ioEvents IO_EVENT_SIZE (by omega) (by rw [h1]; exact hroom)
  exact ⟨_, _, writeEvent_ok hmsg hevent, ⟨h.events_capacity, hroom, h.messages_capacity, hlen⟩, rfl⟩

lemma HasRoom.writeEvent_panics (hfit : ¬canFit c ev = true) : (writeEvent ev c).1 = .error .panic := by
  rw [h.canFit_iff] at hfit
  have h1 : c.ioEvents.capacity = 120 := h.events_capacity
  have h2 : c.ioMessages.capacity = 500 := h.messages_capacity
  have h3 : c.ioEvents.count ≤ 120 := h.events_le
  have h4 : c.ioMessages.count ≤ 500 := h.messages_le
  by_cases hlen : c.ioMessages.count + ev.len ≤ 500
  · -- the message has been copied when the event does not fit
    have hmsg := @arenaAlloc_fits c.ioMessages ev.len (by omega) (by omega)
    have hfull : ¬c.ioEvents.count + IO_EVENT_SIZE ≤ c.ioEvents.capacity := by
      rw [h1]
      exact fun hroom => hfit ⟨hlen, hroom⟩
    exact writeEvent_full hmsg (arenaAlloc_full (by omega) (by omega) hfull)
  · exact writeEvent_long (arenaAlloc_full (by omega) (by omega) (by omega))

lemma HasRoom.flush : ∃ c', consoleFlushLocked c = (.ok .EOK, c') ∧ HasRoom c' ∧
    c'.enableBuffering = c.enableBuffering ∧ c'.ioEvents.count = 0 ∧ c'.ioMessages.count = 0 := by
  have hfinalize : ∃ c₁, finalizeWrite c = (.ok (), c₁) ∧ c₁.enableBuffering = c.enableBuffering ∧
      c₁.ioEvents.capacity = c.ioEvents.capacity ∧ c₁.ioMessages.capacity = c.ioMessages.capacity := by
    unfold finalizeWrite
    rw [Call.read_bind, Call.read_bind, finalizeWrite_each]
    exact ⟨_, rfl, rfl, rfl, rfl⟩
  obtain ⟨c₁, hrun, hmode, hevents, hmessages⟩ := hfinalize
  exact ⟨_, Call.bind_ok hrun, ⟨hevents.trans h.events_capacity, Nat.zero_le _, hmessages.trans h.messages_capacity,
    Nat.zero_le _⟩, hmode, rfl, rfl⟩

lemma HasRoom.write_returns (hfit : Fits c ev) :
    ∃ ev' c', consoleWriteLocked ev c = (.ok (.EOK, ev'), c') ∧ RoomAfter c c' := by
  unfold consoleWriteLocked
  rw [Call.read_bind]
  cases hmode : c.enableBuffering with
  | false =>
    rw [Fits, hmode, if_neg Bool.false_ne_true] at hfit
    obtain ⟨ev', c₁, hwrite, hroom, hmode₁⟩ := h.writeEvent_returns hfit
    obtain ⟨c₂, hflush, hroom₂, hmode₂, hempty⟩ := hroom.flush
    refine ⟨ev', c₂, ?_, hroom₂, hmode₂.trans hmode₁, fun _ => hempty⟩
    simp only [id, hmode]
    rw [if_pos (show (!false) = true from rfl), Call.bind_ok hwrite, Call.bind_ok hflush]
    rfl
  | true =>
    rw [Fits, hmode, if_pos rfl] at hfit
    have hlen : ev.len ≤ 500 := hfit
    simp only [id, hmode]
    rw [if_neg (show ¬(!true) = true by decide)]
    by_cases hroom : canFit c ev = true
    · obtain ⟨ev', c₁, hwrite, hroom₁, hmode₁⟩ := h.writeEvent_returns hroom
      refine ⟨ev', c₁, ?_, hroom₁, hmode₁, fun hf => absurd (hmode.symm.trans hf) (by decide)⟩
      rw [if_neg (by rw [hroom]; decide), Call.bind_ok hwrite]
      rfl
    · -- a flush makes room for it
      obtain ⟨c₁, hflush, hroom₁, hmode₁, hevents, hmessages⟩ := h.flush
      have hfit₁ : canFit c₁ ev = true := by
        rw [hroom₁.canFit_iff]
        omega
      obtain ⟨ev', c₂, hwrite, hroom₂, hmode₂⟩ := hroom₁.writeEvent_returns hfit₁
      refine ⟨ev', c₂, ?_, hroom₂, hmode₂.trans hmode₁, fun hf => absurd (hmode.symm.trans hf) (by decide)⟩
      rw [if_pos (by simpa using hroom), Call.bind_ok hflush, Call.bind_ok hwrite]
      rfl

lemma HasRoom.write_panics (hfit : ¬Fits c ev) : (consoleWriteLocked ev c).1 = .error .panic := by
  unfold consoleWriteLocked
  rw [Call.read_bind]
  cases hmode : c.enableBuffering with
  | false =>
    rw [Fits, hmode, if_neg Bool.false_ne_true] at hfit
    simp only [id, hmode]
    rw [if_pos (show (!false) = true from rfl), Call.bind_error (Call.eq_of_fst (h.writeEvent_panics hfit))]
  | true =>
    rw [Fits, hmode, if_pos rfl] at hfit
    have hlen : ¬ev.len ≤ 500 := hfit
    -- it does not fit, and not after the flush either
    have hfull : ¬canFit c ev = true := by
      rw [h.canFit_iff]
      omega
    obtain ⟨c₁, hflush, hroom₁, -⟩ := h.flush
    have hfull₁ : ¬canFit c₁ ev = true := by
      rw [hroom₁.canFit_iff]
      omega
    simp only [id, hmode]
    rw [if_neg (show ¬(!true) = true by decide), if_pos (by simpa using hfull), Call.bind_ok hflush,
      Call.bind_error (Call.eq_of_fst (hroom₁.writeEvent_panics hfull₁))]

end Room

/-- After a write, an event finds room if its message is not larger than the buffer. -/
lemma RoomAfter.fits_iff (h : RoomAfter c c') : Fits c' ev ↔ ev.len ≤ IO_EVENT_MSG_BUFFER_SIZE := by
  rw [Fits]
  cases hmode : c.enableBuffering with
  | true => rw [h.mode, hmode, if_pos rfl]
  | false =>
    obtain ⟨hevents, hmessages⟩ := h.empty hmode
    rw [h.mode, hmode, if_neg Bool.false_ne_true, h.room.canFit_iff, hevents, hmessages]
    show _ ↔ ev.len ≤ 500
    omega

lemma RoomAfter.fitsEach_iff (h : RoomAfter c c') (evs : List IOEvent) :
    FitsEach c' evs ↔ ∀ e ∈ evs, e.len ≤ IO_EVENT_MSG_BUFFER_SIZE := by
  cases evs with
  | nil => simp [FitsEach]
  | cons ev evs => rw [FitsEach, h.fits_iff, List.forall_mem_cons]

/-- What a call does when `fits` says that its events find room: it returns, with room left, or it panics. -/
def ReturnsIff {α : Type} (x : ConsoleCall α) (c : Console) (fits : Prop) : Prop :=
  (fits → ∃ a c', x c = (.ok a, c') ∧ HasRoom c') ∧ (¬fits → (x c).1 = .error .panic)

lemma ReturnsIff.then {α : Type} {x : ConsoleCall α} {fits : Prop} (h : ReturnsIff x c fits) :
    ReturnsIff (do let _ ← x; return ()) c fits := by
  refine ⟨fun hfits => ?_, fun hfits => ?_⟩
  · obtain ⟨a, c', hrun, hroom⟩ := h.1 hfits
    exact ⟨(), c', by rw [Call.bind_ok hrun]; rfl, hroom⟩
  · rw [Call.bind_error (Call.eq_of_fst (h.2 hfits))]

lemma HasRoom.writeEach (h : HasRoom c) (evs : List IOEvent) :
    ReturnsIff (consoleWriteEach evs) c (FitsEach c evs) := by
  induction evs generalizing c with
  | nil => exact ⟨fun _ => ⟨_, c, rfl, h⟩, fun hfits => absurd trivial hfits⟩
  | cons ev evs ih =>
    rw [consoleWriteEach]
    by_cases hfit : Fits c ev
    · obtain ⟨ev', c₁, hfirst, hafter⟩ := h.write_returns hfit
      obtain ⟨hreturns, hpanics⟩ := ih hafter.room
      rw [hafter.fitsEach_iff] at hreturns hpanics
      refine ⟨fun hfits => ?_, fun hfits => ?_⟩
      · obtain ⟨⟨ret, evs'⟩, c₂, hrest, hroom⟩ := hreturns hfits.2
        refine ⟨(ret, ev' :: evs'), c₂, ?_, hroom⟩
        rw [Call.bind_ok hfirst]
        dsimp only
        rw [if_neg (by decide), Call.bind_ok hrest]
        rfl
      · have hrest := Call.eq_of_fst (hpanics (fun hlen => hfits ⟨hfit, hlen⟩))
        rw [Call.bind_ok hfirst]
        dsimp only
        rw [if_neg (by decide), Call.bind_error hrest]
    · refine ⟨fun hfits => absurd hfits.1 hfit, fun _ => ?_⟩
      rw [Call.bind_error (Call.eq_of_fst (h.write_panics hfit))]

lemma HasRoom.use (h : HasRoom c) (use : ConsoleUse) : ReturnsIff use.call c (use.FitsIn c) := by
  cases use with
  | write e =>
    have hlocked : ReturnsIff (consoleWriteLocked e) c (Fits c e) := by
      refine ⟨fun hfit => ?_, h.write_panics⟩
      obtain ⟨e', c', hrun, hafter⟩ := h.write_returns hfit
      exact ⟨_, c', hrun, hafter.room⟩
    have hwrite : ReturnsIff (consoleWrite e) c (Fits c e) := by
      refine ⟨fun hfit => ?_, fun hfit => ?_⟩
      · obtain ⟨a, c', hrun, hroom⟩ := hlocked.1 hfit
        exact ⟨a.1, c', by rw [consoleWrite, Call.bind_ok hrun]; rfl, hroom⟩
      · rw [consoleWrite, Call.bind_error (Call.eq_of_fst (hlocked.2 hfit))]
    exact hwrite.then
  | writeMultiple evs => exact (h.writeEach evs).then
  | flush =>
    obtain ⟨c', hrun, hroom, -⟩ := h.flush
    have hflush : ReturnsIff consoleFlush c True := by
      refine ⟨fun _ => ⟨.EOK, c', by rw [consoleFlush, Call.bind_ok hrun]; rfl, hroom⟩, fun hf => absurd trivial hf⟩
    exact hflush.then
  | setBuffering buffering =>
    exact ⟨fun _ => ⟨(), _, rfl, h.events_capacity, h.events_le, h.messages_capacity, h.messages_le⟩,
      fun hf => absurd trivial hf⟩
  | other mem =>
    exact ⟨fun _ => ⟨(), _, rfl, h.events_capacity, h.events_le, h.messages_capacity, h.messages_le⟩,
      fun hf => absurd trivial hf⟩

lemma HasRoom.useConsole (h : HasRoom c) (uses : List ConsoleUse) :
    (KaworuOS.Proofs.useConsole uses c).1 ≠ .error .panic ↔ AllFit uses c := by
  unfold KaworuOS.Proofs.useConsole
  induction uses generalizing c with
  | nil => exact ⟨fun _ => trivial, fun _ hf => by cases hf⟩
  | cons use uses ih =>
    rw [Call.each, AllFit]
    by_cases hfit : use.FitsIn c
    · obtain ⟨⟨⟩, c', hrun, hroom⟩ := (h.use use).1 hfit
      rw [Call.bind_ok hrun, ih hroom, hrun]
      exact ⟨fun hrest => ⟨hfit, hrest⟩, And.right⟩
    · rw [Call.bind_error (Call.eq_of_fst ((h.use use).2 hfit))]
      exact ⟨fun hne => absurd rfl hne, fun hall => absurd hall.1 hfit⟩

lemma room_init (hfresh : Fresh c) {events messages : Nat} {buffering : Bool}
    (hcall : consoleInit events messages buffering c = (.ok .EOK, c')) : HasRoom c' := by
  obtain ⟨-, rfl⟩ := Prod.mk.inj hcall
  exact ⟨rfl, hfresh.events.trans_le (Nat.zero_le _), rfl, hfresh.messages.trans_le (Nat.zero_le _)⟩

/-- **Assertions of `write_event`.** After `console_init`, a sequence of calls fails none of them exactly if each
call finds room in the state in which it is made. -/
theorem console_asserts_hold_iff {events messages : Nat} {buffering : Bool} (hfresh : Fresh c)
    (hinit : consoleInit events messages buffering c = (.ok .EOK, c')) (uses : List ConsoleUse) :
    (useConsole uses c').1 ≠ .error .panic ↔ AllFit uses c' :=
  (room_init hfresh hinit).useConsole uses

/-- A message of the largest size without buffering. -/
theorem console_asserts_hold_iff_full :
    Fresh consoleBoot ∧ (useConsole [.setBuffering false, .write (ioEventDefault 0x60 500)] consoleReady.console).1 ≠
      .error .panic := by
  refine ⟨fresh_consoleBoot, (console_asserts_hold_iff fresh_consoleBoot init_consoleReady _).mpr
    ⟨trivial, ?_, trivial⟩⟩
  show canFit _ _ = true
  decide +kernel

/-- One byte more than the buffer holds; and two messages of 300 bytes, where buffering is disabled between them
without a flush. -/
theorem console_assert_fails :
    (useConsole [.write (ioEventDefault 0x60 501)] consoleReady.console).1 = .error .panic ∧
      (useConsole [.write (ioEventDefault 0x60 300), .setBuffering false, .write (ioEventDefault 0x60 300)]
        consoleReady.console).1 = .error .panic := by
  decide +kernel

end KaworuOS.Proofs
