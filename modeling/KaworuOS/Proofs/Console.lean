import KaworuOS.Console
import KaworuOS.Proofs.Pmm
import Mathlib.Logic.Relation

/-!
# What the console has been given is what the backends see

The events that have been written and not been flushed yet lie in the two arenas, in order. As long
as no message of a caller lies in the console's own buffers, an event in the arena is shown as it was
when it was written.
-/

namespace KaworuOS.Proofs
open Lib

/-- The storage that the console has been initialised with, which ends inside the address space. -/
structure ConsoleShape (events messages : Nat) : Prop where
  events : events + IO_EVENT_BUFFER_SIZE < wordSize
  messages : messages + IO_EVENT_MSG_BUFFER_SIZE < wordSize

/-- The storage of the console. -/
def ConsoleBytes (events messages x : Nat) : Prop :=
  (events ≤ x ∧ x < events + IO_EVENT_BUFFER_SIZE) ∨ (messages ≤ x ∧ x < messages + IO_EVENT_MSG_BUFFER_SIZE)

/-- The message lies outside of the buffers of the console. -/
structure MessageApart (events messages : Nat) (ev : IOEvent) : Prop where
  bound : ev.msg + ev.len ≤ wordSize
  messages : ev.msg + ev.len ≤ messages ∨ messages + IO_EVENT_MSG_BUFFER_SIZE ≤ ev.msg
  events : ev.msg + ev.len ≤ events ∨ events + IO_EVENT_BUFFER_SIZE ≤ ev.msg

/-- A message in a span of memory that holds none of the storage. -/
lemma messageApart_of_span {events messages a n : Nat} {ev : IOEvent} (hbound : a + n ≤ wordSize) (hn : 0 < n)
    (hspan : ∀ x, a ≤ x → x < a + n → ¬ConsoleBytes events messages x) (hmsg : ev.msg = a) (hlen : ev.len ≤ n) :
    MessageApart events messages ev := by
  unfold ConsoleBytes at hspan
  refine ⟨by omega, ?_, ?_⟩
  · have h := hspan (max a messages)
    simp only [IO_EVENT_MSG_BUFFER_SIZE] at h ⊢
    omega
  · have h := hspan (max a events)
    simp only [IO_EVENT_BUFFER_SIZE, IO_EVENT_SIZE] at h ⊢
    omega

/-- The event is shown as `d`, and its message lies in the first `top` bytes of the message buffer. -/
structure StoredAs (messages top : Nat) (mem : Mem) (ev : IOEvent) (d : Shown) : Prop where
  shown : ev.shown mem = d
  low : messages ≤ ev.msg
  high : ev.msg + ev.len ≤ messages + top

/-- The arenas have the size of the storage and are not overfull. -/
structure HasRoom (c : Console) : Prop where
  events_capacity : c.ioEvents.capacity = IO_EVENT_BUFFER_SIZE
  events_le : c.ioEvents.count ≤ IO_EVENT_BUFFER_SIZE
  messages_capacity : c.ioMessages.capacity = IO_EVENT_MSG_BUFFER_SIZE
  messages_le : c.ioMessages.count ≤ IO_EVENT_MSG_BUFFER_SIZE

/-- `written` is what the console has been given so far: the backends have received what was written
before the last flush, and the rest is in the arenas. -/
structure Buffered (events messages : Nat) (c : Console) (written : List Shown) : Prop where
  events_pool : c.ioEvents.pool = events
  events_capacity : c.ioEvents.capacity = IO_EVENT_BUFFER_SIZE
  events_count : c.ioEvents.count = IO_EVENT_SIZE * (written.length - c.settled)
  events_le : c.ioEvents.count ≤ c.ioEvents.capacity
  messages_pool : c.ioMessages.pool = messages
  messages_capacity : c.ioMessages.capacity = IO_EVENT_MSG_BUFFER_SIZE
  messages_le : c.ioMessages.count ≤ c.ioMessages.capacity
  settled_le : c.settled ≤ written.length
  writes : c.writes = written.length
  stored : ∀ i d, written[c.settled + i]? = some d →
    StoredAs messages c.ioMessages.count c.mem (c.eventAt (events + IO_EVENT_SIZE * i)) d
  received : ∀ b ∈ c.backends, b.received = written.take c.settled

/-- The memories agree outside of the message buffer. -/
def SameMessages (messages : Nat) (mem mem' : Mem) : Prop :=
  ∀ x, x < messages ∨ messages + IO_EVENT_MSG_BUFFER_SIZE ≤ x → mem' x = mem x

variable {events messages : Nat} {c c' : Console} {written : List Shown} {ev : IOEvent}

lemma SameMessages.shown {mem mem' : Mem} (h : SameMessages messages mem mem') (hev : MessageApart events messages ev) :
    ev.shown mem' = ev.shown mem := by
  have hbytes : mem'.bytes ev.msg ev.len = mem.bytes ev.msg ev.len := by
    apply Mem.bytes_congr
    intro x h1 h2
    have h3 := hev.messages
    exact h x (by omega)
  rw [IOEvent.shown, IOEvent.shown, hbytes]

lemma StoredAs.blit {top n src : Nat} {mem : Mem} {d : Shown} (h : StoredAs messages top mem ev d) :
    StoredAs messages (top + n) (mem.blit (messages + top) src n) ev d := by
  have hlow := h.low
  have hhigh := h.high
  refine ⟨?_, hlow, by omega⟩
  have hbytes : (mem.blit (messages + top) src n).bytes ev.msg ev.len = mem.bytes ev.msg ev.len :=
    Mem.bytes_congr (Mem.blit_eqOn mem (by omega))
  rw [← h.shown, IOEvent.shown, IOEvent.shown, hbytes]

lemma storedAs_copy (messages top : Nat) (mem : Mem) (ev : IOEvent) :
    StoredAs messages (top + ev.len) (mem.blit (messages + top) ev.msg ev.len) { ev with msg := messages + top }
      (ev.shown mem) := by
  refine ⟨?_, Nat.le_add_right _ _, Nat.le_of_eq (Nat.add_assoc _ _ _)⟩
  rw [IOEvent.shown, IOEvent.shown, Mem.bytes_blit]

lemma arenaAlloc_fits {arena : Arena} {size : Nat} (hcapacity : arena.capacity < 2 ^ 64)
    (hfit : arena.count + size ≤ arena.capacity) : arenaAlloc arena size =
      (.ok (wadd arena.pool arena.count), { arena with count := arena.count + size }) := by
  have hleft : wsub arena.capacity arena.count = arena.capacity - arena.count := wsub_of_le (by omega) (by omega)
  have hcount : wadd arena.count size = arena.count + size := wadd_of_lt (by omega)
  rw [arenaAlloc, arenaLeft, hleft, if_neg (by omega), hcount]

/-- In a pool that does not wrap around. -/
lemma arenaAlloc_ok {arena : Arena} {size : Nat} (hfit : arena.count + size ≤ arena.capacity)
    (htop : arena.pool + arena.capacity < 2 ^ 64) :
    arenaAlloc arena size = (.ok (arena.pool + arena.count), { arena with count := arena.count + size }) := by
  rw [arenaAlloc_fits (by omega) hfit, wadd_of_lt (by omega)]

lemma arenaCanFit_iff {arena : Arena} {size : Nat} (hle : arena.count ≤ arena.capacity)
    (hcapacity : arena.capacity < 2 ^ 64) :
    arenaCanFit arena size = true ↔ arena.count + size ≤ arena.capacity := by
  rw [arenaCanFit, wsub_of_le hle hcapacity, decide_eq_true_iff]
  omega

lemma finalizeWrite_each (l : List Nat) (c : Console) (pool : Nat) :
    Call.each (fun i => do
      let ev ← Call.read (fun c => c.eventAt (wadd pool (wmul i IO_EVENT_SIZE)))
      writeToAllBackends ev) l c =
      ((.ok () : Except Halt Unit), { c with
        backends := c.backends.map (fun b => { b with
          received := b.received ++
            l.map (fun i => (c.eventAt (wadd pool (wmul i IO_EVENT_SIZE))).shown c.mem) }) }) := by
  induction l generalizing c with
  | nil => simp [Call.each]
  | cons i l ih =>
    have hfirst : (do
        let ev ← Call.read (fun c : Console => c.eventAt (wadd pool (wmul i IO_EVENT_SIZE)))
        writeToAllBackends ev) c = ((.ok () : Except Halt Unit), { c with
          backends := c.backends.map (fun b => { b with
            received := b.received ++ [(c.eventAt (wadd pool (wmul i IO_EVENT_SIZE))).shown c.mem] }) }) := rfl
    rw [Call.each, Call.bind_ok hfirst, ih]
    simp [Function.comp_def]

section Buffered

variable (h : Buffered events messages c written) (hshape : ConsoleShape events messages)
include h

lemma Buffered.room : written.length - c.settled ≤ 5 := by
  have h1 : c.ioEvents.count = 24 * (written.length - c.settled) := h.events_count
  have h2 : c.ioEvents.capacity = 120 := h.events_capacity
  have h3 := h.events_le
  omega

include hshape

lemma Buffered.event_addr {i : Nat} (hi : i < written.length - c.settled) :
    wadd events (wmul i IO_EVENT_SIZE) = events + IO_EVENT_SIZE * i := by
  have h1 : events + 120 < 2 ^ 64 := hshape.events
  have h2 := h.room
  have h3 : wmul i 24 = i * 24 := wmul_of_lt (by omega)
  rw [h3, wadd_of_lt (by omega), Nat.mul_comm]

lemma Buffered.pending : (List.range (written.length - c.settled)).map
    (fun i => (c.eventAt (wadd events (wmul i IO_EVENT_SIZE))).shown c.mem) = written.drop c.settled := by
  apply List.ext_getElem?
  intro i
  rw [List.getElem?_map, List.getElem?_drop]
  by_cases hi : i < written.length - c.settled
  · have hget : written[c.settled + i]? = some written[c.settled + i] := List.getElem?_eq_getElem (by omega)
    rw [List.getElem?_range hi, hget, Option.map_some, h.event_addr hshape hi, (h.stored i _ hget).shown]
  · have hlen : written.length ≤ c.settled + i := by omega
    rw [List.getElem?_eq_none (by simpa using hi), List.getElem?_eq_none hlen]
    rfl

lemma Buffered.flush :
    ∃ c', consoleFlushLocked c = (.ok .EOK, c') ∧ Buffered events messages c' written ∧
      c'.settled = written.length ∧ c'.ioMessages.count = 0 ∧ c'.mem = c.mem ∧
      c'.enableBuffering = c.enableBuffering := by
  have hcount : c.ioEvents.count / IO_EVENT_SIZE = written.length - c.settled := by
    rw [h.events_count]
    exact Nat.mul_div_cancel_left _ (by decide)
  have hfinalize : finalizeWrite c = (.ok (), { c with
      backends := c.backends.map (fun b => { b with received := b.received ++ written.drop c.settled }) }) := by
    unfold finalizeWrite
    rw [Call.read_bind, Call.read_bind, hcount, h.events_pool, finalizeWrite_each, h.pending hshape]
  refine ⟨_, Call.bind_ok hfinalize, ?_, h.writes, rfl, rfl, rfl⟩
  have hdone : written.length - c.writes = 0 := by
    rw [h.writes]
    omega
  refine ⟨h.events_pool, h.events_capacity, ?_, Nat.zero_le _, h.messages_pool, h.messages_capacity, Nat.zero_le _,
    Nat.le_of_eq h.writes, h.writes, ?_, ?_⟩
  · show 0 = IO_EVENT_SIZE * (written.length - c.writes)
    rw [hdone, Nat.mul_zero]
  · intro i d hd
    change written[c.writes + i]? = some d at hd
    rw [h.writes, List.getElem?_eq_none (by omega)] at hd
    cases hd
  · intro b hb
    obtain ⟨b₁, hb₁, rfl⟩ := List.mem_map.mp hb
    obtain ⟨b₂, hb₂, rfl⟩ := List.mem_map.mp hb₁
    show b₂.received ++ written.drop c.settled = written.take c.writes
    rw [h.received b₂ hb₂, List.take_append_drop, h.writes, List.take_length]

end Buffered

/-- The event with its message in the next place of the message arena. -/
def moved (c : Console) (ev : IOEvent) : IOEvent := { ev with msg := c.ioMessages.pool + c.ioMessages.count }

/-- The state after `write_event`, which has stored the message and the event in the next places of the
arenas. -/
def afterWrite (c : Console) (ev : IOEvent) : Console :=
  { c with
    mem := c.mem.blit (c.ioMessages.pool + c.ioMessages.count) ev.msg ev.len
    ioMessages := { c.ioMessages with count := c.ioMessages.count + ev.len }
    ioEvents := { c.ioEvents with count := c.ioEvents.count + IO_EVENT_SIZE }
    eventAt := Function.update c.eventAt (c.ioEvents.pool + c.ioEvents.count) (moved c ev)
    writes := c.writes + 1 }

lemma writeEvent_ok {m e : Nat} {messages' events' : Arena} (hmsg : arenaAlloc c.ioMessages ev.len = (.ok m, messages'))
    (hevent : arenaAlloc c.ioEvents IO_EVENT_SIZE = (.ok e, events')) :
    writeEvent ev c = (.ok { ev with msg := m }, { c with
      mem := copyBytes c.mem m ev.msg ev.len
      ioMessages := messages'
      ioEvents := events'
      eventAt := Function.update c.eventAt e { ev with msg := m }
      writes := c.writes + 1 }) := by
  have h1 : (Call.read (fun c => arenaAlloc c.ioMessages ev.len) : ConsoleCall _) c = (.ok (.ok m, messages'), c) :=
    congrArg (fun r => (Except.ok r, c)) hmsg
  let c₁ : Console := { c with ioMessages := messages', mem := copyBytes c.mem m ev.msg ev.len }
  have h2 : Call.read (ε := Halt) (fun c : Console => arenaAlloc c.ioEvents IO_EVENT_SIZE) c₁ =
      (.ok (.ok e, events'), c₁) := congrArg (fun r => (Except.ok r, c₁)) hevent
  unfold writeEvent
  refine (Call.bind_ok h1).trans ?_
  refine (Call.bind_ok (x := Call.update _) rfl).trans ?_
  exact (Call.bind_ok h2).trans rfl

lemma HasRoom.canFit_iff (h : HasRoom c) :
    canFit c ev = true ↔ c.ioMessages.count + ev.len ≤ 500 ∧ c.ioEvents.count + 24 ≤ 120 := by
  have h1 : c.ioEvents.capacity = 120 := h.events_capacity
  have h2 : c.ioMessages.capacity = 500 := h.messages_capacity
  have h3 : c.ioEvents.count ≤ 120 := h.events_le
  have h4 : c.ioMessages.count ≤ 500 := h.messages_le
  rw [canFit, Bool.and_eq_true, arenaCanFit_iff (by omega) (by omega), arenaCanFit_iff (by omega) (by omega), h1, h2]

section Write

variable (h : Buffered events messages c written)
include h

lemma Buffered.hasRoom : HasRoom c where
  events_capacity := h.events_capacity
  events_le := h.events_capacity ▸ h.events_le
  messages_capacity := h.messages_capacity
  messages_le := h.messages_capacity ▸ h.messages_le

lemma Buffered.canFit_iff : canFit c ev = true ↔
    c.ioMessages.count + ev.len ≤ IO_EVENT_MSG_BUFFER_SIZE ∧ written.length - c.settled + 1 ≤ 5 := by
  have h1 : c.ioEvents.count = 24 * (written.length - c.settled) := h.events_count
  rw [h.hasRoom.canFit_iff, h1]
  simp only [IO_EVENT_MSG_BUFFER_SIZE]
  omega

lemma Buffered.writeEvent_eq (hshape : ConsoleShape events messages) (hfit : canFit c ev = true)
    (hev : MessageApart events messages ev) :
    writeEvent ev c = (.ok (moved c ev), afterWrite c ev) := by
  obtain ⟨hlen, hroom⟩ := (h.canFit_iff).mp hfit
  have hlen : c.ioMessages.count + ev.len ≤ 500 := hlen
  have hm : messages + 500 < 2 ^ 64 := hshape.messages
  have he : events + 120 < 2 ^ 64 := hshape.events
  have hb : ev.msg + ev.len ≤ 2 ^ 64 := hev.bound
  have hapart : ev.msg + ev.len ≤ messages ∨ messages + 500 ≤ ev.msg := hev.messages
  have h1 : c.ioEvents.count = 24 * (written.length - c.settled) := h.events_count
  have h2 : c.ioEvents.capacity = 120 := h.events_capacity
  have h3 : c.ioMessages.capacity = 500 := h.messages_capacity
  have h4 := h.messages_pool
  have h5 := h.events_pool
  have hmsg : arenaAlloc c.ioMessages ev.len = _ := arenaAlloc_ok (by omega) (by omega)
  have hevent : arenaAlloc c.ioEvents 24 = _ := arenaAlloc_ok (by omega) (by omega)
  have hcopy : copyBytes c.mem (c.ioMessages.pool + c.ioMessages.count) ev.msg ev.len =
      c.mem.blit (c.ioMessages.pool + c.ioMessages.count) ev.msg ev.len :=
    copyBytes_eq_blit _ (by omega) hb (by omega)
  rw [writeEvent_ok hmsg hevent, hcopy]
  rfl

lemma Buffered.write (hfit : canFit c ev = true) :
    Buffered events messages (afterWrite c ev) (written ++ [ev.shown c.mem]) := by
  obtain ⟨hlen, hroom⟩ := (h.canFit_iff).mp hfit
  have hlen : c.ioMessages.count + ev.len ≤ 500 := hlen
  have h1 : c.ioEvents.count = 24 * (written.length - c.settled) := h.events_count
  have h2 : c.ioEvents.capacity = 120 := h.events_capacity
  have h3 : c.ioMessages.capacity = 500 := h.messages_capacity
  have h4 := h.settled_le
  refine ⟨h.events_pool, h.events_capacity, ?_, ?_, h.messages_pool, h.messages_capacity, ?_, ?_, ?_, ?_, ?_⟩
  · show c.ioEvents.count + 24 = 24 * ((written ++ [ev.shown c.mem]).length - c.settled)
    rw [List.length_append, List.length_singleton]
    omega
  · show c.ioEvents.count + 24 ≤ c.ioEvents.capacity
    omega
  · show c.ioMessages.count + ev.len ≤ c.ioMessages.capacity
    omega
  · show c.settled ≤ (written ++ [ev.shown c.mem]).length
    rw [List.length_append, List.length_singleton]
    omega
  · show c.writes + 1 = (written ++ [ev.shown c.mem]).length
    rw [h.writes, List.length_append, List.length_singleton]
  · intro i d hd
    change (written ++ [ev.shown c.mem])[c.settled + i]? = some d at hd
    show StoredAs messages (c.ioMessages.count + ev.len)
      (c.mem.blit (c.ioMessages.pool + c.ioMessages.count) ev.msg ev.len)
      (Function.update c.eventAt (c.ioEvents.pool + c.ioEvents.count) (moved c ev) (events + 24 * i)) d
    rw [h.events_pool, h1, h.messages_pool]
    by_cases hi : c.settled + i < written.length
    · rw [List.getElem?_append_left hi] at hd
      rw [Function.update_of_ne (by omega)]
      exact (h.stored i d hd).blit
    · have hlast : c.settled + i = written.length := by
        by_contra hne
        rw [List.getElem?_eq_none (by simp; omega)] at hd
        cases hd
      have hi : i = written.length - c.settled := by omega
      rw [hlast, List.getElem?_concat_length] at hd
      obtain rfl := Option.some.inj hd
      rw [hi, Function.update_self, moved, h.messages_pool]
      exact storedAs_copy _ _ _ _
  · intro b hb
    show b.received = (written ++ [ev.shown c.mem]).take c.settled
    rw [h.received b hb, List.take_append_of_le_length h4]

lemma Buffered.write_same (hfit : canFit c ev = true) : SameMessages messages c.mem (afterWrite c ev).mem := by
  obtain ⟨hlen, -⟩ := (h.canFit_iff).mp hfit
  have hlen : c.ioMessages.count + ev.len ≤ 500 := hlen
  intro x hx
  have hx : x < messages ∨ messages + 500 ≤ x := hx
  show c.mem.blit (c.ioMessages.pool + c.ioMessages.count) ev.msg ev.len x = c.mem x
  rw [h.messages_pool, Mem.blit, if_neg (by omega)]

end Write

/-- The console between two calls: without buffering nothing is left in the arenas. -/
structure ConsoleInv (events messages : Nat) (c : Console) (written : List Shown) : Prop where
  buffered : Buffered events messages c written
  direct : c.enableBuffering = false → c.settled = written.length ∧ c.ioMessages.count = 0

section Calls

variable (h : ConsoleInv events messages c written) (hshape : ConsoleShape events messages)
include h hshape

lemma ConsoleInv.flush :
    ∃ c', consoleFlushLocked c = (.ok .EOK, c') ∧ ConsoleInv events messages c' written ∧
      c'.settled = written.length ∧ c'.ioMessages.count = 0 ∧ c'.mem = c.mem ∧
      c'.enableBuffering = c.enableBuffering := by
  obtain ⟨c', hrun, hbuf, hsettled, hcount, hmem, hmode⟩ := h.buffered.flush hshape
  exact ⟨c', hrun, ⟨hbuf, fun _ => ⟨hsettled, hcount⟩⟩, hsettled, hcount, hmem, hmode⟩

lemma ConsoleInv.write (hlen : ev.len ≤ IO_EVENT_MSG_BUFFER_SIZE) (hev : MessageApart events messages ev) :
    ∃ ev' c', consoleWriteLocked ev c = (.ok (.EOK, ev'), c') ∧
      ConsoleInv events messages c' (written ++ [ev.shown c.mem]) ∧ SameMessages messages c.mem c'.mem := by
  have hbuf := h.buffered
  -- an event fits when nothing is pending
  have hfits : ∀ c₁, Buffered events messages c₁ written → c₁.settled = written.length → c₁.ioMessages.count = 0 →
      canFit c₁ ev = true := by
    intro c₁ h₁ hsettled hcount
    rw [h₁.canFit_iff, hsettled, hcount]
    omega
  unfold consoleWriteLocked
  rw [Call.read_bind]
  cases hmode : c.enableBuffering with
  | false =>
    obtain ⟨hsettled, hcount⟩ := h.direct hmode
    have hfit := hfits c hbuf hsettled hcount
    obtain ⟨c', hflush, hbuf', hsettled', hcount', hmem', -⟩ := (hbuf.write hfit).flush hshape
    refine ⟨moved c ev, c', ?_, ⟨hbuf', fun _ => ⟨hsettled', hcount'⟩⟩, ?_⟩
    · simp only [id, hmode]
      rw [if_pos (show (!false) = true from rfl), Call.bind_ok (hbuf.writeEvent_eq hshape hfit hev),
        Call.bind_ok hflush]
      rfl
    · rw [hmem']
      exact hbuf.write_same hfit
  | true =>
    simp only [id, hmode]
    rw [if_neg (show ¬(!true) = true by decide)]
    by_cases hfit : canFit c ev = true
    · refine ⟨moved c ev, afterWrite c ev, ?_, ⟨hbuf.write hfit, ?_⟩, hbuf.write_same hfit⟩
      · rw [if_neg (by rw [hfit]; decide), Call.bind_ok (hbuf.writeEvent_eq hshape hfit hev)]
        rfl
      · intro hfalse
        exact absurd (hmode.symm.trans hfalse) (by decide)
    · obtain ⟨c₁, hflush, hbuf₁, hsettled₁, hcount₁, hmem₁, hmode₁⟩ := hbuf.flush hshape
      have hfit₁ := hfits c₁ hbuf₁ hsettled₁ hcount₁
      have hwrite := hbuf₁.write hfit₁
      have hsame := hbuf₁.write_same hfit₁
      rw [hmem₁] at hwrite hsame
      refine ⟨moved c₁ ev, afterWrite c₁ ev, ?_, ⟨hwrite, ?_⟩, hsame⟩
      · rw [if_pos (by simpa using hfit), Call.bind_ok hflush, Call.bind_ok (hbuf₁.writeEvent_eq hshape hfit₁ hev)]
        rfl
      · intro hfalse
        exact absurd ((hmode₁.trans hmode).symm.trans hfalse) (by decide)

end Calls

lemma ConsoleInv.writeEach (hshape : ConsoleShape events messages) (evs : List IOEvent)
    (h : ConsoleInv events messages c written) (hlen : ∀ ev ∈ evs, ev.len ≤ IO_EVENT_MSG_BUFFER_SIZE)
    (hev : ∀ ev ∈ evs, MessageApart events messages ev) :
    ∃ evs' c', consoleWriteEach evs c = (.ok (.EOK, evs'), c') ∧
      ConsoleInv events messages c' (written ++ evs.map (fun ev => ev.shown c.mem)) ∧
      SameMessages messages c.mem c'.mem := by
  induction evs generalizing c written with
  | nil => exact ⟨[], c, rfl, by simpa using h, fun _ _ => rfl⟩
  | cons ev evs ih =>
    obtain ⟨ev', c₁, hfirst, hinv₁, hsame₁⟩ := h.write hshape (hlen ev List.mem_cons_self) (hev ev List.mem_cons_self)
    obtain ⟨evs', c₂, hrest, hinv₂, hsame₂⟩ := ih hinv₁ (fun e he => hlen e (List.mem_cons_of_mem ev he))
      (fun e he => hev e (List.mem_cons_of_mem ev he))
    -- the first write has not touched the other messages
    have hshown : evs.map (fun e => e.shown c₁.mem) = evs.map (fun e => e.shown c.mem) := by
      apply List.map_congr_left
      intro e he
      exact hsame₁.shown (hev e (List.mem_cons_of_mem ev he))
    rw [hshown, List.append_assoc] at hinv₂
    refine ⟨ev' :: evs', c₂, ?_, hinv₂, fun x hx => (hsame₂ x hx).trans (hsame₁ x hx)⟩
    rw [consoleWriteEach, Call.bind_ok hfirst]
    dsimp only
    rw [if_neg (by decide), Call.bind_ok hrest]
    rfl

/-- The steps of a run: the calls of the console, and anything that leaves its buffers alone. -/
inductive ConsoleOp
  | write (e : IOEvent)
  | writeMultiple (evs : List IOEvent)
  | writeChar (p : Nat) (ch : UInt8)
  | flush
  | other (mem : Mem)

namespace ConsoleOp

/-- The call of the sources. -/
def call : ConsoleOp → ConsoleCall Errno
  | write e => consoleWrite e
  | writeMultiple evs => do
    let (ret, _) ← consoleWriteMultiple evs
    return ret
  | writeChar p ch => consoleWriteChar p ch
  | flush => consoleFlush
  | other mem => do
    Call.update (fun c => { c with mem := mem })
    return .EOK

/-- What the call writes, with the bytes that the messages have when it is made. -/
def shows (mem : Mem) : ConsoleOp → List Shown
  | write e => [e.shown mem]
  | writeMultiple evs => evs.map (fun e => e.shown mem)
  | writeChar _ ch => [⟨IO_DEFAULT_COLOR_FG, IO_DEFAULT_COLOR_BG, 1, [ch]⟩]
  | flush | other _ => []

/-- What the callers promise: no message is too long, and nobody else writes to the buffers. -/
def Allowed (messages : Nat) (mem : Mem) : ConsoleOp → Prop
  | write e => e.len ≤ IO_EVENT_MSG_BUFFER_SIZE
  | writeMultiple evs => ∀ e ∈ evs, e.len ≤ IO_EVENT_MSG_BUFFER_SIZE
  | other mem' => mem.EqOn mem' messages IO_EVENT_MSG_BUFFER_SIZE
  | _ => True

/-- The messages of the call lie outside of the buffers of the console. -/
def Careful (events messages : Nat) : ConsoleOp → Prop
  | write e => MessageApart events messages e
  | writeMultiple evs => ∀ e ∈ evs, MessageApart events messages e
  | writeChar p _ => MessageApart events messages (ioEventDefault p 1)
  | _ => True

end ConsoleOp

lemma ConsoleInv.setMem {mem : Mem} (h : ConsoleInv events messages c written)
    (hmem : c.mem.EqOn mem messages IO_EVENT_MSG_BUFFER_SIZE) :
    ConsoleInv events messages { c with mem := mem } written := by
  have hbuf := h.buffered
  refine ⟨⟨hbuf.events_pool, hbuf.events_capacity, hbuf.events_count, hbuf.events_le, hbuf.messages_pool,
    hbuf.messages_capacity, hbuf.messages_le, hbuf.settled_le, hbuf.writes, ?_, hbuf.received⟩, h.direct⟩
  intro i d hd
  have hstored := hbuf.stored i d hd
  have hlow := hstored.low
  have hhigh := hstored.high
  have hle := hbuf.messages_le
  rw [hbuf.messages_capacity] at hle
  refine ⟨?_, hlow, hhigh⟩
  have hbytes := Mem.bytes_congr (hmem.mono hlow (Nat.le_trans hhigh (Nat.add_le_add_left hle messages)))
  rw [← hstored.shown]
  show IOEvent.shown _ mem = _
  rw [IOEvent.shown, IOEvent.shown, hbytes]

lemma ConsoleInv.call {op : ConsoleOp} (h : ConsoleInv events messages c written)
    (hshape : ConsoleShape events messages) (hop : op.Allowed messages c.mem) (hcare : op.Careful events messages) :
    ∃ c', op.call c = (.ok .EOK, c') ∧ ConsoleInv events messages c' (written ++ op.shows c.mem) := by
  cases op with
  | write e =>
    obtain ⟨e', c', hrun, hinv, -⟩ := h.write hshape hop hcare
    refine ⟨c', ?_, hinv⟩
    rw [ConsoleOp.call, consoleWrite, Call.bind_ok hrun]
    rfl
  | writeMultiple evs =>
    obtain ⟨evs', c', hrun, hinv, -⟩ := h.writeEach hshape evs hop hcare
    refine ⟨c', ?_, hinv⟩
    rw [ConsoleOp.call, consoleWriteMultiple, Call.bind_ok hrun]
    rfl
  | writeChar p ch =>
    have hset : c.mem.EqOn (c.mem.set p ch) messages IO_EVENT_MSG_BUFFER_SIZE := by
      have h1 : p + 1 ≤ messages ∨ messages + 500 ≤ p := hcare.messages
      show c.mem.EqOn _ messages 500
      exact Mem.set_eqOn _ _ (by omega)
    have hlen : (ioEventDefault p 1).len ≤ IO_EVENT_MSG_BUFFER_SIZE := by
      show 1 ≤ 500
      decide
    obtain ⟨e', c', hrun, hinv, -⟩ := (h.setMem hset).write hshape hlen hcare
    have hshown : (ioEventDefault p 1).shown (c.mem.set p ch) =
        ⟨IO_DEFAULT_COLOR_FG, IO_DEFAULT_COLOR_BG, 1, [ch]⟩ := by
      simp [IOEvent.shown, ioEventDefault, Mem.bytes]
    rw [hshown] at hinv
    refine ⟨c', ?_, hinv⟩
    rw [ConsoleOp.call, consoleWriteChar, Call.update_bind, consoleWrite, Call.bind_ok hrun]
    rfl
  | flush =>
    obtain ⟨c', hrun, hinv, -⟩ := h.flush hshape
    refine ⟨c', ?_, by simpa [ConsoleOp.shows] using hinv⟩
    rw [ConsoleOp.call, consoleFlush, Call.bind_ok hrun]
    rfl
  | other mem => exact ⟨_, rfl, by simpa [ConsoleOp.shows] using h.setMem hop⟩

/-- A state of a run, with the events that have been written. -/
structure ConsoleRun where
  console : Console
  written : List Shown

/-- A call that meets a condition and returns. -/
inductive ConsoleStep (messages : Nat) (cond : ConsoleOp → Prop) : ConsoleRun → ConsoleRun → Prop
  | mk {r : ConsoleRun} {op : ConsoleOp} {err : Errno} {c' : Console} (hop : op.Allowed messages r.console.mem)
      (hcond : cond op) (hcall : op.call r.console = (.ok err, c')) :
      ConsoleStep messages cond r ⟨c', r.written ++ op.shows r.console.mem⟩

/-- The console before `console_init`: nothing has been written, and the backends have been given nothing. -/
structure Fresh (c : Console) : Prop where
  events : c.ioEvents.count = 0
  messages : c.ioMessages.count = 0
  writes : c.writes = 0
  settled : c.settled = 0
  received : ∀ b ∈ c.backends, b.received = []

/-- Every backend has been given what was written before the last flush, in order; a flush hands over the
rest. -/
structure ConsoleRun.Faithful (events messages : Nat) (r : ConsoleRun) : Prop where
  writes : r.console.writes = r.written.length
  received : ∀ b ∈ r.console.backends, b.received = r.written.take r.console.settled
  flush : ∃ c', consoleFlush r.console = (.ok .EOK, c') ∧ c'.settled = r.written.length ∧
    ∀ b ∈ c'.backends, b.received = r.written
  returns : ∀ op : ConsoleOp, op.Allowed messages r.console.mem → op.Careful events messages →
    ∃ c', op.call r.console = (.ok .EOK, c')

lemma init_inv (hfresh : Fresh c) (buffering : Bool)
    (hcall : consoleInit events messages buffering c = (.ok .EOK, c')) :
    ConsoleInv events messages c' [] := by
  obtain ⟨-, rfl⟩ := Prod.mk.inj hcall
  have hsettled := hfresh.settled
  refine ⟨⟨rfl, rfl, ?_, ?_, rfl, rfl, ?_, ?_, hfresh.writes, ?_, ?_⟩, fun _ => ⟨hsettled, hfresh.messages⟩⟩
  · show c.ioEvents.count = IO_EVENT_SIZE * (0 - c.settled)
    rw [hfresh.events, Nat.zero_sub, Nat.mul_zero]
  · show c.ioEvents.count ≤ _
    rw [hfresh.events]
    exact Nat.zero_le _
  · show c.ioMessages.count ≤ _
    rw [hfresh.messages]
    exact Nat.zero_le _
  · exact Nat.le_of_eq hsettled
  · intro i d hd
    cases hd
  · intro b hb
    rw [List.take_nil]
    exact hfresh.received b hb

section Runs

variable {r r' : ConsoleRun}

lemma ConsoleStep.inv (hshape : ConsoleShape events messages) (h : ConsoleInv events messages r.console r.written)
    (hstep : ConsoleStep messages (ConsoleOp.Careful events messages) r r') :
    ConsoleInv events messages r'.console r'.written := by
  cases hstep with
  | mk hop hcare hcall =>
    obtain ⟨c₁, hrun, hinv⟩ := h.call hshape hop hcare
    obtain ⟨-, rfl⟩ := Prod.mk.inj (hcall.symm.trans hrun)
    exact hinv

lemma ConsoleInv.run (hshape : ConsoleShape events messages) (h : ConsoleInv events messages r.console r.written)
    (hrun : Relation.ReflTransGen (ConsoleStep messages (ConsoleOp.Careful events messages)) r r') :
    ConsoleInv events messages r'.console r'.written := by
  induction hrun with
  | refl => exact h
  | tail _ hstep ih => exact hstep.inv hshape ih

lemma ConsoleInv.faithful (hshape : ConsoleShape events messages)
    (h : ConsoleInv events messages r.console r.written) : r.Faithful events messages := by
  refine ⟨h.buffered.writes, h.buffered.received, ?_, ?_⟩
  · obtain ⟨c', hrun, hinv, hsettled, -⟩ := h.flush hshape
    refine ⟨c', ?_, hsettled, ?_⟩
    · rw [consoleFlush, Call.bind_ok hrun]
      rfl
    · intro b hb
      rw [hinv.buffered.received b hb, hsettled, List.take_length]
  · intro op hop hcare
    obtain ⟨c', hrun, -⟩ := h.call hshape hop hcare
    exact ⟨c', hrun⟩

end Runs

/-- **Console output.** After `console_init`, in either mode, whatever is written and flushed, every backend
has been given what was written before the last flush, with the bytes that the messages had when the
call was made, as long as no message lies in the buffers of the console. -/
theorem console_output_is_faithful {r : ConsoleRun} {buffering : Bool} (hshape : ConsoleShape events messages)
    (hfresh : Fresh c) (hinit : consoleInit events messages buffering c = (.ok .EOK, c'))
    (hrun : Relation.ReflTransGen (ConsoleStep messages (ConsoleOp.Careful events messages)) ⟨c', []⟩ r) :
    r.Faithful events messages :=
  ((init_inv hfresh buffering hinit).run hshape hrun).faithful hshape

/-- The state after a call. -/
def ConsoleOp.next (r : ConsoleRun) (op : ConsoleOp) : ConsoleRun :=
  ⟨(op.call r.console).2, r.written ++ op.shows r.console.mem⟩

lemma ConsoleOp.step_next (cond : ConsoleOp → Prop) (r : ConsoleRun) (op : ConsoleOp)
    (hop : op.Allowed messages r.console.mem) (hcond : cond op) (hcall : (op.call r.console).1 = .ok .EOK) :
    ConsoleStep messages cond r (op.next r) :=
  .mk hop hcond (Prod.ext hcall rfl)

/-- Before `console_init`, with one backend. The byte at an address is the address. -/
def consoleBoot : Console where
  mem := fun a => UInt8.ofNat a
  eventAt := fun _ => ⟨⟨0, false⟩, ⟨0, false⟩, 0, 0⟩
  backends := [⟨0, [], 0⟩]
  ioEvents := ⟨0, 0, 0⟩
  ioMessages := ⟨0, 0, 0⟩
  enableBuffering := false
  writes := 0
  settled := 0

/-- After `console_init` with buffering. -/
def consoleReady : ConsoleRun := ⟨(consoleInit 0x1000 0x2000 true consoleBoot).2, []⟩

/-- The messages `a`, `b`, `c`, `d`, `e` and `f`. -/
def letters : List IOEvent := [0x61, 0x62, 0x63, 0x64, 0x65, 0x66].map (ioEventDefault · 1)

/-- After the six messages have been written. -/
def lettersWritten : ConsoleRun := (ConsoleOp.writeMultiple letters).next consoleReady

/-- The events of the caller, which `console_write_multiple` has redirected to the message buffer. -/
def lettersMoved : List IOEvent := [0x2000, 0x2001, 0x2002, 0x2003, 0x2004, 0x2000].map (ioEventDefault · 1)

lemma fresh_consoleBoot : Fresh consoleBoot := by
  refine ⟨rfl, rfl, rfl, rfl, ?_⟩
  intro b hb
  obtain rfl := List.mem_singleton.mp hb
  rfl

lemma letters_allowed (mem : Mem) : (ConsoleOp.writeMultiple letters).Allowed 0x2000 mem := by
  show ∀ e ∈ letters, e.len ≤ IO_EVENT_MSG_BUFFER_SIZE
  decide

lemma letters_return : ((ConsoleOp.writeMultiple letters).call consoleReady.console).1 = .ok .EOK := by
  decide +kernel

lemma init_consoleReady : consoleInit 0x1000 0x2000 true consoleBoot = (.ok .EOK, consoleReady.console) := rfl

/-- Six messages, the last of which finds the event buffer full. -/
theorem console_output_is_faithful_letters :
    ConsoleShape 0x1000 0x2000 ∧ Fresh consoleBoot ∧
      Relation.ReflTransGen (ConsoleStep 0x2000 (ConsoleOp.Careful 0x1000 0x2000)) consoleReady lettersWritten ∧
      lettersWritten.console.settled = 5 ∧ lettersWritten.Faithful 0x1000 0x2000 := by
  have hshape : ConsoleShape 0x1000 0x2000 := ⟨by decide, by decide⟩
  have hcare : (ConsoleOp.writeMultiple letters).Careful 0x1000 0x2000 := by
    show ∀ e ∈ letters, MessageApart 0x1000 0x2000 e
    intro e he
    obtain ⟨a, ha, rfl⟩ := List.mem_map.mp he
    have hle : ∀ a ∈ [0x61, 0x62, 0x63, 0x64, 0x65, 0x66], a ≤ 0x66 := by decide
    have hle := hle a ha
    refine ⟨?_, .inl ?_, .inl ?_⟩
    · show a + 1 ≤ 2 ^ 64
      omega
    · show a + 1 ≤ 0x2000
      omega
    · show a + 1 ≤ 0x1000
      omega
  have hstep : ConsoleStep 0x2000 (ConsoleOp.Careful 0x1000 0x2000) consoleReady lettersWritten :=
    ConsoleOp.step_next _ _ _ (letters_allowed _) hcare letters_return
  have hrun := Relation.ReflTransGen.single hstep
  exact ⟨hshape, fresh_consoleBoot, hrun, by decide +kernel,
    console_output_is_faithful hshape fresh_consoleBoot init_consoleReady hrun⟩

/-- The caller writes its events once more. -/
def lettersTwice : ConsoleRun := (ConsoleOp.writeMultiple lettersMoved).next lettersWritten

/-- After a flush. -/
def lettersFlushed : ConsoleRun := ConsoleOp.flush.next lettersTwice

lemma lettersMoved_return : ((ConsoleOp.writeMultiple lettersMoved).call lettersWritten.console).1 = .ok .EOK := by
  decide +kernel

lemma lettersTwice_flush : (ConsoleOp.flush.call lettersTwice.console).1 = .ok .EOK := by
  decide +kernel

/-- The caller writes the same events twice. After the first call they point into the message buffer, so the
second call overwrites each message with the one before it: the backend is given `f` six times instead of
`f b c d e f`. -/
theorem console_output_repeats_message :
    ConsoleShape 0x1000 0x2000 ∧ Fresh consoleBoot ∧
      Relation.ReflTransGen (ConsoleStep 0x2000 (fun _ => True)) consoleReady lettersFlushed ∧
      (consoleWriteMultiple letters consoleReady.console).1 = .ok (.EOK, lettersMoved) ∧
      lettersFlushed.written.map Shown.bytes =
        [[0x61], [0x62], [0x63], [0x64], [0x65], [0x66], [0x66], [0x62], [0x63], [0x64], [0x65], [0x66]] ∧
      lettersFlushed.console.settled = 12 ∧
      ∃ b ∈ lettersFlushed.console.backends, b.received ≠ lettersFlushed.written.take lettersFlushed.console.settled ∧
        b.received.map Shown.bytes =
          [[0x61], [0x62], [0x63], [0x64], [0x65], [0x66], [0x66], [0x66], [0x66], [0x66], [0x66], [0x66]] := by
  have hmoved : (ConsoleOp.writeMultiple lettersMoved).Allowed 0x2000 lettersWritten.console.mem := by
    show ∀ e ∈ lettersMoved, e.len ≤ IO_EVENT_MSG_BUFFER_SIZE
    decide
  have hfirst : ConsoleStep 0x2000 (fun _ => True) consoleReady lettersWritten :=
    ConsoleOp.step_next _ _ _ (letters_allowed _) trivial letters_return
  have hagain : ConsoleStep 0x2000 (fun _ => True) lettersWritten lettersTwice :=
    ConsoleOp.step_next _ _ _ hmoved trivial lettersMoved_return
  have hflush : ConsoleStep 0x2000 (fun _ => True) lettersTwice lettersFlushed :=
    ConsoleOp.step_next _ _ _ trivial trivial lettersTwice_flush
  refine ⟨⟨by decide, by decide⟩, fresh_consoleBoot, ((Relation.ReflTransGen.single hfirst).tail hagain).tail hflush, ?_⟩
  decide +kernel

end KaworuOS.Proofs
