import KaworuOS.Proofs.Input

/-!
# Input in any order

Interrupts come at any time, drivers request and reject interrupts, and any number of tasks read at once. All bytes that
the readers have been given, in their order, followed by those that are queued, are what the UART has handed over,
without the bytes that found the queue full.
-/

namespace KaworuOS.Proofs
open Lib

variable {buffer : Nat}

/-- A task in `std_read_op`, and how many bytes had been read when it came. -/
structure Reading where
  reader : Reader
  since : Nat

/-- The state of a run: the tasks that read, the queue, and accounts of the bytes that the UART has handed over, of those
that have been lost, and of those that have been stored for the tasks. -/
structure InputState where
  sys : Input
  readers : Nat → Option Reading
  queue : List UInt8
  received : List UInt8
  lost : Nat
  delivered : List (Nat × UInt8)

/-- The bytes that are for the task. -/
def bytesOf (t : Nat) (l : List (Nat × UInt8)) : List UInt8 := (l.filter fun e => e.1 = t).map Prod.snd

/-- The hardware raises an interrupt, while a byte is in the data register of the UART. -/
def raised (s : Input) (iar : Nat) (b : UInt8) : Input := { s with gic := { s.gic with iar := iar }, uartdr := b }

namespace InputState

/-- The memory that nobody else writes to: the storage of the ring buffer and the buffers of the readers. -/
def Guard (buffer : Nat) (x : InputState) (y : Nat) : Prop :=
  Stored buffer y ∨ ∃ t r, x.readers t = some r ∧ Reader.Buf r.reader y

/-- The state after an interrupt. -/
def afterIrq (x : InputState) (iar : Nat) (b : UInt8) (sys : Input) : InputState :=
  if fromUart (raised x.sys iar b) then
    { x with
      sys := sys
      queue := offer x.queue b
      received := x.received ++ [b]
      lost := if x.queue.length < CONSOLE_RECV_RING_BUFFER_SIZE - 1 then x.lost else x.lost + 1 }
  else { x with sys := sys }

/-- The state after a task has stored a byte. -/
def afterTurn (x : InputState) (t : Nat) (r : Reading) (reader : Reader) (sys : Input) : InputState :=
  { x with
    sys := sys
    readers := Function.update x.readers t (some { r with reader := reader })
    queue := x.queue.tail
    delivered := x.delivered ++ [(t, sys.mm.mem (r.reader.buf + r.reader.readCount))] }

/-- The state after a task has come to read. -/
def afterBegin (x : InputState) (t : Nat) (reader : Reader) (sys : Input) : InputState :=
  { x with sys := sys, readers := Function.update x.readers t (some ⟨reader, x.delivered.length⟩) }

end InputState

/-- Two readers do not write to each other's buffers. -/
structure ReadersApart (r r' : Reader) : Prop where
  bufs : ∀ y, Reader.Buf r y → ¬Reader.Buf r' y
  out : ¬Reader.Buf r' r.out
  out' : ¬Reader.Buf r r'.out

lemma ReadersApart.symm {r r' : Reader} (h : ReadersApart r r') : ReadersApart r' r :=
  ⟨fun y hy hy' => h.bufs y hy' hy, h.out', h.out⟩

/-- One step of a run. -/
inductive InputStep (buffer : Nat) : InputState → InputState → Prop
  | irq {x : InputState} {iar p : Nat} {b : UInt8} {others : Nat → Nat → InputCall Unit} {resched : Bool} {sys : Input}
      (hanswer : Answer { x.sys.gic with iar := iar }) (hp : p < wordSize) (hslot : ¬x.Guard buffer p)
      (hothers : ∀ n d, KeepsInput (x.Guard buffer) (others n d))
      (h : irqHandle others p (raised x.sys iar b) = (.ok resched, sys)) : InputStep buffer x (x.afterIrq iar b sys)
  | request {x : InputState} {irq data : Nat} {handler : IrqHandler} {err : Errno} {sys : Input}
      (h : requestIrq irq handler data x.sys = (.ok err, sys)) : InputStep buffer x { x with sys := sys }
  | reject {x : InputState} {irq : Nat} {err : Errno} {sys : Input} (h : rejectIrq irq x.sys = (.ok err, sys)) :
      InputStep buffer x { x with sys := sys }
  | begin {x : InputState} {t file buf count out : Nat} {r : Reader} {sys : Input} (hfree : x.readers t = none)
      (hok : ReaderOk buffer r) (hapart : ∀ t' r', x.readers t' = some r' → ReadersApart r r'.reader)
      (h : fileReadBegin file buf count out x.sys = (.ok (.inr r), sys)) : InputStep buffer x (x.afterBegin t r sys)
  | turn {x : InputState} {t : Nat} {r : Reading} {r' : Reader} {sys : Input} (hr : x.readers t = some r)
      (h : stdReadTurn r.reader x.sys = (.ok (.inr r'), sys)) : InputStep buffer x (x.afterTurn t r r' sys)
  | done {x : InputState} {t : Nat} {r : Reading} {n ret : Int} {s sys : Input} (hr : x.readers t = some r)
      (hturn : stdReadTurn r.reader x.sys = (.ok (.inl n), s)) (h : fileReadEnd r.reader.file n s = (.ok ret, sys)) :
      InputStep buffer x { x with sys := sys, readers := Function.update x.readers t none }
  | other {x : InputState} (mm : Mm) (files : Files) (needsResched : Bool) (current : Nat)
      (hmem : ∀ y, x.Guard buffer y → mm.mem y = x.sys.mm.mem y) :
      InputStep buffer x { x with
        sys := { x.sys with mm := mm, files := files, needsResched := needsResched, current := current } }

/-- The invariant of a run. -/
structure InputInv (buffer : Nat) (x : InputState) : Prop where
  ring : RingOk buffer x.sys x.queue
  active : x.sys.gic.active = []
  order : (x.delivered.map Prod.snd ++ x.queue).Sublist x.received
  count : x.delivered.length + x.queue.length + x.lost = x.received.length
  reader : ∀ t r, x.readers t = some r → ReaderOk buffer r.reader ∧ r.since ≤ x.delivered.length
  apart : ∀ t t' r r', t ≠ t' → x.readers t = some r → x.readers t' = some r' → ReadersApart r.reader r'.reader
  reading : ∀ t r, x.readers t = some r →
    x.sys.mm.mem.bytes r.reader.buf r.reader.readCount = bytesOf t (x.delivered.drop r.since)
  progress : ∀ t r, x.readers t = some r → r.reader.readCount ≤ r.reader.bufCount

variable {x y : InputState} {sys : Input}

section Bytes

variable {t t' : Nat} {b : UInt8} {l : List (Nat × UInt8)}

@[simp] lemma bytesOf_append_same : bytesOf t (l ++ [(t, b)]) = bytesOf t l ++ [b] := by
  unfold bytesOf
  rw [List.filter_append, List.map_append]
  simp

lemma bytesOf_append_other (hne : t' ≠ t) : bytesOf t' (l ++ [(t, b)]) = bytesOf t' l := by
  unfold bytesOf
  rw [List.filter_append, List.map_append]
  simp [hne.symm]

end Bytes

/-- `file_read` changes nothing before its loop. -/
lemma fileReadBegin_quiet {s s' : Input} {file buf count out : Nat} {r : Reader}
    (h : fileReadBegin file buf count out s = (.ok (.inr r), s')) : s' = s ∧ r.readCount = 0 := by
  obtain ⟨f, s₁, hderef, hrest⟩ := Call.ok_of_bind h
  have hsame : s₁ = s := by
    obtain ⟨-, rfl⟩ := Prod.mk.inj hderef
    have hfiles : (Files.deref Files.file file s.files).2 = s.files := by
      unfold Files.deref
      rw [Call.read_bind]
      split <;> rfl
    rw [hfiles]
  subst hsame
  by_cases hmode : fileModeIsReadable f = false
  · rw [if_pos hmode] at hrest
    cases hrest
  · rw [if_neg hmode] at hrest
    by_cases hops : f.ops = STDREAD_OPS
    · rw [if_pos hops] at hrest
      cases hrest
      exact ⟨rfl, rfl⟩
    · rw [if_neg hops] at hrest
      cases hrest

/-- A step that leaves the readers and their buffers alone. -/
lemma InputInv.move {queue received : List UInt8} {lost : Nat} (h : InputInv buffer x) (hring : RingOk buffer sys queue)
    (hactive : sys.gic.active = []) (hmem : ∀ z, x.Guard buffer z → ¬Stored buffer z → sys.mm.mem z = x.sys.mm.mem z)
    (horder : (x.delivered.map Prod.snd ++ queue).Sublist received)
    (hcount : x.delivered.length + queue.length + lost = received.length) :
    InputInv buffer { x with sys := sys, queue := queue, received := received, lost := lost } := by
  refine ⟨hring, hactive, horder, hcount, h.reader, h.apart, ?_, h.progress⟩
  intro t r hr
  rw [← h.reading t r hr]
  apply Mem.bytes_congr
  intro z h1 h2
  have hown : Reader.Buf r.reader z := ⟨h1, Nat.lt_of_lt_of_le h2 (Nat.add_le_add_left (h.progress t r hr) _)⟩
  exact hmem z (.inr ⟨t, r, hr, hown⟩) ((h.reader t r hr).1.stored z hown)

/-- The same for a step that leaves the queue alone, too. -/
lemma InputInv.setSys (h : InputInv buffer x) (hring : RingOk buffer sys x.queue) (hactive : sys.gic.active = [])
    (hmem : ∀ z, x.Guard buffer z → ¬Stored buffer z → sys.mm.mem z = x.sys.mm.mem z) :
    InputInv buffer { x with sys := sys } := h.move hring hactive hmem h.order h.count

lemma InputInv.irq {iar p : Nat} {b : UInt8} {others : Nat → Nat → InputCall Unit} {resched : Bool}
    (h : InputInv buffer x)
    (hanswer : Answer { x.sys.gic with iar := iar }) (hp : p < wordSize) (hslot : ¬x.Guard buffer p)
    (hothers : ∀ n d, KeepsInput (x.Guard buffer) (others n d))
    (hcall : irqHandle others p (raised x.sys iar b) = (.ok resched, sys)) :
    InputInv buffer (x.afterIrq iar b sys) := by
  have hraised : RingOk buffer (raised x.sys iar b) x.queue := h.ring
  have hhandled := hraised.irq h.active hanswer hp (fun _ hst => .inl hst) hslot hothers hcall
  have hactive : sys.gic.active = [] := by
    rw [hhandled.gic]
    exact h.active
  have hring := hhandled.ring
  unfold InputState.afterIrq
  unfold arrive at hring
  cases huart : fromUart (raised x.sys iar b) with
  | false =>
    rw [huart] at hring
    exact h.setSys hring hactive hhandled.mem
  | true =>
    rw [huart, if_pos rfl] at hring
    have hcount := h.count
    by_cases hroom : x.queue.length < CONSOLE_RECV_RING_BUFFER_SIZE - 1
    · have hoffer : offer x.queue b = x.queue ++ [b] := if_pos hroom
      rw [if_pos rfl, if_pos hroom]
      refine h.move hring hactive hhandled.mem ?_ ?_
      · rw [hoffer, ← List.append_assoc]
        exact h.order.append (List.Sublist.refl [b])
      · rw [hoffer, List.length_append, List.length_append, List.length_singleton]
        omega
    · have hoffer : offer x.queue b = x.queue := if_neg hroom
      rw [if_pos rfl, if_neg hroom]
      refine h.move hring hactive hhandled.mem ?_ ?_
      · rw [hoffer]
        exact h.order.trans (List.sublist_append_left ..)
      · rw [hoffer, List.length_append, List.length_singleton]
        omega

/-- A task comes to read. -/
lemma InputInv.begin {t file buf count out : Nat} {r : Reader} (h : InputInv buffer x) (hfree : x.readers t = none)
    (hok : ReaderOk buffer r) (hapart : ∀ t' r', x.readers t' = some r' → ReadersApart r r'.reader)
    (hcall : fileReadBegin file buf count out x.sys = (.ok (.inr r), sys)) :
    InputInv buffer (x.afterBegin t r sys) := by
  obtain ⟨rfl, hzero⟩ := fileReadBegin_quiet hcall
  have hupdate : ∀ t' r', (x.afterBegin t r x.sys).readers t' = some r' →
      (t' = t ∧ r' = ⟨r, x.delivered.length⟩) ∨ (t' ≠ t ∧ x.readers t' = some r') := by
    intro t' r' hr'
    have hr' : Function.update x.readers t (some ⟨r, x.delivered.length⟩) t' = some r' := hr'
    by_cases heq : t' = t
    · rw [heq, Function.update_self] at hr'
      exact .inl ⟨heq, (Option.some.inj hr').symm⟩
    · rw [Function.update_of_ne heq] at hr'
      exact .inr ⟨heq, hr'⟩
  refine ⟨h.ring, h.active, h.order, h.count, ?_, ?_, ?_, ?_⟩
  · intro t' r' hr'
    rcases hupdate t' r' hr' with ⟨-, rfl⟩ | ⟨-, hold⟩
    · exact ⟨hok, Nat.le_refl _⟩
    · exact h.reader t' r' hold
  · intro t' t'' r' r'' hne hr' hr''
    rcases hupdate t' r' hr' with ⟨rfl, rfl⟩ | ⟨-, hold⟩
    · rcases hupdate t'' r'' hr'' with ⟨rfl, -⟩ | ⟨-, hold'⟩
      · exact absurd rfl hne
      · exact hapart t'' r'' hold'
    · rcases hupdate t'' r'' hr'' with ⟨rfl, rfl⟩ | ⟨-, hold'⟩
      · exact (hapart t' r' hold).symm
      · exact h.apart t' t'' r' r'' hne hold hold'
  · intro t' r' hr'
    rcases hupdate t' r' hr' with ⟨-, rfl⟩ | ⟨-, hold⟩
    · show x.sys.mm.mem.bytes r.buf r.readCount = bytesOf t' (x.delivered.drop x.delivered.length)
      rw [hzero, List.drop_length]
      rfl
    · exact h.reading t' r' hold
  · intro t' r' hr'
    rcases hupdate t' r' hr' with ⟨-, rfl⟩ | ⟨-, hold⟩
    · show r.readCount ≤ r.bufCount
      rw [hzero]
      exact Nat.zero_le _
    · exact h.progress t' r' hold

/-- A task stores the oldest byte of the queue. -/
lemma InputInv.turn {t : Nat} {r : Reading} {r' : Reader} (h : InputInv buffer x) (hr : x.readers t = some r)
    (hcall : stdReadTurn r.reader x.sys = (.ok (.inr r'), sys)) : InputInv buffer (x.afterTurn t r r' sys) := by
  obtain ⟨hok, hsince⟩ := h.reader t r hr
  have hmore : ¬(r.reader.bufCount ≤ r.reader.readCount ∨ x.queue = []) := by
    intro hend
    rw [h.ring.turn_ends hend] at hcall
    cases hcall
  obtain ⟨hlt, hne⟩ := not_or.mp hmore
  obtain ⟨b, rest, hq⟩ := List.exists_cons_of_ne_nil hne
  obtain ⟨s', hrun, hring, ⟨hrest, hmem⟩, hbyte⟩ := h.ring.turn_reads hok hq (Nat.lt_of_not_le hlt)
  obtain ⟨hr', rfl⟩ := Prod.mk.inj (hcall.symm.trans hrun)
  obtain rfl := Sum.inr.inj (Except.ok.inj hr')
  have hlt : r.reader.readCount < r.reader.bufCount := Nat.lt_of_not_le hlt
  have hdelivered : (x.afterTurn t r { r.reader with readCount := r.reader.readCount + 1 } sys).delivered =
      x.delivered ++ [(t, b)] := by
    show x.delivered ++ [(t, sys.mm.mem (r.reader.buf + r.reader.readCount))] = _
    rw [hbyte]
  have hupdate : ∀ t' q, (x.afterTurn t r { r.reader with readCount := r.reader.readCount + 1 } sys).readers
    t' = some q →
      (t' = t ∧ q = { r with reader := { r.reader with readCount := r.reader.readCount + 1 } }) ∨
        (t' ≠ t ∧ x.readers t' = some q) := by
    intro t' q hq'
    have hq' : Function.update x.readers t _ t' = some q := hq'
    by_cases heq : t' = t
    · rw [heq, Function.update_self] at hq'
      exact .inl ⟨heq, (Option.some.inj hq').symm⟩
    · rw [Function.update_of_ne heq] at hq'
      exact .inr ⟨heq, hq'⟩
  have hown : Reader.Buf r.reader (r.reader.buf + r.reader.readCount) := ⟨Nat.le_add_right _ _, by omega⟩
  -- the buffers of the readers only change where the byte goes
  have hkeep : ∀ t' q z, x.readers t' = some q → Reader.Buf q.reader z → z ≠ r.reader.buf + r.reader.readCount →
      sys.mm.mem z = x.sys.mm.mem z := by
    intro t' q z hq' hz hne'
    refine hmem z fun hor => hor.elim (fun hout => ?_) hne'
    subst hout
    by_cases heq : t' = t
    · rw [heq, hr] at hq'
      obtain rfl := Option.some.inj hq'
      exact hok.outBuf hz
    · exact (h.apart t t' r q (Ne.symm heq) hr hq').out hz
  refine ⟨?_, ?_, ?_, ?_, ?_, ?_, ?_, ?_⟩
  · show RingOk buffer sys x.queue.tail
    rw [hq]
    exact hring
  · show sys.gic.active = []
    rw [hrest]
    exact h.active
  · rw [hdelivered]
    show ((x.delivered ++ [(t, b)]).map Prod.snd ++ x.queue.tail).Sublist x.received
    rw [List.map_append, List.append_assoc, hq]
    have horder := h.order
    rw [hq] at horder
    exact horder
  · rw [hdelivered]
    have hcount := h.count
    show (x.delivered ++ [(t, b)]).length + x.queue.tail.length + x.lost = x.received.length
    rw [hq, List.length_cons] at hcount
    rw [List.length_append, List.length_singleton, hq, List.tail_cons]
    omega
  · intro t' q hq'
    rw [hdelivered, List.length_append]
    rcases hupdate t' q hq' with ⟨-, rfl⟩ | ⟨-, hold⟩
    · exact ⟨⟨hok.bound, hok.out, hok.stored, hok.outStored, hok.outBuf⟩, Nat.le_add_right_of_le hsince⟩
    · obtain ⟨hokq, hsinceq⟩ := h.reader t' q hold
      exact ⟨hokq, Nat.le_add_right_of_le hsinceq⟩
  · intro t' t'' q q' hne' hq' hq''
    rcases hupdate t' q hq' with ⟨rfl, rfl⟩ | ⟨-, hold⟩
    · rcases hupdate t'' q' hq'' with ⟨rfl, -⟩ | ⟨-, hold'⟩
      · exact absurd rfl hne'
      · have hold'' := h.apart t' t'' r q' hne' hr hold'
        exact ⟨hold''.bufs, hold''.out, hold''.out'⟩
    · rcases hupdate t'' q' hq'' with ⟨rfl, rfl⟩ | ⟨-, hold'⟩
      · have hold'' := h.apart t' t'' q r hne' hold hr
        exact ⟨hold''.bufs, hold''.out, hold''.out'⟩
      · exact h.apart t' t'' q q' hne' hold hold'
  · intro t' q hq'
    rw [hdelivered]
    rcases hupdate t' q hq' with ⟨rfl, rfl⟩ | ⟨hne', hold⟩
    · show sys.mm.mem.bytes r.reader.buf (r.reader.readCount + 1) = bytesOf t' ((x.delivered ++ [(t', b)]).drop r.since)
      rw [List.drop_append_of_le_length hsince, bytesOf_append_same, ← h.reading t' r hr, Mem.bytes_add]
      congr 1
      · apply Mem.bytes_congr
        intro z h1 h2
        exact hkeep t' r z hr ⟨h1, by omega⟩ (by omega)
      · show [sys.mm.mem (r.reader.buf + r.reader.readCount + 0)] = [b]
        rw [Nat.add_zero, hbyte]
    · obtain ⟨hokq, hsinceq⟩ := h.reader t' q hold
      rw [List.drop_append_of_le_length hsinceq, bytesOf_append_other hne', ← h.reading t' q hold]
      apply Mem.bytes_congr
      intro z h1 h2
      have hz : Reader.Buf q.reader z := ⟨h1, Nat.lt_of_lt_of_le h2 (Nat.add_le_add_left (h.progress t' q hold) _)⟩
      refine hkeep t' q z hold hz fun heq => ?_
      exact (h.apart t t' r q (Ne.symm hne') hr hold).bufs _ hown (heq ▸ hz)
  · intro t' q hq'
    rcases hupdate t' q hq' with ⟨-, rfl⟩ | ⟨-, hold⟩
    · exact hlt
    · exact h.progress t' q hold

/-- A turn that ends the loop has nothing to read or no room left, and changes nothing. -/
lemma InputInv.stops {t : Nat} {r : Reading} {n : Int} {s : Input} (h : InputInv buffer x) (hr : x.readers t = some r)
    (hturn : stdReadTurn r.reader x.sys = (.ok (.inl n), s)) : s = x.sys ∧ n = r.reader.readCount := by
  obtain ⟨hok, -⟩ := h.reader t r hr
  by_cases hend : r.reader.bufCount ≤ r.reader.readCount ∨ x.queue = []
  · obtain ⟨hn, rfl⟩ := Prod.mk.inj (hturn.symm.trans (h.ring.turn_ends hend))
    exact ⟨rfl, Sum.inl.inj (Except.ok.inj hn)⟩
  · obtain ⟨hlt, hne⟩ := not_or.mp hend
    obtain ⟨b, rest, hq⟩ := List.exists_cons_of_ne_nil hne
    obtain ⟨s', hrun, -⟩ := h.ring.turn_reads hok hq (Nat.lt_of_not_le hlt)
    rw [hrun] at hturn
    cases hturn

/-- `file_read` only moves the offset of the file after its loop. -/
lemma fileReadEnd_files {s s' : Input} {file : Nat} {n ret : Int} (h : fileReadEnd file n s = (.ok ret, s')) :
    ret = n ∧ s' = { s with files := s'.files } := by
  unfold fileReadEnd at h
  by_cases hn : 0 < n
  · rw [if_pos hn] at h
    cases h
    exact ⟨rfl, rfl⟩
  · rw [if_neg hn] at h
    cases h
    exact ⟨rfl, rfl⟩

/-- A task goes. -/
lemma InputInv.leave (h : InputInv buffer x) (t : Nat) :
    InputInv buffer { x with readers := Function.update x.readers t none } := by
  have hupdate : ∀ t' r', Function.update x.readers t none t' = some r' → x.readers t' = some r' := by
    intro t' r' hr'
    by_cases heq : t' = t
    · rw [heq, Function.update_self] at hr'
      cases hr'
    · rwa [Function.update_of_ne heq] at hr'
  refine ⟨h.ring, h.active, h.order, h.count, ?_, ?_, ?_, ?_⟩
  · exact fun t' r' hr' => h.reader t' r' (hupdate t' r' hr')
  · exact fun t' t'' r' r'' hne hr' hr'' => h.apart t' t'' r' r'' hne (hupdate t' r' hr') (hupdate t'' r'' hr'')
  · exact fun t' r' hr' => h.reading t' r' (hupdate t' r' hr')
  · exact fun t' r' hr' => h.progress t' r' (hupdate t' r' hr')

/-- The enable bits are apart from what is active. -/
lemma writeDist_active (g : Gic) (offset value : Nat) : (g.writeDist offset value).active = g.active := by
  unfold Gic.writeDist
  split
  · rfl
  · split <;> rfl

lemma requestIrq_eq {s s' : Input} {irq data : Nat} {handler : IrqHandler} {err : Errno}
    (h : requestIrq irq handler data s = (.ok err, s')) :
    s' = { s with irqTable := Function.update s.irqTable irq ⟨some handler, data⟩, gic := s.gic.irqEnable irq } := by
  obtain ⟨⟨⟩, s₁, hset, hrest⟩ := Call.ok_of_bind h
  unfold irqSetHandler at hset
  by_cases hirq : MAX_IRQ ≤ irq
  · rw [if_pos hirq] at hset
    cases hset
  · rw [if_neg hirq] at hset
    cases hset
    cases hrest
    rfl

lemma rejectIrq_eq {s s' : Input} {irq : Nat} {err : Errno} (h : rejectIrq irq s = (.ok err, s')) :
    s' = { s with irqTable := Function.update s.irqTable irq { s.irqTable irq with handler := none } } := by
  unfold rejectIrq at h
  by_cases hirq : MAX_IRQ ≤ irq
  · rw [if_pos hirq] at h
    cases h
  · rw [if_neg hirq] at h
    cases h
    rfl

/-- Every step keeps the invariant. -/
lemma InputStep.inv (hstep : InputStep buffer x y) (h : InputInv buffer x) : InputInv buffer y := by
  cases hstep with
  | irq hanswer hp hslot hothers hcall => exact h.irq hanswer hp hslot hothers hcall
  | request hcall =>
    obtain rfl := requestIrq_eq hcall
    refine h.setSys h.ring ?_ fun _ _ _ => rfl
    exact (writeDist_active _ _ _).trans h.active
  | reject hcall =>
    obtain rfl := rejectIrq_eq hcall
    exact h.setSys h.ring h.active fun _ _ _ => rfl
  | begin hfree hok hapart hcall => exact h.begin hfree hok hapart hcall
  | turn hr hcall => exact h.turn hr hcall
  | @done t r n ret s sys hr hturn hcall =>
    obtain ⟨rfl, -⟩ := h.stops hr hturn
    obtain ⟨-, hfiles⟩ := fileReadEnd_files hcall
    have hsys : InputInv buffer { x with sys := sys } := by
      rw [hfiles]
      exact h.setSys h.ring h.active fun _ _ _ => rfl
    exact hsys.leave t
  | other mm files needsResched current hmem =>
    have hring : RingOk buffer { x.sys with mm := mm } x.queue := h.ring.outside fun z hz => hmem z (.inl hz)
    exact h.setSys hring h.active fun z hz _ => hmem z hz

lemma InputInv.run (h : InputInv buffer x) (hrun : Relation.ReflTransGen (InputStep buffer) x y) :
    InputInv buffer y := by
  induction hrun with
  | refl => exact h
  | tail _ hstep ih => exact hstep.inv ih

/-- The kernel after `console_init`, with no interrupt active and the storage of the ring buffer at `buffer`. -/
structure BootInput (buffer : Nat) (s : Input) : Prop where
  console : ∃ s₀, consoleInitInput buffer s₀ = (.ok (), s)
  active : s.gic.active = []
  storage : buffer + CONSOLE_RECV_RING_BUFFER_SIZE ≤ wordSize

/-- The start of a run, before any byte has come. -/
def InputState.start (s : Input) : InputState := ⟨s, fun _ => none, [], [], 0, []⟩

lemma BootInput.inv {s : Input} (h : BootInput buffer s) : InputInv buffer (InputState.start s) := by
  obtain ⟨s₀, hinit⟩ := h.console
  obtain ⟨-, rfl⟩ := Prod.mk.inj hinit
  have hshape : RingShape CONSOLE_RECV_RING_BUFFER_SIZE 1 buffer :=
    ⟨⟨by decide, by decide⟩, Nat.le_refl 1, by rw [Nat.mul_one]; exact h.storage⟩
  have hnone : ∀ t r, (fun _ : Nat => (none : Option Reading)) t ≠ some r := by
    intro t r hr
    cases hr
  refine ⟨RingRun.init_inv _ hshape, h.active, List.Sublist.refl _, rfl, ?_, ?_, ?_, ?_⟩
  · exact fun t r hr => absurd hr (hnone t r)
  · exact fun t _ r _ _ hr _ => absurd hr (hnone t r)
  · exact fun t r hr => absurd hr (hnone t r)
  · exact fun t r hr => absurd hr (hnone t r)

/-- The input is delivered: nothing is doubled or reordered, only the bytes that found the queue full are missing, each
reader holds its own bytes, and the next interrupt and the next turn of each reader return. -/
structure InputState.Delivers (buffer : Nat) (x : InputState) : Prop where
  order : (x.delivered.map Prod.snd ++ x.queue).Sublist x.received
  count : x.delivered.length + x.queue.length + x.lost = x.received.length
  whole : x.lost = 0 → x.delivered.map Prod.snd ++ x.queue = x.received
  bound : x.queue.length ≤ CONSOLE_RECV_RING_BUFFER_SIZE - 1
  ended : x.sys.gic.active = []
  reading : ∀ t r, x.readers t = some r →
    x.sys.mm.mem.bytes r.reader.buf r.reader.readCount = bytesOf t (x.delivered.drop r.since)
  uart : ∀ iar p b others, Answer { x.sys.gic with iar := iar } → p < wordSize → ¬x.Guard buffer p →
    fromUart (raised x.sys iar b) = true → ∃ resched sys, irqHandle others p (raised x.sys iar b) = (.ok resched, sys)
  turn : ∀ t r b rest, x.readers t = some r → x.queue = b :: rest → r.reader.readCount < r.reader.bufCount →
    ∃ sys, stdReadTurn r.reader x.sys = (.ok (.inr { r.reader with readCount := r.reader.readCount + 1 }), sys) ∧
      sys.mm.mem (r.reader.buf + r.reader.readCount) = b
  stop : ∀ t r, x.readers t = some r → r.reader.bufCount ≤ r.reader.readCount ∨ x.queue = [] →
    stdReadTurn r.reader x.sys = (.ok (.inl r.reader.readCount), x.sys) ∧
      (fileReadEnd r.reader.file r.reader.readCount x.sys).1 = .ok (r.reader.readCount : Int)

lemma fileReadEnd_ok (file : Nat) (n : Int) (s : Input) : (fileReadEnd file n s).1 = .ok n := by
  unfold fileReadEnd
  by_cases hn : 0 < n
  · rw [if_pos hn]
    rfl
  · rw [if_neg hn]
    rfl

lemma InputInv.delivers (h : InputInv buffer x) : x.Delivers buffer := by
  have hcount := h.count
  refine ⟨h.order, hcount, ?_, ?_, h.active, h.reading, ?_, ?_, ?_⟩
  · intro hlost
    apply h.order.eq_of_length
    rw [List.length_append, List.length_map]
    omega
  · exact Nat.le_sub_one_of_lt h.ring.length_lt
  · intro iar p b others hanswer hp hslot huart
    have hraised : RingOk buffer (raised x.sys iar b) x.queue := h.ring
    have hguard : ∀ y, Stored buffer y → x.Guard buffer y := fun _ hst => .inl hst
    obtain ⟨s₁, hrun, -⟩ : ∃ s₁, irqDispatcher others p (raised x.sys iar b) = (.ok (), s₁) ∧
        Handled buffer (x.Guard buffer) (raised x.sys iar b) s₁ x.queue :=
      hraised.dispatch_uart h.active hp hguard hslot huart
    obtain ⟨resched, sys, hhandle, -⟩ := irqHandle_eq hrun
    exact ⟨resched, sys, hhandle⟩
  · intro t r b rest hr hq hlt
    obtain ⟨sys, hrun, -, -, hbyte⟩ := h.ring.turn_reads (h.reader t r hr).1 hq hlt
    exact ⟨sys, hrun, hbyte⟩
  · intro t r hr hend
    exact ⟨h.ring.turn_ends hend, fileReadEnd_ok _ _ _⟩

/-- **Input.** In every run from `console_init` on, whatever interrupts come and whoever reads, the bytes that the UART
has handed over reach the readers in order, each of them once, unless they found the queue full. -/
theorem input_is_delivered_in_order {s : Input} (hboot : BootInput buffer s)
    (hrun : Relation.ReflTransGen (InputStep buffer) (InputState.start s) x) : x.Delivers buffer :=
  (hboot.inv.run hrun).delivers

/-- The kernel after its start, with one file that the console stands behind. -/
def inputIo : Input where
  mm := countingMm
  recvRb := ringbufferInit 1 0x1000 CONSOLE_RECV_RING_BUFFER_SIZE
  files := ⟨⟨[], [1]⟩, fun _ => ⟨STDREAD_OPS, FILE_MODE_READ, 0, 1, 0⟩,
    fun _ => ⟨fun _ => 0, fun _ => .FREE, fun _ => false⟩, []⟩
  irqTable := fun _ => ⟨none, 0⟩
  gic := ⟨fun _ => false, 1023, [], 288⟩
  needsResched := false
  current := 0
  uartdr := 0

/-- The UART has requested its interrupt. -/
def inputIoRequested : Input := (requestIrq 33 .uart 0 inputIo).2

/-- It has raised it with an `h`. -/
def inputIoRaised : Input := (irqHandle (fun _ _ => pure ()) 0x5000 (raised inputIoRequested 33 0x68)).2

/-- The reader at `0x6000`. -/
def inputReader : Reader := ⟨1, 0x6000, 4, 0x7000, 0⟩

/-- The reader has taken the `h`. -/
def inputIoRead : Input := (stdReadTurn inputReader inputIoRaised).2

/-- The start, with the interrupt of the UART requested. -/
def inputListening : InputState := { InputState.start inputIo with sys := inputIoRequested }

/-- The byte has come. -/
def inputArrived : InputState := inputListening.afterIrq 33 0x68 inputIoRaised

/-- A task reads. -/
def inputReading : InputState := inputArrived.afterBegin 7 inputReader inputIoRaised

/-- It has the byte. -/
def inputStored : InputState := inputReading.afterTurn 7 ⟨inputReader, 0⟩
    { inputReader with readCount := 1 } inputIoRead

/-- The UART hands over an `h`, and a reader gets it. -/
theorem input_is_delivered_in_order_h : ∃ x, Relation.ReflTransGen (InputStep 0x1000) (InputState.start inputIo) x ∧
    x.Delivers 0x1000 ∧ x.delivered = [(7, 0x68)] ∧ x.queue = [] ∧ x.lost = 0 ∧ x.sys.mm.mem 0x6000 = 0x68 := by
  have hboot : BootInput 0x1000 inputIo := ⟨⟨inputIo, rfl⟩, rfl, by decide⟩
  have hrequest : InputStep 0x1000 (InputState.start inputIo) inputListening :=
    InputStep.request (x := InputState.start inputIo)
      (show requestIrq 33 .uart 0 inputIo = (.ok .EOK, inputIoRequested) from Call.eq_of_fst rfl)
  have hfree : ¬inputListening.Guard 0x1000 0x5000 := by
    rintro (⟨-, hlt⟩ | ⟨t, r, hr, -⟩)
    · exact absurd hlt (by decide)
    · change none = some r at hr
      cases hr
  have hirq : InputStep 0x1000 inputListening inputArrived := by
    refine .irq (.inr ⟨by decide, by decide, by decide⟩) (show 0x5000 < wordSize by decide) hfree ?_
      (show irqHandle (fun _ _ => pure ()) 0x5000 (raised inputIoRequested 33 0x68) = (.ok false, inputIoRaised) from
        Call.eq_of_fst (by decide))
    intro _ _ s s' h
    cases h
    exact ⟨rfl, rfl, fun _ _ => rfl⟩
  have hok : ReaderOk 0x1000 inputReader := by
    refine ⟨by decide, by decide, ?_, ?_, ?_⟩
    · rintro y ⟨hlow, -⟩ ⟨-, hlt⟩
      exact absurd (Nat.lt_of_le_of_lt hlow hlt) (by decide)
    · rintro ⟨-, hlt⟩
      exact absurd hlt (by decide)
    · rintro ⟨-, hlt⟩
      exact absurd hlt (by decide)
  have hbegin : InputStep 0x1000 inputArrived inputReading := by
    refine .begin rfl hok ?_
      (show fileReadBegin 1 0x6000 4 0x7000 inputIoRaised = (.ok (.inr inputReader), inputIoRaised) from rfl)
    intro t r hr
    change none = some r at hr
    cases hr
  have hturn : InputStep 0x1000 inputReading inputStored := by
    refine InputStep.turn (x := inputReading) (t := 7) (r := ⟨inputReader, 0⟩) rfl ?_
    exact Call.eq_of_fst (x := stdReadTurn inputReader) rfl
  have hrun := (((Relation.ReflTransGen.single hrequest).tail hirq).tail hbegin).tail hturn
  exact ⟨_, hrun, input_is_delivered_in_order hboot hrun, by decide, by decide, by decide, by decide⟩

end KaworuOS.Proofs
