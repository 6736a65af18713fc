import KaworuOS.RingBuffer
import KaworuOS.Proofs.Pmm
import Mathlib.Logic.Relation

/-!
# A ring buffer is a bounded queue

The queue is read off the slots from `tail` on. `head` and `tail` wrap around independently, but their
distance is always the length of the queue, which stays below the capacity.
-/

namespace KaworuOS.Proofs
open Lib

/-- A state of a run, with the elements that have been pushed and not been popped, the oldest first. -/
structure RingRun where
  mm : Mm
  rb : RingBuffer
  queue : List (List UInt8)

/-- The caller's bytes at `data` are apart from the storage of the buffer. -/
structure DataApart (rb : RingBuffer) (data : Nat) : Prop where
  bound : data + rb.elementSize ≤ wordSize
  apart : data + rb.elementSize ≤ rb.buffer ∨ rb.buffer + rb.capacity * rb.elementSize ≤ data

/-- The steps of a run: `ringbuffer_push`, `ringbuffer_pop`, and anything that leaves the storage alone. -/
inductive RingStep : RingRun → RingRun → Prop
  | push {r : RingRun} {data : Nat} {err : Errno} {rb' : RingBuffer} {mm' : Mm} (hdata : DataApart r.rb data)
      (hcall : ringbufferPush r.rb data r.mm = (.ok (err, rb'), mm')) :
      RingStep r ⟨mm', rb', if err = .EOK then r.queue ++ [r.mm.mem.bytes data r.rb.elementSize] else r.queue⟩
  | pop {r : RingRun} {data : Nat} {err : Errno} {rb' : RingBuffer} {mm' : Mm} (hdata : DataApart r.rb data)
      (hcall : ringbufferPop r.rb data r.mm = (.ok (err, rb'), mm')) :
      RingStep r ⟨mm', rb', if err = .EOK then r.queue.tail else r.queue⟩
  | other {r : RingRun} {mm' : Mm}
      (hmem : r.mm.mem.EqOn mm'.mem r.rb.buffer (r.rb.capacity * r.rb.elementSize)) :
      RingStep r ⟨mm', r.rb, r.queue⟩

/-- The element size, the storage and the capacity that a buffer has been set up with. -/
structure RingShape (c e buffer : Nat) : Prop where
  capacity : 1 ≤ c ∧ c < wordSize
  element : 1 ≤ e
  storage : buffer + c * e ≤ wordSize

/-- The bytes from `a` on are an element of the storage. -/
structure InStorage (c e buffer a : Nat) : Prop where
  low : buffer ≤ a
  high : a + e ≤ buffer + c * e

/-- The buffer behaves as the queue does. -/
structure RingRun.Fifo (c e buffer : Nat) (r : RingRun) : Prop where
  bounded : r.queue.length ≤ c - 1
  full : ringbufferFull r.rb = true ↔ r.queue.length = c - 1
  empty : ringbufferEmpty r.rb = true ↔ r.queue = []
  push_full : ∀ data, DataApart r.rb data → r.queue.length = c - 1 →
    ringbufferPush r.rb data r.mm = (.ok (.ENOMEM, r.rb), r.mm)
  push : ∀ data, DataApart r.rb data → r.queue.length ≠ c - 1 → ∃ rb' mm' a,
    ringbufferPush r.rb data r.mm = (.ok (.EOK, rb'), mm') ∧ mm'.log.copies = ⟨a, data, e⟩ :: r.mm.log.copies ∧
      InStorage c e buffer a
  pop_empty : ∀ data, DataApart r.rb data → r.queue = [] →
    ringbufferPop r.rb data r.mm = (.ok (.ENOMEM, r.rb), r.mm)
  pop : ∀ data, DataApart r.rb data → ∀ x rest, r.queue = x :: rest → ∃ rb' mm' a,
    ringbufferPop r.rb data r.mm = (.ok (.EOK, rb'), mm') ∧ mm'.mem.bytes data e = x ∧
      mm'.log.copies = ⟨data, a, e⟩ :: r.mm.log.copies ∧ InStorage c e buffer a

/-- The invariant of a run. -/
structure RingRun.Inv (c e buffer : Nat) (r : RingRun) : Prop where
  shape : RingShape c e buffer
  buffer_eq : r.rb.buffer = buffer
  capacity_eq : r.rb.capacity = c
  element_eq : r.rb.elementSize = e
  head_eq : r.rb.head = (r.rb.tail + r.queue.length) % c
  tail : r.rb.tail < c
  bound : r.queue.length < c
  slots : ∀ i x, r.queue[i]? = some x → r.mm.mem.bytes (buffer + (r.rb.tail + i) % c * e) e = x

variable {c e buffer data i j t : Nat} {r r' : RingRun}

lemma ringIndex (ht : t < c) (hi : i < c) : (t + i) % c = if t + i < c then t + i else t + i - c := by
  split
  case isTrue h => exact Nat.mod_eq_of_lt h
  case isFalse h =>
    rw [Nat.mod_eq_sub_mod (by omega), Nat.mod_eq_of_lt (by omega)]

lemma ringIndex_inj (ht : t < c) (hi : i < c) (hj : j < c) (h : (t + i) % c = (t + j) % c) : i = j := by
  rw [ringIndex ht hi, ringIndex ht hj] at h
  split at h <;> split at h <;> omega

lemma slot_apart (h : i ≠ j) : i * e + e ≤ j * e ∨ j * e + e ≤ i * e := by
  rcases Nat.lt_or_gt_of_ne h with hlt | hlt
  · left
    calc i * e + e = (i + 1) * e := by ring
      _ ≤ j * e := Nat.mul_le_mul_right e hlt
  · right
    calc j * e + e = (j + 1) * e := by ring
      _ ≤ i * e := Nat.mul_le_mul_right e hlt

lemma slot_inside (h : i < c) : i * e + e ≤ c * e := by
  calc i * e + e = (i + 1) * e := by ring
    _ ≤ c * e := Nat.mul_le_mul_right e h

/-- The state after a `memcpy`. -/
def copied (mm : Mm) (dest src size : Nat) : Mm :=
  { mm with
    mem := copyBytes mm.mem dest src size
    log := { mm.log with copies := ⟨dest, src, size⟩ :: mm.log.copies } }

lemma push_refused (h : r.rb.after r.rb.head = r.rb.tail) :
    ringbufferPush r.rb data r.mm = (.ok (.ENOMEM, r.rb), r.mm) := by
  unfold ringbufferPush
  rw [if_pos h]
  rfl

lemma push_accepted (h : r.rb.after r.rb.head ≠ r.rb.tail) :
    ringbufferPush r.rb data r.mm = (.ok (.EOK, { r.rb with head := r.rb.after r.rb.head }),
      copied r.mm (r.rb.slot r.rb.head) data r.rb.elementSize) := by
  unfold ringbufferPush
  rw [if_neg h]
  rfl

lemma pop_refused (h : r.rb.head = r.rb.tail) : ringbufferPop r.rb data r.mm = (.ok (.ENOMEM, r.rb), r.mm) := by
  unfold ringbufferPop
  rw [if_pos h]
  rfl

lemma pop_accepted (h : r.rb.head ≠ r.rb.tail) :
    ringbufferPop r.rb data r.mm = (.ok (.EOK, { r.rb with tail := r.rb.after r.rb.tail }),
      copied r.mm data (r.rb.slot r.rb.tail) r.rb.elementSize) := by
  unfold ringbufferPop
  rw [if_neg h]
  rfl

namespace RingRun

/-- The state after a push that is accepted. -/
def pushed (r : RingRun) (data : Nat) : RingRun where
  mm := copied r.mm (r.rb.slot r.rb.head) data r.rb.elementSize
  rb := { r.rb with head := r.rb.after r.rb.head }
  queue := r.queue ++ [r.mm.mem.bytes data r.rb.elementSize]

/-- The state after a pop that is accepted. -/
def popped (r : RingRun) (data : Nat) : RingRun where
  mm := copied r.mm data (r.rb.slot r.rb.tail) r.rb.elementSize
  rb := { r.rb with tail := r.rb.after r.rb.tail }
  queue := r.queue.tail

section Inv

variable (h : r.Inv c e buffer)
include h

lemma Inv.after_eq (hi : i < c) : r.rb.after i = (i + 1) % c := by
  obtain ⟨-, hc⟩ := h.shape.capacity
  have hword : c < 2 ^ 64 := hc
  rw [RingBuffer.after, h.capacity_eq, wadd_of_lt (by omega)]

lemma Inv.slot_eq (hi : i < c) : r.rb.slot i = buffer + i * e := by
  have h1 : i * e + e ≤ c * e := slot_inside hi
  have h2 : buffer + c * e ≤ 2 ^ 64 := h.shape.storage
  have h3 := h.shape.element
  have hmul : wmul i e = i * e := wmul_of_lt (by omega)
  rw [RingBuffer.slot, h.buffer_eq, h.element_eq, hmul, wadd_of_lt (by omega)]

lemma Inv.head_lt : r.rb.head < c := by
  rw [h.head_eq]
  exact Nat.mod_lt _ (by have h1 := h.tail; omega)

lemma Inv.full_iff : r.rb.after r.rb.head = r.rb.tail ↔ r.queue.length = c - 1 := by
  have htail := h.tail
  have hbound := h.bound
  rw [h.after_eq h.head_lt, h.head_eq, Nat.mod_add_mod, Nat.add_assoc]
  constructor
  · intro heq
    by_contra hne
    rw [ringIndex htail (by omega)] at heq
    split at heq <;> omega
  · intro heq
    have hc : r.queue.length + 1 = c := by omega
    rw [hc, Nat.add_mod_right, Nat.mod_eq_of_lt htail]

lemma Inv.empty_iff : r.rb.head = r.rb.tail ↔ r.queue = [] := by
  have htail := h.tail
  have hbound := h.bound
  rw [h.head_eq, ← List.length_eq_zero_iff]
  constructor
  · intro heq
    rw [ringIndex htail h.bound] at heq
    split at heq <;> omega
  · intro heq
    rw [heq, Nat.add_zero, Nat.mod_eq_of_lt htail]

omit h in
lemma inStorage (hi : i < c) : InStorage c e buffer (buffer + i * e) := by
  have h1 : i * e + e ≤ c * e := slot_inside hi
  exact ⟨Nat.le_add_right _ _, by omega⟩

lemma Inv.copy_to_slot (hdata : DataApart r.rb data) (hi : i < c) :
    copyBytes r.mm.mem (buffer + i * e) data e = r.mm.mem.blit (buffer + i * e) data e := by
  have h1 : i * e + e ≤ c * e := slot_inside hi
  have h2 : buffer + c * e ≤ 2 ^ 64 := h.shape.storage
  obtain ⟨h3, h4⟩ := hdata
  rw [h.element_eq] at h3 h4
  rw [h.buffer_eq, h.capacity_eq] at h4
  have h5 : data + e ≤ 2 ^ 64 := h3
  exact copyBytes_eq_blit _ (by omega) h5 (by omega)

lemma Inv.copy_from_slot (hdata : DataApart r.rb data) (hi : i < c) :
    copyBytes r.mm.mem data (buffer + i * e) e = r.mm.mem.blit data (buffer + i * e) e := by
  have h1 : i * e + e ≤ c * e := slot_inside hi
  have h2 : buffer + c * e ≤ 2 ^ 64 := h.shape.storage
  obtain ⟨h3, h4⟩ := hdata
  rw [h.element_eq] at h3 h4
  rw [h.buffer_eq, h.capacity_eq] at h4
  have h5 : data + e ≤ 2 ^ 64 := h3
  exact copyBytes_eq_blit _ h5 (by omega) (by omega)

lemma Inv.oldest {x : List UInt8} {rest : List (List UInt8)} (hq : r.queue = x :: rest) :
    r.mm.mem.bytes (buffer + r.rb.tail * e) e = x := by
  have h1 := h.slots 0 x (by rw [hq]; rfl)
  rwa [Nat.add_zero, Nat.mod_eq_of_lt h.tail] at h1

lemma Inv.fifo : r.Fifo c e buffer := by
  have htail := h.tail
  have hbound := h.bound
  constructor
  · omega
  · rw [ringbufferFull, decide_eq_true_iff]
    exact h.full_iff
  · rw [ringbufferEmpty, decide_eq_true_iff]
    exact h.empty_iff
  · intro data _ hfull
    exact push_refused (h.full_iff.mpr hfull)
  · intro data _ hroom
    refine ⟨_, _, _, push_accepted (h.full_iff.not.mpr hroom), ?_, inStorage h.head_lt⟩
    rw [copied, h.slot_eq h.head_lt, h.element_eq]
  · intro data _ hempty
    exact pop_refused (h.empty_iff.mpr hempty)
  · intro data hdata x rest hq
    have hne : r.queue ≠ [] := by
      rw [hq]
      exact List.cons_ne_nil x rest
    refine ⟨_, _, _, pop_accepted (h.empty_iff.not.mpr hne), ?_, ?_, inStorage htail⟩
    · rw [copied, h.slot_eq htail, h.element_eq, h.copy_from_slot hdata htail, Mem.bytes_blit]
      exact h.oldest hq
    · rw [copied, h.slot_eq htail, h.element_eq]

lemma Inv.push (hdata : DataApart r.rb data) (hroom : r.queue.length ≠ c - 1) :
    Inv c e buffer (r.pushed data) := by
  unfold pushed
  have htail := h.tail
  have hbound := h.bound
  refine ⟨h.shape, h.buffer_eq, h.capacity_eq, h.element_eq, ?_, htail, ?_, ?_⟩
  · show r.rb.after r.rb.head = _
    rw [h.after_eq h.head_lt, h.head_eq, Nat.mod_add_mod, List.length_append, Nat.add_assoc]
    rfl
  · rw [List.length_append, List.length_singleton]
    omega
  · intro i x hx
    show (copyBytes r.mm.mem (r.rb.slot r.rb.head) data r.rb.elementSize).bytes
      (buffer + (r.rb.tail + i) % c * e) e = x
    rw [h.slot_eq h.head_lt, h.element_eq, h.copy_to_slot hdata h.head_lt]
    rw [List.getElem?_append, h.element_eq] at hx
    split at hx
    case isTrue hi =>
      -- an old element is in another slot than the new one
      have hne : (r.rb.tail + i) % c ≠ r.rb.head := by
        rw [h.head_eq]
        intro heq
        have h1 := ringIndex_inj htail (by omega) hbound heq
        omega
      have hapart := slot_apart (e := e) hne
      rw [Mem.bytes_congr (Mem.blit_eqOn _ (by omega))]
      exact h.slots i x hx
    case isFalse hi =>
      have hlast : i = r.queue.length := by
        by_contra hne
        rw [List.getElem?_eq_none (by simp; omega)] at hx
        cases hx
      subst hlast
      rw [Nat.sub_self] at hx
      obtain rfl := Option.some.inj hx
      rw [← h.head_eq, Mem.bytes_blit]

lemma Inv.pop (hdata : DataApart r.rb data) (hne : r.queue ≠ []) :
    Inv c e buffer (r.popped data) := by
  unfold popped
  have htail := h.tail
  have hbound := h.bound
  have hlen : 0 < r.queue.length := List.length_pos_of_ne_nil hne
  have hafter := h.after_eq htail
  refine ⟨h.shape, h.buffer_eq, h.capacity_eq, h.element_eq, ?_, ?_, ?_, ?_⟩
  · show r.rb.head = (r.rb.after r.rb.tail + r.queue.tail.length) % c
    rw [hafter, Nat.mod_add_mod, List.length_tail, h.head_eq]
    congr 1
    omega
  · show r.rb.after r.rb.tail < c
    rw [hafter]
    exact Nat.mod_lt _ (by omega)
  · rw [List.length_tail]
    omega
  · intro i x hx
    show (copyBytes r.mm.mem data (r.rb.slot r.rb.tail) r.rb.elementSize).bytes
      (buffer + (r.rb.after r.rb.tail + i) % c * e) e = x
    rw [List.getElem?_tail] at hx
    have hi : i + 1 < r.queue.length := (List.getElem?_eq_some_iff.mp hx).1
    have hslot := h.slots (i + 1) x hx
    have hindex : (r.rb.after r.rb.tail + i) % c = (r.rb.tail + (i + 1)) % c := by
      rw [hafter, Nat.mod_add_mod]
      congr 1
      omega
    have hin : (r.rb.tail + (i + 1)) % c < c := Nat.mod_lt _ (by omega)
    have h1 : (r.rb.tail + (i + 1)) % c * e + e ≤ c * e := slot_inside hin
    have h2 := hdata.apart
    rw [h.buffer_eq, h.capacity_eq, h.element_eq] at h2
    rw [hindex, h.slot_eq htail, h.element_eq, h.copy_from_slot hdata htail,
      Mem.bytes_congr (Mem.blit_eqOn _ (by omega))]
    exact hslot

lemma Inv.other {mm' : Mm} (hmem : r.mm.mem.EqOn mm'.mem r.rb.buffer (r.rb.capacity * r.rb.elementSize)) :
    Inv c e buffer ⟨mm', r.rb, r.queue⟩ := by
  rw [h.buffer_eq, h.capacity_eq, h.element_eq] at hmem
  refine ⟨h.shape, h.buffer_eq, h.capacity_eq, h.element_eq, h.head_eq, h.tail, h.bound, ?_⟩
  intro i x hx
  have hin : (r.rb.tail + i) % c < c := Nat.mod_lt _ (by have h1 := h.bound; omega)
  have h1 : (r.rb.tail + i) % c * e + e ≤ c * e := slot_inside hin
  show mm'.mem.bytes (buffer + (r.rb.tail + i) % c * e) e = x
  rw [Mem.bytes_congr (hmem.mono (by omega) (by omega))]
  exact h.slots i x hx

end Inv

lemma Inv.step (h : r.Inv c e buffer) (hstep : RingStep r r') : r'.Inv c e buffer := by
  cases hstep with
  | push hdata hcall =>
    by_cases hfull : r.queue.length = c - 1
    · rw [push_refused (h.full_iff.mpr hfull)] at hcall
      simp only [Prod.mk.injEq, Except.ok.injEq] at hcall
      obtain ⟨⟨rfl, rfl⟩, rfl⟩ := hcall
      exact h
    · rw [push_accepted (h.full_iff.not.mpr hfull)] at hcall
      simp only [Prod.mk.injEq, Except.ok.injEq] at hcall
      obtain ⟨⟨rfl, rfl⟩, rfl⟩ := hcall
      exact h.push hdata hfull
  | pop hdata hcall =>
    by_cases hempty : r.queue = []
    · rw [pop_refused (h.empty_iff.mpr hempty)] at hcall
      simp only [Prod.mk.injEq, Except.ok.injEq] at hcall
      obtain ⟨⟨rfl, rfl⟩, rfl⟩ := hcall
      exact h
    · rw [pop_accepted (h.empty_iff.not.mpr hempty)] at hcall
      simp only [Prod.mk.injEq, Except.ok.injEq] at hcall
      obtain ⟨⟨rfl, rfl⟩, rfl⟩ := hcall
      exact h.pop hdata hempty
  | other hmem => exact h.other hmem

lemma Inv.run (h : r.Inv c e buffer) (hrun : Relation.ReflTransGen RingStep r r') : r'.Inv c e buffer := by
  induction hrun with
  | refl => exact h
  | tail _ hstep ih => exact ih.step hstep

lemma init_inv (mm : Mm) (hshape : RingShape c e buffer) : Inv c e buffer ⟨mm, ringbufferInit e buffer c, []⟩ := by
  have hc := hshape.capacity.1
  refine ⟨hshape, rfl, rfl, rfl, ?_, hc, hc, ?_⟩
  · exact (Nat.mod_eq_of_lt hc).symm
  · intro i x hx
    cases hx

end RingRun

/-- **Ring buffers.** After `ringbuffer_init`, whatever is pushed and popped, the buffer is a queue of at
most `c - 1` elements. -/
theorem ring_buffer_is_bounded_queue (mm : Mm) (hshape : RingShape c e buffer)
    (hrun : Relation.ReflTransGen RingStep ⟨mm, ringbufferInit e buffer c, []⟩ r) : r.Fifo c e buffer :=
  ((RingRun.init_inv mm hshape).run hrun).fifo

/-- The byte at an address is the last byte of the address. -/
def countingMm : Mm := ⟨fun a => UInt8.ofNat a, 0, 0, ⟨[], []⟩, ⟨0, [], [], []⟩⟩

/-- A buffer with three slots of two bytes. -/
def ringBoot : RingRun := ⟨countingMm, ringbufferInit 2 0x100 3, []⟩

/-- Two elements have been pushed, one popped and one pushed: the head has wrapped around. -/
def ringBootWrapped : RingRun := (((ringBoot.pushed 0x20a).pushed 0x20c).popped 0x300).pushed 0x20e

/-- A run in which the head wraps around. The buffer is full, and a pop gives the oldest element. -/
theorem ring_buffer_is_bounded_queue_wrapped :
    RingShape 3 2 0x100 ∧
      Relation.ReflTransGen RingStep ⟨countingMm, ringbufferInit 2 0x100 3, []⟩ ringBootWrapped ∧
      ringBootWrapped.Fifo 3 2 0x100 ∧ ringBootWrapped.rb.head = 0 ∧ ringBootWrapped.rb.tail = 1 ∧
      ringbufferFull ringBootWrapped.rb = true ∧
      ∃ rb' mm', ringbufferPop ringBootWrapped.rb 0x300 ringBootWrapped.mm = (.ok (.EOK, rb'), mm') ∧
        mm'.mem.bytes 0x300 2 = [0xc, 0xd] := by
  have hshape : RingShape 3 2 0x100 := ⟨by decide, by decide, by decide⟩
  have hfirst : RingStep ringBoot (ringBoot.pushed 0x20a) := .push ⟨by decide, by decide⟩ (push_accepted (by decide))
  have hsecond : RingStep (ringBoot.pushed 0x20a) ((ringBoot.pushed 0x20a).pushed 0x20c) :=
    .push ⟨by decide, by decide⟩ (push_accepted (by decide))
  have hpop : RingStep ((ringBoot.pushed 0x20a).pushed 0x20c) (((ringBoot.pushed 0x20a).pushed 0x20c).popped 0x300) :=
    .pop ⟨by decide, by decide⟩ (pop_accepted (by decide))
  have hwrap : RingStep (((ringBoot.pushed 0x20a).pushed 0x20c).popped 0x300) ringBootWrapped :=
    .push ⟨by decide, by decide⟩ (push_accepted (by decide))
  have hrun := (((Relation.ReflTransGen.single hfirst).tail hsecond).tail hpop).tail hwrap
  have hfifo := ring_buffer_is_bounded_queue countingMm hshape hrun
  have hqueue : ringBootWrapped.queue = [[0xc, 0xd], [0xe, 0xf]] := by decide +kernel
  have hpopped : DataApart ringBootWrapped.rb 0x300 := ⟨by decide, by decide⟩
  obtain ⟨rb', mm', a, hpop', hbytes, -⟩ := hfifo.pop 0x300 hpopped _ _ hqueue
  exact ⟨hshape, hrun, hfifo, rfl, rfl, hfifo.full.mpr (by rw [hqueue]; rfl), rb', mm', hpop', hbytes⟩

end KaworuOS.Proofs
