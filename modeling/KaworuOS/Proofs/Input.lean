import KaworuOS.Input
import KaworuOS.Proofs.RingBuffer

/-!
# One step of the input

An interrupt puts at most one byte at the end of the queue, and a turn of `std_read_op` takes at most one from its
front. Every interrupt that becomes active is ended by the call that handles it.
-/

namespace KaworuOS.Proofs
open Lib

/-- The storage of the ring buffer. -/
def Stored (buffer y : Nat) : Prop := buffer ≤ y ∧ y < buffer + CONSOLE_RECV_RING_BUFFER_SIZE

/-- The ring buffer of the console holds the bytes of the queue. -/
abbrev RingOk (buffer : Nat) (s : Input) (queue : List UInt8) : Prop :=
  RingRun.Inv CONSOLE_RECV_RING_BUFFER_SIZE 1 buffer ⟨s.mm, s.recvRb, queue.map fun b => [b]⟩

/-- A byte goes to the end of the queue, if there is room. -/
def offer (queue : List UInt8) (b : UInt8) : List UInt8 :=
  if queue.length < CONSOLE_RECV_RING_BUFFER_SIZE - 1 then queue ++ [b] else queue

/-- The two states differ in the memory and the ring buffer, and in the memory only where `p` holds. -/
structure OnlyBytes (p : Nat → Prop) (s s' : Input) : Prop where
  rest : s' = { s with mm := s'.mm, recvRb := s'.recvRb }
  mem : ∀ y, ¬p y → s'.mm.mem y = s.mm.mem y

variable {buffer p out : Nat} {s s' : Input} {queue : List UInt8} {b : UInt8}

lemma input_withMm {α : Type} {x : Kernel α} {r : α} {mm' : Mm} (h : x s.mm = (.ok r, mm')) :
    Input.withMm x s = (.ok r, { s with mm := mm' }) := by
  unfold Input.withMm
  rw [h]

lemma copyBytes_one (m : Mem) (dest src : Nat) : copyBytes m dest src 1 = m.set dest (m src) := rfl

section Ring

variable (h : RingOk buffer s queue)
include h

lemma RingOk.apart (hp : p < wordSize) (hout : ¬Stored buffer p) : DataApart s.recvRb p := by
  have h1 := h.buffer_eq
  have h2 := h.capacity_eq
  have h3 := h.element_eq
  dsimp only at h1 h2 h3
  unfold Stored at hout
  refine ⟨?_, ?_⟩
  · rw [h3]
    exact hp
  · rw [h1, h2, h3]
    omega

/-- The ring buffer sees nothing of a write elsewhere. -/
lemma RingOk.outside {mm' : Mm} (hmem : ∀ y, Stored buffer y → mm'.mem y = s.mm.mem y) :
    RingOk buffer { s with mm := mm' } queue := by
  refine RingRun.Inv.other h ?_
  have h1 := h.buffer_eq
  have h2 := h.capacity_eq
  have h3 := h.element_eq
  dsimp only at h1 h2 h3 ⊢
  rw [h1, h2, h3]
  exact fun y hlow hhigh => hmem y ⟨hlow, hhigh⟩

lemma RingOk.length_lt : queue.length < CONSOLE_RECV_RING_BUFFER_SIZE := by
  have hbound := h.bound
  rwa [List.length_map] at hbound

/-- `ringbuffer_push` puts the byte at the end of the queue, if there is room. -/
lemma RingOk.push (hp : p < wordSize) (hout : ¬Stored buffer p) : ∃ err s', Input.push p s = (.ok err, s') ∧
    RingOk buffer s' (offer queue (s.mm.mem p)) ∧ OnlyBytes (Stored buffer) s s' := by
  have hdata := h.apart hp hout
  have hbound := h.length_lt
  have hlen : (queue.map fun b => [b]).length = queue.length := List.length_map ..
  unfold Input.push
  rw [Call.read_bind]
  by_cases hfull : queue.length = CONSOLE_RECV_RING_BUFFER_SIZE - 1
  · have hpush : ringbufferPush s.recvRb p s.mm = (.ok (.ENOMEM, s.recvRb), s.mm) :=
      push_refused (r := ⟨s.mm, s.recvRb, queue.map fun b => [b]⟩) (h.full_iff.mpr (hlen.trans hfull))
    refine ⟨.ENOMEM, s, Call.bind_ok (input_withMm hpush), ?_, rfl, fun _ _ => rfl⟩
    rw [offer, if_neg (by omega)]
    exact h
  · have hroom : (queue.map fun b => [b]).length ≠ CONSOLE_RECV_RING_BUFFER_SIZE - 1 := by
      rw [hlen]
      exact hfull
    have hpush : ringbufferPush s.recvRb p s.mm = (.ok (.EOK, { s.recvRb with head := s.recvRb.after s.recvRb.head }),
        copied s.mm (s.recvRb.slot s.recvRb.head) p s.recvRb.elementSize) :=
      push_accepted (r := ⟨s.mm, s.recvRb, queue.map fun b => [b]⟩) (h.full_iff.not.mpr hroom)
    have hring := RingRun.Inv.push h hdata hroom
    have hslot := h.slot_eq h.head_lt
    have hone := h.element_eq
    have hhead := h.head_lt
    dsimp only at hslot hone hhead hring
    refine ⟨.EOK, _, Call.bind_ok (input_withMm hpush), ?_, rfl, ?_⟩
    · have hqueue : (offer queue (s.mm.mem p)).map (fun b => [b]) =
          (queue.map fun b => [b]) ++ [s.mm.mem.bytes p s.recvRb.elementSize] := by
        rw [offer, if_pos (by omega), List.map_append, hone]
        rfl
      unfold RingOk
      rw [hqueue]
      exact hring
    · intro y hy
      show copyBytes s.mm.mem (s.recvRb.slot s.recvRb.head) p s.recvRb.elementSize y = _
      unfold Stored at hy
      rw [hone, hslot, copyBytes_one, Mem.set_other]
      omega

/-- `console_receive_char` puts the byte at the end of the queue, if there is room. -/
lemma RingOk.receive (hp : p < wordSize) (hout : ¬Stored buffer p) :
    ∃ err s', consoleReceiveChar p b s = (.ok err, s') ∧
    RingOk buffer s' (offer queue b) ∧ OnlyBytes (fun y => Stored buffer y ∨ y = p) s s' := by
  have hstored : RingOk buffer { s with mm := { s.mm with mem := s.mm.mem.set p b } } queue := by
    apply h.outside
    intro y hy
    exact Mem.set_other _ _ (fun heq => hout (heq ▸ hy))
  obtain ⟨err, s', hrun, hring, hrest, hmem⟩ := hstored.push hp hout
  change RingOk buffer s' (offer queue (s.mm.mem.set p b p)) at hring
  rw [Mem.set_same] at hring
  refine ⟨err, s', hrun, hring, ?_, fun y hy => ?_⟩
  · rw [hrest]
  · rw [hmem y fun hs => hy (.inl hs)]
    exact Mem.set_other _ _ (fun heq => hy (.inr heq))

lemma RingOk.empty_iff_nil : ringbufferEmpty s.recvRb = true ↔ queue = [] := by
  have hempty := h.empty_iff
  rw [List.map_eq_nil_iff] at hempty
  rw [ringbufferEmpty, decide_eq_true_iff]
  exact hempty

lemma RingOk.read_nil (hq : queue = []) : consoleRead out s = (.ok false, s) := by
  rw [consoleRead, Call.read_bind, if_pos (h.empty_iff_nil.mpr hq)]
  rfl

/-- `console_read` takes the oldest byte. -/
lemma RingOk.read_cons {rest : List UInt8} (hq : queue = b :: rest) (hp : out < wordSize) (hout : ¬Stored buffer out) :
    ∃ s', consoleRead out s = (.ok true, s') ∧ RingOk buffer s' rest ∧ OnlyBytes (fun y => y = out) s s' ∧
      s'.mm.mem out = b := by
  have hdata := h.apart hp hout
  have hne : queue.map (fun b => [b]) ≠ [] := by
    rw [hq]
    exact List.cons_ne_nil _ _
  have hpop : ringbufferPop s.recvRb out s.mm = (.ok (.EOK, { s.recvRb with tail := s.recvRb.after s.recvRb.tail }),
      copied s.mm out (s.recvRb.slot s.recvRb.tail) s.recvRb.elementSize) :=
    pop_accepted (r := ⟨s.mm, s.recvRb, queue.map fun b => [b]⟩) (h.empty_iff.not.mpr hne)
  have hring := RingRun.Inv.pop h hdata hne
  have hslot := h.slot_eq h.tail
  have hone := h.element_eq
  have hold := h.oldest (show queue.map (fun b => [b]) = [b] :: rest.map (fun b => [b]) by rw [hq]; rfl)
  dsimp only at hslot hone hring hold
  have hmem : copyBytes s.mm.mem out (s.recvRb.slot s.recvRb.tail) s.recvRb.elementSize = s.mm.mem.set out b := by
    rw [hone, hslot, copyBytes_one]
    congr 1
    exact List.head_eq_of_cons_eq hold
  have hrun : consoleRead out s = (.ok true, { s with
      mm := copied s.mm out (s.recvRb.slot s.recvRb.tail) s.recvRb.elementSize
      recvRb := { s.recvRb with tail := s.recvRb.after s.recvRb.tail } }) := by
    have hnonempty : ringbufferEmpty s.recvRb ≠ true := by
      rw [Ne, h.empty_iff_nil, hq]
      exact List.cons_ne_nil _ _
    have hpopped : Input.pop out s = (.ok .EOK, _) := Call.bind_ok (input_withMm hpop)
    rw [consoleRead, Call.read_bind, if_neg hnonempty, Call.bind_ok hpopped]
    rfl
  refine ⟨_, hrun, ?_, ⟨rfl, ?_⟩, ?_⟩
  · rw [hq] at hring
    exact hring
  · intro y hy
    show copyBytes _ _ _ _ y = _
    rw [hmem, Mem.set_other _ _ hy]
  · show copyBytes _ _ _ _ out = _
    rw [hmem, Mem.set_same]

end Ring

/-- What `GICC_IAR` answers: an interrupt that is enabled, or that there is none. -/
def Answer (g : Gic) : Prop := g.iar = 1023 ∨ (g.iar < 1020 ∧ g.iar < g.interruptsCount ∧ g.enabled g.iar = true)

/-- The interrupt has an entry in the table. -/
def InTable (g : Gic) : Prop := g.iar < MAX_IRQ ∧ g.iar ≤ g.interruptsCount

instance : Decidable (InTable g) := inferInstanceAs (Decidable (_ ∧ _))

/-- The interrupt is handled by the driver of the UART. -/
def fromUart (s : Input) : Bool := decide (InTable s.gic) && decide ((s.irqTable s.gic.iar).handler = some .uart)

/-- The queue after an interrupt. -/
def arrive (s : Input) (queue : List UInt8) : List UInt8 := if fromUart s then offer queue s.uartdr else queue

/-- A handler leaves the interrupt controller, the ring buffer and some memory alone. -/
def KeepsInput (guard : Nat → Prop) (x : InputCall Unit) : Prop :=
  ∀ s s', x s = (.ok (), s') → s'.recvRb = s.recvRb ∧ s'.gic = s.gic ∧ ∀ y, guard y → s'.mm.mem y = s.mm.mem y

/-- The state in which the handler of an interrupt runs. -/
def activated (s : Input) : Input := { s with gic := s.gic.irqGetActive.2 }

section Irq

variable {others : Nat → Nat → InputCall Unit} {guard : Nat → Prop} {resched : Bool}

/-- An interrupt without an entry is not handled and not ended. -/
lemma irqDispatcher_outside (hin : ¬InTable s.gic) (hmax : s.gic.iar ≠ MAX_IRQ) :
    irqDispatcher others p s = (.ok (), activated s) := by
  unfold InTable at hin
  rw [irqDispatcher, Call.read_bind, Call.update_bind, if_pos]
  · rfl
  · show MAX_IRQ < s.gic.iar ∨ s.gic.interruptsCount < s.gic.iar
    omega

lemma irqDispatcher_inside (hin : InTable s.gic) : irqDispatcher others p s =
    ((s.irqTable s.gic.iar).run others p >>= fun _ =>
      Call.update (fun s' => { s' with gic := s'.gic.irqEoi s.gic.iar })) (activated s) := by
  obtain ⟨h1, h2⟩ := hin
  have hsmall : ¬(MAX_IRQ < s.gic.irqGetActive.1 ∨ s.gic.interruptsCount < s.gic.irqGetActive.1) := by
    show ¬(MAX_IRQ < s.gic.iar ∨ s.gic.interruptsCount < s.gic.iar)
    omega
  have hentry : ¬s.gic.irqGetActive.1 = MAX_IRQ := Nat.ne_of_lt h1
  rw [irqDispatcher, Call.read_bind, Call.update_bind, if_neg hsmall, if_neg hentry, Call.read_bind]
  rfl

/-- What is active is ended. -/
lemma irqEoi_getActive {g : Gic} (hactive : g.active = []) : g.irqGetActive.2.irqEoi g.iar = g := by
  cases g with
  | mk enabled iar active count =>
    obtain rfl : active = [] := hactive
    unfold Gic.irqGetActive Gic.irqEoi
    by_cases hpend : Gic.pending iar = true
    · rw [if_pos hpend, List.erase_cons_head]
    · rw [if_neg hpend, List.erase_nil]

lemma irqGetActive_none {g : Gic} (hiar : g.iar = 1023) : g.irqGetActive.2 = g := by
  have hpend : Gic.pending g.iar = false := by
    rw [hiar]
    decide
  rw [Gic.irqGetActive, hpend]
  rfl

/-- `irq_handle` returns if the dispatcher does, with what happens to the flag of the CPU. -/
lemma irqHandle_eq {s₁ : Input} (h : irqDispatcher others p s = (.ok (), s₁)) :
    ∃ r s', irqHandle others p s = (.ok r, s') ∧
    s' = { s₁ with needsResched := s'.needsResched } := by
  rw [irqHandle, Call.bind_ok h, Call.read_bind]
  by_cases hr : s₁.needsResched ∧ s₁.current ≠ 0
  · rw [if_pos (decide_eq_true hr)]
    exact ⟨true, _, rfl, rfl⟩
  · rw [if_neg (by rw [decide_eq_true_iff]; exact hr)]
    exact ⟨false, s₁, rfl, rfl⟩

/-- What an interrupt does, as far as the input is concerned. -/
structure Handled (buffer : Nat) (guard : Nat → Prop) (s s' : Input) (queue : List UInt8) : Prop where
  ring : RingOk buffer s' (arrive s queue)
  gic : s'.gic = s.gic
  mem : ∀ y, guard y → ¬Stored buffer y → s'.mm.mem y = s.mm.mem y

lemma Handled.flag (h : Handled buffer guard s s' queue) (n : Bool) :
    Handled buffer guard s { s' with needsResched := n } queue := ⟨h.ring, h.gic, h.mem⟩

variable (h : RingOk buffer s queue) (hactive : s.gic.active = []) (hanswer : Answer s.gic) (hp : p < wordSize)
  (hguard : ∀ y, Stored buffer y → guard y) (hslot : ¬guard p)
include h hactive hanswer hp hguard hslot

omit hanswer in
/-- An interrupt of the UART is always handled. -/
lemma RingOk.dispatch_uart (huart : fromUart s = true) :
    ∃ s', irqDispatcher others p s = (.ok (), s') ∧ Handled buffer guard s s' queue := by
  obtain ⟨hin, hhandler⟩ := Bool.and_eq_true_iff.mp huart
  have hin := of_decide_eq_true hin
  have hhandler := of_decide_eq_true hhandler
  have hactivated : RingOk buffer (activated s) queue := h
  obtain ⟨err, s₁, hrun, hring, hrest, hmem⟩ := hactivated.receive (b := s.uartdr) hp (fun hst => hslot (hguard p hst))
  have hcode : (s.irqTable s.gic.iar).run others p (activated s) = (.ok (), s₁) := by
    unfold IrqDesc.run
    rw [hhandler]
    exact Call.bind_ok hrun
  have hgic : s₁.gic.irqEoi s.gic.iar = s.gic := by
    rw [hrest]
    exact irqEoi_getActive hactive
  refine ⟨_, (irqDispatcher_inside hin).trans (Call.bind_ok hcode), ?_, hgic, fun y hy hst => ?_⟩
  · rw [arrive, if_pos huart]
    exact hring
  · exact hmem y fun hor => hor.elim hst fun heq => hslot (heq ▸ hy)

/-- An interrupt that returns has been handled, by whichever handler. -/
lemma RingOk.irq (hothers : ∀ n d, KeepsInput guard (others n d)) (hcall : irqHandle others p s = (.ok resched, s')) :
    Handled buffer guard s s' queue := by
  have hkept : InTable s.gic → fromUart s = false →
    ∀ s₂, (s.irqTable s.gic.iar).run others p (activated s) = (.ok (), s₂) →
      s₂.recvRb = s.recvRb ∧ s₂.gic = s.gic.irqGetActive.2 ∧ ∀ y, guard y → s₂.mm.mem y = s.mm.mem y := by
    intro hin huart s₂ hcode
    unfold IrqDesc.run at hcode
    cases hhandler : (s.irqTable s.gic.iar).handler with
    | none =>
      rw [hhandler] at hcode
      obtain ⟨-, rfl⟩ := Prod.mk.inj hcode
      exact ⟨rfl, rfl, fun _ _ => rfl⟩
    | some handler =>
      rw [hhandler] at hcode
      cases handler with
      | uart =>
        rw [fromUart, hhandler, decide_eq_true hin] at huart
        cases huart
      | other n => exact hothers n _ _ _ hcode
  have hdispatch : ∀ s₁, irqDispatcher others p s = (.ok (), s₁) → Handled buffer guard s s₁ queue := by
    intro s₁ hrun
    cases huart : fromUart s with
    | true =>
      obtain ⟨s₂, hrun₂, hhandled⟩ : ∃ s₂, irqDispatcher others p s = (.ok (), s₂) ∧ Handled buffer guard s s₂ queue :=
        h.dispatch_uart hactive hp hguard hslot huart
      obtain ⟨-, rfl⟩ := Prod.mk.inj (hrun.symm.trans hrun₂)
      exact hhandled
    | false =>
      have harrive : arrive s queue = queue := by
        rw [arrive, huart]
        rfl
      by_cases hin : InTable s.gic
      · rw [irqDispatcher_inside hin] at hrun
        obtain ⟨⟨⟩, s₂, hcode, hend⟩ := Call.ok_of_bind hrun
        obtain ⟨-, rfl⟩ := Prod.mk.inj hend
        obtain ⟨hrb, hgic, hmem⟩ := hkept hin huart s₂ hcode
        refine ⟨?_, ?_, fun y hy _ => hmem y hy⟩
        · have hring : RingOk buffer { s with mm := s₂.mm } queue := h.outside fun y hy => hmem y (hguard y hy)
          rw [harrive]
          show RingRun.Inv _ 1 buffer ⟨s₂.mm, s₂.recvRb, _⟩
          rw [hrb]
          exact hring
        · show s₂.gic.irqEoi s.gic.iar = s.gic
          rw [hgic]
          exact irqEoi_getActive hactive
      · have hnone : s.gic.iar = 1023 := by
          simp only [InTable, MAX_IRQ] at hin
          exact hanswer.resolve_right fun hin' => hin ⟨by omega, by omega⟩
        rw [irqDispatcher_outside hin (by rw [hnone]; decide)] at hrun
        obtain ⟨-, rfl⟩ := Prod.mk.inj hrun
        refine ⟨?_, irqGetActive_none hnone, fun _ _ _ => rfl⟩
        rw [harrive]
        exact h
  obtain ⟨⟨⟩, s₁, hrun, -⟩ := Call.ok_of_bind hcall
  obtain ⟨r, s₂, hrun₂, hflag⟩ := irqHandle_eq hrun
  obtain ⟨-, rfl⟩ := Prod.mk.inj (hcall.symm.trans hrun₂)
  rw [hflag]
  exact (hdispatch s₁ hrun).flag _

end Irq

section Reader

variable {r : Reader}

/-- The buffer of a reader. -/
def Reader.Buf (r : Reader) (y : Nat) : Prop := r.buf ≤ y ∧ y < r.buf + r.bufCount

/-- A reader owns its buffer and its local byte, which are apart and not the storage of the ring buffer. -/
structure ReaderOk (buffer : Nat) (r : Reader) : Prop where
  bound : r.buf + r.bufCount ≤ wordSize
  out : r.out < wordSize
  stored : ∀ y, Reader.Buf r y → ¬Stored buffer y
  outStored : ¬Stored buffer r.out
  outBuf : ¬Reader.Buf r r.out

variable (h : RingOk buffer s queue) (hr : ReaderOk buffer r)
include h

/-- A turn of `std_read_op` with nothing to read, or at the end of the buffer. -/
lemma RingOk.turn_ends (hend : r.bufCount ≤ r.readCount ∨ queue = []) :
    stdReadTurn r s = (.ok (.inl r.readCount), s) := by
  unfold stdReadTurn
  by_cases hlt : r.readCount < r.bufCount
  · rw [if_pos hlt, Call.bind_ok (h.read_nil (hend.resolve_left (by omega)))]
    rfl
  · rw [if_neg hlt]
    rfl

include hr

/-- A turn of `std_read_op` that moves the oldest byte of the queue to the buffer. -/
lemma RingOk.turn_reads {rest : List UInt8} (hq : queue = b :: rest) (hlt : r.readCount < r.bufCount) :
    ∃ s', stdReadTurn r s = (.ok (.inr { r with readCount := r.readCount + 1 }), s') ∧ RingOk buffer s' rest ∧
      OnlyBytes (fun y => y = r.out ∨ y = r.buf + r.readCount) s s' ∧ s'.mm.mem (r.buf + r.readCount) = b := by
  obtain ⟨s₁, hrun, hring, ⟨hrest, hmem⟩, hbyte⟩ := h.read_cons hq hr.out hr.outStored
  have haddr : wadd r.buf r.readCount = r.buf + r.readCount := by
    have hbound : r.buf + r.bufCount ≤ 2 ^ 64 := hr.bound
    exact wadd_of_lt (by omega)
  have hown : Reader.Buf r (r.buf + r.readCount) := ⟨Nat.le_add_right _ _, by omega⟩
  unfold stdReadTurn
  rw [if_pos hlt, Call.bind_ok hrun, if_pos rfl, Call.read_bind, hbyte, haddr]
  refine ⟨_, rfl, ?_, ⟨?_, fun y hy => ?_⟩, Mem.set_same _ _ _⟩
  · apply hring.outside
    intro y hy
    exact Mem.set_other _ _ (fun heq => hr.stored _ hown (heq ▸ hy))
  · rw [hrest]
  · rw [← hmem y fun heq => hy (.inl heq)]
    exact Mem.set_other _ _ (fun heq => hy (.inr heq))

end Reader

end KaworuOS.Proofs
