import KaworuOS.Lib.Run
import KaworuOS.VirtioBlk

/-!
# The block driver and late interrupts

Every request is followed by one signal of the completion. When each signal is given before the
completion is armed again, a call returns after its own request; a signal that is late completes the
next request in its place.
-/

namespace KaworuOS.Proofs
open Lib

variable {s s' : Blk} {r : DeviceRequest}

/-- The signals of completed requests that are still to come. -/
def Blk.owed (s : Blk) : Nat :=
  s.unsent + s.isr.toNat + (decide (s.handler = .assert ∨ s.handler = .signal)).toNat

/-- The device is done with every published request. -/
structure AtRest (s : Blk) : Prop where
  flight : s.flight = []
  seen : s.availSeen = s.queue.availIndex
  taken : s.taken = s.published

/-- No signal has been given since the completion was armed, and none is to come. -/
structure Silent (s : Blk) : Prop where
  owed : Blk.owed s = 0
  done : s.done = false

/-- The request page holds what a read asks for, or the disk what a write has sent. -/
structure HasData (call : BlkCall) (data : Sector) (disk : Nat → Sector) : Prop where
  read : call.writing = false → data = disk call.sector
  stored : ∀ buf, call.buf = some buf → disk call.sector = buf

/-- The request page has the data of a write. -/
def DataReady (s : Blk) : Prop := ∀ buf, s.call.buf = some buf → s.request.data = buf

/-- The header is that of the current call. -/
structure HeaderReady (s : Blk) : Prop where
  type : s.request.type = if s.call.writing then VIRTIO_BLOCK_TYPE_OUT else VIRTIO_BLOCK_TYPE_IN
  sector : s.request.sector = s.call.sector

/-- The request page and the descriptors are those of the current call. -/
structure Prepared (s : Blk) : Prop extends HeaderReady s where
  data : DataReady s
  buffers : Blk.buffers (Blk.chain s.queue.descs VIRTIO_QUEUE_ENTRY_COUNT 0) =
    [(s.requestAddr, 16, false), (s.requestAddr + 16, SECTOR_SIZE, !s.call.writing), (s.requestAddr + 528, 1, true)]

/-- The request that the device works on is that of the current call. -/
structure Current (s : Blk) (r : DeviceRequest) : Prop where
  flight : s.flight = [r]
  seen : s.availSeen = s.queue.availIndex
  taken : s.taken = s.published
  id : r.id = s.published
  writing : r.writing = s.call.writing
  sector : r.sector = s.call.sector
  moved : r.stage = .moved → HasData s.call s.request.data s.disk
  answered : r.stage = .answered → s.request.status = 0 → HasData s.call s.request.data s.disk

/-- The request of the current call is published, and the device has not taken it. -/
structure Offered (s : Blk) : Prop where
  flight : s.flight = []
  seen : s.queue.availIndex = s.availSeen + 1
  taken : s.published = s.taken + 1
  ring : s.queue.availRing (s.availSeen.toNat % VIRTIO_QUEUE_ENTRY_COUNT) = 0

/-- The device has completed the request of the current call. -/
structure Completed (s : Blk) : Prop where
  rest : AtRest s
  mem : s.published ∈ s.completed
  data : s.request.status = 0 → HasData s.call s.request.data s.disk

/-- The task has not filled the request page and the descriptors yet. -/
def BlkPc.filling : BlkPc → Bool
  | .idle | .fill | .descs => true
  | _ => false

/-- The task waits for its request. -/
def BlkPc.Waiting (pc : BlkPc) : Prop := pc = .poll ∨ pc = .wait ∨ pc = .enqueue ∨ pc = .asleep

/-- The request of the current call is published and not completed. -/
def Outstanding (s : Blk) : Prop :=
  s.pc = .lastUsed ∧ s.queue.lastUsedIndex = s.queue.usedIndex ∨
    BlkPc.Waiting s.pc ∧ s.queue.lastUsedIndex = s.queue.usedIndex + 1

/-- How far the current call is. -/
inductive Progress (s : Blk) : Prop
  | rest (hpc : s.pc = .idle ∨ s.pc = .fill ∨ s.pc = .descs ∨ s.pc = .reset) (hrest : AtRest s)
      (hused : s.queue.lastUsedIndex = s.queue.usedIndex)
  | armed (hpc : s.pc = .ring ∨
        s.pc = .index ∧ s.queue.availRing (s.queue.availIndex.toNat % VIRTIO_QUEUE_ENTRY_COUNT) = 0)
      (hrest : AtRest s) (hsilent : Silent s) (hused : s.queue.lastUsedIndex = s.queue.usedIndex)
  | pending (hpc : Outstanding s) (hsilent : Silent s) (hstage : Offered s ∨ ∃ r, Current s r)
  | completed (hpc : s.pc = .lastUsed ∧ s.queue.lastUsedIndex + 1 = s.queue.usedIndex ∨
        (BlkPc.Waiting s.pc ∨ s.pc = .finish ∨ s.pc = .copy ∧ s.request.status = 0) ∧
          s.queue.lastUsedIndex = s.queue.usedIndex)
      (hdone : Completed s)

/-- The answer of the last call belongs to a completed request and, for a read, to its sector. -/
structure AnswerOk (s : Blk) (a : BlkAnswer) : Prop where
  idle : s.pc = .idle
  completed : a.id ∈ s.completed
  copied : a.call.writing = false → a.errno = .EOK → a.copied = some (s.disk a.call.sector)
  stored : ∀ buf, a.call.buf = some buf → a.errno = .EOK → s.disk a.call.sector = buf

/-- The invariant of runs in which no interrupt is late. -/
structure BlkInv (s : Blk) : Prop where
  ack : s.handler = .ack → s.isr = true
  once : Blk.owed s + s.done.toNat ≤ 1
  data : s.pc = .fill ∨ s.pc = .descs → DataReady s
  header : s.pc = .descs → HeaderReady s
  prepared : BlkPc.filling s.pc = false → Prepared s
  progress : Progress s
  answer : ∀ a, s.answer = some a → AnswerOk s a

/-- When the completion is armed for a new request, the interrupts of the earlier requests have been
handled. -/
def BlkOp.Drained (s : Blk) : BlkOp → Prop
  | .go => s.pc = .reset → s.unsent = 0 ∧ s.isr = false ∧ s.handler = .idle
  | _ => True

lemma BlkCall.writing_of_buf {call : BlkCall} {buf : Sector} (h : call.buf = some buf) : call.writing = true := by
  cases call with
  | read | readSync => cases h
  | write | writeSync => rfl

lemma DataReady.begin (s : Blk) (call : BlkCall) : DataReady (s.begin call) := by
  intro buf hbuf
  cases call <;> cases hbuf <;> rfl

lemma BlkInv.begin (h : BlkInv s) (hpc : s.pc = .idle) (call : BlkCall) : BlkInv (s.begin call) := by
  refine ⟨h.ack, h.once, fun _ => .begin s call, fun hne => (nomatch hne), fun hne => (nomatch hne), ?_,
    fun a ha => (nomatch ha)⟩
  cases h.progress with
  | rest _ hrest hused => exact .rest (.inr (.inl rfl)) ⟨hrest.flight, hrest.seen, hrest.taken⟩ hused
  | armed hpc' => simp [hpc] at hpc'
  | pending hpc' => simp [Outstanding, hpc, BlkPc.Waiting] at hpc'
  | completed hpc' => simp [hpc, BlkPc.Waiting] at hpc'

lemma Silent.once (h : Silent s) : Blk.owed s + s.done.toNat ≤ 1 := by
  rw [h.owed, h.done]
  exact Nat.zero_le 1

lemma AtRest.congr (h : AtRest s) (hflight : s'.flight = s.flight) (hseen : s'.availSeen = s.availSeen)
    (hindex : s'.queue.availIndex = s.queue.availIndex) (htaken : s'.taken = s.taken)
    (hpublished : s'.published = s.published) : AtRest s' :=
  ⟨hflight.trans h.flight, by rw [hseen, h.seen, hindex], by rw [htaken, h.taken, hpublished]⟩

lemma Prepared.congr (h : Prepared s) (hcall : s'.call = s.call) (htype : s'.request.type = s.request.type)
    (hsector : s'.request.sector = s.request.sector)
    (hdata : s.call.writing = true → s'.request.data = s.request.data) (hdescs : s'.queue.descs = s.queue.descs)
    (haddr : s'.requestAddr = s.requestAddr) : Prepared s' := by
  refine ⟨⟨?_, ?_⟩, ?_, ?_⟩
  · rw [htype, hcall, h.type]
  · rw [hsector, hcall, h.sector]
  · intro buf hbuf
    rw [hcall] at hbuf
    rw [hdata (BlkCall.writing_of_buf hbuf), h.data buf hbuf]
  · rw [hdescs, hcall, haddr, h.buffers]

lemma ne_idle_of_filling (h : BlkPc.filling s.pc = false) : s.pc ≠ .idle := by
  intro hpc
  rw [hpc] at h
  cases h

lemma BlkInv.inside (h : BlkInv s) (hpc : BlkPc.filling s.pc = false) (hpc' : BlkPc.filling s'.pc = false)
    (hanswer : s'.answer = s.answer) (hack : s'.handler = .ack → s'.isr = true)
    (honce : Blk.owed s' + s'.done.toNat ≤ 1) (hprepared : Prepared s → Prepared s') (hprogress : Progress s') :
    BlkInv s' := by
  refine ⟨hack, honce, fun hf => ?_, fun hf => ?_, fun _ => hprepared (h.prepared hpc), hprogress, fun a ha => ?_⟩
  · rcases hf with hf | hf <;> rw [hf] at hpc' <;> cases hpc'
  · rw [hf] at hpc'
    cases hpc'
  · exact absurd (h.answer a (hanswer ▸ ha)).idle (ne_idle_of_filling hpc)

lemma BlkInv.fill (h : BlkInv s) (hpc : s.pc = .fill) (hrest : AtRest s)
    (hused : s.queue.lastUsedIndex = s.queue.usedIndex) :
    BlkInv { s with request := Blk.fillRequest s.request s.call.sector s.call.writing, pc := .descs } := by
  refine ⟨h.ack, h.once, fun _ => h.data (.inl hpc), fun _ => ⟨rfl, rfl⟩, fun hf => (nomatch hf), ?_, fun a ha => ?_⟩
  · exact .rest (.inr (.inr (.inl rfl))) (hrest.congr rfl rfl rfl rfl rfl) hused
  · have hidle := (h.answer a ha).idle
    rw [hpc] at hidle
    cases hidle

lemma BlkInv.fillDescs (h : BlkInv s) (hpc : s.pc = .descs) (hrest : AtRest s)
    (hused : s.queue.lastUsedIndex = s.queue.usedIndex) :
    BlkInv { s with
      queue := { s.queue with descs := Blk.fillDescs s.queue.descs s.requestAddr s.call.writing }, pc := .reset } := by
  have hheader := h.header hpc
  refine ⟨h.ack, h.once, fun hf => (by simp at hf), fun hf => (nomatch hf), fun _ => ?_, ?_, fun a ha => ?_⟩
  · refine ⟨⟨hheader.type, hheader.sector⟩, h.data (.inr hpc), ?_⟩
    dsimp only
    cases s.call.writing <;> simp [Blk.chain, Blk.fillDescs, Blk.buffers]
  · exact .rest (.inr (.inr (.inr rfl))) (hrest.congr rfl rfl rfl rfl rfl) hused
  · have hidle := (h.answer a ha).idle
    rw [hpc] at hidle
    cases hidle

lemma BlkInv.arm (h : BlkInv s) (hpc : s.pc = .reset) (hrest : AtRest s)
    (hused : s.queue.lastUsedIndex = s.queue.usedIndex)
    (hdrained : s.unsent = 0 ∧ s.isr = false ∧ s.handler = .idle) :
    BlkInv { s with done := false, pc := .ring } := by
  obtain ⟨hunsent, hisr, hhandler⟩ := hdrained
  have hsilent : Silent { s with done := false, pc := .ring } := by
    refine ⟨?_, rfl⟩
    simp [Blk.owed, hunsent, hisr, hhandler]
  refine h.inside (by rw [hpc]; rfl) rfl rfl h.ack hsilent.once
    (fun hp => hp.congr rfl rfl rfl (fun _ => rfl) rfl rfl) ?_
  exact .armed (.inl rfl) (hrest.congr rfl rfl rfl rfl rfl) hsilent hused

lemma BlkPc.Waiting.not_filling {pc : BlkPc} (h : BlkPc.Waiting pc) : BlkPc.filling pc = false := by
  rcases h with rfl | rfl | rfl | rfl <;> rfl

lemma BlkInv.go_pending (h : BlkInv s) (hpc : Outstanding s) (hsilent : Silent s)
    (hstage : Offered s ∨ ∃ r, Current s r) (hgo : s.go = some s') : BlkInv s' := by
  have hmoved : ∀ (queue : VirtQ) (pc : BlkPc), queue.availIndex = s.queue.availIndex →
      queue.availRing = s.queue.availRing → queue.descs = s.queue.descs → BlkPc.filling s.pc = false →
      BlkPc.Waiting pc → queue.lastUsedIndex = queue.usedIndex + 1 → BlkInv { s with queue := queue, pc := pc } := by
    intro queue pc hindex hring hdescs hne hwaiting hused
    refine h.inside hne hwaiting.not_filling rfl h.ack hsilent.once
      (fun hp => hp.congr rfl rfl rfl (fun _ => rfl) hdescs rfl) ?_
    refine .pending (.inr ⟨hwaiting, hused⟩) ⟨hsilent.owed, hsilent.done⟩ ?_
    rcases hstage with ho | ⟨r, hr⟩
    · refine .inl ⟨ho.flight, hindex.trans ho.seen, ho.taken, ?_⟩
      rw [hring]
      exact ho.ring
    · exact .inr ⟨r, hr.flight, hr.seen.trans hindex.symm, hr.taken, hr.id, hr.writing, hr.sector, hr.moved,
        hr.answered⟩
  unfold Blk.go at hgo
  rcases hpc with ⟨hpc, hused⟩ | ⟨hpc | hpc | hpc | hpc, hused⟩ <;> rw [hpc] at hgo
  · obtain rfl := Option.some.inj hgo
    refine hmoved _ _ rfl rfl rfl (by rw [hpc]; rfl) ?_ (by rw [hused])
    cases s.call.polls
    · exact .inr (.inl rfl)
    · exact .inl rfl
  · have hbusy : s.queue.isBusy = true := by
      simp [VirtQ.isBusy, hused]
    simp only [hbusy, if_true] at hgo
    obtain rfl := Option.some.inj hgo
    exact h
  · obtain rfl := Option.some.inj hgo
    refine hmoved _ _ rfl rfl rfl (by rw [hpc]; rfl) ?_ hused
    rw [hsilent.done]
    exact .inr (.inr (.inl rfl))
  · obtain rfl := Option.some.inj hgo
    exact hmoved _ _ rfl rfl rfl (by rw [hpc]; rfl) (.inr (.inr (.inr rfl))) hused
  · cases hgo

lemma BlkInv.answerWith (h : BlkInv s) (hused : s.queue.lastUsedIndex = s.queue.usedIndex) (hdone : Completed s)
    (errno : Errno) (copied : Option Sector) (hstatus : errno = .EOK → s.request.status = 0)
    (hcopied : s.call.writing = false → errno = .EOK → copied = some s.request.data) :
    BlkInv (s.answerWith errno copied) := by
  refine ⟨h.ack, h.once, fun hf => (by simp [Blk.answerWith] at hf), fun hf => (nomatch hf), fun hf => (nomatch hf),
    .rest (.inl rfl) (hdone.rest.congr rfl rfl rfl rfl rfl) hused, ?_⟩
  intro a ha
  obtain rfl := Option.some.inj ha
  refine ⟨rfl, hdone.mem, fun hread herr => ?_, fun buf hbuf herr => (hdone.data (hstatus herr)).stored buf hbuf⟩
  dsimp only at hread herr ⊢
  rw [hcopied hread herr, (hdone.data (hstatus herr)).read hread]
  rfl

lemma BlkInv.go_completed (h : BlkInv s) (hpc : s.pc = .lastUsed ∧ s.queue.lastUsedIndex + 1 = s.queue.usedIndex ∨
      (BlkPc.Waiting s.pc ∨ s.pc = .finish ∨ s.pc = .copy ∧ s.request.status = 0) ∧
        s.queue.lastUsedIndex = s.queue.usedIndex)
    (hdone : Completed s) (hgo : s.go = some s') : BlkInv s' := by
  have hmoved : ∀ (queue : VirtQ) (pc : BlkPc), queue.availIndex = s.queue.availIndex →
      queue.descs = s.queue.descs → BlkPc.filling s.pc = false →
      BlkPc.Waiting pc ∨ pc = .finish ∨ pc = .copy ∧ s.request.status = 0 →
      queue.lastUsedIndex = queue.usedIndex → BlkInv { s with queue := queue, pc := pc } := by
    intro queue pc hindex hdescs hne hwaiting hused
    have hpc' : BlkPc.filling pc = false := by
      rcases hwaiting with hw | rfl | ⟨rfl, -⟩
      · exact hw.not_filling
      · rfl
      · rfl
    refine h.inside hne hpc' rfl h.ack h.once (fun hp => hp.congr rfl rfl rfl (fun _ => rfl) hdescs rfl) ?_
    exact .completed (.inr ⟨hwaiting, hused⟩) ⟨hdone.rest.congr rfl rfl hindex rfl rfl, hdone.mem, hdone.data⟩
  unfold Blk.go at hgo
  rcases hpc with ⟨hpc, hused⟩ | ⟨(hpc | hpc | hpc | hpc) | hpc | ⟨hpc, hstatus⟩, hused⟩ <;> rw [hpc] at hgo
  · obtain rfl := Option.some.inj hgo
    refine hmoved _ _ rfl rfl (by rw [hpc]; rfl) ?_ hused
    cases s.call.polls
    · exact .inl (.inr (.inl rfl))
    · exact .inl (.inl rfl)
  · dsimp only at hgo
    split at hgo
    · obtain rfl := Option.some.inj hgo
      exact h
    · obtain rfl := Option.some.inj hgo
      exact hmoved _ _ rfl rfl (by rw [hpc]; rfl) (.inr (.inl rfl)) hused
  · obtain rfl := Option.some.inj hgo
    refine hmoved _ _ rfl rfl (by rw [hpc]; rfl) ?_ hused
    cases s.done
    · exact .inl (.inr (.inr (.inl rfl)))
    · exact .inr (.inl rfl)
  · obtain rfl := Option.some.inj hgo
    exact hmoved _ _ rfl rfl (by rw [hpc]; rfl) (.inl (.inr (.inr (.inr rfl)))) hused
  · cases hgo
  · obtain rfl := Option.some.inj hgo
    unfold Blk.finish
    split
    · exact h.answerWith hused hdone .ENODEV none (fun herr => (nomatch herr)) (fun _ herr => (nomatch herr))
    · rename_i hzero
      rw [not_not] at hzero
      split
      · rename_i hwriting
        refine h.answerWith hused hdone .EOK none (fun _ => hzero) (fun hread => ?_)
        exact absurd (hread.symm.trans hwriting) Bool.false_ne_true
      · exact hmoved _ _ rfl rfl (by rw [hpc]; rfl) (.inr (.inr ⟨rfl, hzero⟩)) hused
  · obtain rfl := Option.some.inj hgo
    exact h.answerWith hused hdone .EOK _ (fun _ => hstatus) (fun _ _ => rfl)

lemma BlkInv.go (h : BlkInv s) (hdrained : BlkOp.Drained s .go) (hgo : s.go = some s') : BlkInv s' := by
  cases h.progress with
  | rest hpc hrest hused =>
    unfold Blk.go at hgo
    rcases hpc with hpc | hpc | hpc | hpc
    · rw [hpc] at hgo
      cases hgo
    · rw [hpc] at hgo
      obtain rfl := Option.some.inj hgo
      exact h.fill hpc hrest hused
    · rw [hpc] at hgo
      obtain rfl := Option.some.inj hgo
      exact h.fillDescs hpc hrest hused
    · have hquiet := hdrained hpc
      rw [hpc] at hgo
      obtain rfl := Option.some.inj hgo
      exact h.arm hpc hrest hused hquiet
  | armed hpc hrest hsilent hused =>
    unfold Blk.go at hgo
    rcases hpc with hpc | ⟨hpc, hring⟩ <;> rw [hpc] at hgo <;> obtain rfl := Option.some.inj hgo
    · refine h.inside (by rw [hpc]; rfl) rfl rfl h.ack h.once (fun hp => hp.congr rfl rfl rfl (fun _ => rfl) rfl rfl) ?_
      refine .armed (.inr ⟨rfl, Function.update_self ..⟩) (hrest.congr rfl rfl rfl rfl rfl) ?_ hused
      exact ⟨hsilent.owed, hsilent.done⟩
    · refine h.inside (by rw [hpc]; rfl) rfl rfl h.ack h.once (fun hp => hp.congr rfl rfl rfl (fun _ => rfl) rfl rfl) ?_
      refine .pending (.inl ⟨rfl, hused⟩) ⟨hsilent.owed, hsilent.done⟩ (.inl ⟨hrest.flight, ?_, ?_, ?_⟩)
      · dsimp only
        rw [hrest.seen]
      · dsimp only
        rw [hrest.taken]
      · dsimp only
        rw [hrest.seen]
        exact hring
  | pending hpc hsilent hstage => exact h.go_pending hpc hsilent hstage hgo
  | completed hpc hdone => exact h.go_completed hpc hdone hgo

lemma Outstanding.not_filling (hpc : Outstanding s) : BlkPc.filling s.pc = false := by
  rcases hpc with ⟨hpc, -⟩ | ⟨hpc | hpc | hpc | hpc, -⟩ <;> rw [hpc] <;> rfl

lemma BlkInv.offered (h : BlkInv s) (hne : s.availSeen ≠ s.queue.availIndex) :
    Outstanding s ∧ Silent s ∧ Offered s := by
  cases h.progress with
  | rest _ hrest => exact absurd hrest.seen hne
  | armed _ hrest => exact absurd hrest.seen hne
  | pending hpc hsilent hstage =>
    rcases hstage with ho | ⟨r, hr⟩
    · exact ⟨hpc, hsilent, ho⟩
    · exact absurd hr.seen hne
  | completed _ hdone => exact absurd hdone.rest.seen hne

lemma BlkInv.current (h : BlkInv s) (hr : r ∈ s.flight) :
    Outstanding s ∧ Silent s ∧ Current s r := by
  have hne : s.flight ≠ [] := List.ne_nil_of_mem hr
  cases h.progress with
  | rest _ hrest => exact absurd hrest.flight hne
  | armed _ hrest => exact absurd hrest.flight hne
  | pending hpc hsilent hstage =>
    rcases hstage with ho | ⟨u, hu⟩
    · exact absurd ho.flight hne
    · rw [hu.flight] at hr
      obtain rfl := List.mem_singleton.mp hr
      exact ⟨hpc, hsilent, hu⟩
  | completed _ hdone => exact absurd hdone.rest.flight hne

lemma BlkInv.accepts (h : BlkInv s) (hne : s.availSeen ≠ s.queue.availIndex) : s.accepts = true := by
  obtain ⟨hpc, -, ho⟩ := h.offered hne
  have hp := h.prepared hpc.not_filling
  simp only [Blk.accepts, ho.ring, hp.buffers, hp.type, beq_iff_eq]
  cases s.call.writing <;> rfl

lemma BlkInv.take (h : BlkInv s) (htake : s.take = some s') : BlkInv s' := by
  unfold Blk.take at htake
  split at htake
  · rename_i hcond
    obtain rfl := Option.some.inj htake
    obtain ⟨hpc, hsilent, ho⟩ := h.offered hcond.1
    have hne := hpc.not_filling
    have hp := h.prepared hne
    refine h.inside hne hne rfl h.ack h.once (fun hp => hp.congr rfl rfl rfl (fun _ => rfl) rfl rfl) ?_
    refine .pending hpc ⟨hsilent.owed, hsilent.done⟩ (.inr ⟨⟨s.taken + 1, s.request.type == VIRTIO_BLOCK_TYPE_OUT,
      s.request.sector, .taken⟩, ?_⟩)
    refine ⟨by rw [ho.flight]; rfl, ho.seen.symm, ho.taken.symm, ho.taken.symm, ?_, hp.sector,
      fun hst => (nomatch hst), fun hst => (nomatch hst)⟩
    dsimp only
    rw [hp.type]
    cases s.call.writing <;> rfl
  · cases htake

lemma BlkInv.move (h : BlkInv s) (hmove : s.move r = some s') : BlkInv s' := by
  unfold Blk.move at hmove
  split at hmove
  · rename_i hcond
    obtain ⟨hpc, hsilent, hr⟩ := h.current hcond.1
    have hne := hpc.not_filling
    have hflight : { r with stage := .moved } :: s.flight.erase r = [{ r with stage := DeviceStage.moved }] := by
      rw [hr.flight]
      simp
    dsimp only at hmove
    split at hmove
    · rename_i hwriting
      obtain rfl := Option.some.inj hmove
      refine h.inside hne hne rfl h.ack h.once (fun hp => hp.congr rfl rfl rfl (fun _ => rfl) rfl rfl) ?_
      refine .pending hpc ⟨hsilent.owed, hsilent.done⟩
        (.inr ⟨_, hflight, hr.seen, hr.taken, hr.id, hr.writing, hr.sector, ?_,
        fun hst => (nomatch hst)⟩)
      intro _
      rw [hr.writing] at hwriting
      refine ⟨fun hread => absurd (hread.symm.trans hwriting) Bool.false_ne_true, fun buf hbuf => ?_⟩
      dsimp only
      rw [hr.sector, Function.update_self, (h.prepared hne).data buf hbuf]
    · rename_i hreading
      rw [hr.writing] at hreading
      obtain rfl := Option.some.inj hmove
      refine h.inside hne hne rfl h.ack h.once (fun hp => hp.congr rfl rfl rfl (absurd · hreading) rfl rfl) ?_
      refine .pending hpc ⟨hsilent.owed, hsilent.done⟩
        (.inr ⟨_, hflight, hr.seen, hr.taken, hr.id, hr.writing, hr.sector, ?_,
        fun hst => (nomatch hst)⟩)
      intro _
      refine ⟨fun _ => ?_, fun buf hbuf => absurd (BlkCall.writing_of_buf hbuf) hreading⟩
      dsimp only
      rw [hr.sector]
  · cases hmove

lemma BlkInv.respond {status : UInt8} (h : BlkInv s) (hrespond : s.respond r status = some s') : BlkInv s' := by
  unfold Blk.respond at hrespond
  split at hrespond
  · rename_i hcond
    obtain ⟨hmem, hstage⟩ := hcond
    obtain rfl := Option.some.inj hrespond
    obtain ⟨hpc, hsilent, hr⟩ := h.current hmem
    refine h.inside hpc.not_filling hpc.not_filling rfl h.ack h.once
      (fun hp => hp.congr rfl rfl rfl (fun _ => rfl) rfl rfl) ?_
    refine .pending hpc ⟨hsilent.owed, hsilent.done⟩ (.inr ⟨{ r with stage := .answered }, ?_, hr.seen, hr.taken, hr.id,
      hr.writing, hr.sector, fun hst => (nomatch hst), ?_⟩)
    · dsimp only
      rw [hr.flight]
      simp
    · intro _ hzero
      rcases hstage with hmoved | ⟨-, hne⟩
      · exact hr.moved hmoved
      · exact absurd hzero hne
  · cases hrespond

lemma BlkInv.complete (h : BlkInv s) (hcomplete : s.complete r = some s') : BlkInv s' := by
  unfold Blk.complete at hcomplete
  split at hcomplete
  · rename_i hcond
    obtain ⟨hmem, hstage⟩ := hcond
    obtain rfl := Option.some.inj hcomplete
    obtain ⟨hpc, hsilent, hr⟩ := h.current hmem
    refine h.inside hpc.not_filling hpc.not_filling rfl h.ack ?_
      (fun hp => hp.congr rfl rfl rfl (fun _ => rfl) rfl rfl) ?_
    · have howed := hsilent.owed
      simp only [Blk.owed, hsilent.done, Bool.toNat_false] at howed ⊢
      omega
    · refine .completed ?_ ⟨⟨?_, hr.seen, hr.taken⟩, ?_, hr.answered hstage⟩
      · rcases hpc with ⟨hpc, hused⟩ | ⟨hpc, hused⟩
        · exact .inl ⟨hpc, by rw [hused]⟩
        · exact .inr ⟨.inl hpc, hused⟩
      · dsimp only
        rw [hr.flight]
        simp
      · dsimp only
        rw [hr.id]
        exact List.mem_cons_self
  · cases hcomplete

lemma BlkInv.interrupted (h : BlkInv s) (howed : Blk.owed s ≠ 0) (unsent : Nat) (isr done : Bool) (handler : IrqPc)
    (pc : BlkPc) (hpc : pc = s.pc ∨ s.pc = .asleep ∧ pc = .wait) (hack : handler = .ack → isr = true)
    (honce : Blk.owed { s with unsent := unsent, isr := isr, handler := handler } + done.toNat ≤ 1) :
    BlkInv { s with unsent := unsent, isr := isr, handler := handler, done := done, pc := pc } := by
  have hback : ∀ q, q ≠ .wait → pc = q → s.pc = q := by
    rintro q hq rfl
    rcases hpc with rfl | ⟨-, rfl⟩
    · rfl
    · exact absurd rfl hq
  refine ⟨hack, honce, fun hf => h.data (hf.imp (hback _ (by decide)) (hback _ (by decide))), fun hf => ?_,
    fun hf => ?_, ?_, fun a ha => ?_⟩
  · obtain ⟨htype, hsector⟩ := h.header (hback _ (by decide) hf)
    exact ⟨htype, hsector⟩
  · have hin : BlkPc.filling s.pc = false := by
      rcases hpc with rfl | ⟨hpc, -⟩
      · exact hf
      · rw [hpc]
        rfl
    exact (h.prepared hin).congr rfl rfl rfl (fun _ => rfl) rfl rfl
  · cases h.progress with
    | rest hpc' hrest hused =>
      obtain rfl : pc = s.pc := hpc.resolve_right fun hsleep => by simp [hsleep.1] at hpc'
      exact .rest hpc' (hrest.congr rfl rfl rfl rfl rfl) hused
    | armed _ _ hsilent => exact absurd hsilent.owed howed
    | pending _ hsilent => exact absurd hsilent.owed howed
    | completed hpc' hdone =>
      refine .completed ?_ ⟨hdone.rest.congr rfl rfl rfl rfl rfl, hdone.mem, hdone.data⟩
      rcases hpc with rfl | ⟨hsleep, rfl⟩
      · exact hpc'
      · refine .inr ⟨.inl (.inr (.inl rfl)), ?_⟩
        simpa [hsleep, BlkPc.Waiting] using hpc'
  · obtain ⟨hidle, hmem, hcopied, hstored⟩ := h.answer a ha
    refine ⟨?_, hmem, hcopied, hstored⟩
    rcases hpc with rfl | ⟨hsleep, -⟩
    · exact hidle
    · rw [hsleep] at hidle
      cases hidle

lemma BlkInv.raise (h : BlkInv s) (hraise : s.raise = some s') : BlkInv s' := by
  unfold Blk.raise at hraise
  split at hraise
  · rename_i hpos
    obtain rfl := Option.some.inj hraise
    have honce := h.once
    simp only [Blk.owed] at honce
    refine h.interrupted ?_ _ _ s.done s.handler s.pc (.inl rfl) (fun _ => rfl) ?_
    · simp only [Blk.owed]
      omega
    · simp only [Blk.owed, Bool.toNat_true]
      omega
  · cases hraise

lemma BlkInv.not_done (h : BlkInv s) (hhandler : s.handler = .assert ∨ s.handler = .signal) : s.done = false := by
  have honce := h.once
  rw [Blk.owed, decide_eq_true hhandler] at honce
  cases hdone : s.done with
  | false => rfl
  | true =>
    rw [hdone] at honce
    simp at honce

lemma BlkInv.irq (h : BlkInv s) : ∃ s', s.irq = .ok s' ∧ BlkInv s' := by
  have honce := h.once
  unfold Blk.irq
  cases hhandler : s.handler with
  | idle =>
    refine ⟨_, rfl, ?_⟩
    split
    · rename_i hisr
      rw [Blk.owed, hhandler] at honce
      refine h.interrupted ?_ s.unsent s.isr s.done .ack s.pc (.inl rfl) (fun _ => hisr) honce
      simp [Blk.owed, hisr]
    · exact h
  | ack =>
    refine ⟨_, rfl, ?_⟩
    have hisr := h.ack hhandler
    simp only [Blk.owed, hhandler, hisr] at honce
    refine h.interrupted ?_ s.unsent false s.done .assert s.pc (.inl rfl) (fun hack => (nomatch hack)) ?_
    · simp [Blk.owed, hisr]
    · simpa [Blk.owed] using honce
  | assert =>
    have hdone := h.not_done (.inl hhandler)
    simp only [Blk.owed, hhandler] at honce
    refine ⟨{ s with handler := .signal }, ?_, ?_⟩
    · dsimp only
      rw [assertThat_true hdone]
      rfl
    · refine h.interrupted ?_ s.unsent s.isr s.done .signal s.pc (.inl rfl) (fun hack => (nomatch hack)) ?_
      · simp [Blk.owed, hhandler]
      · simpa [Blk.owed] using honce
  | signal =>
    refine ⟨_, rfl, ?_⟩
    simp only [Blk.owed, hhandler] at honce
    refine h.interrupted ?_ s.unsent s.isr true .idle _ ?_ (fun hack => (nomatch hack)) ?_
    · simp [Blk.owed, hhandler]
    · by_cases hpc : s.pc = .asleep
      · exact .inr ⟨hpc, if_pos hpc⟩
      · exact .inl (if_neg hpc)
    · change s.unsent + s.isr.toNat + 1 + s.done.toNat ≤ 1 at honce
      change s.unsent + s.isr.toNat + 0 + 1 ≤ 1
      omega

lemma BlkInv.op (h : BlkInv s) {op : BlkOp} (hdrained : BlkOp.Drained s op) (hrun : op.run s = some (.ok s')) :
    BlkInv s' := by
  have hmap : ∀ {x : Option Blk}, x.map Except.ok = some (Except.ok (ε := Halt) s') → x = some s' := by
    intro x hx
    obtain ⟨y, hy, heq⟩ := Option.map_eq_some_iff.mp hx
    rw [hy, Except.ok.inj heq]
  cases op with
  | call c =>
    simp only [BlkOp.run] at hrun
    split at hrun
    · rename_i hpc
      obtain rfl := Except.ok.inj (Option.some.inj hrun)
      exact h.begin hpc c
    · cases hrun
  | go => exact h.go hdrained (hmap hrun)
  | take => exact h.take (hmap hrun)
  | move r => exact h.move (hmap hrun)
  | respond r status => exact h.respond (hmap hrun)
  | complete r => exact h.complete (hmap hrun)
  | raise => exact h.raise (hmap hrun)
  | irq =>
    obtain ⟨s₁, hirq, hinv⟩ := h.irq
    obtain rfl := Except.ok.inj (hirq.symm.trans (Option.some.inj hrun))
    exact hinv

/-- A step of the driver, of the device or of the handler that meets `cond`. -/
def BlkStep (cond : Blk → BlkOp → Prop) (s s' : Blk) : Prop := ∃ op, cond s op ∧ BlkOp.run s op = some (.ok s')

/-- Before the first call the indices of the queue and of the device agree, and no interrupt is to come. -/
structure BlkStart (s : Blk) : Prop where
  pc : s.pc = .idle
  answer : s.answer = none
  used : s.queue.lastUsedIndex = s.queue.usedIndex
  rest : AtRest s
  drained : s.unsent = 0 ∧ s.isr = false ∧ s.handler = .idle
  done : s.done = false

lemma BlkStart.inv (h : BlkStart s) : BlkInv s := by
  obtain ⟨hunsent, hisr, hhandler⟩ := h.drained
  refine ⟨fun hack => ?_, ?_, fun hf => ?_, fun hf => ?_, fun hf => ?_, .rest (.inl h.pc) h.rest h.used, fun a ha => ?_⟩
  · rw [hhandler] at hack
    cases hack
  · simp [Blk.owed, hunsent, hisr, hhandler, h.done]
  · simp [h.pc] at hf
  · simp [h.pc] at hf
  · simp [h.pc, BlkPc.filling] at hf
  · rw [h.answer] at ha
    cases ha

/-- The protocol is kept: an answer is that of a completed request, a successful read has copied its
sector, a successful write has stored its buffer, the device accepts what is published, and no assertion fails. -/
structure BlkSafe (s : Blk) : Prop where
  completed : ∀ a, s.answer = some a → a.id ∈ s.completed
  copied : ∀ a, s.answer = some a → a.call.writing = false → a.errno = .EOK →
    a.copied = some (s.disk a.call.sector)
  stored : ∀ a, s.answer = some a → ∀ buf, a.call.buf = some buf → a.errno = .EOK → s.disk a.call.sector = buf
  accepted : s.availSeen ≠ s.queue.availIndex → s.accepts = true
  asserts : ∀ op, BlkOp.run s op ≠ some (.error .panic)

lemma BlkInv.safe (h : BlkInv s) : BlkSafe s := by
  refine ⟨fun a ha => (h.answer a ha).completed, fun a ha => (h.answer a ha).copied,
    fun a ha => (h.answer a ha).stored, h.accepts, fun op hop => ?_⟩
  have hmap : ∀ {x : Option Blk}, x.map Except.ok ≠ some (Except.error (α := Blk) Halt.panic) := by
    intro x hx
    obtain ⟨y, -, hy⟩ := Option.map_eq_some_iff.mp hx
    cases hy
  cases op with
  | call c =>
    simp only [BlkOp.run] at hop
    split at hop <;> cases hop
  | go | take | move | respond | complete | raise => exact hmap hop
  | irq =>
    obtain ⟨s', hirq, -⟩ := h.irq
    cases hirq.symm.trans (Option.some.inj hop)

/-- **A call returns after its own request** in a run in which every interrupt is handled before the
next request is submitted. -/
theorem drained_calls_return_after_request {s₀ : Blk} (hstart : BlkStart s₀)
    (hrun : Relation.ReflTransGen (BlkStep BlkOp.Drained) s₀ s) : BlkSafe s := by
  have hinv : BlkInv s := by
    induction hrun with
    | refl => exact hstart.inv
    | tail _ hstep ih =>
      obtain ⟨op, hdrained, hop⟩ := hstep
      exact ih.op hdrained hop
  exact hinv.safe

/-- The driver after `virtio_blk_probe` on a zeroed queue, with a disk whose sectors all differ. -/
def blkBoot : Blk where
  pc := .idle
  call := .read 0
  answer := none
  published := 0
  requestAddr := 0x9000
  queue := ⟨fun _ => ⟨0, 0, 0, 0⟩, 0, fun _ => 0, 0, 0⟩
  request := ⟨0, 0, fun _ => 0, 0⟩
  done := false
  handler := .idle
  isr := false
  unsent := 0
  availSeen := 0
  taken := 0
  flight := []
  completed := []
  disk := fun n _ => UInt8.ofNat n

lemma blkBoot_start : BlkStart blkBoot := ⟨rfl, rfl, rfl, ⟨rfl, rfl, rfl⟩, ⟨rfl, rfl, rfl⟩, rfl⟩

/-- A call up to its wait for the request. -/
def blkSubmit (call : BlkCall) : List BlkOp := [.call call, .go, .go, .go, .go, .go, .go]

/-- The device reads the sector `n` for the request `id`. -/
def deviceReads (id n : Nat) : List BlkOp :=
  [.take, .move ⟨id, false, n, .taken⟩, .respond ⟨id, false, n, .moved⟩ 0, .complete ⟨id, false, n, .answered⟩]

/-- The interrupt of a completed request arrives and is handled. -/
def irqHandled : List BlkOp := [.raise, .irq, .irq, .irq, .irq]

/-- The interrupt of a polled request arrives after the next request has been submitted. -/
def lateInterrupt : List BlkOp :=
  blkSubmit (.readSync 5) ++ deviceReads 1 5 ++ [.go, .go, .go] ++ blkSubmit (.read 6) ++ irqHandled

/-- A late interrupt makes the next call return before its request is completed, with the data of the
request before it; and the interrupt of that request then fails the assertion of `completion_signal`. -/
theorem late_interrupt_completes_next_request : BlkStart blkBoot ∧
    (∃ s a, Relation.ReflTransGen (BlkStep fun _ _ => True) blkBoot s ∧ s.answer = some a ∧ a.call = .read 6 ∧
      a.errno = .EOK ∧ a.id ∉ s.completed ∧ a.copied = some (s.disk 5) ∧ s.disk 5 ≠ s.disk 6) ∧
    ∃ s, Relation.ReflTransGen (BlkStep fun _ _ => True) blkBoot s ∧ BlkOp.run s .irq = some (.error .panic) := by
  have hsteps : ∀ {ops s}, checkSteps BlkOp.run (fun _ _ => true) blkBoot ops = true →
      runSteps BlkOp.run blkBoot ops = some s → Relation.ReflTransGen (BlkStep fun _ _ => True) blkBoot s :=
    fun hall hs => runSteps_rel (fun _ hop => ⟨_, trivial, hop⟩) hall hs
  refine ⟨blkBoot_start, ?_, ?_⟩
  · refine ⟨afterSteps BlkOp.run blkBoot (lateInterrupt ++ [.go, .go, .go]), ⟨.read 6, 2, .EOK, some (blkBoot.disk 5)⟩,
      hsteps (by decide +kernel) (runSteps_afterSteps (by decide +kernel)),
      by rfl, rfl, rfl, by decide +kernel, by rfl, ?_⟩
    intro heq
    exact absurd (congrFun heq 0) (by decide +kernel)
  · exact ⟨afterSteps BlkOp.run blkBoot (lateInterrupt ++ deviceReads 2 6 ++ [.raise, .irq, .irq]),
      hsteps (by decide +kernel) (runSteps_afterSteps (by decide +kernel)), by rfl⟩

/-- The completion is armed only when no interrupt is to come. -/
def armsDrained (s : Blk) : BlkOp → Bool
  | .go => s.pc != .reset || (s.unsent == 0 && !s.isr && s.handler == .idle)
  | _ => true

lemma drained_of_armsDrained {op : BlkOp} (h : armsDrained s op = true) : BlkOp.Drained s op := by
  cases op with
  | go =>
    intro hpc
    simpa [armsDrained, hpc, and_assoc] using h
  | _ => trivial

/-- A polled and a blocking read, each with its interrupt. -/
def promptInterrupts : List BlkOp :=
  blkSubmit (.readSync 5) ++ deviceReads 1 5 ++ [.go, .go, .go] ++ irqHandled ++
    blkSubmit (.read 6) ++ [.go, .go] ++ deviceReads 2 6 ++ irqHandled ++ [.go, .go, .go]

theorem drained_calls_return_after_request_twice : BlkStart blkBoot ∧
    ∃ s, Relation.ReflTransGen (BlkStep BlkOp.Drained) blkBoot s ∧
      s.answer = some ⟨.read 6, 2, .EOK, some (blkBoot.disk 6)⟩ ∧ BlkSafe s := by
  have hrun : Relation.ReflTransGen (BlkStep BlkOp.Drained) blkBoot (afterSteps BlkOp.run blkBoot promptInterrupts) :=
    runSteps_rel (fun hop hrun => ⟨_, drained_of_armsDrained hop, hrun⟩) (by decide +kernel)
      (runSteps_afterSteps (by decide +kernel))
  exact ⟨blkBoot_start, _, hrun, by rfl, drained_calls_return_after_request blkBoot_start hrun⟩

end KaworuOS.Proofs
