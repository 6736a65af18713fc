import KaworuOS.SysIo
import KaworuOS.Proofs.ConsoleRoom
import KaworuOS.Proofs.DebugLog
import KaworuOS.Proofs.FdTableRun
import KaworuOS.Proofs.KheapTotal
import KaworuOS.Proofs.UaccessString

/-!
# The parts of a system call that writes

A system call that writes takes a buffer of the heap, a copy of the user's bytes, a reference to the file and room in the
console, and prints to the log. Each of these keeps the heap and the console in order and changes only its own part of the
memory.
-/

namespace KaworuOS.Proofs
open Lib

variable {s s' : Io} {mm : Mm} {mem mem' : Mem} {st : HeapState} {free : List Block} {vm : HeapVm} {a : Live}
  {table p n dst : Nat}

/-- The memory after the bytes of the user from `src` on have been copied to `dst`. -/
def userBlit (table : Nat) (mm : Mm) (dst src n : Nat) : Mem := fun x =>
  if dst ≤ x ∧ x < dst + n then (userByte table mm (src + (x - dst))).getD 0 else mm.mem x

/-- The pages of the user do not overlap the range. -/
def PagesApart (table : Nat) (mm : Mm) (dst n : Nat) : Prop :=
  ∀ va pa, translate table va mm = some pa → ¬(dst ≤ wadd pa mm.hhdm ∧ wadd pa mm.hhdm < dst + n)

lemma memcpyFromUser_eq {src : Nat} (hsrc : src + n < 2 ^ 64) (hdst : dst + n < 2 ^ 64)
    (hmmu : ∀ x, src ≤ x → x < src + n → translate table x mm ≠ none) (hapart : PagesApart table mm dst n)
    (k : Nat) (hk : k ≤ n) :
    memcpyFromUser (fun va => translate table va mm) (dst + k) (src + k) (n - k)
      { mm with mem := userBlit table mm dst src k } = (.ok (), { mm with mem := userBlit table mm dst src n }) := by
  induction hm : n - k generalizing k with
  | zero =>
    obtain rfl : k = n := by omega
    rfl
  | succ m ih =>
    obtain ⟨pa, hpa⟩ := Option.ne_none_iff_exists'.mp (hmmu (src + k) (by omega) (by omega))
    have hbyte : userBlit table mm dst src k (wadd pa mm.hhdm) = mm.mem (wadd pa mm.hhdm) := by
      have h1 := hapart _ _ hpa
      exact if_neg (by omega)
    have hnext : (userBlit table mm dst src k).set (dst + k) (mm.mem (wadd pa mm.hhdm)) =
        userBlit table mm dst src (k + 1) := by
      funext x
      by_cases hx : x = dst + k
      · subst hx
        rw [Mem.set_same, userBlit, if_pos (by omega), Nat.add_sub_cancel_left, userByte, hpa]
        rfl
      · rw [Mem.set_other _ _ hx]
        unfold userBlit
        by_cases hin : dst ≤ x ∧ x < dst + k
        · rw [if_pos hin, if_pos (by omega)]
        · rw [if_neg hin, if_neg (by omega)]
    have hrest := ih (k + 1) (by omega) (by omega)
    rw [memcpyFromUser, hpa]
    dsimp only
    rw [Call.update_bind, wadd_of_lt (by omega), wadd_of_lt (by omega)]
    dsimp only
    rw [hbyte, hnext]
    exact hrest

/-- Under the condition of the copies, the range check returns, and what passes it can be read. -/
lemma UserCopySafe.checked (h : UserCopySafe false true mm table p n) : ∃ ok,
    userRangeValid table p n false true mm = (.ok ok, mm) ∧ (ok = true → UserRangeOk false true mm table p n) := by
  by_cases hin : isWithinUserVmRange p n = true
  · obtain ⟨pde, hrun, herr, hcases⟩ := h.resolve_left (by rw [hin]; decide)
    have hvalid : userRangeValid table p n false true mm = _ := userRangeValid_eq false true hin mm
    rw [lastPageVerdict, hrun] at hvalid
    dsimp only at hvalid
    rw [herr, if_neg Bool.false_ne_true] at hvalid
    refine ⟨_, hvalid, ?_⟩
    intro hpass
    rw [Bool.and_eq_true, decide_eq_true_iff] at hpass
    rcases hcases with hout | hperm | hok
    · exact absurd hout hpass.1
    · rw [hpass.2] at hperm
      cases hperm
    · exact hok
  · refine ⟨false, ?_, fun hno => by cases hno⟩
    rw [userRangeValid, if_neg hin]
    rfl

lemma copyFromUser_false (hn : 0 < n) (h : userRangeValid table p n false true mm = (.ok false, mm)) :
    copyFromUser table dst p n mm = (.ok (Errno.code .EFAULT), mm) := by
  rw [copyFromUser, if_neg (by omega), Call.bind_ok h]
  rfl

lemma copyFromUser_true (hn : 0 < n) (h : userRangeValid table p n false true mm = (.ok true, mm))
    (hend : p + n < 2 ^ 64)
    (hmmu : ∀ x, p ≤ x → x < p + n → translate table x mm ≠ none) (hdst : dst + n < 2 ^ 64)
    (hapart : PagesApart table mm dst n) :
    copyFromUser table dst p n mm = (.ok (Errno.code .EOK), { mm with mem := userBlit table mm dst p n }) := by
  have hcopy := memcpyFromUser_eq hend hdst hmmu hapart 0 (Nat.zero_le n)
  have hnone : ({ mm with mem := userBlit table mm dst p 0 } : Mm) = mm := by
    have hmem : userBlit table mm dst p 0 = mm.mem := funext fun x => if_neg (by omega)
    rw [hmem]
  rw [hnone] at hcopy
  rw [copyFromUser, if_neg (by omega), Call.bind_ok h, if_pos rfl, Call.read_bind]
  exact Call.bind_ok hcopy

/-- The bytes of the user from `src` on. -/
def userBytes (table : Nat) (mm : Mm) (src n : Nat) : List UInt8 :=
  (List.range n).map fun i => (userByte table mm (src + i)).getD 0

lemma bytes_userBlit (table : Nat) (mm : Mm) (dst src n : Nat) :
    (userBlit table mm dst src n).bytes dst n = userBytes table mm src n := by
  unfold Mem.bytes userBytes
  apply List.map_congr_left
  intro i hi
  have hlt := List.mem_range.mp hi
  rw [userBlit, if_pos (by omega), Nat.add_sub_cancel_left]

/-- The heap, with the allocations `live` in its pools. -/
def heapState (s : Io) (live : List Live) (pools : List Block) : HeapState := ⟨s.mm.mem, s.freelist, live, pools⟩

/-- The heap and the console are in order, and the pools of the heap are not storage of the console. -/
structure IoInv (events messages : Nat) (s : Io) (live : List Live) (pools : List Block) (written : List Shown) :
    Prop where
  heap : ∃ free, KHeapInv (heapState s live pools) free
  console : ConsoleInv events messages s.view written
  shape : ConsoleShape events messages
  apart : ∀ q ∈ pools, ∀ x, q.Has x → ¬ConsoleBytes events messages x

/-- Memory that is neither the heap's nor the console's, such as `user`, or that is the console's. -/
def Foreign (events messages : Nat) (user : Nat → Prop) (x : Nat) : Prop := user x ∨ ConsoleBytes events messages x

variable {events messages count ptr : Nat} {live : List Live} {pools : List Block} {written : List Shown}
  {user : Nat → Prop} {log : Logger}

/-- The memory of the user and the buffers of the log lie apart from each other and from the storage of the console. -/
structure Layout (events messages : Nat) (user : Nat → Prop) (log : Logger) : Prop where
  ready : LogReady events messages log
  console : ∀ x, user x → ¬ConsoleBytes events messages x
  user : ∀ x, user x → ¬LogBytes log x

/-- The pools of the heap hold no memory of the user and no buffer of the log. -/
def HeapApart (user : Nat → Prop) (log : Logger) (pools : List Block) : Prop :=
  ∀ q ∈ pools, ∀ x, q.Has x → ¬user x ∧ ¬LogBytes log x

/-- What is below the heap provides new pages for a request and leaves all foreign memory alone. -/
structure NewPages (events messages : Nat) (user : Nat → Prop) (log : Logger) (vm : HeapVm) (s : Io) (live : List Live)
    (pools : List Block) (count : Nat) : Prop where
  provides : Provides vm (heapState s live pools) count
  keeps : ∀ x, Foreign events messages user x → (vm.vmAllocMem (roundUp count) s.mm.mem).2 x = s.mm.mem x
  fresh : ∀ x, (newPool vm s.heap count).Has x → ¬Foreign events messages user x ∧ ¬LogBytes log x

/-- The two memories differ in bytes of the heap and of the console. -/
structure SameForeign (user : Nat → Prop) (live : List Live) (m m' : Mm) : Prop where
  user : ∀ x, user x → m'.mem x = m.mem x
  rest : m' = { m with mem := m'.mem }
  buffers : live.map (Live.buffer m'.mem) = live.map (Live.buffer m.mem)

lemma SameForeign.refl (user : Nat → Prop) (live : List Live) (m : Mm) : SameForeign user live m m :=
  ⟨fun _ _ => rfl, rfl, rfl⟩

lemma SameForeign.mono {live₀ : List Live} {m m' : Mm} (h : SameForeign user live₀ m m') (hsub : live ⊆ live₀) :
    SameForeign user live m m' :=
  ⟨h.user, h.rest, List.map_congr_left fun b hb => List.map_inj_left.mp h.buffers b (hsub hb)⟩

lemma SameForeign.trans {m m' m'' : Mm} (h : SameForeign user live m m') (h' : SameForeign user live m' m'') :
    SameForeign user live m m'' := by
  refine ⟨fun x hx => (h'.user x hx).trans (h.user x hx), ?_, h'.buffers.trans h.buffers⟩
  rw [h'.rest, h.rest]

section Calls

variable (h : IoInv events messages s live pools written)
include h

/-- The console does not see what happens to other memory. -/
lemma IoInv.view_setMem (hmem : ∀ x, ConsoleBytes events messages x → mem' x = s.mm.mem x) :
    ConsoleInv events messages { s.view with mem := mem' } written :=
  h.console.setMem fun x h1 h2 => hmem x (.inr ⟨h1, h2⟩)

/-- `kalloc` returns, and touches no foreign memory. -/
lemma IoInv.kalloc (hhead : s.freelist.head ≠ 0) (hcount : 1 ≤ count) (hroom : count + 4096 < 2 ^ 64)
    (huser : HeapApart user log pools)
    (hpages : grows s.heap count = true → NewPages events messages user log vm s live pools count) :
    ∃ r heap', s.heap.kalloc vm count = .ok (r, heap') ∧
      (∀ e, r = .error e → heap'.freelist.head ≠ 0) ∧
      SameForeign user live s.mm (s.setHeap heap').mm ∧
      IoInv events messages (s.setHeap heap') ((heapState s live pools).served vm count r heap').live
        ((heapState s live pools).served vm count r heap').pools written ∧
      HeapApart user log ((heapState s live pools).served vm count r heap').pools := by
  obtain ⟨free, hheap⟩ := h.heap
  have hvm : grows (heapState s live pools).heap count = true → Provides vm (heapState s live pools) count :=
    fun htrue => (hpages htrue).provides
  obtain ⟨r, heap', hcall⟩ := hheap.kalloc_returns hhead hcount hroom hvm
  have hcall' : s.heap.kalloc vm count = .ok (r, heap') := hcall
  have hapart : ∀ q ∈ ((heapState s live pools).served vm count r heap').pools, ∀ x, q.Has x →
      ¬Foreign events messages user x ∧ ¬LogBytes log x := by
    intro q hq x hx
    have hpools : q ∈ if grows s.heap count then newPool vm s.heap count :: pools else pools := hq
    split at hpools
    · rename_i htrue
      rcases List.mem_cons.mp hpools with rfl | hq
      · exact (hpages htrue).fresh x hx
      · exact ⟨fun hf => hf.elim (huser q hq x hx).1 (h.apart q hq x hx), (huser q hq x hx).2⟩
    · exact ⟨fun hf => hf.elim (huser q hpools x hx).1 (h.apart q hpools x hx), (huser q hpools x hx).2⟩
  have hsame : ∀ x, Foreign events messages user x → heap'.mem x = s.mm.mem x := by
    intro x hx
    refine (hheap.kalloc_outside hcount (by omega) hvm hcall fun q hq hqx => (hapart q hq x hqx).1 hx).trans ?_
    unfold HeapState.paged
    split
    · rename_i htrue
      exact (hpages htrue).keeps x hx
    · rfl
  refine ⟨r, heap', hcall', ?_, ⟨fun x hx => hsame x (.inl hx), rfl, ?_⟩, ⟨?_, ?_, h.shape, ?_⟩, ?_⟩
  · rintro e rfl
    exact hheap.kalloc_error_head hcount (by omega) hvm hcall
  · exact hheap.kalloc_buffers hcount (by omega) hvm hcall
  · obtain ⟨_, _, -, -, -, -, hk⟩ := hheap.kalloc hcount (by omega) hvm hcall
    exact hk.inv
  · exact h.view_setMem fun x hx => hsame x (.inr hx)
  · exact fun q hq x hx hc => (hapart q hq x hx).1 (.inr hc)
  · exact fun q hq x hx => ⟨fun hu => (hapart q hq x hx).1 (.inl hu), (hapart q hq x hx).2⟩

end Calls

section Console

variable {c' : Console} {ev ev' : IOEvent}

lemma io_withConsole {α : Type} {x : ConsoleCall α} {r : α} (h : x s.view = (.ok r, c')) :
    Io.withConsole x s = (.ok r, { s with console := c', mm := { s.mm with mem := c'.mem } }) := by
  unfold Io.withConsole
  rw [h]

lemma io_consoleWrite (h : consoleWriteLocked ev s.view = (.ok (.EOK, ev'), c')) :
    Io.withConsole (consoleWrite ev) s = (.ok .EOK, { s with console := c', mm := { s.mm with mem := c'.mem } }) := by
  apply io_withConsole
  rw [consoleWrite, Call.bind_ok h]
  rfl

lemma SameMessages.outside {mem mem' : Mem} (h : SameMessages messages mem mem') (x : Nat)
    (hx : ¬ConsoleBytes events messages x) : mem' x = mem x := by
  apply h
  unfold ConsoleBytes at hx
  omega

/-- The console has run, and has not written to the pools of the heap. -/
lemma IoInv.withConsole {shown : List Shown} (h : IoInv events messages s live pools written)
    (hc : ConsoleInv events messages c' shown) (hmem : ∀ q ∈ pools, ∀ x, q.Has x → c'.mem x = s.mm.mem x) :
    IoInv events messages { s with console := c', mm := { s.mm with mem := c'.mem } } live pools shown := by
  obtain ⟨free, hheap⟩ := h.heap
  refine ⟨⟨free, ?_, hheap.pages⟩, hc, h.shape, h.apart⟩
  exact hheap.heap.outside fun q hq x h1 h2 => hmem q hq x ⟨h1, h2⟩

end Console

/-- The payload of an allocation lies in the pools. -/
lemma IoInv.payload_pool (h : IoInv events messages s live pools written) {b : Live} (hb : b ∈ live) {x : Nat}
    (h1 : b.entry + 16 ≤ x) (h2 : x < b.entry + 16 + b.req) : ∃ q ∈ pools, q.Has x := by
  obtain ⟨free, hheap⟩ := h.heap
  have hroom := hheap.heap.room b hb
  have hblock : b.block ∈ free ++ (heapState s live pools).liveBlocks :=
    List.mem_append_right _ (List.mem_map_of_mem (show b ∈ (heapState s live pools).live from hb))
  exact hheap.heap.mem_pool hblock ⟨by simp only [Live.block]; omega, by simp only [Live.block]; omega⟩

/-- Where the pools are left alone, so are the buffers of the heap. -/
lemma IoInv.same_buffers (h : IoInv events messages s live pools written)
    (hmem : ∀ q ∈ pools, ∀ x, q.Has x → mem' x = s.mm.mem x) :
    live.map (Live.buffer mem') = live.map (Live.buffer s.mm.mem) := by
  apply List.map_congr_left
  intro b hb
  unfold Live.buffer
  rw [Mem.bytes_congr]
  intro x h1 h2
  obtain ⟨q, hq, hqx⟩ := h.payload_pool hb h1 h2
  exact hmem q hq x hqx

/-- What the console is given by lines of the log. -/
def linesShown (log : Logger) (lines : List LogLine) : List Shown := lines.flatMap (lineShown log)

/-- The state after lines of the log. -/
def logged (log : Logger) (lines : List LogLine) (s : Io) : Io := (Io.logs log lines s).2

/-- Lines are shown, and leave the files, the free list and all foreign memory alone. -/
structure LinesShow (events messages : Nat) (user : Nat → Prop) (log : Logger) (lines : List LogLine) (live : List Live)
    (pools : List Block) (written : List Shown) (s : Io) : Prop where
  run : Io.logs log lines s = (.ok (), logged log lines s)
  inv : IoInv events messages (logged log lines s) live pools (written ++ linesShown log lines)
  same : SameForeign user live s.mm (logged log lines s).mm
  files : (logged log lines s).files = s.files
  freelist : (logged log lines s).freelist = s.freelist

/-- Lines that fit are shown. -/
lemma IoInv.logs (h : IoInv events messages s live pools written) (hlayout : Layout events messages user log)
    (hpools : HeapApart user log pools) {lines : List LogLine} (hfits : ∀ line ∈ lines, LineFits log line) :
    LinesShow events messages user log lines live pools written s := by
  induction lines generalizing s written with
  | nil =>
    refine ⟨rfl, ?_, .refl .., rfl, rfl⟩
    rw [show linesShown log [] = [] from rfl, List.append_nil]
    exact h
  | cons line lines ih =>
    obtain ⟨c', hrun, hinv, hout⟩ := h.console.logLine h.shape hlayout.ready (hfits line List.mem_cons_self)
    have hpool : ∀ q ∈ pools, ∀ x, q.Has x → c'.mem x = s.mm.mem x :=
      fun q hq x hx => hout x (h.apart q hq x hx) (hpools q hq x hx).2
    have hfirst := h.withConsole hinv hpool
    have hsame : SameForeign user live s.mm { s.mm with mem := c'.mem } :=
      ⟨fun x hx => hout x (hlayout.console x hx) (hlayout.user x hx), rfl, h.same_buffers hpool⟩
    have hrest := ih hfirst fun l hl => hfits l (List.mem_cons_of_mem line hl)
    have heq : Io.logs log (line :: lines) s = Io.logs log lines
      { s with console := c', mm := { s.mm with mem := c'.mem } } :=
      Call.bind_ok (io_withConsole hrun)
    have hlogged : logged log (line :: lines) s = logged log lines
      { s with console := c', mm := { s.mm with mem := c'.mem } } :=
      congrArg Prod.snd heq
    refine ⟨?_, ?_, ?_, ?_, ?_⟩
    · rw [heq, hlogged]
      exact hrest.run
    · rw [hlogged, linesShown, List.flatMap_cons, ← List.append_assoc]
      exact hrest.inv
    · rw [hlogged]
      exact hsame.trans hrest.same
    · rw [hlogged]
      exact hrest.files
    · rw [hlogged]
      exact hrest.freelist

section Buffer

variable (h : IoInv events messages s (a :: live) pools written)
include h

/-- A buffer ends in the kernel's range. -/
lemma IoInv.payload_top (hreq : 1 ≤ a.req) : a.entry + 16 + a.req ≤ KERNEL_VM_RANGE_BASE + KERNEL_VM_RANGE_SIZE := by
  obtain ⟨q, hq, hqx⟩ := h.payload_pool List.mem_cons_self (x := a.entry + 15 + a.req) (by omega) (by omega)
  obtain ⟨free, hheap⟩ := h.heap
  have hlimit := (hheap.pages q hq).limit
  unfold Block.Has at hqx
  omega

/-- The buffers of the others are not part of this one. -/
lemma IoInv.others_apart {b : Live} (hb : b ∈ live) {x : Nat} (h1 : b.entry + 16 ≤ x) (h2 : x < b.entry + 16 + b.req) :
    ¬(a.entry + 16 ≤ x ∧ x < a.entry + 16 + a.req) := by
  obtain ⟨free, hheap⟩ := h.heap
  have hdisj := hheap.heap.live_disj (a := a) (b := b) List.mem_cons_self (by
    show b ∈ (a :: live).erase a
    rw [List.erase_cons_head]
    exact hb)
  have hrooma := hheap.heap.room a List.mem_cons_self
  have hroomb := hheap.heap.room b (List.mem_cons_of_mem _ hb)
  unfold Block.Disj at hdisj
  simp only [Live.block] at hdisj
  omega

/-- The owner of a buffer fills it. -/
lemma IoInv.fill (huser : HeapApart user log pools)
    (hmem : ∀ x, ¬(a.entry + 16 ≤ x ∧ x < a.entry + 16 + a.req) → mem' x = s.mm.mem x) :
    IoInv events messages { s with mm := { s.mm with mem := mem' } } (a :: live) pools written ∧
      SameForeign user live s.mm { s.mm with mem := mem' } := by
  have hout : ∀ x, (∀ q ∈ pools, ¬q.Has x) → mem' x = s.mm.mem x := by
    intro x hx
    apply hmem
    rintro ⟨h1, h2⟩
    obtain ⟨q, hq, hqx⟩ := h.payload_pool List.mem_cons_self h1 h2
    exact hx q hq hqx
  obtain ⟨free, hheap⟩ := h.heap
  refine ⟨⟨⟨free, hheap.heap.fill List.mem_cons_self hmem, hheap.pages⟩, ?_, h.shape, h.apart⟩, ?_, rfl, ?_⟩
  · exact h.view_setMem fun x hx => hout x fun q hq hqx => h.apart q hq x hqx hx
  · exact fun x hx => hout x fun q hq hqx => (huser q hq x hqx).1 hx
  · apply List.map_congr_left
    intro b hb
    unfold Live.buffer
    rw [Mem.bytes_congr]
    exact fun x h1 h2 => hmem x (h.others_apart hb h1 h2)

/-- `kfree` of the buffer. -/
lemma IoInv.kfree (huser : HeapApart user log pools) (hhead : s.freelist.head ≠ 0) :
    ∃ s', Io.kfree (a.entry + 16) s = (.ok (), s') ∧ IoInv events messages s' live pools written ∧
      s'.freelist.head ≠ 0 ∧ SameForeign user live s.mm s'.mm ∧ s'.files = s.files := by
  obtain ⟨free, hheap⟩ := h.heap
  obtain ⟨heap', hcall, hhead', free', hinv⟩ := hheap.kfree_returns hhead List.mem_cons_self
  have hcall' : s.heap.kfree (a.entry + 16) = .ok heap' := hcall
  have hout : ∀ x, (∀ q ∈ pools, ¬q.Has x) → heap'.mem x = s.mm.mem x :=
    fun x hx => hheap.kfree_outside List.mem_cons_self hcall hx
  have hlive : (heapState s (a :: live) pools).live.erase a = live := List.erase_cons_head ..
  rw [hlive] at hinv
  refine ⟨s.setHeap heap', ?_, ⟨⟨free', hinv⟩, ?_, h.shape, h.apart⟩, hhead', ⟨?_, rfl, ?_⟩, rfl⟩
  · unfold Io.kfree
    rw [hcall']
  · exact h.view_setMem fun x hx => hout x fun q hq hqx => h.apart q hq x hqx hx
  · exact fun x hx => hout x fun q hq hqx => (huser q hq x hqx).1 hx
  · unfold KHeap.kfree at hcall
    obtain ⟨-, -, hcall⟩ := bind_eq_ok.mp hcall
    obtain ⟨r, hr, hcall⟩ := bind_eq_ok.mp hcall
    cases hcall
    have hbuffers := hheap.heap.free_buffers List.mem_cons_self hr
    rw [hlive] at hbuffers
    exact hbuffers

omit h in
lemma kfree_head_zero {ptr : Nat} (hhead : s.freelist.head = 0) : Io.kfree ptr s = (.error .panic, s) := by
  unfold Io.kfree
  rw [kfree_panics (show s.heap.freelist.head = 0 from hhead)]

/-- The console takes what the buffer holds. -/
lemma IoInv.print (huser : ∀ x, user x → ¬ConsoleBytes events messages x) (hreq : 1 ≤ a.req)
    (hlen : a.req ≤ IO_EVENT_MSG_BUFFER_SIZE) :
    ∃ s', Io.withConsole (consoleWrite (ioEventDefault (a.entry + 16) a.req)) s = (.ok .EOK, s') ∧
      IoInv events messages s' (a :: live) pools (written ++ [(ioEventDefault (a.entry + 16) a.req).shown s.mm.mem]) ∧
      SameForeign user live s.mm s'.mm ∧ s'.files = s.files ∧ s'.freelist = s.freelist := by
  have hpool : ∀ x, a.entry + 16 ≤ x → x < a.entry + 16 + a.req → ¬ConsoleBytes events messages x := by
    intro x h1 h2 hx
    obtain ⟨q, hq, hqx⟩ := h.payload_pool List.mem_cons_self h1 h2
    exact h.apart q hq x hqx hx
  have htop : a.entry + 16 + a.req ≤ wordSize := (h.payload_top hreq).trans (by decide)
  have hev : MessageApart events messages (ioEventDefault (a.entry + 16) a.req) :=
    messageApart_of_span htop hreq hpool rfl (Nat.le_refl _)
  have hlen' : (ioEventDefault (a.entry + 16) a.req).len ≤ IO_EVENT_MSG_BUFFER_SIZE := hlen
  obtain ⟨ev', c', hrun, hinv, hsame⟩ := h.console.write h.shape hlen' hev
  have hcall : Io.withConsole (consoleWrite (ioEventDefault (a.entry + 16) a.req)) s = _ := io_consoleWrite hrun
  have hmem : ∀ x, ¬ConsoleBytes events messages x → c'.mem x = s.mm.mem x := hsame.outside
  have hpools : ∀ q ∈ pools, ∀ x, q.Has x → c'.mem x = s.mm.mem x := fun q hq x hx => hmem x (h.apart q hq x hx)
  have hsame' : SameForeign user (a :: live) s.mm { s.mm with mem := c'.mem } :=
    ⟨fun x hx => hmem x (huser x hx), rfl, h.same_buffers hpools⟩
  exact ⟨_, hcall, h.withConsole hinv hpools, hsame'.mono (List.subset_cons_self _ _), rfl, rfl⟩

/-- A message that is longer than the console's buffer fails an `ASSERT`. -/
lemma IoInv.print_panics (hlen : ¬a.req ≤ IO_EVENT_MSG_BUFFER_SIZE) :
    (Io.withConsole (consoleWrite (ioEventDefault (a.entry + 16) a.req)) s).1 = .error .panic := by
  have hroom : HasRoom s.view := h.console.buffered.hasRoom
  have hfit : ¬Fits s.view (ioEventDefault (a.entry + 16) a.req) := by
    unfold Fits
    split
    · exact hlen
    · rw [hroom.canFit_iff]
      have hlong : ¬a.req ≤ 500 := hlen
      have heq : (ioEventDefault (a.entry + 16) a.req).len = a.req := rfl
      omega
  unfold Io.withConsole
  dsimp only
  rw [consoleWrite, Call.bind_error (Call.eq_of_fst (hroom.write_panics hfit))]

end Buffer

section Files

variable {f : Files} {t fd x : Nat} {file file' : File}

@[simp] lemma setFile_file : (f.setFile x file).file x = file := Function.update_self ..

@[simp] lemma setFile_setFile : (f.setFile x file).setFile x file' = f.setFile x file' := by
  unfold Files.setFile
  simp only [Function.update_idem]

@[simp] lemma setFile_self : f.setFile x (f.file x) = f := by
  unfold Files.setFile
  rw [Function.update_eq_self]

@[simp] lemma setFile_table : (f.setFile x file).table = f.table := rfl

@[simp] lemma setFile_heap : (f.setFile x file).heap = f.heap := rfl

/-- The table can be read, and so can the files in it, whose references are counted. -/
structure FilesReady (f : Files) (t : Nat) : Prop where
  table : t ∈ f.heap.live
  file : ∀ fd, notOpen (f.table t) fd = false → (f.table t).files fd ∈ f.heap.live ∧
    0 < (f.file ((f.table t).files fd)).count ∧ (f.file ((f.table t).files fd)).count ≠ UINT_MAX

/-- The invariant of the tables of descriptors makes them ready, as long as no count is at its limit. -/
lemma FileInv.ready {tables : Finset Nat} {held created : List Nat} (h : FileInv f tables held created)
    (ht : t ∈ tables)
    (hmax : ∀ x, (f.file x).count ≠ UINT_MAX) : FilesReady f t := by
  refine ⟨h.tables_live t ht, fun fd hopen => ?_⟩
  obtain ⟨hlt, hslot⟩ := notOpen_eq_false hopen
  have hrefs : 0 < refs f tables held ((f.table t).files fd) := refs_pos_of_slot ht hlt hslot
  have hok := h.file _ hrefs
  refine ⟨hok.live, ?_, hmax _⟩
  rw [hok.count_eq]
  exact hrefs

lemma getFile_closed (h : FilesReady f t) (hopen : notOpen (f.table t) fd = true) :
    fdtableGetFile t fd f = (.ok (.error .EBADF), f) := by
  rw [fdtableGetFile, Call.bind_ok (deref_of_live Files.table h.table), if_pos hopen]
  rfl

lemma getFile_open (h : FilesReady f t) (hopen : notOpen (f.table t) fd = false) (hx : (f.table t).files fd = x) :
    fdtableGetFile t fd f = (.ok (.ok x), f.setFile x { f.file x with count := (f.file x).count + 1 }) := by
  obtain ⟨hlive, -, hmax⟩ := h.file fd hopen
  rw [hx] at hlive hmax
  have hget : refcountGet x f = (.ok (), f.setFile x { f.file x with count := (f.file x).count + 1 }) := by
    rw [refcountGet, Call.bind_ok (deref_of_live Files.file hlive), if_neg hmax]
    rfl
  have hrun : fileGet x f = (.ok x, f.setFile x { f.file x with count := (f.file x).count + 1 }) := Call.bind_ok hget
  rw [fdtableGetFile, Call.bind_ok (deref_of_live Files.table h.table), hopen, if_neg Bool.false_ne_true, hx,
    Call.bind_ok hrun]
  rfl

/-- The reference that is given back is not the last one. -/
lemma filePut_shared (hlive : x ∈ f.heap.live) (hcount : 2 ≤ (f.file x).count) :
    filePut x f = (.ok (.ok ((f.file x).count - 1)), f.setFile x { f.file x with count := (f.file x).count - 1 }) := by
  rw [filePut, refcountPut, Call.bind_ok (deref_of_live Files.file hlive), if_neg (by omega), Call.update_bind,
    if_neg (by omega)]
  rfl

end Files

end KaworuOS.Proofs
