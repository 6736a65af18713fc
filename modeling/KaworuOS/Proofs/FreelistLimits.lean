import KaworuOS.Proofs.FreelistRun

/-!
# The limits of the free list

Two ends of the range of `freelist_alloc`: sizes so large that adding the header wraps around,
and a list from which the last block has been taken.
-/

namespace KaworuOS.Proofs
open Lib

/-- First fit over unbounded integers: a request of `s` bytes fails, and changes nothing, exactly
when no block has room for it and for a header; otherwise the lowest such block is handed out. -/
structure FirstFit (mem : Mem) (fl : FreeList) (l : List Block) (s : Nat) : Prop where
  exhausted : freelistAlloc mem fl s = .ok (.error .ENOMEM, mem, fl) ↔ ∀ b ∈ l, b.size < s + 16
  served : ∀ b ∈ l, s + 16 ≤ b.size → (∀ c ∈ l, s + 16 ≤ c.size → b.addr ≤ c.addr) →
    ∃ mem' fl' l', freelistAlloc mem fl s = .ok (.ok (b.addr + 16), mem', fl') ∧
      s + 16 ≤ blockSize mem' b.addr ∧ FreeRep mem' fl'.head l' ∧
      (∀ c ∈ l, c.addr ≠ b.addr → c ∈ l') ∧
      ∀ x, cov l x = cov l' x + cov [⟨b.addr, blockSize mem' b.addr⟩] x

lemma FreeRep.lowest_eq {mem : Mem} {head n : Nat} {l₁ l₂ : List Block} {b c : Block}
    (h : FreeRep mem head (l₁ ++ c :: l₂)) (hlt : ∀ d ∈ l₁, d.size < n) (hc : n ≤ c.size)
    (hmem : b ∈ l₁ ++ c :: l₂) (hb : n ≤ b.size)
    (hlow : ∀ d ∈ l₁ ++ c :: l₂, n ≤ d.size → b.addr ≤ d.addr) : b = c := by
  rcases List.mem_append.mp hmem with hb₁ | hb₂
  · have h1 := hlt b hb₁
    omega
  · rcases List.mem_cons.mp hb₂ with rfl | hb₂
    · rfl
    · have h1 := hlow c (by simp) hc
      have h2 := (List.pairwise_cons.mp (List.pairwise_append.mp h.ordered).2.1).1 b hb₂
      have h3 := (h.good c (by simp)).header
      omega

lemma firstFit_of_lt {mem : Mem} {fl : FreeList} {l : List Block} {s : Nat}
    (h : FreeRep mem fl.head l) (hl : l ≠ []) (hs : 1 ≤ s) (hs' : s + 16 < 2 ^ 64) :
    FirstFit mem fl l s := by
  rcases freelistAlloc_spec h hl hs hs' with
    ⟨hfail, hall⟩ | ⟨l₁, c, l₂, mem', fl', l', d, rfl, hlt, hfit, hd, hok, ha⟩
  · refine ⟨⟨fun _ => hall, fun _ => hfail⟩, ?_⟩
    intro b hb hroom
    have h1 := hall b hb
    omega
  · constructor
    · constructor
      · intro hfail
        rw [hok] at hfail
        cases hfail
      · intro hall
        have h1 := hall c (by simp)
        omega
    · intro b hb hroom hlow
      obtain rfl := h.lowest_eq hlt hfit hb hroom hlow
      have hsize : blockSize mem' b.addr = d.size := hd ▸ ha.header
      refine ⟨mem', fl', l', hok, ?_, ha.rep, fun e he hne => ha.others e he (hd ▸ hne), ?_⟩
      · rw [hsize]
        exact ha.room
      · intro x
        rw [hsize, ← hd]
        exact ha.covers x

/-- When adding the header wraps, the request becomes smaller than a header and the first block
of the list serves it. -/
lemma freelistAlloc_wrap {mem : Mem} {fl : FreeList} {c : Block} {l : List Block} {s : Nat}
    (h : FreeRep mem fl.head (c :: l)) (hs : s < 2 ^ 64) (hs' : 2 ^ 64 ≤ s + 16) :
    ∃ mem' fl', freelistAlloc mem fl s = .ok (.ok (wadd c.addr entrySize), mem', fl') := by
  have hhead : fl.head = c.addr := h.head_eq
  have hc := h.good c (by simp)
  have hc0 := hc.positive
  have hc16 := hc.header
  have hactual : wadd s entrySize ≤ 15 := by
    unfold wadd entrySize wordSize
    omega
  have hfind : findFit mem (wadd s entrySize) wordSize 0 fl.head = .ok (0, c.addr) := by
    rcases findFit_head (wadd s entrySize) h with ⟨-, hall⟩ | ⟨l₁, d, l₂, hl, hlt, -, hfind⟩
    · have h1 := hall c (by simp)
      omega
    · cases l₁ with
      | nil =>
        obtain ⟨rfl, -⟩ := List.cons.inj hl
        exact hfind
      | cons e l₁ =>
        obtain ⟨rfl, -⟩ := List.cons.inj hl
        have h1 := hlt c (by simp)
        omega
  have hs0 : s ≠ 0 := by omega
  have hca : c.addr ≠ 0 := by omega
  rw [freelistAlloc, if_neg (by omega), if_neg hs0]
  simp only [hfind, if_neg hca]
  split
  · exact ⟨_, _, rfl⟩
  · exact ⟨_, _, rfl⟩

/-- `freelist_alloc` is first fit exactly for the sizes that leave room for the header. -/
theorem freelist_alloc_first_fit_iff {mem : Mem} {fl : FreeList} {l : List Block} {s : Nat}
    (h : FreeRep mem fl.head l) (hl : l ≠ []) (hs : 1 ≤ s) (hs' : s < 2 ^ 64) :
    FirstFit mem fl l s ↔ s + 16 < 2 ^ 64 := by
  constructor
  · intro hfit
    by_contra hwrap
    cases l with
    | nil => exact absurd rfl hl
    | cons c l =>
      obtain ⟨mem', fl', hok⟩ := freelistAlloc_wrap h hs' (by omega)
      have hall : ∀ b ∈ c :: l, b.size < s + 16 := by
        intro b hb
        have h1 := (h.good b hb).positive
        have h2 := (h.good b hb).bound
        omega
      have hfail := hfit.exhausted.mpr hall
      rw [hok] at hfail
      cases hfail
  · exact firstFit_of_lt h hl hs

lemma small_heap_rep : FreeRep (heapStart (fun _ => 0) 4096 64).mem
    (heapStart (fun _ => 0) 4096 64).fl.head [⟨4096, 64⟩] :=
  (heapStart_inv (by decide) (by decide) (by decide) (fun _ _ _ => rfl)).rep

/-- A fresh heap of 64 bytes serves eight bytes by first fit. -/
theorem freelist_alloc_first_fit_eight :
    FirstFit (heapStart (fun _ => 0) 4096 64).mem (heapStart (fun _ => 0) 4096 64).fl [⟨4096, 64⟩] 8 :=
  (freelist_alloc_first_fit_iff small_heap_rep (by simp) (by decide) (by decide)).mpr (by decide)

/-- The largest request of all is served from a heap of 64 bytes. -/
theorem freelist_alloc_serves_all_memory :
    (∃ mem' fl', freelistAlloc (heapStart (fun _ => 0) 4096 64).mem (heapStart (fun _ => 0) 4096 64).fl
      (2 ^ 64 - 1) = .ok (.ok 4112, mem', fl')) ∧
    ¬FirstFit (heapStart (fun _ => 0) 4096 64).mem (heapStart (fun _ => 0) 4096 64).fl [⟨4096, 64⟩]
      (2 ^ 64 - 1) := by
  obtain ⟨mem', fl', hok⟩ := @freelistAlloc_wrap _ _ _ _ (2 ^ 64 - 1) small_heap_rep (by decide) (by decide)
  refine ⟨⟨mem', fl', hok⟩, ?_⟩
  intro hfit
  have hfail := hfit.exhausted.mpr (by simp)
  rw [hok] at hfail
  cases hfail

/-- A call that a run may make next. -/
inductive HeapCall where
  | alloc (s : Nat)
  | free (a : Live)
  | addRegion (p : Block)

/-- Sizes do not wrap, only live allocations are freed and new pools are new memory. -/
def HeapCall.Allowed (st : HeapState) : HeapCall → Prop
  | .alloc s => 1 ≤ s ∧ s + 16 < 2 ^ 64
  | .free a => a ∈ st.live
  | .addRegion p => p.addr ≠ 0 ∧ 16 ≤ p.size ∧ p.addr + p.size ≤ 2 ^ 64 ∧ ∀ q ∈ st.pools, p.Disj q

/-- The call returns. On an empty list an allocation reports that there is no memory, and a block
that is given back becomes the only one. -/
def HeapCall.Survives (st : HeapState) : HeapCall → Prop
  | .alloc s => ∃ r, freelistAlloc st.mem st.fl s = .ok r ∧
      (st.fl.head = 0 → r = (.error .ENOMEM, st.mem, st.fl))
  | .free a => ∃ mem' fl', freelistFree st.mem st.fl (a.entry + 16) = .ok (mem', fl') ∧
      (st.fl.head = 0 → FreeRep mem' fl'.head [a.block])
  | .addRegion p => ∃ mem' fl', freelistAddRegion st.mem st.fl p.addr p.size = .ok (mem', fl') ∧
      (st.fl.head = 0 → FreeRep mem' fl'.head [p])

/-- The list has a block, or the call is the one that does not ask for it. -/
def HeapCall.Supplied (st : HeapState) : HeapCall → Prop
  | .alloc _ => st.fl.head ≠ 0
  | .free _ => st.fl.head ≠ 0
  | .addRegion _ => True

lemma HeapInv.addRegion_survives {st : HeapState} {free : List Block} (h : HeapInv st free) {p : Block}
    (hp : (HeapCall.addRegion p).Allowed st) : (HeapCall.addRegion p).Survives st := by
  obtain ⟨hp0, hsize, hend, hdisj⟩ := hp
  obtain ⟨mem', fl', free', hok, h'⟩ := h.addRegion hp0 hsize hend hdisj
  refine ⟨mem', fl', hok, ?_⟩
  intro hhead
  have hfree : free = [] := by
    by_contra hne
    exact h.head_ne_zero hne hhead
  have hcov : ∀ x, cov free' x = cov [p] x := by
    intro x
    have h1 := h.covers x
    have h2 := h'.covers x
    rw [hfree, cov_nil] at h1
    rw [show cov (p :: st.pools) x = cov [p] x + cov st.pools x from cov_cons_add p st.pools x] at h2
    have h3 : cov st.liveBlocks x + cov free' x = cov [p] x + cov st.pools x := by
      rw [← h2, Nat.add_comm]
      rfl
    omega
  have hsole : free' = [p] := eq_singleton_of_covers h'.gapped (by omega)
    (fun b hb => by have := (h'.rep.good b hb).header; omega) hcov
  exact hsole ▸ h'.rep

/-- In every state of every run, a call survives exactly when it does not trip over the `ASSERT` on
the head of the list, which an allocation and a free make and a new pool does not. -/
theorem freelist_call_survives_iff {mem : Mem} {pool size : Nat} (hpool : 0 < pool) (hsize : 16 ≤ size)
    (hend : pool + size ≤ 2 ^ 64) (hzero : ∀ x, pool ≤ x → x < pool + size → mem x = 0)
    {st : HeapState} (hrun : Relation.ReflTransGen HeapStep (heapStart mem pool size) st)
    {call : HeapCall} (hcall : call.Allowed st) : call.Survives st ↔ call.Supplied st := by
  obtain ⟨free, h⟩ := (heapStart_inv hpool hsize hend hzero).run hrun
  cases call with
  | alloc s =>
    constructor
    · rintro ⟨r, hr, -⟩
      exact head_of_alloc hr
    · intro hhead
      obtain ⟨r, hr⟩ := h.alloc_returns hhead hcall.1 hcall.2
      exact ⟨r, hr, fun h0 => absurd h0 hhead⟩
  | free a =>
    constructor
    · rintro ⟨mem', fl', hr, -⟩ h0
      rw [freelistFree, if_pos h0] at hr
      cases hr
    · intro hhead
      obtain ⟨mem', fl', _, hr, -⟩ := h.free hhead hcall
      exact ⟨mem', fl', hr, fun h0 => absurd h0 hhead⟩
  | addRegion p => exact ⟨fun _ => trivial, fun _ => h.addRegion_survives hcall⟩

lemma exists_exhausted : ∃ st a, HeapStep (heapStart (fun _ => 0) 4096 32) st ∧
    st.fl.head = 0 ∧ st.live = [a] ∧ st.pools = [⟨4096, 32⟩] := by
  have hstart : HeapInv (heapStart (fun _ => 0) 4096 32) [⟨4096, 32⟩] :=
    heapStart_inv (by decide) (by decide) (by decide) (fun _ _ _ => rfl)
  rcases @freelistAlloc_spec _ _ _ 16 hstart.rep (by simp) (by decide) (by decide) with
    ⟨-, hall⟩ | ⟨l₁, c, l₂, mem', fl', free', b, hl, -, -, hb, hok, ha⟩
  · have h1 := hall ⟨4096, 32⟩ (by simp)
    simp only at h1
    omega
  · have hc : c = ⟨4096, 32⟩ := by
      have hmem : c ∈ [(⟨4096, 32⟩ : Block)] := by rw [hl]; simp
      simpa using hmem
    have hnil : free' = [] := by
      rw [List.eq_nil_iff_forall_not_mem]
      intro d hd
      -- the block handed out covers the whole pool, and so what is left of it
      have hpos : 0 < cov free' d.addr := cov_pos hd ⟨le_refl _, by have := (ha.rep.good d hd).header; omega⟩
      have hcov := ha.covers d.addr
      obtain ⟨q, hq, hqx⟩ := exists_of_cov_pos (l := [⟨4096, 32⟩]) (x := d.addr) (by omega)
      have hone : cov [⟨4096, 32⟩] d.addr ≤ 1 := hstart.once d.addr
      have hroom := ha.room
      have hbx : 0 < cov [b] d.addr := by
        apply cov_pos (List.mem_singleton.mpr rfl)
        rw [List.mem_singleton.mp hq] at hqx
        rw [hc] at hb
        unfold Block.Has at hqx ⊢
        simp only at hqx hb
        omega
      omega
    exact ⟨_, _, .alloc (by decide) (by decide) hok, (hnil ▸ ha.rep).head_eq, rfl, rfl⟩

/-- A pool that is added to an exhausted heap becomes its only free block. -/
theorem freelist_call_survives_new_pool : ∃ st,
    Relation.ReflTransGen HeapStep (heapStart (fun _ => 0) 4096 32) st ∧ st.fl.head = 0 ∧
      (HeapCall.addRegion ⟨8192, 64⟩).Survives st := by
  obtain ⟨st, a, hstep, hhead, hlive, hpools⟩ := exists_exhausted
  have hallowed : (HeapCall.addRegion ⟨8192, 64⟩).Allowed st := by
    simp [HeapCall.Allowed, hpools, Block.Disj]
  refine ⟨st, .single hstep, hhead, ?_⟩
  exact (freelist_call_survives_iff (by decide) (by decide) (by decide) (fun _ _ _ => rfl)
    (.single hstep) hallowed).mpr trivial

/-- Once the last block is taken, the next allocation and the next free both hit the `ASSERT`. -/
theorem freelist_exhausted_panics : ∃ st a,
    Relation.ReflTransGen HeapStep (heapStart (fun _ => 0) 4096 32) st ∧ a ∈ st.live ∧
      freelistAlloc st.mem st.fl 1 = .error .panic ∧
      freelistFree st.mem st.fl (a.entry + 16) = .error .panic ∧
      ¬(HeapCall.alloc 1).Survives st ∧ ¬(HeapCall.free a).Survives st := by
  obtain ⟨st, a, hstep, hhead, hlive, -⟩ := exists_exhausted
  have halloc : freelistAlloc st.mem st.fl 1 = .error .panic := by rw [freelistAlloc, if_pos hhead]
  have hfree : freelistFree st.mem st.fl (a.entry + 16) = .error .panic := by
    rw [freelistFree, if_pos hhead]
  refine ⟨st, a, .single hstep, by simp [hlive], halloc, hfree, ?_, ?_⟩
  · rintro ⟨r, hr, -⟩
    rw [halloc] at hr
    cases hr
  · rintro ⟨mem', fl', hr, -⟩
    rw [hfree] at hr
    cases hr

end KaworuOS.Proofs
