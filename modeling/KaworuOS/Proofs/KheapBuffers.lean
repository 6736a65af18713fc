import KaworuOS.Lib.Buffers
import KaworuOS.Proofs.KheapGrow

/-!
# The kernel heap provides disjoint buffers

The live allocations of the heap, each with the bytes that its owner asked for, are the buffers of an allocator. What
`kalloc` and `kfree` write lies in headers of free blocks and of blocks that are being handed out, given back or added,
so that each step of the heap is one of the buffers, or none.
-/

namespace KaworuOS.Proofs
open Lib

variable {mem mem' : Mem} {st st' : HeapState} {free : List Block} {heap' : KHeap} {vm : HeapVm} {s : Nat} {a b : Live}

/-- What the owner of an allocation sees. -/
def Live.buffer (mem : Mem) (a : Live) : Buffer := ⟨a.entry + 16, mem.bytes (a.entry + 16) a.req⟩

/-- The buffers of the heap. -/
def HeapState.buffers (st : HeapState) : List Buffer := st.live.map (Live.buffer st.mem)

/-- The runs, with what their callers see of them: a failed `kalloc` and writes elsewhere are not among it. -/
inductive KHeapTrace (st₀ : HeapState) : List BufOp → HeapState → Prop
  | nil : KHeapTrace st₀ [] st₀
  | kalloc {ops : List BufOp} {st : HeapState} {vm : HeapVm} {s ptr : Nat} {heap' : KHeap} (h : KHeapTrace st₀ ops st)
      (hs : 1 ≤ s) (hroom : RoomForHeader s) (hvm : grows st.heap s = true → Provides vm st s)
      (hcall : st.heap.kalloc vm s = .ok (.ok ptr, heap')) :
      KHeapTrace st₀ (ops ++ [.alloc ⟨ptr, heap'.mem.bytes ptr s⟩]) (st.served vm s (.ok ptr) heap')
  | full {ops : List BufOp} {st : HeapState} {vm : HeapVm} {s : Nat} {e : Errno} {heap' : KHeap}
      (h : KHeapTrace st₀ ops st) (hs : 1 ≤ s) (hroom : RoomForHeader s)
      (hvm : grows st.heap s = true → Provides vm st s) (hcall : st.heap.kalloc vm s = .ok (.error e, heap')) :
      KHeapTrace st₀ ops (st.served vm s (.error e) heap')
  | kfree {ops : List BufOp} {st : HeapState} {a : Live} {heap' : KHeap} (h : KHeapTrace st₀ ops st) (ha : a ∈ st.live)
      (hcall : st.heap.kfree (a.entry + 16) = .ok heap') :
      KHeapTrace st₀ (ops ++ [.free (a.entry + 16)])
        { st with mem := heap'.mem, fl := heap'.freelist, live := st.live.erase a }
  | write {ops : List BufOp} {st : HeapState} {a : Live} {x : Nat} {v : UInt8} (h : KHeapTrace st₀ ops st)
      (ha : a ∈ st.live) (h1 : a.entry + 16 ≤ x) (h2 : x < a.entry + 16 + a.req) :
      KHeapTrace st₀ (ops ++ [.write x v]) { st with mem := st.mem.set x v }
  | other {ops : List BufOp} {st : HeapState} {mem' : Mem} (h : KHeapTrace st₀ ops st)
      (hmem : ∀ q ∈ st.pools, Mem.EqOn st.mem mem' q.addr q.size) : KHeapTrace st₀ ops { st with mem := mem' }

/-- The payload of a block lies behind its header. -/
lemma HeapInv.payload (h : HeapInv st free) (ha : a ∈ st.live) {x : Nat} (h1 : a.entry + 16 ≤ x)
    (h2 : x < a.entry + 16 + a.req) :
    a.entry ≤ x - 15 ∧ x - 15 + 16 ≤ a.entry + a.size ∧ x - 15 ≤ x ∧ x < x - 15 + 16 := by
  have hroom := h.room a ha
  omega

/-- Memory that is the same around each byte of the payloads gives the same buffers. -/
lemma buffers_congr (h : HeapInv st free) {live : List Live} (hlive : ∀ a ∈ live, a ∈ st.live)
    (hmem : ∀ a ∈ live, ∀ p, a.entry ≤ p → p + 16 ≤ a.entry + a.size → SameHeader st.mem mem' p) :
    live.map (Live.buffer mem') = live.map (Live.buffer st.mem) := by
  apply List.map_congr_left
  intro a ha
  unfold Live.buffer
  rw [Mem.bytes_congr]
  intro x h1 h2
  obtain ⟨h3, h4, h5, h6⟩ := h.payload (hlive a ha) h1 h2
  exact hmem a ha (x - 15) h3 h4 x h5 h6

/-- Two allocations do not overlap. -/
lemma HeapInv.live_disj (h : HeapInv st free) (ha : a ∈ st.live) (hb : b ∈ st.live.erase a) : a.block.Disj b.block := by
  have hperm : st.liveBlocks.Perm (a.block :: (st.live.erase a).map Live.block) :=
    (List.perm_cons_erase ha).map Live.block
  have hpair := h.pairwise.sublist (List.sublist_append_right free st.liveBlocks)
  have hpair' := (hperm.pairwise_iff (fun hbc => Block.Disj.symm hbc)).mp hpair
  exact (List.pairwise_cons.mp hpair').1 b.block (List.mem_map_of_mem hb)

/-- None of the blocks has a byte of the sixteen from `p` on. -/
def Clear (l : List Block) (p : Nat) : Prop := ∀ x, p ≤ x → x < p + 16 → cov l x = 0

lemma cov_eq_zero {l : List Block} {x : Nat} (h : ∀ b ∈ l, ¬b.Has x) : cov l x = 0 := by
  by_contra hpos
  obtain ⟨b, hb, hx⟩ := exists_of_cov_pos (Nat.pos_of_ne_zero hpos)
  exact h b hb hx

lemma Clear.apart {l : List Block} {p : Nat} (h : Clear l p) (hsize : ∀ c ∈ l, 16 ≤ c.size) {c : Block} (hc : c ∈ l) :
    p + 16 ≤ c.addr ∨ c.addr + c.size ≤ p := by
  by_contra hmeet
  have h16 := hsize c hc
  have hpos : 0 < cov l (max p c.addr) := cov_pos hc ⟨by omega, by omega⟩
  have hzero := h (max p c.addr) (by omega) (by omega)
  omega

/-- `freelist_alloc` writes to free blocks only. -/
lemma HeapInv.alloc_keeps (h : HeapInv st free) (hs : 1 ≤ s) (hs' : s + 16 < 2 ^ 64) {r : Except Errno Nat}
    {fl' : FreeList} (hcall : freelistAlloc st.mem st.fl s = .ok (r, mem', fl')) {p : Nat} (hp : Clear free p) :
    SameHeader st.mem mem' p := by
  have hne := h.free_ne_nil (head_of_alloc hcall)
  rcases freelistAlloc_spec h.rep hne hs hs' with
    ⟨hfail, -⟩ | ⟨_, _, _, _, _, _, _, -, -, -, -, hok, halloc⟩
  · rw [hfail] at hcall
    cases hcall
    exact fun _ _ _ => rfl
  · rw [hok] at hcall
    cases hcall
    exact halloc.keeps p fun c hc => hp.apart (fun c hc => (h.rep.good c hc).header) hc

/-- `freelist_add_region` writes to free blocks and to the new one only. -/
lemma HeapInv.addRegion_keeps (h : HeapInv st free) {b : Block} {fl' : FreeList} (hb0 : b.addr ≠ 0) (hb : 16 ≤ b.size)
    (hend : b.addr + b.size ≤ 2 ^ 64) (hdisj : ∀ q ∈ st.pools, b.Disj q)
    (hcall : freelistAddRegion st.mem st.fl b.addr b.size = .ok (mem', fl')) {p : Nat} (hp : Clear (b :: free) p) :
    SameHeader st.mem mem' p := by
  have hgood : GoodBlock b := ⟨hb, by omega, hend⟩
  have hout : ∀ c ∈ free, b.Disj c := by
    intro c hc
    have h16 := h.size_pos (List.mem_append_left _ hc)
    apply disj_of_cov (by omega) (by omega)
    intro x hbx hcx
    obtain ⟨q, hq, hqx⟩ := h.mem_pool (List.mem_append_left _ hc) hcx
    have h1 := hdisj q hq
    unfold Block.Disj at h1
    unfold Block.Has at hbx hqx
    omega
  let m₁ := setBlockSize st.mem b.addr b.size
  have hsame : ∀ q, q + 16 ≤ b.addr ∨ b.addr + 16 ≤ q → SameHeader st.mem m₁ q :=
    fun q hq => setBlockSize_eqOn st.mem hq
  have hrep : FreeRep m₁ st.fl.head free := h.rep.congr (fun c hc => by
    have h1 := hout c hc
    have h2 := h.size_pos (List.mem_append_left _ hc)
    unfold Block.Disj at h1
    exact hsame c.addr (by omega))
  obtain ⟨mem₂, fl₂, free', hins, hi⟩ := @insertBlock_spec m₁
    { st.fl with capacity := wadd st.fl.capacity b.size } free b hrep h.gapped hgood
    (blockSize_setBlockSize st.mem _ (by have := hgood.positive; omega)) hout
  have hok : freelistAddRegion st.mem st.fl b.addr b.size = .ok (mem₂, fl₂) := by
    unfold freelistAddRegion
    rw [if_neg hb0, if_neg (by omega)]
    exact hins
  rw [hok] at hcall
  cases hcall
  have hsize : ∀ c ∈ b :: free, 16 ≤ c.size := by
    intro c hc
    rcases List.mem_cons.mp hc with rfl | hc
    · exact hb
    · exact (h.rep.good c hc).header
  have hapart := hp.apart hsize List.mem_cons_self
  refine (hsame p (by omega)).trans (hi.keeps p 16 ?_)
  intro c hc
  have h1 := hp.apart hsize hc
  have h2 := hsize c hc
  omega

/-- `freelist_free` writes to free blocks and to the one that is given back. -/
lemma HeapInv.free_keeps (h : HeapInv st free) (ha : a ∈ st.live) {fl' : FreeList}
    (hcall : freelistFree st.mem st.fl (a.entry + 16) = .ok (mem', fl')) {p : Nat} (hp : Clear (a.block :: free) p) :
    SameHeader st.mem mem' p := by
  have hblock : a.block ∈ st.liveBlocks := List.mem_map_of_mem ha
  have hgood := h.good_live hblock
  have hhead : st.fl.head ≠ 0 := by
    intro h0
    simp [freelistFree, h0] at hcall
  obtain ⟨mem₂, fl₂, free', hins, hi⟩ := insertBlock_spec h.rep h.gapped hgood (h.headers a ha)
    (fun c hc => (h.disj_free_live hc hblock).symm)
  have hok : freelistFree st.mem st.fl (a.entry + 16) = .ok (mem₂, fl₂) := by
    unfold freelistFree
    rw [if_neg hhead, if_neg (by omega), h.entry_eq ha]
    exact hins
  rw [hok] at hcall
  cases hcall
  apply hi.keeps p 16
  intro c hc
  have hsize : ∀ c ∈ a.block :: free, 16 ≤ c.size := by
    intro c hc
    rcases List.mem_cons.mp hc with rfl | hc
    · exact h.size_live hblock
    · exact (h.rep.good c hc).header
  have h1 := hp.apart hsize hc
  have h2 := hsize c hc
  omega

/-- The region that the heap grows by is not there before. -/
lemma Provides.addr_ne (h : Provides vm st s) :
    (newPool vm st.heap s).addr ≠ 0 ∧ (newPool vm st.heap s).addr + (newPool vm st.heap s).size ≤ 2 ^ 64 := by
  have hbase := h.pages.base
  have hend := h.pages.limit
  simp only [KERNEL_VM_RANGE_BASE, KERNEL_VM_RANGE_SIZE] at hbase hend
  omega

/-- The memory after `vm_alloc_mem`, if `kalloc` calls it. -/
def HeapState.paged (st : HeapState) (vm : HeapVm) (s : Nat) : Mem :=
  if grows st.heap s then (vm.vmAllocMem (roundUp s) st.mem).2 else st.mem

/-- `kalloc` writes to free blocks and to the region that the heap grows by. -/
lemma KHeapInv.kalloc_keeps (h : KHeapInv st free) (hs : 1 ≤ s) (hs' : s + 16 < 2 ^ 64)
    (hvm : grows st.heap s = true → Provides vm st s) {r : Except Errno Nat}
    (hcall : st.heap.kalloc vm s = .ok (r, heap')) {p : Nat} (hp : Clear free p)
    (hnew : grows st.heap s = true → Clear [newPool vm st.heap s] p) : SameHeader (st.paged vm s) heap'.mem p := by
  unfold HeapState.paged
  rcases kheap_kalloc_cases hcall with ⟨hserved, hgood⟩ | ⟨first, heap₁, second, hfirst, herr, hgrow, hsecond, -⟩
  · have hfalse : grows st.heap s = false := by
      rw [grows_eq hserved, hgood]
      rfl
    rw [hfalse, if_neg Bool.false_ne_true]
    exact h.heap.alloc_keeps hs hs' hserved hp
  · obtain ⟨r₀, m₀, f₀⟩ := first
    rcases h.heap.alloc_cases hs hs' hfirst with ⟨rfl, rfl, rfl, -⟩ | ⟨c, hc, n, free', -, rfl, -⟩
    · rcases growHeap_cases hgrow with ⟨hlimit, rfl⟩ | ⟨hlimit, hadd⟩
      · have hfalse : grows st.heap s = false := by
          rw [grows_eq hfirst]
          exact decide_eq_false (Nat.not_le_of_lt hlimit)
        rw [hfalse, if_neg Bool.false_ne_true]
        exact h.heap.alloc_keeps hs hs' hsecond hp
      · have htrue : grows st.heap s = true := by
          rw [grows_eq hfirst]
          exact decide_eq_true hlimit
        rw [htrue, if_pos rfl]
        have hprovides := hvm htrue
        have hclear := hnew htrue
        obtain ⟨free₁, h₁⟩ := h.grow hprovides hadd
        have hpos : (newPool vm st.heap s).size ≠ 0 := (freelistAddRegion_capacity hadd).1
        have hpages := hprovides.pages.size
        obtain ⟨haddr, hend⟩ := hprovides.addr_ne
        have hboth : Clear (newPool vm st.heap s :: free) p := by
          intro x h1 h2
          rw [cov_cons_add, hclear x h1 h2, hp x h1 h2]
        have hcov : Clear free₁ p := by
          intro x h1 h2
          have e1 := h.heap.covers x
          have e2 : cov free₁ x + cov st.liveBlocks x = cov (newPool vm st.heap s :: st.pools) x := h₁.heap.covers x
          have e3 := hp x h1 h2
          have e4 := hclear x h1 h2
          rw [cov_cons_add] at e2
          omega
        have hregion := (h.heap.outside hprovides.keeps).addRegion_keeps (b := newPool vm st.heap s) haddr
          (by omega) hend
          hprovides.fresh hadd hboth
        -- the new region, then the block that is cut off
        exact hregion.trans (h₁.heap.alloc_keeps hs hs' hsecond hcov)
    · rw [show isErr (Except.ok (c.addr + 16), m₀, f₀).1 = false from h.ptr_not_err hc] at herr
      cases herr

/-- The bytes of a live block are not free. -/
lemma HeapInv.clear_live (h : HeapInv st free) (ha : a ∈ st.live) {p : Nat} (h1 : a.entry ≤ p)
    (h2 : p + 16 ≤ a.entry + a.size) : Clear free p := by
  intro x hx1 hx2
  have hpos : 0 < cov st.liveBlocks x := cov_pos (List.mem_map_of_mem ha) ⟨by simp only [Live.block]; omega, by
    simp only [Live.block]
    omega⟩
  have hcov := h.covers x
  have honce := h.once x
  omega

/-- Neither `kalloc` nor the growth of the heap touches a buffer. -/
lemma KHeapInv.kalloc_buffers (h : KHeapInv st free) (hs : 1 ≤ s) (hs' : s + 16 < 2 ^ 64)
    (hvm : grows st.heap s = true → Provides vm st s) {r : Except Errno Nat}
    (hcall : st.heap.kalloc vm s = .ok (r, heap')) : st.live.map (Live.buffer heap'.mem) = st.buffers := by
  apply buffers_congr h.heap (fun a ha => ha)
  intro a ha p h1 h2
  have hpool : ∀ x, p ≤ x → x < p + 16 → ∃ q ∈ st.pools, q.Has x := fun x hx1 hx2 =>
    h.heap.mem_pool (List.mem_append_right _ (List.mem_map_of_mem ha)) ⟨by simp only [Live.block]; omega, by
      simp only [Live.block]
      omega⟩
  have hpaged : SameHeader st.mem (st.paged vm s) p := by
    intro x hx1 hx2
    unfold HeapState.paged
    split
    · rename_i htrue
      obtain ⟨q, hq, hqx⟩ := hpool x hx1 hx2
      exact (hvm htrue).keeps q hq x hqx.1 hqx.2
    · rfl
  refine hpaged.trans (h.kalloc_keeps hs hs' hvm hcall (h.heap.clear_live ha h1 h2) fun htrue x hx1 hx2 => ?_)
  obtain ⟨q, hq, hqx⟩ := hpool x hx1 hx2
  have hfresh := (hvm htrue).fresh q hq
  apply cov_eq_zero
  intro c hc hcx
  obtain rfl := List.mem_singleton.mp hc
  unfold Block.Disj at hfresh
  unfold Block.Has at hqx hcx
  omega

/-- `kfree` touches no other buffer. -/
lemma HeapInv.free_buffers (h : HeapInv st free) (ha : a ∈ st.live) {fl' : FreeList}
    (hcall : freelistFree st.mem st.fl (a.entry + 16) = .ok (mem', fl')) :
    (st.live.erase a).map (Live.buffer mem') = (st.live.erase a).map (Live.buffer st.mem) := by
  apply buffers_congr h (fun b hb => List.mem_of_mem_erase hb)
  intro b hb p h1 h2
  apply h.free_keeps ha hcall
  have hclear := h.clear_live (List.mem_of_mem_erase hb) h1 h2
  have hab := h.live_disj ha hb
  intro x hx1 hx2
  rw [cov_cons_add, hclear x hx1 hx2]
  apply cov_eq_zero
  intro c hc hcx
  obtain rfl := List.mem_singleton.mp hc
  unfold Block.Disj at hab
  unfold Block.Has at hcx
  simp only [Live.block] at hab hcx
  omega

lemma KHeapInv.stepRoom {free : List Block} {st st' : HeapState} (h : KHeapInv st free)
    (hstep : KHeapStep RoomForHeader st st') : ∃ free', KHeapInv st' free' := h.step (fun _ hok => hok) hstep

/-- The heap is in order along a run. -/
lemma KHeapTrace.inv {st₀ : HeapState} {free₀ : List Block} {ops : List BufOp} (h₀ : KHeapInv st₀ free₀)
    (h : KHeapTrace st₀ ops st) : ∃ free, KHeapInv st free := by
  induction h with
  | nil => exact ⟨free₀, h₀⟩
  | kalloc _ hs hroom hvm hcall ih =>
    obtain ⟨free, h⟩ := ih
    exact h.stepRoom (.kalloc hs hroom hvm hcall)
  | full _ hs hroom hvm hcall ih =>
    obtain ⟨free, h⟩ := ih
    exact h.stepRoom (.kalloc hs hroom hvm hcall)
  | kfree _ ha hcall ih =>
    obtain ⟨free, h⟩ := ih
    exact h.stepRoom (.kfree ha hcall)
  | write _ ha h1 h2 ih =>
    obtain ⟨free, h⟩ := ih
    exact h.stepRoom (.write _ ha h1 h2)
  | other _ hmem ih =>
    obtain ⟨free, h⟩ := ih
    exact h.stepRoom (.other hmem)

end KaworuOS.Proofs
