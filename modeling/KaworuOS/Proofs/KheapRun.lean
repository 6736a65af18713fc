import KaworuOS.Proofs.FreelistRun
import KaworuOS.Proofs.KheapCap

/-!
# Runs of `kalloc` and `kfree`

A run of the kernel heap is one of its free list: `kalloc` is at most an allocation that fails, a new region and
another allocation. The regions are pages of the kernel's range. As long as all sizes are multiples of 16, the
blocks are so as well; one other size moves every block that is cut off behind it.
-/

namespace KaworuOS.Proofs
open Lib

variable {mem : Mem} {st st' : HeapState} {free : List Block} {heap' : KHeap} {vm : HeapVm} {s : Nat}

/-- The heap of a state. -/
def HeapState.heap (st : HeapState) : KHeap := ⟨st.mem, st.fl⟩

/-- The request makes `kalloc` call `vm_alloc_mem`. -/
def grows (heap : KHeap) (s : Nat) : Bool :=
  (freelistAlloc heap.mem heap.freelist s).toOption.any (fun r => isErr r.1) &&
    decide (wadd heap.freelist.capacity s ≤ MAX_HEAP_SIZE)

/-- A range of whole pages in the kernel's range. -/
structure KernelPages (p : Block) : Prop where
  addr : p.addr % 4096 = 0
  size : p.size % 4096 = 0
  base : KERNEL_VM_RANGE_BASE ≤ p.addr
  limit : p.addr + p.size ≤ KERNEL_VM_RANGE_BASE + KERNEL_VM_RANGE_SIZE

/-- `vm_alloc_mem` provides new pages for the request and leaves those of the heap alone. -/
structure Provides (vm : HeapVm) (st : HeapState) (s : Nat) : Prop where
  pages : KernelPages (newPool vm st.heap s)
  fresh : ∀ q ∈ st.pools, (newPool vm st.heap s).Disj q
  storable : vm.storable (newPool vm st.heap s).addr = true
  keeps : ∀ q ∈ st.pools, Mem.EqOn st.mem (vm.vmAllocMem (roundUp s) st.mem).2 q.addr q.size

/-- The state after a `kalloc` with the result `r`. -/
def HeapState.served (st : HeapState) (vm : HeapVm) (s : Nat) (r : Except Errno Nat) (heap' : KHeap) : HeapState where
  mem := heap'.mem
  fl := heap'.freelist
  live :=
    match r with
    | .ok ptr => ⟨ptr - 16, blockSize heap'.mem (ptr - 16), s⟩ :: st.live
    | .error _ => st.live
  pools := if grows st.heap s then newPool vm st.heap s :: st.pools else st.pools

/-- One step of a run in which the sizes are such that `ok` holds. Owners write to their allocations, and
everybody writes to memory that is not the heap's. -/
inductive KHeapStep (ok : Nat → Prop) : HeapState → HeapState → Prop
  | kalloc {st : HeapState} {vm : HeapVm} {s : Nat} {r : Except Errno Nat} {heap' : KHeap} (hs : 1 ≤ s) (hok : ok s)
      (hvm : grows st.heap s = true → Provides vm st s) (h : st.heap.kalloc vm s = .ok (r, heap')) :
      KHeapStep ok st (st.served vm s r heap')
  | kfree {st : HeapState} {a : Live} {heap' : KHeap} (ha : a ∈ st.live)
      (h : st.heap.kfree (a.entry + 16) = .ok heap') :
      KHeapStep ok st { st with mem := heap'.mem, fl := heap'.freelist, live := st.live.erase a }
  | write {st : HeapState} {a : Live} {x : Nat} (v : UInt8) (ha : a ∈ st.live) (h1 : a.entry + 16 ≤ x)
      (h2 : x < a.entry + 16 + a.req) : KHeapStep ok st { st with mem := st.mem.set x v }
  | other {st : HeapState} {mem' : Mem} (h : ∀ q ∈ st.pools, Mem.EqOn st.mem mem' q.addr q.size) :
      KHeapStep ok st { st with mem := mem' }

/-- The invariant of a run: the heap is in order and its pools are pages of the kernel. -/
structure KHeapInv (st : HeapState) (free : List Block) : Prop where
  heap : HeapInv st free
  pages : ∀ p ∈ st.pools, KernelPages p

lemma HeapInv.outside (h : HeapInv st free) {mem' : Mem} (hmem : ∀ q ∈ st.pools, Mem.EqOn st.mem mem' q.addr q.size) :
    HeapInv { st with mem := mem' } free := by
  have hsame : ∀ b ∈ free ++ st.liveBlocks, SameHeader st.mem mem' b.addr := by
    intro b hb x h1 h2
    have h16 := h.size_pos hb
    obtain ⟨q, hq, hqx⟩ := h.mem_pool hb (x := x) ⟨h1, by omega⟩
    exact hmem q hq x hqx.1 hqx.2
  refine ⟨h.rep.congr (fun b hb => hsame b (List.mem_append_left _ hb)), h.gapped, ?_, h.room, h.covers, h.once,
    h.pools,
    h.capacity⟩
  intro a ha
  exact (hsame a.block (List.mem_append_right _ (List.mem_map_of_mem ha))).size.trans (h.headers a ha)

/-- A block that is handed out has the size that was asked for, or it is a whole free block. -/
lemma freelistAlloc_blockSize {mem mem' : Mem} {fl fl' : FreeList} {c : Block} {l : List Block}
    (h : FreeRep mem fl.head l) (hc : c ∈ l) (hs : s + 16 < 2 ^ 64)
    (hcall : freelistAlloc mem fl s = .ok (.ok (c.addr + 16), mem', fl')) :
    blockSize mem' c.addr = s + 16 ∨ blockSize mem' c.addr = c.size := by
  have hactual : wadd s entrySize = s + 16 := wadd_of_lt hs
  unfold freelistAlloc at hcall
  split at hcall
  · cases hcall
  · split at hcall
    · cases hcall
    · dsimp only at hcall
      rw [hactual] at hcall
      rcases findFit_head (s + 16) h with ⟨hfind, -⟩ | ⟨l₁, d, l₂, rfl, -, hfit, hfind⟩
      · rw [hfind] at hcall
        cases hcall
      · have hd := h.good d (by simp)
        have hd0 : d.addr ≠ 0 := by have := hd.positive; omega
        have hptr : wadd d.addr entrySize = d.addr + 16 := by
          have h1 := hd.bound
          exact wadd_of_lt (by simp only [entrySize]; omega)
        rw [hfind] at hcall
        dsimp only at hcall
        rw [if_neg hd0] at hcall
        have haddr : ∀ {m : Mem} {f : FreeList}, (Except.ok (Except.ok (wadd d.addr entrySize), m, f) :
            Except Halt (Except Errno Nat × Mem × FreeList)) = .ok (.ok (c.addr + 16), mem', fl') →
            d.addr = c.addr ∧ m = mem' := by
          intro m f heq
          rw [hptr] at heq
          simp only [Except.ok.injEq, Prod.mk.injEq] at heq
          exact ⟨by omega, heq.2.1⟩
        split at hcall
        · obtain ⟨h1, rfl⟩ := haddr hcall
          rw [← h1]
          exact .inl (blockSize_setBlockSize _ _ hs)
        · obtain ⟨h1, rfl⟩ := haddr hcall
          obtain ⟨-, -, -, h2, -⟩ := consume_spec h
          rw [← h.sizes c hc, ← h1, h.sizes d (by simp)]
          exact .inr h2

/-- An allocation in a state of a run. -/
lemma HeapInv.alloc_cases (h : HeapInv st free) (hs : 1 ≤ s) (hs' : s + 16 < 2 ^ 64) {r : Except Errno Nat} {mem' : Mem}
    {fl' : FreeList} (hcall : freelistAlloc st.mem st.fl s = .ok (r, mem', fl')) :
    (r = .error .ENOMEM ∧ mem' = st.mem ∧ fl' = st.fl ∧ ∀ b ∈ free, b.size < s + 16) ∨
    ∃ c ∈ free, ∃ n free', s + 16 ≤ c.size ∧ r = .ok (c.addr + 16) ∧ (n = s + 16 ∨ n = c.size) ∧
      blockSize mem' c.addr = n ∧
      HeapInv { st with mem := mem', fl := fl', live := ⟨c.addr, n, s⟩ :: st.live } free' := by
  have hne := h.free_ne_nil (head_of_alloc hcall)
  rcases freelistAlloc_spec h.rep hne hs hs' with
    ⟨hfail, hall⟩ | ⟨l₁, c, l₂, mem₁, fl₁, free', b, hl, -, hfit, hb, hok, ha⟩
  · rw [hfail] at hcall
    cases hcall
    exact .inl ⟨rfl, rfl, rfl, hall⟩
  · rw [hok] at hcall
    cases hcall
    have hc : c ∈ free := by
      rw [hl]
      simp
    refine .inr ⟨c, hc, blockSize mem' c.addr, free', hfit, rfl, freelistAlloc_blockSize h.rep hc hs' hok, rfl, ?_⟩
    have hinv := h.alloc ha
    rwa [Nat.add_sub_cancel] at hinv

lemma grows_eq {heap : KHeap} {first : Except Errno Nat × Mem × FreeList}
    (h : freelistAlloc heap.mem heap.freelist s = .ok first) :
    grows heap s = (isErr first.1 && decide (wadd heap.freelist.capacity s ≤ MAX_HEAP_SIZE)) := by
  rw [grows, h]
  rfl

/-- The pools lie in the kernel's range, far from the error pointers. -/
lemma KHeapInv.ptr_not_err (h : KHeapInv st free) {c : Block} (hc : c ∈ free) : isErr (.ok (c.addr + 16)) = false := by
  have h16 := (h.heap.rep.good c hc).header
  obtain ⟨p, hp, hpx⟩ := h.heap.mem_pool (List.mem_append_left _ hc) (x := c.addr) ⟨by omega, by omega⟩
  have hlimit := (h.pages p hp).limit
  unfold Block.Has at hpx
  simp only [KERNEL_VM_RANGE_BASE, KERNEL_VM_RANGE_SIZE] at hlimit
  exact not_isErrValue_of_lt (by omega)

lemma roundUp_mod (s : Nat) : roundUp s % 4096 = 0 := by
  rw [roundUp, or_page_mask]
  unfold wadd wordSize
  omega

/-- A new region keeps the heap in order. -/
lemma KHeapInv.grow (h : KHeapInv st free) (hvm : Provides vm st s)
    (hadd : freelistAddRegion (vm.vmAllocMem (roundUp s) st.mem).2 st.fl (newPool vm st.heap s).addr
      (newPool vm st.heap s).size = .ok (heap'.mem, heap'.freelist)) :
    ∃ free', KHeapInv
      { st with mem := heap'.mem, fl := heap'.freelist, pools := newPool vm st.heap s :: st.pools }
      free' := by
  have hbase := hvm.pages.base
  have hlimit := hvm.pages.limit
  simp only [KERNEL_VM_RANGE_BASE, KERNEL_VM_RANGE_SIZE] at hbase hlimit
  have hsize : 16 ≤ (newPool vm st.heap s).size := by
    have h1 := (freelistAddRegion_capacity hadd).1
    have h2 := hvm.pages.size
    omega
  obtain ⟨mem₁, fl₁, free', hok, hinv⟩ :=
    (h.heap.outside hvm.keeps).addRegion (p := newPool vm st.heap s) (by omega) hsize
    (by omega) hvm.fresh
  obtain ⟨rfl, rfl⟩ := Prod.mk.inj (Except.ok.inj (hok.symm.trans hadd))
  refine ⟨free', hinv, ?_⟩
  intro p hp
  rcases List.mem_cons.mp hp with rfl | hp
  · exact hvm.pages
  · exact h.pages p hp

/-- What a `kalloc` of `s` bytes does to a state of a run: it hands out a block of `before`, the free list as it
is after the new region, if there is one, or it fails. -/
structure Kalloc (st : HeapState) (vm : HeapVm) (s : Nat) (r : Except Errno Nat) (heap' : KHeap) (before : List Block) :
    Prop where
  result : (r = .error .ENOMEM ∧ ∀ b ∈ before, b.size < s + 16) ∨
    ∃ c ∈ before, s + 16 ≤ c.size ∧ r = .ok (c.addr + 16) ∧
      (blockSize heap'.mem c.addr = s + 16 ∨ blockSize heap'.mem c.addr = c.size)
  inv : ∃ free', KHeapInv (st.served vm s r heap') free'

/-- The last allocation of `kalloc`, in the state `st₁` to which the heap has grown. -/
lemma KHeapInv.last {st₁ : HeapState} {before : List Block} (h : KHeapInv st₁ before) (hs : 1 ≤ s)
    (hs' : s + 16 < 2 ^ 64)
    (hlive : st₁.live = st.live)
    (hpools : st₁.pools = if grows st.heap s then newPool vm st.heap s :: st.pools else st.pools)
    {r last : Except Errno Nat}
    (hlast : freelistAlloc st₁.mem st₁.fl s = .ok (last, heap'.mem, heap'.freelist))
    (hr : r = if isErr last then .error .ENOMEM else last) : Kalloc st vm s r heap' before := by
  have hserved : st.served vm s r heap' = { st₁ with
      mem := heap'.mem
      fl := heap'.freelist
      live := (st.served vm s r heap').live } := by
    simp only [HeapState.served, hpools]
  rcases h.heap.alloc_cases hs hs' hlast with ⟨rfl, hmem, hfl, hall⟩ | ⟨c, hc, n, free', hfit, rfl, hn, hsize, hinv⟩
  · obtain rfl : r = .error .ENOMEM := hr
    refine ⟨.inl ⟨rfl, hall⟩, before, ?_⟩
    rw [hserved, hmem, hfl, show (st.served vm s (.error .ENOMEM) heap').live = st₁.live from hlive.symm]
    exact h
  · obtain rfl : r = .ok (c.addr + 16) := by rw [hr, if_neg (by rw [h.ptr_not_err hc]; decide)]
    refine ⟨.inr ⟨c, hc, hfit, rfl, hsize ▸ hn⟩, free', ?_, ?_⟩
    · rw [hserved]
      have hentry : (st.served vm s (.ok (c.addr + 16)) heap').live = ⟨c.addr, n, s⟩ :: st₁.live := by
        simp only [HeapState.served, Nat.add_sub_cancel, hsize, hlive]
      rw [hentry]
      exact hinv
    · intro p hp
      rw [hserved] at hp
      exact h.pages p hp

/-- `kalloc` hands out a block of the free list as it stands, or as it is after a new region. -/
lemma KHeapInv.kalloc (h : KHeapInv st free) (hs : 1 ≤ s) (hs' : s + 16 < 2 ^ 64)
    (hvm : grows st.heap s = true → Provides vm st s) {r : Except Errno Nat}
    (hcall : st.heap.kalloc vm s = .ok (r, heap')) :
    ∃ st₁ before, KHeapInv st₁ before ∧ st₁.live = st.live ∧
      st₁.pools = (if grows st.heap s then newPool vm st.heap s :: st.pools else st.pools) ∧
      (grows st.heap s = false → before = free) ∧ Kalloc st vm s r heap' before := by
  rcases kheap_kalloc_cases hcall with ⟨hserved, hgood⟩ | ⟨first, heap₁, second, hfirst, herr, hgrow, hsecond, hr⟩
  · have hgrows : grows st.heap s = false := by
      rw [grows_eq hserved, hgood]
      rfl
    have hpools : st.pools = if grows st.heap s then newPool vm st.heap s :: st.pools else st.pools := by
      rw [hgrows]
      rfl
    exact ⟨st, free, h, rfl, hpools, fun _ => rfl, h.last hs hs' rfl hpools hserved (by rw [hgood]; rfl)⟩
  · obtain ⟨r₀, m₀, f₀⟩ := first
    rcases h.heap.alloc_cases hs hs' hfirst with ⟨rfl, rfl, rfl, hall⟩ | ⟨c, hc, n, free', -, rfl, -⟩
    · have hgrows : grows st.heap s = decide (wadd st.fl.capacity s ≤ MAX_HEAP_SIZE) := by
        rw [grows_eq hfirst]
        rfl
      rcases growHeap_cases hgrow with ⟨hlimit, rfl⟩ | ⟨hlimit, hadd⟩
      · have hfalse : grows st.heap s = false := by
          rw [hgrows, decide_eq_false_iff_not]
          exact Nat.not_le_of_lt hlimit
        have hpools : st.pools = if grows st.heap s then newPool vm st.heap s :: st.pools else st.pools := by
          rw [hfalse]
          rfl
        exact ⟨st, free, h, rfl, hpools, fun _ => rfl, h.last hs hs' rfl hpools hsecond hr⟩
      · have htrue : grows st.heap s = true := by
          rw [hgrows, decide_eq_true_iff]
          exact hlimit
        obtain ⟨free₁, h₁⟩ := h.grow (hvm htrue) hadd
        let st₁ : HeapState := ⟨heap₁.mem, heap₁.freelist, st.live, newPool vm st.heap s :: st.pools⟩
        have hlive : st₁.live = st.live := rfl
        have hpools : st₁.pools =
            if grows st.heap s then newPool vm st.heap s :: st.pools else st.pools := by
          rw [htrue]
          rfl
        refine ⟨st₁, free₁, h₁, hlive, hpools, ?_, h₁.last hs hs' hlive hpools hsecond hr⟩
        intro hfalse
        rw [htrue] at hfalse
        cases hfalse
    · rw [show isErr (Except.ok (c.addr + 16), m₀, f₀).1 = false from h.ptr_not_err hc] at herr
      cases herr

/-- The sizes to which a header can be added. -/
def RoomForHeader (s : Nat) : Prop := s + 16 < 2 ^ 64

lemma KHeapInv.step {ok : Nat → Prop} (hroom : ∀ s, ok s → RoomForHeader s) (h : KHeapInv st free)
    (hstep : KHeapStep ok st st') : ∃ free', KHeapInv st' free' := by
  cases hstep with
  | kalloc hs hok hvm hcall =>
    obtain ⟨_, _, -, -, -, -, hk⟩ := h.kalloc hs (hroom _ hok) hvm hcall
    exact hk.inv
  | @kfree a heap' ha hcall =>
    unfold KHeap.kfree at hcall
    obtain ⟨-, -, hcall⟩ := bind_eq_ok.mp hcall
    obtain ⟨r, hr, hcall⟩ := bind_eq_ok.mp hcall
    cases hcall
    obtain ⟨free', hinv⟩ := h.heap.step (.free ha hr)
    exact ⟨free', hinv, h.pages⟩
  | write v ha h1 h2 => exact ⟨free, h.heap.write v ha h1 h2, h.pages⟩
  | other hmem => exact ⟨free, h.heap.outside hmem, h.pages⟩

lemma Gapped.apart {l : List Block} (h : Gapped l) {b c : Block} (hb : b ∈ l) (hc : c ∈ l) :
    b = c ∨ b.addr + b.size < c.addr ∨ c.addr + c.size < b.addr := by
  induction l with
  | nil => cases hb
  | cons d l ih =>
    obtain ⟨hd, hl⟩ := List.pairwise_cons.mp h
    rcases List.mem_cons.mp hb with rfl | hbl <;> rcases List.mem_cons.mp hc with rfl | hcl
    · exact .inl rfl
    · exact .inr (.inl (hd c hcl))
    · exact .inr (.inr (hd b hbl))
    · exact ih hl hbl hcl

/-- A block that begins and ends at a multiple of 16. -/
def Block.Aligned (b : Block) : Prop := b.addr % 16 = 0 ∧ b.size % 16 = 0

/-- What is free is what is left of the pools without the live blocks, so it begins and ends where these do. -/
lemma KHeapInv.free_aligned (h : KHeapInv st free) (hlive : ∀ b ∈ st.liveBlocks, Block.Aligned b) :
    ∀ b ∈ free, Block.Aligned b := by
  intro b hb
  have h16 := (h.heap.rep.good b hb).header
  -- a neighbour in the same group of 16 is free as well, and there is no other free block next to `b`
  have hnext : ∀ {x y : Nat}, b.Has x → x / 16 = y / 16 → (y = x + 1 ∨ x = y + 1) → b.Has y := by
    intro x y hx hgroup hxy
    obtain ⟨p, hp, hpx⟩ := h.heap.mem_pool (List.mem_append_left _ hb) hx
    have hpy : p.Has y := by
      have h1 := (h.pages p hp).addr
      have h2 := (h.pages p hp).size
      unfold Block.Has at hpx ⊢
      omega
    have hcov : 0 < cov free y + cov st.liveBlocks y := by
      rw [h.heap.covers]
      exact cov_pos hp hpy
    rcases Nat.eq_zero_or_pos (cov free y) with h0 | hpos
    · obtain ⟨a, ha, hay⟩ := exists_of_cov_pos (l := st.liveBlocks) (x := y) (by omega)
      have hdisj := h.heap.disj_free_live hb ha
      obtain ⟨h1, h2⟩ := hlive a ha
      unfold Block.Disj at hdisj
      unfold Block.Has at hx hay
      omega
    · obtain ⟨c, hc, hcy⟩ := exists_of_cov_pos hpos
      rcases h.heap.gapped.apart hb hc with rfl | hbc
      · exact hcy
      · unfold Block.Has at hx hcy
        omega
  have hstart : b.addr % 16 = 0 := by
    by_contra hne
    have hx : b.Has b.addr := ⟨by omega, by omega⟩
    have h1 := (hnext hx (y := b.addr - 1) (by omega) (by omega)).1
    omega
  have hend : (b.addr + b.size) % 16 = 0 := by
    by_contra hne
    have hx : b.Has (b.addr + b.size - 1) := ⟨by omega, by omega⟩
    have h1 := (hnext hx (y := b.addr + b.size) (by omega) (by omega)).2
    omega
  exact ⟨hstart, by omega⟩

/-- The multiples of 16 to which a header can be added. -/
def AlignedSize (s : Nat) : Prop := s % 16 = 0 ∧ RoomForHeader s

lemma KHeapInv.step_aligned (h : KHeapInv st free) (hlive : ∀ b ∈ st.liveBlocks, Block.Aligned b)
    (hstep : KHeapStep AlignedSize st st') : ∀ b ∈ st'.liveBlocks, Block.Aligned b := by
  cases hstep with
  | @kalloc vm s r heap' hs hok hvm hcall =>
    obtain ⟨st₁, before, h₁, hsame, -, -, hk⟩ := h.kalloc hs hok.2 hvm hcall
    rcases hk.result with ⟨rfl, -⟩ | ⟨c, hc, -, rfl, hsize⟩
    · exact hlive
    · have hbefore : ∀ b ∈ st₁.liveBlocks, Block.Aligned b := by
        rw [HeapState.liveBlocks, hsame]
        exact hlive
      obtain ⟨h1, h2⟩ := h₁.free_aligned hbefore c hc
      intro b hb
      rcases List.mem_cons.mp hb with rfl | hb
      · have h3 := hok.1
        simp only [Live.block, Nat.add_sub_cancel]
        exact ⟨h1, by dsimp only; omega⟩
      · exact hlive b hb
  | kfree ha hcall =>
    intro b hb
    obtain ⟨a, ha, rfl⟩ := List.mem_map.mp hb
    exact hlive _ (List.mem_map_of_mem (List.mem_of_mem_erase ha))
  | write v ha h1 h2 => exact hlive
  | other hmem => exact hlive

/-- The state after `kheap_init`. -/
def bootState (mem : Mem) (pool : Nat) : HeapState :=
  ⟨(KHeap.kheapInit mem pool).mem, (KHeap.kheapInit mem pool).freelist, [], [⟨pool, INITIAL_HEAP_SIZE⟩]⟩

/-- The pool of `kheap_init` is zeroed pages of the kernel. -/
structure BootPool (mem : Mem) (pool : Nat) : Prop where
  pages : KernelPages ⟨pool, INITIAL_HEAP_SIZE⟩
  zero : ∀ x, pool ≤ x → x < pool + INITIAL_HEAP_SIZE → mem x = 0

lemma BootPool.inv {pool : Nat} (h : BootPool mem pool) :
    KHeapInv (bootState mem pool) [⟨pool, INITIAL_HEAP_SIZE⟩] := by
  have hbase := h.pages.base
  have hlimit := h.pages.limit
  simp only [KERNEL_VM_RANGE_BASE, KERNEL_VM_RANGE_SIZE] at hbase hlimit
  refine ⟨heapStart_inv (by omega) (by decide) (by omega) h.zero, ?_⟩
  intro p hp
  obtain rfl := List.mem_singleton.mp hp
  exact h.pages

/-- **Pointers and headers are aligned** in every run of the heap in which all sizes are multiples of 16. -/
theorem kheap_blocks_aligned {pool : Nat} (hboot : BootPool mem pool)
    (hrun : Relation.ReflTransGen (KHeapStep AlignedSize) (bootState mem pool) st) :
    (∀ a ∈ st.live, (a.entry + 16) % 16 = 0) ∧
      ∃ free : List Block, Seg (blockNext st.mem) st.fl.head (free.map Block.addr) 0 ∧ ∀ b ∈ free, b.addr % 16 = 0 := by
  have hinv : (∃ free, KHeapInv st free) ∧ ∀ b ∈ st.liveBlocks, Block.Aligned b := by
    induction hrun with
    | refl => exact ⟨⟨_, hboot.inv⟩, fun b hb => by cases hb⟩
    | tail _ hstep ih =>
      obtain ⟨⟨free, h⟩, hlive⟩ := ih
      exact ⟨h.step (fun _ hok => hok.2) hstep, h.step_aligned hlive hstep⟩
  obtain ⟨⟨free, h⟩, hlive⟩ := hinv
  refine ⟨?_, free, h.heap.rep.seg, fun b hb => (h.free_aligned hlive b hb).1⟩
  intro a ha
  have h1 : a.entry % 16 = 0 := (hlive a.block (List.mem_map_of_mem ha)).1
  omega

lemma bootPool_zero : BootPool (fun _ => 0) KERNEL_VM_RANGE_BASE :=
  ⟨⟨by decide, by decide, by decide, by decide⟩, fun _ _ _ => rfl⟩

/-- The state after a `kalloc` that returns `ptr`. -/
def HeapState.afterKalloc (st : HeapState) (vm : HeapVm) (s ptr : Nat) : HeapState :=
  st.served vm s (.ok ptr) (KHeap.after st.heap vm s)

lemma kalloc_step {ok : Nat → Prop} {ptr : Nat} (hs : 1 ≤ s) (hok : ok s) (hgrows : grows st.heap s = false)
    (h : resultOf (st.heap.kalloc vm s) = .ok (.ok ptr)) : KHeapStep ok st (st.afterKalloc vm s ptr) := by
  refine .kalloc hs hok ?_ (eq_ok_of_resultOf st.heap h)
  intro htrue
  rw [hgrows] at htrue
  cases htrue

/-- The heap after `kheap_init` and a `kalloc` of `s` bytes. -/
def oneBlock (s : Nat) : HeapState :=
  (bootState (fun _ => 0) KERNEL_VM_RANGE_BASE).afterKalloc nextPages s (KERNEL_VM_RANGE_BASE + 16)

theorem kheap_blocks_aligned_sixteen :
    Relation.ReflTransGen (KHeapStep AlignedSize) (bootState (fun _ => 0) KERNEL_VM_RANGE_BASE) (oneBlock 16) ∧
      (∀ a ∈ (oneBlock 16).live, (a.entry + 16) % 16 = 0) ∧ (oneBlock 16).fl.head = KERNEL_VM_RANGE_BASE + 32 := by
  have hrun : Relation.ReflTransGen (KHeapStep AlignedSize) (bootState (fun _ => 0) KERNEL_VM_RANGE_BASE)
    (oneBlock 16) :=
    .single (kalloc_step (by decide)
      ⟨by decide, by unfold RoomForHeader; decide⟩ (by decide +kernel) (by decide +kernel))
  exact ⟨hrun, (kheap_blocks_aligned bootPool_zero hrun).1, by decide +kernel⟩

/-- Behind a block of one byte, the next pointer is odd. -/
theorem kheap_blocks_misaligned : BootPool (fun _ => 0) KERNEL_VM_RANGE_BASE ∧
    ∃ st, Relation.ReflTransGen (KHeapStep RoomForHeader) (bootState (fun _ => 0) KERNEL_VM_RANGE_BASE) st ∧
      ∃ a ∈ st.live, a.entry + 16 = KERNEL_VM_RANGE_BASE + 33 ∧ ¬(a.entry + 16) % 16 = 0 := by
  have h₁ : KHeapStep RoomForHeader (bootState (fun _ => 0) KERNEL_VM_RANGE_BASE) (oneBlock 1) :=
    kalloc_step (by decide) (by unfold RoomForHeader; decide) (by decide +kernel) (by decide +kernel)
  have h₂ : KHeapStep RoomForHeader (oneBlock 1) ((oneBlock 1).afterKalloc nextPages 1 (KERNEL_VM_RANGE_BASE + 33)) :=
    kalloc_step (by decide) (by unfold RoomForHeader; decide) (by decide +kernel) (by decide +kernel)
  refine ⟨bootPool_zero, _, (Relation.ReflTransGen.single h₁).tail h₂, _, List.mem_cons_self, ?_, ?_⟩
  · show KERNEL_VM_RANGE_BASE + 33 - 16 + 16 = _
    decide
  · show ¬(KERNEL_VM_RANGE_BASE + 33 - 16 + 16) % 16 = 0
    decide

end KaworuOS.Proofs
