import KaworuOS.Proofs.KheapBuffers

/-!
# Calls of the kernel heap that return

While the free list is not empty, `kalloc` and `kfree` return, if what is below the heap provides the pages that it asks
for. A call that leaves the list empty is the last one.
-/

namespace KaworuOS.Proofs
open Lib

variable {mem mem' : Mem} {st : HeapState} {free : List Block} {heap' : KHeap} {vm : HeapVm} {s : Nat} {a : Live}
  {fl fl' : FreeList}

/-- The payload of a block may be overwritten. -/
lemma HeapInv.fill (h : HeapInv st free) (ha : a ∈ st.live)
    (hmem : ∀ x, ¬(a.entry + 16 ≤ x ∧ x < a.entry + 16 + a.req) → mem' x = st.mem x) :
    HeapInv { st with mem := mem' } free := by
  let filled : Nat → Mem := fun k x => if a.entry + 16 ≤ x ∧ x < a.entry + 16 + k then mem' x else st.mem x
  have hfill : ∀ k ≤ a.req, HeapInv { st with mem := filled k } free := by
    intro k
    induction k with
    | zero =>
      intro _
      have hnone : filled 0 = st.mem := funext fun x => if_neg (by omega)
      rw [hnone]
      exact h
    | succ k ih =>
      intro hk
      have hnext : (filled k).set (a.entry + 16 + k) (mem' (a.entry + 16 + k)) = filled (k + 1) := by
        funext x
        by_cases hx : x = a.entry + 16 + k
        · subst hx
          rw [Mem.set_same]
          exact (if_pos (by omega)).symm
        · rw [Mem.set_other _ _ hx]
          show (if _ then _ else _) = if _ then _ else _
          by_cases hin : a.entry + 16 ≤ x ∧ x < a.entry + 16 + k
          · rw [if_pos hin, if_pos (by omega)]
          · rw [if_neg hin, if_neg (by omega)]
      rw [← hnext]
      exact (ih (by omega)).write _ ha (by omega) (by omega)
  have hall : filled a.req = mem' := by
    funext x
    by_cases hin : a.entry + 16 ≤ x ∧ x < a.entry + 16 + a.req
    · exact if_pos hin
    · exact (if_neg hin).trans (hmem x hin).symm
  rw [← hall]
  exact hfill a.req (Nat.le_refl _)

lemma roundUp_ne_zero (hs : 1 ≤ s) (hs' : s + 4096 < 2 ^ 64) : roundUp s ≠ 0 := by
  have h1 : roundUp s = (s + 4095) / 4096 * 4096 := roundUp_eq (by omega) (by omega)
  omega

lemma insertBlock_head {entry : Nat} (hentry : entry ≠ 0) (h : insertBlock mem fl entry = .ok (mem', fl')) :
    fl'.head ≠ 0 := by
  unfold insertBlock at h
  split at h
  · cases h
    exact hentry
  · rename_i hno
    split at h
    · cases h
    · cases h
      exact fun h0 => hno (.inl h0)

/-- `grow_heap` returns. -/
lemma KHeapInv.grow_returns (h : KHeapInv st free) (hs : 1 ≤ s) (hs' : s + 4096 < 2 ^ 64)
    (hvm : wadd st.fl.capacity s ≤ MAX_HEAP_SIZE → Provides vm st s) :
    st.heap.growHeap vm s = .ok st.heap ∨
      ∃ heap₁ free₁, st.heap.growHeap vm s = .ok heap₁ ∧ heap₁.freelist.head ≠ 0 ∧
        KHeapInv ⟨heap₁.mem, heap₁.freelist, st.live, newPool vm st.heap s :: st.pools⟩ free₁ := by
  by_cases hlimit : wadd st.fl.capacity s ≤ MAX_HEAP_SIZE
  · right
    have hprovides := hvm hlimit
    have hbase := hprovides.pages.base
    have hend := hprovides.pages.limit
    have hpages := hprovides.pages.size
    simp only [KERNEL_VM_RANGE_BASE, KERNEL_VM_RANGE_SIZE] at hbase hend
    have hne : (newPool vm st.heap s).size ≠ 0 := roundUp_ne_zero hs hs'
    obtain ⟨mem₁, fl₁, -, hadd, -⟩ := (h.heap.outside hprovides.keeps).addRegion (p := newPool vm st.heap s) (by omega)
      (by omega) (by omega) hprovides.fresh
    obtain ⟨free₁, h₁⟩ := @KHeapInv.grow st free ⟨mem₁, fl₁⟩ vm s h hprovides hadd
    refine ⟨⟨mem₁, fl₁⟩, free₁, growHeap_ok (by omega) hlimit hprovides.storable hadd, ?_, h₁⟩
    have hpool : (newPool vm st.heap s).addr ≠ 0 := by omega
    unfold freelistAddRegion at hadd
    rw [if_neg hpool, if_neg hne] at hadd
    exact insertBlock_head hpool hadd
  · left
    unfold KHeap.growHeap
    rw [assertThat_true (by omega)]
    simp only [bind, Except.bind]
    exact if_pos (Nat.lt_of_not_le hlimit)

/-- `kalloc` returns. -/
lemma KHeapInv.kalloc_returns (h : KHeapInv st free) (hhead : st.fl.head ≠ 0) (hs : 1 ≤ s) (hs' : s + 4096 < 2 ^ 64)
    (hvm : grows st.heap s = true → Provides vm st s) : ∃ r heap', st.heap.kalloc vm s = .ok (r, heap') := by
  obtain ⟨first, hfirst⟩ := h.heap.alloc_returns hhead hs (by omega)
  obtain ⟨r, m, f⟩ := first
  rcases h.heap.alloc_cases hs (by omega) hfirst with ⟨rfl, rfl, rfl, -⟩ | ⟨c, hc, n, free', -, rfl, -⟩
  · have hgrows : grows st.heap s = decide (wadd st.fl.capacity s ≤ MAX_HEAP_SIZE) := by
      rw [grows_eq hfirst]
      rfl
    rcases h.grow_returns hs hs' (fun hlimit => hvm (by rw [hgrows]; exact decide_eq_true hlimit)) with
      hsame | ⟨heap₁, free₁, hgrow, hhead₁, h₁⟩
    · exact ⟨_, _, @kheap_kalloc_grows vm s st.heap st.heap st.heap (.error .ENOMEM) hfirst hsame hfirst⟩
    · obtain ⟨⟨last, m, f⟩, hlast⟩ := h₁.heap.alloc_returns hhead₁ hs (by omega)
      exact ⟨_, _, @kheap_kalloc_grows vm s st.heap heap₁ ⟨m, f⟩ last hfirst hgrow hlast⟩
  · refine ⟨.ok (c.addr + 16), ⟨m, f⟩, ?_⟩
    unfold KHeap.kalloc KHeap.retry
    have hgood := h.ptr_not_err hc
    have hfirst' : freelistAlloc st.heap.mem st.heap.freelist s = .ok (.ok (c.addr + 16), m, f) := hfirst
    simp only [hfirst', hgood, bind, Except.bind, Bool.false_eq_true, if_false]
    rfl

/-- `kfree` returns. -/
lemma KHeapInv.kfree_returns (h : KHeapInv st free) (hhead : st.fl.head ≠ 0) (ha : a ∈ st.live) :
    ∃ heap', st.heap.kfree (a.entry + 16) = .ok heap' ∧ heap'.freelist.head ≠ 0 ∧
      ∃ free', KHeapInv { st with mem := heap'.mem, fl := heap'.freelist, live := st.live.erase a } free' := by
  obtain ⟨mem', fl', free', hfree, hinv⟩ := h.heap.free hhead ha
  have hpos := (h.heap.good_live (List.mem_map_of_mem ha)).positive
  refine ⟨⟨mem', fl'⟩, ?_, ?_, free', hinv, h.pages⟩
  · unfold KHeap.kfree
    rw [assertThat_true (by omega)]
    have hfree' : freelistFree st.heap.mem st.heap.freelist (a.entry + 16) = .ok (mem', fl') := hfree
    simp only [hfree', bind, Except.bind]
    rfl
  · unfold freelistFree at hfree
    rw [if_neg hhead, if_neg (by omega), h.heap.entry_eq ha] at hfree
    exact insertBlock_head (by simp only [Live.block] at hpos; omega) hfree

/-- `kfree` with an empty free list is a failed `ASSERT`. -/
lemma kfree_panics {heap : KHeap} {ptr : Nat} (hhead : heap.freelist.head = 0) : heap.kfree ptr = .error .panic := by
  unfold KHeap.kfree assertThat
  split
  · simp only [bind, Except.bind]
    rw [freelistFree, if_pos hhead]
  · rfl

/-- The sixteen bytes around a byte that lies in no pool are free of blocks. -/
lemma clear_of_outside {l pools : List Block} {x : Nat} (hpools : ∀ q ∈ pools, q.addr % 4096 = 0 ∧ q.size % 4096 = 0)
    (hx : ∀ q ∈ pools, ¬q.Has x) (hl : ∀ b ∈ l, ∀ y, b.Has y → ∃ q ∈ pools, q.Has y) : Clear l (x / 16 * 16) := by
  intro y h1 h2
  apply cov_eq_zero
  intro b hb hy
  obtain ⟨q, hq, hqy⟩ := hl b hb y hy
  have hno := hx q hq
  obtain ⟨h3, h4⟩ := hpools q hq
  unfold Block.Has at hqy hno
  omega

/-- `kalloc` leaves the memory outside of the pools alone, once the pages are there. -/
lemma KHeapInv.kalloc_outside (h : KHeapInv st free) (hs : 1 ≤ s) (hs' : s + 16 < 2 ^ 64)
    (hvm : grows st.heap s = true → Provides vm st s) {r : Except Errno Nat}
    (hcall : st.heap.kalloc vm s = .ok (r, heap')) {x : Nat}
    (hx : ∀ q ∈ (st.served vm s r heap').pools, ¬q.Has x) : heap'.mem x = st.paged vm s x := by
  have hpools : (st.served vm s r heap').pools =
      if grows st.heap s then newPool vm st.heap s :: st.pools else st.pools := rfl
  rw [hpools] at hx
  have hold : ∀ q ∈ st.pools, ¬q.Has x := by
    intro q hq
    apply hx q
    split
    · exact List.mem_cons_of_mem _ hq
    · exact hq
  have hfree : Clear free (x / 16 * 16) :=
    clear_of_outside (fun q hq => ⟨(h.pages q hq).addr, (h.pages q hq).size⟩) hold
    fun b hb y hy => h.heap.mem_pool (List.mem_append_left _ hb) hy
  refine h.kalloc_keeps hs hs' hvm hcall hfree ?_ x (Nat.div_mul_le_self x 16) (by omega)
  intro htrue
  rw [htrue, if_pos rfl] at hx
  have hpages := (hvm htrue).pages
  have haligned : ∀ q ∈ [newPool vm st.heap s], q.addr % 4096 = 0 ∧ q.size % 4096 = 0 := by
    intro q hq
    obtain rfl := List.mem_singleton.mp hq
    exact ⟨hpages.addr, hpages.size⟩
  apply clear_of_outside haligned
  · intro q hq
    obtain rfl := List.mem_singleton.mp hq
    exact hx _ List.mem_cons_self
  · intro b hb y hy
    exact ⟨b, hb, hy⟩

/-- `kfree` leaves the memory outside of the pools alone. -/
lemma KHeapInv.kfree_outside (h : KHeapInv st free) (ha : a ∈ st.live)
    (hcall : st.heap.kfree (a.entry + 16) = .ok heap') {x : Nat} (hx : ∀ q ∈ st.pools, ¬q.Has x) :
    heap'.mem x = st.mem x := by
  unfold KHeap.kfree at hcall
  obtain ⟨-, -, hcall⟩ := bind_eq_ok.mp hcall
  obtain ⟨r, hr, hcall⟩ := bind_eq_ok.mp hcall
  cases hcall
  refine h.heap.free_keeps ha hr ?_ x (Nat.div_mul_le_self x 16) (by omega)
  apply clear_of_outside (fun q hq => ⟨(h.pages q hq).addr, (h.pages q hq).size⟩) hx
  intro b hb y hy
  apply h.heap.mem_pool (b := b) _ hy
  rcases List.mem_cons.mp hb with rfl | hb
  · exact List.mem_append_right _ (List.mem_map_of_mem ha)
  · exact List.mem_append_left _ hb

/-- A `kalloc` that fails leaves the free list as it is or with the new region, which is not empty. -/
lemma KHeapInv.kalloc_error_head (h : KHeapInv st free) (hs : 1 ≤ s) (hs' : s + 16 < 2 ^ 64)
    (hvm : grows st.heap s = true → Provides vm st s) {e : Errno}
    (hcall : st.heap.kalloc vm s = .ok (.error e, heap')) : heap'.freelist.head ≠ 0 := by
  rcases kheap_kalloc_cases hcall with ⟨-, hgood⟩ | ⟨first, heap₁, second, hfirst, herr, hgrow, hsecond, hr⟩
  · cases hgood
  · obtain ⟨r₀, m₀, f₀⟩ := first
    -- the second `freelist_alloc` has found nothing, and changes nothing
    have hlast : ∀ {st₁ : HeapState} {free₁ : List Block}, KHeapInv st₁ free₁ →
        freelistAlloc st₁.mem st₁.fl s = .ok (second, heap'.mem, heap'.freelist) → heap'.freelist.head ≠ 0 := by
      intro st₁ free₁ h₁ hcall₁
      rcases h₁.heap.alloc_cases hs hs' hcall₁ with ⟨-, -, hfl, -⟩ | ⟨c, hc, n, free', -, rfl, -⟩
      · rw [hfl]
        exact head_of_alloc hcall₁
      · rw [h₁.ptr_not_err hc, if_neg Bool.false_ne_true] at hr
        cases hr
    rcases h.heap.alloc_cases hs hs' hfirst with ⟨rfl, rfl, rfl, -⟩ | ⟨c, hc, n, free', -, rfl, -⟩
    · rcases growHeap_cases hgrow with ⟨-, rfl⟩ | ⟨hlimit, hadd⟩
      · exact hlast h hsecond
      · have htrue : grows st.heap s = true := by
          rw [grows_eq hfirst]
          exact decide_eq_true hlimit
        obtain ⟨free₁, h₁⟩ := h.grow (hvm htrue) hadd
        exact hlast h₁ hsecond
    · rw [show isErr (Except.ok (c.addr + 16), m₀, f₀).1 = false from h.ptr_not_err hc] at herr
      cases herr

end KaworuOS.Proofs
