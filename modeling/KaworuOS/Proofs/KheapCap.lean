import KaworuOS.Kheap
import KaworuOS.Lib.Chain
import KaworuOS.Lib.Outcome
import Mathlib.Logic.Relation

/-!
# The capacity of the kernel heap

Only `grow_heap` changes the capacity, and it does so whatever state the free list is in. The limit is tested
for the size that was asked for, and the capacity grows by whole pages; a request that ends in the last, partial
page below the limit takes the heap beyond it. A growth for which there is no memory is counted all the same.
-/

namespace KaworuOS.Proofs
open Lib

variable {mem : Mem} {fl : FreeList} {heap heap' : KHeap} {vm : HeapVm} {s : Nat}

lemma roundUp_eq_mod (h0 : 0 < s) (hs : s < wordSize) : roundUp s = (s + 4095) / 4096 * 4096 % wordSize := by
  have hsub : wsub s 1 = s - 1 := wsub_of_le h0 hs
  have hsum : (s - 1) / 4096 * 4096 + 4095 + 1 = (s + 4095) / 4096 * 4096 := by omega
  rw [roundUp, hsub, or_page_mask, wadd, hsum]

lemma setLink_capacity (mem : Mem) (fl : FreeList) (prev v : Nat) :
    (setLink mem fl prev v).2.capacity = fl.capacity := by
  unfold setLink
  split <;> rfl

lemma freelistAlloc_capacity {r : Except Errno Nat × Mem × FreeList} (h : freelistAlloc mem fl s = .ok r) :
    r.2.2.capacity = fl.capacity := by
  unfold freelistAlloc at h
  split at h
  · cases h
  · split at h
    · cases h
    · dsimp only at h
      split at h
      · cases h
      · split at h
        · cases h
          rfl
        · split at h
          · cases h
            exact setLink_capacity ..
          · cases h
            exact setLink_capacity ..

lemma insertBlock_capacity {entry : Nat} {r : Mem × FreeList} (h : insertBlock mem fl entry = .ok r) :
    r.2.capacity = fl.capacity := by
  unfold insertBlock at h
  split at h
  · cases h
    rfl
  · split at h
    · cases h
    · cases h
      rfl

lemma freelistFree_capacity {ptr : Nat} {r : Mem × FreeList} (h : freelistFree mem fl ptr = .ok r) :
    r.2.capacity = fl.capacity := by
  unfold freelistFree at h
  split at h
  · cases h
  · split at h
    · cases h
    · exact insertBlock_capacity h

lemma freelistAddRegion_capacity {pool size : Nat} {r : Mem × FreeList}
    (h : freelistAddRegion mem fl pool size = .ok r) : size ≠ 0 ∧ r.2.capacity = wadd fl.capacity size := by
  unfold freelistAddRegion at h
  split at h
  · cases h
  · split at h
    · cases h
    · rename_i hsize
      exact ⟨hsize, insertBlock_capacity h⟩

/-- The range that `grow_heap` gets for a request. -/
def newPool (vm : HeapVm) (heap : KHeap) (s : Nat) : Block := ⟨(vm.vmAllocMem (roundUp s) heap.mem).1, roundUp s⟩

/-- `grow_heap` refuses and changes nothing, or it adds the new range to the free list. -/
lemma growHeap_cases (h : heap.growHeap vm s = .ok heap') :
    (MAX_HEAP_SIZE < wadd heap.freelist.capacity s ∧ heap' = heap) ∨
    (wadd heap.freelist.capacity s ≤ MAX_HEAP_SIZE ∧
      freelistAddRegion (vm.vmAllocMem (roundUp s) heap.mem).2 heap.freelist (newPool vm heap s).addr
        (newPool vm heap s).size = .ok (heap'.mem, heap'.freelist)) := by
  unfold KHeap.growHeap at h
  obtain ⟨-, -, h⟩ := bind_eq_ok.mp h
  split at h
  · rename_i hcap
    cases h
    exact .inl ⟨hcap, rfl⟩
  · rename_i hcap
    dsimp only at h
    split at h
    · cases h
    · obtain ⟨r, hr, h⟩ := bind_eq_ok.mp h
      cases h
      exact .inr ⟨Nat.le_of_not_lt hcap, hr⟩

/-- The heap takes a new range into account, if the limit lets it. -/
def Grown (heap : KHeap) (s : Nat) (heap' : KHeap) : Prop :=
  wadd heap.freelist.capacity s ≤ MAX_HEAP_SIZE ∧ roundUp s ≠ 0 ∧
    heap'.freelist.capacity = wadd heap.freelist.capacity (roundUp s)

lemma growHeap_capacity (h : heap.growHeap vm s = .ok heap') : heap' = heap ∨ Grown heap s heap' := by
  rcases growHeap_cases h with ⟨-, hsame⟩ | ⟨hcap, hadd⟩
  · exact .inl hsame
  · exact .inr ⟨hcap, freelistAddRegion_capacity hadd⟩

/-- `kalloc` serves the request, or it lets the heap grow and tries again. -/
lemma kheap_kalloc_cases {r : Except Errno Nat} (h : heap.kalloc vm s = .ok (r, heap')) :
    (freelistAlloc heap.mem heap.freelist s = .ok (r, heap'.mem, heap'.freelist) ∧ isErr r = false) ∨
    ∃ first heap₁ second, freelistAlloc heap.mem heap.freelist s = .ok first ∧ isErr first.1 = true ∧
      KHeap.growHeap vm ⟨first.2.1, first.2.2⟩ s = .ok heap₁ ∧
      freelistAlloc heap₁.mem heap₁.freelist s = .ok (second, heap'.mem, heap'.freelist) ∧
      r = if isErr second then .error .ENOMEM else second := by
  unfold KHeap.kalloc at h
  obtain ⟨first, hfirst, h⟩ := bind_eq_ok.mp h
  obtain ⟨last, hlast, h⟩ := bind_eq_ok.mp h
  unfold KHeap.retry at hlast
  by_cases herr : isErr first.1 = true
  · right
    rw [if_pos herr] at hlast
    obtain ⟨heap₁, hgrow, hlast⟩ := bind_eq_ok.mp hlast
    refine ⟨first, heap₁, last.1, hfirst, herr, hgrow, ?_⟩
    split at h
    · cases h
      exact ⟨hlast, (if_pos ‹_›).symm⟩
    · cases h
      exact ⟨hlast, (if_neg ‹_›).symm⟩
  · left
    rw [if_neg herr] at hlast
    cases hlast
    rw [if_neg herr] at h
    cases h
    exact ⟨hfirst, by simpa using herr⟩

/-- No free block serves the request. -/
def Unserved (heap : KHeap) (s : Nat) : Prop :=
  ∃ first, freelistAlloc heap.mem heap.freelist s = .ok first ∧ isErr first.1 = true

lemma kheap_kalloc_capacity {r : Except Errno Nat} (h : heap.kalloc vm s = .ok (r, heap')) :
    heap'.freelist.capacity = heap.freelist.capacity ∨ (Unserved heap s ∧ Grown heap s heap') := by
  rcases kheap_kalloc_cases h with ⟨hserved, -⟩ | ⟨first, heap₁, second, hfirst, herr, hgrow, hsecond, -⟩
  · exact .inl (freelistAlloc_capacity hserved)
  · have h1 : first.2.2.capacity = heap.freelist.capacity := freelistAlloc_capacity hfirst
    have h2 : heap'.freelist.capacity = heap₁.freelist.capacity := freelistAlloc_capacity hsecond
    rcases growHeap_capacity hgrow with rfl | hgrown
    · exact .inl (h2.trans h1)
    · unfold Grown at hgrown ⊢
      dsimp only at hgrown
      rw [h1] at hgrown
      rw [h2]
      exact .inr ⟨⟨first, hfirst, herr⟩, hgrown⟩

/-- A request that no free block serves does not end in the last, partial page below the limit. -/
def CapKept (heap : KHeap) (s : Nat) : Prop :=
  Unserved heap s → heap.freelist.capacity + s ≤ MAX_HEAP_SIZE / PAGE_SIZE * PAGE_SIZE ∨
    MAX_HEAP_SIZE < heap.freelist.capacity + s

/-- The capacity is a number of whole pages below the limit. -/
def CapInv (heap : KHeap) : Prop :=
  heap.freelist.capacity % PAGE_SIZE = 0 ∧ heap.freelist.capacity ≤ MAX_HEAP_SIZE / PAGE_SIZE * PAGE_SIZE

/-- A call of the heap's functions, for any size and any pointer and with any outcome of `vm_alloc_mem`, or a
change of memory by somebody else. The sizes are such that `ok` holds. -/
inductive KHeapCall (ok : KHeap → Nat → Prop) : KHeap → KHeap → Prop
  | kalloc {heap heap' : KHeap} {vm : HeapVm} {s : Nat} {r : Except Errno Nat} (hs : s < wordSize) (hok : ok heap s)
      (h : heap.kalloc vm s = .ok (r, heap')) : KHeapCall ok heap heap'
  | kfree {heap heap' : KHeap} {ptr : Nat} (h : heap.kfree ptr = .ok heap') : KHeapCall ok heap heap'
  | store {heap : KHeap} (mem : Mem) : KHeapCall ok heap ⟨mem, heap.freelist⟩

/-- A wrapped sum takes whole pages away, and any other sum is refused or stays below the limit. -/
lemma CapInv.grown (h : CapInv heap) (hs : s < wordSize) (hkept : heap.freelist.capacity + s ≤
      MAX_HEAP_SIZE / PAGE_SIZE * PAGE_SIZE ∨ MAX_HEAP_SIZE < heap.freelist.capacity + s)
        (hgrown : Grown heap s heap') :
    CapInv heap' := by
  obtain ⟨hpages, hle⟩ := h
  obtain ⟨hcap, hround, hgrown⟩ := hgrown
  have hs0 : 0 < s := by
    rcases Nat.eq_zero_or_pos s with rfl | hpos
    · exact absurd (by decide) hround
    · exact hpos
  rw [roundUp_eq_mod hs0 hs] at hround hgrown
  unfold CapInv
  rw [hgrown]
  unfold wadd wordSize at *
  simp only [MAX_HEAP_SIZE, PAGE_SIZE] at *
  omega

lemma CapInv.step (h : CapInv heap) (hstep : KHeapCall CapKept heap heap') : CapInv heap' := by
  cases hstep with
  | kalloc hs hok hcall =>
    rcases kheap_kalloc_capacity hcall with hsame | ⟨hunserved, hgrown⟩
    · unfold CapInv
      rw [hsame]
      exact h
    · exact h.grown hs (hok hunserved) hgrown
  | kfree hcall =>
    unfold KHeap.kfree at hcall
    obtain ⟨-, -, hcall⟩ := bind_eq_ok.mp hcall
    obtain ⟨r, hr, hcall⟩ := bind_eq_ok.mp hcall
    cases hcall
    unfold CapInv
    dsimp only
    rw [freelistFree_capacity hr]
    exact h
  | store mem => exact h

lemma initial_capInv (mem : Mem) (pool : Nat) : CapInv (KHeap.kheapInit mem pool) := by
  have hcap : (KHeap.kheapInit mem pool).freelist.capacity = 5001216 := by
    show INITIAL_HEAP_SIZE = 5001216
    decide
  unfold CapInv
  rw [hcap]
  decide

/-- **The heap stays below its limit** in every run in which no request that makes it grow ends in the last,
partial page below the limit. -/
theorem kheap_capacity_le_max {pool : Nat}
    (hrun : Relation.ReflTransGen (KHeapCall CapKept) (KHeap.kheapInit mem pool) heap) :
    heap.freelist.capacity ≤ MAX_HEAP_SIZE := by
  have hinv : CapInv heap := by
    induction hrun with
    | refl => exact initial_capInv mem pool
    | tail _ hstep ih => exact ih.step hstep
  have hle := hinv.2
  simp only [MAX_HEAP_SIZE, PAGE_SIZE] at hle ⊢
  omega

/-- The heap after `kheap_init`, on zeroed pages. -/
def bootHeap : KHeap := KHeap.kheapInit (fun _ => 0) KERNEL_VM_RANGE_BASE

/-- A virtual memory manager that returns the same address each time. -/
def fixedVm (addr : Nat) (storable : Bool) : HeapVm := ⟨fun _ mem => (addr, mem), fun _ => storable⟩

/-- The heap after one `kalloc`. -/
def KHeap.after (heap : KHeap) (vm : HeapVm) (s : Nat) : KHeap := stateAfter heap (heap.kalloc vm s)

/-- The pages behind those of `bootHeap`. -/
def nextPages : HeapVm := fixedVm (KERNEL_VM_RANGE_BASE + INITIAL_HEAP_SIZE) true

theorem kheap_capacity_le_max_small :
    Relation.ReflTransGen (KHeapCall CapKept) bootHeap (KHeap.after bootHeap nextPages 8) ∧
      (KHeap.after bootHeap nextPages 8).freelist.capacity ≤ MAX_HEAP_SIZE := by
  have hcall : bootHeap.kalloc nextPages 8 = .ok (.ok (KERNEL_VM_RANGE_BASE + 16), KHeap.after bootHeap nextPages 8) :=
    eq_ok_of_resultOf bootHeap (by decide +kernel)
  have hkept : CapKept bootHeap 8 := fun _ => .inl (by decide +kernel)
  have hrun := Relation.ReflTransGen.single (KHeapCall.kalloc (by decide) hkept hcall)
  exact ⟨hrun, kheap_capacity_le_max hrun⟩

/-- A request for all that the limit leaves takes the heap beyond it. -/
theorem kheap_capacity_exceeds_max :
    Relation.ReflTransGen (KHeapCall fun _ _ => True) bootHeap (KHeap.after bootHeap nextPages 44998784) ∧
      (KHeap.after bootHeap nextPages 44998784).freelist.capacity = 50003968 ∧
      ¬(KHeap.after bootHeap nextPages 44998784).freelist.capacity ≤ MAX_HEAP_SIZE := by
  have hcall : bootHeap.kalloc nextPages 44998784 =
      .ok (.ok (KERNEL_VM_RANGE_BASE + 16), KHeap.after bootHeap nextPages 44998784) :=
    eq_ok_of_resultOf bootHeap (by decide +kernel)
  have hcap : (KHeap.after bootHeap nextPages 44998784).freelist.capacity = 50003968 := by decide +kernel
  refine ⟨.single (.kalloc (by decide) trivial hcall), hcap, ?_⟩
  rw [hcap]
  decide

/-- A growth that finds no memory is clean if `kalloc` returns `-ENOMEM` and the free list is what it was. -/
def CleanFailure (vm : HeapVm) (heap : KHeap) (s : Nat) : Prop :=
  ∃ heap', heap.kalloc vm s = .ok (.error .ENOMEM, heap') ∧ heap'.freelist = heap.freelist

lemma wadd_ne_self {a b : Nat} (hb : b < wordSize) (h : b ≠ 0) : wadd a b ≠ a := by
  unfold wadd wordSize at *
  omega

lemma kheap_kalloc_halts {first : Except Errno Nat × Mem × FreeList} {e : Halt}
    (hfirst : freelistAlloc heap.mem heap.freelist s = .ok first) (herr : isErr first.1 = true)
    (hgrow : KHeap.growHeap vm ⟨first.2.1, first.2.2⟩ s = .error e) : heap.kalloc vm s = .error e := by
  unfold KHeap.kalloc KHeap.retry
  simp only [hfirst, herr, hgrow, bind, Except.bind, if_true]

lemma growHeap_halts (hlimit : wadd heap.freelist.capacity s ≤ MAX_HEAP_SIZE)
    (hne : (vm.vmAllocMem (roundUp s) heap.mem).1 ≠ 0)
    (hstore : vm.storable (vm.vmAllocMem (roundUp s) heap.mem).1 = false) : ∃ e, heap.growHeap vm s = .error e := by
  unfold KHeap.growHeap
  by_cases hs : s = 0
  · rw [assertThat, if_neg (by simpa using hs)]
    exact ⟨_, rfl⟩
  · rw [assertThat_true hs]
    simp only [bind, Except.bind]
    rw [if_neg (by omega)]
    by_cases hround : roundUp s = 0
    · refine ⟨.panic, ?_⟩
      rw [if_neg (by simp [hround]), freelistAddRegion, if_neg hne, if_pos hround]
    · refine ⟨.fault, ?_⟩
      rw [if_pos ⟨hne, hround, hstore⟩]

/-- **A growth that finds no memory is never clean**: the store through the error pointer faults, and where it
does not, the capacity has grown by memory that is not there. -/
theorem failed_growth_never_clean
    (hnone : freelistAlloc heap.mem heap.freelist s = .ok (.error .ENOMEM, heap.mem, heap.freelist))
    (hlimit : wadd heap.freelist.capacity s ≤ MAX_HEAP_SIZE)
    (hfailed : isErrValue (vm.vmAllocMem (roundUp s) heap.mem).1 = true) :
    ¬CleanFailure vm heap s ∧
      (vm.storable (vm.vmAllocMem (roundUp s) heap.mem).1 = false → ∃ e, heap.kalloc vm s = .error e) := by
  constructor
  · rintro ⟨heap', hcall, hsame⟩
    rcases kheap_kalloc_cases hcall with ⟨-, hserved⟩ | ⟨first, heap₁, second, hfirst, -, hgrow, hsecond, -⟩
    · cases hserved
    · obtain rfl := Except.ok.inj (hnone.symm.trans hfirst)
      have hcap : heap'.freelist.capacity = heap₁.freelist.capacity := freelistAlloc_capacity hsecond
      rcases growHeap_cases hgrow with ⟨hlt, -⟩ | ⟨-, hadd⟩
      · exact absurd hlimit (Nat.not_le_of_lt hlt)
      · obtain ⟨hround, hgrown⟩ := freelistAddRegion_capacity hadd
        dsimp only [newPool] at hround hgrown
        rw [hsame, hgrown] at hcap
        have hsize : roundUp s < wordSize := Nat.mod_lt _ (by decide)
        exact wadd_ne_self hsize hround hcap.symm
  · intro hstore
    have hne : (vm.vmAllocMem (roundUp s) heap.mem).1 ≠ 0 := by
      intro h0
      rw [h0] at hfailed
      exact absurd hfailed (by decide)
    obtain ⟨e, hgrow⟩ := growHeap_halts hlimit hne hstore
    exact ⟨e, kheap_kalloc_halts hnone rfl hgrow⟩

lemma freelistAlloc_error {e : Errno} {state : Mem × FreeList} (h : freelistAlloc mem fl s = .ok (.error e, state)) :
    state = (mem, fl) := by
  unfold freelistAlloc at h
  split at h
  · cases h
  · split at h
    · cases h
    · dsimp only at h
      split at h
      · cases h
      · split at h
        · cases h
          rfl
        · split at h <;> cases h

/-- There are no pages for the request. -/
def noPages (storable : Bool) : HeapVm := fixedVm (errToPtr .ENOMEM) storable

lemma bootHeap_full : freelistAlloc bootHeap.mem bootHeap.freelist 5001300 =
    .ok (.error .ENOMEM, bootHeap.mem, bootHeap.freelist) := by
  have hcall := eq_ok_of_resultOf (x := freelistAlloc bootHeap.mem bootHeap.freelist 5001300) (a := .error .ENOMEM)
    (bootHeap.mem, bootHeap.freelist) (by decide +kernel)
  rw [freelistAlloc_error hcall] at hcall
  exact hcall

theorem failed_growth_never_clean_boot : ¬CleanFailure (noPages false) bootHeap 5001300 :=
  (failed_growth_never_clean bootHeap_full (by decide) (by decide)).1

/-- A heap that finds no pages faults. If the last page of the address space were there, `kalloc` would return
address 4. -/
theorem failed_growth_faults :
    resultOf (bootHeap.kalloc (noPages false) 5001300) = .error .fault ∧
      ¬CleanFailure (noPages false) bootHeap 5001300 ∧
      resultOf (bootHeap.kalloc (noPages true) 5001300) = .ok (.ok 4) ∧
      ¬CleanFailure (noPages true) bootHeap 5001300 := by
  have h1 : resultOf (bootHeap.kalloc (noPages false) 5001300) = .error .fault := by decide +kernel
  have h2 : resultOf (bootHeap.kalloc (noPages true) 5001300) = .ok (.ok 4) := by decide +kernel
  refine ⟨h1, ?_, h2, ?_⟩ <;> rintro ⟨heap', hcall, -⟩
  · rw [hcall] at h1
    cases h1
  · rw [hcall] at h2
    cases h2

end KaworuOS.Proofs
