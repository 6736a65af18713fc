import KaworuOS.Proofs.KheapRun

/-!
# When growing the heap is enough

`grow_heap` adds as many pages as the request has bytes, without the header that `freelist_alloc` puts before
them. So the new region is large enough when the last page has room for a header, and otherwise only together
with a free block next to it.
-/

namespace KaworuOS.Proofs
open Lib

variable {mem : Mem} {st : HeapState} {free free₁ : List Block} {vm : HeapVm} {p : Block} {s : Nat}

lemma FreeRep.unique {head : Nat} {l l' : List Block} (h : FreeRep mem head l) (h' : FreeRep mem head l') : l = l' := by
  have haddr : l.map Block.addr = l'.map Block.addr := h.seg.unique h'.seg
  apply List.ext_getElem (by simpa using congrArg List.length haddr)
  intro i hi hi'
  have h1 : (l.map Block.addr)[i]? = (l'.map Block.addr)[i]? := by rw [haddr]
  rw [List.getElem?_map, List.getElem?_map, List.getElem?_eq_getElem hi, List.getElem?_eq_getElem hi'] at h1
  have h2 : l[i].addr = l'[i].addr := Option.some.inj h1
  have h3 := h.sizes l[i] (List.getElem_mem hi)
  have h4 := h'.sizes l'[i] (List.getElem_mem hi')
  rw [h2] at h3
  exact Block.ext h2 (h3.symm.trans h4)

/-- An interval that is free as a whole lies in one free block. -/
lemma Gapped.interval {l : List Block} (h : Gapped l) {x y : Nat} (hxy : x < y)
    (hcov : ∀ z, x ≤ z → z < y → ∃ b ∈ l, b.Has z) :
    ∃ b ∈ l, b.addr ≤ x ∧ y ≤ b.addr + b.size := by
  obtain ⟨b, hb, hbx⟩ := hcov x (Nat.le_refl x) hxy
  refine ⟨b, hb, hbx.1, ?_⟩
  by_contra hlt
  -- the address right behind `b` would be in another block, which would touch `b`
  obtain ⟨c, hc, hcz⟩ := hcov (b.addr + b.size) (by unfold Block.Has at hbx; omega) (by omega)
  unfold Block.Has at hbx hcz
  rcases h.apart hb hc with rfl | hapart
  · omega
  · omega

/-- A free block touches the range. -/
def Touches (free : List Block) (p : Block) : Prop := ∃ b ∈ free, b.addr + b.size = p.addr ∨ p.addr + p.size = b.addr

section Fits

variable (hgap : Gapped free) (hgap₁ : Gapped free₁) (hsize : ∀ b ∈ free, 16 ≤ b.size)
  (hcov : ∀ x, cov free₁ x = cov free x + cov [p] x) (hp : 0 < p.size)
include hcov

lemma has_free₁ {x : Nat} : (∃ b ∈ free₁, b.Has x) ↔ (∃ b ∈ free, b.Has x) ∨ p.Has x := by
  have h := hcov x
  constructor
  · rintro ⟨b, hb, hx⟩
    have hpos := cov_pos hb hx
    rcases Nat.eq_zero_or_pos (cov free x) with h0 | hfree
    · obtain ⟨q, hq, hqx⟩ := exists_of_cov_pos (l := [p]) (x := x) (by omega)
      rw [List.mem_singleton.mp hq] at hqx
      exact .inr hqx
    · exact .inl (exists_of_cov_pos hfree)
  · rintro (⟨b, hb, hx⟩ | hx)
    · have hpos := cov_pos hb hx
      exact exists_of_cov_pos (by omega)
    · have hpos : 0 < cov [p] x := cov_pos List.mem_cons_self hx
      exact exists_of_cov_pos (by omega)

section Touches

include hp hgap

lemma touches_of_fits (hdisj : ∀ b ∈ free, p.Disj b) (hnone : ∀ b ∈ free, b.size < s + 16) {b : Block} (hb : b ∈ free₁)
    (hfit : s + 16 ≤ b.size) : s + 16 ≤ p.size ∨ Touches free p := by
  have hin : ∀ z, b.Has z → (∃ c ∈ free, c.Has z) ∨ p.Has z := fun z hz => (has_free₁ hcov).mp ⟨b, hb, hz⟩
  by_cases hmeet : ∃ z, b.Has z ∧ p.Has z
  · obtain ⟨z, hbz, hpz⟩ := hmeet
    by_cases hleft : b.addr < p.addr
    · right
      rcases hin (p.addr - 1) (by unfold Block.Has at hbz hpz ⊢; omega) with ⟨c, hc, hcx⟩ | hpx
      · have hd := hdisj c hc
        unfold Block.Disj at hd
        unfold Block.Has at hcx
        exact ⟨c, hc, .inl (by omega)⟩
      · unfold Block.Has at hpx
        omega
    · by_cases hright : p.addr + p.size < b.addr + b.size
      · right
        rcases hin (p.addr + p.size) (by unfold Block.Has at hbz hpz ⊢; omega) with ⟨c, hc, hcx⟩ | hpx
        · have hd := hdisj c hc
          unfold Block.Disj at hd
          unfold Block.Has at hcx
          exact ⟨c, hc, .inr (by omega)⟩
        · unfold Block.Has at hpx
          omega
      · exact .inl (by omega)
  · -- the block was free before, as part of one free block
    obtain ⟨c, hc, h1, h2⟩ := hgap.interval (x := b.addr) (y := b.addr + b.size) (by omega) (by
      intro z h1 h2
      exact (hin z ⟨h1, h2⟩).resolve_right (fun hpz => hmeet ⟨z, ⟨h1, h2⟩, hpz⟩))
    have h3 := hnone c hc
    omega

end Touches

include hgap₁ hsize hp

/-- The free block that takes in the new region is larger by a header if another one touches it. -/
lemma fits_of_touches (hfit : s ≤ p.size) (h : s + 16 ≤ p.size ∨ Touches free p) : ∃ b ∈ free₁, s + 16 ≤ b.size := by
  rcases h with hroom | ⟨c, hc, hleft | hright⟩
  · obtain ⟨b, hb, h1, h2⟩ := hgap₁.interval (x := p.addr) (y := p.addr + p.size) (by omega)
      (fun z h1 h2 => (has_free₁ hcov).mpr (.inr ⟨h1, h2⟩))
    exact ⟨b, hb, by omega⟩
  · have h16 := hsize c hc
    obtain ⟨b, hb, h1, h2⟩ := hgap₁.interval (x := c.addr) (y := p.addr + p.size) (by omega) (by
      intro z h1 h2
      by_cases hz : z < p.addr
      · exact (has_free₁ hcov).mpr (.inl ⟨c, hc, h1, by omega⟩)
      · exact (has_free₁ hcov).mpr (.inr ⟨by omega, h2⟩))
    exact ⟨b, hb, by omega⟩
  · have h16 := hsize c hc
    obtain ⟨b, hb, h1, h2⟩ := hgap₁.interval (x := p.addr) (y := c.addr + c.size) (by omega) (by
      intro z h1 h2
      by_cases hz : z < c.addr
      · exact (has_free₁ hcov).mpr (.inr ⟨h1, by omega⟩)
      · exact (has_free₁ hcov).mpr (.inl ⟨c, hc, by omega, h2⟩))
    exact ⟨b, hb, by omega⟩

end Fits

lemma growHeap_ok {heap heap' : KHeap} (hs : s ≠ 0) (hlimit : wadd heap.freelist.capacity s ≤ MAX_HEAP_SIZE)
    (hstore : vm.storable (newPool vm heap s).addr = true)
    (hadd : freelistAddRegion (vm.vmAllocMem (roundUp s) heap.mem).2 heap.freelist (newPool vm heap s).addr
      (newPool vm heap s).size = .ok (heap'.mem, heap'.freelist)) : heap.growHeap vm s = .ok heap' := by
  dsimp only [newPool] at hstore hadd
  unfold KHeap.growHeap
  rw [assertThat_true hs]
  simp only [bind, Except.bind]
  rw [if_neg (by omega), if_neg (by simp [hstore]), hadd]
  rfl

lemma kheap_kalloc_grows {heap heap₁ heap' : KHeap} {last : Except Errno Nat}
    (hnone : freelistAlloc heap.mem heap.freelist s = .ok (.error .ENOMEM, heap.mem, heap.freelist))
    (hgrow : heap.growHeap vm s = .ok heap₁)
    (hlast : freelistAlloc heap₁.mem heap₁.freelist s = .ok (last, heap'.mem, heap'.freelist)) :
    heap.kalloc vm s = .ok (if isErr last then .error .ENOMEM else last, heap') := by
  unfold KHeap.kalloc KHeap.retry
  have herr : isErr (.error .ENOMEM : Except Errno Nat) = true := rfl
  simp only [hnone, herr, hgrow, hlast, bind, Except.bind, if_true]
  split <;> rfl

/-- `kalloc` returns a block with room for `s` bytes behind its header. -/
def ServedBy (vm : HeapVm) (heap : KHeap) (s : Nat) : Prop :=
  ∃ ptr heap', heap.kalloc vm s = .ok (.ok ptr, heap') ∧ s + 16 ≤ blockSize heap'.mem (ptr - 16)

lemma KHeapInv.served_iff_fits (h : KHeapInv st free₁) {heap : KHeap} (hs : 1 ≤ s) (hs' : s + 16 < 2 ^ 64)
    (hne : free₁ ≠ [])
    (hnone : freelistAlloc heap.mem heap.freelist s = .ok (.error .ENOMEM, heap.mem, heap.freelist))
    (hgrow : heap.growHeap vm s = .ok st.heap) : ServedBy vm heap s ↔ ∃ b ∈ free₁, s + 16 ≤ b.size := by
  rcases freelistAlloc_spec h.heap.rep hne hs hs' with
    ⟨hfail, hall⟩ | ⟨l₁, c, l₂, mem', fl', free', b, rfl, -, hfit, hb, hok, ha⟩
  · have hlast : freelistAlloc st.heap.mem st.heap.freelist s =
        .ok (.error .ENOMEM, st.heap.mem, st.heap.freelist) := hfail
    have hcall : heap.kalloc vm s = .ok (.error .ENOMEM, st.heap) := kheap_kalloc_grows hnone hgrow hlast
    constructor
    · rintro ⟨ptr, heap', hserved, -⟩
      rw [hcall] at hserved
      cases hserved
    · rintro ⟨b, hb, hfit⟩
      have h1 := hall b hb
      omega
  · have hc : c ∈ l₁ ++ c :: l₂ := by simp
    have hlast : freelistAlloc st.heap.mem st.heap.freelist s =
        .ok (.ok (c.addr + 16), KHeap.mem ⟨mem', fl'⟩, KHeap.freelist ⟨mem', fl'⟩) := hok
    have hcall := kheap_kalloc_grows hnone hgrow hlast
    rw [if_neg (by rw [h.ptr_not_err hc]; decide)] at hcall
    refine ⟨fun _ => ⟨c, hc, hfit⟩, fun _ => ⟨_, _, hcall, ?_⟩⟩
    show s + 16 ≤ blockSize mem' (c.addr + 16 - 16)
    rw [Nat.add_sub_cancel, ← hb, ha.header]
    exact ha.room

/-- **Growing is enough** exactly when the last page has room for a header or a free block touches the new
region. -/
theorem growth_suffices_iff {pool : Nat} (hboot : BootPool mem pool)
    (hrun : Relation.ReflTransGen (KHeapStep RoomForHeader) (bootState mem pool) st)
    (hfree : FreeRep st.mem st.fl.head free) (hne : free ≠ []) (hs : 1 ≤ s)
    (hlimit : st.fl.capacity + s ≤ MAX_HEAP_SIZE)
    (hnone : ∀ b ∈ free, b.size < s + 16) (hvm : Provides vm st s) :
    ServedBy vm st.heap s ↔ s + 16 ≤ roundUp s ∨ Touches free (newPool vm st.heap s) := by
  obtain ⟨free', h⟩ : ∃ free', KHeapInv st free' := by
    clear hfree hlimit hvm
    induction hrun with
    | refl => exact ⟨_, hboot.inv⟩
    | tail _ hstep ih =>
      obtain ⟨free', h⟩ := ih
      exact h.step (fun _ hok => hok) hstep
  obtain rfl := hfree.unique h.heap.rep
  simp only [MAX_HEAP_SIZE] at hlimit
  have hround : roundUp s = (s + 4095) / 4096 * 4096 := roundUp_eq (by omega) (by omega)
  have hs' : s + 16 < 2 ^ 64 := by omega
  have hfail : freelistAlloc st.mem st.fl s = .ok (.error .ENOMEM, st.mem, st.fl) := by
    rcases freelistAlloc_spec hfree hne hs hs' with ⟨hfail, -⟩ | ⟨l₁, c, l₂, _, _, _, _, rfl, -, hfit, -⟩
    · exact hfail
    · have h1 := hnone c (by simp)
      omega
  have hbase := hvm.pages.base
  have hend := hvm.pages.limit
  simp only [KERNEL_VM_RANGE_BASE, KERNEL_VM_RANGE_SIZE] at hbase hend
  have hsize : (newPool vm st.heap s).size = roundUp s := rfl
  obtain ⟨mem₁, fl₁, -, hadd, -⟩ := (h.heap.outside hvm.keeps).addRegion (p := newPool vm st.heap s) (by omega)
    (by omega)
    (by omega) hvm.fresh
  obtain ⟨free₁, h₁⟩ := @KHeapInv.grow st free ⟨mem₁, fl₁⟩ vm s h hvm hadd
  have hgrow : st.heap.growHeap vm s = .ok ⟨mem₁, fl₁⟩ := by
    refine growHeap_ok (by omega) ?_ hvm.storable hadd
    rw [wadd_of_lt (by show st.fl.capacity + s < _; omega)]
    exact hlimit
  have hcov : ∀ x, cov free₁ x = cov free x + cov [newPool vm st.heap s] x := by
    intro x
    have e1 := h.heap.covers x
    have e2 : cov free₁ x + cov st.liveBlocks x = cov (newPool vm st.heap s :: st.pools) x := h₁.heap.covers x
    rw [cov_cons_add] at e2
    omega
  have hdisj : ∀ b ∈ free, (newPool vm st.heap s).Disj b := by
    intro b hb
    have h16 := (hfree.good b hb).header
    apply disj_of_cov (by omega) (by omega)
    intro x hpx hbx
    have h1 := h₁.heap.once x
    have h2 := h.heap.covers x
    have h3 := cov_pos hb hbx
    have h4 : 0 < cov [newPool vm st.heap s] x := cov_pos List.mem_cons_self hpx
    have h5 : cov (newPool vm st.heap s :: st.pools) x ≤ 1 := h1
    rw [cov_cons_add] at h5
    omega
  have hgood : ∀ b ∈ free, 16 ≤ b.size := fun b hb => (hfree.good b hb).header
  have hne₁ : free₁ ≠ [] := by
    rintro rfl
    have h1 := hcov (newPool vm st.heap s).addr
    have h2 : 0 < cov [newPool vm st.heap s] (newPool vm st.heap s).addr :=
      cov_pos List.mem_cons_self ⟨Nat.le_refl _, by omega⟩
    rw [cov_nil] at h1
    omega
  rw [h₁.served_iff_fits hs hs' hne₁ hfail hgrow]
  constructor
  · rintro ⟨b, hb, hfit⟩
    exact touches_of_fits h.heap.gapped hcov (by omega) hdisj hnone hb hfit
  · exact fits_of_touches h₁.heap.gapped hgood hcov (by omega) (by omega)

/-- Pages of the kernel behind the pool of `kheap_init`, for a heap that has only that pool. -/
lemma provides_nextPages (hpools : st.pools = [⟨KERNEL_VM_RANGE_BASE, INITIAL_HEAP_SIZE⟩])
    (hend : KERNEL_VM_RANGE_BASE + INITIAL_HEAP_SIZE + roundUp s ≤ KERNEL_VM_RANGE_BASE + KERNEL_VM_RANGE_SIZE) :
    Provides nextPages st s := by
  refine ⟨⟨?_, roundUp_mod s, ?_, hend⟩, ?_, rfl, fun _ _ _ _ _ => rfl⟩
  · show (KERNEL_VM_RANGE_BASE + INITIAL_HEAP_SIZE) % 4096 = 0
    decide
  · show KERNEL_VM_RANGE_BASE ≤ KERNEL_VM_RANGE_BASE + INITIAL_HEAP_SIZE
    decide
  · intro q hq
    rw [hpools] at hq
    obtain rfl := List.mem_singleton.mp hq
    exact .inr (Nat.le_refl _)

/-- The first request for a whole number of pages is served together with the first pool. -/
theorem growth_suffices_iff_boot :
    ServedBy nextPages (bootState (fun _ => 0) KERNEL_VM_RANGE_BASE).heap INITIAL_HEAP_SIZE := by
  refine (growth_suffices_iff bootPool_zero .refl bootPool_zero.inv.heap.rep (by simp) (by decide) (by decide) ?_
    (provides_nextPages rfl (by decide))).mpr (.inr ⟨_, List.mem_singleton.mpr rfl, .inl rfl⟩)
  intro b hb
  rw [List.mem_singleton.mp hb]
  decide

/-- The state after a `kfree`. -/
def HeapState.afterKfree (st : HeapState) (a : Live) : HeapState :=
  let heap := okOr st.heap (st.heap.kfree (a.entry + 16))
  { st with mem := heap.mem, fl := heap.freelist, live := st.live.erase a }

lemma kfree_step {ok : Nat → Prop} {a : Live} (ha : a ∈ st.live) (h : (st.heap.kfree (a.entry + 16)).isOk = true) :
    KHeapStep ok st (st.afterKfree a) :=
  .kfree ha (eq_ok_of_isOk st.heap h)

/-- Two blocks of 16 bytes are allocated, and the first of them is freed again. -/
def holeInFront : HeapState :=
  ((oneBlock 16).afterKalloc nextPages 16 (KERNEL_VM_RANGE_BASE + 48)).afterKfree ⟨KERNEL_VM_RANGE_BASE, 32, 16⟩

/-- All that is left behind these blocks is allocated. -/
def tailTaken : HeapState :=
  holeInFront.afterKalloc nextPages (INITIAL_HEAP_SIZE - 80) (KERNEL_VM_RANGE_BASE + 80)

lemma tailTaken_run :
    Relation.ReflTransGen (KHeapStep RoomForHeader) (bootState (fun _ => 0) KERNEL_VM_RANGE_BASE) tailTaken := by
  have h₁ : KHeapStep RoomForHeader (bootState (fun _ => 0) KERNEL_VM_RANGE_BASE) (oneBlock 16) :=
    kalloc_step (by decide) (by unfold RoomForHeader; decide) (by decide +kernel) (by decide +kernel)
  have h₂ : KHeapStep RoomForHeader (oneBlock 16)
    ((oneBlock 16).afterKalloc nextPages 16 (KERNEL_VM_RANGE_BASE + 48)) :=
    kalloc_step (by decide) (by unfold RoomForHeader; decide) (by decide +kernel) (by decide +kernel)
  have h₃ : KHeapStep RoomForHeader ((oneBlock 16).afterKalloc nextPages 16 (KERNEL_VM_RANGE_BASE + 48)) holeInFront :=
    kfree_step (by decide +kernel) (by decide +kernel)
  have h₄ : KHeapStep RoomForHeader holeInFront tailTaken :=
    kalloc_step (by decide) (by unfold RoomForHeader; decide) (by decide +kernel) (by decide +kernel)
  exact (((Relation.ReflTransGen.single h₁).tail h₂).tail h₃).tail h₄

lemma tailTaken_rep : FreeRep tailTaken.mem tailTaken.fl.head [⟨KERNEL_VM_RANGE_BASE, 32⟩] := by
  have hlast : blockNext tailTaken.mem KERNEL_VM_RANGE_BASE = 0 := by decide +kernel
  refine ⟨⟨by decide +kernel, by decide, hlast⟩, ?_, ?_, by simp⟩
  · intro b hb
    rw [List.mem_singleton.mp hb]
    decide +kernel
  · intro b hb
    rw [List.mem_singleton.mp hb]
    exact ⟨by decide, by decide, by decide⟩

/-- A page is asked for, and a page is added: the header does not fit, and `kalloc` returns `-ENOMEM`. -/
theorem growth_of_page_fails :
    Relation.ReflTransGen (KHeapStep RoomForHeader) (bootState (fun _ => 0) KERNEL_VM_RANGE_BASE) tailTaken ∧
      FreeRep tailTaken.mem tailTaken.fl.head [⟨KERNEL_VM_RANGE_BASE, 32⟩] ∧
      tailTaken.fl.capacity + 4096 ≤ MAX_HEAP_SIZE ∧ Provides nextPages tailTaken 4096 ∧
      resultOf (tailTaken.heap.kalloc nextPages 4096) = .ok (.error .ENOMEM) ∧
      ¬ServedBy nextPages tailTaken.heap 4096 := by
  have hret : resultOf (tailTaken.heap.kalloc nextPages 4096) = .ok (.error .ENOMEM) := by decide +kernel
  refine ⟨tailTaken_run, tailTaken_rep, by decide +kernel, provides_nextPages (by decide +kernel) (by decide), hret, ?_⟩
  rintro ⟨ptr, heap', hcall, -⟩
  rw [hcall] at hret
  cases hret

end KaworuOS.Proofs
