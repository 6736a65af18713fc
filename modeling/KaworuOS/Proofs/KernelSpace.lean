import KaworuOS.Proofs.FrameRule
import KaworuOS.Proofs.KernelBoot

/-!
# Calls on one region of the kernel

Each call of `vmm.c` on a region changes the mappings in the range of this region only, and maps pages with the attributes
that the region has.
-/

namespace KaworuOS.Proofs
open Lib

variable {s s' : Mm} {root va pa n size : Nat} {T T' : Tree} {free free' free₀ loose owned : List Nat}
  {attrs : PageAttrs}
  {old mine : Nat → Prop} {region region' : AllocRegion} {a : RegionAllocation}

/-- A call has changed the mappings in the range of the region only, and what it has mapped there has the attributes. -/
structure Confined (region : AllocRegion) (attrs : PageAttrs) (M : Nat → Option Leaf) (region' : AllocRegion)
    (M' : Nat → Option Leaf) : Prop where
  range : region'.allocator.pool = region.allocator.pool ∧ region'.allocator.pageCount = region.allocator.pageCount
  pages : ∀ q, M' q = M q ∨ (InRegion region q ∧ ∀ l, M' q = some l → l.attrs = attrs)

lemma PageRegion.taken_inRegion (h : PageRegion region) (ht : Taken region va n region')
    (haligned : va % 4096 = 0) {q : Nat}
    (h1 : pageOf va ≤ q) (h2 : q < pageOf va + n) : InRegion region q := by
  rw [← ht.inRegion]
  exact (h.take ht haligned).owned_inRegion ((h.owned_take ht).mpr (.inr ⟨h1, h2⟩))

/-- A `vm_alloc` that returns an address has mapped fresh frames there. -/
lemma vmAlloc_fresh (h : TableInv s root T free) (hp : PageRegion region) (hlt : size < 2 ^ 64)
    (hcall : vmAlloc (root + s.hhdm) size region attrs s = (.ok (va, region'), s')) (hok : isErrValue va = false)
    (hnever : failures s' = failures s) :
    ∃ frames T' free', va % 4096 = 0 ∧ Taken region va (size / 4096) region' ∧ frames.length = size / 4096 ∧
      FreshPages root s T free va attrs frames s' T' free' := by
  obtain ⟨_, _, -, -, ht₀, -, -⟩ := vmAlloc_ok hp hlt hcall hok
  rcases vmAlloc_cases h hp attrs ht₀.positive hlt with
    hfail | hfull | ⟨_, _, -, -, -, hpanic⟩ |
      ⟨start, region₁, frames, s₁, T₁, free₁, hrun, haligned, ht, hlen, -, hfresh⟩
  · rw [hcall] at hfail
    exact absurd hnever (Nat.ne_of_gt hfail)
  · rw [hcall] at hfull
    obtain ⟨rfl, -⟩ := Prod.mk.inj (Except.ok.inj (Prod.mk.inj hfull).1)
    rw [isErrValue_errToPtr] at hok
    cases hok
  · rw [hcall] at hpanic
    cases hpanic
  · obtain ⟨hres, rfl⟩ := Prod.mk.inj (hcall.symm.trans hrun)
    obtain ⟨rfl, rfl⟩ := Prod.mk.inj (Except.ok.inj hres)
    exact ⟨frames, T₁, free₁, haligned, ht, hlen, hfresh⟩

lemma vmAlloc_confined (h : TableInv s root T free) (hp : PageRegion region) (hlt : size < 2 ^ 64)
    (hcall : vmAlloc (root + s.hhdm) size region attrs s = (.ok (va, region'), s')) (hok : isErrValue va = false)
    (hnever : failures s' = failures s) :
    ∃ T' free', TableInv s' root T' free' ∧ Confined region attrs T.leaf region' T'.leaf := by
  obtain ⟨frames, T', free', haligned, ht, hlen, hfresh⟩ := vmAlloc_fresh h hp hlt hcall hok hnever
  refine ⟨T', free', hfresh.inv, ⟨ht.marked.pool, ht.marked.pageCount⟩, ?_⟩
  intro q
  by_cases hq : pageOf va ≤ q ∧ q < pageOf va + frames.length
  case neg => exact .inl (hfresh.others q hq)
  refine .inr ⟨hp.taken_inRegion ht haligned hq.1 (by omega), ?_⟩
  intro l hl
  have hi : q - pageOf va < frames.length := by omega
  have hmapped := hfresh.mapped (q - pageOf va) _ (List.getElem?_eq_getElem hi)
  rw [Nat.add_sub_cancel' hq.1, hl] at hmapped
  rw [Option.some.inj hmapped]

/-- A `vm_map` that returns has mapped the range. -/
lemma vmMap_mapped (h : TableInv s root T free) (hp : PageRegion region) (hsize : GoodSize size)
    (hpa : GoodRange pa size)
    (hcall : vmMap (root + s.hhdm) pa size region attrs s = (.ok (va, region'), s'))
    (hnever : failures s' = failures s) :
    ∃ T' free' used, va % 4096 = 0 ∧ Taken region va (size / 4096) region' ∧ Grows root s T free s' T' free' used ∧
      T'.leaf = mapRange T.leaf (pageOf va) (size / 4096) pa attrs := by
  rcases vmMap_cases h hp attrs hsize.aligned hsize.positive hsize.bound hpa.aligned hpa.bound with
    hfail | ⟨-, hpanic⟩ | ⟨_, _, -, -, -, hpanic⟩ |
      ⟨start, region₁, s₁, T₁, free₁, used, hrun, -, haligned, ht, hg, -, hleaf⟩
  · rw [hcall] at hfail
    exact absurd hnever (Nat.ne_of_gt hfail)
  · rw [hcall] at hpanic
    cases hpanic
  · rw [hcall] at hpanic
    cases hpanic
  · obtain ⟨hres, rfl⟩ := Prod.mk.inj (hcall.symm.trans hrun)
    obtain ⟨rfl, rfl⟩ := Prod.mk.inj (Except.ok.inj hres)
    exact ⟨T₁, free₁, used, haligned, ht, hg, hleaf⟩

lemma vmMap_confined (h : TableInv s root T free) (hp : PageRegion region) (hsize : GoodSize size)
    (hpa : GoodRange pa size)
    (hcall : vmMap (root + s.hhdm) pa size region attrs s = (.ok (va, region'), s'))
    (hnever : failures s' = failures s) :
    ∃ T' free', TableInv s' root T' free' ∧ Confined region attrs T.leaf region' T'.leaf := by
  obtain ⟨T', free', used, haligned, ht, hg, hleaf⟩ := vmMap_mapped h hp hsize hpa hcall hnever
  refine ⟨T', free', hg.inv, ⟨ht.marked.pool, ht.marked.pageCount⟩, ?_⟩
  intro q
  rw [hleaf, mapRange]
  by_cases hq : pageOf va ≤ q ∧ q < pageOf va + size / 4096
  · rw [if_pos hq]
    refine .inr ⟨hp.taken_inRegion ht haligned hq.1 hq.2, ?_⟩
    intro l hl
    rw [← Option.some.inj hl]
  · exact .inl (if_neg hq)

lemma confined_unmap (hp : PageRegion region) (hr : Released region a.va a.pageCount region')
    (ha : a ∈ region.allocations)
    (hva : a.va ≠ 0) : Confined region attrs T.leaf region' (T.unmap (pageOf a.va) a.pageCount).leaf := by
  refine ⟨⟨hr.marked.pool, hr.marked.pageCount⟩, ?_⟩
  intro q
  show unmapRange T.leaf (pageOf a.va) a.pageCount q = T.leaf q ∨
    _ ∧ ∀ l, unmapRange T.leaf (pageOf a.va) a.pageCount q = some l → _
  unfold unmapRange
  by_cases hq : pageOf a.va ≤ q ∧ q < pageOf a.va + a.pageCount
  · rw [if_pos hq]
    refine .inr ⟨hp.owned_inRegion ⟨a, ha, hva, hq⟩, ?_⟩
    intro l hl
    cases hl
  · exact .inl (if_neg hq)

lemma VmInv.vmFree_confined (h : VmInv free₀ old mine s root T loose owned free region) (ha : a ∈ region.allocations)
    (hva : a.va ≠ 0) (hmine : ∀ q, RegionAllocation.Covers a q → mine q)
    (hcall : vmFree (root + s.hhdm) a.va region s = (.ok region', s')) :
    ∃ T' free', TableInv s' root T' free' ∧ Confined region attrs T.leaf region' T'.leaf := by
  obtain ⟨i, hi⟩ := List.mem_iff_getElem?.mp ha
  obtain ⟨s₁, region₁, freed, owned', hrun, -, -, hr, -, hinv⟩ := h.vmFree_spec hi hva hmine
  obtain ⟨hres, rfl⟩ := Prod.mk.inj (hcall.symm.trans hrun)
  obtain rfl := Except.ok.inj hres
  exact ⟨_, _, hinv.frames.table, confined_unmap h.pages hr ha hva⟩

lemma VmInv.vmUnmap_confined (h : VmInv free₀ old mine s root T loose owned free region) (ha : a ∈ region.allocations)
    (hva : a.va ≠ 0) (hmine : ∀ q, RegionAllocation.Covers a q → ¬mine q) (hsize : size = a.pageCount * 4096)
    (hcall : vmUnmap (root + s.hhdm) a.va size region s = (.ok region', s')) :
    ∃ T' free', TableInv s' root T' free' ∧ Confined region attrs T.leaf region' T'.leaf := by
  obtain ⟨i, hi⟩ := List.mem_iff_getElem?.mp ha
  obtain ⟨s₁, region₁, owned', hrun, -, hr, hinv⟩ := h.vmUnmap_spec hi hva hmine hsize
  obtain ⟨hres, rfl⟩ := Prod.mk.inj (hcall.symm.trans hrun)
  obtain rfl := Except.ok.inj hres
  exact ⟨_, _, hinv.frames.table, confined_unmap h.pages hr ha hva⟩

/-- What a call does to the region and the results that are held, and to the mappings. -/
def VmCall (root : Nat) (T : Tree) (attrs : PageAttrs) (v v' : Vm) : Prop :=
  VmStep (root + v.mm.hhdm) v v' ∧
    ∃ T' free', TableInv v'.mm root T' free' ∧ Confined v.region attrs T.leaf v'.region T'.leaf

lemma vmAlloc_floor (table size : Nat) :
    vmAlloc table size region attrs = vmAlloc table (size / 4096 * 4096) region attrs := by
  have hcount : size / 4096 * 4096 / PAGE_SIZE = size / PAGE_SIZE := Nat.mul_div_left _ (by decide)
  unfold vmAlloc
  rw [hcount]

lemma vmUnmap_pagesSize (table : Nat) :
    vmUnmap table va size region = vmUnmap table va (pagesSize size) region := by
  have haligned : isPageAligned (pagesSize size) = true := (isPageAligned_iff _).mpr pagesSize_aligned
  unfold vmUnmap
  dsimp only
  rw [if_pos haligned]
  rfl

lemma goodSize_pagesSize (hpos : 0 < size) (hlt : size + 4096 ≤ 2 ^ 64) : GoodSize (pagesSize size) := by
  refine ⟨pagesSize_aligned, ?_, ?_⟩
  · rw [pagesSize_eq hpos hlt]
    omega
  · rw [pagesSize_eq hpos hlt]
    omega

/-- `vm_mmio_unmap` unmaps the pages of the allocation that the address lies in. -/
lemma vmMmioUnmap_pages {table : Nat} (hp : PageRegion region) (ha : a ∈ region.allocations) (hne : a.va ≠ 0)
    (haddr : a.va = va - va % 4096) (hpos : 0 < size) (hlt : size + 8192 ≤ 2 ^ 64) :
    vmMmioUnmap table va size region = vmUnmap table (va - va % 4096) (pagesSize (size + va % 4096)) region := by
  have hspan := (hp.allocation_span ha hne).inside
  have hcount := (hp.inv.inside a ha hne).2.1
  rw [haddr] at hspan
  have hva : wadd (va - va % 4096) (va % 4096) = va := by
    rw [wadd_of_lt (by omega)]
    omega
  have heq : vmMmioUnmap table (wadd (va - va % 4096) (va % 4096)) size region =
      vmUnmap table (va - va % 4096) ((size + va % 4096 + 4095) / 4096 * 4096) region :=
    vmMmioUnmap_eq hpos hlt (by omega) (by omega) (by omega)
  rwa [hva, ← pagesSize_eq (by omega) (by omega)] at heq

section Calls

variable {v : Vm} (h : VmRunInv free₀ old root v T owned free)
include h

lemma VmRunInv.alloc_call (hlt : size < 2 ^ 64)
    (hcall : vmAlloc (root + v.mm.hhdm) size v.region attrs v.mm = (.ok (va, region'), s'))
    (hok : isErrValue va = false)
    (hnever : failures s' = failures v.mm) :
    VmCall root T attrs v ⟨s', region', Function.update v.live va (some .alloc)⟩ := by
  obtain ⟨start, err, -, -, ht, -, -⟩ := vmAlloc_ok h.vm.pages hlt hcall hok
  have hpos := ht.positive
  have hsize : GoodSize (size / 4096 * 4096) := ⟨by omega, by omega, by omega⟩
  have hconf := vmAlloc_confined h.vm.frames.table h.vm.pages hlt hcall hok hnever
  rw [vmAlloc_floor] at hcall
  exact ⟨.alloc hsize hcall hok, hconf⟩

lemma VmRunInv.free_call (hlive : v.live va = some .alloc)
    (hcall : vmFree (root + v.mm.hhdm) va v.region v.mm = (.ok region', s')) :
    VmCall root T attrs v ⟨s', region', Function.update v.live va none⟩ := by
  refine ⟨.free hlive hcall, ?_⟩
  obtain ⟨a, ha, rfl, hva, -⟩ := h.held _ _ hlive
  exact h.vm.vmFree_confined ha hva (fun q hq => ⟨a, ha, hva, hlive, hq⟩) hcall

lemma VmRunInv.map_call (hpos : 0 < size) (hpa : pa % 4096 = 0) (hend : pa + size + 4096 ≤ 2 ^ 48)
    (hcall : vmMap (root + v.mm.hhdm) pa size v.region attrs v.mm = (.ok (va, region'), s'))
    (hok : isErrValue va = false)
    (hnever : failures s' = failures v.mm) :
    VmCall root T attrs v ⟨s', region', Function.update v.live va (some (.map (pagesSize size)))⟩ := by
  have hsize : GoodSize (pagesSize size) := goodSize_pagesSize hpos (by omega)
  have hrange : GoodRange pa (pagesSize size) := by
    refine ⟨hpa, ?_⟩
    rw [pagesSize_eq hpos (by omega)]
    omega
  rw [vmMap_pagesSize] at hcall
  exact ⟨.map hsize hrange hcall hok, vmMap_confined h.vm.frames.table h.vm.pages hsize hrange hcall hnever⟩

lemma VmRunInv.unmap_call (hlive : v.live va = some (.map (pagesSize size)))
    (hcall : vmUnmap (root + v.mm.hhdm) va size v.region v.mm = (.ok region', s')) :
    VmCall root T attrs v ⟨s', region', Function.update v.live va none⟩ := by
  rw [vmUnmap_pagesSize] at hcall
  refine ⟨.unmap hlive hcall, ?_⟩
  obtain ⟨a, ha, rfl, hva, hsize⟩ := h.held _ _ hlive
  obtain ⟨i, hi⟩ := List.mem_iff_getElem?.mp ha
  exact h.vm.vmUnmap_confined ha hva (h.not_allocPage hi hva hlive) (hsize _ rfl) hcall

lemma VmRunInv.mmioMap_call (hpos : 0 < size) (hend : pa + size + 4096 ≤ 2 ^ 48)
    (hcall : vmMmioMap (root + v.mm.hhdm) pa size v.region v.mm = (.ok (va, region'), s')) (hok : isErrValue va = false)
    (hnever : failures s' = failures v.mm) :
    VmCall root T mmioPageAttrs v
      ⟨s', region', Function.update v.live (va - va % 4096) (some (.map (pagesSize (size + va % 4096))))⟩ := by
  obtain ⟨start, hmap, hstart, rfl⟩ := vmMmioMap_ok hpos hend hcall hok
  have hpages : pagesSize (size + pa % 4096) = (size + pa % 4096 + 4095) / 4096 * 4096 :=
    pagesSize_eq (by omega) (by omega)
  obtain ⟨n, hn⟩ : ∃ n, n = (size + pa % 4096 + 4095) / 4096 * 4096 := ⟨_, rfl⟩
  rw [← hn] at hmap hpages
  have hcall' := h.map_call (by omega) (by omega) (by omega) hmap hstart hnever
  obtain ⟨_, _, _, haligned, ht, -, -⟩ := vmMap_mapped h.vm.frames.table h.vm.pages ⟨by omega, by omega, by omega⟩
    ⟨by omega, by omega⟩ hmap hnever
  have hspan := (h.vm.pages.taken_span ht haligned).inside
  have hva : wadd start (pa % 4096) = start + pa % 4096 := wadd_of_lt (by omega)
  have hoffset : (start + pa % 4096) % 4096 = pa % 4096 := by omega
  rw [hva, hoffset, Nat.add_sub_cancel, hpages]
  rwa [pagesSize, if_pos ((isPageAligned_iff n).mpr (by omega))] at hcall'

lemma VmRunInv.mmioUnmap_call (hlive : v.live (va - va % 4096) = some (.map (pagesSize (size + va % 4096))))
    (hpos : 0 < size)
    (hlt : size + 8192 ≤ 2 ^ 64)
    (hcall : vmMmioUnmap (root + v.mm.hhdm) va size v.region v.mm = (.ok region', s')) :
    VmCall root T attrs v ⟨s', region', Function.update v.live (va - va % 4096) none⟩ := by
  obtain ⟨a, ha, haddr, hne, -⟩ := h.held _ _ hlive
  rw [vmMmioUnmap_pages h.vm.pages ha (haddr ▸ hne) haddr hpos hlt, ← vmUnmap_pagesSize] at hcall
  exact h.unmap_call hlive hcall

end Calls

end KaworuOS.Proofs
