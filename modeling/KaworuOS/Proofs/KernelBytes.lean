import KaworuOS.Proofs.KernelSpaceRun
import KaworuOS.Proofs.SpaceFamily

/-!
# Allocated pages keep their bytes

A call on a region, or of others on `pmm`, leaves every page alone that is allocated before and after it: it stays mapped
to its frame, and the frame keeps its bytes.
-/

namespace KaworuOS.Proofs
open Lib

variable {s s' : Mm} {root va pa size q x f : Nat} {T T' T₁ : Tree}
  {free free' free₁ free₀ owned owned' loose : List Nat}
  {old mine : Nat → Prop} {attrs : PageAttrs} {region' : AllocRegion} {boot : Nat → Option Leaf} {r r' : KernelRun}
  {g g₁ : KernelRegion}

/-- The page is mapped as before, and its frame has the same bytes. -/
structure PageKept (s : Mm) (T : Tree) (s' : Mm) (T' : Tree) (q : Nat) : Prop where
  leaf : T'.leaf q = T.leaf q
  bytes : ∀ l, T.leaf q = some l → ∀ x, InPage s.hhdm l.pa x → s'.mem x = s.mem x

lemma PageKept.congr (h : PageKept s T s' T₁ q) (hleaf : T'.leaf = T₁.leaf) : PageKept s T s' T' q :=
  ⟨by rw [hleaf, h.leaf], h.bytes⟩

/-- The frame of a page that is `mine` does not overlap the tables, the free frames and those of others. -/
lemma FramesInv.page_apart (h : FramesInv free₀ old mine s root T loose owned free) (hq : mine q) {l : Leaf}
    (hl : T.leaf q = some l) (hx : InPage s.hhdm l.pa x) (hf : T.IsTable f ∨ f ∈ free ∨ f ∈ loose) :
    ¬InPage s.hhdm f x := by
  have howned := h.leaf_owned hq hl
  have hframe := (h.mem_start (List.mem_append_left _ (List.mem_append_left _ howned))).2
  have hf' : IsFrame s.hhdm f ∧ f ≠ l.pa := by
    rcases hf with ⟨k, p, hnode⟩ | hf | hf
    · exact ⟨h.table.frame hnode, fun heq => h.apart hq hl ⟨k, p, heq ▸ hnode⟩⟩
    · exact ⟨h.table.pmm.frames f hf, fun heq => h.not_free_of_owned howned (heq ▸ hf)⟩
    · exact ⟨(h.good f (h.loose_free₀ hf)).2, fun heq => h.not_loose_of_owned howned (heq ▸ hf)⟩
  have hapart := hf'.1.apart hframe hf'.2
  unfold InPage at *
  omega

section Calls

variable (h : KernelInv free₀ boot r root T owned free) (hq : AllocPage (r.vm g) q)
include h hq

lemma KernelInv.not_taken {n : Nat} (ht : Taken (r.space.region g₁) va n region') (haligned : va % 4096 = 0) :
    ¬(pageOf va ≤ q ∧ q < pageOf va + n) := by
  intro hcov
  have hin := (h.inRegion_iff g₁ q).mp ((h.pages g₁).taken_inRegion ht haligned hcov.1 hcov.2)
  obtain ⟨howned, hhas⟩ := h.allocPage_owned hq
  obtain rfl := regionPage_unique hhas hin
  exact (h.pages g).taken_fresh ht haligned hcov howned

lemma KernelInv.alloc_keeps_page (hlt : size < 2 ^ 64)
    (hcall : vmAlloc (root + r.mm.hhdm) size (r.space.region g₁) attrs r.mm = (.ok (va, region'), s'))
    (hok : isErrValue va = false) (hnever : failures s' = failures r.mm) (htable' : TableInv s' root T' free') :
    PageKept r.mm T s' T' q := by
  obtain ⟨frames, _, _, haligned, ht, hlen, hfresh⟩ := vmAlloc_fresh h.frames.table (h.pages g₁) hlt hcall hok hnever
  refine PageKept.congr ⟨hfresh.others q ?_, ?_⟩ (hfresh.inv.leaf_congr htable')
  · rw [hlen]
    exact h.not_taken hq ht haligned
  · intro l hl x hx
    exact hfresh.mem x fun f hf => h.frames.page_apart ⟨g, hq⟩ hl hx (hf.imp_right .inl)

lemma KernelInv.map_keeps_page (hsize : GoodSize size) (hpa : GoodRange pa size)
    (hcall : vmMap (root + r.mm.hhdm) pa size (r.space.region g₁) attrs r.mm = (.ok (va, region'), s'))
    (hnever : failures s' = failures r.mm) (htable' : TableInv s' root T' free') : PageKept r.mm T s' T' q := by
  obtain ⟨_, _, used, haligned, ht, hg, hleaf⟩ := vmMap_mapped h.frames.table (h.pages g₁) hsize hpa hcall hnever
  refine PageKept.congr ⟨?_, ?_⟩ (hg.inv.leaf_congr htable')
  · rw [hleaf, mapRange, if_neg (h.not_taken hq ht haligned)]
  · intro l hl x hx
    apply hg.mem
    intro f hf
    refine h.frames.page_apart ⟨g, hq⟩ hl hx ?_
    rcases hg.tables.mp hf with hf | hf
    · exact .inl hf
    · refine .inr (.inl ?_)
      rw [hg.split]
      exact List.mem_append_left _ hf

lemma KernelInv.free_keeps_page {a : RegionAllocation} (ha : a ∈ (r.space.region g₁).allocations) (hva : a.va ≠ 0)
    (hlive : r.live g₁ a.va = some .alloc) (hnot : ¬RegionAllocation.Covers a q)
    (hcall : vmFree (root + r.mm.hhdm) a.va (r.space.region g₁) r.mm = (.ok region', s'))
    (htable' : TableInv s' root T' free') :
    PageKept r.mm T s' T' q := by
  have hsub : ∀ p, RegionAllocation.Covers a p → r.Mine p := fun p hp => ⟨g₁, a, ha, hva, hlive, hp⟩
  obtain ⟨lent, ownedPart, hlent, hframes⟩ := h.frames.lend hsub
  obtain ⟨i, hi⟩ := List.mem_iff_getElem?.mp ha
  have hvm : VmInv free₀ (fun _ => False) (RegionAllocation.Covers a) r.mm root T (lent ++ r.held) ownedPart free
      (r.space.region g₁) := by
    refine ⟨hframes, h.pages g₁, ?_, fun p hp => ⟨a, ha, hva, hp⟩⟩
    intro p hp
    exact h.mapped g₁ p ((h.inRegion_iff g₁ p).mp hp)
  have htables : ∀ f, T.IsTable f → f ∈ ownedPart := fun f hf => (hframes.owned_iff f).mpr (.inl ⟨hf, id⟩)
  have hwithin := hvm.vmFree_within htables (fun f hf => hf) hi hva (fun p hp => hp)
  obtain ⟨s₁, region₁, freed, owned₁, hrun, -, -, -, -, hinv⟩ := hvm.vmFree_spec hi hva (fun p hp => hp)
  obtain ⟨-, rfl⟩ := Prod.mk.inj (hcall.symm.trans hrun)
  rw [hcall] at hwithin
  refine PageKept.congr ⟨if_neg hnot, ?_⟩ (hinv.frames.table.leaf_congr htable')
  intro l hl x hx
  apply hwithin.mem
  intro f hf hfx
  have hl' : l.pa ∈ lent := (hlent _).mpr ⟨q, l, ⟨⟨g, hq⟩, hnot⟩, hl, rfl⟩
  have hne : f ≠ l.pa := fun heq => hframes.not_loose_of_owned hf (heq ▸ List.mem_append_left _ hl')
  have hframe := (hframes.mem_start (List.mem_append_left _ (List.mem_append_left _ hf))).2
  have hframe' := (hframes.good _ (hframes.loose_free₀ (List.mem_append_left _ hl'))).2
  have hapart := hframe.apart hframe' hne
  unfold InPage at hx hfx
  omega

lemma KernelInv.unmap_keeps_page {a : RegionAllocation} (ha : a ∈ (r.space.region g₁).allocations) (hva : a.va ≠ 0)
    (hnot : ¬RegionAllocation.Covers a q) (hsize : size = a.pageCount * 4096)
    (hcall : vmUnmap (root + r.mm.hhdm) a.va size (r.space.region g₁) r.mm = (.ok region', s'))
    (htable' : TableInv s' root T' free') : PageKept r.mm T s' T' q := by
  obtain ⟨i, hi⟩ := List.mem_iff_getElem?.mp ha
  have hmapped : ∀ p, RegionAllocation.Covers a p → T.leaf p ≠ none := by
    intro p hp
    have howned : Owned (r.space.region g₁) p := ⟨a, ha, hva, hp⟩
    exact (h.mapped g₁ p ((h.inRegion_iff g₁ p).mp ((h.pages g₁).owned_inRegion howned))).mpr howned
  obtain ⟨s₁, region₁, hrun, hg, -, -⟩ := vmUnmap_mapped h.frames.table (h.pages g₁) hi hva hmapped hsize
  obtain ⟨-, rfl⟩ := Prod.mk.inj (hcall.symm.trans hrun)
  refine PageKept.congr ⟨if_neg hnot, ?_⟩ (hg.inv.leaf_congr htable')
  intro l hl x hx
  exact hg.mem fun f hf => h.frames.page_apart ⟨g, hq⟩ hl hx (.inl hf)

/-- A page that is still allocated was not in what has been released. -/
lemma KernelInv.not_covers {a : RegionAllocation} (ha : a ∈ (r.space.region g₁).allocations) (hva : a.va ≠ 0)
    (hr : Released (r.space.region g₁) a.va a.pageCount region')
    (hq' : AllocPage ((r.withVm g₁ ⟨s', region', Function.update (r.live g₁) a.va none⟩).vm g) q) :
    ¬RegionAllocation.Covers a q := by
  by_cases hg : g = g₁
  · subst hg
    rw [KernelRun.withVm_self] at hq'
    have hp : PageRegion (r.vm g).region := h.pages g
    exact ((allocPage_release hp hr q).mp hq').2
  · intro hcov
    have hin := (h.inRegion_iff g₁ q).mp ((h.pages g₁).owned_inRegion ⟨a, ha, hva, hcov⟩)
    exact hg (regionPage_unique (h.allocPage_owned hq).2 hin)

end Calls

section Released

variable (h : KernelInv free₀ boot r root T owned free)
include h

lemma KernelInv.freed {a : RegionAllocation} (ha : a ∈ (r.space.region g₁).allocations) (hva : a.va ≠ 0)
    (hlive : r.live g₁ a.va = some .alloc)
    (hcall : vmFree (root + r.mm.hhdm) a.va (r.space.region g₁) r.mm = (.ok region', s')) :
    Released (r.space.region g₁) a.va a.pageCount region' := by
  obtain ⟨ownedPart, hvm, -⟩ := h.region g₁
  obtain ⟨i, hi⟩ := List.mem_iff_getElem?.mp ha
  obtain ⟨s₁, region₁, freed, owned₁, hrun, -, -, hr, -, -⟩ :=
    hvm.vm.vmFree_spec hi hva (fun p hp => ⟨a, ha, hva, hlive, hp⟩)
  obtain ⟨hres, -⟩ := Prod.mk.inj (hcall.symm.trans hrun)
  obtain rfl := Except.ok.inj hres
  exact hr

lemma KernelInv.unmapped {a : RegionAllocation} (ha : a ∈ (r.space.region g₁).allocations) (hva : a.va ≠ 0)
    (hsize : size = a.pageCount * 4096)
    (hcall : vmUnmap (root + r.mm.hhdm) a.va size (r.space.region g₁) r.mm = (.ok region', s')) :
    Released (r.space.region g₁) a.va a.pageCount region' := by
  obtain ⟨i, hi⟩ := List.mem_iff_getElem?.mp ha
  have hmapped : ∀ p, RegionAllocation.Covers a p → T.leaf p ≠ none := by
    intro p hp
    have howned : Owned (r.space.region g₁) p := ⟨a, ha, hva, hp⟩
    exact (h.mapped g₁ p ((h.inRegion_iff g₁ p).mp ((h.pages g₁).owned_inRegion howned))).mpr howned
  obtain ⟨s₁, region₁, hrun, -, hr, -⟩ := vmUnmap_mapped h.frames.table (h.pages g₁) hi hva hmapped hsize
  obtain ⟨hres, -⟩ := Prod.mk.inj (hcall.symm.trans hrun)
  obtain rfl := Except.ok.inj hres
  exact hr

end Released

/-- **Allocated pages are kept** by every call. -/
lemma KernelInv.call_keeps (h : KernelInv free₀ boot r root T owned free) (hcall : KernelCall r r')
    (hnever : failures r'.mm = failures r.mm) (htable' : TableInv r'.mm root T' free') (hq : AllocPage (r.vm g) q)
    (hq' : AllocPage (r'.vm g) q) : PageKept r.mm T r'.mm T' q := by
  have htable := h.table
  cases hcall with
  | alloc hsize hcall hok =>
    obtain ⟨region, hrun, rfl⟩ := setRegion_pair hcall
    rw [htable] at hrun
    exact h.alloc_keeps_page hq hsize hrun hok hnever htable'
  | @free g₁ va k s hlive hcall =>
    obtain ⟨region, hrun, rfl⟩ := setRegion_single hcall
    rw [htable] at hrun
    obtain ⟨a, ha, rfl, hva, -⟩ := h.live g₁ _ _ hlive
    have hr := h.freed ha hva hlive hrun
    exact h.free_keeps_page hq ha hva hlive (h.not_covers hq ha hva hr hq') hrun htable'
  | @memMap pa size va k s hpos hpa hend hcall hok =>
    obtain ⟨region, hrun, rfl⟩ := setRegion_pair hcall
    rw [htable, vmMap_pagesSize] at hrun
    have hsize := pagesSize_eq hpos (by omega)
    exact h.map_keeps_page hq (goodSize_pagesSize hpos (by omega)) ⟨hpa, by omega⟩ hrun hnever htable'
  | @memUnmap size va k s hlt hlive hcall =>
    obtain ⟨region, hrun, rfl⟩ := setRegion_single hcall
    rw [htable, vmUnmap_pagesSize] at hrun
    obtain ⟨a, ha, rfl, hva, hsize⟩ := h.live .mem _ _ hlive
    have hr := h.unmapped ha hva (hsize _ rfl) hrun
    exact h.unmap_keeps_page hq ha hva (h.not_covers hq ha hva hr hq') (hsize _ rfl) hrun htable'
  | @mmioMap pa size va k s hpos hend hcall hok =>
    obtain ⟨region, hrun, rfl⟩ := setRegion_pair hcall
    rw [htable] at hrun
    obtain ⟨start, hmap, -⟩ := vmMmioMap_ok hpos hend hrun hok
    exact h.map_keeps_page hq ⟨by omega, by omega, by omega⟩ ⟨by omega, by omega⟩ hmap hnever htable'
  | @mmioUnmap size va k s hpos hlt hlive hcall =>
    obtain ⟨region, hrun, rfl⟩ := setRegion_single hcall
    obtain ⟨a, ha, haddr, hne, hsize⟩ := h.live .mmio _ _ hlive
    have hva : a.va ≠ 0 := haddr ▸ hne
    rw [htable, vmMmioUnmap_pages (h.pages .mmio) ha hva haddr hpos hlt, ← haddr] at hrun
    have hr := h.unmapped ha hva (hsize _ rfl) hrun
    rw [← haddr] at hq'
    exact h.unmap_keeps_page hq ha hva (h.not_covers hq ha hva hr hq') (hsize _ rfl) hrun htable'
  | @take f s hcall hok =>
    cases free with
    | nil =>
      rw [pmmAlloc_nil h.frames.table.pmm] at hcall
      obtain rfl := Except.ok.inj (Prod.mk.inj hcall).1
      rw [isErrValue_errToPtr] at hok
      cases hok
    | cons f free =>
      rw [pmmAlloc_cons h.frames.table.pmm] at hcall
      obtain ⟨-, rfl⟩ := Prod.mk.inj hcall
      refine PageKept.congr ⟨rfl, ?_⟩ (h.frames.table.take.leaf_congr htable')
      intro l hl x hx
      have hnot := h.frames.page_apart ⟨g, hq⟩ hl hx (.inr (.inl List.mem_cons_self))
      have hwithin : Within [f] r.mm (takeFrame r.mm f) := takeFrame_within List.mem_cons_self
      exact hwithin.mem x (by simpa using hnot)
  | @give f s hf hcall =>
    have hframe := (h.frames.good f (h.frames.loose_free₀ hf)).2
    rw [pmmFree_ok hframe] at hcall
    obtain ⟨-, rfl⟩ := Prod.mk.inj hcall
    refine PageKept.congr ⟨rfl, ?_⟩ ((h.frames.give hf).table.leaf_congr htable')
    intro l hl x hx
    have hnot := h.frames.page_apart ⟨g, hq⟩ hl hx (.inr (.inr hf))
    have hwithin : Within [f] r.mm (giveFrame r.mm f) := giveFrame_within List.mem_cons_self
    exact hwithin.mem x (by simpa using hnot)

end KaworuOS.Proofs
