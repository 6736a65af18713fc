import KaworuOS.Proofs.KernelSpace

/-!
# Protection in the kernel's address space

From the boot on, in any order of calls on the two regions, of allocations of frames and of writes into frames, the upper
half of the address space maps the pieces of the boot, the live allocations of the regions, and nothing else. Only the
text can be executed, and nobody can write into it there.
-/

namespace KaworuOS.Proofs
open Lib

/-- The kernel's address space in a run, with the results that the callers hold for each region, and the frames that others
have taken from `pmm`. -/
structure KernelRun where
  mm : Mm
  space : KernelSpace
  live : KernelRegion → Nat → Option VmResult
  held : List Nat

namespace KernelRun

/-- What the calls on one region work on. -/
def vm (r : KernelRun) (g : KernelRegion) : Vm := ⟨r.mm, r.space.region g, r.live g⟩

/-- The state after a call on one region. -/
def withVm (r : KernelRun) (g : KernelRegion) (v : Vm) : KernelRun :=
  { r with mm := v.mm, space := r.space.setRegion g v.region, live := Function.update r.live g v.live }

/-- The state after a call that returned the space `k`, and was about the result `va` of the region. -/
def after (r : KernelRun) (g : KernelRegion) (s : Mm) (k : KernelSpace) (va : Nat) (res : Option VmResult) :
    KernelRun :=
  { r with mm := s, space := k, live := Function.update r.live g (Function.update (r.live g) va res) }

/-- The frame belongs to a live result of `vm_alloc_mem` or `vm_alloc_mmio`. -/
def Allocated (r : KernelRun) (f : Nat) : Prop :=
  ∃ g va, va % 4096 = 0 ∧ InRange (r.space.region g) va ∧ AllocPage (r.vm g) (pageOf va) ∧
    pagingLookup r.space.kernelPageTable va r.mm = (.ok f, r.mm)

/-- The state with another memory. -/
def wrote (r : KernelRun) (mem : Mem) : KernelRun := { r with mm := { r.mm with mem := mem } }

/-- The kernel after `vm_init`. -/
def booted (k : KernelSpace) (s : Mm) : KernelRun := ⟨s, k, fun _ _ => none, [k.kernelUserTable - s.hhdm]⟩

end KernelRun

/-- A call on a region, or one of others on `pmm`, that does not fail. -/
inductive KernelCall : KernelRun → KernelRun → Prop
  | alloc {r : KernelRun} {g : KernelRegion} {size va : Nat} {k : KernelSpace} {s : Mm} (hsize : size < 2 ^ 64)
      (hcall : r.space.alloc g size r.mm = (.ok (va, k), s)) (hok : isErrValue va = false) :
      KernelCall r (r.after g s k va (some .alloc))
  | free {r : KernelRun} {g : KernelRegion} {va : Nat} {k : KernelSpace} {s : Mm} (hlive : r.live g va = some .alloc)
      (hcall : r.space.free g va r.mm = (.ok k, s)) : KernelCall r (r.after g s k va none)
  | memMap {r : KernelRun} {pa size va : Nat} {k : KernelSpace} {s : Mm} (hpos : 0 < size) (hpa : pa % 4096 = 0)
      (hend : pa + size + 4096 ≤ 2 ^ 48) (hcall : r.space.vmMemMap pa size r.mm = (.ok (va, k), s))
      (hok : isErrValue va = false) : KernelCall r (r.after .mem s k va (some (.map (pagesSize size))))
  | memUnmap {r : KernelRun} {size va : Nat} {k : KernelSpace} {s : Mm} (hlt : size < 2 ^ 64)
      (hlive : r.live .mem va = some (.map (pagesSize size))) (hcall : r.space.vmMemUnmap va size r.mm = (.ok k, s)) :
      KernelCall r (r.after .mem s k va none)
  | mmioMap {r : KernelRun} {pa size va : Nat} {k : KernelSpace} {s : Mm} (hpos : 0 < size)
      (hend : pa + size + 4096 ≤ 2 ^ 48) (hcall : r.space.mmioMap pa size r.mm = (.ok (va, k), s))
      (hok : isErrValue va = false) :
      KernelCall r (r.after .mmio s k (va - va % 4096) (some (.map (pagesSize (size + va % 4096)))))
  | mmioUnmap {r : KernelRun} {size va : Nat} {k : KernelSpace} {s : Mm} (hpos : 0 < size) (hlt : size + 8192 ≤ 2 ^ 64)
      (hlive : r.live .mmio (va - va % 4096) = some (.map (pagesSize (size + va % 4096))))
      (hcall : r.space.mmioUnmap va size r.mm = (.ok k, s)) : KernelCall r (r.after .mmio s k (va - va % 4096) none)
  | take {r : KernelRun} {f : Nat} {s : Mm} (hcall : pmmAlloc r.mm = (.ok f, s)) (hok : isErrValue f = false) :
      KernelCall r { r with mm := s, held := f :: r.held }
  | give {r : KernelRun} {f : Nat} {s : Mm} (hf : f ∈ r.held) (hcall : pmmFree f r.mm = (.ok (), s)) :
      KernelCall r { r with mm := s, held := r.held.erase f }

/-- The steps of a run: a call, or writes into frames that somebody has. -/
inductive KernelStep : KernelRun → KernelRun → Prop
  | call {r r' : KernelRun} (hcall : KernelCall r r') : KernelStep r r'
  | write {r : KernelRun} {mem : Mem}
      (hmem : ∀ x, (∀ f, f ∈ r.held ∨ r.Allocated f → ¬InPage r.mm.hhdm f x) → mem x = r.mm.mem x) :
      KernelStep r (r.wrote mem)

/-- The page lies in the range of the region. -/
def RegionPage (g : KernelRegion) (q : Nat) : Prop := InRegion g.storage q

lemma regionPage_mem {q : Nat} : RegionPage .mem q ↔ 0xffffa0000 ≤ q ∧ q < 0xffffa0000 + 2 ^ 18 := Iff.rfl

lemma regionPage_mmio {q : Nat} : RegionPage .mmio q ↔ 0xffff90000 ≤ q ∧ q < 0xffff90000 + 2 ^ 16 := Iff.rfl

lemma regionPage_unique {g g' : KernelRegion} {q : Nat} (h : RegionPage g q) (h' : RegionPage g' q) : g = g' := by
  cases g with
  | mem =>
    cases g' with
    | mem => rfl
    | mmio =>
      rw [regionPage_mem] at h
      rw [regionPage_mmio] at h'
      omega
  | mmio =>
    cases g' with
    | mem =>
      rw [regionPage_mmio] at h
      rw [regionPage_mem] at h'
      omega
    | mmio => rfl

/-- The page belongs to a result of `vm_alloc_mem` or `vm_alloc_mmio`. -/
def KernelRun.Mine (r : KernelRun) (q : Nat) : Prop := ∃ g, AllocPage (r.vm g) q

/-- The invariant of a run. -/
structure KernelInv (free₀ : List Nat) (boot : Nat → Option Leaf) (r : KernelRun) (root : Nat) (T : Tree)
    (owned free : List Nat) : Prop where
  table : r.space.kernelPageTable = root + r.mm.hhdm
  frames : FramesInv free₀ (fun _ => False) r.Mine r.mm root T r.held owned free
  pages : ∀ g, PageRegion (r.space.region g)
  range : ∀ g, (r.space.region g).allocator.pool = g.storage.allocator.pool ∧
    (r.space.region g).allocator.pageCount = g.storage.allocator.pageCount
  mapped : ∀ g q, RegionPage g q → (T.leaf q ≠ none ↔ Owned (r.space.region g) q)
  live : ∀ g, HeldLive (r.vm g)
  attrs : ∀ g q l, RegionPage g q → T.leaf q = some l → l.attrs = g.attrs
  boot : ∀ q, (∀ g, ¬RegionPage g q) → T.leaf q = boot q

variable {s s' : Mm} {root f : Nat} {T T' : Tree} {free free' free₀ owned : List Nat} {boot : Nat → Option Leaf}
  {r r' : KernelRun} {g : KernelRegion}

lemma KernelRun.withVm_self (v' : Vm) : (r.withVm g v').vm g = v' := by
  unfold KernelRun.vm KernelRun.withVm KernelSpace.setRegion
  simp only [Function.update_self]

lemma KernelRun.withVm_of_ne {g' : KernelRegion} (v' : Vm) (hg : g' ≠ g) :
    (r.withVm g v').vm g' = ⟨v'.mm, r.space.region g', r.live g'⟩ := by
  unfold KernelRun.vm KernelRun.withVm KernelSpace.setRegion
  simp only [Function.update_of_ne hg]

/-- What holds of the region with the call and of the others holds of all. -/
lemma KernelRun.forall_withVm {P : KernelRegion → Vm → Prop} {v' : Vm} (hhere : P g v')
    (hthere : ∀ g', g' ≠ g → P g' ⟨v'.mm, r.space.region g', r.live g'⟩) (g' : KernelRegion) :
    P g' ((r.withVm g v').vm g') := by
  by_cases hg : g' = g
  · subst hg
    rw [KernelRun.withVm_self]
    exact hhere
  · rw [KernelRun.withVm_of_ne v' hg]
    exact hthere g' hg

section Inv

variable (h : KernelInv free₀ boot r root T owned free)
include h

lemma KernelInv.inRegion_iff (g : KernelRegion) (q : Nat) : InRegion (r.space.region g) q ↔ RegionPage g q := by
  unfold RegionPage InRegion
  rw [(h.range g).1, (h.range g).2]

lemma KernelInv.allocPage_owned {q : Nat} (hq : AllocPage (r.vm g) q) :
    Owned (r.space.region g) q ∧ RegionPage g q := by
  obtain ⟨a, ha, hva, -, hcov⟩ := hq
  have howned : Owned (r.space.region g) q := ⟨a, ha, hva, hcov⟩
  exact ⟨howned, (h.inRegion_iff g q).mp ((h.pages g).owned_inRegion howned)⟩

/-- One region, with the frames that its pages have, satisfies the invariant of `vmm.c`. What a call makes of it, the
whole kernel keeps. -/
lemma KernelInv.region (g : KernelRegion) : ∃ ownedPart,
    VmRunInv (ownedPart ++ free) (fun _ => False) root (r.vm g) T ownedPart free ∧
    ∀ {v'}, VmCall root T g.attrs (r.vm g) v' → failures v'.mm = failures r.mm →
      ∃ T' owned' free', v'.mm.hhdm = r.mm.hhdm ∧ KernelInv free₀ boot (r.withVm g v') root T' owned' free' := by
  have hsub : ∀ q, AllocPage (r.vm g) q → r.Mine q := fun q hq => ⟨g, hq⟩
  obtain ⟨ownedPart, hpart, hback⟩ := h.frames.on_part hsub
  have hvm : VmRunInv (ownedPart ++ free) (fun _ => False) root (r.vm g) T ownedPart free := by
    refine ⟨⟨hpart, h.pages g, ?_, fun q hq => (h.allocPage_owned hq).1⟩, h.live g⟩
    intro q hq
    exact h.mapped g q ((h.inRegion_iff g q).mp hq)
  refine ⟨ownedPart, hvm, ?_⟩
  rintro v' ⟨hstep, T₁, free₁, htable₁, hconf⟩ hnever
  obtain ⟨T', ownedPart', free', hvm', hhdm⟩ := hvm.step hstep hnever
  have hleaf : T₁.leaf = T'.leaf := hvm'.vm.frames.table.leaf_congr htable₁
  have hpages : ∀ q, T'.leaf q = T.leaf q ∨ (RegionPage g q ∧ ∀ l, T'.leaf q = some l → l.attrs = g.attrs) := by
    intro q
    rw [← hleaf, ← h.inRegion_iff g q]
    exact hconf.pages q
  have hother : ∀ {q}, ¬RegionPage g q → T'.leaf q = T.leaf q :=
    fun hq => (hpages _).resolve_right (fun hin => hq hin.1)
  obtain ⟨owned', hframes⟩ := hback hhdm hvm'.vm.frames (by
    rintro q ⟨g', hq⟩ hnot
    apply hother
    intro hin
    obtain rfl := regionPage_unique hin (h.allocPage_owned hq).2
    exact hnot hq)
  refine ⟨T', owned', free', hhdm, ?_⟩
  constructor
  case table =>
    rw [show (r.withVm g v').mm.hhdm = r.mm.hhdm from hhdm]
    exact h.table
  case frames =>
    apply hframes.congr_mine
    intro q
    constructor
    · rintro (hq | ⟨⟨g', hq⟩, hnot⟩)
      · exact ⟨g, by rwa [KernelRun.withVm_self]⟩
      · have hg : g' ≠ g := fun hg => hnot (hg ▸ hq)
        exact ⟨g', by rw [KernelRun.withVm_of_ne v' hg]; exact hq⟩
    · rintro ⟨g', hq⟩
      revert hq
      apply KernelRun.forall_withVm (P :=
        fun g' w => AllocPage w q → AllocPage v' q ∨ (r.Mine q ∧ ¬AllocPage (r.vm g) q))
      · exact .inl
      · intro g' hg hq
        refine .inr ⟨⟨g', hq⟩, fun hpart' => hg ?_⟩
        exact regionPage_unique (h.allocPage_owned (g := g') hq).2 (h.allocPage_owned hpart').2
  case pages =>
    exact KernelRun.forall_withVm (P := fun _ w => PageRegion w.region) hvm'.vm.pages (fun g' _ => h.pages g')
  case range =>
    apply KernelRun.forall_withVm (P := fun g' w => w.region.allocator.pool = g'.storage.allocator.pool ∧
      w.region.allocator.pageCount = g'.storage.allocator.pageCount)
    · exact ⟨hconf.range.1.trans (h.range g).1, hconf.range.2.trans (h.range g).2⟩
    · exact fun g' _ => h.range g'
  case mapped =>
    intro g' q
    apply KernelRun.forall_withVm (P := fun g' w => RegionPage g' q → (T'.leaf q ≠ none ↔ Owned w.region q))
    · intro hq
      apply hvm'.vm.mapped
      unfold InRegion
      rw [hconf.range.1, hconf.range.2]
      exact (h.inRegion_iff g q).mpr hq
    · intro g' hg hq
      rw [hother (fun hin => hg (regionPage_unique hq hin))]
      exact h.mapped g' q hq
  case live => exact KernelRun.forall_withVm (P := fun _ w => HeldLive w) hvm'.held (fun g' _ => h.live g')
  case attrs =>
    intro g' q l hq hl
    rcases hpages q with hsame | ⟨hin, hattrs⟩
    · exact h.attrs g' q l hq (hsame ▸ hl)
    · rw [regionPage_unique hq hin]
      exact hattrs l hl
  case boot =>
    intro q hq
    rw [hother (hq g)]
    exact h.boot q hq

end Inv

section Step

variable {k k' : KernelSpace} {va : Nat} {res : Option VmResult}

/-- A call that returns an address has changed its region. -/
lemma setRegion_pair {x : Kernel (Nat × AllocRegion)}
    (h : (do let (va, region) ← x; return (va, k.setRegion g region) :
      Kernel (Nat × KernelSpace)) s = (.ok (va, k'), s')) :
    ∃ region, x s = (.ok (va, region), s') ∧ k' = k.setRegion g region := by
  obtain ⟨⟨va', region⟩, s₁, hx, hret⟩ := Call.ok_of_bind h
  obtain ⟨hres, rfl⟩ := Prod.mk.inj hret
  obtain ⟨rfl, rfl⟩ := Prod.mk.inj (Except.ok.inj hres)
  exact ⟨region, hx, rfl⟩

lemma setRegion_single {x : Kernel AllocRegion}
    (h : (do let region ← x; return k.setRegion g region : Kernel KernelSpace) s = (.ok k', s')) :
    ∃ region, x s = (.ok region, s') ∧ k' = k.setRegion g region := by
  obtain ⟨region, s₁, hx, hret⟩ := Call.ok_of_bind h
  obtain ⟨hres, rfl⟩ := Prod.mk.inj hret
  obtain rfl := Except.ok.inj hres
  exact ⟨region, hx, rfl⟩

lemma KernelCall.failures_le (h : KernelCall r r') : failures r.mm ≤ failures r'.mm := by
  cases h with
  | alloc hsize hcall hok =>
    obtain ⟨region, hrun, -⟩ := setRegion_pair hcall
    exact (mono_vmAlloc _ _ _ _).le hrun
  | free hlive hcall =>
    obtain ⟨region, hrun, -⟩ := setRegion_single hcall
    exact (mono_vmFree _ _ _).le hrun
  | memMap hpos hpa hend hcall hok =>
    obtain ⟨region, hrun, -⟩ := setRegion_pair hcall
    exact (mono_vmMap _ _ _ _ _).le hrun
  | memUnmap _ hlive hcall =>
    obtain ⟨region, hrun, -⟩ := setRegion_single hcall
    exact (mono_vmUnmap _ _ _ _).le hrun
  | mmioMap hpos hend hcall hok =>
    obtain ⟨region, hrun, -⟩ := setRegion_pair hcall
    obtain ⟨start, hmap, -⟩ := vmMmioMap_ok hpos hend hrun hok
    exact (mono_vmMap _ _ _ _ _).le hmap
  | mmioUnmap hpos hlt hlive hcall =>
    obtain ⟨region, hrun, -⟩ := setRegion_single hcall
    exact (mono_vmUnmap _ _ _ _).le hrun
  | take hcall hok => exact mono_pmmAlloc.le hcall
  | give hf hcall => exact (mono_pmmFree _).le hcall

lemma KernelStep.failures_le (h : KernelStep r r') : failures r.mm ≤ failures r'.mm := by
  cases h with
  | call hcall => exact hcall.failures_le
  | write hmem => exact Nat.le_refl _

lemma KernelStep.run_failures_le (hrun : Relation.ReflTransGen KernelStep r r') : failures r.mm ≤ failures r'.mm := by
  induction hrun with
  | refl => exact Nat.le_refl _
  | tail _ hstep ih => exact Nat.le_trans ih hstep.failures_le

/-- The frame of a live result of `vm_alloc_mem` or `vm_alloc_mmio` is the frame of one of the pages that are `Mine`. -/
lemma KernelInv.allocated (h : KernelInv free₀ boot r root T owned free) (hf : r.Allocated f) :
    ∃ q l, r.Mine q ∧ T.leaf q = some l ∧ l.pa = f := by
  obtain ⟨g, va, haligned, hva, hpage, hlookup⟩ := hf
  obtain ⟨howned, hhas⟩ := h.allocPage_owned hpage
  obtain ⟨l, hl⟩ := Option.ne_none_iff_exists'.mp ((h.mapped g _ hhas).mpr howned)
  rw [h.table, pagingLookup_leaf h.frames.table haligned hl] at hlookup
  exact ⟨pageOf va, l, ⟨g, hpage⟩, hl, Except.ok.inj (Prod.mk.inj hlookup).1⟩

lemma KernelInv.call (h : KernelInv free₀ boot r root T owned free) (hcall : KernelCall r r')
    (hnever : failures r'.mm = failures r.mm) :
    ∃ T' owned' free', r'.mm.hhdm = r.mm.hhdm ∧ KernelInv free₀ boot r' root T' owned' free' := by
  have htable := h.table
  cases hcall with
  | @alloc g size va k s hsize hcall hok =>
    obtain ⟨region, hrun, rfl⟩ := setRegion_pair hcall
    obtain ⟨ownedPart, hvm, hback⟩ := h.region g
    rw [htable] at hrun
    exact hback (hvm.alloc_call hsize hrun hok hnever) hnever
  | @free g va k s hlive hcall =>
    obtain ⟨region, hrun, rfl⟩ := setRegion_single hcall
    obtain ⟨ownedPart, hvm, hback⟩ := h.region g
    rw [htable] at hrun
    exact hback (hvm.free_call hlive hrun) hnever
  | memMap hpos hpa hend hcall hok =>
    obtain ⟨region, hrun, rfl⟩ := setRegion_pair hcall
    obtain ⟨ownedPart, hvm, hback⟩ := h.region .mem
    rw [htable] at hrun
    exact hback (hvm.map_call hpos hpa hend hrun hok hnever) hnever
  | memUnmap _ hlive hcall =>
    obtain ⟨region, hrun, rfl⟩ := setRegion_single hcall
    obtain ⟨ownedPart, hvm, hback⟩ := h.region .mem
    rw [htable] at hrun
    exact hback (hvm.unmap_call hlive hrun) hnever
  | mmioMap hpos hend hcall hok =>
    obtain ⟨region, hrun, rfl⟩ := setRegion_pair hcall
    obtain ⟨ownedPart, hvm, hback⟩ := h.region .mmio
    rw [htable] at hrun
    exact hback (hvm.mmioMap_call hpos hend hrun hok hnever) hnever
  | mmioUnmap hpos hlt hlive hcall =>
    obtain ⟨region, hrun, rfl⟩ := setRegion_single hcall
    obtain ⟨ownedPart, hvm, hback⟩ := h.region .mmio
    rw [htable] at hrun
    exact hback (hvm.mmioUnmap_call hlive hpos hlt hrun) hnever
  | @take f s hcall hok =>
    cases free with
    | nil =>
      rw [pmmAlloc_nil h.frames.table.pmm] at hcall
      obtain rfl := Except.ok.inj (Prod.mk.inj hcall).1
      rw [isErrValue_errToPtr] at hok
      cases hok
    | cons g free =>
      rw [pmmAlloc_cons h.frames.table.pmm] at hcall
      obtain ⟨hres, rfl⟩ := Prod.mk.inj hcall
      obtain rfl := Except.ok.inj hres
      exact ⟨T, owned, free, rfl, h.table, h.frames.take rfl, h.pages, h.range, h.mapped, h.live, h.attrs, h.boot⟩
  | @give f s hf hcall =>
    rw [pmmFree_ok (h.frames.good f (h.frames.loose_free₀ hf)).2] at hcall
    obtain ⟨-, rfl⟩ := Prod.mk.inj hcall
    exact ⟨T, owned, f :: free, rfl, h.table, h.frames.give hf, h.pages, h.range, h.mapped, h.live, h.attrs, h.boot⟩

/-- Writes into the frames that somebody has change nothing but the memory. -/
lemma KernelInv.wrote (h : KernelInv free₀ boot r root T owned free) {mem : Mem}
    (hmem : ∀ x, (∀ f, f ∈ r.held ∨ r.Allocated f → ¬InPage r.mm.hhdm f x) → mem x = r.mm.mem x) :
    KernelInv free₀ boot (r.wrote mem) root T owned free := by
  have hframes := h.frames.write fun x hx => hmem x fun f hf => hx f (hf.imp_right h.allocated)
  exact ⟨h.table, hframes, h.pages, h.range, h.mapped, h.live, h.attrs, h.boot⟩

lemma KernelInv.step (h : KernelInv free₀ boot r root T owned free) (hstep : KernelStep r r')
    (hnever : failures r'.mm = failures r.mm) :
    ∃ T' owned' free', r'.mm.hhdm = r.mm.hhdm ∧ KernelInv free₀ boot r' root T' owned' free' := by
  cases hstep with
  | call hcall => exact h.call hcall hnever
  | write hmem => exact ⟨T, owned, free, rfl, h.wrote hmem⟩

lemma KernelInv.run (h : KernelInv free₀ boot r root T owned free) (hrun : Relation.ReflTransGen KernelStep r r')
    (hnever : failures r'.mm = failures r.mm) : ∃ T' owned' free', KernelInv free₀ boot r' root T' owned' free' := by
  refine run_inv_of_const (I := fun w => ∃ T' owned' free', KernelInv free₀ boot w root T' owned' free')
    (m := fun w => failures w.mm) KernelStep.failures_le ?_ ⟨T, owned, free, h⟩ hrun hnever
  rintro u w ⟨T', owned', free', hinv⟩ hstep hsame
  obtain ⟨T₂, owned₂, free₂, -, hinv₂⟩ := hinv.step hstep hsame
  exact ⟨T₂, owned₂, free₂, hinv₂⟩

end Step

/-- The address is in the half that the kernel's table translates. -/
def Upper (va : Nat) : Prop := 2 ^ 64 - 2 ^ 48 ≤ va ∧ va < 2 ^ 64

lemma Upper.pageOf_eq {va : Nat} (h : Upper va) : pageOf va = (va - (2 ^ 64 - 2 ^ 48)) / 4096 := by
  obtain ⟨h1, h2⟩ := h
  unfold pageOf
  omega

section Boot

variable {resp : LimineResponses} {memmap : Memmap} {image : KernelImage} {k : KernelSpace} {a : MapArgs}
  {va user : Nat}
  {M : Nat → Option Leaf}

lemma MapArgs.Fits.upper (h : a.Fits) : Upper a.va := by
  have h1 := h.low
  have h2 := h.high
  exact ⟨h1, by omega⟩

lemma MapArgs.piece_has (hfits : a.Fits) (haligned : a.Aligned) (hva : Upper va) :
    a.piece.has (pageOf va) ↔ a.Has va := by
  have h1 := hfits.low
  have h2 := hfits.high
  obtain ⟨-, h3, h4⟩ := haligned
  obtain ⟨h5, h6⟩ := hva
  show pageOf a.va ≤ pageOf va ∧ pageOf va < pageOf a.va + a.size / 4096 ↔ a.va ≤ va ∧ va < a.va + a.size
  rw [hfits.upper.pageOf_eq, Upper.pageOf_eq ⟨h5, h6⟩]
  omega

lemma MapArgs.piece_value (hfits : a.Fits) (haligned : a.Aligned) (hva : Upper va) (hhas : a.Has va) :
    a.piece.value (pageOf va) = a.leafAt va := by
  have h1 := hfits.low
  obtain ⟨-, h3, h4⟩ := haligned
  obtain ⟨h5, h6⟩ := hhas
  show Leaf.mk (a.pa + (pageOf va - pageOf a.va) * 4096) a.attrs = _
  rw [hfits.upper.pageOf_eq, hva.pageOf_eq, MapArgs.leafAt]
  congr 3
  omega

lemma regionInit_storage (g : KernelRegion) :
    PageRegion (regionInit g.storage) ∧ ∀ q, ¬Owned (regionInit g.storage) q := by
  have hspan : ∀ {addr size : Nat}, 0 < addr → Span addr (size / PAGE_SIZE) →
      PageRegion (regionInit (staticAllocVmRegion addr size)) ∧
        ∀ q, ¬Owned (regionInit (staticAllocVmRegion addr size)) q := by
    intro addr size hpos hspan
    unfold regionInit staticAllocVmRegion
    rw [List.map_replicate]
    exact ⟨emptyRegion _ hpos hspan _, fun q => emptyRegion_owned⟩
  cases g with
  | mem => exact hspan (by decide) ⟨by decide, by decide, by decide⟩
  | mmio => exact hspan (by decide) ⟨by decide, by decide, by decide⟩

/-- The boot maps nothing in the regions. -/
lemma Booted.not_regionPage (h : Booted resp memmap image k s user root M) (hgood : GoodBoot resp memmap image s')
    {q : Nat} (hq : RegionPage g q) : M q = none := by
  by_contra hsome
  obtain ⟨l, hl⟩ := Option.ne_none_iff_exists'.mp hsome
  rcases h.adds.some_iff.mp hl with hold | ⟨p, hp, hhas, -⟩
  · cases hold
  · obtain ⟨a, ha, rfl⟩ := List.mem_map.mp hp
    obtain ⟨-, hpage⟩ : pageOf a.va ≤ q ∧ q < pageOf a.va + a.size / 4096 := hhas
    have hfits := hgood.fits a ha
    have hbelow := hgood.below a ha
    have hlow := hfits.low
    rw [hfits.upper.pageOf_eq] at hpage
    unfold KERNEL_MMIO_RANGE_START at hbelow
    cases g with
    | mem =>
      have h1 := (regionPage_mem.mp hq).1
      omega
    | mmio =>
      have h1 := (regionPage_mmio.mp hq).1
      omega

lemma Booted.inv (h : Booted resp memmap image k s user root M) (hgood : GoodBoot resp memmap image s') :
    ∃ free₀ T owned free, (∀ f, f ∈ free₀ ↔ IsMapFrame memmap.table f) ∧
      KernelInv free₀ M (KernelRun.booted k s) root T owned free := by
  obtain ⟨free₀, hfree₀, T, owned, free, hframes, rfl⟩ := h.holds
  refine ⟨free₀, T, owned, free, hfree₀, ?_⟩
  constructor
  case table => exact h.table
  case frames =>
    have hheld : (KernelRun.booted k s).held = [user] := by
      show [k.kernelUserTable - s.hhdm] = [user]
      rw [h.userTable, Nat.add_sub_cancel]
    rw [hheld]
    apply hframes.congr_mine
    intro q
    constructor
    · exact False.elim
    · rintro ⟨g, a, -, -, hlive, -⟩
      cases hlive
  case pages =>
    intro g
    show PageRegion (k.region g)
    rw [h.region]
    exact (regionInit_storage g).1
  case range =>
    intro g
    show (k.region g).allocator.pool = _ ∧ (k.region g).allocator.pageCount = _
    rw [h.region]
    exact ⟨rfl, rfl⟩
  case mapped =>
    intro g q hq
    show _ ↔ Owned (k.region g) q
    rw [h.region]
    exact ⟨fun hsome => absurd (h.not_regionPage hgood hq) hsome,
      fun howned => absurd howned ((regionInit_storage g).2 q)⟩
  case live =>
    intro g va res hlive
    cases hlive
  case attrs =>
    intro g q l hq hl
    rw [h.not_regionPage hgood hq] at hl
    cases hl
  case boot => exact fun q _ => rfl

end Boot

end KaworuOS.Proofs
