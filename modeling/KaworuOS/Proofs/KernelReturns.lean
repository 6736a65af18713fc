import KaworuOS.Proofs.KernelSpaceRun

/-!
# The loaded table and the calls on the regions

From `vm_init` on, the kernel's accesses are translated by its own table. That table maps each frame of the memory map to
its place in the direct map, so that tables, free frames and pages are found where they were before. No call on a region
stops, whatever the size and alignment of its request.
-/

namespace KaworuOS.Proofs
open Lib

variable {s s₀ : Mm} {root user va : Nat} {T : Tree} {free free₀ owned : List Nat} {M : Nat → Option Leaf}
  {r r' : KernelRun}
  {g : KernelRegion} {resp : LimineResponses} {memmap : Memmap} {image : KernelImage} {k : KernelSpace}

section Loaded

/-- No call writes to `TTBR1_EL1`, or moves the table. -/
lemma KernelStep.loaded (h : KernelStep r r') :
    r'.space.ttbr1 = r.space.ttbr1 ∧ r'.space.kernelPageTable = r.space.kernelPageTable := by
  cases h with
  | write hmem => exact ⟨rfl, rfl⟩
  | call hcall =>
    cases hcall with
    | alloc hsize hcall hok =>
      obtain ⟨region, -, rfl⟩ := setRegion_pair hcall
      exact ⟨rfl, rfl⟩
    | free hlive hcall =>
      obtain ⟨region, -, rfl⟩ := setRegion_single hcall
      exact ⟨rfl, rfl⟩
    | memMap hpos hpa hend hcall hok =>
      obtain ⟨region, -, rfl⟩ := setRegion_pair hcall
      exact ⟨rfl, rfl⟩
    | memUnmap hlt hlive hcall =>
      obtain ⟨region, -, rfl⟩ := setRegion_single hcall
      exact ⟨rfl, rfl⟩
    | mmioMap hpos hend hcall hok =>
      obtain ⟨region, -, rfl⟩ := setRegion_pair hcall
      exact ⟨rfl, rfl⟩
    | mmioUnmap hpos hlt hlive hcall =>
      obtain ⟨region, -, rfl⟩ := setRegion_single hcall
      exact ⟨rfl, rfl⟩
    | take hcall hok => exact ⟨rfl, rfl⟩
    | give hf hcall => exact ⟨rfl, rfl⟩

lemma KernelStep.run_loaded (hrun : Relation.ReflTransGen KernelStep r r') :
    r'.space.ttbr1 = r.space.ttbr1 ∧ r'.space.kernelPageTable = r.space.kernelPageTable := by
  induction hrun with
  | refl => exact ⟨rfl, rfl⟩
  | tail _ hstep ih => exact ⟨hstep.loaded.1.trans ih.1, hstep.loaded.2.trans ih.2⟩

end Loaded

section Direct

/-- The boot loader reports no memory that holds ACPI tables. `pmm_init` hands such memory out, and `paging_kernel_init`
does not map it. -/
def NoAcpiReclaimable (resp : LimineResponses) : Prop :=
  ∀ entry ∈ resp.entries, entry.type ≠ LIMINE_MEMMAP_ACPI_RECLAIMABLE

/-- The entry of a frame of the memory map is one that `paging_kernel_init` maps. -/
lemma bootCalls_frame (image : KernelImage) (hsaved : memmapSaveInit resp = .ok memmap)
    (hacpi : NoAcpiReclaimable resp) {f : Nat}
    (hf : IsMapFrame memmap.table f) :
    ∃ entry ∈ resp.entries, f % 4096 = 0 ∧ entry.base ≤ f ∧ f + 4096 ≤ entry.base + entry.length ∧
      ⟨wadd entry.base memmap.hddmOffset, entry.base, entry.length, dataPageAttrs⟩ ∈ bootCalls resp memmap image := by
  obtain ⟨e, he, halloc, haligned, hbase, hend⟩ := hf
  unfold memmapSaveInit at hsaved
  split at hsaved
  · cases hsaved
  obtain rfl := Except.ok.inj hsaved
  obtain ⟨entry, hentry, rfl⟩ := List.mem_map.mp he
  refine ⟨entry, hentry, haligned, hbase, hend, ?_⟩
  have husable : entry.type = LIMINE_MEMMAP_USABLE := by
    have hno := hacpi entry hentry
    unfold MemMapEntry.Allocatable limineMemmapTypeToMemmap at halloc
    dsimp only at halloc
    by_contra hne
    rw [if_neg hne, if_neg hno] at halloc
    split_ifs at halloc <;> simp at halloc
  unfold bootCalls
  refine List.mem_cons_of_mem _ (List.mem_cons_of_mem _ (List.mem_filterMap.mpr ⟨entry, hentry, ?_⟩))
  unfold entryCall
  rw [if_neg (by rw [husable]; decide), if_pos (.inr (.inr husable))]

end Direct

/-- No call on a region stops, as long as there are frames and room. -/
structure KernelCallsReturn (r : KernelRun) : Prop where
  alloc : ∀ g size, 4096 ≤ size → size < 2 ^ 64 → failures (r.space.alloc g size r.mm).2 = failures r.mm →
    ∃ ret, (r.space.alloc g size r.mm).1 = .ok ret
  free : ∀ g va, r.live g va = some .alloc → ∃ k, (r.space.free g va r.mm).1 = .ok k
  memMap : ∀ pa size, 0 < size → pa % 4096 = 0 → pa + size + 4096 ≤ 2 ^ 48 →
    failures (r.space.vmMemMap pa size r.mm).2 = failures r.mm →
    regionAlloc (r.space.region .mem) (pagesSize size / 4096) ≠ .ok (errToPtr .ENOMEM, r.space.region .mem) →
    ∃ ret, (r.space.vmMemMap pa size r.mm).1 = .ok ret
  memUnmap : ∀ va size, size < 2 ^ 64 → r.live .mem va = some (.map (pagesSize size)) →
    ∃ k, (r.space.vmMemUnmap va size r.mm).1 = .ok k
  mmioMap : ∀ pa size, 0 < size → pa + size + 4096 ≤ 2 ^ 48 →
    failures (r.space.mmioMap pa size r.mm).2 = failures r.mm →
    regionAlloc (r.space.region .mmio) (pagesSize (size + pa % 4096) / 4096) ≠
      .ok (errToPtr .ENOMEM, r.space.region .mmio) →
    ∃ ret, (r.space.mmioMap pa size r.mm).1 = .ok ret
  mmioUnmap : ∀ va size, 0 < size → size + 8192 ≤ 2 ^ 64 →
    r.live .mmio (va - va % 4096) = some (.map (pagesSize (size + va % 4096))) →
    ∃ k, (r.space.mmioUnmap va size r.mm).1 = .ok k

section Returns

/-- Storing the region behind a call changes neither the memory nor whether it returns. -/
lemma setRegion_pair_returns (x : Kernel (Nat × AllocRegion)) (s : Mm) :
    ((do let (va, region) ← x; return (va, k.setRegion g region) : Kernel (Nat × KernelSpace)) s).2 = (x s).2 ∧
      ((∃ a, (x s).1 = .ok a) →
        ∃ b, ((do let (va, region) ← x; return (va, k.setRegion g region) : Kernel (Nat × KernelSpace)) s).1 = .ok b) :=
  Call.bind_returns (fun _ _ => ⟨_, rfl⟩) s

lemma setRegion_single_returns (x : Kernel AllocRegion) (s : Mm) :
    ((do let region ← x; return k.setRegion g region : Kernel KernelSpace) s).2 = (x s).2 ∧
      ((∃ a, (x s).1 = .ok a) →
        ∃ b, ((do let region ← x; return k.setRegion g region : Kernel KernelSpace) s).1 = .ok b) :=
  Call.bind_returns (fun _ _ => ⟨_, rfl⟩) s

lemma vmMmioMap_returns (table : Nat) (region : AllocRegion) {pa n : Nat} (hn : 0 < n)
    (hpa : pa + n + 4096 ≤ 2 ^ 48) (s : Mm) :
    (vmMmioMap table pa n region s).2 =
        (vmMap table (pa - pa % 4096) ((n + pa % 4096 + 4095) / 4096 * 4096) region mmioPageAttrs s).2 ∧
      ((∃ a, (vmMap table (pa - pa % 4096) ((n + pa % 4096 + 4095) / 4096 * 4096) region mmioPageAttrs s).1 = .ok a) →
        ∃ b, (vmMmioMap table pa n region s).1 = .ok b) := by
  rw [vmMmioMap_eq hn hpa]
  refine Call.bind_returns (fun a s => ?_) s
  obtain ⟨va, region⟩ := a
  dsimp only
  split
  · exact ⟨_, rfl⟩
  · exact ⟨_, rfl⟩

variable (h : KernelInv free₀ M r root T owned free)
include h

lemma KernelInv.vmReturns (g : KernelRegion) : VmCallsReturn r.space.kernelPageTable (r.vm g) := by
  obtain ⟨ownedPart, hvm, -⟩ := h.region g
  rw [h.table]
  exact hvm.callsReturn

lemma KernelInv.callsReturn : KernelCallsReturn r := by
  constructor
  case alloc =>
    intro g size hpage hlt hnever
    obtain ⟨hstate, hreturns⟩ := setRegion_pair_returns (k := r.space) (g := g)
      (vmAlloc r.space.kernelPageTable size (r.space.region g) g.attrs) r.mm
    have hsize : GoodSize (size / 4096 * 4096) := ⟨by omega, by omega, by omega⟩
    have hnever' : failures (vmAlloc r.space.kernelPageTable size (r.space.region g) g.attrs r.mm).2 =
        failures r.mm := by
      rw [← hstate]
      exact hnever
    apply hreturns
    rw [vmAlloc_floor] at hnever' ⊢
    exact (h.vmReturns g).alloc _ g.attrs hsize hnever'
  case free =>
    intro g va hlive
    exact (setRegion_single_returns _ _).2 ((h.vmReturns g).free va hlive)
  case memMap =>
    intro pa size hpos hpa hend hnever hroom
    obtain ⟨hstate, hreturns⟩ := setRegion_pair_returns (k := r.space) (g := .mem)
      (vmMap r.space.kernelPageTable pa size (r.space.region .mem) KernelRegion.mem.attrs) r.mm
    have hnever' : failures
        (vmMap r.space.kernelPageTable pa size (r.space.region .mem) KernelRegion.mem.attrs r.mm).2 =
        failures r.mm := by
      rw [← hstate]
      exact hnever
    apply hreturns
    rw [vmMap_pagesSize] at hnever' ⊢
    have hrange : GoodRange pa (pagesSize size) := by
      refine ⟨hpa, ?_⟩
      rw [pagesSize_eq hpos (by omega)]
      omega
    exact (h.vmReturns .mem).map pa _ _ (goodSize_pagesSize hpos (by omega)) hrange hnever' hroom
  case memUnmap =>
    intro va size hlt hlive
    apply (setRegion_single_returns _ _).2
    rw [vmUnmap_pagesSize]
    exact (h.vmReturns .mem).unmap va _ hlive
  case mmioMap =>
    intro pa size hpos hend hnever hroom
    obtain ⟨hstate, hreturns⟩ := setRegion_pair_returns (k := r.space) (g := .mmio)
      (vmMmioMap r.space.kernelPageTable pa size (r.space.region .mmio)) r.mm
    obtain ⟨hstate', hreturns'⟩ := vmMmioMap_returns r.space.kernelPageTable (r.space.region .mmio)
      hpos hend r.mm
    have hpages : pagesSize (size + pa % 4096) = (size + pa % 4096 + 4095) / 4096 * 4096 :=
      pagesSize_eq (by omega) (by omega)
    have hnever' : failures (vmMap r.space.kernelPageTable (pa - pa % 4096) ((size + pa % 4096 + 4095) / 4096 * 4096)
        (r.space.region .mmio) mmioPageAttrs r.mm).2 = failures r.mm := by
      rw [← hstate', ← hstate]
      exact hnever
    apply hreturns
    apply hreturns'
    rw [hpages] at hroom
    exact (h.vmReturns .mmio).map _ _ _ ⟨by omega, by omega, by omega⟩ ⟨by omega, by omega⟩ hnever' hroom
  case mmioUnmap =>
    intro va size hpos hlt hlive
    obtain ⟨a, ha, haddr, hne, -⟩ := h.live .mmio _ _ hlive
    apply (setRegion_single_returns _ _).2
    rw [vmMmioUnmap_pages (h.pages .mmio) ha (haddr ▸ hne) haddr hpos hlt]
    exact (h.vmReturns .mmio).unmap _ _ hlive

end Returns

end KaworuOS.Proofs
