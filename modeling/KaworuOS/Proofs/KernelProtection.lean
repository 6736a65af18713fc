import KaworuOS.Proofs.KernelReturns

/-!
# What the kernel's address space guarantees

The invariant of a run, read off through the lookups of `paging.c` and the calls of `vmm.c`.
-/

namespace KaworuOS.Proofs
open Lib

/-- The kernel's address space is as the boot and the callers have asked for. Its table is loaded, and the tables and the
frames that are free or in use lie in memory that the table maps to itself. Outside the regions the pages are those of the
boot; in a region they are those of its live allocations, with its attributes; what was allocated has frames of its own;
and no call on the regions stops, as long as there are frames and room. -/
structure KernelRun.Protected (resp : LimineResponses) (memmap : Memmap) (image : KernelImage) (r : KernelRun) :
    Prop where
  loaded : r.space.kernelPageTable = r.space.ttbr1 + r.mm.hhdm
  tables : ∃ T, TreeRep r.mm.hhdm r.mm.mem r.space.ttbr1 T ∧ ∀ f, T.IsTable f → IsMapFrame memmap.table f
  held : ∀ f ∈ r.held, IsMapFrame memmap.table f
  direct : ∀ f, IsMapFrame memmap.table f → ∀ j < 4096,
    translate r.space.kernelPageTable (f + r.mm.hhdm + j) r.mm = some (f + j) ∧
      ∃ raw, validDesc r.space.kernelPageTable (f + r.mm.hhdm + j) r.mm = some raw ∧
        PageDescriptor.attrs raw = dataPageAttrs
  boot : ∀ va, Upper va → (∀ g, ¬InRange (r.space.region g) va) →
    ∃ leaf, LookupAgrees r.mm r.space.kernelPageTable va leaf ∧
      ∀ l, leaf = some l ↔ ∃ a ∈ bootCalls resp memmap image, a.Has va ∧ l = a.leafAt va
  region : ∀ g va, InRange (r.space.region g) va → ∃ leaf, LookupAgrees r.mm r.space.kernelPageTable va leaf ∧
    (leaf ≠ none ↔ Owned (r.space.region g) (pageOf va)) ∧ ∀ l, leaf = some l → l.attrs = g.attrs
  exclusive : ∀ va raw, Upper va → validDesc r.space.kernelPageTable va r.mm = some raw →
    ((PageDescriptor.attrs raw).privilegeExecution = .EXECUTABLE ↔ (textCall memmap image).Has va) ∧
    ((PageDescriptor.attrs raw).privilegeExecution = .EXECUTABLE →
      (PageDescriptor.attrs raw).perms = .EL1_READ_ONLY_EL0_NONE) ∧
    (PageDescriptor.attrs raw).underprivilegeExecution = .NOT_EXECUTABLE ∧
    ((PageDescriptor.attrs raw).perms = .EL1_READ_ONLY_EL0_NONE ∨
      (PageDescriptor.attrs raw).perms = .EL1_READ_WRITE_EL0_NONE)
  frames : ∃ free, PmmInv r.mm free ∧ (∀ f ∈ free, IsMapFrame memmap.table f ∧ f ∉ r.held) ∧
    ∀ g va, InRange (r.space.region g) va → va % 4096 = 0 → AllocPage (r.vm g) (pageOf va) →
      ∃ pa, pagingLookup r.space.kernelPageTable va r.mm = (.ok pa, r.mm) ∧ IsMapFrame memmap.table pa ∧ pa ∉ free ∧
        pa ∉ r.held ∧ ∀ g' va', InRange (r.space.region g') va' → va' % 4096 = 0 → AllocPage (r.vm g') (pageOf va') →
          pagingLookup r.space.kernelPageTable va' r.mm = (.ok pa, r.mm) → va' = va
  returns : KernelCallsReturn r

variable {s s₀ s₁ : Mm} {root user va : Nat} {T : Tree} {free free₀ owned : List Nat} {M : Nat → Option Leaf}
  {r : KernelRun}
  {g : KernelRegion} {resp : LimineResponses} {memmap : Memmap} {image : KernelImage} {k : KernelSpace}

section Range

variable (h : KernelInv free₀ M r root T owned free)
include h

lemma KernelInv.inRange_regionPage (hva : InRange (r.space.region g) va) : RegionPage g (pageOf va) :=
  (h.inRegion_iff g _).mp ((h.pages g).inRange_inRegion hva)

lemma KernelInv.inRange_iff : InRange (r.space.region g) va ↔ match g with
    | .mem => 0xffffffffa0000000 ≤ va ∧ va < 0xffffffffa0000000 + 2 ^ 30
    | .mmio => 0xffffffff90000000 ≤ va ∧ va < 0xffffffff90000000 + 2 ^ 28 := by
  unfold InRange
  rw [(h.range g).1, (h.range g).2]
  cases g with
  | mem =>
    have hcount : KernelRegion.mem.storage.allocator.pageCount = 2 ^ 18 := by decide
    rw [hcount]
    rfl
  | mmio =>
    have hcount : KernelRegion.mmio.storage.allocator.pageCount = 2 ^ 16 := by decide
    rw [hcount]
    rfl

lemma KernelInv.upper_of_inRange (hva : InRange (r.space.region g) va) : Upper va := by
  rw [h.inRange_iff] at hva
  unfold Upper
  cases g with
  | mem =>
    dsimp only at hva
    omega
  | mmio =>
    dsimp only at hva
    omega

lemma KernelInv.inRange_of_regionPage (hva : Upper va) (hpage : RegionPage g (pageOf va)) :
    InRange (r.space.region g) va := by
  rw [h.inRange_iff]
  rw [hva.pageOf_eq] at hpage
  obtain ⟨h1, h2⟩ := hva
  cases g with
  | mem =>
    rw [regionPage_mem] at hpage
    dsimp only
    omega
  | mmio =>
    rw [regionPage_mmio] at hpage
    dsimp only
    omega

lemma KernelInv.not_regionPage (hva : Upper va) (hno : ∀ g, ¬InRange (r.space.region g) va) (g : KernelRegion) :
    ¬RegionPage g (pageOf va) := fun hpage => hno g (h.inRange_of_regionPage hva hpage)

end Range

/-- What the boot has mapped at an address. -/
lemma Booted.leaf_iff (h : Booted resp memmap image k s user root M) (hgood : GoodBoot resp memmap image s₀)
    (hva : Upper va)
    (l : Leaf) : M (pageOf va) = some l ↔ ∃ a ∈ bootCalls resp memmap image, a.Has va ∧ l = a.leafAt va := by
  rw [h.adds.some_iff]
  constructor
  · rintro (hold | ⟨p, hp, hhas, rfl⟩)
    · cases hold
    · obtain ⟨a, ha, rfl⟩ := List.mem_map.mp hp
      have hhas' := (MapArgs.piece_has (hgood.fits a ha) (h.aligned a ha) hva).mp hhas
      exact ⟨a, ha, hhas', MapArgs.piece_value (hgood.fits a ha) (h.aligned a ha) hva hhas'⟩
  · rintro ⟨a, ha, hhas, rfl⟩
    refine .inr ⟨a.piece, List.mem_map_of_mem ha,
      (MapArgs.piece_has (hgood.fits a ha) (h.aligned a ha) hva).mpr hhas, ?_⟩
    rw [MapArgs.piece_value (hgood.fits a ha) (h.aligned a ha) hva hhas]

/-- Each call of the boot maps code that nobody writes, or data that nobody executes, and nothing for the user. -/
lemma bootCalls_attrs {a : MapArgs} (ha : a ∈ bootCalls resp memmap image) :
    a = textCall memmap image ∨ a.attrs = dataPageAttrs ∨ a.attrs = mmioPageAttrs := by
  unfold bootCalls at ha
  rcases List.mem_cons.mp ha with rfl | ha
  · exact .inl rfl
  rcases List.mem_cons.mp ha with rfl | ha
  · exact .inr (.inl rfl)
  obtain ⟨entry, -, hentry⟩ := List.mem_filterMap.mp ha
  unfold entryCall at hentry
  split at hentry
  · obtain rfl := Option.some.inj hentry
    exact .inr (.inr rfl)
  · split at hentry
    · obtain rfl := Option.some.inj hentry
      exact .inr (.inl rfl)
    · cases hentry

section Protected

variable (hbooted : Booted resp memmap image k s₁ user root M) (hgood : GoodBoot resp memmap image s₀)
  (h : KernelInv free₀ M r root T owned free)
include hbooted hgood h

/-- The mapping of an address of the upper half, whether from the boot or from a region. -/
lemma KernelInv.attrs_cases (hva : Upper va) {l : Leaf} (hl : T.leaf (pageOf va) = some l) :
    (l.attrs = textPageAttrs ∧ (textCall memmap image).Has va) ∨
      ((l.attrs = dataPageAttrs ∨ l.attrs = mmioPageAttrs) ∧ ¬(textCall memmap image).Has va) := by
  have htext : (textCall memmap image).Has va → M (pageOf va) = some ((textCall memmap image).leafAt va) :=
    fun hhas => (hbooted.leaf_iff hgood hva _).mpr ⟨_, List.mem_cons_self, hhas, rfl⟩
  by_cases hregion : ∃ g, RegionPage g (pageOf va)
  · obtain ⟨g, hg⟩ := hregion
    have hattrs := h.attrs g _ l hg hl
    refine .inr ⟨?_, fun hhas => ?_⟩
    · cases g with
      | mem => exact .inl hattrs
      | mmio => exact .inr hattrs
    · have hnone := hbooted.not_regionPage hgood hg
      rw [htext hhas] at hnone
      cases hnone
  · rw [h.boot _ (fun g hg => hregion ⟨g, hg⟩)] at hl
    by_cases hhas : (textCall memmap image).Has va
    · rw [htext hhas] at hl
      rw [← Option.some.inj hl]
      exact .inl ⟨rfl, hhas⟩
    · obtain ⟨a, ha, hhas', rfl⟩ := (hbooted.leaf_iff hgood hva l).mp hl
      rcases bootCalls_attrs ha with rfl | hattrs
      · exact absurd hhas' hhas
      · exact .inr ⟨hattrs, hhas⟩

/-- The page of the direct map that a frame of the memory map has. -/
lemma KernelInv.direct_leaf (hacpi : NoAcpiReclaimable resp) (hhdm : r.mm.hhdm = resp.hhdmOffset) {f j : Nat}
    (hf : IsMapFrame memmap.table f) (hj : j < 4096) :
    T.leaf (pageOf (f + r.mm.hhdm + j)) = some ⟨f, dataPageAttrs⟩ := by
  obtain ⟨entry, hentry, haligned, hbase, hend, hcall⟩ := bootCalls_frame image hgood.saved hacpi hf
  have hoffset := memmapSaveInit_ok hgood.saved
  have htop := (hgood.memory.chunk hf).top
  have hmod := hgood.memory.good.aligned
  have hwadd : wadd entry.base memmap.hddmOffset = entry.base + r.mm.hhdm := by
    rw [hoffset, ← hhdm]
    exact wadd_of_lt (by omega)
  rw [hwadd] at hcall
  have hfits := hgood.fits _ hcall
  have hpa : entry.base % 4096 = 0 := (hbooted.aligned _ hcall).1
  have hlow : 2 ^ 64 - 2 ^ 48 ≤ entry.base + r.mm.hhdm := hfits.low
  have hhigh : entry.base + r.mm.hhdm + entry.length < 2 ^ 64 := hfits.high
  have hva : Upper (f + r.mm.hhdm + j) := ⟨by omega, by omega⟩
  have hleaf : M (pageOf (f + r.mm.hhdm + j)) = some ⟨f, dataPageAttrs⟩ := by
    refine (hbooted.leaf_iff hgood hva _).mpr ⟨_, hcall, ⟨?_, ?_⟩, ?_⟩
    · show entry.base + r.mm.hhdm ≤ f + r.mm.hhdm + j
      omega
    · show f + r.mm.hhdm + j < entry.base + r.mm.hhdm + entry.length
      omega
    · show _ = Leaf.mk (entry.base + (f + r.mm.hhdm + j - (entry.base + r.mm.hhdm)) / 4096 * 4096) dataPageAttrs
      congr 1
      omega
  rw [h.boot _ (fun g hg => ?_), hleaf]
  rw [hbooted.not_regionPage hgood hg] at hleaf
  cases hleaf

lemma KernelInv.protected (hacpi : NoAcpiReclaimable resp) (hhdm : r.mm.hhdm = resp.hhdmOffset)
    (hloaded : r.space.ttbr1 = root) (hfree₀ : ∀ f, f ∈ free₀ ↔ IsMapFrame memmap.table f) :
    r.Protected resp memmap image := by
  have htable := h.frames.table
  have hleaf : ∀ {g va}, InRange (r.space.region g) va → AllocPage (r.vm g) (pageOf va) →
    ∃ l, T.leaf (pageOf va) = some l := by
    intro g va hva hpage
    exact Option.ne_none_iff_exists'.mp ((h.mapped g _ (h.inRange_regionPage hva)).mpr (h.allocPage_owned hpage).1)
  constructor
  case loaded =>
    rw [hloaded]
    exact h.table
  case tables =>
    refine ⟨T, ?_, fun f hf => (hfree₀ f).mp ?_⟩
    · rw [hloaded]
      exact htable.tree
    · exact h.frames.account.mem_iff.mpr
        (List.mem_append_left _ (List.mem_append_left _ ((h.frames.owned_iff f).mpr (.inl ⟨hf, id⟩))))
  case held => exact fun f hf => (hfree₀ f).mp (h.frames.loose_free₀ hf)
  case direct =>
    intro f hf j hj
    have hl := h.direct_leaf hbooted hgood hacpi hhdm hf hj
    have hmod : (f + r.mm.hhdm + j) % 4096 = j := by
      have h1 := (hgood.memory.chunk hf).aligned
      have h2 := hgood.memory.good.aligned
      rw [hhdm]
      omega
    have htrans := htable.translate_eq hl
    rw [h.table]
    refine ⟨htrans.trans ?_, htable.attrs_eq hl⟩
    rw [hmod]
  case boot =>
    intro va hva hno
    refine ⟨T.leaf (pageOf va), ?_, ?_⟩
    · rw [h.table]
      exact htable.lookupAgrees va
    · intro l
      rw [h.boot _ (h.not_regionPage hva hno), hbooted.leaf_iff hgood hva]
  case region =>
    intro g va hva
    have hpage := h.inRange_regionPage hva
    refine ⟨T.leaf (pageOf va), ?_, h.mapped g _ hpage, fun l hl => h.attrs g _ l hpage hl⟩
    rw [h.table]
    exact htable.lookupAgrees va
  case exclusive =>
    intro va raw hva hdesc
    rw [h.table, htable.validDesc_eq] at hdesc
    obtain ⟨l, hl, rfl⟩ := Option.map_eq_some_iff.mp hdesc
    rw [leafRaw, attrs_pageEntry]
    rcases h.attrs_cases hbooted hgood hva hl with ⟨hattrs, hhas⟩ | ⟨hattrs, hno⟩
    · rw [hattrs]
      exact ⟨⟨fun _ => hhas, fun _ => rfl⟩, fun _ => rfl, rfl, .inl rfl⟩
    · have hdata : l.attrs.privilegeExecution = .NOT_EXECUTABLE ∧ l.attrs.underprivilegeExecution = .NOT_EXECUTABLE ∧
          l.attrs.perms = .EL1_READ_WRITE_EL0_NONE := by
        rcases hattrs with hattrs | hattrs
        · rw [hattrs]
          exact ⟨rfl, rfl, rfl⟩
        · rw [hattrs]
          exact ⟨rfl, rfl, rfl⟩
      have hnot : l.attrs.privilegeExecution ≠ .EXECUTABLE := by
        rw [hdata.1]
        decide
      exact ⟨⟨fun heq => absurd heq hnot, fun hhas => absurd hhas hno⟩, fun heq => absurd heq hnot, hdata.2.1,
        .inr hdata.2.2⟩
  case frames =>
    refine ⟨free, htable.pmm, ?_, ?_⟩
    · intro f hf
      refine ⟨(hfree₀ f).mp (h.frames.account.mem_iff.mpr (List.mem_append_right _ hf)), fun hheld => ?_⟩
      exact (h.frames.loose_apart hheld).1 hf
    · intro g va hva haligned hpage
      obtain ⟨l, hl⟩ := hleaf hva hpage
      have howned := h.frames.leaf_owned (q := pageOf va) ⟨g, hpage⟩ hl
      rw [h.table]
      refine ⟨l.pa, pagingLookup_leaf htable haligned hl, ?_, h.frames.not_free_of_owned howned,
        h.frames.not_loose_of_owned howned, ?_⟩
      · exact (hfree₀ _).mp (h.frames.account.mem_iff.mpr (List.mem_append_left _ (List.mem_append_left _ howned)))
      · intro g' va' hva' haligned' hpage' hlookup
        obtain ⟨l', hl'⟩ := hleaf hva' hpage'
        rw [pagingLookup_leaf htable haligned' hl'] at hlookup
        have hmine : r.Mine (pageOf va) := ⟨g, hpage⟩
        have hmine' : r.Mine (pageOf va') := ⟨g', hpage'⟩
        have heq := h.frames.inj hmine' hmine hl' hl (Except.ok.inj (Prod.mk.inj hlookup).1)
        have h1 := h.upper_of_inRange hva
        have h2 := h.upper_of_inRange hva'
        rw [h1.pageOf_eq, h2.pageOf_eq] at heq
        unfold Upper at h1 h2
        omega
  case returns => exact h.callsReturn

end Protected

/-- **Protection of the kernel.** After `memmap_save_init`, `pmm_init` and `vm_init`, on a machine without ACPI memory,
whatever is allocated, mapped, freed and unmapped in the two regions, and whatever others do with the frames they have, as
long as `pmm_alloc` does not fail: the upper half maps the kernel, the direct map and the live allocations, an address can
be executed exactly if it lies in the text, where nobody can write, and no address is open to the user. -/
theorem kernel_space_is_protected (hgood : GoodBoot resp memmap image s₀) (hacpi : NoAcpiReclaimable resp)
    (hboot : kernelMainMemory resp image s₀ = (.ok k, s₁))
    (hrun : Relation.ReflTransGen KernelStep (KernelRun.booted k s₁) r) (hnever : r.mm.log.failed = s₀.log.failed) :
    r.Protected resp memmap image := by
  have hle : failures s₁ ≤ failures r.mm := KernelStep.run_failures_le hrun
  have hle₀ : failures s₀ ≤ failures s₁ := (mono_kernelMainMemory resp image).le hboot
  have hsame : failures r.mm = failures s₀ := hnever
  obtain ⟨user, root, M, hbooted⟩ := kernelMainMemory_booted hgood hboot (by omega)
  obtain ⟨free₀, T, owned, free, hfree₀, hinv⟩ := hbooted.inv hgood
  have hmm : (KernelRun.booted k s₁).mm = s₁ := rfl
  obtain ⟨T', owned', free', hinv'⟩ := hinv.run hrun (by rw [hmm]; omega)
  obtain ⟨hloaded, htable⟩ := KernelStep.run_loaded hrun
  have hhdm : r.mm.hhdm = resp.hhdmOffset := by
    have h1 : k.kernelPageTable = root + s₁.hhdm := hbooted.table
    have h2 : r.space.kernelPageTable = k.kernelPageTable := htable
    have h3 := hinv'.table
    have h4 := hbooted.hhdm.trans (memmapSaveInit_ok hgood.saved)
    omega
  exact hinv'.protected hbooted hgood hacpi hhdm (hloaded.trans hbooted.loaded) hfree₀

/-- A boot loader that reports twelve pages of memory. -/
def smallResponses : LimineResponses :=
  ⟨[⟨0x1000, 0xc000, LIMINE_MEMMAP_USABLE⟩], 2 ^ 64 - 2 ^ 47, 0x100000, 0xffffffff80000000⟩

def smallMemmap : Memmap := ⟨[⟨0x1000, 0xc000, .USABLE⟩], 2 ^ 64 - 2 ^ 47, 0x100000, 0xffffffff80000000⟩

/-- A kernel with a page of text and a page of data. -/
def smallImage : KernelImage := ⟨0xffffffff80000000, 0xffffffff80001000, 0xffffffff80001000, 0xffffffff80002000⟩

lemma smallResponses_good : GoodBoot smallResponses smallMemmap smallImage (bootMm (2 ^ 64 - 2 ^ 47) []) := by
  have hcalls : bootCalls smallResponses smallMemmap smallImage =
      [⟨0xffffffff80000000, 0x100000, 0x1000, textPageAttrs⟩, ⟨0xffffffff80001000, 0x101000, 0x1000, dataPageAttrs⟩,
        ⟨2 ^ 64 - 2 ^ 47 + 0x1000, 0x1000, 0xc000, dataPageAttrs⟩] := rfl
  refine ⟨rfl, ⟨by decide, List.pairwise_singleton .., ⟨by decide, by decide⟩, by decide⟩, ?_, ?_, ?_, rfl⟩
  · rintro f ⟨entry, hentry, -, haligned, hbase, hend⟩
    obtain rfl := List.mem_singleton.mp hentry
    simp only at hbase hend
    omega
  · rw [hcalls]
    simp only [List.forall_mem_cons, List.not_mem_nil, IsEmpty.forall_iff, implies_true, and_true]
    exact ⟨⟨by decide, by decide, by decide⟩, ⟨by decide, by decide, by decide⟩, ⟨by decide, by decide, by decide⟩⟩
  · rw [hcalls]
    decide

/-- The first allocation after a boot. -/
theorem kernel_space_is_protected_small : ∃ k s₁ r,
    kernelMainMemory smallResponses smallImage (bootMm (2 ^ 64 - 2 ^ 47) []) = (.ok k, s₁) ∧
      KernelStep (KernelRun.booted k s₁) r ∧ r.live .mem 0xffffffffa0000000 = some .alloc ∧
      r.Protected smallResponses smallMemmap smallImage := by
  let boot := kernelMainMemory smallResponses smallImage
  let s₀ := bootMm (2 ^ 64 - 2 ^ 47) []
  let k := boot.valueD s₀ ⟨0, 0, KernelRegion.storage, 0⟩
  let s₁ := (boot s₀).2
  let k' := ((k.alloc .mem 0x1000).valueD s₁ (0, k)).2
  have hboot : boot s₀ = (.ok k, s₁) := Call.eq_valueD _ (by decide +kernel)
  have halloc : k.alloc .mem 0x1000 s₁ = (.ok (0xffffffffa0000000, k'), (k.alloc .mem 0x1000 s₁).2) :=
    Call.eq_pairD (0, k) (by decide +kernel) (by decide +kernel)
  have hnever : (k.alloc .mem 0x1000 s₁).2.log.failed = s₀.log.failed := by decide +kernel
  have hcall := KernelCall.alloc (r := KernelRun.booted k s₁) (g := .mem) (by decide) halloc (by decide)
  have hstep := KernelStep.call hcall
  have hacpi : NoAcpiReclaimable smallResponses := by
    intro entry hentry
    rw [List.mem_singleton.mp hentry]
    decide
  refine ⟨k, s₁, _, hboot, hstep, ?_, kernel_space_is_protected smallResponses_good hacpi hboot (.single hstep) hnever⟩
  unfold KernelRun.after
  simp only [Function.update_self]

end KaworuOS.Proofs
