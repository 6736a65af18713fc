import KaworuOS.Proofs.ElfReads
import KaworuOS.Proofs.SpaceClash

/-!
# The pages of a segment

One turn of the loop of `map_section_from_header` takes a frame, maps it and copies its part of the
segment. In a page behind the bytes that come from the file, the copy goes wrong and the turn leaves
the file.
-/

namespace KaworuOS.Proofs
open Lib

variable {α : Type} {file : Mem} {n va page pa root f m : Nat} {ph : ElfProgramHeader} {as as' : AddressSpace}
  {s s' : Loading} {mm : Mm} {T T' : Tree} {free free' L : List Nat} {perms : PagePerms} {uxn : ExecPerms}
  {region₀ region region' : AllocRegion}

/-- The failures of `pmm_alloc` in a run of the loader. -/
def loadFailures (s : Loading) : Nat := failures s.mm

/-- The read leaves the file. -/
def LeavesFile (n : Nat) (s : Loading) : Prop := ∃ r ∈ s.reads, n < r.offset + r.size

lemma mono_onMm {x : Kernel α} (h : Call.Mono failures x) : Call.Mono loadFailures (onMm x) := fun s => h s.mm

lemma mono_copySegment (va page : Nat) : Call.Mono loadFailures (copySegment file ph va page) :=
  Call.mono_ite (Call.mono_pure _) (fun _ => Nat.le_refl _)

/-- The loop body of `map_section_from_header` behind `address_space_map_owned`, with the turns that follow. -/
def mapSectionRest (file : Mem) (ph : ElfProgramHeader) (perms : PagePerms) (uxn : ExecPerms) (m va pa : Nat) :
    Nat × AddressSpace → Loader (Nat × AddressSpace)
  | (ret, as) => do
    if ret ≠ 0 then
      onMm (pmmFree pa)
      return (ret, as)
    let page ← onMm (pmmPhysToVirt pa)
    copySegment file ph va page
    mapSectionPages file ph perms uxn m (wadd va PAGE_SIZE) as

lemma mapSectionPages_succ (m va : Nat) (as : AddressSpace) :
    mapSectionPages file ph perms uxn (m + 1) va as = (do
      let pa ← onMm pmmAlloc
      if isErrValue pa then return (wordSize - pa, as)
      onMm (addressSpaceMapOwned as va pa PAGE_SIZE perms uxn) >>= mapSectionRest file ph perms uxn m va pa :
      Loader (Nat × AddressSpace)) := rfl

lemma mono_mapSectionPages (m va : Nat) (as : AddressSpace) :
    Call.Mono loadFailures (mapSectionPages file ph perms uxn m va as) := by
  induction m generalizing va as with
  | zero => exact Call.mono_pure _
  | succ m ih =>
    apply Call.mono_bind (mono_onMm mono_pmmAlloc)
    intro pa
    apply Call.mono_ite (Call.mono_pure _)
    apply Call.mono_bind (mono_onMm (mono_addressSpaceMapOwned _ _ _ _ _ _))
    rintro ⟨ret, as⟩
    apply Call.mono_ite (Call.mono_bind (mono_onMm (mono_pmmFree _)) (fun _ => Call.mono_pure _))
    apply Call.mono_bind (mono_onMm (mono_pmmPhysToVirt _))
    intro page
    exact Call.mono_bind (mono_copySegment _ _) (fun _ => ih _ _)

lemma mono_mapSectionRest (m va pa : Nat) (r : Nat × AddressSpace) :
    Call.Mono loadFailures (mapSectionRest file ph perms uxn m va pa r) := by
  apply Call.mono_ite (Call.mono_bind (mono_onMm (mono_pmmFree _)) (fun _ => Call.mono_pure _))
  apply Call.mono_bind (mono_onMm (mono_pmmPhysToVirt _))
  intro page
  exact Call.mono_bind (mono_copySegment _ _) (fun _ => mono_mapSectionPages _ _ _)

lemma mapSectionPages_nil (h : PmmInv s.mm []) (m va : Nat) (as : AddressSpace) :
    loadFailures s < loadFailures (mapSectionPages file ph perms uxn (m + 1) va as s).2 := by
  rw [mapSectionPages_succ]
  refine Call.lt_bind (fun pa => ?_) ?_
  · apply Call.mono_ite (Call.mono_pure _)
    exact Call.mono_bind (mono_onMm (mono_addressSpaceMapOwned _ _ _ _ _ _)) (mono_mapSectionRest _ _ _)
  · rw [onMm, pmmAlloc_nil h]
    exact Nat.lt_succ_self _

lemma onMm_ok {x : Kernel α} {a : α} {mm' : Mm} (h : x s.mm = (.ok a, mm')) : onMm x s = (.ok a, ⟨mm', s.reads⟩) := by
  rw [onMm, h]

lemma onMm_error {x : Kernel α} {e : Halt} {mm' : Mm} (h : x s.mm = (.error e, mm')) :
    onMm x s = (.error e, ⟨mm', s.reads⟩) := by
  rw [onMm, h]

lemma mapSectionPages_cons (h : PmmInv s.mm (f :: free)) (m va : Nat) (as : AddressSpace) :
    mapSectionPages file ph perms uxn (m + 1) va as s =
      (onMm (addressSpaceMapOwned as va f PAGE_SIZE perms uxn) >>= mapSectionRest file ph perms uxn m va f)
        ⟨takeFrame s.mm f, s.reads⟩ := by
  rw [mapSectionPages_succ, Call.bind_ok (onMm_ok (pmmAlloc_cons h)),
    if_neg (by rw [isErrValue_frame (h.frames f (by simp))]; decide)]

lemma mapSectionRest_error {err : Nat} {reads : List FileRead} (hf : IsFrame mm.hhdm f) (herr : err ≠ 0) (m va : Nat)
    (as : AddressSpace) :
    mapSectionRest file ph perms uxn m va f (err, as) ⟨mm, reads⟩ = (.ok (err, as), ⟨giveFrame mm f, reads⟩) := by
  have hfree : onMm (pmmFree f) ⟨mm, reads⟩ = (.ok (), ⟨giveFrame mm f, reads⟩) := onMm_ok (pmmFree_ok hf)
  rw [mapSectionRest, if_pos herr, Call.bind_ok hfree]
  rfl

lemma leavesFile_bind {β : Type} {x : Loader α} {g : α → Loader β} (h : LeavesFile n (x s).2)
    (hg : ∀ a, LogsReads (g a)) :
    LeavesFile n ((x >>= g) s).2 := by
  obtain ⟨r, hr, hlt⟩ := h
  exact ⟨r, mem_reads_bind hr hg, hlt⟩

/-- The byte that belongs at an address of the segment. -/
def segmentByte (file : Mem) (ph : ElfProgramHeader) (a : Nat) : UInt8 :=
  if ph.vaddr ≤ a ∧ a < ph.vaddr + ph.filesz then file (ph.offset + (a - ph.vaddr)) else 0

/-- The page holds its part of the segment, other memory is as before, and only the segment was read. -/
structure Copied (file : Mem) (ph : ElfProgramHeader) (va page : Nat) (s s' : Loading) : Prop where
  same : s'.mm = { s.mm with mem := s'.mm.mem }
  byte : ∀ j < 4096, s.mm.mem (page + j) = 0 → s'.mm.mem (page + j) = segmentByte file ph (va + j)
  mem : ∀ x, ¬(page ≤ x ∧ x < page + 4096) → s'.mm.mem x = s.mm.mem x
  reads : ∀ r ∈ s'.reads, r ∈ s.reads ∨ (ph.offset ≤ r.offset ∧ r.offset + r.size ≤ ph.offset + ph.filesz)

lemma Verified.copySegment_ok (file : Mem) (h : Verified ph n) (hn : n < 2 ^ 64) (hva : va ≤ ph.vaddr + ph.filesz)
    (hpage : page + 4096 ≤ 2 ^ 64) (s : Loading) :
    ∃ s', copySegment file ph va page s = (.ok (), s') ∧ Copied file ph va page s s' := by
  have hstart := h.copyStart_eq va
  have hstop := h.copyEnd_eq hva
  unfold copySegment
  by_cases hcopy : copyEnd ph va ≤ copyStart ph va
  · rw [if_pos hcopy]
    rw [hstart, hstop] at hcopy
    refine ⟨s, rfl, rfl, ?_, fun _ _ => rfl, fun _ hr => .inl hr⟩
    intro j hj hzero
    rw [hzero, segmentByte, if_neg (by omega)]
  · rw [if_neg hcopy]
    have hoffset := h.fileOffset_eq hn hva
    rw [hoffset]
    rw [hstart, hstop] at hcopy ⊢
    rw [wadd_of_lt (by omega)]
    -- the copy covers the addresses of the page whose bytes come from the file
    have hrange : ∀ x, (x < wordSize ∧ wsub x (page + (ph.vaddr - va)) <
        min 4096 (ph.vaddr + ph.filesz - va) - (ph.vaddr - va)) ↔
        page + (ph.vaddr - va) ≤ x ∧ x < page + min 4096 (ph.vaddr + ph.filesz - va) := by
      intro x
      unfold wsub wordSize
      omega
    refine ⟨_, rfl, rfl, ?_, ?_, ?_⟩
    · intro j hj hzero
      show copiedFile _ _ _ _ _ (page + j) = _
      unfold copiedFile segmentByte
      simp only [hrange]
      by_cases hin : ph.vaddr ≤ va + j ∧ va + j < ph.vaddr + ph.filesz
      · rw [if_pos (by omega), if_pos hin, wsub_of_le (by omega) (by omega)]
        exact congrArg file (by omega)
      · rw [if_neg (by omega), if_neg hin, hzero]
    · intro x hx
      show copiedFile _ _ _ _ _ x = _
      unfold copiedFile
      rw [if_neg]
      rw [hrange]
      omega
    · intro r hr
      rcases List.mem_cons.mp hr with rfl | hr
      · refine .inr ⟨by dsimp only; omega, ?_⟩
        dsimp only
        omega
      · exact .inl hr

lemma Verified.copySegment_leavesFile (h : Verified ph n) (hn : n ≤ 2 ^ 63) (hva : ph.vaddr + ph.filesz < va)
    (hend : va + 4096 ≤ USER_VM_RANGE_END) (s : Loading) : LeavesFile n (copySegment file ph va page s).2 := by
  have h1 := h.inside
  have hfile := h.fileEnd
  simp only [USER_VM_RANGE_END, USER_VM_RANGE_BASE, USER_VM_RANGE_SIZE] at hend
  have hstart : copyStart ph va = 0 := by
    rw [h.copyStart_eq]
    omega
  have hstop : copyEnd ph va = 2 ^ 64 - (va - (ph.vaddr + ph.filesz)) := by
    unfold copyEnd
    rw [hfile, wadd_of_lt (by simp only [PAGE_SIZE]; omega), if_pos (by simp only [PAGE_SIZE]; omega)]
    unfold wsub wordSize
    omega
  unfold copySegment
  rw [hstart, hstop, if_neg (by omega), wadd_of_lt (by omega : va + 0 < 2 ^ 64), Nat.add_zero,
    wsub_of_le (by omega) (by omega), wadd_of_lt (by omega : ph.offset + (va - ph.vaddr) < 2 ^ 64)]
  exact ⟨_, List.mem_cons_self, by dsimp only; omega⟩

lemma TableInv.write (h : TableInv mm root T free) (hf : IsFrame mm.hhdm f) (hfree : f ∉ free) (htable : ¬T.IsTable f)
    {mem : Mem} (hmem : ∀ x, ¬InPage mm.hhdm f x → mem x = mm.mem x) : TableInv { mm with mem := mem } root T free := by
  have hsame : ∀ g, IsFrame mm.hhdm g → g ≠ f → SamePage mm.hhdm mm.mem mem g := by
    intro g hg hne x h1 h2
    have hapart := hg.apart hf hne
    apply hmem
    unfold InPage
    omega
  refine ⟨h.pmm.congr rfl rfl ?_, h.tree.congr ?_, h.apart⟩
  · intro g hg
    apply hsame g (h.pmm.frames g hg)
    rintro rfl
    exact hfree hg
  · rintro g ⟨l, k, hg⟩
    apply hsame g (h.frame hg)
    rintro rfl
    exact htable ⟨l, k, hg⟩

/-- An address space whose mapped pages are all marked in its region. -/
abbrev LoadInv (root : Nat) (as : AddressSpace) (mm : Mm) (T : Tree) (free : List Nat) : Prop :=
  MixedInv root ⟨mm, as, fun _ => False⟩ T free

/-- No slot of the region is free, or the page is taken. -/
def NoRoom (region : AllocRegion) (q : Nat) : Prop :=
  (∀ a ∈ region.allocations, a.va ≠ 0) ∨ ¬ClearPage region q

section Page

variable (h : LoadInv root as mm T free)
include h

lemma LoadInv.clear_unmapped {q : Nat} (hq : ClearPage as.region q) : T.leaf q = none := by
  by_contra hne
  exact (h.stray q).mpr ⟨hq, hne⟩

lemma LoadInv.mapOwned (hrange : UserRange va 4096) (hpa : pa % 4096 = 0 ∧ pa < 2 ^ 48) (perms : PagePerms)
    (uxn : ExecPerms) :
    (failures mm < failures (addressSpaceMapOwned as va pa PAGE_SIZE perms uxn mm).2 ∧ free.length < 3) ∨
    (NoRoom as.region (pageOf va) ∧
      addressSpaceMapOwned as va pa PAGE_SIZE perms uxn mm = (.ok (Errno.code .ENOMEM, as), mm)) ∨
    ∃ region' mm' T' free' used, addressSpaceMapOwned as va pa PAGE_SIZE perms uxn mm =
        (.ok (0, as.setRegion region'), mm') ∧
      MappedOwned root mm T free as va pa 1 (userPageAttrs perms uxn) mm' T' free' used region' ∧ used.length ≤ 3 := by
  have hin : as.region.allocator.pool ≤ va ∧
      (va - as.region.allocator.pool) / 4096 + 1 ≤ as.region.allocator.pageCount := by
    have h1 := hrange.base_le
    have h2 := hrange.le_end
    have h3 := h.pool
    have h4 := h.count
    dsimp only at h3 h4
    rw [h3, h4]
    simp only [USER_VM_RANGE_BASE, USER_VM_RANGE_END, USER_VM_RANGE_SIZE, PAGE_SIZE] at *
    omega
  unfold addressSpaceMapOwned
  rw [if_pos (by decide), if_neg (by decide), show PAGE_SIZE / PAGE_SIZE = 1 by decide]
  rcases h.pages.reserve_cases (n := 1) (by decide) hin.1 hin.2 with ⟨hfull, hres⟩ | ⟨region', hres, ht⟩
  · right; left
    have hlift : (Call.lift (regionReserve as.region va 1) : Kernel _) mm = (.ok (.ENOMEM, as.region), mm) := by
      rw [Call.lift_apply, hres]
    refine ⟨hfull.imp_right ?_, ?_⟩
    · rintro ⟨q, hq, hbit⟩ hclear
      have hq' : q = pageOf va - pageOf as.region.allocator.pool := by
        have hcov := (h.pages.covers_iff (a := ⟨va, 1⟩) hin.1 hrange.aligned Nat.one_pos hin.2 (q := pageOf va)).mp
          ⟨Nat.le_refl _, Nat.lt_succ_self _⟩
        have h1 := hcov.2
        unfold Block.Has at h1 hq
        simp only [pagesOf] at h1 hq
        omega
      rw [hq', hclear.2] at hbit
      cases hbit
    · rw [Call.bind_ok hlift]
      rfl
  · have hlift : (Call.lift (regionReserve as.region va 1) : Kernel _) mm = (.ok (.EOK, region'), mm) := by
      rw [Call.lift_apply, hres]
    rw [Call.bind_ok hlift]
    dsimp only
    rw [if_neg (by decide)]
    have hspan := hrange.span
    have hmap : addressSpaceMapUnowned (as.setRegion region') va pa PAGE_SIZE perms uxn =
        pagingMapPages (root + mm.hhdm) (userPageAttrs perms uxn) 1 va pa := by
      have h1 := hspan.inside
      show pagingMap as.table va pa PAGE_SIZE (userPageAttrs perms uxn) = _
      rw [h.addr, pagingMap, if_pos (by simp [hrange.aligned, hpa.1]),
        pageIterations_eq (by simp only [PAGE_SIZE]; omega)]
      rfl
    rw [hmap]
    rcases pagingMapPages_succ h.table (userPageAttrs perms uxn) 0 va hpa with
      ⟨hfail, hlen⟩ | ⟨hq, -⟩ | ⟨mm', T', free', used, hnone, hrun, hm⟩
    · left
      refine ⟨Call.lt_bind (fun _ => ?_) hfail, Nat.lt_of_lt_of_le hlen (missing_le _ _)⟩
      exact Call.mono_ite (Call.mono_bind (Call.mono_lift _) (fun _ => Call.mono_pure _)) (Call.mono_pure _)
    · exact absurd (h.clear_unmapped (h.pages.taken_clear ht hrange.aligned ⟨Nat.le_refl _, Nat.lt_succ_self _⟩)) hq
    · right; right
      have hrun' : pagingMapPages (root + mm.hhdm) (userPageAttrs perms uxn) 1 va pa mm = (.ok 0, mm') := hrun
      have hfresh : ∀ q, pageOf va ≤ q → q < pageOf va + 1 → T.leaf q = none := by
        intro q h1 h2
        obtain rfl : q = pageOf va := by omega
        exact hnone
      have hleaf : T'.leaf = mapRange T.leaf (pageOf va) 1 pa (userPageAttrs perms uxn) := by
        rw [hm.leaf, ← mapRange_succ, mapRange_zero]
      rw [Call.bind_ok hrun']
      exact ⟨region', mm', T', free', used, rfl, ⟨hrange.aligned, ht, hm.grows, hfresh, hleaf⟩,
        hm.length.trans_le (missing_le _ _)⟩

end Page

/-- One turn of the loop has mapped the page to the frame `f` and filled it with its part of the segment. -/
structure PageLoaded (file : Mem) (ph : ElfProgramHeader) (attrs : PageAttrs) (root va : Nat) (as : AddressSpace)
    (s : Loading) (T : Tree) (free : List Nat) (f : Nat) (region' : AllocRegion) (s' : Loading) (T' : Tree)
    (free' : List Nat) : Prop where
  inv : LoadInv root (as.setRegion region') s'.mm T' free'
  taken : Taken as.region va 1 region'
  before : va ≤ ph.vaddr + ph.filesz
  hhdm : s'.mm.hhdm = s.mm.hhdm
  log : s'.mm.log = s.mm.log
  frame : f ∈ free ∧ f ∉ free' ∧ ¬T'.IsTable f
  still : ∀ g ∈ free', g ∈ free
  spent : free.length ≤ free'.length + 4
  tables : ∀ g, T'.IsTable g → T.IsTable g ∨ g ∈ free
  leaf : T'.leaf = Function.update T.leaf (pageOf va) (some ⟨f, attrs⟩)
  byte : ∀ j < 4096, s'.mm.mem (f + s.mm.hhdm + j) = segmentByte file ph (va + j)
  mem : ∀ x, (∀ g, T.IsTable g ∨ (g ∈ free ∧ g ∉ free') → ¬InPage s.mm.hhdm g x) → s'.mm.mem x = s.mm.mem x
  reads : ∀ r ∈ s'.reads, r ∈ s.reads ∨ (ph.offset ≤ r.offset ∧ r.offset + r.size ≤ ph.offset + ph.filesz)

lemma LoadInv.copied {free₁ used : List Nat} {mm₁ : Mm} {attrs : PageAttrs}
    (h : LoadInv root as s.mm T (f :: free)) (hva : va ≤ ph.vaddr + ph.filesz)
    (hm : MappedOwned root (takeFrame s.mm f) T free as va f 1 attrs mm₁ T' free₁ used region')
    (hused : used.length ≤ 3)
    (hc : Copied file ph va (f + s.mm.hhdm) ⟨mm₁, s.reads⟩ s') :
    PageLoaded file ph attrs root va as s T (f :: free) f region' s' T' free₁ := by
  have hhdm : mm₁.hhdm = s.mm.hhdm := hm.grows.hhdm
  have hfresh : f ∉ free := (List.nodup_cons.mp h.table.pmm.nodup).1
  have hframe : IsFrame s.mm.hhdm f := h.table.pmm.frames f (by simp)
  have hsub : ∀ g ∈ free₁, g ∈ free := by
    intro g hg
    rw [hm.grows.split]
    exact List.mem_append_right _ hg
  have htables : ∀ g, T'.IsTable g → T.IsTable g ∨ g ∈ free := by
    intro g hg
    rcases hm.grows.tables.mp hg with hg | hg
    · exact .inl hg
    · refine .inr ?_
      rw [hm.grows.split]
      exact List.mem_append_left _ hg
  have hnotTable : ¬T'.IsTable f := by
    intro hf
    rcases htables f hf with hf | hf
    · exact h.table.apart hf (by simp)
    · exact hfresh hf
  have hnotFree : f ∉ free₁ := fun hf => hfresh (hsub f hf)
  have hinv : TableInv s'.mm root T' free₁ := by
    rw [hc.same]
    exact hm.grows.inv.write (by rw [hhdm]; exact hframe) hnotFree hnotTable
      (fun x hx => hc.mem x (by rw [hhdm] at hx; exact hx))
  have hhdm' : s'.mm.hhdm = s.mm.hhdm := by
    rw [hc.same]
    exact hhdm
  have hleaf : T'.leaf = Function.update T.leaf (pageOf va) (some ⟨f, attrs⟩) := by
    rw [hm.leaf]
    funext q
    unfold mapRange
    by_cases hq : q = pageOf va
    · rw [if_pos (by omega), hq, Function.update_self, Nat.sub_self, Nat.zero_mul, Nat.add_zero]
    · rw [if_neg (by omega), Function.update_of_ne hq]
  have hold : ∀ q, ¬(pageOf va ≤ q ∧ q < pageOf va + 1) → T'.leaf q = T.leaf q := by
    intro q hq
    rw [hm.leaf, mapRange, if_neg hq]
  -- the frame was cleared when it was taken, and only tables have been written to since
  have hzero : ∀ j < 4096, mm₁.mem (f + s.mm.hhdm + j) = 0 := by
    intro j hj
    have hjf : InPage s.mm.hhdm f (f + s.mm.hhdm + j) := ⟨by omega, by omega⟩
    rw [hm.grows.mem]
    · exact Mem.fill_apply _ _ hjf.1 hjf.2
    · rintro g hg hin
      obtain ⟨l, k, hnode⟩ := hg
      have hg' := (hm.grows.inv.frame hnode).aligned
      obtain rfl := inPage_unique hg' hframe.aligned hin hjf
      exact hnotTable ⟨l, k, hnode⟩
  refine ⟨h.taken hm.taken hm.aligned hinv hhdm' hm.fresh hold, hm.taken, hva, hhdm', ?_,
    ⟨by simp, hnotFree, hnotTable⟩, fun g hg => List.mem_cons_of_mem _ (hsub g hg), ?_, ?_, hleaf, ?_, ?_, hc.reads⟩
  · rw [hc.same]
    exact hm.grows.log
  · rw [List.length_cons, hm.grows.split, List.length_append]
    omega
  · intro g hg
    exact (htables g hg).imp_right (List.mem_cons_of_mem _)
  · exact fun j hj => hc.byte j hj (hzero j hj)
  · intro x hx
    have hfx : ¬InPage s.mm.hhdm f x := hx f (.inr ⟨by simp, hnotFree⟩)
    rw [hc.mem x hfx]
    dsimp only
    rw [hm.grows.mem]
    · show s.mm.mem.fill (f + s.mm.hhdm) 4096 0 x = _
      unfold InPage at hfx
      rw [Mem.fill, if_neg hfx]
    · intro g hg
      exact hx g ((htables g hg).imp_right fun hmem => ⟨List.mem_cons_of_mem _ hmem, hm.grows.inv.apart hg⟩)

/-- One turn of the loop on a page of the user range: the frames run out, or it leaves the file, or the
region has no room for the page, or the page is loaded. -/
lemma LoadInv.turn (file : Mem) (h : LoadInv root as s.mm T free) (hver : Verified ph n) (hn : n ≤ 2 ^ 63)
    (hrange : UserRange va 4096) (perms : PagePerms) (uxn : ExecPerms) (m : Nat) :
    (loadFailures s < loadFailures (mapSectionPages file ph perms uxn (m + 1) va as s).2 ∧ free.length < 4) ∨
    (ph.vaddr + ph.filesz < va ∧ LeavesFile n (mapSectionPages file ph perms uxn (m + 1) va as s).2) ∨
    (NoRoom as.region (pageOf va) ∧
      (mapSectionPages file ph perms uxn (m + 1) va as s).1 = .ok (Errno.code .ENOMEM, as)) ∨
    ∃ f region' s' T' free', mapSectionPages file ph perms uxn (m + 1) va as s =
        mapSectionPages file ph perms uxn m (va + 4096) (as.setRegion region') s' ∧
      PageLoaded file ph (userPageAttrs perms uxn) root va as s T free f region' s' T' free' := by
  have hend := hrange.le_end
  simp only [USER_VM_RANGE_END, USER_VM_RANGE_BASE, USER_VM_RANGE_SIZE] at hend
  cases free with
  | nil => exact .inl ⟨mapSectionPages_nil h.table.pmm m va as, by simp⟩
  | cons f free =>
    have hf : IsFrame s.mm.hhdm f := h.table.pmm.frames f (by simp)
    have htop := hf.top
    have htake : LoadInv root as (takeFrame s.mm f) T free := { h with table := h.table.take }
    rw [mapSectionPages_cons h.table.pmm]
    rcases htake.mapOwned hrange ⟨hf.aligned, hf.bound⟩ perms uxn with
      ⟨hfail, hlen⟩ | ⟨hroom, hrun⟩ | ⟨region', mm₁, T', free', used, hrun, hm, hused⟩
    · left
      have hfail' : loadFailures ⟨takeFrame s.mm f, s.reads⟩ < loadFailures
          (onMm (addressSpaceMapOwned as va f PAGE_SIZE perms uxn) ⟨takeFrame s.mm f, s.reads⟩).2 := hfail
      exact ⟨Call.lt_bind (mono_mapSectionRest _ _ _) hfail', Nat.succ_lt_succ hlen⟩
    · right; right; left
      refine ⟨hroom, ?_⟩
      have hf' : IsFrame (takeFrame s.mm f).hhdm f := hf
      have herr : Errno.code .ENOMEM ≠ 0 := by decide
      rw [Call.bind_ok (onMm_ok hrun), mapSectionRest_error hf' herr]
    · have hhdm : mm₁.hhdm = s.mm.hhdm := hm.grows.hhdm
      have hvirt : pmmPhysToVirt f mm₁ = (.ok (f + s.mm.hhdm), mm₁) := by
        rw [pmmPhysToVirt_ok (by rw [hhdm]; omega), hhdm]
      rw [Call.bind_ok (onMm_ok hrun), mapSectionRest, if_neg (by decide), Call.bind_ok (onMm_ok hvirt),
        wadd_of_lt (by simp only [PAGE_SIZE]; omega)]
      by_cases hva : va ≤ ph.vaddr + ph.filesz
      · obtain ⟨s', hcopy, hc⟩ := hver.copySegment_ok file (by omega) hva
          (by omega : f + s.mm.hhdm + 4096 ≤ 2 ^ 64) ⟨mm₁, s.reads⟩
        right; right; right
        exact ⟨f, region', s', T', free', Call.bind_ok hcopy, h.copied hva hm hused hc⟩
      · right; left
        refine ⟨by omega, ?_⟩
        exact leavesFile_bind (hver.copySegment_leavesFile hn (by omega) hrange.le_end _)
          (fun _ => logsReads_mapSectionPages _ _ _ _ _)

/-- One turn of the loop on a page below the user range: the frames run out, or the region has no free
slot, or `bitmap_reserve` panics. -/
lemma LoadInv.turn_below (file : Mem) (ph : ElfProgramHeader) (h : LoadInv root as s.mm T free)
    (hva : va < USER_VM_RANGE_BASE) (perms : PagePerms)
    (uxn : ExecPerms) (m : Nat) :
    (loadFailures s < loadFailures (mapSectionPages file ph perms uxn (m + 1) va as s).2 ∧ free.length < 4) ∨
    ((∀ a ∈ as.region.allocations, a.va ≠ 0) ∧
      (mapSectionPages file ph perms uxn (m + 1) va as s).1 = .ok (Errno.code .ENOMEM, as)) ∨
    ((∃ a ∈ as.region.allocations, a.va = 0) ∧
      (mapSectionPages file ph perms uxn (m + 1) va as s).1 = .error .panic) := by
  have hpool : va < as.region.allocator.pool := Nat.lt_of_lt_of_eq hva h.pool.symm
  cases free with
  | nil => exact .inl ⟨mapSectionPages_nil h.table.pmm m va as, by simp⟩
  | cons f free =>
    right
    have hf : IsFrame (takeFrame s.mm f).hhdm f := h.table.pmm.frames f (by simp)
    rw [mapSectionPages_cons h.table.pmm]
    rcases regionReserve_below (n := PAGE_SIZE / PAGE_SIZE) (by decide) hpool with ⟨hres, hfull⟩ | ⟨hres, hslot⟩
    · have hlift : (Call.lift (regionReserve as.region va (PAGE_SIZE / PAGE_SIZE)) : Kernel _) (takeFrame s.mm f) =
          (.ok (.ENOMEM, as.region), takeFrame s.mm f) := by rw [Call.lift_apply, hres]
      have hrun : addressSpaceMapOwned as va f PAGE_SIZE perms uxn (takeFrame s.mm f) =
          (.ok (Errno.code .ENOMEM, as), takeFrame s.mm f) := by
        rw [addressSpaceMapOwned, if_pos (by decide), if_neg (by decide), Call.bind_ok hlift]
        rfl
      have herr : Errno.code .ENOMEM ≠ 0 := by decide
      refine .inl ⟨hfull, ?_⟩
      rw [Call.bind_ok (onMm_ok hrun), mapSectionRest_error hf herr]
    · have hlift : (Call.lift (regionReserve as.region va (PAGE_SIZE / PAGE_SIZE)) : Kernel _) (takeFrame s.mm f) =
          (.error .panic, takeFrame s.mm f) := by rw [Call.lift_apply, hres]
      have hrun : addressSpaceMapOwned as va f PAGE_SIZE perms uxn (takeFrame s.mm f) =
          (.error .panic, takeFrame s.mm f) := by
        rw [addressSpaceMapOwned, if_pos (by decide), if_neg (by decide), Call.bind_error hlift]
      refine .inr ⟨hslot, ?_⟩
      rw [Call.bind_error (onMm_error hrun)]

/-- The number of free slots of a region. -/
def freeSlots (region : AllocRegion) : Nat := region.allocations.countP (fun a => a.va = 0)

/-- The pages `L` have been taken from the region, each by an allocation of its own. -/
structure LoadedPages (region₀ region : AllocRegion) (L : List Nat) : Prop where
  slots : freeSlots region + L.length = freeSlots region₀
  nodup : L.Nodup
  taken : ∀ q ∈ L, ClearPage region₀ q
  clear : ∀ q, ClearPage region q ↔ ClearPage region₀ q ∧ q ∉ L

lemma LoadedPages.nil (region : AllocRegion) : LoadedPages region region [] :=
  ⟨rfl, List.nodup_nil, fun q hq => absurd hq List.not_mem_nil, fun q => by simp⟩

lemma LoadedPages.slot_iff (h : LoadedPages region₀ region L) :
    (∃ a ∈ region.allocations, a.va = 0) ↔ L.length < freeSlots region₀ := by
  have h1 := h.slots
  have h2 : 0 < freeSlots region ↔ ∃ a ∈ region.allocations, a.va = 0 := by
    simp [freeSlots, List.countP_pos_iff]
  rw [← h2]
  omega

lemma LoadedPages.snoc (h : LoadedPages region₀ region L) (hp : PageRegion region) (ht : Taken region va 1 region')
    (haligned : va % 4096 = 0) : LoadedPages region₀ region' (L ++ [pageOf va]) := by
  have hself : RegionAllocation.Covers ⟨va, 1⟩ (pageOf va) := ⟨Nat.le_refl _, Nat.lt_succ_self _⟩
  have hcovers : ∀ q, RegionAllocation.Covers ⟨va, 1⟩ q ↔ q = pageOf va := by
    intro q
    constructor
    · rintro ⟨h1, h2⟩
      dsimp only at h1 h2
      omega
    · rintro rfl
      exact hself
  obtain ⟨hnew, hnot⟩ := (h.clear _).mp (hp.taken_clear ht haligned hself)
  obtain ⟨slot, old, hslot, hnull, htable⟩ := ht.table
  obtain ⟨hlt, hget⟩ := List.getElem?_eq_some_iff.mp hslot
  have hva := hp.taken_ne_zero ht
  have hpos : 0 < freeSlots region :=
    List.countP_pos_iff.mpr ⟨old, List.mem_of_getElem? hslot, by simpa using hnull⟩
  refine ⟨?_, ?_, ?_, ?_⟩
  · have h1 := h.slots
    unfold freeSlots at *
    rw [htable, List.countP_set hlt, hget, List.length_append, List.length_singleton]
    simp only [hnull, hva, decide_true, decide_false, if_true, Bool.false_eq_true, if_false]
    omega
  · rw [List.nodup_append]
    refine ⟨h.nodup, by simp, ?_⟩
    rintro q hq q' hq' rfl
    rw [List.mem_singleton.mp hq'] at hq
    exact hnot hq
  · intro q hq
    rcases List.mem_append.mp hq with hq | hq
    · exact h.taken q hq
    · rw [List.mem_singleton.mp hq]
      exact hnew
  · intro q
    rw [hp.clearPage_take ht haligned, h.clear, hcovers, List.mem_append, List.mem_singleton, not_or, and_assoc]

/-- The region has room for the pages. -/
structure Room (region₀ : AllocRegion) (L : List Nat) : Prop where
  nodup : L.Nodup
  slots : L.length ≤ freeSlots region₀
  clear : ∀ q ∈ L, ClearPage region₀ q

lemma LoadedPages.room (h : LoadedPages region₀ region L) : Room region₀ L := by
  have h1 := h.slots
  exact ⟨h.nodup, by omega, h.taken⟩

lemma LoadedPages.not_room (h : LoadedPages region₀ region L) {q : Nat} (hno : NoRoom region q) (rest : List Nat) :
    ¬Room region₀ (L ++ q :: rest) := by
  rintro ⟨hnodup, hlen, hclear⟩
  rw [List.length_append, List.length_cons] at hlen
  rcases hno with hfull | htaken
  · obtain ⟨a, ha, hnull⟩ := h.slot_iff.mpr (by omega)
    exact hfull a ha hnull
  · refine htaken ((h.clear q).mpr ⟨hclear q (by simp), fun hmem => ?_⟩)
    exact (List.nodup_append.mp hnodup).2.2 q hmem q (by simp) rfl

/-- The numbers of `m` pages from `va` on. -/
def pagesFrom (va m : Nat) : List Nat := (List.range m).map (fun i => pageOf va + i)

@[simp] lemma length_pagesFrom (va m : Nat) : (pagesFrom va m).length = m := by
  simp [pagesFrom]

lemma pagesFrom_succ (hspan : Span va (m + 1)) : pagesFrom va (m + 1) = pageOf va :: pagesFrom (va + 4096) m := by
  unfold pagesFrom
  rw [List.range_succ_eq_map, List.map_cons, List.map_map, Nat.add_zero]
  refine congrArg (List.cons _) ?_
  rcases Nat.eq_zero_or_pos m with rfl | hpos
  · simp
  · have hnext : pageOf (va + 1 * 4096) = pageOf va + 1 := hspan.pageOf_add (by omega)
    rw [Nat.one_mul] at hnext
    apply List.map_congr_left
    intro i _
    rw [hnext]
    simp only [Function.comp_apply]
    omega

/-- The loop has loaded `m` pages from `va` on. -/
structure PagesLoaded (file : Mem) (ph : ElfProgramHeader) (attrs : PageAttrs) (root va m : Nat) (s : Loading)
    (T : Tree)
    (free : List Nat) (as' : AddressSpace) (s' : Loading) (T' : Tree) (free' : List Nat) : Prop where
  inv : LoadInv root as' s'.mm T' free'
  before : ∀ i < m, va + i * 4096 ≤ ph.vaddr + ph.filesz
  hhdm : s'.mm.hhdm = s.mm.hhdm
  log : s'.mm.log = s.mm.log
  still : ∀ g ∈ free', g ∈ free
  spent : free.length ≤ free'.length + 4 * m
  tables : ∀ g, T'.IsTable g → T.IsTable g ∨ g ∈ free
  pages : ∀ i < m, ∃ f ∈ free, T'.leaf (pageOf va + i) = some ⟨f, attrs⟩ ∧
    ∀ j < 4096, s'.mm.mem (f + s.mm.hhdm + j) = segmentByte file ph (va + i * 4096 + j)
  others : ∀ q, ¬(pageOf va ≤ q ∧ q < pageOf va + m) → T'.leaf q = T.leaf q
  mem : ∀ x, (∀ g, T.IsTable g ∨ (g ∈ free ∧ g ∉ free') → ¬InPage s.mm.hhdm g x) → s'.mm.mem x = s.mm.mem x
  reads : ∀ r ∈ s'.reads, r ∈ s.reads ∨ (ph.offset ≤ r.offset ∧ r.offset + r.size ≤ ph.offset + ph.filesz)

lemma PagesLoaded.nil {attrs : PageAttrs} (h : LoadInv root as s.mm T free) :
    PagesLoaded file ph attrs root va 0 s T free as s T free where
  inv := h
  before i hi := absurd hi (Nat.not_lt_zero i)
  hhdm := rfl
  log := rfl
  still _ hg := hg
  spent := Nat.le_refl _
  tables _ hg := .inl hg
  pages i hi := absurd hi (Nat.not_lt_zero i)
  others _ _ := rfl
  mem _ _ := rfl
  reads _ hr := .inl hr

lemma PagesLoaded.cons {attrs : PageAttrs} {s₁ : Loading} {T₁ : Tree} {free₁ : List Nat}
    (hrest : PagesLoaded file ph attrs root (va + 4096) m s₁ T₁ free₁ as' s' T' free')
    (h : LoadInv root as s.mm T free) (hspan : Span va (m + 1))
    (hfirst : PageLoaded file ph attrs root va as s T free f region' s₁ T₁ free₁) :
    PagesLoaded file ph attrs root va (m + 1) s T free as' s' T' free' := by
  have hhdm := hfirst.hhdm
  have hnext : ∀ i, i < m → pageOf (va + 4096) + i = pageOf va + (i + 1) := by
    intro i hi
    have h1 := hspan.pageOf_add (i := 1) (by omega)
    rw [Nat.one_mul] at h1
    omega
  have haway : ∀ q, ¬(pageOf va ≤ q ∧ q < pageOf va + (m + 1)) ∨ q = pageOf va →
      ¬(pageOf (va + 4096) ≤ q ∧ q < pageOf (va + 4096) + m) := by
    intro q hq hcov
    have h1 := hnext 0 (by omega)
    omega
  obtain ⟨hmem, hnotFree, hnotTable⟩ := hfirst.frame
  have hframe : IsFrame s.mm.hhdm f := h.table.pmm.frames f hmem
  refine ⟨hrest.inv, ?_, hrest.hhdm.trans hhdm, hrest.log.trans hfirst.log, ?_, ?_, ?_, ?_, ?_, ?_, ?_⟩
  · intro i hi
    cases i with
    | zero => simpa using hfirst.before
    | succ i =>
      have h1 := hrest.before i (by omega)
      omega
  · exact fun g hg => hfirst.still g (hrest.still g hg)
  · have h1 := hfirst.spent
    have h2 := hrest.spent
    omega
  · intro g hg
    rcases hrest.tables g hg with hg | hg
    · exact hfirst.tables g hg
    · exact .inr (hfirst.still g hg)
  · intro i hi
    cases i with
    | zero =>
      refine ⟨f, hmem, ?_, ?_⟩
      · rw [Nat.add_zero, hrest.others _ (haway _ (.inr rfl)), hfirst.leaf, Function.update_self]
      · -- the later turns write to tables and to frames that are free after this one
        intro j hj
        rw [Nat.zero_mul, Nat.add_zero, ← hfirst.byte j hj]
        apply hrest.mem
        rw [hhdm]
        rintro g hg hin
        have hgf : g % 4096 = 0 := by
          rcases hg with ⟨l, k, hnode⟩ | ⟨hg, -⟩
          · exact (hfirst.inv.table.frame hnode).aligned
          · exact (hfirst.inv.table.pmm.frames g hg).aligned
        have hjf : InPage s.mm.hhdm f (f + s.mm.hhdm + j) := ⟨by omega, by omega⟩
        obtain rfl := inPage_unique hgf hframe.aligned hin hjf
        rcases hg with hg | ⟨hg, -⟩
        · exact hnotTable hg
        · exact hnotFree hg
    | succ i =>
      obtain ⟨g, hg, hleaf, hbyte⟩ := hrest.pages i (by omega)
      refine ⟨g, hfirst.still g hg, ?_, ?_⟩
      · rw [← hnext i (by omega)]
        exact hleaf
      · intro j hj
        have h1 := hbyte j hj
        rw [hhdm] at h1
        rw [h1]
        exact congrArg _ (by omega)
  · intro q hq
    rw [hrest.others q (haway q (.inl hq)), hfirst.leaf, Function.update_of_ne]
    rintro rfl
    omega
  · intro x hx
    rw [hrest.mem x, hfirst.mem x]
    · exact fun g hg => hx g (hg.imp_right fun ⟨hmem, hgone⟩ => ⟨hmem, fun hfree => hgone (hrest.still g hfree)⟩)
    · rw [hhdm]
      rintro g (hg | ⟨hg, hgone⟩)
      · have hgone : g ∉ free' := fun hfree => hfirst.inv.table.apart hg (hrest.still g hfree)
        exact hx g ((hfirst.tables g hg).imp_right fun hmem => ⟨hmem, hgone⟩)
      · exact hx g (.inr ⟨hfirst.still g hg, hgone⟩)
  · intro r hr
    rcases hrest.reads r hr with hr | hr
    · exact hfirst.reads r hr
    · exact .inr hr

/-- The first `m` turns of the loop, over pages of the user range: the frames run out, or it leaves the file, or the
region has no room for the pages, or all are loaded and `rest` pages are left. -/
lemma LoadInv.turns (file : Mem) (h : LoadInv root as s.mm T free) (hl : LoadedPages region₀ as.region L)
    (hver : Verified ph n)
    (hn : n ≤ 2 ^ 63) (hrange : UserRange va (m * 4096)) (perms : PagePerms) (uxn : ExecPerms) (rest : Nat) :
    (loadFailures s < loadFailures (mapSectionPages file ph perms uxn (m + rest) va as s).2 ∧
      free.length < 4 * (freeSlots as.region + 1)) ∨
    ((∃ i < m, ph.vaddr + ph.filesz < va + i * 4096) ∧
      LeavesFile n (mapSectionPages file ph perms uxn (m + rest) va as s).2) ∨
    (¬Room region₀ (L ++ pagesFrom va m) ∧
      ∃ as', (mapSectionPages file ph perms uxn (m + rest) va as s).1 = .ok (Errno.code .ENOMEM, as')) ∨
    ∃ as' s' T' free', mapSectionPages file ph perms uxn (m + rest) va as s =
        mapSectionPages file ph perms uxn rest (va + m * 4096) as' s' ∧
      PagesLoaded file ph (userPageAttrs perms uxn) root va m s T free as' s' T' free' ∧
      LoadedPages region₀ as'.region (L ++ pagesFrom va m) := by
  induction m generalizing va as s T free L with
  | zero =>
    right; right; right
    refine ⟨as, s, T, free, by rw [Nat.zero_add, Nat.zero_mul, Nat.add_zero], .nil h, ?_⟩
    rw [show pagesFrom va 0 = [] from rfl, List.append_nil]
    exact hl
  | succ m ih =>
    obtain ⟨h1, h2, h3, h4⟩ := hrange
    have hpage : UserRange va 4096 := ⟨h1, by decide, h3, by omega⟩
    have hspan : Span va (m + 1) := by
      have hs := UserRange.span ⟨h1, h2, h3, h4⟩
      rwa [Nat.mul_div_cancel _ (by decide)] at hs
    rw [pagesFrom_succ hspan, Nat.add_right_comm m 1 rest]
    rcases h.turn file hver hn hpage perms uxn (m + rest) with
      ⟨hfail, hlen⟩ | ⟨hbehind, hleaves⟩ | ⟨hroom, hret⟩ | ⟨f, region', s₁, T₁, free₁, hrun, hp⟩
    · exact .inl ⟨hfail, by omega⟩
    · exact .inr (.inl ⟨⟨0, by omega, by omega⟩, hleaves⟩)
    · exact .inr (.inr (.inl ⟨hl.not_room hroom _, as, hret⟩))
    · have hrest : UserRange (va + 4096) (m * 4096) :=
        ⟨by omega, Nat.mul_mod_left _ _, Nat.le_add_right_of_le h3, by rw [Nat.add_assoc]; omega⟩
      have hsame : loadFailures s₁ = loadFailures s := by rw [loadFailures, failures, hp.log]; rfl
      have hl₁ := hl.snoc h.pages hp.taken h1
      have hnext : va + (m + 1) * 4096 = va + 4096 + m * 4096 := by omega
      rw [hrun, hnext]
      rcases ih hp.inv hl₁ hrest with
        ⟨hfail, hlen⟩ | ⟨⟨i, hi, hbehind⟩, hleaves⟩ | ⟨hroom, hret⟩ | ⟨as', s', T', free', hloop, hpages, hl'⟩
      · left
        have hslots := hl.slots
        have hslots₁ := hl₁.slots
        have hspent := hp.spent
        rw [List.length_append, List.length_singleton] at hslots₁
        have hregion : (as.setRegion region').region = region' := rfl
        rw [hregion] at hlen
        rw [hsame] at hfail
        exact ⟨hfail, by omega⟩
      · exact .inr (.inl ⟨⟨i + 1, by omega, by omega⟩, hleaves⟩)
      · refine .inr (.inr (.inl ⟨?_, hret⟩))
        rwa [List.append_assoc, List.singleton_append] at hroom
      · refine .inr (.inr (.inr ⟨as', s', T', free', hloop, hpages.cons h hspan hp, ?_⟩))
        rwa [List.append_assoc, List.singleton_append] at hl'

/-- The whole loop. -/
lemma LoadInv.loop (file : Mem) (h : LoadInv root as s.mm T free) (hl : LoadedPages region₀ as.region L)
    (hver : Verified ph n)
    (hn : n ≤ 2 ^ 63) (hrange : UserRange va (m * 4096)) (perms : PagePerms) (uxn : ExecPerms) :
    (loadFailures s < loadFailures (mapSectionPages file ph perms uxn m va as s).2 ∧
      free.length < 4 * (freeSlots as.region + 1)) ∨
    ((∃ i < m, ph.vaddr + ph.filesz < va + i * 4096) ∧ LeavesFile n (mapSectionPages file ph perms uxn m va as s).2) ∨
    (¬Room region₀ (L ++ pagesFrom va m) ∧
      ∃ as', (mapSectionPages file ph perms uxn m va as s).1 = .ok (Errno.code .ENOMEM, as')) ∨
    ∃ as' s' T' free', mapSectionPages file ph perms uxn m va as s = (.ok (0, as'), s') ∧
      PagesLoaded file ph (userPageAttrs perms uxn) root va m s T free as' s' T' free' ∧
      LoadedPages region₀ as'.region (L ++ pagesFrom va m) :=
  h.turns file hl hver hn hrange perms uxn 0

lemma Verified.userRange (h : Verified ph n) (hpos : 0 < ph.memsz) (hbase : USER_VM_RANGE_BASE ≤ ph.vaddr) :
    UserRange (mapStart ph) ((mapEnd ph - mapStart ph) / PAGE_SIZE * 4096) := by
  have h1 := h.mapStart_eq
  have h2 := h.pages_eq hpos
  have h3 := h.mapEnd_le hpos
  simp only [USER_VM_RANGE_BASE, USER_VM_RANGE_END, USER_VM_RANGE_SIZE, PAGE_SIZE] at *
  refine ⟨by omega, by omega, ?_, ?_⟩
  · simp only [USER_VM_RANGE_BASE]
    omega
  · simp only [USER_VM_RANGE_BASE, USER_VM_RANGE_END, USER_VM_RANGE_SIZE]
    omega

end KaworuOS.Proofs
