import KaworuOS.Proofs.ElfImage
import KaworuOS.Proofs.ElfPanics
import KaworuOS.Proofs.SpaceFork

/-!
# When the loader stays inside the file

`elf_load` does not look at the size of the file before it reads the header and the program headers,
and a segment with a page behind its last byte of the file makes it read far outside. Only the loop
decides which headers and pages it comes to, so the bounds are stated for those that it can reach.
-/

namespace KaworuOS.Proofs
open Lib

variable {α : Type} {file : Mem} {n va pa root m k : Nat} {ph : ElfProgramHeader} {as as' : AddressSpace}
  {s s' : Loading} {mm mm' : Mm} {T T' : Tree} {free free' L : List Nat} {perms : PagePerms} {uxn : ExecPerms}
  {region₀ region region' : AllocRegion}

/-- The header, the table of program headers or a segment does not fit in the file. -/
def Unfit (file : Mem) (n : Nat) : Prop :=
  n < ELF_HEADER_SIZE ∨ n < headerStart file (headerCount file) ∨
    ∃ k < headerCount file, IsLoad file k ∧ n < (headerAt file k).offset + (headerAt file k).filesz

/-- `elf_load` reads only bytes of the file, and it returns `-EINVAL` if the header, the table of program headers or a
segment does not fit. -/
structure ParsedInside (file : Mem) (n : Nat) (as : AddressSpace) (mm : Mm) : Prop where
  reads : ∀ r ∈ (elfLoad file n as ⟨mm, []⟩).2.reads, r.offset + r.size ≤ n
  refused : Unfit file n → ∃ as', (elfLoad file n as ⟨mm, []⟩).1 = .ok (.error (Errno.code .EINVAL), as')

/-- An address space that `address_space_create` has just made, with the memory at that time. -/
def NewSpace (as : AddressSpace) (mm : Mm) : Prop :=
  ∃ s₀ free₀, PmmInv s₀ free₀ ∧ addressSpaceCreate s₀ = (.ok (.ok as), mm)

/-- The type of the header with the number `k` lies in the file, and so do its other fields if they are read. -/
structure HeaderInside (file : Mem) (n k : Nat) : Prop where
  type : headerStart file k + 4 ≤ n
  fields : IsLoad file k → headerStart file k + 48 ≤ n

/-- No page of the segment that can be mapped begins behind the bytes that come from the file. -/
def TailInside (region₀ : AllocRegion) (ph : ElfProgramHeader) (n : Nat) (L : List Nat) : Prop :=
  verifyProgramHeader ph n = .EOK → 0 < ph.memsz → ∀ i < segmentCount ph,
    Room region₀ (L ++ pagesFrom (mapStart ph) (i + 1)) → mapStart ph + i * PAGE_SIZE ≤ ph.vaddr + ph.filesz

/-- The bytes that `elf_load` asks for lie in the file: those of the identification as far as they match, the fields
of the header, and what it needs of each program header that it comes to. -/
structure ReadsFit (region₀ : AllocRegion) (file : Mem) (n : Nat) : Prop where
  ident : ∀ j < 6, Matches file identBytes 0 j → j < n
  header : Matches file identBytes 0 6 → 58 ≤ n
  table : Matches file identBytes 0 6 → ∀ k < headerCount file, Reached region₀ file n k → HeaderInside file n k
  tail : Matches file identBytes 0 6 → ∀ k < headerCount file, Reached region₀ file n k → IsLoad file k →
    TailInside region₀ (headerAt file k) n (pagesBefore file k)

/-- What a file needs for that, with the region of the address space and with frames always there. -/
structure FitsIn (region₀ : AllocRegion) (file : Mem) (n : Nat) : Prop where
  reads : ReadsFit region₀ file n
  refused : Matches file identBytes 0 6 → Unfit file n →
    ∃ k < headerCount file, Reached region₀ file n k ∧ Refused file n k

/-- The region of a new address space whose bitmap is clear. -/
def clearRegion : AllocRegion :=
  ⟨⟨fun _ => 0, USER_VM_RANGE_SIZE / PAGE_SIZE, USER_VM_RANGE_BASE⟩,
    List.replicate CONFIG_VM_MAX_USER_ALLOCATIONS ⟨0, 0⟩⟩

/-- A header that the loop of `elf_load` passes without taking memory. -/
def TakesNothing (file : Mem) (n k : Nat) : Prop :=
  IsLoad file k → verifyProgramHeader (headerAt file k) n = .EOK ∧ (headerAt file k).memsz = 0

/-- What a file needs in every new address space. The frames may run out, so that a header that is refused is
found only if nothing before it takes memory. -/
structure FileFits (file : Mem) (n : Nat) : Prop where
  reads : ReadsFit clearRegion file n
  refused : Matches file identBytes 0 6 → Unfit file n →
    ∃ k < headerCount file, Refused file n k ∧ ∀ i < k, TakesNothing file n i

/-! ### Reads in any state of the memory -/

/-- All reads of the file so far end below offset `n`. -/
def ReadsInside (n : Nat) (s : Loading) : Prop := ∀ r ∈ s.reads, r.offset + r.size ≤ n

/-- The reads of the call lie inside the file, and if it returns, then with `Q`. -/
structure StaysInside (n : Nat) (x : Loader α) (s : Loading) (Q : α → Loading → Prop) : Prop where
  stopped : ∀ e s', x s = (.error e, s') → ReadsInside n s'
  returned : ∀ a s', x s = (.ok a, s') → ReadsInside n s' ∧ Q a s'

lemma staysInside_of_ok {x : Loader α} {Q : α → Loading → Prop} {a : α} (hrun : x s = (.ok a, s'))
    (hs : ReadsInside n s') (hQ : Q a s') : StaysInside n x s Q := by
  refine ⟨fun e s₁ hstop => ?_, fun b s₁ hret => ?_⟩
  · rw [hrun] at hstop
    cases hstop
  · rw [hrun] at hret
    cases hret
    exact ⟨hs, hQ⟩

lemma staysInside_pure {Q : α → Loading → Prop} {a : α} (hs : ReadsInside n s) (hQ : Q a s) :
    StaysInside n (pure a) s Q := staysInside_of_ok rfl hs hQ

lemma StaysInside.bind {β : Type} {x : Loader α} {f : α → Loader β} {Q : α → Loading → Prop} {R : β → Loading → Prop}
    (h : StaysInside n x s Q) (hf : ∀ a s', ReadsInside n s' → Q a s' → StaysInside n (f a) s' R) :
    StaysInside n (x >>= f) s R := by
  rcases hx : x s with ⟨e | a, s₁⟩
  · refine ⟨fun e' s' hrun => ?_, fun b s' hrun => ?_⟩
    · rw [Call.bind_error hx] at hrun
      cases hrun
      exact h.stopped e s₁ hx
    · rw [Call.bind_error hx] at hrun
      cases hrun
  · obtain ⟨hs₁, hQ⟩ := h.returned a s₁ hx
    have hnext := hf a s₁ hs₁ hQ
    refine ⟨fun e' s' hrun => ?_, fun b s' hrun => ?_⟩
    · rw [Call.bind_ok hx] at hrun
      exact hnext.stopped e' s' hrun
    · rw [Call.bind_ok hx] at hrun
      exact hnext.returned b s' hrun

lemma StaysInside.congr {x y : Loader α} {Q : α → Loading → Prop} (h : StaysInside n y s' Q) (heq : x s = y s') :
    StaysInside n x s Q :=
  ⟨fun e s₁ hrun => h.stopped e s₁ (heq.symm.trans hrun), fun a s₁ hrun => h.returned a s₁ (heq.symm.trans hrun)⟩

lemma StaysInside.reads {x : Loader α} {Q : α → Loading → Prop} (h : StaysInside n x s Q) : ReadsInside n (x s).2 := by
  rcases hx : x s with ⟨e | a, s₁⟩
  · exact h.stopped e s₁ hx
  · exact (h.returned a s₁ hx).1

lemma staysInside_onMm (x : Kernel α) (hs : ReadsInside n s) :
    StaysInside n (onMm x) s (fun a s' => x s.mm = (.ok a, s'.mm)) := by
  rcases hx : x s.mm with ⟨e | a, mm⟩
  · refine ⟨fun e' s' hrun => ?_, fun a s' hrun => ?_⟩
    · rw [onMm_error hx] at hrun
      cases hrun
      exact hs
    · rw [onMm_error hx] at hrun
      cases hrun
  · exact staysInside_of_ok (onMm_ok hx) hs rfl

lemma ReadsInside.cons {offset size : Nat} (hs : ReadsInside n s) (h : offset + size ≤ n) (mm : Mm) :
    ReadsInside n ⟨mm, ⟨offset, size⟩ :: s.reads⟩ := List.forall_mem_cons.mpr ⟨h, hs⟩

lemma staysInside_readFile {offset size : Nat} (hs : ReadsInside n s) (h : offset + size ≤ n) :
    StaysInside n (readFile file offset size) s (fun _ _ => True) := staysInside_of_ok rfl (hs.cons h _) trivial

lemma Verified.copySegment_staysInside (file : Mem) (page : Nat) (h : Verified ph n) (hn : n < 2 ^ 64)
    (hva : va ≤ ph.vaddr + ph.filesz) (hs : ReadsInside n s) :
    StaysInside n (copySegment file ph va page) s (fun _ _ => True) := by
  unfold copySegment
  by_cases hcopy : copyEnd ph va ≤ copyStart ph va
  · rw [if_pos hcopy]
    exact staysInside_pure hs trivial
  · rw [if_neg hcopy]
    have hoffset := h.fileOffset_eq hn hva
    have hinside := h.inside
    dsimp only
    rw [hoffset]
    rw [h.copyEnd_eq hva, h.copyStart_eq] at hcopy ⊢
    exact staysInside_of_ok rfl (hs.cons (by omega) _) trivial

/-- An error value of `pmm_alloc` is `-ENOMEM`, in any state. -/
lemma pmmAlloc_isErr (hrun : pmmAlloc mm = (.ok pa, mm')) (herr : isErrValue pa = true) : pa = errToPtr .ENOMEM := by
  unfold pmmAlloc at hrun
  rw [Call.read_bind] at hrun
  by_cases hzero : mm.freeList = 0
  · rw [if_pos hzero] at hrun
    exact (Except.ok.inj (Prod.mk.inj hrun).1).symm
  · rw [if_neg hzero] at hrun
    obtain ⟨next, mm₁, hread, hrun⟩ := Call.ok_of_bind hrun
    have hptr : isErrValue mm.freeList = false := by
      by_contra hbad
      rw [readWord, if_pos (Bool.eq_true_of_not_eq_false hbad)] at hread
      cases (Prod.mk.inj hread).1
    rw [Call.update_bind, memset, Call.update_bind] at hrun
    unfold pmmVirtToPhys at hrun
    rw [Call.read_bind] at hrun
    split at hrun
    · obtain rfl := Except.ok.inj (Prod.mk.inj hrun).1
      simp only [isErrValue, decide_eq_true_eq, decide_eq_false_iff_not] at herr hptr
      omega
    · cases (Prod.mk.inj hrun).1

/-- The region of the address space has the pages `L` taken from `region₀`. -/
structure RegionLoaded (region₀ : AllocRegion) (as : AddressSpace) (L : List Nat) : Prop where
  start : region₀.allocator.pool = USER_VM_RANGE_BASE
  pages : PageRegion as.region
  pool : as.region.allocator.pool = USER_VM_RANGE_BASE
  count : as.region.allocator.pageCount = USER_VM_RANGE_SIZE / PAGE_SIZE
  loaded : LoadedPages region₀ as.region L

/-- If `address_space_map_owned` returns zero for a page, it has taken the page from the region. -/
lemma RegionLoaded.mapOwned (h : RegionLoaded region₀ as L) (haligned : va % 4096 = 0)
    (hend : va + 4096 ≤ USER_VM_RANGE_END)
    (hrun : addressSpaceMapOwned as va pa PAGE_SIZE perms uxn mm = (.ok (0, as'), mm')) :
    RegionLoaded region₀ as' (L ++ [pageOf va]) := by
  obtain ⟨hstart, hpages, hpool, hcount, hloaded⟩ := h
  rw [addressSpaceMapOwned, if_pos (by decide), if_neg (by decide), show PAGE_SIZE / PAGE_SIZE = 1 by decide] at hrun
  obtain ⟨⟨err, region⟩, mm₁, hres, hrun⟩ := Call.ok_of_bind hrun
  have hreserve : regionReserve as.region va 1 = .ok (err, region) := (Prod.mk.inj hres).1
  have herr : err = .EOK := by
    by_contra hne
    dsimp only at hrun
    rw [if_pos hne] at hrun
    exact hne (Errno.eq_EOK_of_code (Prod.mk.inj (Except.ok.inj (Prod.mk.inj hrun).1)).1)
  subst herr
  have htaken : Taken as.region va 1 region := by
    rcases Nat.lt_or_ge va as.region.allocator.pool with hlow | hin
    · rcases regionReserve_below (n := 1) (by decide) hlow with ⟨hbelow, -⟩ | ⟨hbelow, -⟩
      · rw [hbelow] at hreserve
        cases hreserve
      · rw [hbelow] at hreserve
        cases hreserve
    · have hfits : (va - as.region.allocator.pool) / 4096 + 1 ≤ as.region.allocator.pageCount := by
        rw [hpool] at hin ⊢
        rw [hcount]
        simp only [USER_VM_RANGE_BASE, USER_VM_RANGE_END, USER_VM_RANGE_SIZE, PAGE_SIZE] at *
        omega
      rcases hpages.reserve_cases (n := 1) (by decide) hin hfits with ⟨-, hfull⟩ | ⟨region', hok, ht⟩
      · rw [hfull] at hreserve
        cases hreserve
      · rw [hok] at hreserve
        obtain rfl := (Prod.mk.inj (Except.ok.inj hreserve)).2
        exact ht
  dsimp only at hrun
  rw [if_neg (by decide)] at hrun
  obtain ⟨ret, mm₂, -, hrun⟩ := Call.ok_of_bind hrun
  by_cases hret : ret = 0
  · rw [if_neg (not_not.mpr hret)] at hrun
    obtain rfl := (Prod.mk.inj (Except.ok.inj (Prod.mk.inj hrun).1)).2
    refine ⟨hstart, hpages.take htaken haligned, ?_, ?_, hloaded.snoc hpages htaken haligned⟩
    · rw [← hpool]
      exact htaken.marked.pool
    · rw [← hcount]
      exact htaken.marked.pageCount
  · rw [if_pos hret] at hrun
    obtain ⟨⟨_, region'⟩, mm₃, -, hrun⟩ := Call.ok_of_bind hrun
    exact absurd (Prod.mk.inj (Except.ok.inj (Prod.mk.inj hrun).1)).1 hret

/-- The loop of `map_section_from_header`, in any state of the memory. -/
lemma RegionLoaded.mapSectionPages (file : Mem) (h : RegionLoaded region₀ as L) (hver : Verified ph n) (hn : n < 2 ^ 64)
    (haligned : va % 4096 = 0) (hend : va + m * 4096 ≤ USER_VM_RANGE_END) (perms : PagePerms) (uxn : ExecPerms)
    (htail : ∀ i < m, Room region₀ (L ++ pagesFrom va (i + 1)) → va + i * 4096 ≤ ph.vaddr + ph.filesz)
    (hs : ReadsInside n s) :
    StaysInside n (mapSectionPages file ph perms uxn m va as) s
      (fun r _ => r.1 = 0 → RegionLoaded region₀ r.2 (L ++ pagesFrom va m)) := by
  induction m generalizing va as s L with
  | zero =>
    refine staysInside_pure hs (fun _ => ?_)
    rw [show pagesFrom va 0 = [] from rfl, List.append_nil]
    exact h
  | succ m ih =>
    have hspan : ∀ i ≤ m, Span va (i + 1) := by
      intro i hi
      simp only [USER_VM_RANGE_END, USER_VM_RANGE_BASE, USER_VM_RANGE_SIZE] at hend
      exact ⟨haligned, by omega, by omega⟩
    rw [mapSectionPages_succ]
    refine (staysInside_onMm pmmAlloc hs).bind (fun pa s₁ hs₁ halloc => ?_)
    by_cases herr : isErrValue pa = true
    · rw [if_pos herr]
      have hcode : wordSize - pa ≠ 0 := by
        rw [pmmAlloc_isErr halloc herr]
        decide
      exact staysInside_pure hs₁ (fun hzero => absurd hzero hcode)
    rw [if_neg herr]
    refine (staysInside_onMm _ hs₁).bind ?_
    rintro ⟨ret, as₁⟩ s₂ hs₂ hmap
    by_cases hret : ret = 0
    case neg =>
      rw [mapSectionRest, if_pos hret]
      exact (staysInside_onMm (pmmFree pa) hs₂).bind
        (fun _ s₃ hs₃ _ => staysInside_pure hs₃ (fun hzero => absurd hzero hret))
    subst hret
    rw [mapSectionRest, if_neg (by decide)]
    have hend' : va + 4096 ≤ USER_VM_RANGE_END := by omega
    have h₁ := h.mapOwned haligned hend' hmap
    have hva : va ≤ ph.vaddr + ph.filesz := by
      have hfirst := htail 0 (Nat.succ_pos m) ?_
      · omega
      · rw [pagesFrom_succ (hspan 0 (Nat.zero_le m))]
        exact h₁.loaded.room
    refine (staysInside_onMm _ hs₂).bind (fun page s₃ hs₃ _ => ?_)
    refine (hver.copySegment_staysInside file page hn hva hs₃).bind (fun _ s₄ hs₄ _ => ?_)
    have hnext : wadd va PAGE_SIZE = va + 4096 := by
      simp only [USER_VM_RANGE_END, USER_VM_RANGE_BASE, USER_VM_RANGE_SIZE] at hend'
      exact wadd_of_lt (by simp only [PAGE_SIZE]; omega)
    rw [hnext, pagesFrom_succ (hspan m (Nat.le_refl m)), ← List.singleton_append, ← List.append_assoc]
    refine ih h₁ (by omega) (by omega) (fun i hi hroom => ?_) hs₄
    have hbound := htail (i + 1) (by omega) ?_
    · omega
    · rw [pagesFrom_succ (hspan (i + 1) (by omega)), ← List.singleton_append, ← List.append_assoc]
      exact hroom

lemma Verified.segmentPages_head (h : Verified ph n) (hpos : 0 < ph.memsz) :
    pageOf (mapStart ph) ∈ segmentPages ph := by
  have h1 := h.pages_eq hpos
  have h2 := h.mapStart_eq
  have h3 := h.mapEnd_eq hpos
  have hcount : 0 < (mapEnd ph - mapStart ph) / PAGE_SIZE := by
    simp only [PAGE_SIZE]
    omega
  rw [segmentPages, if_pos hpos, pagesFrom]
  exact List.mem_map.mpr ⟨0, List.mem_range.mpr hcount, rfl⟩

/-- A segment whose first page can be mapped begins in the user range. -/
lemma Verified.base_le (h : Verified ph n) (hstart : region₀.allocator.pool = USER_VM_RANGE_BASE)
    (hclear : ClearPage region₀ (pageOf (mapStart ph))) : USER_VM_RANGE_BASE ≤ ph.vaddr := by
  have hlow := hclear.1.1
  have h1 := h.mapStart_eq
  have h2 := h.fits
  rw [hstart] at hlow
  simp only [pageOf, USER_VM_RANGE_BASE, USER_VM_RANGE_END, USER_VM_RANGE_SIZE] at *
  omega

/-- `map_section_from_header`, in any state of the memory. -/
lemma RegionLoaded.mapSectionFromHeader (file : Mem) (h : RegionLoaded region₀ as L) (hn : n < 2 ^ 64)
    (htail : TailInside region₀ ph n L) (hs : ReadsInside n s) :
    StaysInside n (mapSectionFromHeader file n ph as) s
      (fun r _ => r.1 = 0 → MapsSegment region₀ ph n L ∧ RegionLoaded region₀ r.2 (L ++ segmentPages ph)) := by
  unfold KaworuOS.mapSectionFromHeader
  by_cases hok : verifyProgramHeader ph n = .EOK
  case neg =>
    rw [if_pos hok]
    exact staysInside_pure hs (fun hzero => absurd (Errno.eq_EOK_of_code hzero) hok)
  have hver : Verified ph n := (verifyProgramHeader_eq_EOK hn).mp hok
  rw [if_neg (not_not.mpr hok)]
  by_cases hzero : ph.memsz = 0
  · rw [if_pos hzero]
    have hpages : segmentPages ph = [] := if_neg (by omega)
    refine staysInside_pure hs (fun _ => ?_)
    rw [hpages, List.append_nil]
    refine ⟨⟨hok, fun hpos => absurd hpos (by omega), ?_⟩, h⟩
    rw [hpages, List.append_nil]
    exact h.loaded.room
  · have hpos : 0 < ph.memsz := Nat.pos_of_ne_zero hzero
    have hpages : segmentPages ph = pagesFrom (mapStart ph) (segmentCount ph) := if_pos hpos
    rw [if_neg hzero]
    have hstart := hver.mapStart_eq
    have hstop := hver.pages_eq hpos
    have hend := hver.mapEnd_le hpos
    have hlast : mapStart ph + segmentCount ph * 4096 ≤ USER_VM_RANGE_END := by
      unfold segmentCount PAGE_SIZE
      omega
    have hloop := h.mapSectionPages file hver hn (by omega) hlast (segmentPerms ph) (segmentExec ph)
      (htail hok hpos) hs
    refine ⟨hloop.stopped, fun r s' hrun => ?_⟩
    obtain ⟨hs', hr⟩ := hloop.returned r s' hrun
    refine ⟨hs', fun hret => ?_⟩
    have hloaded := hr hret
    rw [← hpages] at hloaded
    have hroom := hloaded.loaded.room
    have hfirst := hroom.clear _ (List.mem_append_right _ (hver.segmentPages_head hpos))
    exact ⟨⟨hok, fun _ => hver.base_le h.start hfirst, hroom⟩, hloaded⟩

/-- The loop of `elf_load` over `m` headers, in any state of the memory. -/
lemma RegionLoaded.loadHeaders (h : RegionLoaded region₀ as (pagesBefore file k)) (hreached : Reached region₀ file n k)
    (hn : n < 2 ^ 64) (m : Nat) (htable : ∀ j < k + m, Reached region₀ file n j → HeaderInside file n j)
    (htail : ∀ j < k + m, Reached region₀ file n j → IsLoad file j →
      TailInside region₀ (headerAt file j) n (pagesBefore file j)) (hs : ReadsInside n s) :
    StaysInside n (loadHeaders file n (List.range' k m) as) s (fun _ _ => True) := by
  induction m generalizing k as s with
  | zero => exact staysInside_pure hs trivial
  | succ m ih =>
    rw [List.range'_succ]
    have hinside := htable k (by omega) hreached
    by_cases hload : IsLoad file k
    case neg =>
      have hs₁ : ReadsInside n (typeRead file k s) := hs.cons hinside.type _
      refine StaysInside.congr ?_ (loadHeaders_skip hload)
      have hnext : RegionLoaded region₀ as (pagesBefore file (k + 1)) := by rwa [pagesBefore_skip hload]
      exact ih hnext (hreached.succ (fun hk => absurd hk hload)) (fun j hj => htable j (by omega))
        (fun j hj => htail j (by omega)) hs₁
    have hfields := hinside.fields hload
    have hs₁ : ReadsInside n (headerRead file k s) := by
      unfold ReadsInside headerRead
      simp only [List.forall_mem_cons]
      exact ⟨by omega, by omega, by omega, by omega, by omega, by omega, hs⟩
    refine StaysInside.congr ?_ (loadHeaders_load hload)
    refine (h.mapSectionFromHeader file hn (htail k (by omega) hreached hload) hs₁).bind ?_
    rintro ⟨ret, as₁⟩ s₂ hs₂ hr
    by_cases hret : ret = 0
    case neg =>
      rw [headersRest, if_pos hret]
      exact staysInside_pure hs₂ trivial
    rw [headersRest, if_neg (not_not.mpr hret)]
    obtain ⟨hmaps, hnext⟩ := hr hret
    rw [← pagesBefore_load hload] at hnext
    exact ih hnext (hreached.succ (fun _ => hmaps)) (fun j hj => htable j (by omega))
      (fun j hj => htail j (by omega)) hs₂

/-- In any state of the memory, the reads of `elf_load` stay inside a file whose bytes are there. -/
lemma ReadsFit.inside (h : ReadsFit region₀ file n) (hn : n < 2 ^ 64) (hregion : RegionLoaded region₀ as []) (mm : Mm) :
    ReadsInside n (elfLoad file n as ⟨mm, []⟩).2 := by
  obtain ⟨reads, hreads, hno, hyes⟩ := elfLoad_eq file n as ⟨mm, []⟩
  rw [List.append_nil] at hno hyes
  have hident : ReadsInside n ⟨mm, reads⟩ := by
    intro r hr
    obtain ⟨i, hi, hm, rfl⟩ := (hreads r).mp hr
    exact h.ident i hi hm
  by_cases hm : Matches file identBytes 0 6
  case neg =>
    rw [hno hm]
    exact hident
  rw [hyes hm]
  have hsize := h.header hm
  have hs : ReadsInside n ⟨mm, ⟨56, 2⟩ :: ⟨32, 8⟩ :: reads⟩ :=
    (hident.cons (by omega : 32 + 8 ≤ n) mm).cons (by omega : 56 + 2 ≤ n) mm
  have hloop : StaysInside n (KaworuOS.Proofs.loadHeaders file n (List.range (headerCount file)) as)
      ⟨mm, ⟨56, 2⟩ :: ⟨32, 8⟩ :: reads⟩ (fun _ _ => True) := by
    rw [List.range_eq_range']
    refine RegionLoaded.loadHeaders (k := 0) hregion (fun i hi => absurd hi (Nat.not_lt_zero i)) hn _ ?_ ?_ hs
    · exact fun j hj => h.table hm j (by omega)
    · exact fun j hj => h.tail hm j (by omega)
  refine (hloop.bind (R := fun _ _ => True) ?_).reads
  rintro ⟨ret, as₁⟩ s₁ hs₁ -
  by_cases hret : ret ≠ 0
  · dsimp only
    rw [if_pos hret]
    exact staysInside_pure hs₁ trivial
  · dsimp only
    rw [if_neg hret]
    exact (staysInside_readFile hs₁ (by omega)).bind (fun _ _ hs₂ _ => staysInside_pure hs₂ trivial)

/-! ### What the reads need -/

/-! ### The headers that the loop comes to -/

/-- The loop of `elf_load` over headers whose segments can all be mapped: the frames run out, or it leaves the file, or
all segments are loaded. -/
lemma LoadInv.before (h : LoadInv root as s.mm T free) (hl : LoadedPages region₀ as.region (pagesBefore file k))
    (hn : n ≤ 2 ^ 63) (m : Nat) (hreached : Reached region₀ file n (k + m)) :
    (loadFailures s < loadFailures (loadHeaders file n (List.range' k m) as s).2 ∧
      free.length < 4 * (freeSlots as.region + 1)) ∨
    LeavesFile n (loadHeaders file n (List.range' k m) as s).2 ∨
    ∃ as' s' T' free', loadHeaders file n (List.range' k m) as s = (.ok (0, as'), s') ∧
      loadFailures s' = loadFailures s ∧ LoadInv root as' s'.mm T' free' ∧
      LoadedPages region₀ as'.region (pagesBefore file (k + m)) ∧
      free.length + 4 * freeSlots as'.region ≤ free'.length + 4 * freeSlots as.region := by
  induction m generalizing k as s T free with
  | zero => exact .inr (.inr ⟨as, s, T, free, rfl, rfl, h, hl, Nat.le_refl _⟩)
  | succ m ih =>
    have hnext : k + (m + 1) = k + 1 + m := by omega
    rw [hnext] at hreached ⊢
    rw [List.range'_succ]
    by_cases hload : IsLoad file k
    case neg =>
      rw [loadHeaders_skip hload]
      have hnext : LoadInv root as (typeRead file k s).mm T free := h
      have hl' : LoadedPages region₀ as.region (pagesBefore file (k + 1)) := by rwa [pagesBefore_skip hload]
      exact ih hnext hl' hreached
    have hmaps := hreached k (by omega) hload
    have hread : LoadInv root as (headerRead file k s).mm T free := h
    rcases hread.section_cases file hl hn (headerAt file k) with
      ⟨hfail, hlen⟩ | hleaves | ⟨hnot, -⟩ | ⟨hlow, -⟩ | ⟨-, as₁, s₁, T₁, free₁, hrun, hsame, hinv, hl₁, hspent⟩
    · left
      rw [loadHeaders_load hload]
      refine ⟨?_, hlen⟩
      show loadFailures (headerRead file k s) < _
      exact Call.lt_bind (mono_headersRest _) hfail
    · right; left
      rw [loadHeaders_load hload]
      exact leavesFile_bind hleaves (logsReads_headersRest _ _ _)
    · exact absurd hmaps hnot
    · exact absurd hlow hmaps.not_low
    have hl₁' : LoadedPages region₀ as₁.region (pagesBefore file (k + 1)) := by rwa [pagesBefore_load hload]
    have hsame' : loadFailures s₁ = loadFailures s := hsame
    have hslots := hl.slots
    have hslots₁ := hl₁.slots
    rw [List.length_append] at hslots₁
    rw [loadHeaders_load_ok hload hrun, if_neg (by decide), ← hsame']
    rcases ih hinv hl₁' hreached with ⟨hfail, hlen⟩ | hleaves | ⟨as', s', T', free', hrest, hsame₂, hinv', hl', hspent'⟩
    · exact .inl ⟨hfail, by omega⟩
    · exact .inr (.inl hleaves)
    · exact .inr (.inr ⟨as', s', T', free', hrest, hsame₂, hinv', hl', by omega⟩)

/-- The loop of `elf_load` has stayed inside the file, and it has found a frame whenever there were enough. -/
structure LoopInside (file : Mem) (n : Nat) (as : AddressSpace) (s : Loading) (free : List Nat) : Prop where
  inside : ReadsInside n (loadHeaders file n (List.range (headerCount file)) as s).2
  plenty : ¬(loadFailures s < loadFailures (loadHeaders file n (List.range (headerCount file)) as s).2 ∧
    free.length < 4 * (freeSlots as.region + 1))

section Loop

variable (h : LoadInv root as s.mm T free) (hn : n ≤ 2 ^ 63) (hloop : LoopInside file n as s free)
include h hn hloop

/-- It comes to each header whose predecessors can be mapped. -/
lemma LoopInside.comes_to (hk : k < headerCount file) (hreached : Reached as.region file n k) :
    ∃ as' s' T' free' rest,
      loadHeaders file n (List.range (headerCount file)) as s = loadHeaders file n (k :: rest) as' s' ∧
      loadFailures s' = loadFailures s ∧ LoadInv root as' s'.mm T' free' ∧
      LoadedPages as.region as'.region (pagesBefore file k) ∧
      free.length + 4 * freeSlots as'.region ≤ free'.length + 4 * freeSlots as.region := by
  obtain ⟨rest, hrange⟩ := range_split hk
  obtain ⟨hinside, hplenty⟩ := hloop
  rw [hrange, loadHeaders_append, List.range_eq_range'] at hinside hplenty ⊢
  rcases h.before (.nil as.region) hn k (by rwa [Nat.zero_add]) with
    ⟨hfail, hlen⟩ | hleaves | ⟨as', s', T', free', hrun, hsame, hinv, hl, hspent⟩
  · exact absurd ⟨Call.lt_bind (mono_headersRest _) hfail, hlen⟩ hplenty
  · obtain ⟨r, hr, hlt⟩ := leavesFile_bind hleaves (logsReads_headersRest _ _ _)
    exact absurd (hinside r hr) (Nat.not_le_of_gt hlt)
  · rw [Nat.zero_add] at hl
    exact ⟨as', s', T', free', rest, Call.bind_ok hrun, hsame, hinv, hl, hspent⟩

lemma LoopInside.header (hk : k < headerCount file) (hreached : Reached as.region file n k) :
    HeaderInside file n k := by
  obtain ⟨as', s', -, -, rest, hrun, -⟩ := hloop.comes_to h hn hk hreached
  have hinside := hloop.inside
  rw [hrun] at hinside
  refine ⟨hinside _ (mem_reads_type rest as' s'), fun hload => ?_⟩
  rw [loadHeaders_load hload] at hinside
  have hread : ⟨headerStart file k + 40, 8⟩ ∈ (headerRead file k s').reads := by simp [headerRead]
  have hlast := hinside _ ((logsReads_bind (logsReads_mapSectionFromHeader _ _) (logsReads_headersRest _ _ _)).mem
    hread)
  dsimp only at hlast
  omega

lemma LoopInside.tail (hk : k < headerCount file) (hreached : Reached as.region file n k) (hload : IsLoad file k) :
    TailInside as.region (headerAt file k) n (pagesBefore file k) := by
  intro hok hpos i hi hroom
  obtain ⟨as', s', T', free', rest, hrun, hsame, hinv, hl, hspent⟩ := hloop.comes_to h hn hk hreached
  obtain ⟨hinside, hplenty⟩ := hloop
  have hver : Verified (headerAt file k) n := (verifyProgramHeader_eq_EOK (by omega)).mp hok
  have hmap : mapSectionFromHeader file n (headerAt file k) as' = mapSectionPages file (headerAt file k)
      (segmentPerms (headerAt file k)) (segmentExec (headerAt file k))
        (i + 1 + (segmentCount (headerAt file k) - (i + 1)))
      (mapStart (headerAt file k)) as' := by
    rw [mapSectionFromHeader, if_neg (not_not.mpr hok), if_neg (Nat.ne_of_gt hpos), Nat.add_sub_cancel' hi]
    rfl
  rw [hrun, loadHeaders_load hload, hmap] at hinside hplenty
  have hbase : USER_VM_RANGE_BASE ≤ (headerAt file k).vaddr := by
    refine hver.base_le h.pool (hroom.clear _ (List.mem_append_right _ ?_))
    exact List.mem_map.mpr ⟨0, List.mem_range.mpr (Nat.succ_pos i), rfl⟩
  have hpages : UserRange (mapStart (headerAt file k)) ((i + 1) * 4096) := by
    obtain ⟨h1, -, h3, h4⟩ := hver.userRange hpos hbase
    have hle : (i + 1) * 4096 ≤ segmentCount (headerAt file k) * 4096 := Nat.mul_le_mul_right _ hi
    exact ⟨h1, Nat.mul_mod_left _ _, h3, Nat.le_trans (Nat.add_le_add_left hle _) h4⟩
  have hread : LoadInv root as' (headerRead file k s').mm T' free' := hinv
  rcases hread.turns file hl hver hn hpages (segmentPerms (headerAt file k)) (segmentExec (headerAt file k))
      (segmentCount (headerAt file k) - (i + 1)) with
    ⟨hfail, hlen⟩ | ⟨-, hleaves⟩ | ⟨hno, -⟩ | ⟨_, _, _, _, -, hloaded, -⟩
  · refine absurd ⟨?_, by omega⟩ hplenty
    rw [← hsame]
    exact Call.lt_bind (mono_headersRest rest) hfail
  · obtain ⟨r, hr, hlt⟩ := leavesFile_bind hleaves (logsReads_headersRest _ _ _)
    exact absurd (hinside r hr) (Nat.not_le_of_gt hlt)
  · exact absurd hroom hno
  · exact hloaded.before i (Nat.lt_succ_self i)

/-- It finds a header that is refused if it returns `-EINVAL`. -/
lemma LoopInside.refused (hret : ((loadHeaders file n (List.range (headerCount file)) as s).1.map (·.1)) =
    .ok (Errno.code .EINVAL)) : ∃ k < headerCount file, Reached as.region file n k ∧ Refused file n k := by
  obtain ⟨hinside, hplenty⟩ := hloop
  rw [List.range_eq_range'] at hinside hplenty hret
  rcases h.headers (k := 0) (.nil as.region) (fun i hi => absurd hi (Nat.not_lt_zero i)) hn (headerCount file) with
    hfail | hleaves | ⟨-, err, as', hinval, hrun⟩ | ⟨-, hpanic⟩
  · exact absurd hfail hplenty
  · obtain ⟨r, hr, hlt⟩ := hleaves
    exact absurd (hinside r hr) (Nat.not_le_of_gt hlt)
  · rw [hrun] at hret
    have hcode : err.code = Errno.code .EINVAL := Except.ok.inj hret
    have herr : err = .EINVAL := by
      cases err with
      | EINVAL => rfl
      | _ => exact absurd hcode (by decide)
    obtain ⟨j, hj, hreached, hrefused⟩ := hinval herr
    exact ⟨j, by omega, hreached, hrefused⟩
  · rw [hpanic] at hret
    cases hret

end Loop

/-! ### The whole call -/

lemma mapSectionFromHeader_refused (h : verifyProgramHeader ph n ≠ .EOK) (as : AddressSpace) (s : Loading) :
    mapSectionFromHeader file n ph as s = (.ok (Errno.code .EINVAL, as), s) := by
  rw [mapSectionFromHeader, if_pos h, verifyProgramHeader_ne h]
  rfl

lemma loadHeaders_refused {l : List Nat} (h : Refused file n k) :
    loadHeaders file n (k :: l) as s = (.ok (Errno.code .EINVAL, as), headerRead file k s) := by
  rw [loadHeaders_load_ok h.load (mapSectionFromHeader_refused h.refused _ _), if_pos (by decide)]

/-- `elf_load` returns `-EINVAL` behind the check of the header exactly if its loop does. -/
lemma loadRest_einval_iff : (∃ as', (loadRest file n as s).1 = .ok (.error (Errno.code .EINVAL), as')) ↔
    ∃ as', (loadHeaders file n (List.range (headerCount file)) as s).1 = .ok (Errno.code .EINVAL, as') := by
  rcases hrun : loadHeaders file n (List.range (headerCount file)) as s with ⟨e | ⟨ret, as₁⟩, s₁⟩
  · rw [loadRest, Call.bind_error hrun]
    constructor
    · rintro ⟨as', hresult⟩
      cases hresult
    · rintro ⟨as', hresult⟩
      cases hresult
  by_cases hret : ret = 0
  · subst hret
    rw [loadRest, Call.bind_ok hrun]
    constructor
    · rintro ⟨as', hresult⟩
      cases hresult
    · rintro ⟨as', hresult⟩
      cases (Prod.mk.inj (Except.ok.inj hresult)).1
  · rw [loadRest_error hret hrun]
    constructor
    · rintro ⟨as', hresult⟩
      obtain ⟨herr, rfl⟩ := Prod.mk.inj (Except.ok.inj hresult)
      obtain rfl := Except.error.inj herr
      exact ⟨as₁, rfl⟩
    · rintro ⟨as', hresult⟩
      obtain ⟨rfl, rfl⟩ := Prod.mk.inj (Except.ok.inj hresult)
      exact ⟨as₁, rfl⟩

section Whole

variable (h : LoadInv root as mm T free) (hn : n ≤ 2 ^ 63)
  (hplenty : ¬(failures mm < failures (elfLoad file n as ⟨mm, []⟩).2.mm ∧ free.length < 4 * (freeSlots as.region + 1)))
include hplenty

lemma loopInside_of_reads {reads : List FileRead}
    (hrun : elfLoad file n as ⟨mm, []⟩ = loadRest file n as ⟨mm, reads⟩)
    (hreads : ReadsInside n (elfLoad file n as ⟨mm, []⟩).2) : LoopInside file n as ⟨mm, reads⟩ free := by
  rw [hrun] at hreads hplenty
  refine ⟨fun r hr => hreads r (mem_reads_bind hr ?_), ?_⟩
  · rintro ⟨ret, as⟩
    exact logsReads_ite (logsReads_pure _) (logsReads_bind (logsReads_readFile _ _) (fun _ => logsReads_pure _))
  · rintro ⟨hfail, hlen⟩
    exact hplenty ⟨loadRest_failures rfl hfail, hlen⟩

include h hn

lemma ParsedInside.fitsIn (hp : ParsedInside file n as mm) : FitsIn as.region file n := by
  obtain ⟨reads, hreads, hno, hyes⟩ := elfLoad_eq file n as ⟨mm, []⟩
  rw [List.append_nil] at hno hyes
  have hinside := hp.reads
  by_cases hm : Matches file identBytes 0 6
  case neg =>
    rw [hno hm] at hinside
    refine ⟨⟨fun j hj hmj => ?_, fun hyes => absurd hyes hm, fun hyes => absurd hyes hm, fun hyes => absurd hyes hm⟩,
      fun hyes => absurd hyes hm⟩
    exact hinside ⟨j, 1⟩ ((hreads _).mpr ⟨j, hj, hmj, rfl⟩)
  have hloop := loopInside_of_reads hplenty (hyes hm) hinside
  have hstart : LoadInv root as (⟨mm, ⟨56, 2⟩ :: ⟨32, 8⟩ :: reads⟩ : Loading).mm T free := h
  have hkeep : ∀ r ∈ (⟨56, 2⟩ : FileRead) :: ⟨32, 8⟩ :: reads, r.offset + r.size ≤ n := by
    rw [hyes hm] at hinside
    exact fun r hr => hinside r ((logsReads_loadRest n as).mem hr)
  refine ⟨⟨fun j hj hmj => ?_, fun _ => hkeep ⟨56, 2⟩ (by simp),
    fun _ k hk hreached => hloop.header hstart hn hk hreached,
    fun _ k hk hreached hload => hloop.tail hstart hn hk hreached hload⟩, fun _ hunfit => hloop.refused hstart hn ?_⟩
  · have hj' := hkeep ⟨j, 1⟩ (by simp [hreads, hj, hmj])
    exact hj'
  · have hrefused := hp.refused hunfit
    rw [hyes hm] at hrefused
    obtain ⟨as', hret⟩ := loadRest_einval_iff.mp hrefused
    rw [hret]
    rfl

lemma FitsIn.parsedInside (hfits : FitsIn as.region file n) : ParsedInside file n as mm := by
  have hregion : RegionLoaded as.region as [] := ⟨h.pool, h.pages, h.pool, h.count, .nil _⟩
  have hinside := hfits.reads.inside (by omega) hregion mm
  refine ⟨hinside, fun hunfit => ?_⟩
  obtain ⟨reads, -, hno, hyes⟩ := elfLoad_eq file n as ⟨mm, []⟩
  by_cases hm : Matches file identBytes 0 6
  case neg =>
    rw [hno hm]
    exact ⟨as, rfl⟩
  have hloop := loopInside_of_reads hplenty (hyes hm) hinside
  have hstart : LoadInv root as (⟨mm, ⟨56, 2⟩ :: ⟨32, 8⟩ :: (reads ++ [])⟩ : Loading).mm T free := h
  obtain ⟨k, hk, hreached, hrefused⟩ := hfits.refused hm hunfit
  obtain ⟨as', s', -, -, rest, hrun, -⟩ := hloop.comes_to hstart hn hk hreached
  rw [hyes hm, loadRest_einval_iff, hrun, loadHeaders_refused hrefused]
  exact ⟨as', rfl⟩

end Whole

/-! ### New address spaces -/

/-- The second region has the room of the first one. -/
structure Roomier (region region' : AllocRegion) : Prop where
  slots : freeSlots region ≤ freeSlots region'
  clear : ∀ q, ClearPage region q → ClearPage region' q

section Roomier

variable (hw : Roomier region region')
include hw

lemma Roomier.room (h : Room region L) : Room region' L :=
  ⟨h.nodup, Nat.le_trans h.slots hw.slots, fun q hq => hw.clear q (h.clear q hq)⟩

lemma Roomier.reached (h : Reached region file n k) : Reached region' file n k := by
  intro i hi hload
  obtain ⟨hok, hbase, hroom⟩ := h i hi hload
  exact ⟨hok, hbase, hw.room hroom⟩

lemma Roomier.readsFit (h : ReadsFit region' file n) : ReadsFit region file n :=
  ⟨h.ident, h.header, fun hm k hk hreached => h.table hm k hk (hw.reached hreached),
    fun hm k hk hreached hload hok hpos i hi hroom =>
      h.tail hm k hk (hw.reached hreached) hload hok hpos i hi (hw.room hroom)⟩

end Roomier

lemma freeSlots_clearRegion : freeSlots clearRegion = 256 := by
  simp [freeSlots, clearRegion, List.countP_replicate]

/-- No region of a new address space has more room than one with a clear bitmap. -/
lemma NewSpace.roomier (h : NewSpace as mm) : Roomier as.region clearRegion := by
  obtain ⟨s₀, free₀, hpmm, hcreate⟩ := h
  obtain ⟨_, _, _, -, -, -, hregion, -⟩ := addressSpaceCreate_ok hpmm hcreate
  rw [hregion]
  refine ⟨Nat.le_refl _, fun q hq => ⟨hq.1, ?_⟩⟩
  simp [clearRegion, Mem.bit, getBit]

lemma NewSpace.inv (h : NewSpace as mm) : ∃ root T free, LoadInv root as mm T free := by
  obtain ⟨s₀, free₀, hpmm, hcreate⟩ := h
  obtain ⟨root, T, free, hinv, -⟩ := MixedInv.create hpmm hcreate
  exact ⟨root, T, free, hinv⟩

/-- Memory of zeroes with `m` frames and the heap blocks of one address space. -/
def spaceFrames (m : Nat) : Mm :=
  { bootMm 0x100000 ((List.range m).map (fun i => (i + 1) * 4096)) with heap := ⟨[0xa000, 0xa100, 0xa200, 0xa300], []⟩ }

lemma bootMm_low {hhdm x : Nat} (hx : x < hhdm) (free : List Nat) : (bootMm hhdm free).mem x = 0 := by
  induction free with
  | nil => rfl
  | cons f free ih =>
    show (bootMm hhdm free).mem.store64 (f + (bootMm hhdm free).hhdm) _ x = 0
    rw [bootMm_hhdm, Mem.store64, if_neg (by omega)]
    exact ih

lemma spaceFrames_inv {m : Nat} (hm : m ≤ 2 ^ 20) :
    PmmInv (spaceFrames m) ((List.range m).map (fun i => (i + 1) * 4096)) := by
  have hboot : PmmInv (bootMm 0x100000 ((List.range m).map (fun i => (i + 1) * 4096)))
      ((List.range m).map (fun i => (i + 1) * 4096)) := by
    refine bootMm_inv ⟨by decide, by decide⟩ (fun f hf => ?_) ?_
    · obtain ⟨i, hi, rfl⟩ := List.mem_map.mp hf
      have hi' := List.mem_range.mp hi
      omega
    · refine List.Nodup.map (fun i j hij => ?_) List.nodup_range
      have hij' : (i + 1) * 4096 = (j + 1) * 4096 := hij
      omega
  exact hboot.congr rfl rfl (fun _ _ _ _ _ => rfl)

/-- There are new address spaces with a clear bitmap and any number of frames. -/
lemma newSpace_exists {m : Nat} (hm : m < 2 ^ 20) :
    ∃ as mm root T free, NewSpace as mm ∧ Roomier clearRegion as.region ∧
    LoadInv root as mm T free ∧ free.length = m := by
  have hpmm := spaceFrames_inv (m := m + 1) hm
  rw [List.range_succ_eq_map, List.map_cons] at hpmm
  have hblocks : HasBlocks (spaceFrames (m + 1)) := by
    show 4 ≤ List.length [0xa000, 0xa100, 0xa200, 0xa300] ∧ _
    exact ⟨by decide, show ∀ b ∈ List.take 4 [0xa000, 0xa100, 0xa200, 0xa300], isErrValue b = false by decide⟩
  obtain ⟨as, mm, hcreate⟩ := addressSpaceCreate_serves hpmm hblocks
  obtain ⟨root', _, _, -, -, hheap, hregion, -⟩ := addressSpaceCreate_ok hpmm hcreate
  obtain ⟨root, T, free, hinv, -, hfree⟩ := MixedInv.create hpmm hcreate
  have hlen : free.length = m := by
    have htail := (List.cons.inj hfree).2
    rw [← htail, List.length_map, List.length_map, List.length_range]
  refine ⟨as, mm, root, T, free, ⟨_, _, hpmm, hcreate⟩, ?_, hinv, hlen⟩
  have hbitmap : as.userRegion.bitmapBlock = 0xa200 := by
    have hcons : [0xa000, 0xa100, 0xa200, 0xa300] = as.self :: as.userRegion.self :: as.userRegion.bitmapBlock ::
      as.userRegion.allocationsBlock :: _ := hheap
    simp only [List.cons.injEq] at hcons
    exact hcons.2.2.1.symm
  rw [hregion, hbitmap]
  refine ⟨Nat.le_refl _, fun q hq => ⟨hq.1, ?_⟩⟩
  obtain ⟨h1, h2⟩ := hq.1
  simp only [clearRegion, pageOf, USER_VM_RANGE_BASE, USER_VM_RANGE_SIZE, PAGE_SIZE] at h1 h2
  have hzero : (createTable (spaceFrames (m + 1)) root').mem (wadd 0xa200 ((q - 16) / 8)) = 0 := by
    have hlow : wadd 0xa200 ((q - 16) / 8) < 0x100000 := by
      unfold wadd wordSize
      omega
    have hhdm : (spaceFrames (m + 1)).hhdm = 0x100000 := bootMm_hhdm _ _
    show ((spaceFrames (m + 1)).mem.fill _ 4096 0).fill _ 4096 0 _ = 0
    rw [hhdm, Mem.fill, if_neg (by omega), Mem.fill, if_neg (by omega)]
    exact bootMm_low hlow _
  have hbase : pageOf USER_VM_RANGE_BASE = 16 := by decide
  dsimp only
  rw [hbase, Mem.bit, hzero]
  simp [getBit]

/-! ### Files that fit everywhere -/

lemma mapSectionFromHeader_empty (hok : verifyProgramHeader ph n = .EOK) (hzero : ph.memsz = 0) (as : AddressSpace)
    (s : Loading) :
    mapSectionFromHeader file n ph as s = (.ok (0, as), s) := by
  rw [mapSectionFromHeader, if_neg (not_not.mpr hok), if_pos hzero]
  rfl

/-- Without a frame, the first segment with memory ends the loop. -/
lemma mapSectionFromHeader_starved (file : Mem) (hpmm : PmmInv s.mm []) (hok : verifyProgramHeader ph n = .EOK)
    (hver : Verified ph n)
    (hpos : 0 < ph.memsz) (as : AddressSpace) :
    (mapSectionFromHeader file n ph as s).1 = .ok (Errno.code .ENOMEM, as) := by
  have hcount : 0 < (mapEnd ph - mapStart ph) / PAGE_SIZE := by
    have h1 := hver.pages_eq hpos
    have h2 := hver.mapStart_eq
    have h3 := hver.mapEnd_eq hpos
    simp only [PAGE_SIZE] at *
    omega
  obtain ⟨m, hm⟩ := Nat.exists_eq_succ_of_ne_zero (Nat.ne_of_gt hcount)
  have hcode : wordSize - errToPtr .ENOMEM = Errno.code .ENOMEM := by decide
  rw [mapSectionFromHeader, if_neg (not_not.mpr hok), if_neg (Nat.ne_of_gt hpos), hm, mapSectionPages_succ,
    Call.bind_ok (onMm_ok (pmmAlloc_nil hpmm)), if_pos isErrValue_errToPtr, hcode]
  rfl

lemma loadHeaders_takesNothing (m : Nat) (h : ∀ i, k ≤ i → i < k + m → TakesNothing file n i) (as : AddressSpace)
    (s : Loading) :
    ∃ s', loadHeaders file n (List.range' k m) as s = (.ok (0, as), s') := by
  induction m generalizing k s with
  | zero => exact ⟨s, rfl⟩
  | succ m ih =>
    rw [List.range'_succ]
    have hrest := fun s => ih (k := k + 1) (fun i h1 h2 => h i (by omega) (by omega)) s
    by_cases hload : IsLoad file k
    · obtain ⟨hok, hzero⟩ := h k (Nat.le_refl k) (by omega) hload
      rw [loadHeaders_load_ok hload (mapSectionFromHeader_empty hok hzero _ _), if_neg (by decide)]
      exact hrest _
    · rw [loadHeaders_skip hload]
      exact hrest _

/-- Without a frame, the loop returns `-EINVAL` only at a header before which nothing takes memory. -/
lemma loadHeaders_starved (hn : n < 2 ^ 64) (hpmm : PmmInv s.mm []) (m : Nat)
    (hret : (loadHeaders file n (List.range' k m) as s).1 = .ok (Errno.code .EINVAL, as')) :
    ∃ j < k + m, Refused file n j ∧ ∀ i, k ≤ i → i < j → TakesNothing file n i := by
  induction m generalizing k s with
  | zero => cases hret
  | succ m ih =>
    rw [List.range'_succ] at hret
    have hnext : ∀ {t : Loading}, PmmInv t.mm [] → TakesNothing file n k →
        (loadHeaders file n (List.range' (k + 1) m) as t).1 = .ok (Errno.code .EINVAL, as') →
        ∃ j < k + (m + 1), Refused file n j ∧ ∀ i, k ≤ i → i < j → TakesNothing file n i := by
      intro t ht hnothing hrun
      obtain ⟨j, hj, hrefused, hbefore⟩ := ih ht hrun
      refine ⟨j, by omega, hrefused, fun i h1 h2 => ?_⟩
      rcases Nat.eq_or_lt_of_le h1 with rfl | h1
      · exact hnothing
      · exact hbefore i h1 h2
    by_cases hload : IsLoad file k
    case neg =>
      rw [loadHeaders_skip hload] at hret
      exact hnext (t := typeRead file k s) hpmm (fun hk => absurd hk hload) hret
    by_cases hok : verifyProgramHeader (headerAt file k) n = .EOK
    case neg => exact ⟨k, by omega, ⟨hload, hok⟩, fun i h1 h2 => absurd h2 (Nat.not_lt_of_ge h1)⟩
    by_cases hzero : (headerAt file k).memsz = 0
    · rw [loadHeaders_load_ok hload (mapSectionFromHeader_empty hok hzero _ _), if_neg (by decide)] at hret
      exact hnext (t := headerRead file k s) hpmm (fun _ => ⟨hok, hzero⟩) hret
    · have hread : PmmInv (headerRead file k s).mm [] := hpmm
      have hver : Verified (headerAt file k) n := (verifyProgramHeader_eq_EOK hn).mp hok
      have hmap := mapSectionFromHeader_starved file hread hok hver (Nat.pos_of_ne_zero hzero) as
      rw [loadHeaders_load_ok hload (Call.eq_of_fst hmap), if_pos (by decide)] at hret
      cases hret

/-- On every file: `elf_load` stays inside it with every new address space exactly if it fits, and with a given one,
and frames always there, exactly if it fits in its region. A file lies in the upper half of the addresses, so that it has
at most `2 ^ 63` bytes. -/
theorem elf_load_inside (file : Mem) {n : Nat} (hn : n ≤ 2 ^ 63) :
    ((∀ as mm, NewSpace as mm → ParsedInside file n as mm) ↔ FileFits file n) ∧
    ∀ as mm, NewSpace as mm → (elfLoad file n as ⟨mm, []⟩).2.mm.log.failed = mm.log.failed →
      (ParsedInside file n as mm ↔ FitsIn as.region file n) := by
  refine ⟨⟨fun hall => ?_, fun hfits as mm hnew => ?_⟩, fun as mm hnew hnever => ?_⟩
  · -- a new address space with frames for all pages, and one without any
    obtain ⟨as, mm, root, T, free, hnew, hwide, hinv, hlen⟩ := newSpace_exists (m := 4 * 257) (by decide)
    have hslots := hnew.roomier.slots
    rw [freeSlots_clearRegion] at hslots
    have henough : ¬free.length < 4 * (freeSlots as.region + 1) := by omega
    obtain ⟨hreads, -⟩ := (hall as mm hnew).fitsIn hinv hn (fun hfail => henough hfail.2)
    refine ⟨hwide.readsFit hreads, fun hm hunfit => ?_⟩
    obtain ⟨as₀, mm₀, root₀, T₀, free₀, hnew₀, -, hinv₀, hlen₀⟩ := newSpace_exists (m := 0) (by decide)
    obtain rfl := List.length_eq_zero_iff.mp hlen₀
    have hrefused := (hall as₀ mm₀ hnew₀).refused hunfit
    obtain ⟨reads, -, -, hyes⟩ := elfLoad_eq file n as₀ ⟨mm₀, []⟩
    rw [hyes hm] at hrefused
    obtain ⟨as', hret⟩ := loadRest_einval_iff.mp hrefused
    rw [List.range_eq_range'] at hret
    obtain ⟨j, hj, hrefused, hbefore⟩ := loadHeaders_starved (by omega) hinv₀.table.pmm _ hret
    exact ⟨j, by omega, hrefused, fun i hi => hbefore i (Nat.zero_le i) hi⟩
  · obtain ⟨root, T, free, hinv⟩ := hnew.inv
    have hregion : RegionLoaded as.region as [] := ⟨hinv.pool, hinv.pages, hinv.pool, hinv.count, .nil _⟩
    refine ⟨(hnew.roomier.readsFit hfits.reads).inside (by omega) hregion mm, fun hunfit => ?_⟩
    obtain ⟨reads, -, hno, hyes⟩ := elfLoad_eq file n as ⟨mm, []⟩
    by_cases hm : Matches file identBytes 0 6
    case neg =>
      rw [hno hm]
      exact ⟨as, rfl⟩
    obtain ⟨k, hk, hrefused, hbefore⟩ := hfits.refused hm hunfit
    obtain ⟨rest, hrange⟩ := range_split hk
    obtain ⟨s', hrun⟩ := loadHeaders_takesNothing (k := 0) k (fun i _ hi => hbefore i (by omega)) as
      ⟨mm, ⟨56, 2⟩ :: ⟨32, 8⟩ :: (reads ++ [])⟩
    rw [hyes hm, loadRest_einval_iff, hrange, loadHeaders_append, List.range_eq_range', Call.bind_ok hrun, headersRest,
      if_neg (by decide), loadHeaders_refused hrefused]
    exact ⟨as, rfl⟩
  · obtain ⟨root, T, free, hinv⟩ := hnew.inv
    have hplenty : ¬(failures mm < failures (elfLoad file n as ⟨mm, []⟩).2.mm ∧
        free.length < 4 * (freeSlots as.region + 1)) := fun hfail => absurd hnever (Nat.ne_of_gt hfail.1)
    exact ⟨fun hp => hp.fitsIn hinv hn hplenty, fun hfits => hfits.parsedInside hinv hn hplenty⟩

lemma newSpace_boot : NewSpace bootSpace lifeStart.mm := ⟨spaceBoot, _, spaceBoot_inv, Call.eq_of_fst rfl⟩

/-- A file with a segment of one page, and one whose table ends behind it, but whose first header is refused. -/
theorem elf_load_inside_small : ParsedInside (fileMem (smallElf 0x400000 0x1000)) 124 bootSpace lifeStart.mm ∧
    ParsedInside (fileMem (smallElf 0x400000 0)) 112 bootSpace lifeStart.mm := by
  constructor
  · have hone : headerCount (fileMem (smallElf 0x400000 0x1000)) = 1 := by decide
    have hzero : ∀ k < headerCount (fileMem (smallElf 0x400000 0x1000)), k = 0 := fun k hk => by omega
    refine ((elf_load_inside _ (by decide)).2 _ _ newSpace_boot (by decide +kernel)).mpr ⟨⟨?_, ?_, ?_, ?_⟩, ?_⟩
    · exact fun j hj _ => by omega
    · exact fun _ => by decide
    · rintro - k hk -
      obtain rfl := hzero k hk
      exact ⟨by decide +kernel, fun _ => by decide +kernel⟩
    · rintro - k hk - - - - i hi -
      obtain rfl := hzero k hk
      have hcount : segmentCount (headerAt (fileMem (smallElf 0x400000 0x1000)) 0) = 1 := by decide +kernel
      obtain rfl : i = 0 := by omega
      decide +kernel
    · rintro - (hunfit | hunfit | ⟨k, hk, -, hunfit⟩)
      · exact absurd hunfit (by decide)
      · exact absurd hunfit (by decide +kernel)
      · obtain rfl := hzero k hk
        exact absurd hunfit (by decide +kernel)
  · have hone : headerCount (fileMem (smallElf 0x400000 0)) = 1 := by decide
    have hzero : ∀ k < headerCount (fileMem (smallElf 0x400000 0)), k = 0 := fun k hk => by omega
    have hrefused : verifyProgramHeader (headerAt (fileMem (smallElf 0x400000 0)) 0) 112 ≠ .EOK := by decide +kernel
    refine (elf_load_inside _ (by decide)).1.mpr ⟨⟨?_, ?_, ?_, ?_⟩, ?_⟩ _ _ newSpace_boot
    · exact fun j hj _ => by omega
    · exact fun _ => by decide
    · rintro - k hk -
      obtain rfl := hzero k hk
      exact ⟨by decide +kernel, fun _ => by decide +kernel⟩
    · rintro - k hk - - hok
      obtain rfl := hzero k hk
      exact absurd hok hrefused
    · rintro - -
      exact ⟨0, by decide, ⟨by unfold IsLoad; decide +kernel, hrefused⟩, fun i hi => absurd hi (Nat.not_lt_zero i)⟩

/-- A file that ends behind the six bytes that are checked. -/
theorem elf_load_leaves_short_file :
    NewSpace bootSpace lifeStart.mm ∧ ¬ParsedInside (fileMem identBytes) 6 bootSpace lifeStart.mm := by
  refine ⟨newSpace_boot, fun h => ?_⟩
  have hread : ⟨56, 2⟩ ∈ (elfLoad (fileMem identBytes) 6 bootSpace ⟨lifeStart.mm, []⟩).2.reads := by decide +kernel
  exact absurd (h.reads _ hread) (by decide)

end KaworuOS.Proofs
