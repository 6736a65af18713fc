import KaworuOS.Proofs.ElfPages

/-!
# When the loader panics

`verify_program_header` checks that a segment ends inside the user range, but not that it begins
there. `bitmap_reserve` panics on a page below the range. Everything else that a file may hold leads
to an error code.
-/

namespace KaworuOS.Proofs
open Lib

variable {file : Mem} {n va page root m k : Nat} {ph : ElfProgramHeader} {as as' : AddressSpace}
  {s s' : Loading} {T T' : Tree} {free free' L : List Nat} {perms : PagePerms} {uxn : ExecPerms}
    {region₀ region region' : AllocRegion}

/-- The pages that a segment takes. -/
def segmentPages (ph : ElfProgramHeader) : List Nat :=
  if 0 < ph.memsz then pagesFrom (mapStart ph) ((mapEnd ph - mapStart ph) / PAGE_SIZE) else []

/-- The header is accepted, and there is room for its pages, which lie in the user range. -/
structure MapsSegment (region₀ : AllocRegion) (ph : ElfProgramHeader) (n : Nat) (L : List Nat) : Prop where
  accepted : verifyProgramHeader ph n = .EOK
  base_le : 0 < ph.memsz → USER_VM_RANGE_BASE ≤ ph.vaddr
  room : Room region₀ (L ++ segmentPages ph)

/-- The header is accepted although its segment begins below the user range, and a slot is free for it. -/
structure LowSegment (region₀ : AllocRegion) (ph : ElfProgramHeader) (n : Nat) (L : List Nat) : Prop where
  accepted : verifyProgramHeader ph n = .EOK
  positive : 0 < ph.memsz
  low : ph.vaddr < USER_VM_RANGE_BASE
  slot : L.length < freeSlots region₀

lemma MapsSegment.not_low (h : MapsSegment region₀ ph n L) : ¬LowSegment region₀ ph n L := by
  intro hlow
  have h1 := h.base_le hlow.positive
  have h2 := hlow.low
  omega

/-- `map_section_from_header`: the frames run out, or it leaves the file, or it returns an error, `-EINVAL` only for a
header that is refused, or it panics at a segment below the user range, or it loads the segment. -/
lemma LoadInv.section_cases (file : Mem) (h : LoadInv root as s.mm T free) (hl : LoadedPages region₀ as.region L)
    (hn : n ≤ 2 ^ 63)
    (ph : ElfProgramHeader) :
    (loadFailures s < loadFailures (mapSectionFromHeader file n ph as s).2 ∧
      free.length < 4 * (freeSlots as.region + 1)) ∨
    LeavesFile n (mapSectionFromHeader file n ph as s).2 ∨
    (¬MapsSegment region₀ ph n L ∧ ¬LowSegment region₀ ph n L ∧
      ∃ err as', err ≠ Errno.EOK ∧ (err = .EINVAL → verifyProgramHeader ph n ≠ .EOK) ∧
        (mapSectionFromHeader file n ph as s).1 = .ok (err.code, as')) ∨
    (LowSegment region₀ ph n L ∧ (mapSectionFromHeader file n ph as s).1 = .error .panic) ∨
    (MapsSegment region₀ ph n L ∧ ∃ as' s' T' free', mapSectionFromHeader file n ph as s = (.ok (0, as'), s') ∧
      loadFailures s' = loadFailures s ∧ LoadInv root as' s'.mm T' free' ∧
      LoadedPages region₀ as'.region (L ++ segmentPages ph) ∧
      free.length ≤ free'.length + 4 * (segmentPages ph).length) := by
  unfold mapSectionFromHeader
  by_cases hok : verifyProgramHeader ph n = .EOK
  case neg =>
    right; right; left
    refine ⟨fun hm => hok hm.accepted, fun hm => hok hm.accepted, .EINVAL, as, by decide, fun _ => hok, ?_⟩
    rw [if_pos hok, verifyProgramHeader_ne hok]
    rfl
  have hver : Verified ph n := (verifyProgramHeader_eq_EOK (by omega)).mp hok
  rw [if_neg (not_not.mpr hok)]
  by_cases hzero : ph.memsz = 0
  · right; right; right; right
    have hpages : segmentPages ph = [] := if_neg (by omega)
    rw [if_pos hzero]
    refine ⟨⟨hok, fun hpos => absurd hpos (by omega), ?_⟩, as, s, T, free, rfl, rfl, h, ?_, by simp⟩
    · rw [hpages, List.append_nil]
      exact hl.room
    · rw [hpages, List.append_nil]
      exact hl
  have hpos : 0 < ph.memsz := Nat.pos_of_ne_zero hzero
  have hpages : segmentPages ph = pagesFrom (mapStart ph) ((mapEnd ph - mapStart ph) / PAGE_SIZE) := if_pos hpos
  rw [if_neg hzero, hpages]
  by_cases hbase : USER_VM_RANGE_BASE ≤ ph.vaddr
  · have hnot : ¬LowSegment region₀ ph n L := fun hlow => absurd hlow.low (by omega)
    rcases h.loop file hl hver hn (hver.userRange hpos hbase) (segmentPerms ph) (segmentExec ph) with
      hfail | ⟨-, hleaves⟩ | ⟨hroom, as', hret⟩ | ⟨as', s', T', free', hrun, hpages', hl'⟩
    · exact .inl hfail
    · exact .inr (.inl hleaves)
    · refine .inr (.inr (.inl ⟨fun hm => hroom ?_, hnot, .ENOMEM, as', by decide, nofun, hret⟩))
      rw [← hpages]
      exact hm.room
    · have hsame : loadFailures s' = loadFailures s := by rw [loadFailures, failures, hpages'.log]; rfl
      refine .inr (.inr (.inr (.inr ⟨⟨hok, fun _ => hbase, ?_⟩, as', s', T', free', hrun, hsame, hpages'.inv, hl',
        ?_⟩)))
      · rw [hpages]
        exact hl'.room
      · rw [length_pagesFrom]
        exact hpages'.spent
  · have hnot : ¬MapsSegment region₀ ph n L := fun hm => hbase (hm.base_le hpos)
    have hstart : mapStart ph < USER_VM_RANGE_BASE := by
      have h1 := hver.mapStart_eq
      omega
    have hcount : 0 < (mapEnd ph - mapStart ph) / PAGE_SIZE := by
      have h1 := hver.pages_eq hpos
      have h2 := hver.mapStart_eq
      have h3 := hver.mapEnd_eq hpos
      simp only [PAGE_SIZE] at *
      omega
    obtain ⟨m, hm⟩ := Nat.exists_eq_succ_of_ne_zero (Nat.ne_of_gt hcount)
    rw [hm]
    rcases h.turn_below file ph hstart (segmentPerms ph) (segmentExec ph) m with
      ⟨hfail, hlen⟩ | ⟨hfull, hret⟩ | ⟨hslot, hpanic⟩
    · exact .inl ⟨hfail, by omega⟩
    · refine .inr (.inr (.inl ⟨hnot, fun hlow => ?_, .ENOMEM, as, by decide, nofun, hret⟩))
      obtain ⟨a, ha, hnull⟩ := hl.slot_iff.mpr hlow.slot
      exact hfull a ha hnull
    · exact .inr (.inr (.inr (.inl ⟨⟨hok, hpos, by omega, hl.slot_iff.mp hslot⟩, hpanic⟩)))

lemma mono_mapSectionFromHeader (elfSize : Nat) (as : AddressSpace) :
    Call.Mono loadFailures (mapSectionFromHeader file elfSize ph as) :=
  Call.mono_ite (Call.mono_pure _) (Call.mono_ite (Call.mono_pure _) (mono_mapSectionPages _ _ _))

lemma mono_loadHeaders (l : List Nat) (as : AddressSpace) : Call.Mono loadFailures (loadHeaders file n l as) := by
  induction l generalizing as with
  | nil => exact Call.mono_pure _
  | cons i l ih =>
    apply Call.mono_bind (fun _ => Nat.le_refl _)
    intro type
    refine Call.mono_ite (Call.mono_bind (fun _ => Nat.le_refl _) (fun ph => ?_)) (ih _)
    apply Call.mono_bind (mono_mapSectionFromHeader _ _)
    rintro ⟨ret, as⟩
    exact Call.mono_ite (Call.mono_pure _) (ih _)

lemma mono_headersRest (l : List Nat) (r : Nat × AddressSpace) : Call.Mono loadFailures (headersRest file n l r) :=
  Call.mono_ite (Call.mono_pure _) (mono_loadHeaders _ _)

/-- The pages that the headers before the one with the number `k` take. -/
def pagesBefore (file : Mem) : Nat → List Nat
  | 0 => []
  | k + 1 =>
    if file.loadBytes (headerStart file k) 4 = ELF_PROGRAM_HEADER_TYPE_LOAD then
      pagesBefore file k ++ segmentPages (headerAt file k)
    else pagesBefore file k

lemma pagesBefore_load (h : IsLoad file k) :
    pagesBefore file (k + 1) = pagesBefore file k ++ segmentPages (headerAt file k) := if_pos h

lemma pagesBefore_skip (h : ¬IsLoad file k) : pagesBefore file (k + 1) = pagesBefore file k := if_neg h

/-- The segments before the header with the number `k` can all be mapped. -/
def Reached (region₀ : AllocRegion) (file : Mem) (n k : Nat) : Prop :=
  ∀ i < k, IsLoad file i → MapsSegment region₀ (headerAt file i) n (pagesBefore file i)

/-- The loop of `elf_load` comes to the header with the number `k`, whose segment is too low. -/
structure LowHeader (region₀ : AllocRegion) (file : Mem) (n k : Nat) : Prop where
  reached : Reached region₀ file n k
  load : IsLoad file k
  low : LowSegment region₀ (headerAt file k) n (pagesBefore file k)

lemma Reached.succ (h : Reached region₀ file n k)
    (hk : IsLoad file k → MapsSegment region₀ (headerAt file k) n (pagesBefore file k)) :
    Reached region₀ file n (k + 1) := by
  intro i hi hload
  rcases Nat.lt_succ_iff_lt_or_eq.mp hi with hi | rfl
  · exact h i hi hload
  · exact hk hload

/-- The header is one that `verify_program_header` refuses. -/
structure Refused (file : Mem) (n k : Nat) : Prop where
  load : IsLoad file k
  refused : verifyProgramHeader (headerAt file k) n ≠ .EOK

/-- The loop of `elf_load` over `m` headers: the frames run out, or it leaves the file, or it returns, with `-EINVAL` only
at a header that is refused, or it panics at a segment below the user range. -/
lemma LoadInv.headers (h : LoadInv root as s.mm T free) (hl : LoadedPages region₀ as.region (pagesBefore file k))
    (hreached : Reached region₀ file n k) (hn : n ≤ 2 ^ 63) (m : Nat) :
    (loadFailures s < loadFailures (loadHeaders file n (List.range' k m) as s).2 ∧
      free.length < 4 * (freeSlots as.region + 1)) ∨
    LeavesFile n (loadHeaders file n (List.range' k m) as s).2 ∨
    ((∀ j, k ≤ j → j < k + m → ¬LowHeader region₀ file n j) ∧
      ∃ (err : Errno) (as' : AddressSpace),
        (err = .EINVAL → ∃ j, j < k + m ∧ Reached region₀ file n j ∧ Refused file n j) ∧
        (loadHeaders file n (List.range' k m) as s).1 = .ok (err.code, as')) ∨
    ((∃ j, k ≤ j ∧ j < k + m ∧ LowHeader region₀ file n j) ∧
      (loadHeaders file n (List.range' k m) as s).1 = .error .panic) := by
  induction m generalizing k as s T free with
  | zero =>
    refine .inr (.inr (.inl ⟨fun j h1 h2 => absurd h2 (by omega), .EOK, as, nofun, rfl⟩))
  | succ m ih =>
    rw [List.range'_succ]
    by_cases hload : IsLoad file k
    case neg =>
      rw [loadHeaders_skip hload]
      have hl' : LoadedPages region₀ as.region (pagesBefore file (k + 1)) := by rwa [pagesBefore_skip hload]
      have hnext : LoadInv root as (typeRead file k s).mm T free := h
      rcases ih hnext hl' (hreached.succ (fun hk => absurd hk hload)) with
        hfail | hleaves | ⟨hnone, err, as', hinval, hret⟩ | ⟨⟨j, h1, h2, hlow⟩, hpanic⟩
      · exact .inl hfail
      · exact .inr (.inl hleaves)
      · refine .inr (.inr (.inl ⟨fun j h1 h2 hlow => ?_, err, as', fun herr => ?_, hret⟩))
        · rcases Nat.eq_or_lt_of_le h1 with rfl | h1
          · exact hload hlow.load
          · exact hnone j h1 (by omega) hlow
        · obtain ⟨j, hj, hrefused⟩ := hinval herr
          exact ⟨j, by omega, hrefused⟩
      · exact .inr (.inr (.inr ⟨⟨j, by omega, by omega, hlow⟩, hpanic⟩))
    have hread : LoadInv root as (headerRead file k s).mm T free := h
    rcases hread.section_cases file hl hn (headerAt file k) with
      ⟨hfail, hlen⟩ | hleaves | ⟨hnot, hnotLow, err, as', herr, hinval, hret⟩ | ⟨hlow, hpanic⟩ |
        ⟨hmaps, as', s', T', free', hrun, hsame, hinv, hl', hspent⟩
    · left
      rw [loadHeaders_load hload]
      refine ⟨?_, hlen⟩
      show loadFailures (headerRead file k s) < _
      exact Call.lt_bind (mono_headersRest _) hfail
    · right; left
      rw [loadHeaders_load hload]
      exact leavesFile_bind hleaves (logsReads_headersRest _ _ _)
    · refine .inr (.inr (.inl ⟨fun j h1 h2 hlow => ?_, err, as',
        fun h0 => ⟨k, by omega, hreached, hload, hinval h0⟩, ?_⟩))
      · rcases Nat.eq_or_lt_of_le h1 with rfl | h1
        · exact hnotLow hlow.low
        · exact hnot (hlow.reached k h1 hload)
      · have hcode : err.code ≠ 0 := fun hcode => herr (Errno.eq_EOK_of_code hcode)
        rw [loadHeaders_load_ok hload (Call.eq_of_fst hret), if_pos hcode]
    · refine .inr (.inr (.inr ⟨⟨k, Nat.le_refl _, by omega, hreached, hload, hlow⟩, ?_⟩))
      rw [loadHeaders_load hload, Call.bind_error (Call.eq_of_fst hpanic)]
    · have hl'' : LoadedPages region₀ as'.region (pagesBefore file (k + 1)) := by rwa [pagesBefore_load hload]
      have hsame' : loadFailures s' = loadFailures s := hsame
      rw [loadHeaders_load_ok hload hrun, if_neg (by decide)]
      rcases ih hinv hl'' (hreached.succ (fun _ => hmaps)) with
        ⟨hfail, hlen⟩ | hleaves | ⟨hnone, err, as'', hinval, hret⟩ | ⟨⟨j, h1, h2, hlow⟩, hpanic⟩
      · left
        rw [hsame'] at hfail
        have hslots := hl.slots
        have hslots' := hl'.slots
        rw [List.length_append] at hslots'
        exact ⟨hfail, by omega⟩
      · exact .inr (.inl hleaves)
      · refine .inr (.inr (.inl ⟨fun j h1 h2 hlow => ?_, err, as'', fun herr => ?_, hret⟩))
        · rcases Nat.eq_or_lt_of_le h1 with rfl | h1
          · exact hmaps.not_low hlow.low
          · exact hnone j h1 (by omega) hlow
        · obtain ⟨j, hj, hrefused⟩ := hinval herr
          exact ⟨j, by omega, hrefused⟩
      · exact .inr (.inr (.inr ⟨⟨j, by omega, by omega, hlow⟩, hpanic⟩))

/-- `elf_load` has returned, with the entry point or with an error code. -/
def LoadReturns (r : Except Halt (Except Nat Nat × AddressSpace)) : Prop :=
  ∃ as, (∃ entry, r = .ok (.ok entry, as)) ∨ ∃ err, err ≠ Errno.EOK ∧ r = .ok (.error err.code, as)

/-- All pages of the segment lie in the user range. -/
def PagesInside (ph : ElfProgramHeader) : Prop :=
  ∀ va, mapStart ph ≤ va → va < mapEnd ph → USER_VM_RANGE_BASE ≤ va ∧ va < USER_VM_RANGE_END

lemma Verified.pagesInside_iff (h : Verified ph n) :
    PagesInside ph ↔ USER_VM_RANGE_BASE ≤ ph.vaddr ∨ (ph.memsz = 0 ∧ ph.vaddr % 4096 = 0) := by
  have hstart := h.mapStart_eq
  have hfits := h.fits
  simp only [USER_VM_RANGE_BASE, USER_VM_RANGE_END, USER_VM_RANGE_SIZE] at hfits
  have hstop : mapEnd ph = (ph.vaddr + ph.memsz + 4095) / 4096 * 4096 := by
    rcases Nat.eq_zero_or_pos (ph.vaddr + ph.memsz) with hzero | hpos
    · rw [mapEnd, wadd_of_lt (by omega), hzero]
      decide
    · rw [mapEnd, wadd_of_lt (by omega), roundUp_eq hpos (by omega)]
  unfold PagesInside
  rw [hstart, hstop]
  simp only [USER_VM_RANGE_BASE, USER_VM_RANGE_END, USER_VM_RANGE_SIZE]
  constructor
  · intro hall
    have hfirst := hall (ph.vaddr - ph.vaddr % 4096) (Nat.le_refl _)
    omega
  · intro hor va h1 h2
    omega

lemma loadRest_failures {l : List Nat} (hl : l = List.range (headerCount file))
    (h : loadFailures s < loadFailures (loadHeaders file n l as s).2) :
    loadFailures s < loadFailures (loadRest file n as s).2 := by
  subst hl
  refine Call.lt_bind ?_ h
  rintro ⟨ret, as⟩
  exact Call.mono_ite (Call.mono_pure _) (fun _ => Nat.le_refl _)

lemma loadRest_leavesFile {l : List Nat} (hl : l = List.range (headerCount file))
    (h : LeavesFile n (loadHeaders file n l as s).2) : LeavesFile n (loadRest file n as s).2 := by
  subst hl
  refine leavesFile_bind h ?_
  rintro ⟨ret, as⟩
  exact logsReads_ite (logsReads_pure _) (logsReads_bind (logsReads_readFile _ _) (fun _ => logsReads_pure _))

/-- On a new address space, with frames always there, `elf_load` returns on a file whose reads stay inside it
exactly if it does not come to a header whose segment begins below the user range. A file lies in the
upper half of the addresses, so that it has at most `2 ^ 63` bytes. -/
theorem elf_load_panic_free_iff {s₀ s₁ : Mm} {free₀ : List Nat} {as : AddressSpace} (hpmm : PmmInv s₀ free₀)
    (hcreate : addressSpaceCreate s₀ = (.ok (.ok as), s₁)) (file : Mem) {n : Nat} (hn : n ≤ 2 ^ 63)
    (hreads : ∀ r ∈ (elfLoad file n as ⟨s₁, []⟩).2.reads, r.offset + r.size ≤ n)
    (hnever : (elfLoad file n as ⟨s₁, []⟩).2.mm.log.failed = s₁.log.failed) :
    (LoadReturns (elfLoad file n as ⟨s₁, []⟩).1 ↔
      ¬(Matches file identBytes 0 6 ∧ ∃ k < headerCount file, LowHeader as.region file n k)) ∧
    ∀ ph, verifyProgramHeader ph n = .EOK →
      (PagesInside ph ↔ USER_VM_RANGE_BASE ≤ ph.vaddr ∨ (ph.memsz = 0 ∧ ph.vaddr % 4096 = 0)) := by
  refine ⟨?_, fun ph hok => ((verifyProgramHeader_eq_EOK (by omega)).mp hok).pagesInside_iff⟩
  obtain ⟨reads, -, hno, hyes⟩ := elfLoad_eq file n as ⟨s₁, []⟩
  by_cases hm : Matches file identBytes 0 6
  case neg =>
    rw [hno hm]
    exact ⟨fun _ hboth => hm hboth.1, fun _ => ⟨as, .inr ⟨.EINVAL, by decide, rfl⟩⟩⟩
  rw [hyes hm] at hreads hnever ⊢
  simp only [hm, true_and]
  obtain ⟨root, T, free, hinv, -⟩ := MixedInv.create hpmm hcreate
  have hstart : LoadInv root as (⟨s₁, ⟨56, 2⟩ :: ⟨32, 8⟩ :: (reads ++ [])⟩ : Loading).mm T free := hinv
  have hrange : List.range' 0 (headerCount file) = List.range (headerCount file) := List.range_eq_range'.symm
  rcases hstart.headers (k := 0) (.nil _)
    (fun i hi => absurd hi (Nat.not_lt_zero i)) hn (headerCount file) with
    ⟨hfail, -⟩ | hleaves | ⟨hnone, err, as', -, hret⟩ | ⟨⟨j, -, hj, hlow⟩, hpanic⟩
  · exact absurd hnever (Nat.ne_of_gt (loadRest_failures hrange hfail))
  · obtain ⟨r, hr, hlt⟩ := loadRest_leavesFile hrange hleaves
    exact absurd (hreads r hr) (Nat.not_le_of_gt hlt)
  · rw [hrange] at hret
    rw [loadRest, Call.bind_ok (Call.eq_of_fst hret)]
    refine ⟨fun _ hex => ?_, fun _ => ⟨as', ?_⟩⟩
    · obtain ⟨k, hk, hlow⟩ := hex
      exact hnone k (Nat.zero_le _) (by omega) hlow
    · dsimp only
      by_cases herr : err.code ≠ 0
      · rw [if_pos herr]
        exact .inr ⟨err, fun h0 => herr (by rw [h0]; rfl), rfl⟩
      · rw [if_neg herr]
        exact .inl ⟨_, rfl⟩
  · rw [hrange] at hpanic
    rw [loadRest, Call.bind_error (Call.eq_of_fst hpanic)]
    constructor
    · rintro ⟨as', ⟨entry, h⟩ | ⟨err, -, h⟩⟩
      · cases h
      · cases h
    · exact fun hnot => absurd ⟨j, by omega, hlow⟩ hnot

/-- A small file with a segment at `0x400000`. -/
theorem elf_load_panic_free_small :
    LoadReturns (elfLoad (fileMem (smallElf 0x400000 4)) 124 bootSpace ⟨lifeStart.mm, []⟩).1 := by
  have hcreate : addressSpaceCreate spaceBoot = (.ok (.ok bootSpace), lifeStart.mm) := Call.eq_of_fst rfl
  have hcount : headerCount (fileMem (smallElf 0x400000 4)) = 1 := by decide
  refine (elf_load_panic_free_iff spaceBoot_inv hcreate _ (by decide) (by decide +kernel) (by decide +kernel)).1.mpr ?_
  rintro ⟨-, k, hk, hlow⟩
  rw [hcount] at hk
  obtain rfl : k = 0 := by omega
  exact absurd hlow.low.low (by decide)

/-- A segment at `0x1000` is accepted, and the loader panics. -/
theorem elf_load_panics_below_base :
    addressSpaceCreate spaceBoot = (.ok (.ok bootSpace), lifeStart.mm) ∧
    verifyProgramHeader (headerAt (fileMem (smallElf 0x1000 4)) 0) 124 = .EOK ∧
    ¬PagesInside (headerAt (fileMem (smallElf 0x1000 4)) 0) ∧
    (∀ r ∈ (elfLoad (fileMem (smallElf 0x1000 4)) 124 bootSpace ⟨lifeStart.mm, []⟩).2.reads, r.offset + r.size ≤ 124) ∧
    (elfLoad (fileMem (smallElf 0x1000 4)) 124 bootSpace ⟨lifeStart.mm, []⟩).2.mm.log.failed = lifeStart.mm.log.failed ∧
    (elfLoad (fileMem (smallElf 0x1000 4)) 124 bootSpace ⟨lifeStart.mm, []⟩).1 = .error .panic := by
  have hok : verifyProgramHeader (headerAt (fileMem (smallElf 0x1000 4)) 0) 124 = .EOK := by decide +kernel
  refine ⟨Call.eq_of_fst rfl, hok, ?_, by decide +kernel, by decide +kernel, error_of_map (by decide +kernel)⟩
  rw [((verifyProgramHeader_eq_EOK (by decide)).mp hok).pagesInside_iff]
  decide +kernel

end KaworuOS.Proofs
