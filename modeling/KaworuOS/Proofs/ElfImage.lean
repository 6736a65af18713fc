import KaworuOS.Proofs.ElfPages

/-!
# The image of a segment

The pages of a segment hold its bytes of the file and zeroes around them, if every page begins before
the bytes of the file end.
-/

namespace KaworuOS.Proofs
open Lib

variable {file : Mem} {n root : Nat} {ph : ElfProgramHeader} {as as' : AddressSpace} {s s' : Loading} {mm : Mm}
  {T T' : Tree} {free free' : List Nat}

/-- The segment is mapped as its header says: nothing else of the file has been read, no memory has been
written but tables of the address space and frames that have been taken, and no other page has been mapped. -/
structure SegmentLoaded (file : Mem) (ph : ElfProgramHeader) (s : Loading) (T : Tree) (free : List Nat)
    (as' : AddressSpace) (s' : Loading) : Prop where
  reads : ∀ r ∈ s'.reads, r ∈ s.reads ∨ (ph.offset ≤ r.offset ∧ r.offset + r.size ≤ ph.offset + ph.filesz)
  mem : ∃ free', PmmInv s'.mm free' ∧ (∀ g ∈ free', g ∈ free) ∧
    ∀ x, (∀ g, T.IsTable g ∨ (g ∈ free ∧ g ∉ free') → ¬InPage s.mm.hhdm g x) → s'.mm.mem x = s.mm.mem x
  bytes : ∀ a, mapStart ph ≤ a → a < mapEnd ph → ∃ f ∈ free, translate as'.table a s'.mm = some (f + a % 4096) ∧
    s'.mm.mem (f + a % 4096 + s.mm.hhdm) =
      if ph.vaddr ≤ a ∧ a < ph.vaddr + ph.filesz then file (ph.offset + (a - ph.vaddr)) else 0
  others : ∀ a < 2 ^ 48, ¬(mapStart ph ≤ a ∧ a < mapEnd ph) → translate as'.table a s'.mm = translate as'.table a s.mm
  perms : ∀ a, mapStart ph ≤ a → a < mapEnd ph → ∃ raw, validDesc as'.table a s'.mm = some raw ∧
    (PageDescriptor.attrs raw).perms =
      (if ph.flags &&& PF_W ≠ 0 then .EL1_READ_WRITE_EL0_READ_WRITE else .EL1_READ_ONLY_EL0_READ_ONLY) ∧
    (PageDescriptor.attrs raw).underprivilegeExecution =
      (if ph.flags &&& PF_X ≠ 0 then .EXECUTABLE else .NOT_EXECUTABLE)

/-- The number of pages of a segment. -/
def segmentCount (ph : ElfProgramHeader) : Nat := (mapEnd ph - mapStart ph) / PAGE_SIZE

lemma PagesLoaded.segment (hspan : Span (mapStart ph) (segmentCount ph))
    (hend : segmentCount ph * 4096 + mapStart ph = mapEnd ph) (htop : mapEnd ph ≤ 2 ^ 48)
    (hbefore : LoadInv root as s.mm T free)
    (h : PagesLoaded file ph (userPageAttrs (segmentPerms ph) (segmentExec ph)) root (mapStart ph) (segmentCount ph) s T
      free as' s' T' free') : SegmentLoaded file ph s T free as' s' := by
  have hstart := hspan.aligned
  have hpage : ∀ a, mapStart ph ≤ a → a < mapEnd ph → ∃ f ∈ free,
      T'.leaf (pageOf a) = some ⟨f, userPageAttrs (segmentPerms ph) (segmentExec ph)⟩ ∧
      s'.mm.mem (f + a % 4096 + s.mm.hhdm) = segmentByte file ph a := by
    intro a h1 h2
    have hbyte : pageOf (mapStart ph + (a - mapStart ph)) = pageOf (mapStart ph) + (a - mapStart ph) / 4096 :=
      hspan.pageOf_byte (by omega)
    rw [Nat.add_sub_cancel' h1] at hbyte
    obtain ⟨f, hf, hleaf, hbytes⟩ := h.pages ((a - mapStart ph) / 4096) (by omega)
    refine ⟨f, hf, by rw [hbyte]; exact hleaf, ?_⟩
    have hmem := hbytes (a % 4096) (Nat.mod_lt _ (by decide))
    rw [show mapStart ph + (a - mapStart ph) / 4096 * 4096 + a % 4096 = a by omega] at hmem
    rw [← hmem, Nat.add_right_comm]
  have haddr : as'.table = root + s'.mm.hhdm := h.inv.addr
  refine ⟨h.reads, ⟨free', h.inv.table.pmm, h.still, h.mem⟩, ?_, ?_, ?_⟩
  · intro a h1 h2
    obtain ⟨f, hf, hleaf, hmem⟩ := hpage a h1 h2
    refine ⟨f, hf, ?_, hmem⟩
    rw [haddr]
    exact h.inv.table.translate_eq hleaf
  · intro a ha hout
    rw [haddr, h.hhdm]
    refine hbefore.table.translate_kept h.inv.table h.hhdm (h.others _ ?_)
    unfold pageOf
    omega
  · intro a h1 h2
    obtain ⟨f, -, hleaf, -⟩ := hpage a h1 h2
    obtain ⟨raw, hraw, hattrs⟩ := h.inv.table.attrs_eq hleaf
    refine ⟨raw, by rw [haddr]; exact hraw, ?_, ?_⟩
    · rw [hattrs]
      rfl
    · rw [hattrs]
      rfl

lemma LoadInv.not_loaded (h : LoadInv root as s.mm T free) {a : Nat} (hclear : ClearPage as.region (pageOf a))
    {raw : Nat} : validDesc as.table a s.mm ≠ some raw := by
  intro hraw
  have haddr : as.table = root + s.mm.hhdm := h.addr
  have hdesc := h.table.validDesc_eq a
  rw [h.clear_unmapped hclear, ← haddr] at hdesc
  rw [hdesc] at hraw
  cases hraw

/-- With frames and room for its pages, a segment of the user range is loaded as its header says exactly if
no page begins behind the bytes that come from the file. An empty segment gets no page, not even that
around an address inside a page. -/
theorem segment_image_iff {file : Mem} {n root : Nat} {ph : ElfProgramHeader} {as : AddressSpace} {mm : Mm} {T : Tree}
    {free : List Nat} (h : LoadInv root as mm T free) (hn : n ≤ 2 ^ 63) (hok : verifyProgramHeader ph n = .EOK)
    (hbase : USER_VM_RANGE_BASE ≤ ph.vaddr) (hroom : Room as.region (pagesFrom (mapStart ph) (segmentCount ph)))
    (hnever : loadFailures (mapSectionFromHeader file n ph as ⟨mm, []⟩).2 = loadFailures ⟨mm, []⟩) :
    (∃ as' s', mapSectionFromHeader file n ph as ⟨mm, []⟩ = (.ok (0, as'), s') ∧
      SegmentLoaded file ph ⟨mm, []⟩ T free as' s') ↔
    if ph.memsz = 0 then ph.vaddr % 4096 = 0 else mapEnd ph ≤ ph.vaddr + ph.filesz + PAGE_SIZE := by
  have hver : Verified ph n := (verifyProgramHeader_eq_EOK (by omega)).mp hok
  have hstart := hver.mapStart_eq
  unfold mapSectionFromHeader at hnever ⊢
  rw [if_neg (not_not.mpr hok)] at hnever ⊢
  by_cases hzero : ph.memsz = 0
  · rw [if_pos hzero, if_pos hzero]
    have hend : mapEnd ph = (ph.vaddr + 4095) / 4096 * 4096 := by
      have hfits := hver.fits
      simp only [USER_VM_RANGE_BASE, USER_VM_RANGE_END, USER_VM_RANGE_SIZE] at hfits hbase
      rw [mapEnd, hzero, wadd_of_lt (by omega), Nat.add_zero, roundUp_eq (by omega) (by omega)]
    constructor
    · rintro ⟨as', s', hrun, hloaded⟩
      obtain ⟨hr, rfl⟩ := Prod.mk.inj hrun
      obtain ⟨-, rfl⟩ := Prod.mk.inj (Except.ok.inj hr)
      by_contra hoffset
      have hcount : segmentCount ph = 1 := by
        simp only [segmentCount, PAGE_SIZE]
        omega
      obtain ⟨raw, hraw, -⟩ := hloaded.perms (mapStart ph) (Nat.le_refl _) (by omega)
      refine LoadInv.not_loaded (s := ⟨mm, []⟩) h (hroom.clear _ ?_) hraw
      rw [hcount]
      simp [pagesFrom]
    · intro haligned
      have hmem : ∃ free', PmmInv mm free' ∧ (∀ g ∈ free', g ∈ free) ∧
          ∀ x, (∀ g, T.IsTable g ∨ (g ∈ free ∧ g ∉ free') → ¬InPage mm.hhdm g x) → mm.mem x = mm.mem x :=
        ⟨free, h.table.pmm, fun _ hg => hg, fun _ _ => rfl⟩
      exact ⟨as, ⟨mm, []⟩, rfl, fun r hr => .inl hr, hmem, fun a h1 h2 => absurd h2 (by omega), fun _ _ _ => rfl,
        fun a h1 h2 => absurd h2 (by omega)⟩
  · have hpos : 0 < ph.memsz := Nat.pos_of_ne_zero hzero
    have hrange := hver.userRange hpos hbase
    have hspan : Span (mapStart ph) (segmentCount ph) := by
      have hs := hrange.span
      rwa [Nat.mul_div_cancel _ (by decide)] at hs
    have hend : segmentCount ph * 4096 + mapStart ph = mapEnd ph := hver.pages_eq hpos
    have htop : mapEnd ph ≤ 2 ^ 48 := by
      have hle : mapStart ph + segmentCount ph * 4096 ≤ USER_VM_RANGE_END := hrange.le_end
      simp only [USER_VM_RANGE_BASE, USER_VM_RANGE_END, USER_VM_RANGE_SIZE] at hle
      omega
    have hfirst : mapStart ph < mapEnd ph := by
      rw [hver.mapEnd_eq hpos, hstart]
      omega
    rw [if_neg hzero] at hnever ⊢
    rw [if_neg hzero]
    have hinv : LoadInv root as (⟨mm, []⟩ : Loading).mm T free := h
    rcases hinv.loop file (.nil as.region) hver hn hrange (segmentPerms ph) (segmentExec ph) with
      ⟨hfail, -⟩ | ⟨⟨i, hi, hbehind⟩, r, hr, hlt⟩ | ⟨hno, -⟩ | ⟨as', s', T', free', hrun, hpages, -⟩
    · exact absurd hnever (Nat.ne_of_gt hfail)
    · have hnot : ¬mapEnd ph ≤ ph.vaddr + ph.filesz + PAGE_SIZE := by
        have hi' : i < segmentCount ph := hi
        simp only [PAGE_SIZE]
        omega
      refine ⟨?_, fun hle => absurd hle hnot⟩
      rintro ⟨as', s', hrun, hloaded⟩
      rw [hrun] at hr
      have hinside := hver.inside
      rcases hloaded.reads r hr with hr | ⟨-, hr⟩
      · cases hr
      · omega
    · rw [List.nil_append] at hno
      exact absurd hroom hno
    · constructor
      · rintro -
        have hcount : 0 < segmentCount ph := by omega
        have hlast := hpages.before (segmentCount ph - 1) (Nat.sub_lt hcount Nat.one_pos)
        simp only [PAGE_SIZE]
        omega
      · intro _
        exact ⟨as', s', hrun, hpages.segment hspan hend htop hinv⟩

/-- A segment of one page, whose four bytes come from the file. -/
theorem segment_image_one_page :
    ∃ T free as' s', mapSectionFromHeader (fileMem (smallElf 0x400000 0x1000)) 124
        (headerAt (fileMem (smallElf 0x400000 0x1000)) 0) bootSpace ⟨lifeStart.mm, []⟩ = (.ok (0, as'), s') ∧
      SegmentLoaded (fileMem (smallElf 0x400000 0x1000)) (headerAt (fileMem (smallElf 0x400000 0x1000)) 0)
        ⟨lifeStart.mm, []⟩ T free as' s' := by
  have hcreate : addressSpaceCreate spaceBoot = (.ok (.ok bootSpace), lifeStart.mm) := Call.eq_of_fst rfl
  obtain ⟨root, T, free, hinv, -⟩ := MixedInv.create spaceBoot_inv hcreate
  have hpages : pagesFrom (mapStart (headerAt (fileMem (smallElf 0x400000 0x1000)) 0))
      (segmentCount (headerAt (fileMem (smallElf 0x400000 0x1000)) 0)) = [0x400] := by decide +kernel
  refine ⟨T, free, (segment_image_iff hinv (by decide) (by decide +kernel) (by decide +kernel) ?_
    (by decide +kernel)).mpr
    (by decide +kernel)⟩
  rw [hpages]
  refine ⟨by simp, by decide +kernel, fun q hq => ?_⟩
  rw [List.mem_singleton.mp hq]
  exact ⟨⟨by decide +kernel, by decide +kernel⟩, by decide +kernel⟩

/-- A segment of two pages with four bytes from the file: both pages are mapped, and the copy to the second
one leaves the file. -/
theorem segment_image_second_page :
    addressSpaceCreate spaceBoot = (.ok (.ok bootSpace), lifeStart.mm) ∧
    verifyProgramHeader (headerAt (fileMem (smallElf 0x400000 0x2000)) 0) 124 = .EOK ∧
    ((mapSectionFromHeader (fileMem (smallElf 0x400000 0x2000)) 124
      (headerAt (fileMem (smallElf 0x400000 0x2000)) 0) bootSpace ⟨lifeStart.mm, []⟩).1.map (·.1)) = .ok 0 ∧
    ¬∃ T free as' s', mapSectionFromHeader (fileMem (smallElf 0x400000 0x2000)) 124
        (headerAt (fileMem (smallElf 0x400000 0x2000)) 0) bootSpace ⟨lifeStart.mm, []⟩ = (.ok (0, as'), s') ∧
      SegmentLoaded (fileMem (smallElf 0x400000 0x2000)) (headerAt (fileMem (smallElf 0x400000 0x2000)) 0)
        ⟨lifeStart.mm, []⟩ T free as' s' := by
  refine ⟨Call.eq_of_fst rfl, by decide +kernel, by decide +kernel, ?_⟩
  rintro ⟨T, free, as', s', hrun, hloaded⟩
  have hout : ∃ r ∈ (mapSectionFromHeader (fileMem (smallElf 0x400000 0x2000)) 124
      (headerAt (fileMem (smallElf 0x400000 0x2000)) 0) bootSpace ⟨lifeStart.mm, []⟩).2.reads,
      124 < r.offset + r.size := by decide +kernel
  obtain ⟨r, hr, hlt⟩ := hout
  rw [hrun] at hr
  have hend : (headerAt (fileMem (smallElf 0x400000 0x2000)) 0).offset +
      (headerAt (fileMem (smallElf 0x400000 0x2000)) 0).filesz = 124 := by decide +kernel
  rcases hloaded.reads r hr with hr | ⟨-, hr⟩
  · cases hr
  · omega

end KaworuOS.Proofs
