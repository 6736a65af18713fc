import KaworuOS.Proofs.Region

/-!
# Copying a region

`bitmap_copy` clears the whole bitmap of the destination before it sets the bits of the source, but
`region_copy` writes only as many entries of the table as the source has. The entries behind them
stay, without the bits of their pages.
-/

namespace KaworuOS.Proofs
open Lib

variable {src dst dst' : AllocRegion}

/-- A consistent region whose pages are addresses. -/
structure AddressedRegion (region : AllocRegion) : Prop where
  consistent : RegionConsistent region
  bytes : region.allocator.pageCount * 4096 < 2 ^ 64
  bound : region.allocator.pool + region.allocator.pageCount * 4096 ≤ 2 ^ 64

/-- The entries of the table that are in use. -/
def liveEntries (region : AllocRegion) : List RegionAllocation := region.allocations.filter fun a => a.va ≠ 0

/-- An entry of `src`, moved to the pool of `dst`. -/
def movedEntry (src dst : AllocRegion) (a : RegionAllocation) : RegionAllocation :=
  ⟨a.va - src.allocator.pool + dst.allocator.pool, a.pageCount⟩

/-- An entry of `src` as it stands in the copied table. -/
def copiedEntry (src dst : AllocRegion) (a : RegionAllocation) : RegionAllocation :=
  if a.va = 0 then a else movedEntry src dst a

/-- What `region_copy` makes of a destination that is large enough. -/
structure CopyOf (src dst dst' : AllocRegion) : Prop where
  pool : dst'.allocator.pool = dst.allocator.pool
  pageCount : dst'.allocator.pageCount = dst.allocator.pageCount
  bits : ∀ q < bitCount dst, dst'.allocator.bitmap.bit
    q = (decide (q < src.allocator.pageCount) && src.allocator.bitmap.bit q)
  table : dst'.allocations = src.allocations.map (copiedEntry src dst) ++ dst.allocations.drop src.allocations.length

lemma bmCopyPages_eq {src : AllocBitMap} {pages : List Nat} (hpages : ∀ q ∈ pages, q < src.pageCount)
    (dst : AllocBitMap) :
    bmCopyPages src pages dst = .ok
      { dst with bitmap := (pages.filter src.bitmap.bit).foldl Mem.setBit dst.bitmap } := by
  induction pages generalizing dst with
  | nil => rfl
  | cons page pages ih =>
    have hlt := hpages page List.mem_cons_self
    have hcheck : bmIsPageAllocated src page = .ok (src.bitmap.bit page) := by
      rw [bmIsPageAllocated, if_neg (by omega)]
      rfl
    have hrest := fun dst => ih (fun q hq => hpages q (List.mem_cons_of_mem _ hq)) dst
    rw [bmCopyPages, hcheck]
    simp only [bind, Except.bind, hrest, List.filter_cons]
    cases src.bitmap.bit page with
    | true => rfl
    | false => rfl

/-- `bitmap_copy` leaves exactly the bits of the source's pages set. -/
lemma bitmapCopy_ok {src dst : AllocBitMap} (hcount : src.pageCount ≤ dst.pageCount)
    (hbytes : dst.pageCount * 4096 < 2 ^ 64) :
    ∃ alloc', bitmapCopy dst src = .ok (.EOK, alloc') ∧ alloc'.pool = dst.pool ∧
      alloc'.pageCount = dst.pageCount ∧
      ∀ q < 8 * sizeToBitmapBytes (dst.pageCount * PAGE_SIZE),
        alloc'.bitmap.bit q = (decide (q < src.pageCount) && src.bitmap.bit q) := by
  have hpages := fun alloc => @bmCopyPages_eq src _ (fun q hq => List.mem_range.mp hq) alloc
  unfold bitmapCopy
  simp only [if_neg (Nat.not_lt.mpr hcount), wmul_of_lt hbytes, hpages, bind, Except.bind]
  refine ⟨_, rfl, rfl, rfl, ?_⟩
  intro q hq
  have hclear : (dst.bitmap.fill 0 (sizeToBitmapBytes (dst.pageCount * PAGE_SIZE)) 0).bit q = false :=
    Mem.bit_fill_zero _ (by omega)
  simp [Mem.bit_foldl_setBit, hclear]

lemma AddressedRegion.va_bound (h : AddressedRegion src) {a : RegionAllocation} (ha : a ∈ src.allocations)
    (hva : a.va ≠ 0) : src.allocator.pool ≤ a.va ∧ a.va - src.allocator.pool < src.allocator.pageCount * 4096 := by
  obtain ⟨hpool, hpos, hin⟩ := h.consistent.inside a ha hva
  unfold pagesOf PAGE_SIZE at hin
  simp only at hin
  omega

/-- The shift of an entry does not wrap. -/
lemma wadd_delta (hsrc : AddressedRegion src) (hdst : AddressedRegion dst)
    (hcount : src.allocator.pageCount ≤ dst.allocator.pageCount) {a : RegionAllocation} (ha : a ∈ src.allocations)
    (hva : a.va ≠ 0) : wadd a.va (wsub dst.allocator.pool src.allocator.pool) = (movedEntry src dst a).va := by
  obtain ⟨hpool, hlt⟩ := hsrc.va_bound ha hva
  have h1 := hsrc.bound
  have h2 := hdst.bound
  unfold movedEntry wadd wsub wordSize
  simp only
  omega

lemma copied_of_shift (hsrc : AddressedRegion src) (hdst : AddressedRegion dst)
    (hcount : src.allocator.pageCount ≤ dst.allocator.pageCount) {a : RegionAllocation} (ha : a ∈ src.allocations) :
    (if a.va ≠ 0 then { a with va := wadd a.va (wsub dst.allocator.pool src.allocator.pool) } else a) =
      copiedEntry src dst a := by
  unfold copiedEntry
  by_cases hva : a.va = 0
  · rw [if_pos hva, if_neg (not_not.mpr hva)]
  · rw [if_neg hva, if_pos hva, wadd_delta hsrc hdst hcount ha hva, movedEntry]

lemma copied_of_no_shift (hsrc : AddressedRegion src) (hdst : AddressedRegion dst)
    (hcount : src.allocator.pageCount ≤ dst.allocator.pageCount)
    (hdelta : wsub dst.allocator.pool src.allocator.pool = 0) {a : RegionAllocation} (ha : a ∈ src.allocations) :
    a = copiedEntry src dst a := by
  rw [← copied_of_shift hsrc hdst hcount ha, hdelta]
  split
  · rename_i hva
    obtain ⟨hpool, hlt⟩ := hsrc.va_bound ha hva
    have h1 := hsrc.bound
    rw [wadd_of_lt (by omega), Nat.add_zero]
  · rfl

/-- `region_copy` into a destination that is large enough succeeds. -/
lemma regionCopy_ok (hsrc : AddressedRegion src) (hdst : AddressedRegion dst)
    (hlen : src.allocations.length ≤ dst.allocations.length)
    (hcount : src.allocator.pageCount ≤ dst.allocator.pageCount) :
    ∃ dst', regionCopy false dst src = .ok (.EOK, dst') ∧ CopyOf src dst dst' := by
  obtain ⟨alloc', hcopy, hpool, hpages, hbits⟩ := bitmapCopy_ok hcount hdst.bytes
  refine ⟨⟨alloc', src.allocations.map (copiedEntry src dst) ++ dst.allocations.drop src.allocations.length⟩, ?_,
    hpool, hpages, hbits, rfl⟩
  unfold regionCopy
  rw [if_neg Bool.false_ne_true, if_neg (Nat.not_lt.mpr hlen), if_neg (Nat.not_lt.mpr hcount), hcopy, ok_bind]
  dsimp only
  have herr : ¬(Errno.EOK ≠ Errno.EOK) := not_not.mpr rfl
  rw [if_neg herr]
  by_cases hdelta : wsub dst.allocator.pool src.allocator.pool = 0
  · have htable : src.allocations.map (copiedEntry src dst) = src.allocations :=
      (List.map_congr_left fun a ha => (copied_of_no_shift hsrc hdst hcount hdelta ha).symm).trans (List.map_id _)
    rw [if_pos hdelta, htable]
  · rw [if_neg hdelta, List.map_congr_left fun a ha => copied_of_shift hsrc hdst hcount ha]

lemma CopyOf.pagesOf_moved (h : CopyOf src dst dst') (a : RegionAllocation) :
    pagesOf dst' (movedEntry src dst a) = pagesOf src a := by
  unfold pagesOf movedEntry
  rw [h.pool]
  simp only [Nat.add_sub_cancel]

/-- The source's entries stand in the copy at the same index. -/
lemma CopyOf.slot (h : CopyOf src dst dst') {i : Nat} {a : RegionAllocation} (hi : src.allocations[i]? = some a)
    (hva : a.va ≠ 0) : dst'.allocations[i]? = some (movedEntry src dst a) := by
  have hlt : i < src.allocations.length := (List.getElem?_eq_some_iff.mp hi).1
  rw [h.table, List.getElem?_append_left (by rwa [List.length_map]), List.getElem?_map, hi]
  simp [copiedEntry, hva]

/-- The entries of the copy, when the destination had none behind those of the source. -/
lemma CopyOf.slot_live (h : CopyOf src dst dst') (htail : ∀ a ∈ dst.allocations.drop src.allocations.length, a.va = 0)
    {i : Nat} {b : RegionAllocation} (hi : dst'.allocations[i]? = some b) (hvb : b.va ≠ 0) :
    ∃ a, src.allocations[i]? = some a ∧ a.va ≠ 0 ∧ b = movedEntry src dst a := by
  rw [h.table] at hi
  by_cases hlt : i < src.allocations.length
  · rw [List.getElem?_append_left (by rwa [List.length_map]), List.getElem?_map] at hi
    obtain ⟨a, ha, rfl⟩ := Option.map_eq_some_iff.mp hi
    by_cases hva : a.va = 0
    · simp [copiedEntry, hva] at hvb
    · exact ⟨a, ha, hva, by rw [copiedEntry, if_neg hva]⟩
  · rw [List.getElem?_append_right (by rw [List.length_map]; omega)] at hi
    exact absurd (htail b (List.mem_of_getElem? hi)) hvb

/-- No entry of the source is moved to null. -/
def NoneToNull (src dst : AllocRegion) : Prop :=
  dst.allocator.pool = 0 → ∀ a ∈ src.allocations, a.va ≠ 0 → a.va ≠ src.allocator.pool

lemma movedEntry_ne_zero_iff (hsrc : AddressedRegion src) :
    (∀ a ∈ src.allocations, a.va ≠ 0 → (movedEntry src dst a).va ≠ 0) ↔ NoneToNull src dst := by
  constructor
  · intro hne hpool a ha hva heq
    apply hne a ha hva
    unfold movedEntry
    simp only
    omega
  · intro hnull a ha hva
    have hpool := (hsrc.consistent.inside a ha hva).1
    unfold movedEntry
    simp only
    by_cases hdst : dst.allocator.pool = 0
    · have hne := hnull hdst a ha hva
      omega
    · omega

lemma page_lt_bitCount {region : AllocRegion} {q : Nat} (hq : q < region.allocator.pageCount) :
    q < bitCount region := by
  unfold bitCount sizeToBitmapBytes
  rw [Nat.mul_div_cancel _ (by decide)]
  omega

/-- The entries in use after the copy: those of the source, and those behind them. -/
lemma CopyOf.liveEntries_eq (h : CopyOf src dst dst')
    (hmoved : ∀ a ∈ src.allocations, a.va ≠ 0 → (movedEntry src dst a).va ≠ 0) :
    liveEntries dst' = (liveEntries src).map (movedEntry src dst) ++
      (dst.allocations.drop src.allocations.length).filter fun a => a.va ≠ 0 := by
  have hlive : ∀ a ∈ src.allocations, decide ((copiedEntry src dst a).va ≠ 0) = decide (a.va ≠ 0) := by
    intro a ha
    by_cases hva : a.va = 0
    · simp [copiedEntry, hva]
    · simp [copiedEntry, hva, hmoved a ha hva]
  have hcopied : ∀ a ∈ liveEntries src, copiedEntry src dst a = movedEntry src dst a := by
    intro a ha
    have hva := (List.mem_filter.mp ha).2
    rw [copiedEntry, if_neg (by simpa using hva)]
  rw [liveEntries, h.table, List.filter_append, List.filter_map]
  congr 1
  rw [← List.map_congr_left hcopied, liveEntries]
  congr 1
  exact List.filter_congr hlive

lemma CopyOf.liveEntries_iff (h : CopyOf src dst dst') (hsrc : AddressedRegion src) :
    liveEntries dst' = (liveEntries src).map (movedEntry src dst) ↔
      (∀ a ∈ dst.allocations.drop src.allocations.length, a.va = 0) ∧ NoneToNull src dst := by
  rw [← movedEntry_ne_zero_iff hsrc]
  constructor
  · intro heq
    have hmoved : ∀ a ∈ src.allocations, a.va ≠ 0 → (movedEntry src dst a).va ≠ 0 := by
      intro a ha hva
      have hmem : movedEntry src dst a ∈ liveEntries dst' := by
        rw [heq]
        exact List.mem_map_of_mem (List.mem_filter.mpr ⟨ha, by simpa using hva⟩)
      simpa using (List.mem_filter.mp hmem).2
    refine ⟨?_, hmoved⟩
    rw [h.liveEntries_eq hmoved, List.append_right_eq_self, List.filter_eq_nil_iff] at heq
    intro a ha
    simpa using heq a ha
  · rintro ⟨htail, hmoved⟩
    rw [h.liveEntries_eq hmoved, List.append_right_eq_self, List.filter_eq_nil_iff]
    intro a ha
    simpa using htail a ha

/-- The set bits of the copy are the pages of the source's allocations. -/
lemma CopyOf.bit_iff (h : CopyOf src dst dst') (hsrc : AddressedRegion src) {q : Nat} (hq : q < bitCount dst) :
    dst'.allocator.bitmap.bit q = true ↔ ∃ a ∈ src.allocations, a.va ≠ 0 ∧ (pagesOf src a).Has q := by
  rw [h.bits q hq, Bool.and_eq_true, decide_eq_true_iff]
  constructor
  · rintro ⟨hlt, hbit⟩
    exact (hsrc.consistent.bits q (page_lt_bitCount hlt)).mp hbit
  · rintro ⟨a, ha, hva, haq⟩
    obtain ⟨-, -, hin⟩ := hsrc.consistent.inside a ha hva
    have hlt : q < src.allocator.pageCount := by
      unfold Block.Has at haq
      omega
    exact ⟨hlt, (hsrc.consistent.bits q (page_lt_bitCount hlt)).mpr ⟨a, ha, hva, haq⟩⟩

/-- The copy is consistent when nothing is left over and nothing is moved to null. -/
lemma CopyOf.consistent (h : CopyOf src dst dst') (hsrc : AddressedRegion src)
    (hcount : src.allocator.pageCount ≤ dst.allocator.pageCount)
    (htail : ∀ a ∈ dst.allocations.drop src.allocations.length, a.va = 0) (hnull : NoneToNull src dst) :
    RegionConsistent dst' := by
  have hmoved := (movedEntry_ne_zero_iff hsrc).mpr hnull
  have hcover := hsrc.consistent
  refine ⟨?_, ?_, ?_, ?_⟩
  · intro b hb hvb
    obtain ⟨i, hi⟩ := List.mem_iff_getElem?.mp hb
    obtain ⟨a, ha, hva, rfl⟩ := h.slot_live htail hi hvb
    obtain ⟨hpool, hpos, hin⟩ := hcover.inside a (List.mem_of_getElem? ha) hva
    rw [h.pagesOf_moved, h.pool, h.pageCount]
    exact ⟨Nat.le_add_left _ _, hpos, hin.trans hcount⟩
  · intro i j a' b' hij hi hj hva' hvb'
    obtain ⟨a, ha, hva, rfl⟩ := h.slot_live htail hi hva'
    obtain ⟨b, hb, hvb, rfl⟩ := h.slot_live htail hj hvb'
    rw [h.pagesOf_moved, h.pagesOf_moved]
    exact hcover.disjoint i j a b hij ha hb hva hvb
  · intro q hq
    rw [bitCount_congr h.pageCount] at hq
    rw [h.bit_iff hsrc hq]
    constructor
    · rintro ⟨a, ha, hva, haq⟩
      obtain ⟨i, hi⟩ := List.mem_iff_getElem?.mp ha
      exact ⟨_, List.mem_of_getElem? (h.slot hi hva), hmoved a ha hva, by rwa [h.pagesOf_moved]⟩
    · rintro ⟨b, hb, hvb, hbq⟩
      obtain ⟨i, hi⟩ := List.mem_iff_getElem?.mp hb
      obtain ⟨a, ha, hva, rfl⟩ := h.slot_live htail hi hvb
      rw [h.pagesOf_moved] at hbq
      exact ⟨a, List.mem_of_getElem? ha, hva, hbq⟩
  · intro i j a' b' hi hj hva' hab
    obtain ⟨a, ha, hva, rfl⟩ := h.slot_live htail hi hva'
    obtain ⟨b, hb, hvb, rfl⟩ := h.slot_live htail hj (hab ▸ hva')
    have hpa := (hcover.inside a (List.mem_of_getElem? ha) hva).1
    have hpb := (hcover.inside b (List.mem_of_getElem? hb) hvb).1
    apply hcover.unique i j a b ha hb hva
    unfold movedEntry at hab
    simp only at hab
    omega

/-- `region_copy` returns. With `EOK` it leaves a consistent destination with the source's allocations,
moved to its own pool, and with `-ENOMEM` the destination as it was. -/
def CopiesRegion (same : Bool) (dst src : AllocRegion) : Prop :=
  ∃ err dst', regionCopy same dst src = .ok (err, dst') ∧
    (err = .EOK → RegionConsistent dst' ∧ liveEntries dst' = (liveEntries src).map (movedEntry src dst)) ∧
    (err = .ENOMEM → dst' = dst)

lemma liveEntries_self (h : AddressedRegion src) : (liveEntries src).map (movedEntry src src) = liveEntries src := by
  apply (List.map_congr_left _).trans (List.map_id _)
  intro a ha
  obtain ⟨ha, hva⟩ := List.mem_filter.mp ha
  have hpool := (h.consistent.inside a ha (by simpa using hva)).1
  rw [movedEntry, Nat.sub_add_cancel hpool]
  rfl

lemma copiesRegion_iff_of_ok {err : Errno} {same : Bool} (hcall : regionCopy same dst src = .ok (err, dst')) :
    CopiesRegion same dst src ↔
      (err = .EOK → RegionConsistent dst' ∧ liveEntries dst' = (liveEntries src).map (movedEntry src dst)) ∧
        (err = .ENOMEM → dst' = dst) := by
  unfold CopiesRegion
  rw [hcall]
  constructor
  · rintro ⟨_, _, heq, hclaim⟩
    cases heq
    exact hclaim
  · exact fun hclaim => ⟨err, dst', rfl, hclaim⟩

/-- A copy between consistent regions does what it should exactly if source and destination are one
region, the destination is too small, or no entry of the destination is in use behind those that are
overwritten and no entry of the source is moved to null. -/
theorem region_copy_overwrites_iff {same : Bool} (hsrc : AddressedRegion src) (hdst : AddressedRegion dst)
    (hsame : same = true → dst = src) :
    CopiesRegion same dst src ↔
      same = true ∨ dst.allocations.length < src.allocations.length ∨
        dst.allocator.pageCount < src.allocator.pageCount ∨
        (∀ a ∈ dst.allocations.drop src.allocations.length, a.va = 0) ∧ NoneToNull src dst := by
  by_cases hone : same = true
  · obtain rfl := hsame hone
    have hcall : regionCopy same dst dst = .ok (.EOK, dst) := if_pos hone
    rw [copiesRegion_iff_of_ok hcall, liveEntries_self hdst]
    exact iff_of_true ⟨fun _ => ⟨hdst.consistent, rfl⟩, fun _ => rfl⟩ (.inl hone)
  by_cases hlen : dst.allocations.length < src.allocations.length
  · have hcall : regionCopy same dst src = .ok (.ENOMEM, dst) := by
      rw [regionCopy, if_neg hone, if_pos hlen]
    rw [copiesRegion_iff_of_ok hcall]
    exact iff_of_true ⟨nofun, fun _ => rfl⟩ (.inr (.inl hlen))
  by_cases hcount : dst.allocator.pageCount < src.allocator.pageCount
  · have hcall : regionCopy same dst src = .ok (.ENOMEM, dst) := by
      rw [regionCopy, if_neg hone, if_neg hlen, if_pos hcount]
    rw [copiesRegion_iff_of_ok hcall]
    exact iff_of_true ⟨nofun, fun _ => rfl⟩ (.inr (.inr (.inl hcount)))
  obtain ⟨dst', hcall, h⟩ := regionCopy_ok hsrc hdst (Nat.le_of_not_lt hlen) (Nat.le_of_not_lt hcount)
  rw [← Bool.eq_false_iff.mpr hone] at hcall
  rw [copiesRegion_iff_of_ok hcall]
  constructor
  · intro hclaim
    exact .inr (.inr (.inr ((h.liveEntries_iff hsrc).mp (hclaim.1 rfl).2)))
  · rintro (hsame | hlen' | hcount' | ⟨htail, hnull⟩)
    · exact absurd hsame hone
    · exact absurd hlen' hlen
    · exact absurd hcount' hcount
    · exact ⟨fun _ => ⟨h.consistent hsrc (Nat.le_of_not_lt hcount) htail hnull,
        (h.liveEntries_iff hsrc).mpr ⟨htail, hnull⟩⟩, nofun⟩

lemma addressedRegion_of_run {region region' : AllocRegion} (hg : GoodPool region)
    (hrun : Relation.ReflTransGen RegionStep (regionInit region) region') : AddressedRegion region' := by
  obtain ⟨h, hx⟩ := region_run hg hrun
  have h1 := h.good.positive
  have h2 := h.good.bound
  exact ⟨h.consistent hx, by omega, h2⟩

/-- A region of four pages with one entry. -/
def sourceInit : AllocRegion := ⟨⟨fun _ => 0, 4, 0x10000⟩, [⟨0, 0⟩]⟩

/-- The region after the reservation of its second page. -/
def sourceRegion : AllocRegion := stateAfter (regionInit sourceInit) (regionReserve (regionInit sourceInit) 0x11000 1)

/-- A region of eight pages with two entries. -/
def targetInit : AllocRegion := ⟨⟨fun _ => 0, 8, 0x20000⟩, [⟨0, 0⟩, ⟨0, 0⟩]⟩

/-- The region after the reservation of its first page. -/
def targetRegion : AllocRegion := stateAfter (regionInit targetInit) (regionReserve (regionInit targetInit) 0x20000 1)

/-- The region after the reservation of another page. -/
def fullTargetRegion : AllocRegion := stateAfter targetRegion (regionReserve targetRegion 0x23000 1)

lemma sourceRegion_addressed : AddressedRegion sourceRegion := by
  have hcall : regionReserve (regionInit sourceInit) 0x11000 1 = .ok (.EOK, sourceRegion) :=
    eq_ok_of_resultOf (regionInit sourceInit) (by decide +kernel)
  have hg : GoodPool sourceInit := ⟨by decide, by decide, by decide⟩
  exact addressedRegion_of_run hg
    (.single (.reserve (by decide) (by decide) hcall))

lemma targetRegion_step : RegionStep (regionInit targetInit) targetRegion := by
  have hcall : regionReserve (regionInit targetInit) 0x20000 1 = .ok (.EOK, targetRegion) :=
    eq_ok_of_resultOf (regionInit targetInit) (by decide +kernel)
  exact .reserve (by decide) (by decide) hcall

lemma targetRegion_addressed : AddressedRegion targetRegion :=
  addressedRegion_of_run ⟨by decide, by decide, by decide⟩ (.single targetRegion_step)

lemma fullTargetRegion_addressed : AddressedRegion fullTargetRegion := by
  have hcall : regionReserve targetRegion 0x23000 1 = .ok (.EOK, fullTargetRegion) :=
    eq_ok_of_resultOf targetRegion (by decide +kernel)
  exact addressedRegion_of_run ⟨by decide, by decide, by decide⟩
    ((Relation.ReflTransGen.single targetRegion_step).tail (.reserve (by decide) (by decide) hcall))

/-- The destination has one allocation, which is overwritten. -/
theorem region_copy_overwrites_iff_one : CopiesRegion false targetRegion sourceRegion := by
  have hpool : targetRegion.allocator.pool ≠ 0 := by decide +kernel
  have htail : ∀ a ∈ targetRegion.allocations.drop sourceRegion.allocations.length, a.va = 0 := by decide +kernel
  have hdistinct : false = true → targetRegion = sourceRegion := fun hsame => absurd hsame Bool.false_ne_true
  exact (region_copy_overwrites_iff sourceRegion_addressed targetRegion_addressed hdistinct).mpr
    (.inr (.inr (.inr ⟨htail, fun hnull => absurd hnull hpool⟩)))

/-- The destination has a second allocation, which stays in the table. -/
theorem region_copy_keeps_entry : AddressedRegion sourceRegion ∧ AddressedRegion fullTargetRegion ∧
    sourceRegion.allocations.length ≤ fullTargetRegion.allocations.length ∧
    sourceRegion.allocator.pageCount ≤ fullTargetRegion.allocator.pageCount ∧
    ¬CopiesRegion false fullTargetRegion sourceRegion := by
  have hlen : sourceRegion.allocations.length ≤ fullTargetRegion.allocations.length := by decide +kernel
  have hcount : sourceRegion.allocator.pageCount ≤ fullTargetRegion.allocator.pageCount := by decide +kernel
  refine ⟨sourceRegion_addressed, fullTargetRegion_addressed, hlen, hcount, ?_⟩
  obtain ⟨dst', hcall, h⟩ := regionCopy_ok sourceRegion_addressed fullTargetRegion_addressed hlen hcount
  rw [copiesRegion_iff_of_ok hcall]
  intro hclaim
  obtain ⟨htail, -⟩ := (h.liveEntries_iff sourceRegion_addressed).mp (hclaim.1 rfl).2
  exact absurd (htail ⟨0x23000, 1⟩ (by decide +kernel)) (by decide)

end KaworuOS.Proofs
