import KaworuOS.Uaccess
import KaworuOS.Proofs.VmAtomic

/-!
# What `vm_mmio_map` and `vm_alloc` map

`vm_mmio_map` covers every byte that it is asked for, and `vm_mmio_unmap` undoes it. `vm_alloc` divides
where `vm_map` rounds up, so that the end of a request may be left out.
-/

namespace KaworuOS.Proofs
open Lib

variable {s s' s₁ : Mm} {root va pa n k size : Nat} {T T' : Tree} {free free' : List Nat} {attrs : PageAttrs}
  {region region' region₁ : AllocRegion}

lemma Span.pageOf_byte (h : Span va n) (hk : k < n * 4096) : pageOf (va + k) = pageOf va + k / 4096 := by
  have hi : k / 4096 < n := (Nat.div_lt_iff_lt_mul (by decide)).mpr hk
  have haligned := h.aligned
  rw [← h.pageOf_add hi]
  unfold pageOf
  omega

lemma TableInv.translate_eq (h : TableInv s root T free) {l : Leaf} (hl : T.leaf (pageOf va) = some l) :
    translate (root + s.hhdm) va s = some (l.pa + va % 4096) := by
  obtain ⟨haligned, hbound⟩ := h.tree.leafFrame hl
  cases hf : T.node 3 (pageOf va / 512) with
  | none =>
    rw [h.tree.leaf_none hf] at hl
    cases hl
  | some f =>
    rw [translate, pagingLookupDesc, walk_lookup h va, descPtr, hf]
    dsimp only
    rw [h.tree.leafEntry hf, if_pos ⟨h.entry_not_isErr hf _, (leafRaw_isValid _).mpr (by simp [hl])⟩, hl, leafRaw,
      pageEntry_output _ _ haligned hbound, pageDesc_or_offset haligned]

lemma TableInv.translate_none (h : TableInv s root T free) (hl : T.leaf (pageOf va) = none) :
    translate (root + s.hhdm) va s = none := by
  cases hf : T.node 3 (pageOf va / 512) with
  | none =>
    rw [translate, pagingLookupDesc, walk_lookup h va, descPtr, hf]
    dsimp only
    rw [if_neg]
    rintro ⟨herr, -⟩
    rw [isErrValue_errToPtr] at herr
    cases herr
  | some f =>
    rw [translate, pagingLookupDesc, walk_lookup h va, descPtr, hf]
    dsimp only
    rw [h.tree.leafEntry hf, if_neg]
    rintro ⟨-, hvalid⟩
    exact (leafRaw_isValid _).mp hvalid hl

/-- An address whose page keeps its leaf keeps its translation. -/
lemma TableInv.translate_kept {s' : Mm} {T' : Tree} {free' : List Nat} (h : TableInv s root T free)
    (h' : TableInv s' root T' free') (hhdm : s'.hhdm = s.hhdm) (hleaf : T'.leaf (pageOf va) = T.leaf (pageOf va)) :
    translate (root + s.hhdm) va s' = translate (root + s.hhdm) va s := by
  cases hl : T.leaf (pageOf va) with
  | none => rw [h.translate_none hl, ← hhdm, h'.translate_none (hleaf.trans hl)]
  | some l => rw [h.translate_eq hl, ← hhdm, h'.translate_eq (hleaf.trans hl)]

lemma TableInv.attrs_eq (h : TableInv s root T free) {l : Leaf} (hl : T.leaf (pageOf va) = some l) :
    ∃ raw, validDesc (root + s.hhdm) va s = some raw ∧ PageDescriptor.attrs raw = l.attrs := by
  refine ⟨leafRaw (some l), by rw [h.validDesc_eq va, hl]; rfl, ?_⟩
  rw [leafRaw, attrs_pageEntry]

lemma pagesSize_eq (hpos : 0 < size) (hlt : size + 4096 ≤ 2 ^ 64) :
    pagesSize size = (size + 4095) / 4096 * 4096 := by
  unfold pagesSize
  by_cases haligned : isPageAligned size = true
  · rw [if_pos haligned]
    rw [isPageAligned_iff] at haligned
    omega
  · rw [if_neg haligned, roundUp_eq hpos hlt]

lemma vmMap_pagesSize (table : Nat) :
    vmMap table pa size region attrs = vmMap table pa (pagesSize size) region attrs := by
  have haligned : isPageAligned (pagesSize size) = true := (isPageAligned_iff _).mpr pagesSize_aligned
  unfold vmMap
  dsimp only
  rw [if_pos haligned]
  rfl

lemma vmMmioMap_eq (hn : 0 < n) (hpa : pa + n + 4096 ≤ 2 ^ 48) (table : Nat) :
    vmMmioMap table pa n region = (do
      let (va, region) ← vmMap table (pa - pa % 4096) ((n + pa % 4096 + 4095) / 4096 * 4096) region mmioPageAttrs
      if isErrValue va then return (va, region)
      return (wadd va (pa % 4096), region)) := by
  have hbase : roundDown pa = pa - pa % 4096 := roundDown_eq (by omega)
  have hoffset : wsub pa (roundDown pa) = pa % 4096 := by
    rw [hbase, wsub_of_le (Nat.sub_le _ _) (by omega)]
    omega
  have hsize : wadd n (pa % 4096) = n + pa % 4096 := wadd_of_lt (by omega)
  unfold vmMmioMap
  dsimp only
  rw [hoffset, hsize, hbase, vmMap_pagesSize, pagesSize_eq (by omega) (by omega)]

lemma vmMmioMap_ok (hn : 0 < n) (hpa : pa + n + 4096 ≤ 2 ^ 48) {table : Nat}
    (hcall : vmMmioMap table pa n region s = (.ok (va, region₁), s₁)) (hok : isErrValue va = false) :
    ∃ start, vmMap table (pa - pa % 4096) ((n + pa % 4096 + 4095) / 4096 * 4096) region mmioPageAttrs s =
        (.ok (start, region₁), s₁) ∧ isErrValue start = false ∧ va = wadd start (pa % 4096) := by
  rw [vmMmioMap_eq hn hpa] at hcall
  obtain ⟨⟨start, region₂⟩, s₂, hmap, hrest⟩ := Call.ok_of_bind hcall
  dsimp only at hrest
  by_cases herr : isErrValue start = true
  · rw [if_pos herr] at hrest
    obtain ⟨hr, -⟩ := Prod.mk.inj hrest
    obtain ⟨rfl, -⟩ := Prod.mk.inj (Except.ok.inj hr)
    rw [hok] at herr
    cases herr
  · rw [if_neg herr] at hrest
    obtain ⟨hr, rfl⟩ := Prod.mk.inj hrest
    obtain ⟨rfl, rfl⟩ := Prod.mk.inj (Except.ok.inj hr)
    exact ⟨start, hmap, by simpa using herr, rfl⟩

lemma vmMmioUnmap_eq (hn : 0 < n) (hsize : n + 8192 ≤ 2 ^ 64) {table start offset : Nat} (hoffset : offset < 4096)
    (hstart : start % 4096 = 0) (hend : start + 4096 < 2 ^ 64) :
    vmMmioUnmap table (wadd start offset) n region =
      vmUnmap table start ((n + offset + 4095) / 4096 * 4096) region := by
  have hmask : (start + offset) &&& (PAGE_SIZE - 1) = offset := by
    rw [show (start + offset) &&& (PAGE_SIZE - 1) = (start + offset) % 4096 from Nat.and_two_pow_sub_one_eq_mod _ 12]
    omega
  unfold vmMmioUnmap
  dsimp only
  rw [wadd_of_lt (by omega : start + offset < 2 ^ 64), hmask, wsub_of_le (by omega) (by omega), Nat.add_sub_cancel,
    wadd_of_lt (by omega), roundUp_eq (by omega) (by omega)]

/-- The round trip of device pages: `vm_mmio_map` that succeeds with enough frames maps every byte of the
request as device memory that the user cannot reach, and `vm_mmio_unmap` restores the region and every
translation. The pages of the region need not be unmapped before: if one is mapped, the map panics. -/
theorem vm_mmio_round_trip (h : TableInv s root T free) (hp : PageRegion region)
    (hn : 0 < n) (hpa : pa + n + 4096 ≤ 2 ^ 48)
    (hcall : vmMmioMap (root + s.hhdm) pa n region s = (.ok (va, region₁), s₁)) (hok : isErrValue va = false)
    (hnever : s₁.log.failed = s.log.failed) :
    (∀ k < n, translate (root + s.hhdm) (va + k) s₁ = some (pa + k) ∧
      ∃ raw, validDesc (root + s.hhdm) (va + k) s₁ = some raw ∧ PageDescriptor.attrs raw = mmioPageAttrs) ∧
    ∃ region₂ s₂, vmMmioUnmap (root + s.hhdm) va n region₁ s₁ = (.ok region₂, s₂) ∧ SameRegion region region₂ ∧
      ∀ x, validDesc (root + s.hhdm) x s₂ = validDesc (root + s.hhdm) x s := by
  obtain ⟨start, hmap, herr, rfl⟩ := vmMmioMap_ok hn hpa hcall hok
  have hoffset : pa % 4096 < 4096 := Nat.mod_lt _ (by decide)
  have hcount : (n + pa % 4096 + 4095) / 4096 * 4096 / 4096 = (n + pa % 4096 + 4095) / 4096 :=
    Nat.mul_div_left _ (by decide)
  have hbase : (pa - pa % 4096) % 4096 = 0 := by omega
  rcases vmMap_cases h hp mmioPageAttrs (Nat.mul_mod_left ((n + pa % 4096 + 4095) / 4096) 4096)
    (by omega) (by omega) hbase (by omega) with
    hfail | ⟨-, hpanic⟩ | ⟨va, region', -, -, -, hpanic⟩ |
      ⟨va, region', s', T₁, free₁, used, hrun, -, haligned, ht, hg, hnone, hleaf⟩
  · rw [hmap] at hfail
    exact absurd hnever (Nat.ne_of_gt hfail)
  · rw [hmap] at hpanic
    cases hpanic
  · rw [hmap] at hpanic
    cases hpanic
  rw [hmap] at hrun
  obtain ⟨hr, rfl⟩ := Prod.mk.inj hrun
  obtain ⟨rfl, rfl⟩ := Prod.mk.inj (Except.ok.inj hr)
  rw [hcount] at ht hnone hleaf
  have hspan := hp.taken_span ht haligned
  have hend := hspan.inside
  have hhdm := hg.hhdm
  constructor
  · intro k hk
    have hpage : pageOf (start + (pa % 4096 + k)) = pageOf start + (pa % 4096 + k) / 4096 :=
      hspan.pageOf_byte (by omega)
    have hl : T₁.leaf (pageOf (start + (pa % 4096 + k))) =
        some ⟨pa - pa % 4096 + (pa % 4096 + k) / 4096 * 4096, mmioPageAttrs⟩ := by
      rw [hleaf, mapRange, hpage, if_pos ⟨by omega, by omega⟩, Nat.add_sub_cancel_left]
    have htrans := hg.inv.translate_eq hl
    have hattrs := hg.inv.attrs_eq hl
    rw [hhdm] at htrans hattrs
    rw [wadd_of_lt (by omega), Nat.add_assoc]
    refine ⟨htrans.trans (congrArg some ?_), hattrs⟩
    dsimp only
    omega
  · obtain ⟨slot, x, hold, hnull, htable⟩ := ht.table
    have hslot : region₁.allocations[slot]? = some ⟨start, (n + pa % 4096 + 4095) / 4096⟩ := by
      rw [htable, List.getElem?_set_self (List.getElem?_eq_some_iff.mp hold).1]
    have hnew : ∀ q, RegionAllocation.Covers ⟨start, (n + pa % 4096 + 4095) / 4096⟩ q → T₁.leaf q ≠ none := by
      rintro q ⟨h1, h2⟩
      rw [hleaf, mapRange, if_pos ⟨h1, h2⟩]
      simp
    obtain ⟨s₂, region₂, hunmap, hg₂, hrel, htable₂⟩ :=
      vmUnmap_mapped hg.inv (hp.take ht haligned) hslot (hp.taken_ne_zero ht) hnew rfl
    refine ⟨region₂, s₂, ?_, sameRegion_release hp ht hold hnull htable hrel htable₂, ?_⟩
    · rw [vmMmioUnmap_eq hn (by omega) hoffset haligned (by omega), ← hhdm]
      exact hunmap
    · intro x
      have h1 := hg₂.inv.validDesc_eq x
      rw [hg₂.hhdm.trans hhdm] at h1
      rw [h1, h.validDesc_eq x]
      show Option.map _ (unmapRange T₁.leaf _ _ (pageOf x)) = _
      unfold unmapRange
      by_cases hq : pageOf start ≤ pageOf x ∧ pageOf x < pageOf start + (n + pa % 4096 + 4095) / 4096
      · rw [if_pos hq, hnone _ hq.1 hq.2]
      · rw [if_neg hq, hleaf, mapRange, if_neg hq]

/-- A request of one page that begins in the middle of a page. -/
theorem vm_mmio_round_trip_straddling :
    ∃ region₁ s₁, vmMmioMap 0x101000 0x80810 0x1000 ⟨⟨fun _ => 0, 4, 0x400000⟩, [⟨0, 0⟩]⟩
        (createTable (bootMm 0x100000 [0x1000, 0x2000, 0x3000, 0x4000]) 0x1000) = (.ok (0x400810, region₁), s₁) ∧
      region₁.allocations = [⟨0x400000, 2⟩] ∧
      translate 0x101000 (0x400810 + 0xfff) s₁ = some (0x80810 + 0xfff) ∧
      ∃ region₂ s₂, vmMmioUnmap 0x101000 0x400810 0x1000 region₁ s₁ = (.ok region₂, s₂) ∧
        SameRegion ⟨⟨fun _ => 0, 4, 0x400000⟩, [⟨0, 0⟩]⟩ region₂ := by
  let region₀ : AllocRegion := ⟨⟨fun _ => 0, 4, 0x400000⟩, [⟨0, 0⟩]⟩
  let s₀ := createTable (bootMm 0x100000 [0x1000, 0x2000, 0x3000, 0x4000]) 0x1000
  let r₁ := Call.valueD (vmMmioMap 0x101000 0x80810 0x1000 region₀) s₀ (0, region₀)
  have hpmm : PmmInv (bootMm 0x100000 [0x1000, 0x2000, 0x3000, 0x4000]) [0x1000, 0x2000, 0x3000, 0x4000] :=
    bootMm_inv ⟨by decide, by decide⟩ (by decide) (by decide)
  have hcall : vmMmioMap 0x101000 0x80810 0x1000 region₀ s₀ =
      (.ok (0x400810, r₁.2), (vmMmioMap 0x101000 0x80810 0x1000 region₀ s₀).2) :=
    Call.eq_pairD (0, region₀) (by decide +kernel) (by decide +kernel)
  obtain ⟨hbytes, region₂, s₂, hunmap, hsame, -⟩ := vm_mmio_round_trip hpmm.createTable (smallRegion 1)
    (show 0 < 0x1000 by decide) (by decide) hcall (by decide) (by decide +kernel)
  exact ⟨_, _, hcall, by decide +kernel, (hbytes 0xfff (by decide)).1, region₂, s₂, hunmap, hsame⟩

/-- The loop of `vm_alloc` has mapped the frames, which were free and are filled with zeroes. -/
structure FreshPages (root : Nat) (s : Mm) (T : Tree) (free : List Nat) (va : Nat) (attrs : PageAttrs)
    (frames : List Nat) (s' : Mm) (T' : Tree) (free' : List Nat) : Prop where
  inv : TableInv s' root T' free'
  hhdm : s'.hhdm = s.hhdm
  nodup : frames.Nodup
  taken : ∀ f ∈ frames, f ∈ free
  still : ∀ f ∈ free', f ∈ free
  gone : ∀ f ∈ frames, f ∉ free'
  tables : ∀ f, T'.IsTable f → T.IsTable f ∨ f ∈ free
  mapped : ∀ i f, frames[i]? = some f → T'.leaf (pageOf va + i) = some ⟨f, attrs⟩
  others : ∀ q, ¬(pageOf va ≤ q ∧ q < pageOf va + frames.length) → T'.leaf q = T.leaf q
  zero : ∀ f ∈ frames, ∀ x, InPage s.hhdm f x → s'.mem x = 0
  mem : ∀ x, (∀ f, T.IsTable f ∨ f ∈ free → ¬InPage s.hhdm f x) → s'.mem x = s.mem x

lemma FreshPages.nil (h : TableInv s root T free) : FreshPages root s T free va attrs [] s T free where
  inv := h
  hhdm := rfl
  nodup := List.nodup_nil
  taken := by simp
  still _ hf := hf
  gone := by simp
  tables _ hf := .inl hf
  mapped := by simp
  others _ _ := rfl
  zero := by simp
  mem _ _ := rfl

lemma inPage_unique {hhdm f g x : Nat} (hf : f % 4096 = 0) (hg : g % 4096 = 0) (hfx : InPage hhdm f x)
    (hgx : InPage hhdm g x) : f = g := by
  unfold InPage at hfx hgx
  omega

lemma FreshPages.cons {f : Nat} {s₁ s₂ : Mm} {T₁ T₂ : Tree} {free₁ free₂ used frames : List Nat}
    (h : TableInv s root T (f :: free)) (hva : Span va (frames.length + 1))
    (hm : PageMapped root (takeFrame s f) T free (pageOf va) ⟨f, attrs⟩ s₁ T₁ free₁ used)
    (hrest : FreshPages root s₁ T₁ free₁ (va + 4096) attrs frames s₂ T₂ free₂) :
    FreshPages root s T (f :: free) va attrs (f :: frames) s₂ T₂ free₂ := by
  have hhdm : s₁.hhdm = s.hhdm := hm.grows.hhdm
  have hsub : ∀ g ∈ free₁, g ∈ free := by
    intro g hg
    rw [hm.grows.split]
    exact List.mem_append_right _ hg
  have hfresh : f ∉ free := (List.nodup_cons.mp h.pmm.nodup).1
  have hframe := h.pmm.frames f (by simp)
  have htable : ∀ g, T₁.IsTable g → T.IsTable g ∨ g ∈ free := by
    intro g hg
    rcases hm.grows.tables.mp hg with hg | hg
    · exact .inl hg
    · refine .inr ?_
      rw [hm.grows.split]
      exact List.mem_append_left _ hg
  have hnotTable : ¬T₁.IsTable f := by
    intro hf
    rcases htable f hf with hf | hf
    · exact h.apart hf (by simp)
    · exact hfresh hf
  have hnext : ∀ i, i < frames.length → pageOf (va + 4096) + i = pageOf va + (i + 1) := by
    intro i hi
    have h1 := hva.pageOf_add (i := 1) (by omega)
    rw [Nat.one_mul] at h1
    omega
  have haway : ∀ q, ¬(pageOf va ≤ q ∧ q < pageOf va + (frames.length + 1)) ∨ q = pageOf va →
      ¬(pageOf (va + 4096) ≤ q ∧ q < pageOf (va + 4096) + frames.length) := by
    intro q hq hcov
    have h1 := hnext 0 (by omega)
    omega
  -- the frame keeps its zeroes: the later turns write to tables and to frames that are free after this one
  have hkeep : ∀ x, InPage s.hhdm f x → s₂.mem x = 0 := by
    intro x hx
    have hother : ∀ g, g % 4096 = 0 → g ≠ f → ¬InPage s.hhdm g x :=
      fun g hg hne hgx => hne (inPage_unique hg hframe.aligned hgx hx)
    rw [hrest.mem x, hm.grows.mem (x := x)]
    · exact Mem.fill_apply _ _ hx.1 hx.2
    · rintro g ⟨l, k, hg⟩
      refine hother g (hm.grows.inv.frame hg).aligned ?_
      rintro rfl
      exact hnotTable ⟨l, k, hg⟩
    · rw [hhdm]
      rintro g (⟨l, k, hg⟩ | hg)
      · refine hother g (hm.grows.inv.frame hg).aligned ?_
        rintro rfl
        exact hnotTable ⟨l, k, hg⟩
      · refine hother g (hm.grows.inv.pmm.frames g hg).aligned ?_
        rintro rfl
        exact hfresh (hsub _ hg)
  refine ⟨hrest.inv, hrest.hhdm.trans hhdm, ?_, ?_, ?_, ?_, ?_, ?_, ?_, ?_, ?_⟩
  · exact List.nodup_cons.mpr ⟨fun hf => hfresh (hsub f (hrest.taken f hf)), hrest.nodup⟩
  · intro g hg
    rcases List.mem_cons.mp hg with rfl | hg
    · simp
    · exact List.mem_cons_of_mem _ (hsub g (hrest.taken g hg))
  · exact fun g hg => List.mem_cons_of_mem _ (hsub g (hrest.still g hg))
  · intro g hg
    rcases List.mem_cons.mp hg with rfl | hg
    · exact fun hf => hfresh (hsub _ (hrest.still _ hf))
    · exact hrest.gone g hg
  · intro g hg
    rcases hrest.tables g hg with hg | hg
    · rcases htable g hg with hg | hg
      · exact .inl hg
      · exact .inr (List.mem_cons_of_mem _ hg)
    · exact .inr (List.mem_cons_of_mem _ (hsub g hg))
  · intro i g hg
    cases i with
    | zero =>
      obtain rfl := Option.some.inj hg
      rw [Nat.add_zero, hrest.others _ (haway _ (.inr rfl)), hm.leaf, Function.update_self]
    | succ i =>
      have hg' : frames[i]? = some g := hg
      rw [← hnext i (List.getElem?_eq_some_iff.mp hg').1]
      exact hrest.mapped i g hg'
  · intro q hq
    rw [List.length_cons] at hq
    rw [hrest.others q (haway q (.inl hq)), hm.leaf, Function.update_of_ne]
    rintro rfl
    omega
  · intro g hg x hx
    rcases List.mem_cons.mp hg with rfl | hg
    · exact hkeep x hx
    · exact hrest.zero g hg x (by rw [hhdm]; exact hx)
  · intro x hx
    rw [hrest.mem x, hm.grows.mem (x := x)]
    · have hfx := hx f (.inr (by simp))
      unfold InPage at hfx
      show s.mem.fill (f + s.hhdm) 4096 0 x = s.mem x
      rw [Mem.fill, if_neg hfx]
    · intro g hg
      rcases htable g hg with hg | hg
      · exact hx g (.inl hg)
      · exact hx g (.inr (List.mem_cons_of_mem _ hg))
    · rw [hhdm]
      rintro g (hg | hg)
      · rcases htable g hg with hg | hg
        · exact hx g (.inl hg)
        · exact hx g (.inr (List.mem_cons_of_mem _ hg))
      · exact hx g (.inr (List.mem_cons_of_mem _ (hsub g hg)))

/-- The loop of `vm_alloc` on any table: the frames run out, or some page is mapped already, or all pages
are mapped. -/
lemma vmAllocPages_cases (h : TableInv s root T free) (attrs : PageAttrs) (hva : Span va n) :
    failures s < failures (vmAllocPages (root + s.hhdm) attrs n va s).2 ∨
    ((∃ q, pageOf va ≤ q ∧ q < pageOf va + n ∧ T.leaf q ≠ none) ∧
      (vmAllocPages (root + s.hhdm) attrs n va s).1 = .error .panic) ∨
    ∃ frames s' T' free', frames.length = n ∧ (∀ q, pageOf va ≤ q → q < pageOf va + n → T.leaf q = none) ∧
      vmAllocPages (root + s.hhdm) attrs n va s = (.ok 0, s') ∧
      FreshPages root s T free va attrs frames s' T' free' := by
  induction n generalizing s T free va with
  | zero =>
    right; right
    refine ⟨[], s, T, free, rfl, ?_, rfl, .nil h⟩
    intro q h1 h2
    omega
  | succ n ih =>
    rw [vmAllocPages]
    cases free with
    | nil =>
      left
      refine Call.lt_bind (fun pa => ?_) ?_
      · apply Call.mono_ite (Call.mono_pure _)
        apply Call.mono_bind (mono_pagingMap _ _ _ _ _)
        intro err
        exact Call.mono_ite (Call.mono_pure _) (mono_vmAllocPages _ _ _ _)
      rw [pmmAlloc_nil h.pmm]
      exact Nat.lt_succ_self _
    | cons f free =>
      have hf := h.pmm.frames f (by simp)
      have hpage : Span va 1 := by
        have h1 := hva.page (i := 0) (by omega)
        rwa [Nat.zero_mul, Nat.add_zero] at h1
      rw [Call.bind_ok (pmmAlloc_cons h.pmm), if_neg (by rw [isErrValue_frame hf]; decide)]
      rcases pagingMap_page h.take attrs hpage ⟨hf.aligned, hf.bound⟩ with
        ⟨hfail, -⟩ | ⟨hold, hpanic⟩ | ⟨s₁, T₁, free₁, used, hnone, hrun, hm⟩
      · left
        apply Call.lt_bind (fun err => ?_) hfail
        exact Call.mono_ite (Call.mono_pure _) (mono_vmAllocPages _ _ _ _)
      · right; left
        have hpanic' : (pagingMap (root + s.hhdm) va f PAGE_SIZE attrs (takeFrame s f)).1 = .error .panic := hpanic
        exact ⟨⟨pageOf va, Nat.le_refl _, by omega, hold⟩, by rw [Call.bind_error (Call.eq_of_fst hpanic')]⟩
      · have hrun' : pagingMap (root + s.hhdm) va f PAGE_SIZE attrs (takeFrame s f) = (.ok 0, s₁) := hrun
        have hend := hva.inside
        have hsame : failures s₁ = failures s := hm.grows.failures_eq
        have hhdm : s₁.hhdm = s.hhdm := hm.grows.hhdm
        have hnext : 0 < n → pageOf (va + 4096) = pageOf va + 1 := by
          intro hn
          have h1 := hva.pageOf_add (i := 1) (by omega)
          rwa [Nat.one_mul] at h1
        have hleaf : ∀ q, q ≠ pageOf va → T₁.leaf q = T.leaf q := by
          intro q hq
          rw [hm.leaf, Function.update_of_ne hq]
        have hrest := ih hm.grows.inv hva.tail
        rw [hhdm, hsame] at hrest
        rw [Call.bind_ok hrun', if_neg (by simp), wadd_of_lt (by simp only [PAGE_SIZE]; omega)]
        rcases hrest with hfail | ⟨⟨q, h1, h2, hq⟩, hpanic⟩ | ⟨frames, s₂, T₂, free₂, rfl, hrange, hloop, hfresh⟩
        · exact .inl hfail
        · have h3 := hnext (by omega)
          rw [hleaf q (by omega)] at hq
          exact .inr (.inl ⟨⟨q, by omega, by omega, hq⟩, hpanic⟩)
        · refine .inr (.inr ⟨f :: frames, s₂, T₂, free₂, rfl, ?_, hloop, .cons h hva hm hfresh⟩)
          intro q h1 h2
          by_cases hq : q = pageOf va
          · rw [hq, hnone]
          · have h3 := hnext (by omega)
            rw [← hleaf q hq]
            exact hrange q (by omega) (by omega)

/-- `vm_alloc` on any table: the frames run out, or the region has no room, or some page is mapped already,
or the pages are mapped to fresh frames. -/
lemma vmAlloc_cases (h : TableInv s root T free) (hp : PageRegion region) (attrs : PageAttrs)
    (hpos : 0 < size / 4096) (hlt : size < 2 ^ 64) :
    failures s < failures (vmAlloc (root + s.hhdm) size region attrs s).2 ∨
    vmAlloc (root + s.hhdm) size region attrs s = (.ok (errToPtr .ENOMEM, region), s) ∨
    (∃ va region', va % 4096 = 0 ∧ Taken region va (size / 4096) region' ∧
      (∃ q, pageOf va ≤ q ∧ q < pageOf va + size / 4096 ∧ T.leaf q ≠ none) ∧
      (vmAlloc (root + s.hhdm) size region attrs s).1 = .error .panic) ∨
    ∃ va region' frames s' T' free', vmAlloc (root + s.hhdm) size region attrs s = (.ok (va, region'), s') ∧
      va % 4096 = 0 ∧ Taken region va (size / 4096) region' ∧ frames.length = size / 4096 ∧
      (∀ q, pageOf va ≤ q → q < pageOf va + size / 4096 → T.leaf q = none) ∧
      FreshPages root s T free va attrs frames s' T' free' := by
  rcases regionAlloc_spec hp.inv.good hpos (by omega) with ⟨hfull, -⟩ | ⟨va, region', hok, herr, haligned, ht⟩
  · right; left
    have hlift : (Call.lift (regionAlloc region (size / PAGE_SIZE)) : Kernel _) s =
        (.ok (errToPtr .ENOMEM, region), s) := by rw [Call.lift_apply, hfull]
    rw [vmAlloc, Call.bind_ok hlift]
    dsimp only
    rw [if_pos isErrValue_errToPtr]
    rfl
  · have hlift : (Call.lift (regionAlloc region (size / PAGE_SIZE)) : Kernel _) s =
        (.ok (va, region'), s) := by rw [Call.lift_apply, hok]
    rw [vmAlloc, Call.bind_ok hlift]
    dsimp only
    rw [herr, if_neg Bool.false_ne_true]
    rcases vmAllocPages_cases h attrs (hp.taken_span ht haligned) with
      hfail | ⟨hconflict, hpanic⟩ | ⟨frames, s', T', free', hlen, hnone, hrun, hfresh⟩
    · left
      apply Call.lt_bind (fun err => ?_) hfail
      exact Call.mono_ite (Call.mono_pure _) (Call.mono_pure _)
    · right; right; left
      refine ⟨va, region', haligned, ht, hconflict, ?_⟩
      rw [Call.bind_error (Call.eq_of_fst hpanic)]
    · right; right; right
      refine ⟨va, region', frames, s', T', free', ?_, haligned, ht, hlen, hnone, hfresh⟩
      rw [Call.bind_ok hrun]
      rfl

/-- What `vm_alloc` owes for a request of `size` bytes: as many whole pages as cover it, recorded as one
allocation and mapped to distinct zeroed frames that were free. -/
structure RequestCovered (table : Nat) (s : Mm) (free : List Nat) (region : AllocRegion) (size : Nat)
    (attrs : PageAttrs) (va : Nat) (region' : AllocRegion) (s' : Mm) : Prop where
  aligned : va % 4096 = 0
  recorded : ∃ (slot : Nat) (old : RegionAllocation), region.allocations[slot]? = some old ∧ old.va = 0 ∧
    region'.allocations = region.allocations.set slot ⟨va, (size + 4095) / 4096⟩
  mapped : ∃ frames free' : List Nat, frames.Nodup ∧ PmmInv s' free' ∧ (∀ f ∈ frames, f ∈ free ∧ f ∉ free') ∧
    (∀ f ∈ frames, ∀ x, InPage s.hhdm f x → s'.mem x = 0) ∧
    ∀ k < size, ∃ f, frames[k / 4096]? = some f ∧ translate table (va + k) s' = some (f + k % 4096) ∧
      ∃ raw, validDesc table (va + k) s' = some raw ∧ PageDescriptor.attrs raw = attrs

lemma vmAlloc_ok (hp : PageRegion region) (hlt : size < 2 ^ 64) {table : Nat}
    (hcall : vmAlloc table size region attrs s = (.ok (va, region'), s')) (hok : isErrValue va = false) :
    ∃ start err, regionAlloc region (size / 4096) = .ok (start, region') ∧ start % 4096 = 0 ∧
      Taken region start (size / 4096) region' ∧
      vmAllocPages table attrs (size / 4096) start s = (.ok err, s') ∧ va = if err ≠ 0 then err else start := by
  obtain ⟨⟨start, region₁⟩, s₁, hlift, hcall⟩ := Call.ok_of_bind hcall
  obtain ⟨halloc, rfl⟩ := Prod.mk.inj hlift
  dsimp only at hcall
  have hpos : 0 < size / 4096 := by
    by_contra hzero
    rw [regionAlloc, if_pos (by simp only [PAGE_SIZE]; omega)] at halloc
    cases halloc
  rcases regionAlloc_spec hp.inv.good hpos (by omega) with ⟨hfull, -⟩ | ⟨start', region₂, hspec, herr, haligned, ht⟩
  · obtain ⟨rfl, -⟩ := Prod.mk.inj (Except.ok.inj (hfull.symm.trans halloc))
    rw [if_pos isErrValue_errToPtr] at hcall
    obtain ⟨hr, -⟩ := Prod.mk.inj hcall
    obtain ⟨rfl, -⟩ := Prod.mk.inj (Except.ok.inj hr)
    rw [isErrValue_errToPtr] at hok
    cases hok
  · obtain ⟨rfl, rfl⟩ := Prod.mk.inj (Except.ok.inj (hspec.symm.trans halloc))
    rw [herr, if_neg Bool.false_ne_true] at hcall
    obtain ⟨err, s₂, hloop, hcall⟩ := Call.ok_of_bind hcall
    by_cases hzero : err ≠ 0
    · rw [if_pos hzero] at hcall
      obtain ⟨hr, rfl⟩ := Prod.mk.inj hcall
      obtain ⟨rfl, rfl⟩ := Prod.mk.inj (Except.ok.inj hr)
      exact ⟨start', err, hspec, haligned, ht, hloop, (if_pos hzero).symm⟩
    · rw [if_neg hzero] at hcall
      obtain ⟨hr, rfl⟩ := Prod.mk.inj hcall
      obtain ⟨rfl, rfl⟩ := Prod.mk.inj (Except.ok.inj hr)
      exact ⟨start', err, hspec, haligned, ht, hloop, (if_neg hzero).symm⟩

lemma RequestCovered.aligned_size {table start : Nat} (hp : PageRegion region)
    (ht : Taken region start (size / 4096) region')
    (hcov : RequestCovered table s free region size attrs va region' s') : size % 4096 = 0 := by
  obtain ⟨slot, old, hold, hnull, htable⟩ := ht.table
  obtain ⟨slot', old', hold', hnull', htable'⟩ := hcov.recorded
  have hlt := (List.getElem?_eq_some_iff.mp hold).1
  have hget : region'.allocations[slot]? = some ⟨start, size / 4096⟩ := by
    rw [htable]
    exact List.getElem?_set_self hlt
  rw [htable'] at hget
  by_cases hslot : slot' = slot
  · subst hslot
    rw [List.getElem?_set_self hlt] at hget
    have hcount := congrArg RegionAllocation.pageCount (Option.some.inj hget)
    dsimp only at hcount
    omega
  · rw [List.getElem?_set_ne hslot, hold] at hget
    obtain rfl := Option.some.inj hget
    exact absurd hnull (hp.taken_ne_zero ht)

/-- `vm_alloc` covers the requests of whole pages, if there are frames enough, and no others. -/
theorem vm_alloc_covers_iff (h : TableInv s root T free) (hp : PageRegion region) (hlt : size < 2 ^ 64)
    (hcall : vmAlloc (root + s.hhdm) size region attrs s = (.ok (va, region'), s')) (hok : isErrValue va = false) :
    (RequestCovered (root + s.hhdm) s free region size attrs va region' s' → size % 4096 = 0) ∧
    ((∀ start region₁, regionAlloc region (size / 4096) = .ok (start, region₁) →
        ¬Starved 1 T free.length (pageOf start) (size / 4096)) →
      size % 4096 = 0 → RequestCovered (root + s.hhdm) s free region size attrs va region' s') := by
  obtain ⟨start, err, halloc, haligned, ht, hloop, hva⟩ := vmAlloc_ok hp hlt hcall hok
  refine ⟨fun hcov => hcov.aligned_size hp ht, fun hfed hsize => ?_⟩
  have hspan := hp.taken_span ht haligned
  have hnot := mt (vmAllocPages_fails_iff h attrs hspan).mp (hfed start region' halloc)
  rcases vmAllocPages_cases h attrs hspan with
    hfail | ⟨-, hpanic⟩ | ⟨frames, s₂, T', free', hlen, -, hrun, hfresh⟩
  · exact absurd hfail hnot
  · rw [hloop] at hpanic
    cases hpanic
  rw [hloop] at hrun
  obtain ⟨hr, rfl⟩ := Prod.mk.inj hrun
  obtain rfl := Except.ok.inj hr
  rw [if_neg (by simp)] at hva
  subst hva
  obtain ⟨slot, old, hold, hnull, htable⟩ := ht.table
  refine ⟨haligned, ⟨slot, old, hold, hnull, ?_⟩, frames, free', hfresh.nodup, hfresh.inv.pmm,
    fun f hf => ⟨hfresh.taken f hf, hfresh.gone f hf⟩, hfresh.zero, fun k hk => ?_⟩
  · rw [htable, show (size + 4095) / 4096 = size / 4096 by omega]
  · have hpage : pageOf (va + k) = pageOf va + k / 4096 := hspan.pageOf_byte (by omega)
    have hi : k / 4096 < frames.length := by omega
    have hget : frames[k / 4096]? = some (frames[k / 4096]) := List.getElem?_eq_getElem hi
    have hl := hfresh.mapped _ _ hget
    rw [← hpage] at hl
    have htrans := hfresh.inv.translate_eq hl
    have hattrs := hfresh.inv.attrs_eq hl
    rw [hfresh.hhdm] at htrans hattrs
    refine ⟨_, hget, htrans.trans (congrArg some ?_), hattrs⟩
    dsimp only
    omega

/-- A region of four pages, and a new table with frames for one page and its tables. -/
def coverRegion : AllocRegion := ⟨⟨fun _ => 0, 4, 0x400000⟩, [⟨0, 0⟩]⟩

def coverBoot : Mm := createTable (bootMm 0x100000 [0x1000, 0x2000, 0x3000, 0x4000, 0x5000]) 0x1000

lemma coverBoot_inv : TableInv coverBoot 0x1000 (emptyTree 0x1000) [0x2000, 0x3000, 0x4000, 0x5000] :=
  (bootMm_inv ⟨by decide, by decide⟩ (by decide) (by decide) :
    PmmInv (bootMm 0x100000 [0x1000, 0x2000, 0x3000, 0x4000, 0x5000])
      [0x1000, 0x2000, 0x3000, 0x4000, 0x5000]).createTable

lemma coverRegion_inv : PageRegion coverRegion := smallRegion 1

theorem vm_alloc_covers_page :
    ∃ region' s', vmAlloc 0x101000 0x1000 coverRegion userAttrs coverBoot = (.ok (0x400000, region'), s') ∧
      RequestCovered 0x101000 coverBoot [0x2000, 0x3000, 0x4000, 0x5000] coverRegion 0x1000 userAttrs 0x400000
        region' s' := by
  have hcall : vmAlloc 0x101000 0x1000 coverRegion userAttrs coverBoot =
      (.ok (0x400000, _), (vmAlloc 0x101000 0x1000 coverRegion userAttrs coverBoot).2) :=
    Call.eq_pairD (0, coverRegion) (by decide +kernel) (by decide +kernel)
  refine ⟨_, _, hcall, (vm_alloc_covers_iff coverBoot_inv coverRegion_inv (by decide) hcall (by decide)).2 ?_ rfl⟩
  rintro start region₁ - ⟨i, hi, hlt, -⟩
  obtain rfl : i = 0 := Nat.lt_one_iff.mp hi
  have hle := missing_le (emptyTree 0x1000) (pageOf start)
  rw [tablesNeeded_one] at hlt
  simp only [List.length_cons, List.length_nil] at hlt
  omega

/-- A request of a page and a half gets one page. -/
theorem vm_alloc_leaves_rest_out :
    ∃ region' s', vmAlloc 0x101000 0x1800 coverRegion userAttrs coverBoot = (.ok (0x400000, region'), s') ∧
      region'.allocations = [⟨0x400000, 1⟩] ∧ translate 0x101000 0x401000 s' = none ∧
      ¬RequestCovered 0x101000 coverBoot [0x2000, 0x3000, 0x4000, 0x5000] coverRegion 0x1800 userAttrs 0x400000
        region' s' := by
  have hcall : vmAlloc 0x101000 0x1800 coverRegion userAttrs coverBoot =
      (.ok (0x400000, _), (vmAlloc 0x101000 0x1800 coverRegion userAttrs coverBoot).2) :=
    Call.eq_pairD (0, coverRegion) (by decide +kernel) (by decide +kernel)
  refine ⟨_, _, hcall, by decide +kernel, by decide +kernel, fun hcov => ?_⟩
  obtain ⟨start, err, -, -, ht, -⟩ := vmAlloc_ok coverRegion_inv (by decide) hcall (by decide)
  exact absurd (hcov.aligned_size coverRegion_inv ht) (by decide)

end KaworuOS.Proofs
