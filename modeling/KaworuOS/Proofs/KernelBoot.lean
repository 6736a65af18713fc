import KaworuOS.KernelSpace
import KaworuOS.Lib.Pieces
import KaworuOS.Proofs.PmmRun
import KaworuOS.Proofs.SpaceFrames

/-!
# The kernel's table after `vm_init`

The table is made of pieces: the text, the data, and the direct map of each entry. `paging_map` panics where two of them
meet, so that after a boot each page has the mapping of the one piece that it is in.
-/

namespace KaworuOS.Proofs
open Lib

/-- The arguments of a call of `paging_map`. -/
structure MapArgs where
  va : Nat
  pa : Nat
  size : Nat
  attrs : PageAttrs

namespace MapArgs

/-- The pages of the call with their mappings. -/
def piece (a : MapArgs) : Lib.Piece Nat Leaf where
  has q := pageOf a.va ≤ q ∧ q < pageOf a.va + a.size / 4096
  value q := ⟨a.pa + (q - pageOf a.va) * 4096, a.attrs⟩

/-- The call is page aligned. -/
def Aligned (a : MapArgs) : Prop := a.pa % 4096 = 0 ∧ a.va % 4096 = 0 ∧ a.size % 4096 = 0

/-- The range lies in the upper half of the address space, and its frames have addresses. -/
structure Fits (a : MapArgs) : Prop where
  low : 2 ^ 64 - 2 ^ 48 ≤ a.va
  high : a.va + a.size < 2 ^ 64
  frames : a.pa + a.size ≤ 2 ^ 48

/-- The address lies in the range of the call. -/
def Has (a : MapArgs) (va : Nat) : Prop := a.va ≤ va ∧ va < a.va + a.size

/-- The mapping of the page of `va` that the call makes. -/
def leafAt (a : MapArgs) (va : Nat) : Leaf := ⟨a.pa + (va - a.va) / 4096 * 4096, a.attrs⟩

end MapArgs

/-- The call that maps an entry of the memory map, if any. -/
def entryCall (hhdm : Nat) (entry : LimineMemmapEntry) : Option MapArgs :=
  if entry.type = LIMINE_MEMMAP_FRAMEBUFFER then some ⟨wadd entry.base hhdm, entry.base, entry.length, mmioPageAttrs⟩
  else if entry.type = LIMINE_MEMMAP_BOOTLOADER_RECLAIMABLE ∨ entry.type = LIMINE_MEMMAP_EXECUTABLE_AND_MODULES ∨
      entry.type = LIMINE_MEMMAP_USABLE then some ⟨wadd entry.base hhdm, entry.base, entry.length, dataPageAttrs⟩
  else none

/-- The call that maps the text. -/
def textCall (memmap : Memmap) (image : KernelImage) : MapArgs :=
  ⟨image.start, kernelVirtToPhys memmap image.start, wsub image.textEnd image.start, textPageAttrs⟩

/-- The calls of `paging_map` in `paging_kernel_init`. -/
def bootCalls (resp : LimineResponses) (memmap : Memmap) (image : KernelImage) : List MapArgs :=
  textCall memmap image ::
  ⟨image.dataStart, kernelVirtToPhys memmap image.dataStart, wsub image.dataEnd image.dataStart, dataPageAttrs⟩ ::
  resp.entries.filterMap (entryCall memmap.hddmOffset)

/-- The tables below the frame `root` hold the map `M`. The frames of `free₀` are theirs, `loose`, or still free. -/
def HoldsMap (free₀ loose : List Nat) (root : Nat) (s : Mm) (M : Nat → Option Leaf) : Prop :=
  ∃ T owned free, FramesInv free₀ (fun _ => False) (fun _ => False) s root T loose owned free ∧ T.leaf = M

/-- The calls have added their pieces to the map. -/
structure Extends (free₀ loose : List Nat) (root : Nat) (s : Mm) (M : Nat → Option Leaf) (calls : List MapArgs)
    (s' : Mm)
    (M' : Nat → Option Leaf) : Prop where
  holds : HoldsMap free₀ loose root s' M'
  hhdm : s'.hhdm = s.hhdm
  aligned : ∀ a ∈ calls, a.Aligned
  adds : Adds M (calls.map MapArgs.piece) M'

variable {s s' : Mm} {root err : Nat} {M : Nat → Option Leaf} {free free₀ loose : List Nat} {a : MapArgs}
  {resp : LimineResponses} {memmap : Memmap} {image : KernelImage}

lemma Extends.trans {s₁ : Mm} {M₁ M' : Nat → Option Leaf} {calls calls' : List MapArgs}
    (h : Extends free₀ loose root s M calls s₁ M₁) (h' : Extends free₀ loose root s₁ M₁ calls' s' M') :
    Extends free₀ loose root s M (calls ++ calls') s' M' := by
  refine ⟨h'.holds, h'.hhdm.trans h.hhdm, ?_, ?_⟩
  · intro a ha
    exact (List.mem_append.mp ha).elim (h.aligned a) (h'.aligned a)
  · rw [List.map_append]
    exact h.adds.append h'.adds

/-- A call of `paging_map` that returns adds its piece. -/
lemma pagingMap_adds (h : HoldsMap free₀ loose root s M) (hfits : a.Fits)
    (hrun : pagingMap (root + s.hhdm) a.va a.pa a.size a.attrs s = (.ok err, s')) (hnever : failures s' = failures s) :
    ∃ M', Extends free₀ loose root s M [a] s' M' := by
  obtain ⟨T, owned, free, hframes, rfl⟩ := h
  have haligned : (isPageAligned a.pa && isPageAligned a.va && isPageAligned a.size) = true := by
    by_contra hno
    rw [pagingMap, if_neg hno] at hrun
    cases hrun
  obtain ⟨⟨hpa, hva⟩, hsize⟩ : (a.pa % 4096 = 0 ∧ a.va % 4096 = 0) ∧ a.size % 4096 = 0 := by simpa using haligned
  have hlow := hfits.low
  have hhigh := hfits.high
  have hop : (PagingOp.map a.va a.pa a.size a.attrs).InHalf (2 ^ 64 - 2 ^ 48) :=
    ⟨⟨hva, hpa, hsize⟩, hlow, by omega, hhigh, hfits.frames⟩
  have hexec : PagingOp.exec (root + s.hhdm) (.map a.va a.pa a.size a.attrs) s = (.ok err, s') := hrun
  rcases exec_cases (.inr rfl) hframes.table hop with
    hfail | ⟨-, hpanic⟩ | ⟨s₁, T₁, free₁, used, hok, hrun₁, hg, hleaf⟩
  · rw [hexec] at hfail
    exact absurd hnever (Nat.ne_of_gt hfail)
  · rw [hexec] at hpanic
    cases hpanic
  · obtain ⟨-, rfl⟩ := Prod.mk.inj (hexec.symm.trans hrun₁)
    refine ⟨T₁.leaf, ⟨T₁, _, free₁, hframes.grow hg (fun q hq => hq.elim), rfl⟩, hg.hhdm, ?_, .cons ?_ ?_ ?_ .nil⟩
    · rw [List.forall_mem_singleton]
      exact ⟨hpa, hva, hsize⟩
    · intro q hq
      by_contra hsome
      exact hok ⟨q, hq, hsome⟩
    · intro q hq
      rw [hleaf]
      exact if_pos hq
    · intro q hq
      rw [hleaf]
      exact if_neg hq

/-- The turn of the loop maps the entry with the call of `entryCall`. -/
lemma mapHhdmEntry_eq (table : Nat) (entry : LimineMemmapEntry) (s : Mm) : mapHhdmEntry table entry s =
    match entryCall s.hhdm entry with
    | none => (.ok (), s)
    | some a => (pagingMap table a.va a.pa a.size a.attrs >>= fun _ => (return () : Kernel Unit)) s := by
  unfold mapHhdmEntry entryCall
  by_cases hframebuffer : entry.type = LIMINE_MEMMAP_FRAMEBUFFER
  · rw [if_pos hframebuffer, if_pos hframebuffer]
    rfl
  · rw [if_neg hframebuffer, if_neg hframebuffer]
    by_cases hdata : entry.type = LIMINE_MEMMAP_BOOTLOADER_RECLAIMABLE ∨
        entry.type = LIMINE_MEMMAP_EXECUTABLE_AND_MODULES ∨ entry.type = LIMINE_MEMMAP_USABLE
    · rw [if_pos hdata, if_pos hdata]
      rfl
    · rw [if_neg hdata, if_neg hdata]
      rfl

section Mono

variable {m : Mm → Nat} [Gauge m]

lemma mono_mapHhdmEntry (table : Nat) (entry : LimineMemmapEntry) : Call.Mono m (mapHhdmEntry table entry) := by
  intro s
  rw [mapHhdmEntry_eq]
  split
  · exact Nat.le_refl _
  · exact Call.mono_bind (mono_pagingMap _ _ _ _ _) (fun _ => Call.mono_pure _) s

lemma mono_mapHhdmEntries (table : Nat) (entries : List LimineMemmapEntry) :
    Call.Mono m (Call.each (mapHhdmEntry table) entries) :=
  Call.mono_each (fun entry => mono_mapHhdmEntry table entry) entries

end Mono

lemma mapHhdmEntries_adds {entries : List LimineMemmapEntry} (h : HoldsMap free₀ loose root s M)
    (hfits : ∀ a ∈ entries.filterMap (entryCall s.hhdm), a.Fits)
    (hrun : Call.each (mapHhdmEntry (root + s.hhdm)) entries s = (.ok (), s')) (hnever : failures s' = failures s) :
    ∃ M', Extends free₀ loose root s M (entries.filterMap (entryCall s.hhdm)) s' M' := by
  induction entries generalizing s M with
  | nil =>
    obtain ⟨-, rfl⟩ := Prod.mk.inj hrun
    exact ⟨M, h, rfl, by simp, .nil⟩
  | cons entry entries ih =>
    obtain ⟨_, s₁, hentry, hrest⟩ := Call.ok_of_bind hrun
    have hle := (mono_mapHhdmEntry (m := failures) _ _).le hentry
    have hle' := (mono_mapHhdmEntries (m := failures) _ _).le hrest
    rw [mapHhdmEntry_eq] at hentry
    cases hcall : entryCall s.hhdm entry with
    | none =>
      rw [hcall] at hentry
      obtain ⟨-, rfl⟩ := Prod.mk.inj hentry
      rw [List.filterMap_cons_none hcall] at hfits ⊢
      exact ih h hfits hrest hnever
    | some a =>
      rw [hcall] at hentry
      rw [List.filterMap_cons_some hcall] at hfits ⊢
      obtain ⟨err, s₂, hmap, hret⟩ := Call.ok_of_bind hentry
      obtain ⟨-, rfl⟩ := Prod.mk.inj hret
      obtain ⟨M₁, hfirst⟩ := pagingMap_adds h (hfits a List.mem_cons_self) hmap (by omega)
      have hhdm := hfirst.hhdm
      rw [← hhdm] at hrest
      obtain ⟨M₂, hothers⟩ := ih hfirst.holds (fun b hb => hfits b (List.mem_cons_of_mem _ (hhdm ▸ hb))) hrest
        (by omega)
      rw [hhdm] at hothers
      exact ⟨M₂, hfirst.trans hothers⟩

lemma pagingKernelInit_adds (h : HoldsMap free₀ loose root s M) (hhdm : memmap.hddmOffset = s.hhdm)
    (hfits : ∀ a ∈ bootCalls resp memmap image, a.Fits)
    (hrun : pagingKernelInit resp memmap image (root + s.hhdm) s = (.ok (), s')) (hnever : failures s' = failures s) :
    ∃ M', Extends free₀ loose root s M (bootCalls resp memmap image) s' M' := by
  obtain ⟨_, s₁, htext, hrun⟩ := Call.ok_of_bind hrun
  obtain ⟨_, s₂, hdata, hentries⟩ := Call.ok_of_bind hrun
  have h1 := (mono_pagingMap (m := failures) _ _ _ _ _).le htext
  have h2 := (mono_pagingMap (m := failures) _ _ _ _ _).le hdata
  have h3 := (mono_mapHhdmEntries (m := failures) _ _).le hentries
  unfold bootCalls at hfits ⊢
  rw [List.forall_mem_cons, List.forall_mem_cons] at hfits
  obtain ⟨hfitsText, hfitsData, hfitsEntries⟩ := hfits
  obtain ⟨M₁, hfirst⟩ := pagingMap_adds h hfitsText htext (by omega)
  rw [← hfirst.hhdm] at hdata
  obtain ⟨M₂, hsecond⟩ := pagingMap_adds hfirst.holds hfitsData hdata (by omega)
  have hboth := hfirst.trans hsecond
  rw [← hboth.hhdm] at hentries
  obtain ⟨M₃, hothers⟩ := mapHhdmEntries_adds hboth.holds (by rwa [hboth.hhdm, ← hhdm]) hentries (by omega)
  rw [hboth.hhdm, ← hhdm] at hothers
  exact ⟨M₃, hboth.trans hothers⟩

section Mono

variable {m : Mm → Nat} [Gauge m]

lemma mono_pmmFreePages (turns end_ p : Nat) : Call.Mono m (pmmFreePages end_ turns p) := by
  induction turns generalizing p with
  | zero => exact Call.mono_halt _
  | succ turns ih =>
    apply Call.mono_ite
    · exact Call.mono_bind (mono_pmmFree _) (fun _ => ih _)
    · exact Call.mono_pure _

lemma mono_pmmInit (entries : List MemMapEntry) : Call.Mono m (pmmInit entries) := by
  apply Call.mono_each
  intro entry
  split
  · exact mono_pmmFreePages _ _ _
  · exact mono_pmmFreePages _ _ _
  · exact Call.mono_pure _

lemma mono_createTable : Call.Mono m pagingCreateTable := by
  apply Call.mono_bind mono_pmmAlloc
  intro pa
  apply Call.mono_ite (Call.mono_pure _)
  refine Call.mono_bind (mono_pmmPhysToVirt _) (fun _ => Call.mono_bind ?_ (fun _ => Call.mono_pure _))
  exact mono_sameHeap (fun _ => rfl) (fun _ => Nat.le_refl _)

lemma mono_pagingKernelInit (table : Nat) : Call.Mono m (pagingKernelInit resp memmap image table) := by
  apply Call.mono_bind (mono_pagingMap _ _ _ _ _)
  intro _
  apply Call.mono_bind (mono_pagingMap _ _ _ _ _)
  intro _
  exact mono_mapHhdmEntries _ _

lemma mono_vmInit (resp : LimineResponses) (memmap : Memmap) (image : KernelImage) :
    Call.Mono m (vmInit resp memmap image) := by
  apply Call.mono_bind mono_createTable
  intro table
  apply Call.mono_ite (Call.mono_halt _)
  apply Call.mono_bind mono_createTable
  intro userTable
  apply Call.mono_ite (Call.mono_halt _)
  apply Call.mono_bind (mono_pagingKernelInit _)
  intro _
  exact Call.mono_bind (mono_pmmVirtToPhys _) (fun _ => Call.mono_pure _)

lemma mono_kernelMainMemory (resp : LimineResponses) (image : KernelImage) :
    Call.Mono m (kernelMainMemory resp image) := by
  apply Call.mono_bind (Call.mono_lift _)
  intro memmap
  refine Call.mono_bind ?_ (fun _ => Call.mono_bind (mono_pmmInit _) (fun _ => mono_vmInit _ _ _))
  exact mono_sameHeap (fun _ => rfl) (fun _ => Nat.le_refl _)

end Mono

lemma createTable_eq (s : Mm) (f : Nat) : createTable s f = takeFrame s f := by
  have hfill : (s.mem.fill (f + s.hhdm) 4096 0).fill (f + s.hhdm) 4096 0 = s.mem.fill (f + s.hhdm) 4096 0 := by
    funext x
    unfold Mem.fill
    split
    · rfl
    · rfl
  show { takeFrame s f with mem := (s.mem.fill (f + s.hhdm) 4096 0).fill (f + s.hhdm) 4096 0 } = takeFrame s f
  rw [hfill]
  rfl

lemma pagingCreateTable_ok {table : Nat} (h : PmmInv s free) (hrun : pagingCreateTable s = (.ok table, s'))
    (hok : isErrValue table = false) : ∃ f free', free = f :: free' ∧ table = f + s.hhdm ∧ s' = takeFrame s f := by
  cases free with
  | nil =>
    rw [pagingCreateTable_nil h] at hrun
    obtain ⟨htable, -⟩ := Prod.mk.inj hrun
    obtain rfl := Except.ok.inj htable
    rw [isErrValue_errToPtr] at hok
    cases hok
  | cons f free =>
    rw [pagingCreateTable_cons h, createTable_eq] at hrun
    obtain ⟨htable, rfl⟩ := Prod.mk.inj hrun
    exact ⟨f, free, rfl, (Except.ok.inj htable).symm, rfl⟩

/-- A new table has the first free frame to itself. -/
lemma PmmInv.newTable {f : Nat} (h : PmmInv s (f :: free)) (hne : ∀ g ∈ f :: free, g ≠ 0) :
    FramesInv (f :: free) (fun _ => False) (fun _ => False) (takeFrame s f) f (emptyTree f) [] [f] free := by
  have htable := h.createTable
  rw [createTable_eq] at htable
  refine ⟨htable, fun g hg => ⟨hne g hg, h.frames g hg⟩, h.nodup, List.Perm.refl _, ?_, fun hold => hold.elim,
    fun hq => hq.elim, fun hq => hq.elim⟩
  intro g
  rw [List.mem_singleton, emptyTree_isTable]
  constructor
  · exact fun hg => .inl ⟨hg, id⟩
  · rintro (⟨hg, -⟩ | ⟨q, l, hq, -⟩)
    · exact hg
    · exact hq.elim

/-- What the boot loader and the linker promise: the entries that `pmm_init` hands out are pages of memory, and what is
mapped lies in the upper half below the regions. -/
structure GoodBoot (resp : LimineResponses) (memmap : Memmap) (image : KernelImage) (s : Mm) : Prop where
  saved : memmapSaveInit resp = .ok memmap
  memory : GoodMap resp.hhdmOffset memmap.table
  frames : ∀ f, IsMapFrame memmap.table f → f ≠ 0 ∧ f < 2 ^ 48
  fits : ∀ a ∈ bootCalls resp memmap image, a.Fits
  below : ∀ a ∈ bootCalls resp memmap image, a.va + a.size ≤ KERNEL_MMIO_RANGE_START
  empty : s.freeList = 0

lemma memmapSaveInit_ok (h : memmapSaveInit resp = .ok memmap) : memmap.hddmOffset = resp.hhdmOffset := by
  unfold memmapSaveInit at h
  split at h
  · cases h
  · obtain rfl := Except.ok.inj h
    rfl

/-- The kernel after its boot: the table holds the calls and is loaded, the frames of the memory map are accounted for, and
the regions are empty. -/
structure Booted (resp : LimineResponses) (memmap : Memmap) (image : KernelImage) (k : KernelSpace) (s : Mm)
    (user root : Nat)
    (M : Nat → Option Leaf) : Prop where
  table : k.kernelPageTable = root + s.hhdm
  userTable : k.kernelUserTable = user + s.hhdm
  loaded : k.ttbr1 = root
  hhdm : s.hhdm = memmap.hddmOffset
  region : k.region = fun g => regionInit g.storage
  holds : ∃ free₀, (∀ f, f ∈ free₀ ↔ IsMapFrame memmap.table f) ∧ HoldsMap free₀ [user] root s M
  aligned : ∀ a ∈ bootCalls resp memmap image, a.Aligned
  adds : Adds (fun _ => none) ((bootCalls resp memmap image).map MapArgs.piece) M

lemma vmInit_booted {k : KernelSpace} (h : PmmInv s free) (hne : ∀ f ∈ free, f ≠ 0)
    (hmem : ∀ f, f ∈ free ↔ IsMapFrame memmap.table f) (hhdm : memmap.hddmOffset = s.hhdm)
    (hfits : ∀ a ∈ bootCalls resp memmap image, a.Fits) (hrun : vmInit resp memmap image s = (.ok k, s'))
    (hnever : failures s' = failures s) : ∃ user root M, Booted resp memmap image k s' user root M := by
  obtain ⟨table, s₁, hcreate, hrun⟩ := Call.ok_of_bind hrun
  have h1 := (mono_createTable (m := failures)).le hcreate
  by_cases herr : isErrValue table = true
  · rw [if_pos herr] at hrun
    cases hrun
  rw [if_neg herr] at hrun
  obtain ⟨userTable, s₂, hcreate₂, hrun⟩ := Call.ok_of_bind hrun
  have h2 := (mono_createTable (m := failures)).le hcreate₂
  by_cases herr₂ : isErrValue userTable = true
  · rw [if_pos herr₂] at hrun
    cases hrun
  rw [if_neg herr₂] at hrun
  obtain ⟨_, s₃, hinit, hrun⟩ := Call.ok_of_bind hrun
  have h3 := (mono_pagingKernelInit (m := failures) _).le hinit
  obtain ⟨ttbr1, s₄, hset, hret⟩ := Call.ok_of_bind hrun
  have h4 := (mono_pmmVirtToPhys (m := failures) _).le hset
  obtain ⟨hk, rfl⟩ := Prod.mk.inj hret
  obtain rfl := Except.ok.inj hk
  obtain ⟨root, free₁, rfl, rfl, rfl⟩ := pagingCreateTable_ok h hcreate (by simpa using herr)
  have hframes := h.newTable hne
  obtain ⟨user, free₂, rfl, rfl, rfl⟩ := pagingCreateTable_ok hframes.table.pmm hcreate₂ (by simpa using herr₂)
  have htake := hframes.take rfl
  obtain ⟨M, hext⟩ := pagingKernelInit_adds ⟨_, _, _, htake, rfl⟩ hhdm hfits hinit (by omega)
  have hswitch : vmSetKernelPageTable (root + s.hhdm) s₃ = (.ok root, s₃) := pmmVirtToPhys_ok hext.hhdm
  obtain ⟨hroot, rfl⟩ := Prod.mk.inj (hset.symm.trans hswitch)
  obtain rfl := Except.ok.inj hroot
  refine ⟨user, ttbr1, M, ?_, ?_, rfl, hext.hhdm.trans hhdm.symm, rfl, ⟨_, hmem, hext.holds⟩, hext.aligned, hext.adds⟩
  · rw [hext.hhdm]
    rfl
  · rw [hext.hhdm]
    rfl

/-- What `memmap_save_init`, `pmm_init` and `vm_init` leave behind. -/
lemma kernelMainMemory_booted {k : KernelSpace} (h : GoodBoot resp memmap image s)
    (hrun : kernelMainMemory resp image s = (.ok k, s')) (hnever : failures s' = failures s) :
    ∃ user root M, Booted resp memmap image k s' user root M := by
  obtain ⟨memmap', _, hsave, hrun⟩ := Call.ok_of_bind hrun
  rw [Call.lift_apply, h.saved] at hsave
  obtain ⟨hmemmap, rfl⟩ := Prod.mk.inj hsave
  obtain rfl := Except.ok.inj hmemmap
  have hhdm := memmapSaveInit_ok h.saved
  rw [Call.update_bind, hhdm] at hrun
  obtain ⟨_, s₂, hpmm, hrun⟩ := Call.ok_of_bind hrun
  have hle := (mono_pmmInit (m := failures) _).le hpmm
  have h1 : failures s ≤ failures s₂ := hle
  have h2 : failures s₂ ≤ failures s' := (mono_vmInit _ _ _).le hrun
  have hnil : FreeChain { s with hhdm := resp.hhdmOffset } [] :=
    ⟨h.memory.good.positive, by simp, List.nodup_nil, h.empty⟩
  obtain ⟨_, s₂', hinit, hhdm₂, free, hchain, hmem⟩ := (pmmInit_returns hnil h.memory (by simp)).run
  obtain ⟨-, rfl⟩ := Prod.mk.inj (hpmm.symm.trans hinit)
  have hmap : ∀ f, f ∈ free ↔ IsMapFrame memmap.table f := by
    intro f
    rw [hmem f]
    simp
  have hhdm₃ : s₂.hhdm = resp.hhdmOffset := hhdm₂
  have hinv : PmmInv s₂ free := by
    refine ⟨hhdm₃ ▸ h.memory.good, ?_, hchain.nodup, hchain.chain⟩
    intro f hf
    have hf' := (hmap f).mp hf
    have hchunk := h.memory.chunk hf'
    exact ⟨hchunk.aligned, (h.frames f hf').2, by rw [hhdm₃]; exact hchunk.top⟩
  exact vmInit_booted hinv (fun f hf => (h.frames f ((hmap f).mp hf)).1) hmap (hhdm.trans hhdm₃.symm) h.fits hrun
    (by omega)

end KaworuOS.Proofs
