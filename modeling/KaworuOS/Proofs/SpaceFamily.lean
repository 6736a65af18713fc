import KaworuOS.Proofs.SpaceIsolation

/-!
# All the address spaces together

Any number of address spaces share the frames of `pmm` and the heap. `SpacesInv` gives each of them frames of its own,
and a call for one of them writes only to these and to frames that are free or in the hands of the caller.
-/

namespace KaworuOS.Proofs
open Lib

variable {s s' : Mm} {root f va n size : Nat} {T T' : Tree} {free free' free₀ owned loose frames : List Nat}
  {region region' : AllocRegion} {as as' dst : AddressSpace} {old mine : Nat → Prop}

lemma Within.weaken {frames' : List Nat} (h : Within frames s s') (hsub : ∀ f ∈ frames, f ∈ frames') :
    Within frames' s s' := ⟨h.hhdm, fun x hx => h.mem x fun f hf => hx f (hsub f hf)⟩

lemma takeFrame_within (hf : f ∈ frames) : Within frames s (takeFrame s f) := by
  refine ⟨rfl, fun x hx => ?_⟩
  have hnot := hx f hf
  unfold InPage at hnot
  show s.mem.fill (f + s.hhdm) 4096 0 x = s.mem x
  rw [Mem.fill, if_neg hnot]

lemma giveFrame_within (hf : f ∈ frames) : Within frames s (giveFrame s f) := by
  refine ⟨rfl, fun x hx => ?_⟩
  have hnot := hx f hf
  unfold InPage at hnot
  show s.mem.store64 (f + s.hhdm) s.freeList x = s.mem x
  exact Mem.store64_eqOn s.mem (b := x) (n := 1) (by omega) x (Nat.le_refl x) (Nat.lt_succ_self x)

lemma Grows.within {used : List Nat} (h : Grows root s T free s' T' free' used)
    (htables : ∀ f, T.IsTable f → f ∈ frames)
    (hfree : ∀ f ∈ free, f ∈ frames) : Within frames s s' := by
  refine ⟨h.hhdm, fun x hx => h.mem fun f hf => hx f ?_⟩
  rcases h.tables.mp hf with hf | hf
  · exact htables f hf
  · apply hfree
    rw [h.split]
    exact List.mem_append_left _ hf

section Destroy

variable (h : FramesInv free₀ old mine s root T loose owned free)
include h

lemma FramesInv.freePage_within (htables : ∀ f, T.IsTable f → f ∈ frames) (howned : ∀ f ∈ owned, f ∈ frames)
    (hva : Span va 1) (hp : mine (pageOf va)) (hl : T.leaf (pageOf va) ≠ none) :
    Within frames s (vmFreePage (root + s.hhdm) va s).2 := by
  obtain ⟨l, hl⟩ := Option.ne_none_iff_exists'.mp hl
  obtain ⟨hne, hframe⟩ := h.mem_start (List.mem_append_left _ (List.mem_append_left _ (h.leaf_owned hp hl)))
  have hend := hva.inside
  have hunmap : pagingUnmap (root + s.hhdm) va PAGE_SIZE = pagingUnmapPages (root + s.hhdm) (0 + 1) va := by
    rw [pagingUnmap, if_pos (by simp [hva.aligned]), pageIterations_eq (by simp only [PAGE_SIZE]; omega)]
    rfl
  rw [vmFreePage, Call.bind_ok (pagingLookup_leaf h.table hva.aligned hl), if_pos hne, hunmap]
  rcases pagingUnmapPages_succ h.table 0 va with ⟨hnone, -⟩ | ⟨s₁, -, hrun, hg⟩
  · rw [hl] at hnone
    cases hnone
  · have hrun' : pagingUnmapPages (root + s.hhdm) (0 + 1) va s = (.ok (), s₁) := hrun
    have hframe₁ : IsFrame s₁.hhdm l.pa := by rwa [hg.hhdm]
    rw [Call.bind_ok hrun', pmmFree_ok hframe₁]
    have hwrites : Within frames s s₁ := by
      refine ⟨hg.hhdm, fun x hx => hg.mem fun f hf => hx f ?_⟩
      exact htables f hf
    exact hwrites.trans (giveFrame_within (howned _ (h.leaf_owned hp hl)))

lemma FramesInv.freePages_within {i m : Nat} (htables : ∀ f, T.IsTable f → f ∈ frames)
    (howned : ∀ f ∈ owned, f ∈ frames) (hva : Span va m) (hm : i + n = m)
    (hall : ∀ q, pageOf va + i ≤ q → q < pageOf va + m → mine q ∧ T.leaf q ≠ none) :
    Within frames s
      (Call.each (fun page => vmFreePage (root + s.hhdm) (wadd va (wmul page PAGE_SIZE))) (List.range' i n) s).2 := by
  induction n generalizing mine s T owned free i with
  | zero => exact Within.refl s
  | succ n ih =>
    obtain ⟨hmine, hsome⟩ := hall (pageOf va + i) (by omega) (by omega)
    obtain ⟨l, hl⟩ := Option.ne_none_iff_exists'.mp hsome
    have haddr := hva.addr (i := i) (by omega)
    have hpage := hva.pageOf_add (i := i) (by omega)
    have hspan := hva.page (i := i) (by omega)
    obtain ⟨s₁, hrun, hfreed, h₁⟩ := h.freePage hspan (by rw [hpage]; exact hmine) (by rw [hpage]; exact hl)
    have hfirst := h.freePage_within htables howned hspan (by rw [hpage]; exact hmine) (by rw [hpage]; exact hsome)
    rw [hrun] at hfirst
    rw [hpage] at h₁
    have hrest := ih (i := i + 1) h₁ htables (fun f hf => howned f (List.mem_of_mem_erase hf)) (by omega) (by
      intro q h1 h2
      rw [show (T.setLeaf (pageOf va + i) none).leaf q = T.leaf q from Function.update_of_ne (by omega) _ _]
      obtain ⟨h3, h4⟩ := hall q (by omega) h2
      exact ⟨⟨h3, by omega⟩, h4⟩)
    rw [hfreed.hhdm] at hrest
    rw [List.range'_succ]
    show Within frames s ((vmFreePage (root + s.hhdm) (wadd va (wmul i PAGE_SIZE)) >>= fun _ => _) s).2
    rw [haddr, Call.bind_ok hrun]
    exact hfirst.trans hrest

end Destroy

/-- `vm_free` writes to the tables and to the frames that it gives back. -/
lemma VmInv.vmFree_within {a : RegionAllocation} {i : Nat} (h : VmInv free₀ old mine s root T loose owned free region)
    (htables : ∀ f, T.IsTable f → f ∈ frames) (howned : ∀ f ∈ owned, f ∈ frames)
    (hi : region.allocations[i]? = some a) (hva : a.va ≠ 0) (hmine : ∀ q, RegionAllocation.Covers a q → mine q) :
    Within frames s (vmFree (root + s.hhdm) a.va region s).2 := by
  have ha := List.mem_of_getElem? hi
  obtain ⟨hfind, region', hfree, -⟩ := h.pages.free_returns hi hva
  have hd : region.allocations.getD i ⟨0, 0⟩ = a := by
    rw [List.getD_eq_getElem?_getD, hi]
    rfl
  have hall : ∀ q, pageOf a.va + 0 ≤ q → q < pageOf a.va + a.pageCount → mine q ∧ T.leaf q ≠ none := by
    intro q h1 h2
    have hcov : RegionAllocation.Covers a q := ⟨h1, h2⟩
    have hq : Owned region q := ⟨a, ha, hva, hcov⟩
    exact ⟨hmine q hcov, (h.mapped q (h.pages.owned_inRegion hq)).mpr hq⟩
  have hspan := h.pages.allocation_span ha hva
  obtain ⟨s₁, freed, owned', hrun, -, -, -⟩ :=
    h.frames.freePages (i := 0) (n := a.pageCount) hspan (by omega) hall
  have hwithin := h.frames.freePages_within htables howned (i := 0) (n := a.pageCount) hspan (by omega) hall
  rw [hrun] at hwithin
  rw [← List.range_eq_range'] at hrun
  have hlift : (Call.lift (regionFree region a.va) : Kernel _) s₁ = (.ok (a.pageCount, region'), s₁) := by
    rw [Call.lift_apply, hfree]
  rw [vmFree, hfind]
  dsimp only
  rw [hd, Call.bind_ok hrun, Call.bind_ok hlift]
  exact hwithin

/-- So does the loop of `address_space_destroy`. -/
lemma destroyAllocations_within {i : Nat}
    (h : VmInv free₀ (fun _ => False) (Owned region) s root T loose owned free region)
    (htables : ∀ f, T.IsTable f → f ∈ frames) (howned : ∀ f ∈ owned, f ∈ frames)
    (hlen : i + n = region.allocations.length) :
    Within frames s (destroyAllocations (root + s.hhdm) (List.range' i n) region s).2 := by
  induction n generalizing i s T owned free region with
  | zero => exact Within.refl s
  | succ n ih =>
    obtain ⟨a, ha⟩ : ∃ a, region.allocations[i]? = some a :=
      ⟨_, List.getElem?_eq_getElem (by omega : i < region.allocations.length)⟩
    have hd : region.allocations.getD i ⟨0, 0⟩ = a := by
      rw [List.getD_eq_getElem?_getD, ha]
      rfl
    rw [List.range'_succ, destroyAllocations, hd]
    by_cases hva : a.va = 0
    · rw [if_neg (by simp [hva])]
      exact ih h htables howned (by omega)
    · rw [if_pos hva]
      have hcovered : ∀ q, RegionAllocation.Covers a q → Owned region q :=
        fun q hcov => ⟨a, List.mem_of_getElem? ha, hva, hcov⟩
      obtain ⟨s₁, region₁, freed₁, owned₁, hrun, hfreed, hperm, hr, htable, hinv⟩ := h.vmFree_spec ha hva hcovered
      have hfirst := h.vmFree_within htables howned ha hva hcovered
      rw [hrun] at hfirst
      have hinv₁ := hinv.congr_mine (fun q => (h.pages.owned_release hr).symm)
      have hrest := ih (i := i + 1) hinv₁ htables
        (fun f hf => howned f (hperm.mem_iff.mpr (List.mem_append_right _ hf)))
        (by rw [htable, List.length_set]; omega)
      rw [hfreed.hhdm] at hrest
      rw [Call.bind_ok hrun]
      exact hfirst.trans hrest

/-- Giving the heap blocks back changes nothing else. -/
lemma giveBlock_within {b : Nat} : Within frames s (giveBlock s b) := ⟨rfl, fun _ _ => rfl⟩

/-- What `address_space_destroy` has done, for a space whose blocks are somewhere among those that are live. -/
structure SpaceDestroyed (frames free blocks live : List Nat) (s s' : Mm) : Prop where
  pmm : ∃ freed, PmmInv s' (freed ++ free) ∧ frames.Perm freed
  within : Within frames s s'
  live : s'.heap.live.Perm live
  log : s'.log.failed = s.log.failed

/-- The state after blocks have been given back one after the other. -/
lemma giveBlocks_live {b : Nat} {blocks live : List Nat} (h : s.heap.live.Perm (b :: blocks ++ live)) :
    kfree b s = (.ok (), giveBlock s b) ∧ (giveBlock s b).heap.live.Perm (blocks ++ live) := by
  have hmem : b ∈ s.heap.live := h.mem_iff.mpr List.mem_cons_self
  refine ⟨kfree_ok hmem, ?_⟩
  show (s.heap.live.erase b).Perm _
  have h1 := h.erase b
  rwa [List.cons_append, List.erase_cons_head] at h1

lemma LifeInv.destroyed {x : Space} {live : List Nat} (h : LifeInv free₀ root x T owned free)
    (hlive : x.mm.heap.live.Perm (spaceBlocks x.as ++ live)) :
    ∃ s', addressSpaceDestroy x.as x.mm = (.ok (), s') ∧ SpaceDestroyed owned free (spaceBlocks x.as) live x.mm s' := by
  have htables : ∀ f, T.IsTable f → f ∈ owned := fun f hf => (h.vm.frames.owned_iff f).mpr (.inl ⟨hf, id⟩)
  obtain ⟨s₁, region', T₁, freed₁, owned₁, hrun₁, hfreed₁, hperm₁, hnode, hleaf₁, hinv₁⟩ :=
    destroyAllocations_spec (i := 0) (n := x.as.region.allocations.length) h.vm (by omega)
      (fun j a hj _ => absurd hj (by omega)) h.leaf_iff
  have hwithin₁ := destroyAllocations_within (i := 0) (n := x.as.region.allocations.length) h.vm htables
    (fun f hf => hf) (by omega)
  rw [hrun₁] at hwithin₁
  rw [← List.range_eq_range', ← h.table] at hrun₁
  -- the three blocks of the region
  have hlive₁ : s₁.heap.live.Perm (x.as.userRegion.bitmapBlock ::
      [x.as.userRegion.allocationsBlock, x.as.userRegion.self, x.as.self] ++ live) := by
    rw [hfreed₁.heap]
    refine hlive.trans ?_
    unfold spaceBlocks
    rw [List.perm_iff_count]
    intro b
    simp only [List.count_append, List.count_cons]
    omega
  obtain ⟨hb₁, hl₁⟩ := giveBlocks_live hlive₁
  obtain ⟨hb₂, hl₂⟩ := giveBlocks_live hl₁
  obtain ⟨hb₃, hl₃⟩ := giveBlocks_live hl₂
  let s₂ := giveBlock (giveBlock (giveBlock s₁ x.as.userRegion.bitmapBlock) x.as.userRegion.allocationsBlock)
    x.as.userRegion.self
  have hrun₂ : regionDestroy { x.as.userRegion with region := region' } s₁ = (.ok (), s₂) := by
    rw [regionDestroy, Call.bind_ok hb₁, Call.bind_ok hb₂, hb₃]
  -- the tables
  have hinv₂ : TableInv s₂ root T₁ (freed₁ ++ free) := by
    refine hinv₁.frames.table.congr ?_ ?_ ?_
    · rfl
    · rfl
    · rfl
  obtain ⟨s₃, freed₂, hrun₃, hfreed₂, hmem, hbytes⟩ := hinv₂.destroy hleaf₁
  have htable : x.as.table = root + s₂.hhdm := by
    rw [h.table, ← hfreed₁.hhdm]
    rfl
  rw [← htable] at hrun₃
  have hl₃' : s₃.heap.live.Perm (x.as.self :: [] ++ live) := by
    rw [hfreed₂.heap]
    exact hl₃
  obtain ⟨hb₄, hl₄⟩ := giveBlocks_live hl₃'
  -- what is owned without any page are the tables
  have howned₁ : owned₁.Perm freed₂ := by
    have h1 := hinv₁.frames.nodup_all
    rw [List.append_assoc] at h1
    rw [List.perm_ext_iff_of_nodup (List.nodup_append.mp h1).1 (List.nodup_append.mp hfreed₂.pmm.nodup).1]
    intro f
    rw [hmem, hinv₁.frames.owned_iff]
    constructor
    · rintro (⟨ht, -⟩ | ⟨q, l, -, hl, -⟩)
      · exact ht
      · rw [hleaf₁ q] at hl
        cases hl
    · exact fun ht => .inl ⟨ht, id⟩
  refine ⟨giveBlock s₃ x.as.self, ?_, ⟨freed₂ ++ freed₁, ?_, ?_⟩, ?_, hl₄, ?_⟩
  · rw [addressSpaceDestroy, Call.bind_ok hrun₁, Call.bind_ok hrun₂, Call.bind_ok hrun₃, hb₄]
  · rw [List.append_assoc]
    refine hfreed₂.pmm.congr ?_ ?_ ?_
    · rfl
    · rfl
    · exact fun _ _ _ _ _ => rfl
  · exact hperm₁.trans (((List.Perm.refl freed₁).append howned₁).trans List.perm_append_comm)
  · have hblocks : Within owned s₁ s₂ := (giveBlock_within.trans giveBlock_within).trans giveBlock_within
    have hgone : Within owned s₂ s₃ := by
      refine ⟨hfreed₂.hhdm, fun x hx => hbytes fun f hf => hx f ?_⟩
      exact hperm₁.mem_iff.mpr (List.mem_append_right _ (howned₁.mem_iff.mpr hf))
    exact ((hwithin₁.trans hblocks).trans hgone).trans giveBlock_within
  · show s₃.log.failed = x.mm.log.failed
    rw [hfreed₂.log]
    show s₁.log.failed = x.mm.log.failed
    rw [hfreed₁.log]

/-- The spaces at work, and the frames that callers have taken and not mapped yet. -/
structure Spaces where
  mm : Mm
  spaces : List AddressSpace
  loose : List Nat

/-- A call that succeeds, a store of the user, or a write of the kernel to a frame it has taken. The heap grows between
the calls: it takes its frames as other callers do, and from then on there are other blocks for `kalloc` to return. The
second argument is the table of the space that is worked on. -/
inductive SpacesStep : Spaces → Option Nat → Spaces → Prop
  | take {x : Spaces} {f : Nat} {s : Mm} (hcall : pmmAlloc x.mm = (.ok f, s)) (hok : isErrValue f = false) :
      SpacesStep x none ⟨s, x.spaces, f :: x.loose⟩
  | give {x : Spaces} {f : Nat} {s : Mm} (hf : f ∈ x.loose) (hcall : pmmFree f x.mm = (.ok (), s)) :
      SpacesStep x none ⟨s, x.spaces, x.loose.erase f⟩
  | write {x : Spaces} {f : Nat} {mem : Mem} (hf : f ∈ x.loose)
      (hmem : ∀ a, ¬InPage x.mm.hhdm f a → mem a = x.mm.mem a) :
      SpacesStep x none ⟨{ x.mm with mem := mem }, x.spaces, x.loose⟩
  | heapGrows {x : Spaces} (blocks : List Nat) :
      SpacesStep x none ⟨{ x.mm with heap := { x.mm.heap with blocks := blocks } }, x.spaces, x.loose⟩
  | create {x : Spaces} {as : AddressSpace} {s : Mm} (hcall : addressSpaceCreate x.mm = (.ok (.ok as), s)) :
      SpacesStep x none ⟨s, as :: x.spaces, x.loose⟩
  | fork {x : Spaces} {src dst : AddressSpace} {s : Mm} (hsrc : src ∈ x.spaces)
      (hcall : addressSpaceCreateFrom src x.mm = (.ok (.ok dst), s)) :
      SpacesStep x none ⟨s, dst :: x.spaces, x.loose⟩
  | alloc {x : Spaces} {as as' : AddressSpace} {pre post : List AddressSpace} {size va : Nat} {perms : PagePerms}
      {uxn : ExecPerms} {s : Mm} (has : x.spaces = pre ++ as :: post) (hsize : size % 4096 = 0) (hlt : size < 2 ^ 64)
      (hcall : addressSpaceAlloc as size perms uxn x.mm = (.ok (va, as'), s)) (hok : isErrValue va = false) :
      SpacesStep x (some as.table) ⟨s, pre ++ as' :: post, x.loose⟩
  | mapOwned {x : Spaces} {as as' : AddressSpace} {pre post : List AddressSpace} {va pa size : Nat}
      {perms : PagePerms} {uxn : ExecPerms} {s : Mm} {loose : List Nat} (has : x.spaces = pre ++ as :: post)
      (hlt : size < 2 ^ 64) (hloose : x.loose.Perm (framesOf pa (size / 4096) ++ loose))
      (hcall : addressSpaceMapOwned as va pa size perms uxn x.mm = (.ok (0, as'), s)) :
      SpacesStep x (some as.table) ⟨s, pre ++ as' :: post, loose⟩
  | destroy {x : Spaces} {as : AddressSpace} {pre post : List AddressSpace} {s : Mm}
      (has : x.spaces = pre ++ as :: post)
      (hcall : addressSpaceDestroy as x.mm = (.ok (), s)) : SpacesStep x (some as.table) ⟨s, pre ++ post, x.loose⟩
  | store {x : Spaces} {as : AddressSpace} (has : as ∈ x.spaces) (w : Nat × UInt8) :
      SpacesStep x (some as.table) ⟨(userStore as.table w x.mm).2, x.spaces, x.loose⟩

/-- A space, its tree, and the frames of its tables and pages. -/
structure SpaceInfo where
  as : AddressSpace
  root : Nat
  T : Tree
  owned : List Nat

/-- The space is in order while `loose` and `free` are in other hands. -/
structure SpaceOk (s : Mm) (loose free : List Nat) (i : SpaceInfo) : Prop where
  life : LifeInv (i.owned ++ loose ++ free) i.root ⟨s, i.as, loose⟩ i.T i.owned free
  pool : i.as.region.allocator.pool = USER_VM_RANGE_BASE
  count : i.as.region.allocator.pageCount = USER_VM_RANGE_SIZE / PAGE_SIZE
  slots : i.as.region.allocations.length = CONFIG_VM_MAX_USER_ALLOCATIONS

/-- Each frame that was free at first is free, in the hands of a caller, or used by one of the spaces, once. -/
structure SpacesInv (free₀ live₀ : List Nat) (x : Spaces) (infos : List SpaceInfo) (free : List Nat) : Prop where
  pmm : PmmInv x.mm free
  nodup : free₀.Nodup
  good : ∀ f ∈ free₀, f ≠ 0 ∧ IsFrame x.mm.hhdm f
  account : free₀.Perm (infos.flatMap SpaceInfo.owned ++ x.loose ++ free)
  spaces : (infos.map SpaceInfo.as).Perm x.spaces
  each : ∀ i ∈ infos, SpaceOk x.mm x.loose free i
  live : x.mm.heap.live.Perm (infos.flatMap (fun i => spaceBlocks i.as) ++ live₀)

variable {i i' : SpaceInfo} {infos others mine' : List SpaceInfo} {x y : Spaces} {loose' live₀ : List Nat}

/-- The frames of a space may be counted again among those that are there now. -/
lemma LifeInv.share {l : List Nat} (h : LifeInv free₀ root ⟨s, as, l⟩ T owned free)
    (hnodup : (owned ++ loose ++ free).Nodup) (hgood : ∀ f ∈ owned ++ loose ++ free, f ≠ 0 ∧ IsFrame s.hhdm f) :
    LifeInv (owned ++ loose ++ free) root ⟨s, as, loose⟩ T owned free := by
  have hf := h.vm.frames
  exact ⟨⟨⟨hf.table, hgood, hnodup, List.Perm.refl _, hf.owned_iff, fun hold => absurd hold id, hf.inj, hf.apart⟩,
    h.vm.pages, h.vm.mapped, h.vm.mine_owned⟩, h.outside, h.table⟩

lemma SpaceOk.owned_iff (h : SpaceOk s loose free i) (f : Nat) : f ∈ i.owned ↔ i.T.Uses f := by
  rw [h.life.vm.frames.owned_iff, Tree.Uses]
  constructor
  · rintro (⟨ht, -⟩ | ⟨q, l, -, hl, hf⟩)
    · exact .inl ht
    · exact .inr ⟨q, l, hl, hf⟩
  · rintro (ht | ⟨q, l, hl, hf⟩)
    · exact .inl ⟨ht, id⟩
    · exact .inr ⟨q, l, (h.life.leaf_iff q).mp (by rw [hl]; exact Option.some_ne_none l), hl, hf⟩

lemma SpaceOk.frame (h : SpaceOk s loose free i) (hf : f ∈ i.owned) : IsFrame s.hhdm f :=
  (h.life.vm.frames.mem_start (List.mem_append_left _ (List.mem_append_left _ hf))).2

lemma Within.same_frame (hw : Within frames s s') (hframes : ∀ f ∈ frames, f % 4096 = 0) (hf : IsFrame s.hhdm f)
    (hnot : f ∉ frames) : SamePage s.hhdm s.mem s'.mem f := by
  intro a h1 h2
  apply hw.mem
  intro g hg hin
  apply hnot
  rwa [← inPage_unique (hframes g hg) hf.aligned hin ⟨h1, h2⟩]

/-- Writes that keep to frames other than the tables of a space leave it in order. -/
lemma SpaceOk.congr (h : SpaceOk s loose free i) (hw : Within frames s s') (hframes : ∀ f ∈ frames, f % 4096 = 0)
    (hpmm : PmmInv s' free') (htables : ∀ f, i.T.IsTable f → f ∉ frames) (hnodup : (i.owned ++ loose' ++ free').Nodup)
    (hgood : ∀ f ∈ i.owned ++ loose' ++ free', f ≠ 0 ∧ IsFrame s'.hhdm f) : SpaceOk s' loose' free' i := by
  have hf := h.life.vm.frames
  have htable_owned : ∀ f, i.T.IsTable f → f ∈ i.owned := fun f ht => (h.owned_iff f).mpr (.inl ht)
  have htable : TableInv s' i.root i.T free' := by
    refine ⟨hpmm, ?_, ?_⟩
    · rw [hw.hhdm]
      apply hf.table.tree.congr
      intro f ht
      exact hw.same_frame hframes (h.frame (htable_owned f ht)) (htables f ht)
    · intro f ht hfree
      exact List.disjoint_of_nodup_append hnodup (List.mem_append_left _ (htable_owned f ht)) hfree
  refine ⟨⟨⟨⟨htable, hgood, hnodup, List.Perm.refl _, hf.owned_iff, fun hold => absurd hold id, hf.inj, hf.apart⟩,
    h.life.vm.pages, h.life.vm.mapped, h.life.vm.mine_owned⟩, h.life.outside, ?_⟩, h.pool, h.count, h.slots⟩
  show i.as.table = i.root + s'.hhdm
  rw [hw.hhdm]
  exact h.life.table

/-- What the user reads comes from the frames of the space. -/
lemma SpaceOk.byte (h : SpaceOk s loose free i) (va : Nat) :
    userByte i.as.table s va = (i.T.leaf (pageOf va)).map fun l => s.mem (l.pa + va % 4096 + s.hhdm) := by
  have htable : i.as.table = i.root + s.hhdm := h.life.table
  rw [htable]
  exact h.life.vm.frames.table.userByte_eq (fun {q l} hl => h.frame ((h.owned_iff l.pa).mpr (.inr ⟨q, l, hl, rfl⟩))) va

lemma SpaceOk.bytes (h : SpaceOk s loose free i) (h' : SpaceOk s' loose' free' i) (hw : Within frames s s')
    (hframes : ∀ f ∈ frames, f % 4096 = 0) (hown : ∀ f ∈ i.owned, f ∉ frames) (va : Nat) :
    userByte i.as.table s' va = userByte i.as.table s va := by
  rw [h.byte, h'.byte]
  cases hl : i.T.leaf (pageOf va) with
  | none => rfl
  | some l =>
    have howned : l.pa ∈ i.owned := (h.owned_iff l.pa).mpr (.inr ⟨_, l, hl, rfl⟩)
    have hsame := hw.same_frame hframes (h.frame howned) (hown _ howned)
    rw [Option.map_some, Option.map_some, hw.hhdm]
    congr 1
    exact hsame _ (by omega) (by omega)

/-- The write of a user store. -/
lemma SpaceOk.store_within {l : List Nat} (hi : SpaceOk s l free i) (w : Nat × UInt8) :
    (userStore i.as.table w s).2 = s ∨ ∃ f mem, (userStore i.as.table w s).2 = { s with mem := mem } ∧ f ∈ i.owned ∧
      ¬i.T.IsTable f ∧ Within [f] s { s with mem := mem } := by
  obtain ⟨va, byte⟩ := w
  have htable : i.as.table = i.root + s.hhdm := hi.life.table
  have hinv := hi.life.vm.frames.table
  rw [htable]
  unfold userStore
  rw [Call.read_bind]
  unfold storeToUser
  cases hl : i.T.leaf (pageOf va) with
  | none =>
    rw [hinv.translate_none hl]
    exact .inl rfl
  | some l =>
    rw [hinv.translate_eq hl]
    have howned : l.pa ∈ i.owned := (hi.owned_iff l.pa).mpr (.inr ⟨_, l, hl, rfl⟩)
    have hmine : Owned i.as.region (pageOf va) := (hi.life.leaf_iff _).mp (by rw [hl]; exact Option.some_ne_none l)
    have htop := (hi.frame howned).top
    have haddr : wadd (l.pa + va % 4096) s.hhdm = l.pa + va % 4096 + s.hhdm := wadd_of_lt (by omega)
    refine .inr ⟨l.pa, s.mem.set (wadd (l.pa + va % 4096) s.hhdm) byte, rfl, howned,
      hi.life.vm.frames.apart hmine hl, rfl, fun a ha => ?_⟩
    have hnot := ha l.pa List.mem_cons_self
    apply Mem.set_other
    rintro rfl
    apply hnot
    rw [haddr]
    unfold InPage
    omega

/-- Some of the spaces have changed, and the others have not: the calls have written to frames of the former and to
frames that no space has. -/
lemma SpacesInv.act (mine mine' : List SpaceInfo) (h : SpacesInv free₀ live₀ x infos free)
    (hinfos : infos.Perm (mine ++ others))
    (hw : Within (mine.flatMap SpaceInfo.owned ++ x.loose ++ free) x.mm y.mm) (hpmm : PmmInv y.mm free')
    (haccount : (mine.flatMap SpaceInfo.owned ++ x.loose ++ free).Perm
      (mine'.flatMap SpaceInfo.owned ++ y.loose ++ free'))
    (hmine : (∀ f ∈ mine'.flatMap SpaceInfo.owned ++ y.loose ++ free', f ≠ 0 ∧ IsFrame y.mm.hhdm f) →
      ∀ i ∈ mine', SpaceOk y.mm y.loose free' i)
    (hspaces : (mine'.map SpaceInfo.as ++ others.map SpaceInfo.as).Perm y.spaces)
    (hlive : ∀ live, x.mm.heap.live.Perm (mine.flatMap (fun i => spaceBlocks i.as) ++ live) →
      y.mm.heap.live.Perm (mine'.flatMap (fun i => spaceBlocks i.as) ++ live)) :
    SpacesInv free₀ live₀ y (mine' ++ others) free' ∧
      ∀ i ∈ others, ∀ va, userByte i.as.table y.mm va = userByte i.as.table x.mm va := by
  have hold : free₀.Perm (others.flatMap SpaceInfo.owned ++ (mine.flatMap SpaceInfo.owned ++ x.loose ++ free)) := by
    refine h.account.trans ?_
    have h1 := hinfos.flatMap_right SpaceInfo.owned
    rw [List.flatMap_append] at h1
    rw [List.perm_iff_count] at h1 ⊢
    intro f
    have h2 := h1 f
    simp only [List.count_append] at h2 ⊢
    omega
  have hnew : free₀.Perm (others.flatMap SpaceInfo.owned ++ (mine'.flatMap SpaceInfo.owned ++ y.loose ++ free')) :=
    hold.trans ((List.Perm.refl _).append haccount)
  have hgood : ∀ f ∈ free₀, f ≠ 0 ∧ IsFrame y.mm.hhdm f := by
    rw [hw.hhdm]
    exact h.good
  have hnodup_old := hold.nodup_iff.mp h.nodup
  have hnodup_new := hnew.nodup_iff.mp h.nodup
  have haligned : ∀ f ∈ mine.flatMap SpaceInfo.owned ++ x.loose ++ free, f % 4096 = 0 :=
    fun f hf => (h.good f (hold.mem_iff.mpr (List.mem_append_right _ hf))).2.aligned
  have hothers : ∀ i ∈ others, i ∈ infos := fun i hi => hinfos.mem_iff.mpr (List.mem_append_right _ hi)
  have hown : ∀ i ∈ others, ∀ f ∈ i.owned, f ∉ mine.flatMap SpaceInfo.owned ++ x.loose ++ free := by
    intro i hi f hf hmem
    exact List.disjoint_of_nodup_append hnodup_old (List.mem_flatMap.mpr ⟨i, hi, hf⟩) hmem
  have hkept : ∀ i ∈ others, SpaceOk y.mm y.loose free' i := by
    intro i hi
    have hok := h.each i (hothers i hi)
    have hsub : (i.owned ++ (y.loose ++ free')).Sublist
        (others.flatMap SpaceInfo.owned ++ (mine'.flatMap SpaceInfo.owned ++ y.loose ++ free')) := by
      refine (List.sublist_flatten_of_mem (List.mem_map_of_mem hi)).append ?_
      rw [List.append_assoc]
      exact List.sublist_append_right _ _
    rw [← List.append_assoc] at hsub
    refine hok.congr hw haligned hpmm (fun f ht => hown i hi f ((hok.owned_iff f).mpr (.inl ht)))
      (hnodup_new.sublist hsub) ?_
    exact fun f hf => hgood f (hnew.mem_iff.mpr (hsub.subset hf))
  refine ⟨⟨hpmm, h.nodup, hgood, ?_, ?_, ?_, ?_⟩, ?_⟩
  · refine hnew.trans ?_
    rw [List.flatMap_append, List.perm_iff_count]
    intro f
    simp only [List.count_append]
    omega
  · rw [List.map_append]
    exact hspaces
  · intro i hi
    rcases List.mem_append.mp hi with hi | hi
    · exact hmine (fun f hf => hgood f (hnew.mem_iff.mpr (List.mem_append_right _ hf))) i hi
    · exact hkept i hi
  · rw [List.flatMap_append, List.append_assoc]
    apply hlive
    refine h.live.trans ?_
    rw [← List.append_assoc, ← List.flatMap_append]
    exact (hinfos.flatMap_right _).append (List.Perm.refl _)
  · intro i hi va
    exact (h.each i (hothers i hi)).bytes (hkept i hi) hw haligned (hown i hi) va

/-- The spaces that a step does not work on are still there, and what is read through them has not changed. -/
def Untouched (x : Spaces) (who : Option Nat) (y : Spaces) : Prop :=
  ∀ as ∈ x.spaces, who ≠ some as.table →
    as ∈ y.spaces ∧ ∀ va, userByte as.table y.mm va = userByte as.table x.mm va

/-- What a step gives. -/
def SpacesKept (free₀ live₀ : List Nat) (x : Spaces) (who : Option Nat) (y : Spaces) : Prop :=
  (∃ infos free, SpacesInv free₀ live₀ y infos free) ∧ Untouched x who y

section Step

variable (h : SpacesInv free₀ live₀ x infos free)
include h

lemma SpacesInv.free_start (hf : f ∈ x.loose ++ free) : f ≠ 0 ∧ IsFrame x.mm.hhdm f := by
  apply h.good f
  rw [h.account.mem_iff, List.append_assoc]
  exact List.mem_append_right _ hf

lemma SpacesInv.nodup_rest : (x.loose ++ free).Nodup := by
  have h1 := h.account.nodup_iff.mp h.nodup
  rw [List.append_assoc] at h1
  exact (List.nodup_append.mp h1).2.1

/-- Steps that work on no space that is there. New ones may appear. -/
lemma SpacesInv.free_step (mine' : List SpaceInfo) (hw : Within (x.loose ++ free) x.mm y.mm) (hpmm : PmmInv y.mm free')
    (haccount : (x.loose ++ free).Perm (mine'.flatMap SpaceInfo.owned ++ y.loose ++ free'))
    (hmine : (∀ f ∈ mine'.flatMap SpaceInfo.owned ++ y.loose ++ free', f ≠ 0 ∧ IsFrame y.mm.hhdm f) →
      ∀ i ∈ mine', SpaceOk y.mm y.loose free' i)
    (hspaces : y.spaces = mine'.map SpaceInfo.as ++ x.spaces)
    (hlive : y.mm.heap.live.Perm (mine'.flatMap (fun i => spaceBlocks i.as) ++ x.mm.heap.live)) :
    SpacesKept free₀ live₀ x none y := by
  obtain ⟨hinv, hbytes⟩ := h.act [] mine' (List.Perm.refl _) hw hpmm haccount hmine
    (by rw [hspaces]; exact (List.Perm.refl _).append h.spaces)
    (fun live hperm => hlive.trans ((List.Perm.refl _).append hperm))
  refine ⟨⟨_, _, hinv⟩, fun as has _ => ⟨by rw [hspaces]; exact List.mem_append_right _ has, ?_⟩⟩
  obtain ⟨i, hi, rfl⟩ := List.mem_map.mp (h.spaces.mem_iff.mpr has)
  exact hbytes i hi

lemma SpacesInv.take (hcall : pmmAlloc x.mm = (.ok f, s)) (hok : isErrValue f = false) :
    SpacesKept free₀ live₀ x none ⟨s, x.spaces, f :: x.loose⟩ := by
  cases free with
  | nil =>
    rw [pmmAlloc_nil h.pmm] at hcall
    obtain ⟨hf, -⟩ := Prod.mk.inj hcall
    obtain rfl := Except.ok.inj hf
    rw [isErrValue_errToPtr] at hok
    cases hok
  | cons g free =>
    rw [pmmAlloc_cons h.pmm] at hcall
    obtain ⟨hf, rfl⟩ := Prod.mk.inj hcall
    obtain rfl := Except.ok.inj hf
    refine h.free_step [] (takeFrame_within (List.mem_append_right _ List.mem_cons_self)) h.pmm.take
      List.perm_middle nofun rfl (List.Perm.refl _)

lemma SpacesInv.give (hf : f ∈ x.loose) (hcall : pmmFree f x.mm = (.ok (), s)) :
    SpacesKept free₀ live₀ x none ⟨s, x.spaces, x.loose.erase f⟩ := by
  have hframe := (h.free_start (List.mem_append_left _ hf)).2
  rw [pmmFree_ok hframe] at hcall
  obtain ⟨-, rfl⟩ := Prod.mk.inj hcall
  have hnot : f ∉ free := fun hmem => List.disjoint_of_nodup_append h.nodup_rest hf hmem
  refine h.free_step [] (giveFrame_within (List.mem_append_left _ hf)) (h.pmm.give hframe hnot) ?_ nofun rfl
    (List.Perm.refl _)
  exact ((List.perm_cons_erase hf).append (List.Perm.refl free)).trans List.perm_middle.symm

lemma SpacesInv.write {mem : Mem} (hf : f ∈ x.loose) (hmem : ∀ a, ¬InPage x.mm.hhdm f a → mem a = x.mm.mem a) :
    SpacesKept free₀ live₀ x none ⟨{ x.mm with mem := mem }, x.spaces, x.loose⟩ := by
  have hw : Within [f] x.mm { x.mm with mem := mem } :=
    ⟨rfl, fun a ha => hmem a (ha f List.mem_cons_self)⟩
  have hframe := (h.free_start (List.mem_append_left _ hf)).2
  have hnot : f ∉ free := fun hmem => List.disjoint_of_nodup_append h.nodup_rest hf hmem
  have hpmm : PmmInv { x.mm with mem := mem } free := by
    refine h.pmm.congr rfl rfl fun g hg => ?_
    refine hw.same_frame (fun f' hf' => ?_) (h.pmm.frames g hg) (fun hin => ?_)
    · obtain rfl := List.mem_singleton.mp hf'
      exact hframe.aligned
    · obtain rfl := List.mem_singleton.mp hin
      exact hnot hg
  refine h.free_step [] (hw.weaken fun f' hf' => ?_) hpmm (List.Perm.refl _) nofun rfl (List.Perm.refl _)
  obtain rfl := List.mem_singleton.mp hf'
  exact List.mem_append_left _ hf

lemma SpacesInv.heapGrows (blocks : List Nat) :
    SpacesKept free₀ live₀ x none
      ⟨{ x.mm with heap := { x.mm.heap with blocks := blocks } }, x.spaces, x.loose⟩ :=
  h.free_step [] ⟨rfl, fun _ _ => rfl⟩ (h.pmm.congr rfl rfl fun _ _ _ _ _ => rfl) (List.Perm.refl _) nofun rfl
    (List.Perm.refl _)

lemma SpacesInv.create (hcall : addressSpaceCreate x.mm = (.ok (.ok as), s)) :
    SpacesKept free₀ live₀ x none ⟨s, as :: x.spaces, x.loose⟩ := by
  have hzero : 0 ∉ free := fun hmem => (h.free_start (List.mem_append_right _ hmem)).1 rfl
  obtain ⟨root, T, owned, free₁, hlife, -, -, hlive, -⟩ := LifeInv.create h.pmm hzero hcall
  obtain ⟨root', free₂, rest, hfree, -, -, hregion, hs⟩ := addressSpaceCreate_ok h.pmm hcall
  have haccount := hlife.vm.frames.account
  rw [List.append_nil] at haccount
  have hperm : (x.loose ++ free).Perm (owned ++ x.loose ++ free₁) := by
    refine ((List.Perm.refl _).append haccount).trans ?_
    rw [← List.append_assoc]
    exact List.perm_append_comm.append (List.Perm.refl _)
  refine h.free_step [⟨as, root, T, owned⟩] ?_ hlife.vm.frames.table.pmm ?_ ?_ rfl ?_
  · have hw : Within (x.loose ++ free) x.mm (createTable x.mm root') := by
      apply createTable_within
      rw [hfree]
      exact List.mem_append_right _ List.mem_cons_self
    rw [hs]
    exact ⟨hw.hhdm, hw.mem⟩
  · rw [List.flatMap_singleton]
    exact hperm
  · intro hgood i hi
    obtain rfl := List.mem_singleton.mp hi
    rw [List.flatMap_singleton] at hgood
    refine ⟨hlife.share (hperm.nodup_iff.mp h.nodup_rest) hgood, ?_, ?_, ?_⟩
    · rw [hregion]
    · rw [hregion]
    · rw [hregion]
      exact List.length_replicate
  · rw [List.flatMap_singleton, hlive]
    unfold spaceBlocks
    rw [List.perm_iff_count]
    intro b
    simp only [List.count_append, List.count_cons, List.count_nil]
    omega

/-- The space that is worked on, and the others. -/
lemma SpacesInv.split {pre post : List AddressSpace} (has : x.spaces = pre ++ as :: post) :
    ∃ i others, infos.Perm ([i] ++ others) ∧ i.as = as ∧ (others.map SpaceInfo.as).Perm (pre ++ post) := by
  have hmem : as ∈ x.spaces := by
    rw [has]
    exact List.mem_append_right _ List.mem_cons_self
  obtain ⟨i, hi, hias⟩ := List.mem_map.mp (h.spaces.mem_iff.mpr hmem)
  obtain ⟨before, after, rfl⟩ := List.append_of_mem hi
  refine ⟨i, before ++ after, List.perm_middle, hias, ?_⟩
  have h1 := h.spaces
  rw [has, List.map_append, List.map_cons, hias] at h1
  rw [List.map_append]
  exact ((List.perm_middle.symm.trans h1).trans List.perm_middle).cons_inv

/-- Steps that work on one space, which may be gone afterwards. -/
lemma SpacesInv.space_step {pre post : List AddressSpace} (mid : List AddressSpace) (mine' : List SpaceInfo)
    (hinfos : infos.Perm ([i] ++ others)) (hias : i.as = as)
    (hothers : (others.map SpaceInfo.as).Perm (pre ++ post)) (hspaces : y.spaces = pre ++ mid ++ post)
    (has : x.spaces = pre ++ as :: post) (hw : Within (i.owned ++ x.loose ++ free) x.mm y.mm) (hpmm : PmmInv y.mm free')
    (haccount : (i.owned ++ x.loose ++ free).Perm (mine'.flatMap SpaceInfo.owned ++ y.loose ++ free'))
    (hmine : (∀ f ∈ mine'.flatMap SpaceInfo.owned ++ y.loose ++ free', f ≠ 0 ∧ IsFrame y.mm.hhdm f) →
      ∀ i ∈ mine', SpaceOk y.mm y.loose free' i)
    (hmid : mine'.map SpaceInfo.as = mid)
    (hlive : ∀ live, x.mm.heap.live.Perm (spaceBlocks as ++ live) →
      y.mm.heap.live.Perm (mine'.flatMap (fun i => spaceBlocks i.as) ++ live)) :
    SpacesKept free₀ live₀ x (some as.table) y := by
  obtain ⟨hinv, hbytes⟩ := h.act (y := y) [i] mine' hinfos
    (by rw [List.flatMap_singleton]; exact hw) hpmm
    (by rw [List.flatMap_singleton]; exact haccount) hmine
    (by
      rw [hspaces, hmid, List.append_assoc]
      refine ((List.Perm.refl mid).append hothers).trans ?_
      rw [← List.append_assoc, ← List.append_assoc]
      exact List.perm_append_comm.append (List.Perm.refl post))
    (by
      intro live hperm
      rw [List.flatMap_singleton, hias] at hperm
      exact hlive live hperm)
  refine ⟨⟨_, _, hinv⟩, fun as' has' hne => ?_⟩
  rw [has] at has'
  have hmem : as' ∈ pre ++ post := by
    rcases List.mem_append.mp has' with hpre | hpost
    · exact List.mem_append_left _ hpre
    · rcases List.mem_cons.mp hpost with rfl | hpost
      · exact absurd rfl hne
      · exact List.mem_append_right _ hpost
  constructor
  · rw [hspaces, List.append_assoc]
    rcases List.mem_append.mp hmem with hpre | hpost
    · exact List.mem_append_left _ hpre
    · exact List.mem_append_right _ (List.mem_append_right _ hpost)
  · obtain ⟨j, hj, rfl⟩ := List.mem_map.mp (hothers.mem_iff.mpr hmem)
    exact hbytes j hj

/-- A call that has given the space another region and more frames. -/
lemma SpacesInv.grow {pre post : List AddressSpace} (hinfos : infos.Perm ([i] ++ others))
    (hothers : (others.map SpaceInfo.as).Perm (pre ++ post)) (has : x.spaces = pre ++ i.as :: post)
    (hlife : LifeInv (i.owned ++ x.loose ++ free) i.root ⟨s', as', loose'⟩ T' owned free')
    (hsame : SameSpace ⟨x.mm, i.as, x.loose⟩ ⟨s', as', loose'⟩)
    (hw : Within (i.owned ++ free) x.mm s') :
    SpacesKept free₀ live₀ x (some i.as.table) ⟨s', pre ++ as' :: post, loose'⟩ := by
  have hok := h.each i (hinfos.mem_iff.mpr List.mem_cons_self)
  have haccount := hlife.vm.frames.account
  refine h.space_step (y := ⟨s', pre ++ as' :: post, loose'⟩) [as'] [⟨as', i.root, T', owned⟩]
    hinfos rfl hothers ?_ has (hw.weaken ?_) hlife.vm.frames.table.pmm ?_ ?_ rfl ?_
  · rw [List.append_assoc]
    rfl
  · intro f hf
    rcases List.mem_append.mp hf with hf | hf
    · exact List.mem_append_left _ (List.mem_append_left _ hf)
    · exact List.mem_append_right _ hf
  · rw [List.flatMap_singleton]
    exact haccount
  · intro hgood j hj
    obtain rfl := List.mem_singleton.mp hj
    rw [List.flatMap_singleton] at hgood
    refine ⟨hlife.share hlife.vm.frames.nodup_all hgood, ?_, ?_, ?_⟩
    · exact hsame.shape.pool.trans hok.pool
    · exact hsame.shape.count.trans hok.count
    · exact hsame.shape.slots.trans hok.slots
  · intro live hperm
    rw [List.flatMap_singleton]
    have hblocks : spaceBlocks as' = spaceBlocks i.as := hsame.blocks
    have hheap : s'.heap = x.mm.heap := hsame.mm.heap
    show s'.heap.live.Perm (spaceBlocks as' ++ live)
    rw [hblocks, hheap]
    exact hperm

lemma SpacesInv.alloc {pre post : List AddressSpace} {perms : PagePerms} {uxn : ExecPerms}
    (has : x.spaces = pre ++ as :: post) (hsize : size % 4096 = 0) (hlt : size < 2 ^ 64)
    (hcall : addressSpaceAlloc as size perms uxn x.mm = (.ok (va, as'), s)) (hok : isErrValue va = false)
    (hnever : failures s = failures x.mm) :
    SpacesKept free₀ live₀ x (some as.table) ⟨s, pre ++ as' :: post, x.loose⟩ := by
  obtain ⟨i, others, hinfos, rfl, hothers⟩ := h.split has
  have hi := h.each i (hinfos.mem_iff.mpr List.mem_cons_self)
  have hlife := hi.life
  obtain ⟨T', owned', free', hlife', hsame⟩ := hlife.alloc hsize hlt hcall hok hnever
  refine h.grow hinfos hothers has hlife' hsame ?_
  have htable : i.as.table = i.root + x.mm.hhdm := hlife.table
  rw [addressSpaceAlloc, htable] at hcall
  have hpos : 0 < size / 4096 := by
    by_contra h0
    obtain rfl : size = 0 := by omega
    have hstop : vmAlloc (i.root + x.mm.hhdm) 0 i.as.region (userPageAttrs perms uxn) x.mm = (.error .panic, x.mm) :=
      rfl
    rw [Call.bind_error hstop] at hcall
    cases hcall
  rcases vmAlloc_cases hlife.vm.frames.table hlife.vm.pages (userPageAttrs perms uxn) hpos hlt with
    hfail | hfull | ⟨_, _, -, -, -, hpanic⟩ | ⟨va', region', pages, s', T₂, free₂, hrun, -, -, -, -, hfresh⟩
  · have h1 := Call.lt_bind (f := fun p => (return (p.1, i.as.setRegion p.2) : Kernel (Nat × AddressSpace)))
      (fun _ => Call.mono_pure _) hfail
    have h2 := congrArg (fun r => failures r.2) hcall
    exact absurd hnever (Nat.ne_of_gt (Nat.lt_of_lt_of_eq h1 h2))
  · rw [Call.bind_ok hfull] at hcall
    obtain ⟨-, rfl⟩ := Prod.mk.inj hcall
    exact Within.refl _
  · rw [Call.bind_error (Call.eq_of_fst hpanic)] at hcall
    cases hcall
  · rw [Call.bind_ok hrun] at hcall
    obtain ⟨-, rfl⟩ := Prod.mk.inj hcall
    refine ⟨hfresh.hhdm, fun a ha => hfresh.mem a fun f hf => ha f ?_⟩
    rcases hf with hf | hf
    · exact List.mem_append_left _ ((hi.owned_iff f).mpr (.inl hf))
    · exact List.mem_append_right _ hf

lemma SpacesInv.mapOwned {pre post : List AddressSpace} {pa : Nat} {perms : PagePerms} {uxn : ExecPerms}
    (has : x.spaces = pre ++ as :: post) (hlt : size < 2 ^ 64)
    (hloose : x.loose.Perm (framesOf pa (size / 4096) ++ loose))
    (hcall : addressSpaceMapOwned as va pa size perms uxn x.mm = (.ok (0, as'), s))
    (hnever : failures s = failures x.mm) :
    SpacesKept free₀ live₀ x (some as.table) ⟨s, pre ++ as' :: post, loose⟩ := by
  obtain ⟨i, others, hinfos, rfl, hothers⟩ := h.split has
  have hi := h.each i (hinfos.mem_iff.mpr List.mem_cons_self)
  have hlife := hi.life
  obtain ⟨T', owned', free', hlife', hsame⟩ := hlife.mapOwned hlt hloose hcall hnever
  refine h.grow hinfos hothers has hlife' hsame ?_
  have hframes : ∀ f ∈ framesOf pa (size / 4096), IsFrame x.mm.hhdm f := by
    intro f hf
    have hmem : f ∈ x.loose := hloose.mem_iff.mpr (List.mem_append_left _ hf)
    exact (h.free_start (List.mem_append_left _ hmem)).2
  rcases mapOwned_cases hlife.vm.frames.table hlife.vm.pages hlife.table hlt hcall hnever
    (fun hpa hpos => framesOf_bound hpa hpos hframes) with ⟨-, -, rfl⟩ | ⟨region', T₂, free₂, used, -, hm⟩
  · exact Within.refl _
  · apply hm.grows.within
    · exact fun f hf => List.mem_append_left _ ((hi.owned_iff f).mpr (.inl hf))
    · exact fun f hf => List.mem_append_right _ hf

/-- `address_space_destroy` returns. -/
lemma SpacesInv.destroy {pre post : List AddressSpace} (has : x.spaces = pre ++ as :: post) :
    ∃ s, addressSpaceDestroy as x.mm = (.ok (), s) ∧
      SpacesKept free₀ live₀ x (some as.table) ⟨s, pre ++ post, x.loose⟩ := by
  obtain ⟨i, others, hinfos, rfl, hothers⟩ := h.split has
  have hi := h.each i (hinfos.mem_iff.mpr List.mem_cons_self)
  have hlive : x.mm.heap.live.Perm (spaceBlocks i.as ++ (others.flatMap (fun i => spaceBlocks i.as) ++ live₀)) := by
    refine h.live.trans ?_
    rw [← List.append_assoc]
    exact (hinfos.flatMap_right _).append (List.Perm.refl _)
  obtain ⟨s, hcall, hgone⟩ := hi.life.destroyed hlive
  obtain ⟨freed, hpmm, hfreed⟩ := hgone.pmm
  refine ⟨s, hcall, h.space_step (y := ⟨s, pre ++ post, x.loose⟩) [] [] hinfos rfl hothers ?_ has
    (hgone.within.weaken ?_) hpmm ?_ nofun rfl ?_⟩
  · rw [List.append_nil]
  · exact fun f hf => List.mem_append_left _ (List.mem_append_left _ hf)
  · refine ((hfreed.append (List.Perm.refl _)).append (List.Perm.refl _)).trans ?_
    rw [List.perm_iff_count]
    intro f
    simp only [List.count_append, List.flatMap_nil, List.count_nil]
    omega
  · intro live hperm
    obtain ⟨s₂, hcall₂, hgone₂⟩ := hi.life.destroyed hperm
    obtain ⟨-, rfl⟩ := Prod.mk.inj (hcall.symm.trans hcall₂)
    exact hgone₂.live

lemma SpacesInv.store (has : as ∈ x.spaces) (w : Nat × UInt8) :
    SpacesKept free₀ live₀ x (some as.table) ⟨(userStore as.table w x.mm).2, x.spaces, x.loose⟩ := by
  obtain ⟨pre, post, hpre⟩ := List.append_of_mem has
  obtain ⟨i, others, hinfos, rfl, hothers⟩ := h.split hpre
  have hi := h.each i (hinfos.mem_iff.mpr List.mem_cons_self)
  rcases hi.store_within w with hsame | ⟨f, mem, heq, howned, htable, hw⟩
  · rw [hsame]
    exact ⟨⟨infos, free, h⟩, fun _ has' _ => ⟨has', fun _ => rfl⟩⟩
  · rw [heq]
    have hframes : ∀ g ∈ [f], g % 4096 = 0 := by
      intro g hg
      obtain rfl := List.mem_singleton.mp hg
      exact (hi.frame howned).aligned
    have hnodup := hi.life.vm.frames.nodup_all
    have hpmm : PmmInv { x.mm with mem := mem } free := by
      refine h.pmm.congr rfl rfl fun g hg => hw.same_frame hframes (h.pmm.frames g hg) fun hin => ?_
      obtain rfl := List.mem_singleton.mp hin
      exact List.disjoint_of_nodup_append hnodup (List.mem_append_left _ howned) hg
    refine h.space_step (y := ⟨{ x.mm with mem := mem }, x.spaces, x.loose⟩) [i.as] [i] hinfos rfl
      hothers ?_ hpre (hw.weaken ?_) hpmm ?_ ?_ rfl ?_
    · rw [List.append_assoc]
      exact hpre
    · intro g hg
      obtain rfl := List.mem_singleton.mp hg
      exact List.mem_append_left _ (List.mem_append_left _ howned)
    · rw [List.flatMap_singleton]
    · intro hgood j hj
      obtain rfl := List.mem_singleton.mp hj
      rw [List.flatMap_singleton] at hgood
      refine hi.congr hw hframes hpmm (fun g ht hin => ?_) hnodup hgood
      obtain rfl := List.mem_singleton.mp hin
      exact htable ht
    · intro live hperm
      rw [List.flatMap_singleton]
      exact hperm

end Step

/-- A region that agrees with one that is in order is in order. -/
lemma PageRegion.alike (h : PageRegion region) (ha : Alike region region') : PageRegion region' := by
  have hpool := ha.maps.pool
  have hcount := ha.maps.pageCount
  have hpages : ∀ a, pagesOf region' a = pagesOf region a := by
    intro a
    unfold pagesOf
    rw [hpool]
  refine ⟨⟨h.inv.good.congr hpool hcount, ?_, ?_, ?_⟩, ?_, ?_, ?_⟩
  · intro a hmem hva
    rw [ha.table] at hmem
    rw [hpool, hcount, hpages]
    exact h.inv.inside a hmem hva
  · intro i j a b hij hi hj
    rw [ha.table] at hi hj
    rw [hpages, hpages]
    exact h.inv.disjoint i j a b hij hi hj
  · intro a hmem hva q hq
    rw [ha.table] at hmem
    rw [hpages] at hq
    have hinside := (h.inv.inside a hmem hva).2.2
    have hlt : q < region.allocator.pageCount := by
      unfold Block.Has at hq
      dsimp only [pagesOf] at hq hinside
      omega
    rw [ha.maps.bits q hlt]
    exact h.inv.marked a hmem hva q hq
  · rw [hpool, hcount]
    exact h.span
  · rw [ha.table]
    exact h.aligned
  · rw [ha.table]
    exact h.blank

lemma Alike.owned_iff (ha : Alike region region') (q : Nat) : Owned region' q ↔ Owned region q := by
  unfold Owned
  rw [ha.table]

/-- `address_space_create_from` that returns a space: the account of its frames and of its blocks. -/
lemma ForkSource.account {src : AddressSpace} {S : Tree} {rootS : Nat} (h : ForkSource s src rootS S free)
    (hcall : addressSpaceCreateFrom src s = (.ok (.ok dst), s')) (hnever : failures s' = failures s) :
    ∃ root T owned free', CopyInv s S free root (copiedPages src) s' T owned free' ∧ dst.table = root + s'.hhdm ∧
      Alike src.region dst.region ∧ s'.heap.live.Perm (spaceBlocks dst ++ s.heap.live) := by
  have hpmm := h.inv.table.pmm
  rcases hcreate : addressSpaceCreate s with ⟨e | r, s₁⟩
  · rw [addressSpaceCreateFrom, Call.bind_error hcreate] at hcall
    cases hcall
  rw [addressSpaceCreateFrom, Call.bind_ok hcreate] at hcall
  cases r with
  | error e => cases hcall
  | ok as =>
    obtain ⟨root, free₁, rest, rfl, htable, -, hregion, hs₁⟩ := addressSpaceCreate_ok hpmm hcreate
    have hblank : as.region = blankRegion as.region.allocator.bitmap src.region := by
      rw [hregion, blankRegion, h.pool, h.count, h.slots]
    obtain ⟨region', hcopy, halike⟩ :=
      regionCopy_alike as.region.allocator.bitmap
        (show src.region.allocator.pageCount * 4096 < 2 ^ 64 by rw [h.count]; decide)
    rw [← hblank] at hcopy
    have hlift : (Call.lift (regionCopy false as.region src.region) : Kernel _) s₁ = (.ok (.EOK, region'), s₁) := by
      rw [Call.lift_apply, hcopy]
    have hrest : ((copyPages (root + s.hhdm) (rootS + s.hhdm) (pageAddresses src.region) 0 0 >>=
        afterCopy (as.setRegion region')) >>= forkEnd (as.setRegion region')) s₁ = (.ok (.ok dst), s') := by
      rw [← hcall]
      dsimp only
      rw [Call.bind_ok hlift]
      dsimp only
      rw [if_neg (not_not.mpr rfl), addressSpaceCopy_eq, h.addr]
      show _ = (copyPages as.table _ _ 0 0 >>= _ >>= _) _
      rw [htable]
      rfl
    have hstart : CopyInv s S (root :: free₁) root ∅ s₁ (emptyTree root) [root] free₁ := by
      rw [hs₁]
      exact CopyInv.create hpmm _
    have hsame : failures s₁ = failures s := by
      rw [hs₁]
      rfl
    rcases hstart.run h.inv (h.region.copyable h.mapped) (fun _ _ => Finset.notMem_empty _) 0 with
      ⟨-, hfail⟩ | ⟨s₂, T, owned, free₂, hrun, hcopied, hcopying⟩
    · have h1 := Call.lt_bind (mono_forkEnd (as.setRegion region'))
        (Call.lt_bind (mono_afterCopy (as.setRegion region')) hfail)
      rw [hrest, hsame, hnever] at h1
      exact absurd h1 (Nat.lt_irrefl _)
    · have hafter : (copyPages (root + s.hhdm) (rootS + s.hhdm) (pageAddresses src.region) 0 0 >>=
          afterCopy (as.setRegion region')) s₁ = (.ok 0, s₂) := Call.bind_ok hrun
      rw [Call.bind_ok hafter, forkEnd, if_neg (not_not.mpr rfl)] at hrest
      obtain ⟨hdst, rfl⟩ := Prod.mk.inj hrest
      obtain rfl := Except.ok.inj (Except.ok.inj hdst)
      rw [Finset.empty_union] at hcopied
      refine ⟨root, T, owned, free₂, hcopied, ?_, halike, ?_⟩
      · rw [hcopied.within.hhdm]
        exact htable
      · rw [hcopying.heap, hs₁]
        show (_ :: _ :: _ :: _ :: s.heap.live).Perm (spaceBlocks as ++ s.heap.live)
        unfold spaceBlocks
        rw [List.perm_iff_count]
        intro b
        simp only [List.count_append, List.count_cons, List.count_nil]
        omega

/-- The copy is a space of its own. -/
lemma SpacesInv.fork {src : AddressSpace} (h : SpacesInv free₀ live₀ x infos free) (hsrc : src ∈ x.spaces)
    (hcall : addressSpaceCreateFrom src x.mm = (.ok (.ok dst), s)) (hnever : failures s = failures x.mm) :
    SpacesKept free₀ live₀ x none ⟨s, dst :: x.spaces, x.loose⟩ := by
  obtain ⟨i, hi, rfl⟩ := List.mem_map.mp (h.spaces.mem_iff.mpr hsrc)
  have hok := h.each i hi
  have hsource : ForkSource x.mm i.as i.root i.T free := hok.life.forkSource hok.pool hok.count hok.slots
  obtain ⟨root, T, owned, free', hcopy, htable, halike, hlive⟩ := hsource.account hcall hnever
  have hperm : (x.loose ++ free).Perm (owned ++ x.loose ++ free') := by
    refine ((List.Perm.refl _).append hcopy.account).trans ?_
    rw [← List.append_assoc]
    exact List.perm_append_comm.append (List.Perm.refl _)
  have hpages : ∀ q, T.leaf q ≠ none ↔ Owned dst.region q := by
    intro q
    rw [hcopy.pages, halike.owned_iff, copiedPages, hok.life.vm.pages.mem_pageSet]
  have hregion := hok.life.vm.pages.alike halike
  refine h.free_step [⟨dst, root, T, owned⟩] (hcopy.within.weaken fun f hf => List.mem_append_right _ hf)
    hcopy.table.pmm ?_ ?_ rfl ?_
  · rw [List.flatMap_singleton]
    exact hperm
  · intro hgood j hj
    obtain rfl := List.mem_singleton.mp hj
    rw [List.flatMap_singleton] at hgood
    refine ⟨⟨⟨⟨hcopy.table, hgood, hperm.nodup_iff.mp h.nodup_rest, List.Perm.refl _, ?_,
      fun hold => absurd hold id, ?_, ?_⟩,
      hregion, fun q _ => hpages q, fun _ hq => hq⟩, ?_, htable⟩, ?_, ?_, ?_⟩
    · intro f
      rw [hcopy.owned_iff, Tree.Uses]
      constructor
      · rintro (ht | ⟨q, l, hl, hf⟩)
        · exact .inl ⟨ht, id⟩
        · exact .inr ⟨q, l, (hpages q).mp (by rw [hl]; exact Option.some_ne_none l), hl, hf⟩
      · rintro (⟨ht, -⟩ | ⟨q, l, -, hl, hf⟩)
        · exact .inl ht
        · exact .inr ⟨q, l, hl, hf⟩
    · exact fun _ _ hl hl' heq => hcopy.inj hl hl' heq
    · exact fun _ hl => hcopy.apart hl
    · intro q hq
      by_contra hne
      exact hq (hregion.owned_inRegion ((hpages q).mp hne))
    · exact halike.maps.pool.trans hok.pool
    · exact halike.maps.pageCount.trans hok.count
    · show dst.region.allocations.length = _
      rw [halike.table]
      exact hok.slots
  · rw [List.flatMap_singleton]
    exact hlive

/-- Each step keeps the spaces apart. -/
lemma SpacesInv.step {who : Option Nat} (h : SpacesInv free₀ live₀ x infos free) (hstep : SpacesStep x who y)
    (hnever : failures y.mm = failures x.mm) : SpacesKept free₀ live₀ x who y := by
  cases hstep with
  | take hcall hok => exact h.take hcall hok
  | give hf hcall => exact h.give hf hcall
  | write hf hmem => exact h.write hf hmem
  | heapGrows blocks => exact h.heapGrows blocks
  | create hcall => exact h.create hcall
  | fork hsrc hcall => exact h.fork hsrc hcall hnever
  | alloc has hsize hlt hcall hok => exact h.alloc has hsize hlt hcall hok hnever
  | mapOwned has hlt hloose hcall => exact h.mapOwned has hlt hloose hcall hnever
  | destroy has hcall =>
    obtain ⟨s, hcall', hkept⟩ := h.destroy has
    obtain ⟨-, rfl⟩ := Prod.mk.inj (hcall.symm.trans hcall')
    exact hkept
  | store has w => exact h.store has w

/-- The runs in which there are always frames. -/
inductive SpacesRun (s₀ : Mm) : Spaces → Prop
  | start : SpacesRun s₀ ⟨s₀, [], []⟩
  | step {x y : Spaces} {who : Option Nat} (h : SpacesRun s₀ x) (hstep : SpacesStep x who y)
      (hnever : y.mm.log.failed = x.mm.log.failed) : SpacesRun s₀ y

/-- The spaces are isolated. Each frame is free, or in the hands of a caller, or a table or a page of exactly one space,
which maps the pages of its allocations and no others. A step for one space changes nothing that is read through
another one, and each space can be destroyed. -/
structure SpacesIsolated (free₀ : List Nat) (x : Spaces) : Prop where
  frames : ∃ (infos : List SpaceInfo) (free : List Nat), (infos.map SpaceInfo.as).Perm x.spaces ∧ PmmInv x.mm free ∧
    free₀.Perm (infos.flatMap SpaceInfo.owned ++ x.loose ++ free) ∧
    ∀ i ∈ infos, i.as.table = i.root + x.mm.hhdm ∧ TreeRep x.mm.hhdm x.mm.mem i.root i.T ∧
      (∀ f, f ∈ i.owned ↔ i.T.Uses f) ∧ ∀ q, i.T.leaf q ≠ none ↔ Owned i.as.region q
  untouched : ∀ who y, SpacesStep x who y → y.mm.log.failed = x.mm.log.failed →
    ∀ as ∈ x.spaces, who ≠ some as.table →
      as ∈ y.spaces ∧ ∀ va, userByte as.table y.mm va = userByte as.table x.mm va
  destroys : ∀ as ∈ x.spaces, ∃ s, addressSpaceDestroy as x.mm = (.ok (), s)

lemma SpacesInv.start {s₀ : Mm} (hpmm : PmmInv s₀ free₀) (hzero : 0 ∉ free₀) :
    SpacesInv free₀ s₀.heap.live ⟨s₀, [], []⟩ [] free₀ :=
  ⟨hpmm, hpmm.nodup, fun f hf => ⟨fun h0 => hzero (h0 ▸ hf), hpmm.frames f hf⟩, List.Perm.refl _, List.Perm.refl _,
    nofun, List.Perm.refl _⟩

lemma SpacesRun.inv {s₀ : Mm} (hpmm : PmmInv s₀ free₀) (hzero : 0 ∉ free₀) (hrun : SpacesRun s₀ x) :
    ∃ infos free, SpacesInv free₀ s₀.heap.live x infos free := by
  induction hrun with
  | start => exact ⟨[], free₀, SpacesInv.start hpmm hzero⟩
  | step _ hstep hnever ih =>
    obtain ⟨infos, free, h⟩ := ih
    exact (h.step hstep hnever).1

/-- In every run of creations, forks, allocations, mappings, destructions and stores of the users, in any order, with
frames always there and frame zero not among them, the address spaces are isolated from each other. The heap may grow
between two calls, but not within one. -/
theorem address_spaces_isolated {s₀ : Mm} (hpmm : PmmInv s₀ free₀) (hzero : 0 ∉ free₀) (hrun : SpacesRun s₀ x) :
    SpacesIsolated free₀ x := by
  obtain ⟨infos, free, h⟩ := hrun.inv hpmm hzero
  refine ⟨⟨infos, free, h.spaces, h.pmm, h.account, fun i hi => ?_⟩, fun who y hstep hnever => ?_, fun as has => ?_⟩
  · have hok := h.each i hi
    exact ⟨hok.life.table, hok.life.vm.frames.table.tree, hok.owned_iff, hok.life.leaf_iff⟩
  · exact (h.step hstep hnever).2
  · obtain ⟨pre, post, hpre⟩ := List.append_of_mem has
    obtain ⟨s, hcall, -⟩ := h.destroy hpre
    exact ⟨s, hcall⟩

/-- A space with a page of its own is forked. -/
theorem address_spaces_isolated_fork :
    ∃ dst s, SpacesRun forkBoot ⟨s, [dst, parentMapped.as], []⟩ ∧
      SpacesIsolated [0x1000, 0x2000, 0x3000, 0x4000, 0x5000, 0x6000, 0x7000, 0x8000, 0x9000, 0xa000, 0xb000]
        ⟨s, [dst, parentMapped.as], []⟩ := by
  obtain ⟨root, T, free, hsource, hlen⟩ := parent_source
  have hblocks : HasBlocks parentMapped.mm := by decide +kernel
  have hneed : framesFor (copiedPages parentMapped.as) ≤ 6 := by decide +kernel
  have hne : free ≠ [] := by
    rintro rfl
    cases hlen
  rcases hsource.copies hblocks hne with ⟨hshort, -⟩ | ⟨dst, s, root', T', free', hcall, -, hnever⟩
  · omega
  have hcreate : addressSpaceCreate forkBoot = (.ok (.ok parentSpace), parentStart.mm) := Call.eq_of_fst rfl
  have htake : pmmAlloc parentStart.mm = (.ok 0x2000, parentTaken.mm) := Call.eq_of_fst (by decide +kernel)
  have hmap : parentMap parentTaken.mm = (.ok (0, parentMapped.as), parentMapped.mm) :=
    Call.eq_pairD (0, parentSpace) (by decide +kernel) (by decide +kernel)
  have hcreated : SpacesRun forkBoot ⟨parentStart.mm, [parentSpace], []⟩ := .step .start (.create hcreate) rfl
  have htaken : SpacesRun forkBoot ⟨parentTaken.mm, [parentSpace], [0x2000]⟩ :=
    hcreated.step (.take htake (by decide)) (by decide +kernel)
  have hspaces : (⟨parentTaken.mm, [parentSpace], [0x2000]⟩ : Spaces).spaces = [] ++ parentSpace :: [] := rfl
  have hmapped : SpacesRun forkBoot ⟨parentMapped.mm, [] ++ parentMapped.as :: [], []⟩ :=
    htaken.step (.mapOwned hspaces (by decide) (by decide) hmap) (by decide +kernel)
  have hrun : SpacesRun forkBoot ⟨s, [dst, parentMapped.as], []⟩ :=
    hmapped.step (.fork List.mem_cons_self hcall) hnever
  exact ⟨dst, s, hrun, address_spaces_isolated forkBoot_inv (by decide) hrun⟩

end KaworuOS.Proofs
