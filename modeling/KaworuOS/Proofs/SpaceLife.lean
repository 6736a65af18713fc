import KaworuOS.AddressSpace
import KaworuOS.Proofs.VmmRun

/-!
# The life of an address space

An address space is created, gets pages by `address_space_alloc` and `address_space_map_owned`, and is
destroyed. All its frames come back.
-/

namespace KaworuOS.Proofs
open Lib

/-- An address space at work, with the frames that have been taken from `pmm` to be mapped. -/
structure Space where
  mm : Mm
  as : AddressSpace
  loose : List Nat

/-- The frames of a physical range. -/
def framesOf (pa n : Nat) : List Nat := (List.range n).map (fun i => pa + i * 4096)

/-- A call that succeeds. -/
inductive SpaceStep : Space → Space → Prop
  | take {x : Space} {f : Nat} {s : Mm} (hcall : pmmAlloc x.mm = (.ok f, s)) (hok : isErrValue f = false) :
      SpaceStep x ⟨s, x.as, f :: x.loose⟩
  | alloc {x : Space} {size va : Nat} {perms : PagePerms} {uxn : ExecPerms} {as : AddressSpace} {s : Mm}
      (hsize : size % 4096 = 0) (hlt : size < 2 ^ 64)
      (hcall : addressSpaceAlloc x.as size perms uxn x.mm = (.ok (va, as), s)) (hok : isErrValue va = false) :
      SpaceStep x ⟨s, as, x.loose⟩
  | mapOwned {x : Space} {va pa size : Nat} {perms : PagePerms} {uxn : ExecPerms} {as : AddressSpace} {s : Mm}
      {loose : List Nat} (hlt : size < 2 ^ 64) (hloose : x.loose.Perm (framesOf pa (size / 4096) ++ loose))
      (hcall : addressSpaceMapOwned x.as va pa size perms uxn x.mm = (.ok (0, as), s)) :
      SpaceStep x ⟨s, as, loose⟩

/-- The heap blocks of an address space. -/
def spaceBlocks (as : AddressSpace) : List Nat :=
  [as.self, as.userRegion.self, as.userRegion.allocationsBlock, as.userRegion.bitmapBlock]

/-- The region and the table of an address space are in step, and all its frames are accounted for. -/
structure LifeInv (free₀ : List Nat) (root : Nat) (x : Space) (T : Tree) (owned free : List Nat) : Prop where
  vm : VmInv free₀ (fun _ => False) (Owned x.as.region) x.mm root T x.loose owned free x.as.region
  outside : ∀ q, ¬InRegion x.as.region q → T.leaf q = none
  table : x.as.table = root + x.mm.hhdm

variable {s s' s₀ s₁ : Mm} {root f va pa n size : Nat} {T T' : Tree} {free free₀ owned loose : List Nat}
  {region region' : AllocRegion} {as as' : AddressSpace} {x x' : Space}

lemma LifeInv.leaf_iff (h : LifeInv free₀ root x T owned free) (q : Nat) :
    T.leaf q ≠ none ↔ Owned x.as.region q := by
  by_cases hq : InRegion x.as.region q
  · exact h.vm.mapped q hq
  · rw [h.outside q hq]
    exact ⟨fun hne => absurd rfl hne, fun ho => absurd (h.vm.pages.owned_inRegion ho) hq⟩

/-- The region has the same pool, and a table of the same length. -/
structure SameBounds (region region' : AllocRegion) : Prop where
  pool : region'.allocator.pool = region.allocator.pool
  count : region'.allocator.pageCount = region.allocator.pageCount
  slots : region'.allocations.length = region.allocations.length

/-- What a call did to the parts of the state that it does not work on. -/
structure SameSpace (x x' : Space) : Prop where
  mm : Same x.mm x'.mm
  blocks : spaceBlocks x'.as = spaceBlocks x.as
  shape : SameBounds x.as.region x'.as.region

lemma SameBounds.refl (region : AllocRegion) : SameBounds region region := ⟨rfl, rfl, rfl⟩

lemma SameBounds.trans {region'' : AllocRegion} (h : SameBounds region region') (h' : SameBounds region' region'') :
    SameBounds region region'' :=
  ⟨h'.pool.trans h.pool, h'.count.trans h.count, h'.slots.trans h.slots⟩

lemma Taken.sameBounds (h : Taken region va n region') : SameBounds region region' := by
  obtain ⟨slot, old, -, -, htable⟩ := h.table
  exact ⟨h.marked.pool, h.marked.pageCount, by rw [htable, List.length_set]⟩

lemma framesOf_bound {hhdm : Nat} (hpa : pa % 4096 = 0) (hn : 0 < n) (hframes : ∀ f ∈ framesOf pa n, IsFrame hhdm f) :
    pa + n * 4096 ≤ 2 ^ 48 := by
  have hlast := hframes (pa + (n - 1) * 4096) (List.mem_map.mpr ⟨n - 1, List.mem_range.mpr (by omega), rfl⟩)
  have h1 := hlast.bound
  omega

lemma Errno.eq_EOK_of_code {err : Errno} (h : err.code = 0) : err = .EOK := by
  cases err with
  | EOK => rfl
  | ENOENT | EBADF | ECHILD | ENOMEM | EFAULT | ENODEV | EINVAL | EMFILE | ENAMETOOLONG => cases h

/-- What a successful call of `address_space_map_owned` with some pages has done. -/
structure MappedOwned (root : Nat) (s : Mm) (T : Tree) (free : List Nat) (as : AddressSpace) (va pa n : Nat)
    (attrs : PageAttrs) (s' : Mm) (T' : Tree) (free' used : List Nat) (region' : AllocRegion) : Prop where
  aligned : va % 4096 = 0
  taken : Taken as.region va n region'
  grows : Grows root s T free s' T' free' used
  fresh : ∀ q, pageOf va ≤ q → q < pageOf va + n → T.leaf q = none
  leaf : T'.leaf = mapRange T.leaf (pageOf va) n pa attrs

/-- `address_space_map_owned` that returns changes nothing or maps all pages. -/
lemma mapOwned_cases {err : Nat} (hT : TableInv s root T free) (hp : PageRegion as.region)
    (htable : as.table = root + s.hhdm)
    (hlt : size < 2 ^ 64) {perms : PagePerms} {uxn : ExecPerms}
    (hcall : addressSpaceMapOwned as va pa size perms uxn s = (.ok (err, as'), s')) (hnever : failures s' = failures s)
    (hbound : pa % 4096 = 0 → 0 < size / 4096 → pa + size / 4096 * 4096 ≤ 2 ^ 48) :
    ((err = 0 → size = 0) ∧ as' = as ∧ s' = s) ∨
    ∃ region' T' free' used, as' = as.setRegion region' ∧
      MappedOwned root s T free as va pa (size / 4096) (userPageAttrs perms uxn) s' T' free' used region' := by
  unfold addressSpaceMapOwned at hcall
  by_cases haligned : isPageAligned size = true
  case neg =>
    rw [if_neg haligned] at hcall
    cases hcall
  rw [if_pos haligned] at hcall
  rw [isPageAligned_iff] at haligned
  by_cases hzero : size / PAGE_SIZE = 0
  · rw [if_pos hzero] at hcall
    obtain ⟨hr, rfl⟩ := Prod.mk.inj hcall
    obtain ⟨-, rfl⟩ := Prod.mk.inj (Except.ok.inj hr)
    simp only [PAGE_SIZE] at hzero
    exact .inl ⟨fun _ => by omega, rfl, rfl⟩
  rw [if_neg hzero] at hcall
  cases hres : regionReserve as.region va (size / PAGE_SIZE) with
  | error e =>
    have hlift : (Call.lift (regionReserve as.region va (size / PAGE_SIZE)) : Kernel _) s = (.error e, s) := by
      rw [Call.lift_apply, hres]
    rw [Call.bind_error hlift] at hcall
    cases hcall
  | ok r =>
    obtain ⟨err, region'⟩ := r
    have hlift : (Call.lift (regionReserve as.region va (size / PAGE_SIZE)) : Kernel _) s =
        (.ok (err, region'), s) := by rw [Call.lift_apply, hres]
    rw [Call.bind_ok hlift] at hcall
    dsimp only at hcall
    rcases regionReserve_ok hp.inv.good (by simp only [PAGE_SIZE]; omega) hres with ⟨rfl, rfl⟩ | ⟨rfl, ht⟩
    · rw [if_pos (by decide)] at hcall
      obtain ⟨hr, rfl⟩ := Prod.mk.inj hcall
      obtain ⟨rfl, rfl⟩ := Prod.mk.inj (Except.ok.inj hr)
      exact .inl ⟨fun hcode => absurd hcode (by decide), rfl, rfl⟩
    · right
      rw [if_neg (by decide)] at hcall
      by_cases halign : va % 4096 = 0 ∧ pa % 4096 = 0
      case neg =>
        have hpanic : addressSpaceMapUnowned (as.setRegion region') va pa size perms uxn s = (.error .panic, s) := by
          rw [addressSpaceMapUnowned, pagingMap, if_neg]
          · rfl
          · simp only [Bool.and_eq_true, isPageAligned_iff]
            tauto
        rw [Call.bind_error hpanic] at hcall
        cases hcall
      have hspan := hp.taken_span ht halign.1
      have hmap : addressSpaceMapUnowned (as.setRegion region') va pa size perms uxn =
          pagingMapPages (root + s.hhdm) (userPageAttrs perms uxn) (size / 4096) va pa := by
        have h1 := hspan.inside
        show pagingMap as.table va pa size (userPageAttrs perms uxn) = _
        rw [htable, pagingMap, if_pos (by simp [halign.1, halign.2, haligned]),
          pageIterations_eq (by simp only [PAGE_SIZE] at h1; omega)]
      rw [hmap] at hcall
      simp only [PAGE_SIZE] at hzero
      rcases pagingMapPages_spec hT (userPageAttrs perms uxn) hspan.window halign.2
        (hbound halign.2 (by omega)) with hfail | ⟨-, hpanic⟩ | ⟨s₂, T', free', used, hnone, hrun, hg, hleaf⟩
      · have h1 := Call.lt_bind (f := fun err => if err ≠ 0 then (do
            let r ← Call.lift (regionFree region' va)
            return (err, as.setRegion r.2)) else (return (0, as.setRegion region') : Kernel _))
          (fun _ => Call.mono_ite (Call.mono_bind (Call.mono_lift _) (fun _ => Call.mono_pure _)) (Call.mono_pure _))
          hfail
        have h2 := congrArg (fun r => failures r.2) hcall
        exact absurd hnever (Nat.ne_of_gt (Nat.lt_of_lt_of_eq h1 h2))
      · rw [Call.bind_error (Call.eq_of_fst hpanic)] at hcall
        cases hcall
      · have hrun' : pagingMapPages (root + s.hhdm) (userPageAttrs perms uxn) (size / 4096) va pa s =
          (.ok 0, s₂) := hrun
        rw [Call.bind_ok hrun'] at hcall
        obtain ⟨hr, rfl⟩ := Prod.mk.inj hcall
        obtain ⟨-, rfl⟩ := Prod.mk.inj (Except.ok.inj hr)
        exact ⟨region', T', free', used, rfl, halign.1, ht, hg, hnone, hleaf⟩

section Step

variable (h : LifeInv free₀ root x T owned free)
include h

lemma LifeInv.take (hcall : pmmAlloc x.mm = (.ok f, s)) (hok : isErrValue f = false)
    (hnever : failures s = failures x.mm) :
    ∃ free', LifeInv free₀ root ⟨s, x.as, f :: x.loose⟩ T owned free' ∧ SameSpace x ⟨s, x.as, f :: x.loose⟩ := by
  cases free with
  | nil =>
    rw [pmmAlloc_nil h.vm.frames.table.pmm] at hcall
    obtain ⟨-, rfl⟩ := Prod.mk.inj hcall
    have h1 : x.mm.log.failed + 1 = x.mm.log.failed := hnever
    omega
  | cons g free =>
    rw [pmmAlloc_cons h.vm.frames.table.pmm] at hcall
    obtain ⟨hf, rfl⟩ := Prod.mk.inj hcall
    obtain rfl := Except.ok.inj hf
    exact ⟨free, ⟨⟨h.vm.frames.take rfl, h.vm.pages, h.vm.mapped, h.vm.mine_owned⟩, h.outside, h.table⟩,
      ⟨⟨rfl, rfl, rfl⟩, rfl, SameBounds.refl _⟩⟩

lemma LifeInv.taken (ht : Taken x.as.region va n region') {owned' free' : List Nat}
    (hvm : VmInv free₀ (fun _ => False) (fun q => Owned x.as.region q ∨ (pageOf va ≤ q ∧ q < pageOf va + n)) s'
      root T' loose owned' free' region')
    (hold : ∀ q, ¬(pageOf va ≤ q ∧ q < pageOf va + n) → T'.leaf q = T.leaf q) (hsame : Same x.mm s') :
    LifeInv free₀ root ⟨s', x.as.setRegion region', loose⟩ T' owned' free' := by
  have hp := h.vm.pages
  refine ⟨?_, ?_, ?_⟩
  · apply hvm.congr_mine
    intro q
    exact (hp.owned_take ht).symm
  · intro q hq
    have hnot : ¬(pageOf va ≤ q ∧ q < pageOf va + n) := by
      intro hc
      exact hq (hvm.pages.owned_inRegion ((hp.owned_take ht).mpr (.inr hc)))
    rw [hold q hnot]
    exact h.outside q (fun hin => hq ((ht.inRegion q).mpr hin))
  · show x.as.table = root + s'.hhdm
    rw [hsame.hhdm]
    exact h.table

lemma LifeInv.alloc {perms : PagePerms} {uxn : ExecPerms} (hsize : size % 4096 = 0) (hlt : size < 2 ^ 64)
    (hcall : addressSpaceAlloc x.as size perms uxn x.mm = (.ok (va, as'), s)) (hok : isErrValue va = false)
    (hnever : failures s = failures x.mm) :
    ∃ T' owned' free', LifeInv free₀ root ⟨s, as', x.loose⟩ T' owned' free' ∧ SameSpace x ⟨s, as', x.loose⟩ := by
  rw [addressSpaceAlloc, h.table] at hcall
  have hpos : 0 < size := by
    by_contra h0
    obtain rfl : size = 0 := by omega
    have hstop : vmAlloc (root + x.mm.hhdm) 0 x.as.region (userPageAttrs perms uxn) x.mm = (.error .panic, x.mm) :=
      rfl
    rw [Call.bind_error hstop] at hcall
    cases hcall
  rcases h.vm.vmAlloc_spec (userPageAttrs perms uxn) hsize hpos hlt with
    hfail | hfull | ⟨va', region', s', T', owned', free', hrun, herr, haligned, ht, hsame, -, hold, hinv⟩
  · have h1 := Call.lt_bind (f := fun p => (return (p.1, x.as.setRegion p.2) : Kernel (Nat × AddressSpace)))
      (fun _ => Call.mono_pure _) hfail
    have h2 : failures x.mm < failures s := by
      have h3 := congrArg (fun r => failures r.2) hcall
      exact Nat.lt_of_lt_of_eq h1 h3
    exact absurd hnever (Nat.ne_of_gt h2)
  · rw [Call.bind_ok hfull] at hcall
    obtain ⟨hr, -⟩ := Prod.mk.inj hcall
    obtain ⟨rfl, -⟩ := Prod.mk.inj (Except.ok.inj hr)
    rw [isErrValue_errToPtr] at hok
    cases hok
  · rw [Call.bind_ok hrun] at hcall
    obtain ⟨hr, rfl⟩ := Prod.mk.inj hcall
    obtain ⟨rfl, rfl⟩ := Prod.mk.inj (Except.ok.inj hr)
    exact ⟨T', owned', free', h.taken ht hinv hold hsame, ⟨hsame, rfl, ht.sameBounds⟩⟩

lemma LifeInv.mapOwned {perms : PagePerms} {uxn : ExecPerms} (hlt : size < 2 ^ 64)
    (hloose : x.loose.Perm (framesOf pa (size / 4096) ++ loose))
    (hcall : addressSpaceMapOwned x.as va pa size perms uxn x.mm = (.ok (0, as'), s))
    (hnever : failures s = failures x.mm) :
    ∃ T' owned' free', LifeInv free₀ root ⟨s, as', loose⟩ T' owned' free' ∧ SameSpace x ⟨s, as', loose⟩ := by
  have hframes : ∀ f ∈ framesOf pa (size / 4096), IsFrame x.mm.hhdm f := by
    intro f hf
    have hmem : f ∈ x.loose := hloose.mem_iff.mpr (List.mem_append_left _ hf)
    exact (h.vm.frames.mem_start (List.mem_append_left _ (List.mem_append_right _ hmem))).2
  rcases mapOwned_cases h.vm.frames.table h.vm.pages h.table hlt hcall hnever
    (fun hpa hpos => framesOf_bound hpa hpos hframes) with
    ⟨hzero, rfl, rfl⟩ | ⟨region', T', free', used, rfl, hm⟩
  · obtain rfl := hzero rfl
    refine ⟨T, owned, free, ⟨⟨?_, h.vm.pages, h.vm.mapped, h.vm.mine_owned⟩, h.outside, h.table⟩,
      ⟨Same.refl _, rfl, SameBounds.refl _⟩⟩
    refine { h.vm.frames with account := h.vm.frames.account.trans ?_ }
    exact ((List.Perm.refl _).append hloose).append (List.Perm.refl _)
  · have hold : ∀ q, ¬(pageOf va ≤ q ∧ q < pageOf va + size / 4096) → T'.leaf q = T.leaf q := by
      intro q hq
      rw [hm.leaf, mapRange, if_neg hq]
    have hnew : ∀ i, i < size / 4096 → T'.leaf (pageOf va + i) =
        some ⟨pa + i * 4096, userPageAttrs perms uxn⟩ := by
      intro i hi
      rw [hm.leaf, mapRange, if_pos ⟨by omega, by omega⟩, Nat.add_sub_cancel_left]
    have hgrow := h.vm.frames.grow hm.grows (fun q hq => hold q (by
      rintro ⟨h1, h2⟩
      exact (h.vm.taken_fresh hm.taken hm.aligned h1 h2).2 hq))
    have hinv := h.vm.taken hm.taken hm.aligned (hgrow.adopt hnew hloose) (fun q hq => hq) (by
      intro q h1 h2
      rw [hm.leaf, mapRange, if_pos ⟨h1, h2⟩]
      simp) hold
    have hsame : Same x.mm s := ⟨hm.grows.hhdm, hm.grows.heap, hm.grows.log⟩
    exact ⟨T', _, free', h.taken hm.taken hinv hold hsame, ⟨hsame, rfl, hm.taken.sameBounds⟩⟩

end Step

/-- The state after `kalloc` has handed out a block. -/
def takeBlock (s : Mm) (b : Nat) (rest : List Nat) : Mm := { s with heap := ⟨rest, b :: s.heap.live⟩ }

lemma kalloc_cons {b : Nat} {rest : List Nat} (h : s.heap.blocks = b :: rest) :
    kalloc s = (.ok b, takeBlock s b rest) := by
  rw [kalloc, Call.read_bind, h]
  rfl

lemma kalloc_nil (h : s.heap.blocks = []) : kalloc s = (.ok (errToPtr .ENOMEM), s) := by
  rw [kalloc, Call.read_bind, h]
  rfl

lemma kalloc_bind_ok {α : Type} {k : Nat → Kernel α} {r : Except Halt α × Mm}
    (hcall : (kalloc >>= k) s = r) :
    k (errToPtr .ENOMEM) s = r ∨ ∃ b rest, s.heap.blocks = b :: rest ∧ k b (takeBlock s b rest) = r := by
  cases hb : s.heap.blocks with
  | nil =>
    left
    rw [← hcall, Call.bind_ok (kalloc_nil hb)]
  | cons b rest =>
    right
    refine ⟨b, rest, rfl, ?_⟩
    rw [← hcall, Call.bind_ok (kalloc_cons hb)]

/-- A call that cannot return a result. -/
def NeverOk {ε α : Type} (x : Kernel (Except ε α)) : Prop := ∀ s r s', x s ≠ (.ok (.ok r), s')

lemma neverOk_error {ε α : Type} (e : ε) : NeverOk (return .error e : Kernel (Except ε α)) := by
  intro s r s' h
  cases (Except.ok.inj (Prod.mk.inj h).1)

lemma neverOk_bind {ε α β : Type} {x : Kernel α} {f : α → Kernel (Except ε β)} (h : ∀ a, NeverOk (f a)) :
    NeverOk (x >>= f) := by
  intro s r s' hrun
  rcases hx : x s with ⟨e | a, s₁⟩
  · rw [Call.bind_error hx] at hrun
    cases (Prod.mk.inj hrun).1
  · rw [Call.bind_ok hx] at hrun
    exact h a s₁ r s' hrun

lemma regionCreate_ok {base maxAllocations : Nat} {r : HeapRegion}
    (hcall : regionCreate base size maxAllocations s = (.ok (.ok r), s')) :
    ∃ rest, s.heap.blocks = r.self :: r.bitmapBlock :: r.allocationsBlock :: rest ∧
      r.region = ⟨⟨fun i => s.mem (wadd r.bitmapBlock i), size / PAGE_SIZE, base⟩,
        List.replicate maxAllocations ⟨0, 0⟩⟩ ∧
      s' = { s with heap := ⟨rest, r.allocationsBlock :: r.bitmapBlock :: r.self :: s.heap.live⟩ } := by
  unfold regionCreate at hcall
  rcases kalloc_bind_ok hcall with h1 | ⟨b₁, rest₁, hb₁, h1⟩
  · rw [if_pos isErrValue_errToPtr] at h1
    exact absurd h1 (neverOk_error _ _ _ _)
  split at h1
  · exact absurd h1 (neverOk_error _ _ _ _)
  rcases kalloc_bind_ok h1 with h2 | ⟨b₂, rest₂, hb₂, h2⟩
  · rw [if_pos isErrValue_errToPtr] at h2
    exact absurd h2 (neverOk_bind (fun _ => neverOk_error _) _ _ _)
  split at h2
  · exact absurd h2 (neverOk_bind (fun _ => neverOk_error _) _ _ _)
  rcases kalloc_bind_ok h2 with h3 | ⟨b₃, rest₃, hb₃, h3⟩
  · rw [if_pos isErrValue_errToPtr] at h3
    exact absurd h3 (neverOk_bind (fun _ => neverOk_bind (fun _ => neverOk_error _)) _ _ _)
  split at h3
  · exact absurd h3 (neverOk_bind (fun _ => neverOk_bind (fun _ => neverOk_error _)) _ _ _)
  obtain ⟨hr, rfl⟩ := Prod.mk.inj h3
  obtain rfl := Except.ok.inj (Except.ok.inj hr)
  refine ⟨rest₃, ?_, rfl, rfl⟩
  have hb₂' : rest₁ = b₂ :: rest₂ := hb₂
  have hb₃' : rest₂ = b₃ :: rest₃ := hb₃
  rw [hb₁, hb₂', hb₃']

lemma addressSpaceCreate_ok (hpmm : PmmInv s free₀) (hcall : addressSpaceCreate s = (.ok (.ok as), s')) :
    ∃ root free rest, free₀ = root :: free ∧ as.table = root + s.hhdm ∧
      s.heap.blocks = as.self :: as.userRegion.self :: as.userRegion.bitmapBlock ::
        as.userRegion.allocationsBlock :: rest ∧
      as.region = ⟨⟨fun i => (createTable s root).mem (wadd as.userRegion.bitmapBlock i),
        USER_VM_RANGE_SIZE / PAGE_SIZE,
        USER_VM_RANGE_BASE⟩,
        List.replicate CONFIG_VM_MAX_USER_ALLOCATIONS ⟨0, 0⟩⟩ ∧
      s' = { createTable s root with heap := ⟨rest, as.userRegion.allocationsBlock ::
        as.userRegion.bitmapBlock :: as.userRegion.self :: as.self :: s.heap.live⟩ } := by
  unfold addressSpaceCreate at hcall
  rcases kalloc_bind_ok hcall with h1 | ⟨b₁, rest₁, hb₁, h1⟩
  · rw [if_pos isErrValue_errToPtr] at h1
    exact absurd h1 (neverOk_error _ _ _ _)
  split at h1
  · exact absurd h1 (neverOk_error _ _ _ _)
  have hpmm₁ : PmmInv (takeBlock s b₁ rest₁) free₀ := by
    refine hpmm.congr ?_ ?_ ?_
    · rfl
    · rfl
    · exact fun _ _ _ _ _ => rfl
  cases hfree : free₀ with
  | nil =>
    rw [hfree] at hpmm₁
    rw [Call.bind_ok (pagingCreateTable_nil hpmm₁), if_pos isErrValue_errToPtr] at h1
    exact absurd h1 (neverOk_bind (fun _ => neverOk_error _) _ _ _)
  | cons root free =>
    rw [hfree] at hpmm₁
    have htable := hpmm₁.createTable.table_not_isErr (l := 0) (k := 0) rfl
    have htable' : isErrValue (root + (takeBlock s b₁ rest₁).hhdm) = false := htable
    rw [Call.bind_ok (pagingCreateTable_cons hpmm₁), htable', if_neg Bool.false_ne_true] at h1
    rcases hr : regionCreate USER_VM_RANGE_BASE USER_VM_RANGE_SIZE CONFIG_VM_MAX_USER_ALLOCATIONS
        (createTable (takeBlock s b₁ rest₁) root) with ⟨e | r, s₂⟩
    · rw [Call.bind_error hr] at h1
      cases (Prod.mk.inj h1).1
    · rw [Call.bind_ok hr] at h1
      cases r with
      | error e => exact absurd h1 (neverOk_bind (fun _ => neverOk_bind (fun _ => neverOk_error _)) _ _ _)
      | ok r =>
        obtain ⟨has, rfl⟩ := Prod.mk.inj h1
        obtain rfl := Except.ok.inj (Except.ok.inj has)
        obtain ⟨rest, hblocks, hregion, rfl⟩ := regionCreate_ok hr
        refine ⟨root, free, rest, rfl, rfl, ?_, hregion, rfl⟩
        have hblocks' : rest₁ = r.self :: r.bitmapBlock :: r.allocationsBlock :: rest := hblocks
        rw [hb₁, hblocks']

lemma LifeInv.create (hpmm : PmmInv s₀ free₀) (hzero : 0 ∉ free₀)
    (hcall : addressSpaceCreate s₀ = (.ok (.ok as), s₁)) :
    ∃ root T owned free, LifeInv free₀ root ⟨s₁, as, []⟩ T owned free ∧ s₁.log = s₀.log ∧
      ∃ rest, s₁.heap.live = as.userRegion.allocationsBlock :: as.userRegion.bitmapBlock ::
        as.userRegion.self :: as.self :: s₀.heap.live ∧ s₀.heap.blocks.length = rest + 4 := by
  obtain ⟨root, free, rest, rfl, htable, hblocks, hregion, rfl⟩ := addressSpaceCreate_ok hpmm hcall
  have hinv := hpmm.createTable
  have hnone : ∀ q, ¬Owned as.region q := by
    intro q
    rw [hregion]
    exact emptyRegion_owned
  refine ⟨root, emptyTree root, [root], free, ⟨⟨⟨?_, ?_, hpmm.nodup, ?_, ?_, ?_, ?_, ?_⟩, ?_, ?_, ?_⟩, ?_, ?_⟩, rfl,
    rest.length, rfl, by rw [hblocks]; rfl⟩
  · refine hinv.congr ?_ ?_ ?_
    · rfl
    · rfl
    · rfl
  · intro f hf
    exact ⟨fun h0 => hzero (h0 ▸ hf), hpmm.frames f hf⟩
  · exact List.Perm.refl _
  · intro f
    rw [List.mem_singleton, emptyTree_isTable]
    constructor
    · exact fun hf => .inl ⟨hf, id⟩
    · rintro (⟨hf, -⟩ | ⟨q, l, hq, -⟩)
      · exact hf
      · exact absurd hq (hnone q)
  · exact fun hold => absurd hold id
  · exact fun hq => absurd hq (hnone _)
  · exact fun hq => absurd hq (hnone _)
  · show PageRegion as.region
    rw [hregion]
    exact emptyRegion _ (by decide) userSpan _
  · exact fun q _ => ⟨fun hne => absurd rfl hne, fun hq => absurd hq (hnone q)⟩
  · exact fun q hq => absurd hq (hnone q)
  · exact fun q _ => rfl
  · exact htable

/-- The loop of `address_space_destroy` gives every page of the space back. -/
lemma destroyAllocations_spec {i : Nat}
    (h : VmInv free₀ (fun _ => False) (Owned region) s root T loose owned free region)
    (hlen : i + n = region.allocations.length)
    (hdone : ∀ j a, j < i → region.allocations[j]? = some a → a.va = 0)
    (hleaf : ∀ q, T.leaf q ≠ none ↔ Owned region q) :
    ∃ s' region' T' freed owned',
      destroyAllocations (root + s.hhdm) (List.range' i n) region s = (.ok region', s') ∧ Freed s free freed s' ∧
      owned.Perm (freed ++ owned') ∧ T'.node = T.node ∧ (∀ q, T'.leaf q = none) ∧
      VmInv free₀ (fun _ => False) (Owned region') s' root T' loose owned' (freed ++ free) region' := by
  induction n generalizing i s T owned free region with
  | zero =>
    refine ⟨s, region, T, [], owned, rfl, Freed.refl h.frames.table.pmm, List.Perm.refl _, rfl, ?_, h⟩
    intro q
    by_contra hne
    obtain ⟨a, ha, hva, -⟩ := (hleaf q).mp hne
    obtain ⟨j, hj⟩ := List.mem_iff_getElem?.mp ha
    obtain ⟨hlt, -⟩ := List.getElem?_eq_some_iff.mp hj
    exact hva (hdone j a (by omega) hj)
  | succ n ih =>
    obtain ⟨a, ha⟩ : ∃ a, region.allocations[i]? = some a :=
      ⟨_, List.getElem?_eq_getElem (by omega : i < region.allocations.length)⟩
    have hd : region.allocations.getD i ⟨0, 0⟩ = a := by
      rw [List.getD_eq_getElem?_getD, ha]
      rfl
    rw [List.range'_succ, destroyAllocations, hd]
    by_cases hva : a.va = 0
    · rw [if_neg (by simp [hva])]
      refine ih h (by omega) ?_ hleaf
      intro j b hj hb
      by_cases hji : j = i
      · rw [hji, ha] at hb
        obtain rfl := Option.some.inj hb
        exact hva
      · exact hdone j b (by omega) hb
    · rw [if_pos hva]
      obtain ⟨s₁, region₁, freed₁, owned₁, hrun, hfreed, hperm, hr, htable, hinv⟩ :=
        h.vmFree_spec ha hva (fun q hcov => ⟨a, List.mem_of_getElem? ha, hva, hcov⟩)
      have hmine : ∀ q, _ ↔ Owned region₁ q := fun q => (h.pages.owned_release hr).symm
      have hinv₁ := hinv.congr_mine hmine
      obtain ⟨s₂, region₂, T₂, freed₂, owned₂, hrun₂, hfreed₂, hperm₂, hnode, hleaf₂, hinv₂⟩ := ih hinv₁ (i := i + 1)
        (by rw [htable, List.length_set]; omega) (by
          intro j b hj hb
          rw [htable] at hb
          rcases getElem?_set_cases hb with ⟨-, rfl⟩ | ⟨hne, hb⟩
          · rfl
          · exact hdone j b (by omega) hb) (by
          intro q
          rw [h.pages.owned_release hr, ← hleaf q]
          show unmapRange T.leaf (pageOf a.va) a.pageCount q ≠ none ↔ _
          unfold unmapRange
          by_cases hc : pageOf a.va ≤ q ∧ q < pageOf a.va + a.pageCount
          · rw [if_pos hc]
            exact ⟨fun hne => absurd rfl hne, fun hn => absurd hc hn.2⟩
          · rw [if_neg hc]
            exact ⟨fun hne => ⟨hne, hc⟩, fun hn => hn.1⟩)
      rw [hfreed.hhdm] at hrun₂
      refine ⟨s₂, region₂, T₂, freed₂ ++ freed₁, owned₂, ?_, hfreed.trans hfreed₂, ?_, hnode, hleaf₂, ?_⟩
      · rw [Call.bind_ok hrun]
        exact hrun₂
      · refine hperm.trans (((List.Perm.refl freed₁).append hperm₂).trans ?_)
        rw [← List.append_assoc]
        exact List.perm_append_comm.append (List.Perm.refl _)
      · rw [List.append_assoc]
        exact hinv₂

/-- The state after `kfree` has taken a block back. -/
def giveBlock (s : Mm) (b : Nat) : Mm :=
  { s with
    heap := { s.heap with live := s.heap.live.erase b }
    log := { s.log with kfreed := b :: s.log.kfreed } }

lemma kfree_ok {b : Nat} (h : b ∈ s.heap.live) : kfree b s = (.ok (), giveBlock s b) := by
  rw [kfree, Call.read_bind, if_pos h]
  rfl

/-- The destruction of a space whose four blocks are the newest ones of the heap. -/
structure Gone (s : Mm) (free freed blocks live : List Nat) (s' : Mm) : Prop where
  pmm : PmmInv s' (freed ++ free)
  released : s'.log.released = freed ++ s.log.released
  kfreed : s'.log.kfreed = blocks ++ s.log.kfreed
  live : s'.heap.live = live

lemma erase_second (a b : Nat) (l : List Nat) : (a :: b :: l).erase b = a :: l := by
  by_cases hab : a = b
  · subst hab
    rw [List.erase_cons_head]
  · rw [List.erase_cons_tail (by simpa using hab), List.erase_cons_head]

lemma LifeInv.destroy {live : List Nat} (h : LifeInv free₀ root x T owned free)
    (hlive : x.mm.heap.live = x.as.userRegion.allocationsBlock :: x.as.userRegion.bitmapBlock ::
      x.as.userRegion.self :: x.as.self :: live) :
    ∃ s' freed, addressSpaceDestroy x.as x.mm = (.ok (), s') ∧ Gone x.mm free freed (spaceBlocks x.as) live s' ∧
      owned.Perm freed := by
  obtain ⟨s₁, region', T₁, freed₁, owned₁, hrun₁, hfreed₁, hperm₁, hnode, hleaf₁, hinv₁⟩ :=
    destroyAllocations_spec (i := 0) (n := x.as.region.allocations.length) h.vm (by omega)
      (fun j a hj _ => absurd hj (by omega)) h.leaf_iff
  rw [← List.range_eq_range', ← h.table] at hrun₁
  -- the three blocks of the region
  let s₂ := giveBlock (giveBlock (giveBlock s₁ x.as.userRegion.bitmapBlock) x.as.userRegion.allocationsBlock)
    x.as.userRegion.self
  have hlive₁ : s₁.heap.live = x.mm.heap.live := by rw [hfreed₁.heap]
  rw [hlive] at hlive₁
  have hlive₂ : s₂.heap.live = x.as.self :: live := by
    show ((s₁.heap.live.erase _).erase _).erase _ = _
    rw [hlive₁, erase_second, List.erase_cons_head, List.erase_cons_head]
  have hrun₂ : regionDestroy { x.as.userRegion with region := region' } s₁ = (.ok (), s₂) := by
    have h1 : kfree x.as.userRegion.bitmapBlock s₁ = (.ok (), giveBlock s₁ x.as.userRegion.bitmapBlock) :=
      kfree_ok (by rw [hlive₁]; simp)
    have h2 := kfree_ok (s := giveBlock s₁ x.as.userRegion.bitmapBlock) (b := x.as.userRegion.allocationsBlock)
      (by show _ ∈ s₁.heap.live.erase _; rw [hlive₁, erase_second]; simp)
    have h3 := kfree_ok (b := x.as.userRegion.self)
      (s := giveBlock (giveBlock s₁ x.as.userRegion.bitmapBlock) x.as.userRegion.allocationsBlock)
      (by
        show _ ∈ (s₁.heap.live.erase _).erase _
        rw [hlive₁, erase_second, List.erase_cons_head]
        simp)
    rw [regionDestroy, Call.bind_ok h1, Call.bind_ok h2, h3]
  -- the tables
  have hinv₂ : TableInv s₂ root T₁ (freed₁ ++ free) := by
    refine hinv₁.frames.table.congr ?_ ?_ ?_
    · rfl
    · rfl
    · rfl
  obtain ⟨s₃, freed₂, hrun₃, hfreed₂, hmem, -⟩ := hinv₂.destroy hleaf₁
  have htable : x.as.table = root + s₂.hhdm := by
    rw [h.table, ← hfreed₁.hhdm]
    rfl
  rw [← htable] at hrun₃
  have hlive₃ : s₃.heap.live = x.as.self :: live := by rw [hfreed₂.heap, hlive₂]
  have hrun₄ : kfree x.as.self s₃ = (.ok (), giveBlock s₃ x.as.self) := kfree_ok (by rw [hlive₃]; simp)
  refine ⟨giveBlock s₃ x.as.self, freed₂ ++ freed₁, ?_, ⟨?_, ?_, ?_, ?_⟩, ?_⟩
  · rw [addressSpaceDestroy, Call.bind_ok hrun₁, Call.bind_ok hrun₂, Call.bind_ok hrun₃, hrun₄]
  · rw [List.append_assoc]
    refine hfreed₂.pmm.congr ?_ ?_ ?_
    · rfl
    · rfl
    · exact fun _ _ _ _ _ => rfl
  · show s₃.log.released = _
    rw [hfreed₂.log, List.append_assoc]
    show freed₂ ++ s₁.log.released = _
    rw [hfreed₁.log]
  · show x.as.self :: s₃.log.kfreed = _
    rw [hfreed₂.log]
    show x.as.self :: x.as.userRegion.self :: x.as.userRegion.allocationsBlock :: x.as.userRegion.bitmapBlock ::
      s₁.log.kfreed = _
    rw [hfreed₁.log]
    rfl
  · show s₃.heap.live.erase x.as.self = live
    rw [hlive₃, List.erase_cons_head]
  · -- what is owned without any page are the tables
    have howned₁ : owned₁.Perm freed₂ := by
      have h1 := hinv₁.frames.nodup_all
      rw [List.append_assoc] at h1
      rw [List.perm_ext_iff_of_nodup (List.nodup_append.mp h1).1 (List.nodup_append.mp hfreed₂.pmm.nodup).1]
      intro f
      rw [hmem, hinv₁.frames.owned_iff]
      constructor
      · rintro (⟨ht, -⟩ | ⟨q, l, -, hl, -⟩)
        · exact ht
        · rw [hleaf₁ q] at hl
          cases hl
      · exact fun ht => .inl ⟨ht, id⟩
    exact hperm₁.trans (((List.Perm.refl freed₁).append howned₁).trans List.perm_append_comm)

lemma mono_addressSpaceAlloc {m : Mm → Nat} [Gauge m] (as : AddressSpace) (size : Nat) (perms : PagePerms)
    (uxn : ExecPerms) : Call.Mono m (addressSpaceAlloc as size perms uxn) :=
  Call.mono_bind (mono_vmAlloc _ _ _ _) (fun _ => Call.mono_pure _)

lemma mono_addressSpaceMapOwned {m : Mm → Nat} [Gauge m] (as : AddressSpace) (va pa size : Nat) (perms : PagePerms)
    (uxn : ExecPerms) : Call.Mono m (addressSpaceMapOwned as va pa size perms uxn) := by
  apply Call.mono_ite _ (Call.mono_halt _)
  apply Call.mono_ite (Call.mono_pure _)
  apply Call.mono_bind (Call.mono_lift _)
  rintro ⟨err, region⟩
  apply Call.mono_ite (Call.mono_pure _)
  apply Call.mono_bind (mono_pagingMap _ _ _ _ _)
  intro err
  exact Call.mono_ite (Call.mono_bind (Call.mono_lift _) (fun _ => Call.mono_pure _)) (Call.mono_pure _)

lemma SpaceStep.failures_le (h : SpaceStep x x') : failures x.mm ≤ failures x'.mm := by
  cases h with
  | take hcall hok => exact mono_pmmAlloc.le hcall
  | alloc hsize hlt hcall hok => exact (mono_addressSpaceAlloc _ _ _ _).le hcall
  | mapOwned hlt hloose hcall => exact (mono_addressSpaceMapOwned _ _ _ _ _ _).le hcall

lemma LifeInv.step (h : LifeInv free₀ root x T owned free) (hstep : SpaceStep x x')
    (hnever : failures x'.mm = failures x.mm) :
    ∃ T' owned' free', LifeInv free₀ root x' T' owned' free' ∧ SameSpace x x' := by
  cases hstep with
  | take hcall hok =>
    obtain ⟨free', hinv, hsame⟩ := h.take hcall hok hnever
    exact ⟨T, owned, free', hinv, hsame⟩
  | alloc hsize hlt hcall hok => exact h.alloc hsize hlt hcall hok hnever
  | mapOwned hlt hloose hcall => exact h.mapOwned hlt hloose hcall hnever

lemma life_run (h : LifeInv free₀ root x T owned free) (hrun : Relation.ReflTransGen SpaceStep x x')
    (hnever : failures x'.mm = failures x.mm) :
    ∃ T' owned' free', LifeInv free₀ root x' T' owned' free' ∧ SameSpace x x' := by
  refine run_inv_of_const (I := fun y => ∃ T' owned' free', LifeInv free₀ root y T' owned' free' ∧ SameSpace x y)
    (m := fun y => failures y.mm) SpaceStep.failures_le ?_
      ⟨T, owned, free, h, Same.refl _, rfl, SameBounds.refl _⟩ hrun hnever
  rintro y z ⟨T₁, owned₁, free₁, h₁, hsame₁⟩ hstep hsame
  obtain ⟨T₂, owned₂, free₂, h₂, hsame₂⟩ := h₁.step hstep hsame
  exact ⟨T₂, owned₂, free₂, h₂, hsame₁.mm.trans hsame₂.mm, hsame₂.blocks.trans hsame₁.blocks,
    hsame₁.shape.trans hsame₂.shape⟩

/-- The frame holds a table of the space, of any level, or a page of the user. -/
def Tree.Uses (T : Tree) (f : Nat) : Prop := T.IsTable f ∨ ∃ q l, T.leaf q = some l ∧ l.pa = f

/-- An address space gives back all it took: for every run from `address_space_create` through calls
that succeed, with frames always there and frame zero not among them, `address_space_destroy`
returns, has passed every frame of a table or a user page to `pmm_free` once, so that the frames
that are free again are those from before but for the ones the callers still hold, and has passed
the four blocks of the space to `kfree` once. -/
theorem address_space_lifecycle {s₀ s₁ : Mm} {free₀ : List Nat} {as : AddressSpace} {x : Space}
    (hpmm : PmmInv s₀ free₀) (hzero : 0 ∉ free₀) (hcreate : addressSpaceCreate s₀ = (.ok (.ok as), s₁))
    (hrun : Relation.ReflTransGen SpaceStep ⟨s₁, as, []⟩ x) (hnever : x.mm.log.failed = s₀.log.failed) :
    ∃ root T s' freed free, x.as.table = root + x.mm.hhdm ∧ TreeRep x.mm.hhdm x.mm.mem root T ∧
      addressSpaceDestroy x.as x.mm = (.ok (), s') ∧
      PmmInv s' (freed ++ free) ∧ free₀.Perm (freed ++ free ++ x.loose) ∧
      s'.log.released = freed ++ s₀.log.released ∧ freed.Nodup ∧ (∀ f, f ∈ freed ↔ T.Uses f) ∧
      s'.log.kfreed = spaceBlocks as ++ s₀.log.kfreed ∧ s'.heap.live = s₀.heap.live := by
  obtain ⟨root, T₀, owned₀, free, hstart, hlog, rest, hlive, -⟩ := LifeInv.create hpmm hzero hcreate
  have hnever' : failures x.mm = failures s₁ := by
    show x.mm.log.failed = s₁.log.failed
    rw [hlog]
    exact hnever
  obtain ⟨T, owned, free', hinv, hsame⟩ := life_run hstart hrun hnever'
  have hlive' : x.mm.heap.live = x.as.userRegion.allocationsBlock :: x.as.userRegion.bitmapBlock ::
      x.as.userRegion.self :: x.as.self :: s₀.heap.live := by
    have h1 := hsame.blocks
    simp only [spaceBlocks, List.cons.injEq, and_true] at h1
    obtain ⟨h1, h2, h3, h4⟩ := h1
    rw [hsame.mm.heap, hlive, h1, h2, h3, h4]
  obtain ⟨s', freed, hdestroy, hgone, hperm⟩ := hinv.destroy hlive'
  refine ⟨root, T, s', freed, free', hinv.table, hinv.vm.frames.table.tree, hdestroy, hgone.pmm, ?_, ?_, ?_, ?_,
    ?_, hgone.live⟩
  · refine hinv.vm.frames.account.trans ?_
    rw [List.perm_iff_count] at hperm ⊢
    intro f
    have h1 := hperm f
    simp only [List.count_append]
    omega
  · rw [hgone.released, hsame.mm.log, hlog]
  · exact (List.nodup_append.mp hgone.pmm.nodup).1
  · intro f
    rw [← hperm.mem_iff, hinv.vm.frames.owned_iff, Tree.Uses]
    constructor
    · rintro (⟨ht, -⟩ | ⟨q, l, -, hl, hf⟩)
      · exact .inl ht
      · exact .inr ⟨q, l, hl, hf⟩
    · rintro (ht | ⟨q, l, hl, hf⟩)
      · exact .inl ⟨ht, id⟩
      · exact .inr ⟨q, l, (hinv.leaf_iff q).mp (by rw [hl]; simp), hl, hf⟩
  · rw [hgone.kfreed, hsame.mm.log, hlog, hsame.blocks]

/-- Seven frames and the four heap blocks of one address space. -/
def spaceBoot : Mm :=
  { bootMm 0x100000 [0x1000, 0x2000, 0x3000, 0x4000, 0x5000, 0x6000, 0x7000] with
    heap := ⟨[0xa000, 0xa100, 0xa200, 0xa300], []⟩ }

lemma spaceBoot_inv : PmmInv spaceBoot [0x1000, 0x2000, 0x3000, 0x4000, 0x5000, 0x6000, 0x7000] := by
  have hboot : PmmInv (bootMm 0x100000 [0x1000, 0x2000, 0x3000, 0x4000, 0x5000, 0x6000, 0x7000])
      [0x1000, 0x2000, 0x3000, 0x4000, 0x5000, 0x6000, 0x7000] :=
    bootMm_inv ⟨by decide, by decide⟩ (by decide) (by decide)
  refine hboot.congr ?_ ?_ ?_
  · rfl
  · rfl
  · exact fun _ _ _ _ _ => rfl

/-- The address space that `spaceBoot` has room for. -/
def bootSpace : AddressSpace :=
  ⟨0xa000, 0x101000, ⟨0xa100, 0xa200, 0xa300, ⟨⟨fun i => (createTable spaceBoot 0x1000).mem (wadd 0xa200 i),
    USER_VM_RANGE_SIZE / PAGE_SIZE, USER_VM_RANGE_BASE⟩, List.replicate CONFIG_VM_MAX_USER_ALLOCATIONS ⟨0, 0⟩⟩⟩⟩

/-- A run of `bootSpace`: a frame is taken and mapped at `0x11000`, and a page is allocated. -/
def lifeStart : Space := ⟨(addressSpaceCreate spaceBoot).2, bootSpace, []⟩

def lifeTaken : Space := ⟨(pmmAlloc lifeStart.mm).2, bootSpace, [0x2000]⟩

def lifeMap : Kernel (Nat × AddressSpace) :=
  addressSpaceMapOwned bootSpace 0x11000 0x2000 0x1000 .EL1_READ_ONLY_EL0_READ_ONLY .EXECUTABLE

def lifeMapped : Space := ⟨(lifeMap lifeTaken.mm).2, (lifeMap.valueD lifeTaken.mm (0, bootSpace)).2, []⟩

def lifeAlloc : Kernel (Nat × AddressSpace) :=
  addressSpaceAlloc lifeMapped.as 0x1000 .EL1_READ_WRITE_EL0_READ_WRITE .NOT_EXECUTABLE

def lifeEnd : Space := ⟨(lifeAlloc lifeMapped.mm).2, (lifeAlloc.valueD lifeMapped.mm (0, bootSpace)).2, []⟩

lemma life_take : SpaceStep lifeStart lifeTaken :=
  .take (Call.eq_of_fst (by decide +kernel)) (by decide)

lemma life_map : SpaceStep lifeTaken lifeMapped := by
  have hcall : lifeMap lifeTaken.mm = (.ok (0, lifeMapped.as), lifeMapped.mm) :=
    Call.eq_pairD (0, bootSpace) (by decide +kernel) (by decide +kernel)
  exact .mapOwned (by decide) (by decide) hcall

lemma life_alloc : SpaceStep lifeMapped lifeEnd := by
  have hcall : lifeAlloc lifeMapped.mm = (.ok (0x10000, lifeEnd.as), lifeEnd.mm) :=
    Call.eq_pairD (0, bootSpace) (by decide +kernel) (by decide +kernel)
  exact .alloc (by decide) (by decide) hcall (by decide)

lemma life_start_to_end : Relation.ReflTransGen SpaceStep lifeStart lifeEnd :=
  ((Relation.ReflTransGen.single life_take).tail life_map).tail life_alloc

theorem address_space_lifecycle_run :
    ∃ s' freed free, addressSpaceDestroy lifeEnd.as lifeEnd.mm = (.ok (), s') ∧ PmmInv s' (freed ++ free) ∧
      [0x1000, 0x2000, 0x3000, 0x4000, 0x5000, 0x6000, 0x7000].Perm (freed ++ free ++ lifeEnd.loose) ∧
      s'.log.kfreed = [0xa000, 0xa100, 0xa300, 0xa200] := by
  have hcreate : addressSpaceCreate spaceBoot = (.ok (.ok bootSpace), lifeStart.mm) := Call.eq_of_fst rfl
  obtain ⟨root, T, s', freed, free, -, -, hdestroy, hpmm, hperm, -, -, -, hkfreed, -⟩ :=
    address_space_lifecycle spaceBoot_inv (by decide) hcreate life_start_to_end (by decide +kernel)
  exact ⟨s', freed, free, hdestroy, hpmm, hperm, hkfreed⟩

end KaworuOS.Proofs
