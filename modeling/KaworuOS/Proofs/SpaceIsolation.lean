import KaworuOS.Proofs.SpaceFork

/-!
# Two spaces that share no frame

A store of the user reaches a byte of a page that the space maps. `Apart` says that no such page holds a
table of either space or is mapped by the other one, and every store keeps it.
-/

namespace KaworuOS.Proofs
open Lib

/-- A store of one byte to a user address. -/
def userStore (table : Nat) (w : Nat × UInt8) : Kernel Unit := do
  let mmu ← Call.read (fun s va => translate table va s)
  storeToUser mmu w.1 [w.2]

/-- The pages that `A` maps are no tables, and `B` does not map them. -/
structure Apart (s : Mm) (rootA : Nat) (A : Tree) (rootB : Nat) (B : Tree) (free : List Nat) : Prop where
  left : TableInv s rootA A free
  right : TableInv s rootB B free
  page : ∀ {q l}, A.leaf q = some l → IsFrame s.hhdm l.pa ∧ l.pa ∉ free ∧ ¬A.IsTable l.pa ∧ ¬B.IsTable l.pa
  other : ∀ {q l}, B.leaf q = some l → IsFrame s.hhdm l.pa
  disjoint : ∀ {q l q' l'}, A.leaf q = some l → B.leaf q' = some l' → l.pa ≠ l'.pa

variable {s s' : Mm} {rootA rootB root rootS va : Nat} {A B S T : Tree} {free : List Nat} {src : AddressSpace}

/-- What the user reads at an address: the byte of the page that is mapped there. -/
lemma TableInv.userByte_eq (h : TableInv s root T free) (hpage : ∀ {q l}, T.leaf q = some l → IsFrame s.hhdm l.pa)
    (va : Nat) : userByte (root + s.hhdm) s va =
      (T.leaf (pageOf va)).map fun l => s.mem (l.pa + va % 4096 + s.hhdm) := by
  unfold userByte
  cases hl : T.leaf (pageOf va) with
  | none => rw [h.translate_none hl, Option.map_none, Option.map_none]
  | some l =>
    have htop := (hpage hl).top
    rw [h.translate_eq hl, Option.map_some, Option.map_some, wadd_of_lt (by omega)]

lemma Apart.userStore (h : Apart s rootA A rootB B free) (w : Nat × UInt8) :
    ∃ s', (userStore (rootA + s.hhdm) w s).2 = s' ∧ Apart s' rootA A rootB B free ∧ s'.hhdm = s.hhdm ∧
      ∀ x, userByte (rootB + s.hhdm) s' x = userByte (rootB + s.hhdm) s x := by
  obtain ⟨va, byte⟩ := w
  unfold Proofs.userStore
  rw [Call.read_bind]
  unfold storeToUser
  cases hl : A.leaf (pageOf va) with
  | none =>
    rw [h.left.translate_none hl]
    exact ⟨s, rfl, h, rfl, fun _ => rfl⟩
  | some l =>
    rw [h.left.translate_eq hl]
    obtain ⟨hframe, hfree, hA, hB⟩ := h.page hl
    have htop := hframe.top
    have haddr : wadd (l.pa + va % 4096) s.hhdm = l.pa + va % 4096 + s.hhdm := wadd_of_lt (by omega)
    have hmem : ∀ x, ¬InPage s.hhdm l.pa x → s.mem.set (wadd (l.pa + va % 4096) s.hhdm) byte x = s.mem x := by
      intro x hx
      apply Mem.set_other
      rintro rfl
      apply hx
      rw [haddr]
      unfold InPage
      omega
    have hleft := h.left.write hframe hfree hA hmem
    have hright := h.right.write hframe hfree hB hmem
    refine ⟨{ s with mem := s.mem.set (wadd (l.pa + va % 4096) s.hhdm) byte }, rfl,
      ⟨hleft, hright, h.page, h.other, h.disjoint⟩, rfl, ?_⟩
    intro x
    have hnew := hright.userByte_eq h.other x
    rw [h.right.userByte_eq h.other x]
    refine hnew.trans ?_
    cases hl' : B.leaf (pageOf x) with
    | none => rfl
    | some l' =>
      -- the byte lies in another frame
      have hapart := hframe.apart (h.other hl') (h.disjoint hl hl')
      rw [Option.map_some, Option.map_some]
      congr 1
      apply hmem
      unfold InPage
      dsimp only
      omega

/-- Stores through one space leave what is read through the other. -/
lemma Apart.userStores (h : Apart s rootA A rootB B free) (writes : List (Nat × UInt8)) (x : Nat) :
    userByte (rootB + s.hhdm) (Call.each (Proofs.userStore (rootA + s.hhdm)) writes s).2 x =
      userByte (rootB + s.hhdm) s x := by
  induction writes generalizing s with
  | nil => rfl
  | cons w writes ih =>
    obtain ⟨s', hs', h', hhdm, hsame⟩ := h.userStore w
    rw [Call.each]
    rcases hrun : Proofs.userStore (rootA + s.hhdm) w s with ⟨e | a, s₁⟩
    · rw [hrun] at hs'
      obtain rfl : s₁ = s' := hs'
      rw [Call.bind_error hrun]
      exact hsame x
    · rw [hrun] at hs'
      obtain rfl : s₁ = s' := hs'
      have hrest := ih h'
      rw [hhdm] at hrest
      rw [Call.bind_ok hrun, hrest, hsame]

lemma mono_addressSpaceCopy {m : Mm → Nat} [Gauge m] (dst src : AddressSpace) :
    Call.Mono m (addressSpaceCopy dst src) :=
  Call.mono_bind (mono_copyPages _ _ _ _ _) (mono_afterCopy dst)

/-- The call needs a frame for the new table. -/
lemma addressSpaceCreateFrom_nil (hpmm : PmmInv s []) (hb : HasBlocks s) (src : AddressSpace) :
    failures s < failures (addressSpaceCreateFrom src s).2 := by
  obtain ⟨b₁, b₂, b₃, b₄, rest, hblocks, h1, -⟩ := hb.cons
  have hpmm₁ : PmmInv (takeBlock s b₁ (b₂ :: b₃ :: b₄ :: rest)) [] := hpmm.congr rfl rfl (fun _ _ _ _ _ => rfl)
  have hcreate : failures s < failures (addressSpaceCreate s).2 := by
    unfold addressSpaceCreate
    rw [Call.bind_ok (kalloc_cons hblocks), h1, if_neg Bool.false_ne_true, Call.bind_ok (pagingCreateTable_nil hpmm₁),
      if_pos isErrValue_errToPtr]
    apply Call.lt_bind (fun _ => Call.mono_pure _)
    exact Nat.lt_of_lt_of_le (Nat.lt_succ_self (failures s))
      (mono_kfree b₁ (noFrame (takeBlock s b₁ (b₂ :: b₃ :: b₄ :: rest))))
  refine Call.lt_bind ?_ hcreate
  rintro (err | dst)
  · exact Call.mono_pure _
  · apply Call.mono_bind (Call.mono_lift _)
    rintro ⟨err, region⟩
    apply Call.mono_ite (Call.mono_bind (mono_addressSpaceDestroy _) (fun _ => Call.mono_pure _))
    apply Call.mono_bind (mono_addressSpaceCopy _ _)
    intro ret
    exact mono_forkEnd _ ret

section Copy

variable {dst : AddressSpace} {free' : List Nat} (h : ForkSource s src rootS S free)
  (hc : ForkCopy s src S free dst s' root T free')
include h hc

lemma ForkCopy.source : TableInv s' rootS S free' :=
  h.inv.table_within hc.within hc.table.pmm (fun _ hf => hc.left hf)

lemma ForkCopy.page_frame {q : Nat} {l : Leaf} (hl : T.leaf q = some l) : IsFrame s'.hhdm l.pa := by
  rw [hc.within.hhdm]
  exact h.inv.table.pmm.frames _ (hc.fresh (.inr ⟨q, l, hl, rfl⟩)).1

lemma ForkCopy.source_page {q : Nat} {l : Leaf} (hl : S.leaf q = some l) : IsFrame s'.hhdm l.pa ∧ l.pa ∉ free := by
  rw [hc.within.hhdm]
  exact h.inv.pages hl

lemma ForkCopy.disjoint {f : Nat} (hf : T.Uses f) : ¬S.Uses f := by
  rintro (ht | ⟨q, l, hl, rfl⟩)
  · exact h.inv.table.apart ht (hc.fresh hf).1
  · exact (h.inv.pages hl).2 (hc.fresh hf).1

lemma ForkCopy.apart_left : Apart s' root T rootS S free' := by
  refine ⟨hc.table, hc.source h, ?_, fun hl => (hc.source_page h hl).1, ?_⟩
  · intro q l hl
    have huse : T.Uses l.pa := .inr ⟨q, l, hl, rfl⟩
    exact ⟨hc.page_frame h hl, (hc.fresh huse).2, hc.apart hl, fun ht => hc.disjoint h huse (.inl ht)⟩
  · intro q l q' l' hl hl' heq
    exact hc.disjoint h (.inr ⟨q, l, hl, rfl⟩) (.inr ⟨q', l', hl', heq.symm⟩)

lemma ForkCopy.apart_right : Apart s' rootS S root T free' := by
  refine ⟨hc.source h, hc.table, ?_, hc.page_frame h, ?_⟩
  · intro q l hl
    obtain ⟨hframe, hfree⟩ := hc.source_page h hl
    exact ⟨hframe, fun hf => hfree (hc.left hf), h.apart hl, fun ht => hfree (hc.fresh (.inl ht)).1⟩
  · intro q l q' l' hl hl' heq
    exact hc.disjoint h (.inr ⟨q', l', hl', rfl⟩) (.inr ⟨q, l, hl, heq⟩)

end Copy

/-- A fork gives an equal and isolated space: with frames and the four heap blocks always there,
`address_space_create_from` returns a space that maps the pages of every allocation of the source, with
the same attributes and the same bytes; its tables and pages are different frames, none of which the
source uses; tables and pages of the source are as before; its region answers every sequence of calls
as that of the source does; and no stores through one of the two spaces change what is read through the
other. -/
theorem fork_equal_and_isolated {r : Except Halt (Except Nat AddressSpace)} (h : ForkSource s src rootS S free)
    (hblocks : HasBlocks s) (hcall : addressSpaceCreateFrom src s = (r, s')) (hnever : s'.log.failed = s.log.failed) :
    ∃ dst root T, r = .ok (.ok dst) ∧ dst.table = root + s'.hhdm ∧ src.table = rootS + s'.hhdm ∧
      TreeRep s'.hhdm s'.mem root T ∧ TreeRep s'.hhdm s'.mem rootS S ∧
      (∀ q, Owned src.region q → ∃ l l', S.leaf q = some l ∧ T.leaf q = some l' ∧ l'.attrs = l.attrs ∧
        s'.mem.bytes (l'.pa + s'.hhdm) 4096 = s.mem.bytes (l.pa + s.hhdm) 4096) ∧
      (∀ q q' l l', T.leaf q = some l → T.leaf q' = some l' → l.pa = l'.pa → q = q') ∧
      (∀ q l, T.leaf q = some l → ¬T.IsTable l.pa) ∧ (∀ f, T.Uses f → ¬S.Uses f) ∧
      (∀ q l, S.leaf q = some l → s'.mem.bytes (l.pa + s'.hhdm) 4096 = s.mem.bytes (l.pa + s.hhdm) 4096) ∧
      (∀ ops, answers dst.region ops = answers src.region ops) ∧
      (∀ writes x, userByte src.table (Call.each (userStore dst.table) writes s').2 x = userByte src.table s' x) ∧
      ∀ writes x, userByte dst.table (Call.each (userStore src.table) writes s').2 x = userByte dst.table s' x := by
  have hnever' : ¬failures s < failures (addressSpaceCreateFrom src s).2 := by
    rw [hcall]
    exact fun hlt => Nat.ne_of_gt hlt hnever
  have hne : free ≠ [] := by
    rintro rfl
    exact hnever' (addressSpaceCreateFrom_nil h.inv.table.pmm hblocks src)
  rcases h.copies hblocks hne with ⟨-, hfail⟩ | ⟨dst, s₁, root, T, free', hrun, hc, -⟩
  · exact absurd hfail hnever'
  obtain ⟨rfl, rfl⟩ := Prod.mk.inj (hcall.symm.trans hrun)
  have haddr : src.table = rootS + s'.hhdm := by rw [h.addr, hc.within.hhdm]
  refine ⟨dst, root, T, rfl, hc.addr, haddr, hc.table.tree, (hc.source h).tree, ?_,
    fun _ _ _ _ hl hl' => hc.inj hl hl', fun _ _ hl => hc.apart hl, fun _ hf => hc.disjoint h hf, ?_,
    answers_eq Alike.run hc.region, ?_, ?_⟩
  · intro q hq
    obtain ⟨l, l', hl, hl', hattrs, hbytes⟩ := hc.copied q hq
    refine ⟨l, l', hl, hl', hattrs, ?_⟩
    unfold Mem.bytes
    exact List.map_congr_left fun j hj => hbytes j (List.mem_range.mp hj)
  · intro q l hl
    obtain ⟨hframe, hfree⟩ := h.inv.pages hl
    rw [hc.within.hhdm]
    exact Mem.bytes_congr (hc.within.samePage h.inv.table.pmm.frames hframe hfree)
  · rw [haddr, hc.addr]
    exact (hc.apart_left h).userStores
  · rw [haddr, hc.addr]
    exact (hc.apart_right h).userStores

lemma LifeInv.forkSource {free₀ owned : List Nat} {x : Space} (h : LifeInv free₀ root x T owned free)
    (hpool : x.as.region.allocator.pool = USER_VM_RANGE_BASE)
    (hcount : x.as.region.allocator.pageCount = USER_VM_RANGE_SIZE / PAGE_SIZE)
    (hslots : x.as.region.allocations.length = CONFIG_VM_MAX_USER_ALLOCATIONS) :
    ForkSource x.mm x.as root T free := by
  have hmine : ∀ {q l}, T.leaf q = some l → Owned x.as.region q :=
    fun hl => (h.leaf_iff _).mp (by rw [hl]; exact Option.some_ne_none _)
  refine ⟨⟨h.vm.frames.table, ?_⟩, fun hl => h.vm.frames.apart (hmine hl) hl, h.table, h.vm.pages, hpool, hcount,
    hslots,
    fun q hq => (h.leaf_iff q).mpr hq⟩
  intro q l hl
  have howned := h.vm.frames.leaf_owned (hmine hl) hl
  exact ⟨(h.vm.frames.mem_start (List.mem_append_left _ (List.mem_append_left _ howned))).2,
    h.vm.frames.not_free_of_owned howned⟩

/-- A space may be copied at any time of its life. -/
lemma life_forkSource {s₀ s₁ : Mm} {free₀ : List Nat} {as : AddressSpace} {x : Space} (hpmm : PmmInv s₀ free₀)
    (hzero : 0 ∉ free₀) (hcreate : addressSpaceCreate s₀ = (.ok (.ok as), s₁))
    (hrun : Relation.ReflTransGen SpaceStep ⟨s₁, as, []⟩ x) (hnever : failures x.mm = failures s₁) :
    ∃ root T free, ForkSource x.mm x.as root T free := by
  obtain ⟨root, T₀, owned₀, free, hstart, -⟩ := LifeInv.create hpmm hzero hcreate
  obtain ⟨T, owned, free', hinv, -, -, hshape⟩ := life_run hstart hrun hnever
  obtain ⟨_, _, _, -, -, -, hregion, -⟩ := addressSpaceCreate_ok hpmm hcreate
  refine ⟨root, T, free', hinv.forkSource ?_ ?_ ?_⟩
  · rw [hshape.pool, hregion]
  · rw [hshape.count, hregion]
  · rw [hshape.slots, hregion]
    exact List.length_replicate

lemma PmmInv.length_eq {chain : List Nat} (h : PmmInv s free) (hchain : Seg s.mem.load64 s.freeList chain 0) :
    free.length = chain.length := by
  rw [← h.chain.unique hchain, List.length_map]

/-- Eleven frames, and heap blocks for two address spaces. -/
def forkBoot : Mm :=
  { bootMm 0x100000 [0x1000, 0x2000, 0x3000, 0x4000, 0x5000, 0x6000, 0x7000, 0x8000, 0x9000, 0xa000, 0xb000] with
    heap := ⟨[0xe000, 0xe100, 0xe200, 0xe300, 0xe400, 0xe500, 0xe600, 0xe700], []⟩ }

lemma forkBoot_inv : PmmInv forkBoot
    [0x1000, 0x2000, 0x3000, 0x4000, 0x5000, 0x6000, 0x7000, 0x8000, 0x9000, 0xa000, 0xb000] := by
  have hboot : PmmInv (bootMm 0x100000
      [0x1000, 0x2000, 0x3000, 0x4000, 0x5000, 0x6000, 0x7000, 0x8000, 0x9000, 0xa000, 0xb000])
      [0x1000, 0x2000, 0x3000, 0x4000, 0x5000, 0x6000, 0x7000, 0x8000, 0x9000, 0xa000, 0xb000] :=
    bootMm_inv ⟨by decide, by decide⟩ (by decide) (by decide)
  refine hboot.congr ?_ ?_ ?_
  · rfl
  · rfl
  · exact fun _ _ _ _ _ => rfl

/-- The space of a process that is to fork. -/
def parentSpace : AddressSpace :=
  ⟨0xe000, 0x101000, ⟨0xe100, 0xe200, 0xe300, ⟨⟨fun i => (createTable forkBoot 0x1000).mem (wadd 0xe200 i),
    USER_VM_RANGE_SIZE / PAGE_SIZE, USER_VM_RANGE_BASE⟩, List.replicate CONFIG_VM_MAX_USER_ALLOCATIONS ⟨0, 0⟩⟩⟩⟩

/-- A frame is taken and mapped at `0x11000`. -/
def parentStart : Space := ⟨(addressSpaceCreate forkBoot).2, parentSpace, []⟩

def parentTaken : Space := ⟨(pmmAlloc parentStart.mm).2, parentSpace, [0x2000]⟩

def parentMap : Kernel (Nat × AddressSpace) :=
  addressSpaceMapOwned parentSpace 0x11000 0x2000 0x1000 .EL1_READ_WRITE_EL0_READ_WRITE .NOT_EXECUTABLE

def parentMapped : Space := ⟨(parentMap parentTaken.mm).2, (parentMap.valueD parentTaken.mm (0, parentSpace)).2, []⟩

lemma parent_take : SpaceStep parentStart parentTaken :=
  .take (Call.eq_of_fst (by decide +kernel)) (by decide)

lemma parent_map : SpaceStep parentTaken parentMapped := by
  have hcall : parentMap parentTaken.mm = (.ok (0, parentMapped.as), parentMapped.mm) :=
    Call.eq_pairD (0, parentSpace) (by decide +kernel) (by decide +kernel)
  exact .mapOwned (by decide) (by decide) hcall

lemma parent_source : ∃ root T free, ForkSource parentMapped.mm parentMapped.as root T free ∧ free.length = 6 := by
  have hcreate : addressSpaceCreate forkBoot = (.ok (.ok parentSpace), parentStart.mm) := Call.eq_of_fst rfl
  have hrun : Relation.ReflTransGen SpaceStep parentStart parentMapped :=
    (Relation.ReflTransGen.single parent_take).tail parent_map
  obtain ⟨root, T, free, hsource⟩ := life_forkSource forkBoot_inv (by decide) hcreate hrun (by decide +kernel)
  have hlast : parentMapped.mm.mem.load64 0x10b000 = 0 := by decide +kernel
  have hchain : Seg parentMapped.mm.mem.load64 parentMapped.mm.freeList
      [0x106000, 0x107000, 0x108000, 0x109000, 0x10a000, 0x10b000] 0 :=
    ⟨by decide +kernel, by decide, by decide +kernel, by decide, by decide +kernel, by decide, by decide +kernel,
      by decide, by decide +kernel, by decide, by decide +kernel, by decide, hlast⟩
  exact ⟨root, T, free, hsource, hsource.inv.table.pmm.length_eq hchain⟩

theorem fork_equal_and_isolated_run :
    ∃ dst s', addressSpaceCreateFrom parentMapped.as parentMapped.mm = (.ok (.ok dst), s') ∧
      (∀ writes x, userByte dst.table
        (Call.each (userStore parentMapped.as.table) writes s').2 x = userByte dst.table s' x) ∧
      ∀ ops, answers dst.region ops = answers parentMapped.as.region ops := by
  obtain ⟨root, T, free, hsource, hlen⟩ := parent_source
  have hblocks : HasBlocks parentMapped.mm := by decide +kernel
  have hneed : framesFor (copiedPages parentMapped.as) ≤ 6 := by decide +kernel
  have hne : free ≠ [] := by
    rintro rfl
    cases hlen
  rcases hsource.copies hblocks hne with ⟨hshort, -⟩ | ⟨dst, s', root', T', free', hcall, -, hnever⟩
  · omega
  obtain ⟨dst', _, _, hdst, -, -, -, -, -, -, -, -, -, hregion, -, hapart⟩ :=
    fork_equal_and_isolated hsource hblocks hcall hnever
  cases hdst
  exact ⟨dst, s', hcall, hapart, hregion⟩

lemma lifeEnd_source : ∃ root T free, ForkSource lifeEnd.mm lifeEnd.as root T free ∧ free.length = 1 := by
  have hcreate : addressSpaceCreate spaceBoot = (.ok (.ok bootSpace), lifeStart.mm) := Call.eq_of_fst rfl
  obtain ⟨root, T, free, hsource⟩ :=
    life_forkSource spaceBoot_inv (by decide) hcreate life_start_to_end (by decide +kernel)
  have hlast : lifeEnd.mm.mem.load64 0x107000 = 0 := by decide +kernel
  have hchain : Seg lifeEnd.mm.mem.load64 lifeEnd.mm.freeList [0x107000] 0 :=
    ⟨by decide +kernel, by decide, hlast⟩
  exact ⟨root, T, free, hsource, hsource.inv.table.pmm.length_eq hchain⟩

/-- The space `lifeEnd` may be copied, and the call takes no frame that is not there. It returns no space,
since the heap has no block left. -/
theorem fork_without_blocks :
    (∃ root T free, ForkSource lifeEnd.mm lifeEnd.as root T free) ∧
    ∃ s', addressSpaceCreateFrom lifeEnd.as lifeEnd.mm = (.ok (.error (Errno.code .ENOMEM)), s') ∧
      s'.log.failed = lifeEnd.mm.log.failed := by
  obtain ⟨root, T, free, hsource, -⟩ := lifeEnd_source
  have hempty : lifeEnd.mm.heap.blocks = [] := by decide +kernel
  have hcreate : addressSpaceCreate lifeEnd.mm = (.ok (.error .ENOMEM), lifeEnd.mm) := by
    rw [addressSpaceCreate, Call.bind_ok (kalloc_nil hempty), if_pos isErrValue_errToPtr]
    rfl
  refine ⟨⟨root, T, free, hsource⟩, lifeEnd.mm, ?_, rfl⟩
  rw [addressSpaceCreateFrom, Call.bind_ok hcreate]
  rfl

end KaworuOS.Proofs
