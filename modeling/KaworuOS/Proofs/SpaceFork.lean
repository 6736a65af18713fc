import KaworuOS.Proofs.SpaceCopy
import KaworuOS.Proofs.RegionCopy
import KaworuOS.Proofs.RegionFresh
import KaworuOS.Proofs.UaccessString

/-!
# Copies of address spaces

`address_space_create_from` makes a space with the same region and with copies of the pages of all
allocations. The two spaces share no frame, so that stores of the user through one of them are not
seen through the other.
-/

namespace KaworuOS.Proofs
open Lib

variable {s s' s₀ : Mm} {root rootS f va p q n : Nat} {S T T' : Tree} {free free' free₀ owned used frames : List Nat}
  {region : AllocRegion} {src dst as : AddressSpace} {l : Leaf}
variable {m : Mm → Nat} [Gauge m]

section PageAddresses

lemma PageRegion.pageAddresses_map (h : PageRegion region) :
    (pageAddresses region).map pageOf = region.allocations.flatMap fun a => List.range' (pageOf a.va) a.pageCount := by
  rw [pageAddresses, List.map_flatMap]
  apply List.flatMap_congr
  intro a ha
  by_cases hva : a.va = 0
  · rw [h.blank a ha hva]
    rfl
  · have hspan := h.allocation_span ha hva
    rw [List.map_map, List.range'_eq_map_range]
    apply List.map_congr_left
    intro i hi
    have hlt := List.mem_range.mp hi
    show pageOf (wadd a.va (wmul i PAGE_SIZE)) = pageOf a.va + i
    rw [hspan.addr hlt, hspan.pageOf_add hlt]

lemma PageRegion.mem_pageSet (h : PageRegion region) : q ∈ pageSet (pageAddresses region) ↔ Owned region q := by
  rw [pageSet, List.mem_toFinset, h.pageAddresses_map, List.mem_flatMap]
  constructor
  · rintro ⟨a, ha, hq⟩
    rw [List.mem_range'_1] at hq
    refine ⟨a, ha, ?_, hq⟩
    intro hva
    have hcount := h.blank a ha hva
    omega
  · rintro ⟨a, ha, -, hq⟩
    exact ⟨a, ha, List.mem_range'_1.mpr hq⟩

lemma PageRegion.pages_nodup (h : PageRegion region) : ((pageAddresses region).map pageOf).Nodup := by
  rw [h.pageAddresses_map, List.nodup_flatMap]
  refine ⟨fun a _ => List.nodup_range', ?_⟩
  rw [List.pairwise_iff_getElem]
  intro i j hi hj hij
  rw [Function.onFun, List.disjoint_left]
  intro q hq hq'
  rw [List.mem_range'_1] at hq hq'
  have hlive : ∀ {k : Nat} (hk : k < region.allocations.length),
    q < pageOf region.allocations[k].va + region.allocations[k].pageCount →
      pageOf region.allocations[k].va ≤ q → region.allocations[k].va ≠ 0 := by
    intro k hk h1 h2 hva
    have hcount := h.blank _ (List.getElem_mem hk) hva
    omega
  have heq := h.unique (List.getElem?_eq_getElem hi) (List.getElem?_eq_getElem hj) (hlive hi hq.2 hq.1)
    (hlive hj hq'.2 hq'.1) hq hq'
  omega

lemma PageRegion.copyable (h : PageRegion region) (hmapped : ∀ q, Owned region q → S.leaf q ≠ none) :
    Copyable S (pageAddresses region) := by
  refine ⟨?_, ?_, h.pages_nodup⟩
  · intro va hva
    obtain ⟨a, ha, hva⟩ := List.mem_flatMap.mp hva
    obtain ⟨i, hi, rfl⟩ := List.mem_map.mp hva
    have hlt := List.mem_range.mp hi
    have hlive : a.va ≠ 0 := by
      intro h0
      rw [h.blank a ha h0] at hlt
      exact Nat.not_lt_zero i hlt
    have hspan := h.allocation_span ha hlive
    rw [hspan.addr hlt]
    exact hspan.page hlt
  · intro va hva
    exact hmapped _ (h.mem_pageSet.mp (Proofs.mem_pageSet.mpr ⟨va, hva, rfl⟩))

end PageAddresses

section Create

/-- The next four calls of `kalloc` succeed. -/
def HasBlocks (s : Mm) : Prop := 4 ≤ s.heap.blocks.length ∧ ∀ b ∈ s.heap.blocks.take 4, isErrValue b = false

instance (s : Mm) : Decidable (HasBlocks s) := inferInstanceAs (Decidable (_ ∧ _))

/-- Blocks of the heap have changed hands, and nothing else has happened. -/
structure HeapOnly (s s' : Mm) : Prop where
  mem : s'.mem = s.mem
  hhdm : s'.hhdm = s.hhdm
  freeList : s'.freeList = s.freeList
  failed : failures s' = failures s
  released : s'.log.released = s.log.released
  live : ∀ b ∈ s.heap.live, b ∈ s'.heap.live

/-- The blocks among those that `kalloc` has given out, without the error pointers. -/
def inUse (live : List Nat) : List Nat := live.filter fun b => !isErrValue b

lemma inUse_cons {b : Nat} (h : isErrValue b = false) (live : List Nat) : inUse (b :: live) = b :: inUse live := by
  simp [inUse, h]

lemma inUse_cons_error {b : Nat} (h : isErrValue b = true) (live : List Nat) : inUse (b :: live) = inUse live := by
  simp [inUse, h]

lemma inUse_erase (live : List Nat) (b : Nat) : inUse (live.erase b) = (inUse live).erase b := List.erase_filter.symm

lemma HasBlocks.cons (h : HasBlocks s) : ∃ b₁ b₂ b₃ b₄ rest, s.heap.blocks = b₁ :: b₂ :: b₃ :: b₄ :: rest ∧
    isErrValue b₁ = false ∧ isErrValue b₂ = false ∧ isErrValue b₃ = false ∧ isErrValue b₄ = false := by
  obtain ⟨hlen, hok⟩ := h
  match hb : s.heap.blocks with
  | b₁ :: b₂ :: b₃ :: b₄ :: rest =>
    rw [hb] at hok
    exact ⟨b₁, b₂, b₃, b₄, rest, rfl, hok b₁ (by simp), hok b₂ (by simp), hok b₃ (by simp), hok b₄ (by simp)⟩
  | [] | [_] | [_, _] | [_, _, _] =>
    rw [hb] at hlen
    simp at hlen

/-- `region_create` on a heap that does not give it three blocks. -/
lemma regionCreate_error {base size maxAllocations : Nat}
    (h : ¬(3 ≤ s.heap.blocks.length ∧ ∀ b ∈ s.heap.blocks.take 3, isErrValue b = false)) :
    ∃ s', regionCreate base size maxAllocations s = (.ok (.error .ENOMEM), s') ∧ HeapOnly s s' ∧
      inUse s'.heap.live = inUse s.heap.live := by
  have hmore : ∀ (b : Nat) (l : List Nat), ∀ x ∈ l, x ∈ b :: l := fun b l x hx => List.mem_cons_of_mem b hx
  unfold regionCreate
  match hb : s.heap.blocks with
  | [] =>
    rw [Call.bind_ok (kalloc_nil hb), if_pos isErrValue_errToPtr]
    exact ⟨s, rfl, ⟨rfl, rfl, rfl, rfl, rfl, fun _ hx => hx⟩, rfl⟩
  | b₁ :: r₁ =>
    rw [Call.bind_ok (kalloc_cons hb)]
    by_cases h1 : isErrValue b₁ = true
    · rw [if_pos h1]
      exact ⟨_, rfl, ⟨rfl, rfl, rfl, rfl, rfl, hmore b₁ _⟩, inUse_cons_error h1 _⟩
    rw [if_neg h1]
    rw [Bool.not_eq_true] at h1
    match r₁ with
    | [] =>
      rw [Call.bind_ok (kalloc_nil rfl), if_pos isErrValue_errToPtr, Call.bind_ok (kfree_ok List.mem_cons_self)]
      refine ⟨_, rfl, ⟨rfl, rfl, rfl, rfl, rfl, ?_⟩, ?_⟩
      · intro x hx
        show x ∈ (b₁ :: s.heap.live).erase b₁
        rwa [List.erase_cons_head]
      · show inUse ((b₁ :: s.heap.live).erase b₁) = _
        rw [List.erase_cons_head]
    | b₂ :: r₂ =>
      rw [Call.bind_ok (kalloc_cons rfl)]
      by_cases h2 : isErrValue b₂ = true
      · rw [if_pos h2, Call.bind_ok (kfree_ok (List.mem_cons_of_mem _ List.mem_cons_self))]
        refine ⟨_, rfl, ⟨rfl, rfl, rfl, rfl, rfl, ?_⟩, ?_⟩
        · intro x hx
          show x ∈ (b₂ :: b₁ :: s.heap.live).erase b₁
          rw [erase_second]
          exact hmore b₂ _ x hx
        · show inUse ((b₂ :: b₁ :: s.heap.live).erase b₁) = _
          rw [erase_second, inUse_cons_error h2]
      rw [if_neg h2]
      rw [Bool.not_eq_true] at h2
      match r₂ with
      | [] =>
        rw [Call.bind_ok (kalloc_nil rfl), if_pos isErrValue_errToPtr, Call.bind_ok (kfree_ok List.mem_cons_self),
          Call.bind_ok (kfree_ok (by
            show b₁ ∈ (b₂ :: b₁ :: s.heap.live).erase b₂
            rw [List.erase_cons_head]
            exact List.mem_cons_self))]
        refine ⟨_, rfl, ⟨rfl, rfl, rfl, rfl, rfl, ?_⟩, ?_⟩
        · intro x hx
          show x ∈ ((b₂ :: b₁ :: s.heap.live).erase b₂).erase b₁
          rwa [List.erase_cons_head, List.erase_cons_head]
        · show inUse (((b₂ :: b₁ :: s.heap.live).erase b₂).erase b₁) = _
          rw [List.erase_cons_head, List.erase_cons_head]
      | b₃ :: r₃ =>
        have h3 : isErrValue b₃ = true := by
          by_contra h3
          apply h
          rw [hb]
          refine ⟨by simp, ?_⟩
          simp only [List.take_succ_cons, List.take_zero, List.mem_cons, List.not_mem_nil, or_false]
          rintro b (rfl | rfl | rfl)
          · exact h1
          · exact h2
          · exact Bool.not_eq_true _ ▸ h3
        rw [Call.bind_ok (kalloc_cons rfl), if_pos h3,
          Call.bind_ok (kfree_ok (List.mem_cons_of_mem _ List.mem_cons_self)), Call.bind_ok (kfree_ok (by
            show b₁ ∈ (b₃ :: b₂ :: b₁ :: s.heap.live).erase b₂
            rw [erase_second]
            exact List.mem_cons_of_mem _ List.mem_cons_self))]
        refine ⟨_, rfl, ⟨rfl, rfl, rfl, rfl, rfl, ?_⟩, ?_⟩
        · intro x hx
          show x ∈ ((b₃ :: b₂ :: b₁ :: s.heap.live).erase b₂).erase b₁
          rw [erase_second, erase_second]
          exact hmore b₃ _ x hx
        · show inUse (((b₃ :: b₂ :: b₁ :: s.heap.live).erase b₂).erase b₁) = _
          rw [erase_second, erase_second, inUse_cons_error h3]

/-- `region_create` on a heap that gives it three blocks. -/
lemma regionCreate_serves {base size maxAllocations b₁ b₂ b₃ : Nat} {rest : List Nat}
    (hblocks : s.heap.blocks = b₁ :: b₂ :: b₃ :: rest) (h1 : isErrValue b₁ = false) (h2 : isErrValue b₂ = false)
    (h3 : isErrValue b₃ = false) : ∃ r s', regionCreate base size maxAllocations s = (.ok (.ok r), s') := by
  unfold regionCreate
  rw [Call.bind_ok (kalloc_cons hblocks), h1, if_neg Bool.false_ne_true, Call.bind_ok (kalloc_cons rfl), h2,
    if_neg Bool.false_ne_true, Call.bind_ok (kalloc_cons rfl), h3, if_neg Bool.false_ne_true]
  exact ⟨_, _, rfl⟩

/-- The frames that were taken are free again, each given back once, and no table or page that was in use
before has changed. -/
structure GaveBack (free₀ : List Nat) (s s' : Mm) : Prop where
  within : Within free₀ s s'
  frames : ∃ taken rest back, free₀ = taken ++ rest ∧ back.Perm taken ∧ PmmInv s' (back ++ rest) ∧
    s'.log.released = back ++ s.log.released

lemma HeapOnly.gaveBack (h : HeapOnly s s') (hpmm : PmmInv s free₀) : GaveBack free₀ s s' := by
  refine ⟨⟨h.hhdm, fun x _ => by rw [h.mem]⟩, [], free₀, [], rfl, List.Perm.refl _, ?_, h.released⟩
  exact hpmm.congr h.hhdm h.freeList (fun _ _ _ _ _ => by rw [h.mem])

lemma createTable_within (hf : f ∈ free₀) : Within free₀ s (createTable s f) := by
  refine ⟨rfl, ?_⟩
  intro x hx
  have hnot := hx f hf
  unfold InPage at hnot
  show ((s.mem.fill (f + s.hhdm) 4096 0).fill (f + s.hhdm) 4096 0) x = s.mem x
  rw [Mem.fill, if_neg hnot, Mem.fill, if_neg hnot]

/-- `address_space_create` without a frame for its table, or without four blocks. -/
lemma addressSpaceCreate_error (hpmm : PmmInv s free₀) (h : ¬(HasBlocks s ∧ free₀ ≠ [])) :
    ∃ s', addressSpaceCreate s = (.ok (.error .ENOMEM), s') ∧ GaveBack free₀ s s' ∧
      inUse s'.heap.live = inUse s.heap.live := by
  unfold addressSpaceCreate
  match hb : s.heap.blocks with
  | [] =>
    rw [Call.bind_ok (kalloc_nil hb), if_pos isErrValue_errToPtr]
    exact ⟨s, rfl, HeapOnly.gaveBack ⟨rfl, rfl, rfl, rfl, rfl, fun _ hx => hx⟩ hpmm, rfl⟩
  | b :: rest =>
    rw [Call.bind_ok (kalloc_cons hb)]
    by_cases h1 : isErrValue b = true
    · rw [if_pos h1]
      exact ⟨_, rfl, HeapOnly.gaveBack ⟨rfl, rfl, rfl, rfl, rfl, fun _ hx => List.mem_cons_of_mem _ hx⟩ hpmm,
        inUse_cons_error h1 _⟩
    rw [if_neg h1]
    rw [Bool.not_eq_true] at h1
    have hpmm₁ : PmmInv (takeBlock s b rest) free₀ := hpmm.congr rfl rfl (fun _ _ _ _ _ => rfl)
    cases free₀ with
    | nil =>
      have hkfree := kfree_ok (s := noFrame (takeBlock s b rest)) (b := b) List.mem_cons_self
      rw [Call.bind_ok (pagingCreateTable_nil hpmm₁), if_pos isErrValue_errToPtr]
      refine ⟨giveBlock (noFrame (takeBlock s b rest)) b, Call.bind_ok hkfree,
        ⟨⟨rfl, fun _ _ => rfl⟩, [], [], [], rfl, List.Perm.refl _, ?_, rfl⟩, ?_⟩
      · exact hpmm.congr rfl rfl (fun _ _ _ _ _ => rfl)
      · show inUse ((b :: s.heap.live).erase b) = _
        rw [List.erase_cons_head]
    | cons f free =>
      have htable := hpmm₁.createTable
      have hnot : ¬isErrValue (f + (takeBlock s b rest).hhdm) = true := by
        have h2 := htable.table_not_isErr (l := 0) (k := 0) rfl
        have h3 : isErrValue (f + (takeBlock s b rest).hhdm) = false := h2
        rw [h3]
        decide
      rw [Call.bind_ok (pagingCreateTable_cons hpmm₁), if_neg hnot]
      have hshort : ¬(3 ≤ (createTable (takeBlock s b rest) f).heap.blocks.length ∧
          ∀ x ∈ (createTable (takeBlock s b rest) f).heap.blocks.take 3, isErrValue x = false) := by
        rintro ⟨hlen, hok⟩
        have hlen' : 3 ≤ rest.length := hlen
        have hok' : ∀ x ∈ rest.take 3, isErrValue x = false := hok
        refine h ⟨⟨by rw [hb, List.length_cons]; omega, ?_⟩, by simp⟩
        rw [hb, List.take_succ_cons]
        intro x hx
        rcases List.mem_cons.mp hx with rfl | hx
        · exact h1
        · exact hok' x hx
      obtain ⟨s₂, hrun, honly, hblocks₂⟩ : ∃ s₂, regionCreate USER_VM_RANGE_BASE USER_VM_RANGE_SIZE
          CONFIG_VM_MAX_USER_ALLOCATIONS (createTable (takeBlock s b rest) f) = (.ok (.error .ENOMEM), s₂) ∧
          HeapOnly (createTable (takeBlock s b rest) f) s₂ ∧
          inUse s₂.heap.live = inUse (b :: s.heap.live) := regionCreate_error hshort
      have htable₂ : TableInv s₂ f (emptyTree f) free := htable.congr honly.hhdm honly.freeList honly.mem
      obtain ⟨s₃, freed, hdestroy, hfreed, hmem, hkeep⟩ := htable₂.destroy (fun _ => rfl)
      have hhdm₂ : s₂.hhdm = s.hhdm := honly.hhdm
      have hdestroy' : pagingDestroyTable (f + (takeBlock s b rest).hhdm) s₂ = (.ok (), s₃) := by
        rw [hhdm₂] at hdestroy
        exact hdestroy
      have hlive : b ∈ s₃.heap.live := by
        rw [hfreed.heap]
        exact honly.live b List.mem_cons_self
      obtain rfl : freed = [f] := by
        apply List.perm_singleton.mp
        rw [List.perm_ext_iff_of_nodup (List.nodup_append.mp hfreed.pmm.nodup).1 (List.nodup_singleton f)]
        intro x
        rw [hmem, emptyTree_isTable, List.mem_singleton]
      rw [Call.bind_ok hrun]
      dsimp only
      rw [Call.bind_ok hdestroy', Call.bind_ok (kfree_ok hlive)]
      refine ⟨giveBlock s₃ b, rfl, ⟨?_, [f], free, [f], rfl, List.Perm.refl _, ?_, ?_⟩, ?_⟩
      · have hw : Within (f :: free) (takeBlock s b rest) (createTable (takeBlock s b rest) f) :=
          createTable_within List.mem_cons_self
        refine Within.trans ⟨hw.hhdm, hw.mem⟩ ⟨hfreed.hhdm.trans hhdm₂, ?_⟩
        intro x hx
        rw [← honly.mem]
        apply hkeep
        intro g hg
        rw [List.mem_singleton.mp hg, hhdm₂]
        exact hx f List.mem_cons_self
      · exact hfreed.pmm.congr rfl rfl (fun _ _ _ _ _ => rfl)
      · show s₃.log.released = _
        rw [hfreed.log]
        show [f] ++ s₂.log.released = _
        rw [honly.released]
        rfl
      · show inUse (s₃.heap.live.erase b) = _
        rw [inUse_erase, hfreed.heap, hblocks₂, inUse_cons h1, List.erase_cons_head]

/-- `address_space_create` with a frame and four blocks. -/
lemma addressSpaceCreate_serves (hpmm : PmmInv s (f :: free)) (hb : HasBlocks s) :
    ∃ as s', addressSpaceCreate s = (.ok (.ok as), s') := by
  obtain ⟨b₁, b₂, b₃, b₄, rest, hblocks, h1, h2, h3, h4⟩ := hb.cons
  have hpmm₁ : PmmInv (takeBlock s b₁ (b₂ :: b₃ :: b₄ :: rest)) (f :: free) := hpmm.congr rfl rfl (fun _ _ _ _ _ => rfl)
  have htable : isErrValue (f + (takeBlock s b₁ (b₂ :: b₃ :: b₄ :: rest)).hhdm) = false :=
    hpmm₁.createTable.table_not_isErr (l := 0) (k := 0) rfl
  unfold addressSpaceCreate
  rw [Call.bind_ok (kalloc_cons hblocks), h1, if_neg Bool.false_ne_true, Call.bind_ok (pagingCreateTable_cons hpmm₁),
    htable, if_neg Bool.false_ne_true]
  obtain ⟨r, s₁, hrun⟩ : ∃ r s₁, regionCreate USER_VM_RANGE_BASE USER_VM_RANGE_SIZE CONFIG_VM_MAX_USER_ALLOCATIONS
      (createTable (takeBlock s b₁ (b₂ :: b₃ :: b₄ :: rest)) f) = (.ok (.ok r), s₁) := regionCreate_serves rfl h2 h3 h4
  rw [Call.bind_ok hrun]
  exact ⟨_, _, rfl⟩

end Create

/-- A new region that is to become a copy of `region`. -/
def blankRegion (bytes : Mem) (region : AllocRegion) : AllocRegion :=
  ⟨⟨bytes, region.allocator.pageCount, region.allocator.pool⟩, List.replicate region.allocations.length ⟨0, 0⟩⟩

/-- `region_copy` to a new region of the same pool. -/
lemma regionCopy_alike (bytes : Mem) (hcount : region.allocator.pageCount * 4096 < 2 ^ 64) :
    ∃ region', regionCopy false (blankRegion bytes region) region = .ok (.EOK, region') ∧ Alike region region' := by
  have hle : region.allocator.pageCount ≤ (blankRegion bytes region).allocator.pageCount := Nat.le_refl _
  obtain ⟨alloc', hcopy, hpool', hcount', hbits⟩ := bitmapCopy_ok hle hcount
  have hlen : ¬(blankRegion bytes region).allocations.length < region.allocations.length := by simp [blankRegion]
  have hdelta : wsub (blankRegion bytes region).allocator.pool region.allocator.pool = 0 := by
    show (region.allocator.pool + wordSize - region.allocator.pool) % wordSize = 0
    rw [Nat.add_sub_cancel_left, Nat.mod_self]
  have htable : region.allocations ++ (blankRegion bytes region).allocations.drop region.allocations.length =
      region.allocations := by simp [blankRegion]
  refine ⟨⟨alloc', region.allocations⟩, ?_, ⟨hcount', hpool', ?_⟩, rfl⟩
  · unfold regionCopy
    rw [if_neg Bool.false_ne_true, if_neg hlen, if_neg (Nat.not_lt.mpr hle), hcopy, ok_bind]
    dsimp only
    rw [if_neg (not_not.mpr rfl), if_pos hdelta, htable]
  · intro q hq
    have hq' : q < (blankRegion bytes region).allocator.pageCount := hq
    rw [hbits q (page_lt_bitCount hq'), decide_eq_true hq, Bool.true_and]

/-- An address space that is to be copied: the pages of all of its allocations are mapped, and no table or
page of it lies in a free frame. -/
structure ForkSource (s : Mm) (src : AddressSpace) (root : Nat) (T : Tree) (free : List Nat) : Prop where
  inv : SourceInv s root T free
  apart : ∀ {q l}, T.leaf q = some l → ¬T.IsTable l.pa
  addr : src.table = root + s.hhdm
  region : PageRegion src.region
  pool : src.region.allocator.pool = USER_VM_RANGE_BASE
  count : src.region.allocator.pageCount = USER_VM_RANGE_SIZE / PAGE_SIZE
  slots : src.region.allocations.length = CONFIG_VM_MAX_USER_ALLOCATIONS
  mapped : ∀ q, Owned src.region q → T.leaf q ≠ none

/-- `dst`, with the tree `T`, is a copy of the space `src`, as it was in `s`: it maps the pages of the
allocations of `src`, and its tables and pages are frames of their own, which were free. -/
structure ForkCopy (s : Mm) (src : AddressSpace) (S : Tree) (free : List Nat) (dst : AddressSpace) (s' : Mm)
    (root : Nat) (T : Tree) (free' : List Nat) : Prop where
  table : TableInv s' root T free'
  addr : dst.table = root + s'.hhdm
  within : Within free s s'
  copied : ∀ q, Owned src.region q → ∃ l l', S.leaf q = some l ∧ T.leaf q = some l' ∧ l'.attrs = l.attrs ∧
    ∀ j < 4096, s'.mem (l'.pa + s'.hhdm + j) = s.mem (l.pa + s.hhdm + j)
  only : ∀ q, T.leaf q ≠ none → Owned src.region q
  inj : ∀ {q q' l l'}, T.leaf q = some l → T.leaf q' = some l' → l.pa = l'.pa → q = q'
  apart : ∀ {q l}, T.leaf q = some l → ¬T.IsTable l.pa
  fresh : ∀ {f}, T.Uses f → f ∈ free ∧ f ∉ free'
  left : ∀ {f}, f ∈ free' → f ∈ free
  region : Alike src.region dst.region

section Failures

lemma mono_destroyTable {recurse : Nat → Kernel Unit} (h : ∀ table, Call.Mono m (recurse table)) (table : Nat) :
    Call.Mono m (destroyTable recurse table) := by
  apply Call.mono_bind
  · apply Call.mono_each
    intro i
    apply Call.mono_bind (mono_readWord _)
    intro raw
    apply Call.mono_ite _ (Call.mono_pure _)
    apply Call.mono_ite _ (mono_writeWord _ _)
    apply Call.mono_bind (mono_pmmPhysToVirt _)
    intro next
    exact Call.mono_bind (h next) (fun _ => mono_writeWord _ _)
  · intro _
    exact Call.mono_bind (mono_pmmVirtToPhys _) (fun _ => mono_pmmFree _)

lemma mono_pagingDestroyTable (table : Nat) : Call.Mono m (pagingDestroyTable table) := by
  have hrec : ∀ below table, Call.Mono m (tableDescriptorDestroyRecursive below table) := by
    intro below
    induction below with
    | zero => exact mono_destroyTable (fun _ => Call.mono_pure _)
    | succ below ih => exact mono_destroyTable ih
  exact hrec 4 table

lemma mono_kfree (ptr : Nat) : Call.Mono failures (kfree ptr) :=
  Call.mono_bind (Call.mono_read _)
    (fun _ => Call.mono_ite (Call.mono_update (fun _ => Nat.le_refl _)) (Call.mono_halt _))

lemma mono_destroyAllocations (table : Nat) (slots : List Nat) (region : AllocRegion) :
    Call.Mono m (destroyAllocations table slots region) := by
  induction slots generalizing region with
  | nil => exact Call.mono_pure _
  | cons i rest ih => exact Call.mono_ite (Call.mono_bind (mono_vmFree _ _ _) (fun _ => ih _)) (ih _)

lemma mono_addressSpaceDestroy (as : AddressSpace) : Call.Mono failures (addressSpaceDestroy as) := by
  apply Call.mono_bind (mono_destroyAllocations _ _ _)
  intro region
  apply Call.mono_bind
  · exact Call.mono_bind (mono_kfree _) (fun _ => Call.mono_bind (mono_kfree _) (fun _ => mono_kfree _))
  · intro _
    exact Call.mono_bind (mono_pagingDestroyTable _) (fun _ => mono_kfree _)

lemma mono_copyCleanup (dst : Nat) (pages : List Nat) (n : Nat) : Call.Mono m (copyCleanup dst pages n) := by
  induction pages generalizing n with
  | nil => exact Call.mono_pure _
  | cons va rest ih =>
    cases n with
    | zero => exact Call.mono_pure _
    | succ n =>
      apply Call.mono_bind (mono_pagingLookup _ _)
      intro pa
      exact Call.mono_ite (Call.mono_bind (mono_pmmFree _) (fun _ => ih _)) (ih _)

/-- The end of `address_space_copy`, behind its loop. -/
def afterCopy (dst : AddressSpace) : Nat × Option Nat → Kernel Nat
  | (ret, none) => return ret
  | (ret, some mappedPages) => do
    copyCleanup dst.table (pageAddresses dst.region) mappedPages
    return ret

/-- The end of `address_space_create_from`, behind `address_space_copy`. -/
def forkEnd (dst : AddressSpace) (ret : Nat) : Kernel (Except Nat AddressSpace) := do
  if ret ≠ 0 then
    addressSpaceDestroy dst
    return .error ret
  return .ok dst

lemma mono_afterCopy (dst : AddressSpace) (r : Nat × Option Nat) : Call.Mono m (afterCopy dst r) := by
  obtain ⟨ret, _ | n⟩ := r
  · exact Call.mono_pure _
  · exact Call.mono_bind (mono_copyCleanup _ _ _) (fun _ => Call.mono_pure _)

lemma mono_forkEnd (dst : AddressSpace) (ret : Nat) : Call.Mono failures (forkEnd dst ret) :=
  Call.mono_ite (Call.mono_bind (mono_addressSpaceDestroy _) (fun _ => Call.mono_pure _)) (Call.mono_pure _)

lemma addressSpaceCopy_eq (dst src : AddressSpace) :
    addressSpaceCopy dst src = copyPages dst.table src.table (pageAddresses src.region) 0 0 >>= afterCopy dst := rfl

end Failures

/-- A new table is the copy of no page. -/
lemma CopyInv.create (hpmm : PmmInv s (root :: free)) (heap : Heap) :
    CopyInv s S (root :: free) root ∅ { createTable s root with heap := heap } (emptyTree root) [root] free := by
  refine ⟨hpmm.createTable.congr rfl rfl rfl, ?_, List.Perm.refl _, ?_, ?_, ?_, ?_, rfl, ?_, ?_⟩
  · have hw : Within (root :: free) s (createTable s root) := createTable_within List.mem_cons_self
    exact ⟨hw.hhdm, hw.mem⟩
  · intro f
    rw [List.mem_singleton, Tree.Uses, emptyTree_isTable]
    simp [emptyTree]
  · intro _ _ _ _ h
    cases h
  · intro _ _ h
    cases h
  · intro l k
    simp [emptyTree]
  · intro q
    simp [emptyTree]
  · intro _ _ h
    cases h

/-- The pages of a space that are copied. -/
def copiedPages (src : AddressSpace) : Finset Nat := pageSet (pageAddresses src.region)

section Fork

variable (h : ForkSource s src rootS S free)
include h

/-- The call up to the loop of `address_space_copy`. -/
lemma ForkSource.start (hb : HasBlocks s) (hfree : free = root :: free') :
    ∃ (dst : AddressSpace) (s₁ : Mm), dst.table = root + s.hhdm ∧ Alike src.region dst.region ∧
      addressSpaceCreateFrom src s =
        ((copyPages (root + s.hhdm) (rootS + s.hhdm) (pageAddresses src.region) 0 0 >>= afterCopy dst) >>=
          forkEnd dst) s₁ ∧
      CopyInv s S free root ∅ s₁ (emptyTree root) [root] free' ∧ failures s₁ = failures s := by
  subst hfree
  have hpmm := h.inv.table.pmm
  obtain ⟨as, s₁, hcreate⟩ := addressSpaceCreate_serves hpmm hb
  obtain ⟨root', free₁, rest, hcons, htable, -, hregion, hs₁⟩ := addressSpaceCreate_ok hpmm hcreate
  obtain ⟨rfl, rfl⟩ := List.cons.inj hcons
  have hblank : as.region = blankRegion as.region.allocator.bitmap src.region := by
    rw [hregion, blankRegion, h.pool, h.count, h.slots]
  obtain ⟨region', hcopy, halike⟩ := regionCopy_alike as.region.allocator.bitmap
    (show src.region.allocator.pageCount * 4096 < 2 ^ 64 by rw [h.count]; decide)
  rw [← hblank] at hcopy
  refine ⟨as.setRegion region', s₁, htable, halike, ?_, by rw [hs₁]; exact CopyInv.create hpmm _, by rw [hs₁]; rfl⟩
  have hlift : ∀ t : Mm, (Call.lift (regionCopy false as.region src.region) :
    Kernel _) t = (.ok (.EOK, region'), t) := by
    intro t
    rw [Call.lift_apply, hcopy]
  unfold addressSpaceCreateFrom
  rw [Call.bind_ok hcreate]
  dsimp only
  rw [Call.bind_ok (hlift _)]
  dsimp only
  rw [if_neg (not_not.mpr rfl), addressSpaceCopy_eq, h.addr]
  show (copyPages as.table _ _ 0 0 >>= _ >>= _) _ = _
  rw [htable]
  rfl

/-- The frames run out, or the space is copied. -/
lemma ForkSource.copies (hb : HasBlocks s) (hne : free ≠ []) :
    (free.length < framesFor (copiedPages src) ∧ failures s < failures (addressSpaceCreateFrom src s).2) ∨
    ∃ dst s' root T free', addressSpaceCreateFrom src s = (.ok (.ok dst), s') ∧
      ForkCopy s src S free dst s' root T free' ∧ failures s' = failures s := by
  obtain ⟨root, free', hfree⟩ := List.exists_cons_of_ne_nil hne
  obtain ⟨dst, s₁, htable, halike, heq, hstart, hsame⟩ := h.start hb hfree
  rw [heq]
  rcases hstart.run h.inv (h.region.copyable h.mapped) (fun _ _ => Finset.notMem_empty _) 0 with
    ⟨hshort, hfail⟩ | ⟨s', T, owned, free₁, hrun, hcopy, hcopying⟩
  · left
    rw [Finset.empty_union] at hshort
    refine ⟨hshort, ?_⟩
    rw [← hsame]
    exact Call.lt_bind (mono_forkEnd _) (Call.lt_bind (mono_afterCopy _) hfail)
  · right
    rw [Finset.empty_union] at hcopy
    have hhdm := hcopy.within.hhdm
    refine ⟨dst, s', root, T, free₁, ?_, ⟨hcopy.table, ?_, hcopy.within, ?_, ?_, hcopy.inj, hcopy.apart, ?_,
      fun hf => hcopy.free_start hf, halike⟩, ?_⟩
    · have hafter : (copyPages (root + s.hhdm) (rootS + s.hhdm) (pageAddresses src.region) 0 0 >>= afterCopy dst) s₁ =
          (.ok 0, s') := Call.bind_ok hrun
      rw [Call.bind_ok hafter, forkEnd, if_neg (not_not.mpr rfl)]
      rfl
    · rw [htable, hhdm]
    · intro q hq
      obtain ⟨l', hl'⟩ := Option.ne_none_iff_exists'.mp ((hcopy.pages q).mpr (h.region.mem_pageSet.mpr hq))
      obtain ⟨l, hl, hattrs, hbytes⟩ := hcopy.copied hl'
      rw [hhdm]
      exact ⟨l, l', hl, hl', hattrs, hbytes⟩
    · exact fun q hq => h.region.mem_pageSet.mp ((hcopy.pages q).mp hq)
    · exact fun hf => ⟨hcopy.owned_start hf, fun hfree' => hcopy.not_used h.inv hfree' hf⟩
    · rw [failures, hcopying.log]
      exact hsame

end Fork

end KaworuOS.Proofs
