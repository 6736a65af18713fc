import KaworuOS.Proofs.FreelistSteps
import Mathlib.Algebra.Order.BigOperators.Group.Finset
import Mathlib.Logic.Relation

/-!
# Runs of the kernel heap

A run starts from `freelist_init` on a zeroed pool and goes on with allocations, frees of live
allocations, new pools, and writes of the owners into their allocations. The invariant is that
free and live blocks together cover the addresses of the pools, each exactly once.
-/

namespace KaworuOS.Proofs
open Lib

/-- A live allocation: the address of its header, the size of its block and the number of bytes
that its owner asked for. -/
structure Live where
  entry : Nat
  size : Nat
  req : Nat
  deriving DecidableEq, Repr

/-- The block of an allocation, its header included. -/
def Live.block (a : Live) : Block := ⟨a.entry, a.size⟩

/-- The heap together with what a run has handed out and been given. -/
structure HeapState where
  mem : Mem
  fl : FreeList
  live : List Live
  pools : List Block

/-- The blocks of the live allocations. -/
def HeapState.liveBlocks (st : HeapState) : List Block := st.live.map Live.block

/-- The state after `freelist_init`. -/
def heapStart (mem : Mem) (pool size : Nat) : HeapState :=
  ⟨(freelistInit mem pool size).1, (freelistInit mem pool size).2, [], [⟨pool, size⟩]⟩

/-- One step of a run in which no `ASSERT` fires. -/
inductive HeapStep : HeapState → HeapState → Prop
  | alloc {st : HeapState} {s ptr : Nat} {mem' : Mem} {fl' : FreeList} (hs : 1 ≤ s)
      (hs' : s + 16 < 2 ^ 64) (h : freelistAlloc st.mem st.fl s = .ok (.ok ptr, mem', fl')) :
      HeapStep st { st with
        mem := mem', fl := fl', live := ⟨ptr - 16, blockSize mem' (ptr - 16), s⟩ :: st.live }
  | allocFail {st : HeapState} {s : Nat} {e : Errno} {mem' : Mem} {fl' : FreeList} (hs : 1 ≤ s)
      (hs' : s + 16 < 2 ^ 64) (h : freelistAlloc st.mem st.fl s = .ok (.error e, mem', fl')) :
      HeapStep st { st with mem := mem', fl := fl' }
  | free {st : HeapState} {a : Live} {mem' : Mem} {fl' : FreeList} (ha : a ∈ st.live)
      (h : freelistFree st.mem st.fl (a.entry + 16) = .ok (mem', fl')) :
      HeapStep st { st with mem := mem', fl := fl', live := st.live.erase a }
  | addRegion {st : HeapState} {p : Block} {mem' : Mem} {fl' : FreeList} (hp : 16 ≤ p.size)
      (hend : p.addr + p.size ≤ 2 ^ 64) (hdisj : ∀ q ∈ st.pools, p.Disj q)
      (h : freelistAddRegion st.mem st.fl p.addr p.size = .ok (mem', fl')) :
      HeapStep st { st with mem := mem', fl := fl', pools := p :: st.pools }
  | write {st : HeapState} {a : Live} {x : Nat} (v : UInt8) (ha : a ∈ st.live)
      (h1 : a.entry + 16 ≤ x) (h2 : x < a.entry + 16 + a.req) :
      HeapStep st { st with mem := st.mem.set x v }

/-- The invariant of a run, with the list of free blocks. -/
structure HeapInv (st : HeapState) (free : List Block) : Prop where
  rep : FreeRep st.mem st.fl.head free
  gapped : Gapped free
  headers : ∀ a ∈ st.live, blockSize st.mem a.entry = a.size
  room : ∀ a ∈ st.live, a.req + 16 ≤ a.size
  covers : ∀ x, cov free x + cov st.liveBlocks x = cov st.pools x
  once : ∀ x, cov st.pools x ≤ 1
  pools : ∀ p ∈ st.pools, GoodBlock p
  capacity : st.fl.capacity = totalSize st.pools

lemma HeapInv.mem_pool {st : HeapState} {free : List Block} (h : HeapInv st free) {b : Block}
    (hb : b ∈ free ++ st.liveBlocks) {x : Nat} (hx : b.Has x) : ∃ p ∈ st.pools, p.Has x := by
  apply exists_of_cov_pos
  have h1 := cov_pos hb hx
  rw [cov_append, h.covers] at h1
  exact h1

lemma HeapInv.size_live {st : HeapState} {free : List Block} (h : HeapInv st free) {b : Block}
    (hb : b ∈ st.liveBlocks) : 16 ≤ b.size := by
  obtain ⟨a, ha, rfl⟩ := List.mem_map.mp hb
  have h1 := h.room a ha
  simp only [Live.block]
  omega

lemma HeapInv.size_pos {st : HeapState} {free : List Block} (h : HeapInv st free) {b : Block}
    (hb : b ∈ free ++ st.liveBlocks) : 16 ≤ b.size := by
  rcases List.mem_append.mp hb with hb | hb
  · exact (h.rep.good b hb).header
  · exact h.size_live hb

lemma HeapInv.good_live {st : HeapState} {free : List Block} (h : HeapInv st free) {b : Block}
    (hb : b ∈ st.liveBlocks) : GoodBlock b := by
  have h16 := h.size_live hb
  have hmem : b ∈ free ++ st.liveBlocks := by simp [hb]
  obtain ⟨p, hp, hp1⟩ := h.mem_pool hmem (x := b.addr) ⟨by omega, by omega⟩
  obtain ⟨q, hq, hq1⟩ := h.mem_pool hmem (x := b.addr + b.size - 1) ⟨by omega, by omega⟩
  have h1 := (h.pools p hp).positive
  have h2 := (h.pools q hq).bound
  unfold Block.Has at hp1 hq1
  exact ⟨h16, by omega, by omega⟩

lemma HeapInv.disj_free_live {st : HeapState} {free : List Block} (h : HeapInv st free)
    {b c : Block} (hb : b ∈ free) (hc : c ∈ st.liveBlocks) : b.Disj c :=
  disj_of_cov_add h.covers h.once hb hc (by have := (h.rep.good b hb).header; omega)
    (by have := h.size_live hc; omega)

lemma HeapInv.pairwise {st : HeapState} {free : List Block} (h : HeapInv st free) :
    (free ++ st.liveBlocks).Pairwise Block.Disj := by
  apply pairwise_disj_of_cov
  · intro x
    rw [cov_append, h.covers]
    exact h.once x
  · intro b hb
    have h1 := h.size_pos hb
    omega

lemma HeapInv.total {st : HeapState} {free : List Block} (h : HeapInv st free) :
    totalSize free + totalSize st.liveBlocks = totalSize st.pools := by
  have hbound : ∀ b ∈ free ++ st.liveBlocks, b.addr + b.size ≤ 2 ^ 64 := by
    intro b hb
    rcases List.mem_append.mp hb with hb | hb
    · exact (h.rep.good b hb).bound
    · exact (h.good_live hb).bound
  rw [← totalSize_append, totalSize_eq_sum_cov hbound,
    totalSize_eq_sum_cov (fun p hp => (h.pools p hp).bound)]
  apply Finset.sum_congr rfl
  intro x _
  rw [cov_append, h.covers]

lemma sum_lt_of_le_one {f : Nat → Nat} {n : Nat} (hn : 0 < n) (h0 : f 0 = 0) (h1 : ∀ x, f x ≤ 1) :
    ∑ x ∈ Finset.range n, f x < n := by
  cases n with
  | zero => omega
  | succ n =>
    have hsum : ∑ x ∈ Finset.range n, f (x + 1) ≤ ∑ _x ∈ Finset.range n, 1 :=
      Finset.sum_le_sum (fun x _ => h1 (x + 1))
    rw [Finset.sum_const, Finset.card_range, Nat.nsmul_eq_mul, Nat.mul_one] at hsum
    rw [Finset.sum_range_succ', h0]
    omega

lemma totalSize_pools_lt {pools : List Block} (hg : ∀ p ∈ pools, GoodBlock p)
    (h1 : ∀ x, cov pools x ≤ 1) : totalSize pools < 2 ^ 64 := by
  rw [totalSize_eq_sum_cov (fun p hp => (hg p hp).bound)]
  apply sum_lt_of_le_one (by omega) ?_ h1
  by_contra hne
  obtain ⟨p, hp, hx⟩ := exists_of_cov_pos (Nat.pos_of_ne_zero hne)
  have h2 := (hg p hp).positive
  unfold Block.Has at hx
  omega

lemma heapStart_inv {mem : Mem} {pool size : Nat} (hpool : 0 < pool) (hsize : 16 ≤ size)
    (hend : pool + size ≤ 2 ^ 64) (hzero : ∀ x, pool ≤ x → x < pool + size → mem x = 0) :
    HeapInv (heapStart mem pool size) [⟨pool, size⟩] := by
  have hgood : GoodBlock ⟨pool, size⟩ := ⟨hsize, hpool, hend⟩
  have hnext : blockNext (setBlockSize mem pool size) pool = 0 := by
    rw [blockNext_setBlockSize_same]
    exact Mem.loadBytes_eq_zero (fun x h1 h2 => hzero x (by omega) (by omega))
  refine ⟨⟨⟨rfl, by simp only; omega, hnext⟩, ?_, by simpa using hgood, by simp⟩, by simp [Gapped],
    by simp [heapStart], by simp [heapStart], ?_, ?_, by simpa [heapStart] using hgood, by
      simp [heapStart, freelistInit]⟩
  · intro b hb
    rw [List.mem_singleton.mp hb]
    exact blockSize_setBlockSize mem pool (by omega)
  · intro x
    simp [heapStart, HeapState.liveBlocks]
  · intro x
    simp only [heapStart, cov_cons, cov_nil]
    split <;> omega

lemma HeapInv.alloc {st : HeapState} {free : List Block} (h : HeapInv st free) {s ptr : Nat}
    {mem' : Mem} {fl' : FreeList} {free' : List Block} {b : Block}
    (ha : Allocated st.mem st.fl free s ptr mem' fl' free' b) :
    HeapInv { st with mem := mem', fl := fl', live := ⟨ptr - 16, blockSize mem' (ptr - 16), s⟩ :: st.live }
      free' := by
  have hentry : ptr - 16 = b.addr := by have := ha.ptr_eq; omega
  rw [hentry, ha.header]
  have hsame : ∀ a ∈ st.live, SameHeader st.mem mem' a.entry := by
    intro a hmem
    apply ha.keeps
    intro c hc
    have hb : a.block ∈ st.liveBlocks := List.mem_map_of_mem hmem
    have h1 := h.disj_free_live hc hb
    have h2 := h.size_live hb
    unfold Block.Disj at h1
    simp only [Live.block] at h1 h2
    omega
  refine ⟨ha.rep, ha.gapped h.gapped, ?_, ?_, ?_, h.once, h.pools, ha.capacity.trans h.capacity⟩
  · intro a hmem
    rcases List.mem_cons.mp hmem with rfl | hmem
    · exact ha.header
    · rw [(hsame a hmem).size, h.headers a hmem]
  · intro a hmem
    rcases List.mem_cons.mp hmem with rfl | hmem
    · exact ha.room
    · exact h.room a hmem
  · intro x
    have e1 := ha.covers x
    have e2 := h.covers x
    have e3 : cov (b :: st.liveBlocks) x = cov [b] x + cov st.liveBlocks x := cov_cons_add b _ x
    change cov free' x + cov (b :: st.liveBlocks) x = cov st.pools x
    omega

lemma Inserted.live_header {mem mem' : Mem} {fl fl' : FreeList} {l l' : List Block} {b : Block}
    (hi : Inserted mem fl l b mem' fl' l') (hl : ∀ c ∈ l, 16 ≤ c.size) (hb : 16 ≤ b.size) {c : Block}
    (hc : 16 ≤ c.size) (hcl : ∀ d ∈ l, d.Disj c) (hcb : b.Disj c) : SameHeader mem mem' c.addr := by
  apply hi.keeps
  intro d hd
  unfold Block.Disj at hcl hcb
  rcases List.mem_cons.mp hd with rfl | hd
  · omega
  · have h1 := hcl d hd
    have h2 := hl d hd
    omega

lemma HeapInv.head_ne_zero {st : HeapState} {free : List Block} (h : HeapInv st free)
    (hne : free ≠ []) : st.fl.head ≠ 0 := by
  rw [h.rep.head_eq]
  cases free with
  | nil => exact absurd rfl hne
  | cons b l =>
    have h1 := (h.rep.good b (by simp)).positive
    simp only [List.map_cons, firstOf_cons]
    omega

lemma HeapInv.free_ne_nil {st : HeapState} {free : List Block} (h : HeapInv st free)
    (hhead : st.fl.head ≠ 0) : free ≠ [] := by
  rintro rfl
  exact hhead h.rep.head_eq

lemma HeapInv.alloc_returns {st : HeapState} {free : List Block} (h : HeapInv st free)
    (hhead : st.fl.head ≠ 0) {s : Nat} (hs : 1 ≤ s) (hs' : s + 16 < 2 ^ 64) :
    ∃ r, freelistAlloc st.mem st.fl s = .ok r := by
  rcases freelistAlloc_spec h.rep (h.free_ne_nil hhead) hs hs' with
    ⟨hfail, -⟩ | ⟨_, _, _, _, _, _, _, -, -, -, -, hok, -⟩
  · exact ⟨_, hfail⟩
  · exact ⟨_, hok⟩

lemma HeapInv.entry_eq {st : HeapState} {free : List Block} (h : HeapInv st free) {a : Live}
    (ha : a ∈ st.live) : wsub (a.entry + 16) entrySize = a.entry := by
  have hgood := h.good_live (List.mem_map_of_mem ha)
  have h1 := hgood.bound
  have h2 := hgood.header
  simp only [Live.block] at h1 h2
  unfold wsub entrySize wordSize
  omega

lemma HeapInv.free {st : HeapState} {free : List Block} (h : HeapInv st free)
    (hhead : st.fl.head ≠ 0) {a : Live} (ha : a ∈ st.live) :
    ∃ mem' fl' free', freelistFree st.mem st.fl (a.entry + 16) = .ok (mem', fl') ∧
      HeapInv { st with mem := mem', fl := fl', live := st.live.erase a } free' := by
  have hblock : a.block ∈ st.liveBlocks := List.mem_map_of_mem ha
  have hgood := h.good_live hblock
  have hperm : st.liveBlocks.Perm (a.block :: (st.live.erase a).map Live.block) :=
    (List.perm_cons_erase ha).map Live.block
  obtain ⟨mem', fl', free', hins, hi⟩ := insertBlock_spec h.rep h.gapped hgood (h.headers a ha)
    (fun c hc => (h.disj_free_live hc hblock).symm)
  have hcall : freelistFree st.mem st.fl (a.entry + 16) = .ok (mem', fl') := by
    unfold freelistFree
    rw [if_neg hhead, if_neg (by omega), h.entry_eq ha]
    exact hins
  have hpair := (h.pairwise.sublist (List.sublist_append_right free st.liveBlocks))
  have hpair' := (hperm.pairwise_iff (fun hbc => Block.Disj.symm hbc)).mp hpair
  have hsub : ∀ c ∈ st.live.erase a, c ∈ st.live := fun c hc => List.mem_of_mem_erase hc
  refine ⟨mem', fl', free', hcall, hi.rep, hi.gapped, ?_, fun c hc => h.room c (hsub c hc), ?_, h.once,
    h.pools, hi.capacity.trans h.capacity⟩
  · intro c hc
    have hcb : c.block ∈ st.liveBlocks := List.mem_map_of_mem (hsub c hc)
    have hsame : SameHeader st.mem mem' c.block.addr :=
      hi.live_header (fun d hd => (h.rep.good d hd).header) hgood.header (h.size_live hcb)
        (fun d hd => h.disj_free_live hd hcb)
        ((List.pairwise_cons.mp hpair').1 c.block (List.mem_map_of_mem hc))
    exact hsame.size.trans (h.headers c (hsub c hc))
  · intro x
    have e1 := hi.covers x
    have e2 := h.covers x
    have e3 := cov_perm hperm x
    rw [cov_cons_add] at e3
    change cov free' x + cov ((st.live.erase a).map Live.block) x = cov st.pools x
    omega

lemma HeapInv.addRegion {st : HeapState} {free : List Block} (h : HeapInv st free) {p : Block}
    (hp0 : p.addr ≠ 0) (hp : 16 ≤ p.size) (hend : p.addr + p.size ≤ 2 ^ 64)
    (hdisj : ∀ q ∈ st.pools, p.Disj q) :
    ∃ mem' fl' free', freelistAddRegion st.mem st.fl p.addr p.size = .ok (mem', fl') ∧
      HeapInv { st with mem := mem', fl := fl', pools := p :: st.pools } free' := by
  have hgood : GoodBlock p := ⟨hp, by omega, hend⟩
  have hout : ∀ c ∈ free ++ st.liveBlocks, p.Disj c := by
    intro c hc
    have h16 := h.size_pos hc
    apply disj_of_cov (by omega) (by omega)
    intro x hpx hcx
    obtain ⟨q, hq, hqx⟩ := h.mem_pool hc hcx
    have h1 := hdisj q hq
    unfold Block.Disj at h1
    unfold Block.Has at hpx hqx
    omega
  have hpools : ∀ q ∈ p :: st.pools, GoodBlock q := by
    intro q hq
    rcases List.mem_cons.mp hq with rfl | hq
    · exact hgood
    · exact h.pools q hq
  have honce : ∀ x, cov (p :: st.pools) x ≤ 1 := by
    intro x
    rw [cov_cons]
    by_cases hpx : p.Has x
    · have h0 : cov st.pools x = 0 := by
        by_contra hne
        obtain ⟨q, hq, hqx⟩ := exists_of_cov_pos (Nat.pos_of_ne_zero hne)
        have h1 := hdisj q hq
        unfold Block.Disj at h1
        unfold Block.Has at hpx hqx
        omega
      rw [h0, if_pos hpx]
    · rw [if_neg hpx]
      exact h.once x
  have hcap : wadd st.fl.capacity p.size = totalSize (p :: st.pools) := by
    have h1 := totalSize_pools_lt hpools honce
    rw [totalSize_cons] at h1 ⊢
    rw [h.capacity, wadd_of_lt (by omega), Nat.add_comm]
  -- writing the size of the new block touches no other header
  let m₁ := setBlockSize st.mem p.addr p.size
  have hsame : ∀ c ∈ free ++ st.liveBlocks, SameHeader st.mem m₁ c.addr := by
    intro c hc
    have h1 := hout c hc
    have h2 := h.size_pos hc
    unfold Block.Disj at h1
    exact setBlockSize_eqOn st.mem (by omega)
  have hrep : FreeRep m₁ st.fl.head free := h.rep.congr (fun c hc => hsame c (by simp [hc]))
  obtain ⟨mem', fl', free', hins, hi⟩ := @insertBlock_spec m₁
    { st.fl with capacity := wadd st.fl.capacity p.size } free p hrep h.gapped hgood
    (blockSize_setBlockSize st.mem _ (by have := hgood.positive; omega)) (fun c hc => hout c (by simp [hc]))
  have hcall : freelistAddRegion st.mem st.fl p.addr p.size = .ok (mem', fl') := by
    unfold freelistAddRegion
    rw [if_neg hp0, if_neg (by omega)]
    exact hins
  refine ⟨mem', fl', free', hcall, hi.rep, hi.gapped, ?_, h.room, ?_, honce, hpools,
    hi.capacity.trans hcap⟩
  · intro c hc
    have hcb : c.block ∈ st.liveBlocks := List.mem_map_of_mem hc
    have hs : SameHeader m₁ mem' c.block.addr :=
      hi.live_header (fun d hd => (h.rep.good d hd).header) hp (h.size_live hcb)
        (fun d hd => h.disj_free_live hd hcb) (hout c.block (by simp [hcb]))
    rw [show c.entry = c.block.addr from rfl, hs.size, (hsame c.block (by simp [hcb])).size]
    exact h.headers c hc
  · intro x
    have e1 := hi.covers x
    have e2 := h.covers x
    have e3 := cov_cons_add p st.pools x
    change cov free' x + cov st.liveBlocks x = cov (p :: st.pools) x
    omega

lemma HeapInv.write {st : HeapState} {free : List Block} (h : HeapInv st free) {a : Live} {x : Nat}
    (v : UInt8) (ha : a ∈ st.live) (h1 : a.entry + 16 ≤ x) (h2 : x < a.entry + 16 + a.req) :
    HeapInv { st with mem := st.mem.set x v } free := by
  have hblock : a.block ∈ st.liveBlocks := List.mem_map_of_mem ha
  have hroom := h.room a ha
  have hsame : ∀ c ∈ free ++ st.liveBlocks, SameHeader st.mem (st.mem.set x v) c.addr := by
    intro c hc
    apply Mem.set_eqOn
    have h16 := h.size_pos hc
    by_contra hin
    have hcx : c.Has x := ⟨by omega, by omega⟩
    have hax : a.block.Has x := ⟨by simp only [Live.block]; omega, by simp only [Live.block]; omega⟩
    -- the header would overlap the payload, so both would be the same block
    rcases List.mem_append.mp hc with hc | hc
    · have hd := h.disj_free_live hc hblock
      unfold Block.Disj at hd
      unfold Block.Has at hcx hax
      omega
    · obtain ⟨d, hd, rfl⟩ := List.mem_map.mp hc
      by_cases hda : d = a
      · subst hda
        simp only [Live.block] at hin
        omega
      · have hperm : st.liveBlocks.Perm (a.block :: (st.live.erase a).map Live.block) :=
          (List.perm_cons_erase ha).map Live.block
        have hpair := (hperm.pairwise_iff (fun hbc => Block.Disj.symm hbc)).mp
          (h.pairwise.sublist (List.sublist_append_right free st.liveBlocks))
        have hdisj := (List.pairwise_cons.mp hpair).1 d.block
          (List.mem_map_of_mem ((List.mem_erase_of_ne hda).mpr hd))
        unfold Block.Disj at hdisj
        unfold Block.Has at hcx hax
        omega
  refine ⟨h.rep.congr (fun c hc => hsame c (by simp [hc])), h.gapped, ?_, h.room, h.covers, h.once,
    h.pools, h.capacity⟩
  intro c hc
  have hcb : c.block ∈ st.liveBlocks := List.mem_map_of_mem hc
  exact (hsame c.block (by simp [hcb])).size.trans (h.headers c hc)

lemma head_of_alloc {mem : Mem} {fl : FreeList} {s : Nat} {r : Except Errno Nat × Mem × FreeList}
    (h : freelistAlloc mem fl s = .ok r) : fl.head ≠ 0 := by
  intro h0
  simp [freelistAlloc, h0] at h

/-- Every step keeps the invariant. -/
theorem HeapInv.step {st st' : HeapState} {free : List Block} (h : HeapInv st free)
    (hstep : HeapStep st st') : ∃ free', HeapInv st' free' := by
  cases hstep with
  | @alloc s ptr mem' fl' hs hs' hcall =>
    have hne := h.free_ne_nil (head_of_alloc hcall)
    rcases freelistAlloc_spec h.rep hne hs hs' with
      ⟨hfail, -⟩ | ⟨_, _, _, _, _, free', _, -, -, -, -, hok, ha⟩
    · rw [hfail] at hcall
      cases hcall
    · rw [hok] at hcall
      cases hcall
      exact ⟨free', h.alloc ha⟩
  | @allocFail s e mem' fl' hs hs' hcall =>
    have hne := h.free_ne_nil (head_of_alloc hcall)
    rcases freelistAlloc_spec h.rep hne hs hs' with
      ⟨hfail, -⟩ | ⟨_, _, _, _, _, _, _, -, -, -, -, hok, -⟩
    · rw [hfail] at hcall
      cases hcall
      exact ⟨free, h⟩
    · rw [hok] at hcall
      cases hcall
  | @free a mem' fl' ha hcall =>
    have hhead : st.fl.head ≠ 0 := by
      intro h0
      simp [freelistFree, h0] at hcall
    obtain ⟨_, _, free', hok, h'⟩ := h.free hhead ha
    rw [hok] at hcall
    cases hcall
    exact ⟨free', h'⟩
  | @addRegion p mem' fl' hp hend hdisj hcall =>
    have hp0 : p.addr ≠ 0 := by
      intro h0
      simp [freelistAddRegion, h0] at hcall
    obtain ⟨_, _, free', hok, h'⟩ := h.addRegion hp0 hp hend hdisj
    rw [hok] at hcall
    cases hcall
    exact ⟨free', h'⟩
  | write v ha h1 h2 => exact ⟨free, h.write v ha h1 h2⟩

/-- Every state of a run satisfies the invariant. -/
theorem HeapInv.run {st st' : HeapState} {free : List Block} (h : HeapInv st free)
    (hrun : Relation.ReflTransGen HeapStep st st') : ∃ free', HeapInv st' free' := by
  induction hrun with
  | refl => exact ⟨free, h⟩
  | tail _ hstep ih =>
    obtain ⟨free', h'⟩ := ih
    exact h'.step hstep

/-- What the heap promises in a state of a run: the free list is a finite chain by increasing
address, free and live blocks are disjoint and lie in the pools, headers of live blocks are intact,
and the sizes add up to the capacity. -/
structure HeapIntegrity (st : HeapState) (free : List Block) : Prop where
  chain : Seg (blockNext st.mem) st.fl.head (free.map Block.addr) 0
  increasing : (free.map Block.addr).Pairwise (· < ·)
  sizes : ∀ b ∈ free, blockSize st.mem b.addr = b.size
  disjoint : (free ++ st.liveBlocks).Pairwise Block.Disj
  inside : ∀ b ∈ free ++ st.liveBlocks, ∀ x, b.Has x → ∃ p ∈ st.pools, p.Has x
  headers : ∀ a ∈ st.live, blockSize st.mem a.entry = a.size ∧ a.req + 16 ≤ a.size
  total : totalSize free + totalSize st.liveBlocks = st.fl.capacity

/-- Unless the `ASSERT` on the head of the list fires, every call of a run returns. -/
structure HeapReturns (st : HeapState) : Prop where
  alloc : st.fl.head ≠ 0 → ∀ s, 1 ≤ s → s + 16 < 2 ^ 64 → ∃ r, freelistAlloc st.mem st.fl s = .ok r
  free : st.fl.head ≠ 0 → ∀ a ∈ st.live, ∃ r, freelistFree st.mem st.fl (a.entry + 16) = .ok r
  addRegion : ∀ p : Block, p.addr ≠ 0 → 16 ≤ p.size → p.addr + p.size ≤ 2 ^ 64 →
    (∀ q ∈ st.pools, p.Disj q) → ∃ r, freelistAddRegion st.mem st.fl p.addr p.size = .ok r

lemma HeapInv.integrity {st : HeapState} {free : List Block} (h : HeapInv st free) :
    HeapIntegrity st free where
  chain := h.rep.seg
  increasing := by
    rw [List.pairwise_map]
    exact h.gapped.imp (fun hbc => by omega)
  sizes := h.rep.sizes
  disjoint := h.pairwise
  inside := fun b hb x hx => h.mem_pool hb hx
  headers := fun a ha => ⟨h.headers a ha, h.room a ha⟩
  total := h.total.trans h.capacity.symm

lemma HeapInv.returns {st : HeapState} {free : List Block} (h : HeapInv st free) : HeapReturns st where
  alloc := fun hhead s hs hs' => h.alloc_returns hhead hs hs'
  free := by
    intro hhead a ha
    obtain ⟨mem', fl', _, hok, -⟩ := h.free hhead ha
    exact ⟨(mem', fl'), hok⟩
  addRegion := by
    intro p hp0 hp hend hdisj
    obtain ⟨mem', fl', _, hok, -⟩ := h.addRegion hp0 hp hend hdisj
    exact ⟨(mem', fl'), hok⟩

/-- The heap keeps its integrity in every state of every run. -/
theorem freelist_heap_integrity {mem : Mem} {pool size : Nat} (hpool : 0 < pool) (hsize : 16 ≤ size)
    (hend : pool + size ≤ 2 ^ 64) (hzero : ∀ x, pool ≤ x → x < pool + size → mem x = 0)
    {st : HeapState} (hrun : Relation.ReflTransGen HeapStep (heapStart mem pool size) st) :
    HeapReturns st ∧ ∃ free : List Block, HeapIntegrity st free := by
  obtain ⟨free, h⟩ := (heapStart_inv hpool hsize hend hzero).run hrun
  exact ⟨h.returns, free, h.integrity⟩

lemma exists_small_alloc : ∃ st, HeapStep (heapStart (fun _ => 0) 4096 64) st ∧
    st.pools = [⟨4096, 64⟩] ∧ st.fl.head ≠ 0 ∧ ∃ a, st.live = [a] ∧ a.req = 8 := by
  have hstart : HeapInv (heapStart (fun _ => 0) 4096 64) [⟨4096, 64⟩] :=
    heapStart_inv (by decide) (by decide) (by decide) (fun _ _ _ => rfl)
  rcases @freelistAlloc_spec _ _ _ 8 hstart.rep (by simp) (by decide) (by decide) with
    ⟨-, hall⟩ | ⟨l₁, c, l₂, mem', fl', free', b, hl, -, -, hb, hok, ha⟩
  · have h1 := hall ⟨4096, 64⟩ (by simp)
    simp only at h1
    omega
  · have hc : c = ⟨4096, 64⟩ := by
      have hmem : c ∈ [(⟨4096, 64⟩ : Block)] := by rw [hl]; simp
      simpa using hmem
    have hne : free' ≠ [] := by
      rintro rfl
      have hcov := ha.covers 4140
      have hfull : cov [⟨4096, 64⟩] 4140 = 1 := by decide
      obtain ⟨d, hd, hx⟩ := exists_of_cov_pos (x := 4140) (l := [b]) (by simp only [cov_nil] at hcov; omega)
      have htight := ha.tight
      rw [List.mem_singleton.mp hd] at hx
      rw [hc] at hb
      unfold Block.Has at hx
      simp only at hb
      omega
    exact ⟨_, .alloc (by decide) (by decide) hok, rfl, (hstart.alloc ha).head_ne_zero hne, _, rfl, rfl⟩

/-- A run that allocates, writes into the allocation, frees it and adds a pool. -/
theorem freelist_heap_integrity_run :
    ∃ st, Relation.ReflTransGen HeapStep (heapStart (fun _ => 0) 4096 64) st ∧
      st.pools = [⟨8192, 64⟩, ⟨4096, 64⟩] ∧ st.live = [] ∧
      HeapReturns st ∧ ∃ free : List Block, HeapIntegrity st free := by
  obtain ⟨st₁, hstep₁, hpools, hhead, a, hlive, hreq⟩ := exists_small_alloc
  obtain ⟨free₁, h₁⟩ := (heapStart_inv (by decide) (by decide) (by decide) (fun _ _ _ => rfl)).step hstep₁
  have ha : a ∈ st₁.live := by simp [hlive]
  have hstep₂ := HeapStep.write (x := a.entry + 16) 7 ha (by omega) (by omega)
  have h₂ := h₁.write (x := a.entry + 16) 7 ha (by omega) (by omega)
  obtain ⟨mem₃, fl₃, free₃, hcall₃, h₃⟩ := h₂.free hhead ha
  have hstep₃ := @HeapStep.free { st₁ with mem := st₁.mem.set (a.entry + 16) 7 } a mem₃ fl₃ ha hcall₃
  have hdisj : ∀ q ∈ st₁.pools, (⟨8192, 64⟩ : Block).Disj q := by simp [hpools, Block.Disj]
  obtain ⟨mem₄, fl₄, free₄, hcall₄, h₄⟩ := h₃.addRegion (p := ⟨8192, 64⟩) (by simp) (by simp)
    (by simp) hdisj
  have hstep₄ := @HeapStep.addRegion ⟨mem₃, fl₃, st₁.live.erase a, st₁.pools⟩ ⟨8192, 64⟩ mem₄ fl₄ (by simp)
    (by simp) hdisj hcall₄
  have hrun := (((Relation.ReflTransGen.single hstep₁).tail hstep₂).tail hstep₃).tail hstep₄
  refine ⟨_, hrun, by simp [hpools], by simp [hlive], ?_⟩
  exact freelist_heap_integrity (by decide) (by decide) (by decide) (fun _ _ _ => rfl) hrun

/-- A step other than `freelist_add_region`. -/
def AllocFreeStep (st st' : HeapState) : Prop := HeapStep st st' ∧ st'.pools = st.pools

lemma allocFree_run {st st' : HeapState} (h : Relation.ReflTransGen AllocFreeStep st st') :
    Relation.ReflTransGen HeapStep st st' ∧ st'.pools = st.pools := by
  induction h with
  | refl => exact ⟨.refl, rfl⟩
  | tail _ hstep ih => exact ⟨ih.1.tail hstep.1, hstep.2.trans ih.2⟩

lemma eq_singleton_of_covers {free : List Block} {p : Block} (hgap : Gapped free) (hp : 0 < p.size)
    (hs : ∀ b ∈ free, 0 < b.size) (hcov : ∀ x, cov free x = cov [p] x) : free = [p] := by
  have hin : ∀ x, (∃ b ∈ free, b.Has x) ↔ p.Has x := by
    intro x
    have h1 := hcov x
    constructor
    · rintro ⟨b, hb, hx⟩
      have h2 := cov_pos hb hx
      obtain ⟨q, hq, hqx⟩ := exists_of_cov_pos (h1 ▸ h2)
      rwa [List.mem_singleton.mp hq] at hqx
    · intro hx
      have h2 : 0 < cov [p] x := cov_pos (by simp) hx
      exact exists_of_cov_pos (h1.symm ▸ h2)
  cases free with
  | nil =>
    obtain ⟨b, hb, -⟩ := (hin p.addr).mpr ⟨le_refl _, by omega⟩
    simp at hb
  | cons b l =>
    have hb := hs b (by simp)
    obtain ⟨hgb, hgl⟩ := List.pairwise_cons.mp hgap
    have h1 := (hin b.addr).mp ⟨b, by simp, le_refl _, by omega⟩
    have h2 := (hin (b.addr + b.size - 1)).mp ⟨b, by simp, by omega, by omega⟩
    cases l with
    | nil =>
      obtain ⟨c, hc, h3⟩ := (hin p.addr).mpr ⟨le_refl _, by omega⟩
      obtain ⟨d, hd, h4⟩ := (hin (p.addr + p.size - 1)).mpr ⟨by omega, by omega⟩
      rw [List.mem_singleton.mp hc] at h3
      rw [List.mem_singleton.mp hd] at h4
      unfold Block.Has at h1 h2 h3 h4
      have haddr : b.addr = p.addr := by omega
      have hsize : b.size = p.size := by omega
      cases b
      cases p
      simp_all
    | cons c l =>
      -- the address right behind the first block would be covered by no block
      have hbc := hgb c (by simp)
      have hc := hs c (by simp)
      have h3 := (hin c.addr).mp ⟨c, by simp, le_refl _, by omega⟩
      have hgapx : p.Has (b.addr + b.size) := by
        unfold Block.Has at h1 h3 ⊢
        omega
      obtain ⟨d, hd, hdx⟩ := (hin _).mpr hgapx
      unfold Block.Has at hdx
      rcases List.mem_cons.mp hd with rfl | hd
      · omega
      · have h4 := hgb d hd
        omega

lemma Gapped.not_adjacent {l : List Block} (h : Gapped l) (hs : ∀ b ∈ l, 0 < b.size) {b c : Block}
    (hb : b ∈ l) (hc : c ∈ l) : b.addr + b.size ≠ c.addr := by
  induction l with
  | nil => simp at hb
  | cons d l ih =>
    obtain ⟨hd, hl⟩ := List.pairwise_cons.mp h
    have hbs := hs b hb
    have hcs := hs c hc
    rcases List.mem_cons.mp hb with hbd | hbl <;> rcases List.mem_cons.mp hc with hcd | hcl
    · rw [hbd, hcd]
      rw [hbd] at hbs
      omega
    · have h1 := hd c hcl
      rw [hbd]
      omega
    · have h1 := hd b hbl
      rw [hcd]
      omega
    · exact ih hl (fun e he => hs e (by simp [he])) hbl hcl

/-- Free blocks are never adjacent, so that the list is the whole pool again once everything has
been freed, and serves every request as it did in the beginning. -/
theorem freelist_full_coalescing {mem : Mem} {pool size : Nat} (hpool : 0 < pool) (hsize : 16 ≤ size)
    (hend : pool + size ≤ 2 ^ 64) (hzero : ∀ x, pool ≤ x → x < pool + size → mem x = 0)
    {st : HeapState} (hrun : Relation.ReflTransGen AllocFreeStep (heapStart mem pool size) st) :
    ∃ free : List Block,
      Seg (blockNext st.mem) st.fl.head (free.map Block.addr) 0 ∧
      (∀ b ∈ free, blockSize st.mem b.addr = b.size) ∧
      (∀ b ∈ free, ∀ c ∈ free, b.addr + b.size ≠ c.addr) ∧
      (st.live = [] → free = [⟨pool, size⟩] ∧
        ∀ s, 1 ≤ s → s + 16 ≤ size →
          ∃ mem₁ fl₁ mem₂ fl₂,
            freelistAlloc st.mem st.fl s = .ok (.ok (pool + 16), mem₁, fl₁) ∧
            freelistAlloc (heapStart mem pool size).mem (heapStart mem pool size).fl s =
              .ok (.ok (pool + 16), mem₂, fl₂)) := by
  obtain ⟨hrun, hpools⟩ := allocFree_run hrun
  have hstart := heapStart_inv hpool hsize hend hzero
  obtain ⟨free, h⟩ := hstart.run hrun
  refine ⟨free, h.rep.seg, h.rep.sizes, ?_, ?_⟩
  · intro b hb c hc
    exact h.gapped.not_adjacent (fun d hd => by have := (h.rep.good d hd).header; omega) hb hc
  · intro hlive
    have hcov : ∀ x, cov free x = cov [⟨pool, size⟩] x := by
      intro x
      have h1 := h.covers x
      rw [hpools] at h1
      simpa [HeapState.liveBlocks, hlive, heapStart] using h1
    have hfree : free = [⟨pool, size⟩] := eq_singleton_of_covers h.gapped (by simp only; omega)
      (fun b hb => by have := (h.rep.good b hb).header; omega) hcov
    refine ⟨hfree, ?_⟩
    intro s hs hfit
    have hserve : ∀ {m : Mem} {fl : FreeList}, FreeRep m fl.head [⟨pool, size⟩] →
        ∃ m' fl', freelistAlloc m fl s = .ok (.ok (pool + 16), m', fl') := by
      intro m fl hrep
      rcases freelistAlloc_spec hrep (by simp) hs (by omega) with
        ⟨-, hall⟩ | ⟨l₁, c, l₂, m', fl', l', b, hl, -, -, -, hok, -⟩
      · have h1 := hall ⟨pool, size⟩ (by simp)
        simp only at h1
        omega
      · have hc : c = ⟨pool, size⟩ := by
          have hmem : c ∈ [(⟨pool, size⟩ : Block)] := by rw [hl]; simp
          simpa using hmem
        subst hc
        exact ⟨m', fl', hok⟩
    obtain ⟨mem₁, fl₁, h₁⟩ := hserve (hfree ▸ h.rep)
    obtain ⟨mem₂, fl₂, h₂⟩ := hserve hstart.rep
    exact ⟨mem₁, fl₁, mem₂, fl₂, h₁, h₂⟩

/-- After an allocation and its free, the list is the whole pool. -/
theorem freelist_full_coalescing_run :
    ∃ st, Relation.ReflTransGen AllocFreeStep (heapStart (fun _ => 0) 4096 64) st ∧ st.live = [] ∧
      Seg (blockNext st.mem) st.fl.head [4096] 0 ∧ blockSize st.mem 4096 = 64 := by
  obtain ⟨st₁, hstep₁, hpools, hhead, a, hlive, hreq⟩ := exists_small_alloc
  obtain ⟨free₁, h₁⟩ := (heapStart_inv (by decide) (by decide) (by decide) (fun _ _ _ => rfl)).step hstep₁
  have ha : a ∈ st₁.live := by simp [hlive]
  obtain ⟨mem₂, fl₂, free₂, hcall₂, h₂⟩ := h₁.free hhead ha
  have hstep₂ := HeapStep.free ha hcall₂
  have hrun := (Relation.ReflTransGen.single (r := AllocFreeStep) ⟨hstep₁, hpools⟩).tail ⟨hstep₂, rfl⟩
  have hempty : st₁.live.erase a = [] := by simp [hlive]
  obtain ⟨free, hseg, hsizes, -, hall⟩ := freelist_full_coalescing (by decide) (by decide) (by decide)
    (fun _ _ _ => rfl) hrun
  obtain ⟨rfl, -⟩ := hall hempty
  exact ⟨_, hrun, hempty, hseg, hsizes ⟨4096, 64⟩ (by simp)⟩

end KaworuOS.Proofs
