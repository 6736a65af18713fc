import KaworuOS.Freelist
import KaworuOS.Lib.Chain

/-!
# The blocks of a free list

`FreeRep mem head l` says that the chain in memory from `head` consists of the blocks `l`,
in increasing order of address. The lemmas follow the three edits that the allocator makes:
unlinking a block, linking one in, and joining a block with its successor.
-/

namespace KaworuOS.Proofs
open Lib

lemma blockNext_lt (mem : Mem) (p : Nat) : blockNext mem p < 2 ^ 64 := Mem.load64_lt _ _

lemma blockNext_setBlockNext (mem : Mem) (p : Nat) {v : Nat} (hv : v < 2 ^ 64) :
    blockNext (setBlockNext mem p v) p = v := by
  rw [blockNext, setBlockNext, Mem.load64_store64_same, Nat.mod_eq_of_lt hv]

lemma blockSize_setBlockSize (mem : Mem) (p : Nat) {v : Nat} (hv : v < 2 ^ 64) :
    blockSize (setBlockSize mem p v) p = v := by
  rw [blockSize, setBlockSize, Mem.load64_store64_same, Nat.mod_eq_of_lt hv]

@[simp] lemma blockSize_setBlockNext_same (mem : Mem) (p v : Nat) :
    blockSize (setBlockNext mem p v) p = blockSize mem p :=
  Mem.load64_store64_of_disjoint _ (by omega)

@[simp] lemma blockNext_setBlockSize_same (mem : Mem) (p v : Nat) :
    blockNext (setBlockSize mem p v) p = blockNext mem p :=
  Mem.load64_store64_of_disjoint _ (by omega)

/-- The two memories agree on the header at `p`. -/
abbrev SameHeader (m m' : Mem) (p : Nat) : Prop := Mem.EqOn m m' p 16

lemma SameHeader.next {m m' : Mem} {p : Nat} (h : SameHeader m m' p) :
    blockNext m' p = blockNext m p :=
  Mem.load64_congr (h.mono (by omega) (by omega))

lemma SameHeader.size {m m' : Mem} {p : Nat} (h : SameHeader m m' p) :
    blockSize m' p = blockSize m p :=
  Mem.load64_congr (h.mono (by omega) (by omega))

lemma setBlockNext_eqOn (mem : Mem) {p v b n : Nat} (h : b + n ≤ p ∨ p + 16 ≤ b) :
    Mem.EqOn mem (setBlockNext mem p v) b n :=
  Mem.store64_eqOn mem (by omega)

lemma setBlockSize_eqOn (mem : Mem) {p v b n : Nat} (h : b + n ≤ p ∨ p + 16 ≤ b) :
    Mem.EqOn mem (setBlockSize mem p v) b n :=
  Mem.store64_eqOn mem (by omega)

/-- A block that can be on the free list: it has room for its header and ends in memory. -/
structure GoodBlock (b : Block) : Prop where
  header : 16 ≤ b.size
  positive : 0 < b.addr
  bound : b.addr + b.size ≤ 2 ^ 64

/-- The chain from `head` consists of the blocks `l`, by increasing address. -/
structure FreeRep (mem : Mem) (head : Nat) (l : List Block) : Prop where
  seg : Seg (blockNext mem) head (l.map Block.addr) 0
  sizes : ∀ b ∈ l, blockSize mem b.addr = b.size
  good : ∀ b ∈ l, GoodBlock b
  ordered : l.Pairwise (fun b c => b.addr + b.size ≤ c.addr)

/-- There is a gap between any two blocks. -/
def Gapped (l : List Block) : Prop := l.Pairwise (fun b c => b.addr + b.size < c.addr)

lemma FreeRep.congr {m m' : Mem} {head : Nat} {l : List Block} (h : FreeRep m head l)
    (hm : ∀ b ∈ l, SameHeader m m' b.addr) : FreeRep m' head l := by
  refine ⟨h.seg.congr ?_, ?_, h.good, h.ordered⟩
  · intro a ha
    obtain ⟨b, hb, rfl⟩ := List.mem_map.mp ha
    exact (hm b hb).next
  · intro b hb
    rw [(hm b hb).size, h.sizes b hb]

lemma length_of_ordered {l : List Block} (lo : Nat) (hlo : lo ≤ 2 ^ 64) (hl : ∀ b ∈ l, lo ≤ b.addr)
    (hg : ∀ b ∈ l, GoodBlock b) (ho : l.Pairwise (fun b c => b.addr + b.size ≤ c.addr)) :
    lo + l.length * 16 ≤ 2 ^ 64 := by
  induction l generalizing lo with
  | nil => simpa using hlo
  | cons b l ih =>
    obtain ⟨hb, ho⟩ := List.pairwise_cons.mp ho
    have hgb := hg b (by simp)
    have h1 := hl b (by simp)
    have h2 := ih (b.addr + b.size) hgb.bound (fun c hc => hb c hc)
      (fun c hc => hg c (by simp [hc])) ho
    have h3 := hgb.header
    simp only [List.length_cons]
    omega

lemma FreeRep.length_lt {mem : Mem} {head : Nat} {l : List Block} (h : FreeRep mem head l) :
    l.length < 2 ^ 64 := by
  have hle := length_of_ordered 0 (by omega) (fun _ _ => Nat.zero_le _) h.good h.ordered
  omega

lemma FreeRep.head_eq {mem : Mem} {head : Nat} {l : List Block} (h : FreeRep mem head l) :
    head = firstOf (l.map Block.addr) :=
  h.seg.first_eq

lemma FreeRep.sublist {mem : Mem} {head : Nat} {l₁ l₂ : List Block} (h : FreeRep mem head (l₁ ++ l₂)) :
    ∃ p, FreeRep mem p l₂ ∧ Seg (blockNext mem) head (l₁.map Block.addr) p := by
  have hs := h.seg
  rw [List.map_append, seg_append] at hs
  obtain ⟨p, h1, h2⟩ := hs
  refine ⟨p, ⟨h2, fun b hb => h.sizes b (by simp [hb]), fun b hb => h.good b (by simp [hb]), ?_⟩, h1⟩
  exact (List.pairwise_append.mp h.ordered).2.1

lemma FreeRep.tail {mem : Mem} {head : Nat} {b : Block} {l : List Block}
    (h : FreeRep mem head (b :: l)) : FreeRep mem (blockNext mem b.addr) l :=
  ⟨h.seg.2.2, fun c hc => h.sizes c (by simp [hc]), fun c hc => h.good c (by simp [hc]),
    (List.pairwise_cons.mp h.ordered).2⟩

lemma ordered_headers {l₁ l₂ : List Block} {b : Block}
    (ho : (l₁ ++ b :: l₂).Pairwise (fun b c => b.addr + b.size ≤ c.addr))
    (hg : ∀ c ∈ l₁ ++ b :: l₂, GoodBlock c) {c : Block} (hc : c ∈ l₁ ++ l₂) :
    c.addr + 16 ≤ b.addr ∨ b.addr + b.size ≤ c.addr := by
  obtain ⟨h1, h2, h3⟩ := List.pairwise_append.mp ho
  rcases List.mem_append.mp hc with hc | hc
  · have h4 := h3 c hc b (by simp)
    have h5 := (hg c (by simp [hc])).header
    omega
  · exact Or.inr ((List.pairwise_cons.mp h2).1 c hc)

/-- The predecessor that a walk has seen last. -/
def lastAddr (l : List Block) : Nat := (l.map Block.addr).getLastD 0

@[simp] lemma lastAddr_nil : lastAddr [] = 0 := rfl

@[simp] lemma lastAddr_snoc (l : List Block) (b : Block) : lastAddr (l ++ [b]) = b.addr := by
  simp [lastAddr]

/-- The search of `freelist_alloc` returns the first block that is large enough. -/
lemma findFit_spec {mem : Mem} {n : Nat} {l : List Block} : ∀ {fuel prev head : Nat},
    FreeRep mem head l → l.length < fuel →
    (findFit mem n fuel prev head = .ok ((prev :: l.map Block.addr).getLastD 0, 0) ∧
      ∀ b ∈ l, b.size < n) ∨
    ∃ l₁ b l₂, l = l₁ ++ b :: l₂ ∧ (∀ c ∈ l₁, c.size < n) ∧ n ≤ b.size ∧
      findFit mem n fuel prev head = .ok ((prev :: l₁.map Block.addr).getLastD 0, b.addr) := by
  induction l with
  | nil =>
    intro fuel prev head h hf
    obtain ⟨fuel, rfl⟩ := Nat.exists_eq_add_of_lt hf
    have hh : head = 0 := h.head_eq
    subst hh
    left
    simp [findFit]
  | cons b l ih =>
    intro fuel prev head h hf
    have hh : head = b.addr := h.head_eq
    subst hh
    have hb0 : b.addr ≠ 0 := by have := (h.good b (by simp)).positive; omega
    have hsz := h.sizes b (by simp)
    cases fuel with
    | zero => omega
    | succ fuel =>
      by_cases hfit : n ≤ b.size
      · right
        refine ⟨[], b, l, rfl, by simp, hfit, ?_⟩
        simp [findFit, hb0, hsz, hfit]
      · have hstep : findFit mem n (fuel + 1) prev b.addr =
            findFit mem n fuel b.addr (blockNext mem b.addr) := by
          simp [findFit, hb0, hsz, hfit]
        rw [hstep]
        rcases @ih fuel b.addr _ h.tail (by simp at hf; omega) with ⟨heq, hall⟩ | ⟨l₁, c, l₂, hl, hlt, hfit', heq⟩
        · left
          refine ⟨by rw [heq]; simp, ?_⟩
          intro c hc
          rcases List.mem_cons.mp hc with rfl | hc
          · omega
          · exact hall c hc
        · right
          refine ⟨b :: l₁, c, l₂, by simp [hl], ?_, hfit', by rw [heq]; simp⟩
          intro d hd
          rcases List.mem_cons.mp hd with rfl | hd
          · omega
          · exact hlt d hd

lemma getLastD_zero_cons (l : List Block) : (0 :: l.map Block.addr).getLastD 0 = lastAddr l := by
  rcases List.eq_nil_or_concat l with rfl | ⟨l, b, rfl⟩
  · rfl
  · rw [List.concat_eq_append, lastAddr_snoc, List.map_append, ← List.cons_append]
    exact List.getLastD_concat ..

lemma findFit_head {mem : Mem} {head : Nat} {l : List Block} (n : Nat) (h : FreeRep mem head l) :
    (findFit mem n wordSize 0 head = .ok (lastAddr l, 0) ∧ ∀ b ∈ l, b.size < n) ∨
    ∃ l₁ b l₂, l = l₁ ++ b :: l₂ ∧ (∀ c ∈ l₁, c.size < n) ∧ n ≤ b.size ∧
      findFit mem n wordSize 0 head = .ok (lastAddr l₁, b.addr) := by
  have hspec := @findFit_spec mem n l wordSize 0 head h h.length_lt
  simpa only [getLastD_zero_cons] using hspec

lemma FreeRep.head_lt {mem : Mem} {head : Nat} {l : List Block} (h : FreeRep mem head l) :
    head < 2 ^ 64 := by
  rw [h.head_eq]
  cases l with
  | nil => simp
  | cons b l =>
    have hb := h.good b (by simp)
    have h1 := hb.header
    have h2 := hb.bound
    simp only [List.map_cons, firstOf_cons]
    omega

/-- A chain is put together from a segment that arrives at `b`, the header of `b` and the
chain behind it, when the other headers are kept. -/
lemma freeRep_of_parts {mem mem' : Mem} {head q : Nat} {l₁ l₂ : List Block} {b : Block}
    (h₁ : Seg (blockNext mem) head (l₁.map Block.addr) b.addr)
    (hs : ∀ c ∈ l₁, blockSize mem c.addr = c.size) (h₂ : FreeRep mem q l₂)
    (hsame : ∀ c ∈ l₁ ++ l₂, SameHeader mem mem' c.addr)
    (hnext : blockNext mem' b.addr = q) (hsize : blockSize mem' b.addr = b.size)
    (hg : ∀ c ∈ l₁ ++ b :: l₂, GoodBlock c)
    (ho : (l₁ ++ b :: l₂).Pairwise (fun b c => b.addr + b.size ≤ c.addr)) :
    FreeRep mem' head (l₁ ++ b :: l₂) := by
  have hb0 : b.addr ≠ 0 := by have := (hg b (by simp)).positive; omega
  have htail := h₂.congr (fun c hc => hsame c (List.mem_append_right l₁ hc))
  refine ⟨?_, ?_, hg, ho⟩
  · rw [List.map_append, seg_append]
    refine ⟨b.addr, h₁.congr ?_, rfl, hb0, ?_⟩
    · intro x hx
      obtain ⟨c, hc, rfl⟩ := List.mem_map.mp hx
      exact (hsame c (List.mem_append_left l₂ hc)).next
    · rw [hnext]
      exact htail.seg
  · intro c hc
    rcases List.mem_append.mp hc with hc | hc
    · rw [(hsame c (List.mem_append_left l₂ hc)).size, hs c hc]
    · rcases List.mem_cons.mp hc with rfl | hc
      · exact hsize
      · exact htail.sizes c hc

/-- Redirecting the link behind `l₁` to the chain `l₂` concatenates the two. -/
lemma setLink_spec {mem : Mem} {fl : FreeList} {l₁ l₂ : List Block} {r q : Nat}
    (h₁ : Seg (blockNext mem) fl.head (l₁.map Block.addr) r)
    (hs : ∀ b ∈ l₁, blockSize mem b.addr = b.size) (h₂ : FreeRep mem q l₂)
    (hg : ∀ b ∈ l₁, GoodBlock b)
    (ho : (l₁ ++ l₂).Pairwise (fun b c => b.addr + b.size ≤ c.addr)) :
    FreeRep (setLink mem fl (lastAddr l₁) q).1 (setLink mem fl (lastAddr l₁) q).2.head (l₁ ++ l₂) ∧
    (setLink mem fl (lastAddr l₁) q).2.capacity = fl.capacity ∧
    ∀ b n, (∀ c ∈ l₁, b + n ≤ c.addr ∨ c.addr + 16 ≤ b) →
      Mem.EqOn mem (setLink mem fl (lastAddr l₁) q).1 b n := by
  rcases List.eq_nil_or_concat l₁ with rfl | ⟨l, c, rfl⟩
  · refine ⟨?_, by simp [setLink], ?_⟩
    · simpa [setLink] using h₂
    · intro b n _ x _ _
      simp [setLink]
  · rw [List.concat_eq_append] at *
    have hc := hg c (by simp)
    have hc0 : c.addr ≠ 0 := by have := hc.positive; omega
    have hlink : setLink mem fl (lastAddr (l ++ [c])) q = (setBlockNext mem c.addr q, fl) := by
      simp [setLink, hc0]
    rw [hlink]
    have hgood : ∀ b ∈ l ++ [c] ++ l₂, GoodBlock b := by
      intro b hb
      rcases List.mem_append.mp hb with hb | hb
      · exact hg b hb
      · exact h₂.good b hb
    have ho' : (l ++ c :: l₂).Pairwise (fun b c => b.addr + b.size ≤ c.addr) := by simpa using ho
    have hsame : ∀ d ∈ l ++ l₂, SameHeader mem (setBlockNext mem c.addr q) d.addr := by
      intro d hd
      have h1 := ordered_headers ho' (by simpa using hgood) hd
      have h2 := hc.header
      exact setBlockNext_eqOn mem (by omega)
    have hseg : Seg (blockNext mem) fl.head (l.map Block.addr) c.addr := by
      rw [List.map_append, List.map_singleton, seg_snoc] at h₁
      exact h₁.1
    refine ⟨?_, rfl, ?_⟩
    · rw [List.append_assoc, List.singleton_append]
      exact freeRep_of_parts hseg (fun d hd => hs d (by simp [hd])) h₂ hsame
        (blockNext_setBlockNext mem _ h₂.head_lt)
        ((blockSize_setBlockNext_same _ _ _).trans (hs c (by simp))) (by simpa using hgood) ho'
    · intro b n hb
      exact setBlockNext_eqOn mem (hb c (by simp))

/-- The insertion walk stops at the last block below `entry`. -/
lemma findBefore_spec {mem : Mem} {entry : Nat} {c : Block} {l : List Block} :
    ∀ {fuel : Nat}, FreeRep mem c.addr (c :: l) → c.addr < entry → l.length < fuel →
    ∃ l₁ b l₂, c :: l = l₁ ++ b :: l₂ ∧ (∀ d ∈ l₁, d.addr < entry) ∧ b.addr < entry ∧
      (∀ d ∈ l₂, entry ≤ d.addr) ∧ findBefore mem entry fuel c.addr = .ok b.addr := by
  induction l generalizing c with
  | nil =>
    intro fuel h hlt hf
    obtain ⟨fuel, rfl⟩ := Nat.exists_eq_add_of_lt hf
    have hnext : blockNext mem c.addr = 0 := h.seg.2.2
    exact ⟨[], c, [], rfl, by simp, hlt, by simp, by simp [findBefore, hnext]⟩
  | cons d l ih =>
    intro fuel h hlt hf
    have hd0 : d.addr ≠ 0 := by have := (h.good d (by simp)).positive; omega
    have hnext : blockNext mem c.addr = d.addr := h.seg.2.2.1
    have htail : FreeRep mem d.addr (d :: l) := hnext ▸ h.tail
    cases fuel with
    | zero => omega
    | succ fuel =>
      by_cases hlt' : d.addr < entry
      · obtain ⟨l₁, b, l₂, hl, h1, h2, h3, h4⟩ := ih htail hlt' (by simp at hf; omega)
        refine ⟨c :: l₁, b, l₂, by simp [hl], ?_, h2, h3, ?_⟩
        · intro e he
          rcases List.mem_cons.mp he with rfl | he
          · exact hlt
          · exact h1 e he
        · simp [findBefore, hnext, hd0, hlt', h4]
      · refine ⟨[], c, d :: l, rfl, by simp, hlt, ?_, by simp [findBefore, hnext, hlt']⟩
        intro e he
        rcases List.mem_cons.mp he with rfl | he
        · omega
        · have h1 := (List.pairwise_cons.mp htail.ordered).1 e he
          omega

/-- Joining a block with its successor keeps what the list covers and leaves a gap behind
the block. Only the block's own header is written. -/
lemma coalesce_spec {mem : Mem} {head : Nat} {l₁ l₂ : List Block} {a : Block}
    (h : FreeRep mem head (l₁ ++ a :: l₂)) (hgap : Gapped l₂) :
    ∃ a' l₂', FreeRep (coalesce mem a.addr (firstOf (l₂.map Block.addr))) head (l₁ ++ a' :: l₂') ∧
      Gapped (a' :: l₂') ∧ a'.addr = a.addr ∧ (∀ x, cov (a' :: l₂') x = cov (a :: l₂) x) ∧
      ∀ b n, (b + n ≤ a.addr ∨ a.addr + 16 ≤ b) →
        Mem.EqOn mem (coalesce mem a.addr (firstOf (l₂.map Block.addr))) b n := by
  have ha := h.good a (by simp)
  have ha0 : a.addr ≠ 0 := by have := ha.positive; omega
  have hsza := h.sizes a (by simp)
  have hall := (List.pairwise_cons.mp (List.pairwise_append.mp h.ordered).2.1).1
  cases l₂ with
  | nil =>
    have hco : coalesce mem a.addr (firstOf ([].map Block.addr)) = mem := by simp [coalesce]
    rw [hco]
    exact ⟨a, [], h, by simp [Gapped], rfl, fun _ => rfl, fun b n _ x _ _ => rfl⟩
  | cons d l =>
    have hd := h.good d (by simp)
    have hd0 : d.addr ≠ 0 := by have := hd.positive; omega
    have hszd := h.sizes d (by simp)
    have had := hall d (by simp)
    have hd1 := hd.header
    have hd2 := hd.bound
    have hdl := (List.pairwise_cons.mp hgap).1
    have hsum : wadd a.addr a.size = a.addr + a.size := wadd_of_lt (by omega)
    by_cases hadj : a.addr + a.size = d.addr
    · have hbig : wadd a.size d.size = a.size + d.size := wadd_of_lt (by have := ha.positive; omega)
      have hnextd : blockNext (setBlockSize mem a.addr (a.size + d.size)) d.addr = blockNext mem d.addr :=
        SameHeader.next (setBlockSize_eqOn mem (by have := ha.header; omega))
      have hco : coalesce mem a.addr (firstOf ((d :: l).map Block.addr)) =
          setBlockNext (setBlockSize mem a.addr (a.size + d.size)) a.addr (blockNext mem d.addr) := by
        simp only [List.map_cons, firstOf_cons, coalesce, ha0, hd0, or_self, ite_false, hsza, hszd, hsum,
          hadj, ne_eq, not_true, hbig, hnextd]
      rw [hco]
      let a' : Block := ⟨a.addr, a.size + d.size⟩
      have hga' : GoodBlock a' := ⟨by have := ha.header; simp only [a']; omega, ha.positive, by
        simp only [a']; omega⟩
      have hgood : ∀ c ∈ l₁ ++ a' :: l, GoodBlock c := by
        intro c hc
        simp only [List.mem_append, List.mem_cons] at hc
        rcases hc with hc | rfl | hc
        · exact h.good c (by simp [hc])
        · exact hga'
        · exact h.good c (by simp [hc])
      have hgapl : Gapped (a' :: l) := by
        refine List.pairwise_cons.mpr ⟨?_, (List.pairwise_cons.mp hgap).2⟩
        intro c hc
        have h1 := hdl c hc
        simp only [a']
        omega
      have hord : (l₁ ++ a' :: l).Pairwise (fun b c => b.addr + b.size ≤ c.addr) := by
        obtain ⟨o1, o2, o3⟩ := List.pairwise_append.mp h.ordered
        refine List.pairwise_append.mpr ⟨o1, hgapl.imp (fun hbc => hbc.le), ?_⟩
        intro b hb c hc
        rcases List.mem_cons.mp hc with rfl | hc
        · exact o3 b hb a (by simp)
        · exact o3 b hb c (by simp [hc])
      have heq : ∀ b n, (b + n ≤ a.addr ∨ a.addr + 16 ≤ b) → Mem.EqOn mem
          (setBlockNext (setBlockSize mem a.addr (a.size + d.size)) a.addr (blockNext mem d.addr)) b n :=
        fun b n hb => (setBlockSize_eqOn mem hb).trans (setBlockNext_eqOn _ hb)
      have hsame : ∀ c ∈ l₁ ++ l, SameHeader mem (setBlockNext
          (setBlockSize mem a.addr (a.size + d.size)) a.addr (blockNext mem d.addr)) c.addr := by
        intro c hc
        have h1 := ordered_headers hord hgood hc
        have h2 := ha.header
        simp only [a'] at h1
        exact heq _ _ (by omega)
      obtain ⟨r, hrest, hs1⟩ := h.sublist
      have hr : r = a.addr := hrest.head_eq
      subst hr
      have hl : FreeRep mem (blockNext mem d.addr) l := hrest.tail.tail
      refine ⟨a', l, ?_, hgapl, rfl, ?_, heq⟩
      · exact freeRep_of_parts (b := a') hs1 (fun c hc => h.sizes c (by simp [hc])) hl hsame
          (blockNext_setBlockNext _ _ (blockNext_lt mem d.addr))
          ((blockSize_setBlockNext_same _ _ _).trans
            (blockSize_setBlockSize mem _ (by have := ha.positive; omega))) hgood hord
      · intro x
        have hsplit : cov [a'] x = cov [a] x + cov [d] x := by
          have hs := cov_split a.addr a.size d.size x
          rw [hadj] at hs
          exact hs
        calc
          cov (a' :: l) x = cov [a'] x + cov l x := cov_cons_add a' l x
          _ = cov [a] x + (cov [d] x + cov l x) := by rw [hsplit, Nat.add_assoc]
          _ = cov (a :: d :: l) x := by rw [← cov_cons_add, ← cov_cons_add]
    · have hco : coalesce mem a.addr (firstOf ((d :: l).map Block.addr)) = mem := by
        simp [coalesce, ha0, hd0, hsza, hsum, hadj]
      rw [hco]
      refine ⟨a, d :: l, h, ?_, rfl, fun _ => rfl, fun b n _ x _ _ => rfl⟩
      refine List.pairwise_cons.mpr ⟨?_, hgap⟩
      intro c hc
      rcases List.mem_cons.mp hc with rfl | hc
      · omega
      · have h1 := hdl c hc
        omega

end KaworuOS.Proofs
