import KaworuOS.Proofs.FreelistRep

/-!
# What the free-list operations do to the blocks

`insertBlock_spec` and `freelistAlloc_spec` describe the effect of an insertion and of an
allocation on the list of free blocks. Headers that belong to no free block, such as those
of live allocations, are not written.
-/

namespace KaworuOS.Proofs
open Lib

/-- Bytes outside every header of `l` are the same in both memories. -/
def KeepsOutside (m m' : Mem) (l : List Block) : Prop :=
  ∀ b n, (∀ c ∈ l, b + n ≤ c.addr ∨ c.addr + 16 ≤ b) → Mem.EqOn m m' b n

lemma KeepsOutside.trans {m m' m'' : Mem} {l : List Block} (h : KeepsOutside m m' l)
    (h' : KeepsOutside m' m'' l) : KeepsOutside m m'' l :=
  fun b n hb => (h b n hb).trans (h' b n hb)

lemma gapped_of_coalesced {l₁ l₂ l₂' : List Block} {a a' : Block}
    (h : Gapped (l₁ ++ a :: l₂)) (haddr : a'.addr = a.addr) (hgap : Gapped (a' :: l₂')) :
    Gapped (l₁ ++ a' :: l₂') := by
  obtain ⟨h1, -, h3⟩ := List.pairwise_append.mp h
  refine List.pairwise_append.mpr ⟨h1, hgap, ?_⟩
  intro b hb c hc
  have hba := h3 b hb a (by simp)
  rcases List.mem_cons.mp hc with rfl | hc
  · omega
  · have hac := (List.pairwise_cons.mp hgap).1 c hc
    omega

/-- What an insertion of `b` into the list `l` achieves. -/
structure Inserted (mem : Mem) (fl : FreeList) (l : List Block) (b : Block)
    (mem' : Mem) (fl' : FreeList) (l' : List Block) : Prop where
  rep : FreeRep mem' fl'.head l'
  gapped : Gapped l'
  capacity : fl'.capacity = fl.capacity
  covers : ∀ x, cov l' x = cov l x + cov [b] x
  keeps : KeepsOutside mem mem' (b :: l)

lemma insertBlock_first {mem : Mem} {fl : FreeList} {l : List Block} {b : Block}
    (h : FreeRep mem fl.head l) (hgap : Gapped l) (hb : GoodBlock b)
    (hsize : blockSize mem b.addr = b.size) (hbelow : ∀ c ∈ l, b.addr + b.size ≤ c.addr)
    (hfirst : fl.head = 0 ∨ b.addr < fl.head) :
    ∃ mem' fl' l', insertBlock mem fl b.addr = .ok (mem', fl') ∧ Inserted mem fl l b mem' fl' l' := by
  have hb16 := hb.header
  have hlink : FreeRep (setBlockNext mem b.addr fl.head) b.addr (b :: l) := by
    have hseg : Seg (blockNext mem) b.addr (([] : List Block).map Block.addr) b.addr := rfl
    apply freeRep_of_parts hseg (by simp) h ?_ (blockNext_setBlockNext mem _ h.head_lt)
      ((blockSize_setBlockNext_same _ _ _).trans hsize)
    · intro c hc
      rcases List.mem_cons.mp hc with rfl | hc
      · exact hb
      · exact h.good c hc
    · exact List.pairwise_cons.mpr ⟨hbelow, h.ordered⟩
    · exact fun c hc => setBlockNext_eqOn mem (by have := hbelow c hc; omega)
  have hlink' : FreeRep (setBlockNext mem b.addr fl.head) b.addr ([] ++ b :: l) := hlink
  obtain ⟨a', l', hrep', hgap', haddr, hcov, hkeep⟩ := coalesce_spec hlink' hgap
  refine ⟨_, { fl with head := b.addr }, a' :: l', ?_, hrep', hgap', rfl, ?_, ?_⟩
  · have hnext : blockNext (setBlockNext mem b.addr fl.head) b.addr = firstOf (l.map Block.addr) :=
      (blockNext_setBlockNext mem _ h.head_lt).trans h.head_eq
    rw [insertBlock, if_pos hfirst]
    simp only [hnext]
  · intro x
    rw [hcov, cov_cons_add, Nat.add_comm]
  · intro p n hp
    exact (setBlockNext_eqOn mem (hp b (by simp))).trans (hkeep p n (hp b (by simp)))

lemma insertBlock_behind {mem : Mem} {fl : FreeList} {l₁ l₂ : List Block} {b c : Block}
    (h : FreeRep mem fl.head (l₁ ++ c :: l₂)) (hgap : Gapped (l₁ ++ c :: l₂)) (hb : GoodBlock b)
    (hsize : blockSize mem b.addr = b.size) (hcb : c.addr + c.size ≤ b.addr)
    (habove : ∀ d ∈ l₂, b.addr + b.size ≤ d.addr) (hfirst : ¬(fl.head = 0 ∨ b.addr < fl.head))
    (hfind : findBefore mem b.addr wordSize fl.head = .ok c.addr) :
    ∃ mem' fl' l', insertBlock mem fl b.addr = .ok (mem', fl') ∧
      Inserted mem fl (l₁ ++ c :: l₂) b mem' fl' l' := by
  have hb16 := hb.header
  have hc := h.good c (by simp)
  have hc16 := hc.header
  have hsplit : ∀ l : List Block, l₁ ++ c :: l = (l₁ ++ [c]) ++ l := fun l => by simp
  have hbefore : ∀ d ∈ l₁ ++ [c], d.addr + d.size ≤ b.addr := by
    intro d hd
    rcases List.mem_append.mp hd with hd | hd
    · have h1 := (List.pairwise_append.mp h.ordered).2.2 d hd c (by simp)
      omega
    · rw [List.mem_singleton.mp hd]
      exact hcb
  have hord : (l₁ ++ c :: b :: l₂).Pairwise (fun b c => b.addr + b.size ≤ c.addr) := by
    obtain ⟨o1, o2, o3⟩ := List.pairwise_append.mp (hsplit l₂ ▸ h.ordered)
    rw [hsplit]
    refine List.pairwise_append.mpr ⟨o1, List.pairwise_cons.mpr ⟨habove, o2⟩, ?_⟩
    intro d hd e he
    rcases List.mem_cons.mp he with rfl | he
    · exact hbefore d hd
    · exact o3 d hd e he
  have hgood : ∀ d ∈ l₁ ++ c :: b :: l₂, GoodBlock d := by
    intro d hd
    simp only [List.mem_append, List.mem_cons] at hd
    rcases hd with hd | rfl | rfl | hd
    · exact h.good d (by simp [hd])
    · exact hc
    · exact hb
    · exact h.good d (by simp [hd])
  obtain ⟨r, hrest, hseg⟩ := h.sublist
  have hr : r = c.addr := hrest.head_eq
  subst hr
  let m₁ := setBlockNext mem b.addr (blockNext mem c.addr)
  let m₂ := setBlockNext m₁ c.addr b.addr
  have hm₁ : ∀ d ∈ l₁ ++ c :: l₂, SameHeader mem m₁ d.addr := by
    intro d hd
    apply setBlockNext_eqOn mem
    rw [hsplit] at hd
    rcases List.mem_append.mp hd with hd | hd
    · have h1 := hbefore d hd
      have h2 := (h.good d (by rw [hsplit]; exact List.mem_append_left _ hd)).header
      omega
    · have h1 := habove d hd
      omega
  -- first the new block is put before `l₂`, then `c` before both
  have hbl₂ : FreeRep m₁ b.addr (b :: l₂) := by
    have hseg₀ : Seg (blockNext mem) b.addr (([] : List Block).map Block.addr) b.addr := rfl
    exact freeRep_of_parts hseg₀ (by simp) hrest.tail (fun d hd => hm₁ d (by simp at hd; simp [hd]))
      (blockNext_setBlockNext mem _ (blockNext_lt mem c.addr))
      ((blockSize_setBlockNext_same _ _ _).trans hsize)
      (fun d hd => hgood d (by simp at hd; simp [hd]))
      (List.pairwise_cons.mp (List.pairwise_append.mp hord).2.1).2
  have hrep : FreeRep m₂ fl.head (l₁ ++ c :: b :: l₂) := by
    have hseg₁ : Seg (blockNext m₁) fl.head (l₁.map Block.addr) c.addr := by
      apply hseg.congr
      intro x hx
      obtain ⟨d, hd, rfl⟩ := List.mem_map.mp hx
      exact (hm₁ d (by simp [hd])).next
    apply freeRep_of_parts hseg₁ ?_ hbl₂ ?_
      (blockNext_setBlockNext m₁ _ (by have := hb.bound; omega)) ?_ hgood hord
    · intro d hd
      rw [(hm₁ d (by simp [hd])).size, h.sizes d (by simp [hd])]
    · intro d hd
      have h1 := ordered_headers hord hgood hd
      exact setBlockNext_eqOn m₁ (by omega)
    · rw [blockSize_setBlockNext_same, (hm₁ c (by simp)).size, h.sizes c (by simp)]
  have hgap₂ : Gapped l₂ := (List.pairwise_cons.mp (List.pairwise_append.mp hgap).2.1).2
  rw [hsplit] at hrep
  obtain ⟨b', l₂', hrep', hgap', hbaddr, hcov', hkeep'⟩ := coalesce_spec hrep hgap₂
  rw [← hsplit] at hrep'
  obtain ⟨c', l₃, hrep'', hgap'', hcaddr, hcov'', hkeep''⟩ := coalesce_spec hrep' hgap'
  refine ⟨_, fl, l₁ ++ c' :: l₃, ?_, hrep'', gapped_of_coalesced hgap hcaddr hgap'', rfl, ?_, ?_⟩
  · have hbn : blockNext m₂ b.addr = firstOf (l₂.map Block.addr) := by
      have hsm : SameHeader m₁ m₂ b.addr := setBlockNext_eqOn m₁ (by omega)
      rw [hsm.next, ← hrest.tail.head_eq]
      exact blockNext_setBlockNext mem _ (blockNext_lt mem c.addr)
    rw [insertBlock, if_neg hfirst, hfind]
    simp only [List.map_cons, firstOf_cons, hbaddr]
    change Except.ok (coalesce (coalesce m₂ b.addr (blockNext m₂ b.addr)) c.addr b.addr, fl) = _
    rw [hbn]
  · intro x
    have e1 := hcov'' x
    have e2 := hcov' x
    have e3 := cov_cons_add c (b' :: l₂') x
    have e4 := cov_cons_add c l₂ x
    have e5 := cov_cons_add b l₂ x
    rw [cov_append, cov_append]
    omega
  · intro p n hp
    have hpb := hp b (by simp)
    have hpc := hp c (by simp)
    have k₁ : Mem.EqOn mem m₁ p n := setBlockNext_eqOn mem hpb
    have k₂ : Mem.EqOn m₁ m₂ p n := setBlockNext_eqOn m₁ hpc
    exact ((k₁.trans k₂).trans (hkeep' p n hpb)).trans (hkeep'' p n hpc)

/-- Inserting a block that is disjoint from the free ones adds exactly its addresses to the
list, keeps the gaps between blocks, and writes no header but those of the blocks involved. -/
theorem insertBlock_spec {mem : Mem} {fl : FreeList} {l : List Block} {b : Block}
    (h : FreeRep mem fl.head l) (hgap : Gapped l) (hb : GoodBlock b)
    (hsize : blockSize mem b.addr = b.size) (hdisj : ∀ c ∈ l, b.Disj c) :
    ∃ mem' fl' l', insertBlock mem fl b.addr = .ok (mem', fl') ∧ Inserted mem fl l b mem' fl' l' := by
  have hb16 := hb.header
  cases l with
  | nil => exact insertBlock_first h hgap hb hsize (by simp) (Or.inl h.head_eq)
  | cons c₀ l₀ =>
    have hhead : fl.head = c₀.addr := h.head_eq
    have hc₀ := h.good c₀ (by simp)
    have hc₀16 := hc₀.header
    have hc₀0 := hc₀.positive
    have hdc₀ := hdisj c₀ (by simp)
    unfold Block.Disj at hdc₀
    by_cases hlt : b.addr < c₀.addr
    · apply insertBlock_first h hgap hb hsize ?_ (Or.inr (by omega))
      intro c hc
      rcases List.mem_cons.mp hc with rfl | hc
      · omega
      · have h1 := (List.pairwise_cons.mp h.ordered).1 c hc
        omega
    · have hrep : FreeRep mem c₀.addr (c₀ :: l₀) := hhead ▸ h
      have hlen : l₀.length < 2 ^ 64 := by
        have := h.length_lt
        simp only [List.length_cons] at this
        omega
      have hbefore : c₀.addr < b.addr := by omega
      obtain ⟨l₁, c, l₂, hl, hlt₁, hltc, hge₂, hfind⟩ := findBefore_spec hrep hbefore hlen
      rw [hl] at h hgap hdisj ⊢
      apply insertBlock_behind h hgap hb hsize ?_ ?_ (by omega) (hhead ▸ hfind)
      · have h1 := hdisj c (by simp)
        unfold Block.Disj at h1
        omega
      · intro d hd
        have h1 := hdisj d (by simp [hd])
        have h2 := hge₂ d hd
        have h3 := (h.good d (by simp [hd])).header
        unfold Block.Disj at h1
        omega

/-- What a successful allocation of `s` bytes at `ptr` achieves: the block `⟨ptr - 16, n⟩` has
left the list and its header holds `n`. -/
structure Allocated (mem : Mem) (fl : FreeList) (l : List Block) (s ptr : Nat)
    (mem' : Mem) (fl' : FreeList) (l' : List Block) (b : Block) : Prop where
  ptr_eq : ptr = b.addr + 16
  rep : FreeRep mem' fl'.head l'
  gapped : Gapped l → Gapped l'
  others : ∀ c ∈ l, c.addr ≠ b.addr → c ∈ l'
  capacity : fl'.capacity = fl.capacity
  covers : ∀ x, cov l x = cov l' x + cov [b] x
  header : blockSize mem' b.addr = b.size
  room : s + 16 ≤ b.size
  tight : b.size < s + 32
  good : GoodBlock b
  keeps : ∀ p, (∀ c ∈ l, p + 16 ≤ c.addr ∨ c.addr + c.size ≤ p) → SameHeader mem mem' p

lemma pairwise_replace {R : Block → Block → Prop} {l₁ l₂ : List Block} {b t : Block}
    (h : (l₁ ++ b :: l₂).Pairwise R) (hleft : ∀ c, R c b → R c t) (hright : ∀ c, R b c → R t c) :
    (l₁ ++ t :: l₂).Pairwise R := by
  obtain ⟨h₁, h₂, h₃⟩ := List.pairwise_append.mp h
  obtain ⟨hb, h₂⟩ := List.pairwise_cons.mp h₂
  refine List.pairwise_append.mpr ⟨h₁, List.pairwise_cons.mpr ⟨fun c hc => hright c (hb c hc), h₂⟩, ?_⟩
  intro c hc d hd
  rcases List.mem_cons.mp hd with rfl | hd
  · exact hleft c (h₃ c hc b List.mem_cons_self)
  · exact h₃ c hc d (List.mem_cons_of_mem b hd)

/-- Cutting `n` bytes off the front of a block leaves its tail on the list. -/
lemma split_spec {mem : Mem} {fl : FreeList} {l₁ l₂ : List Block} {b : Block} {n : Nat}
    (h : FreeRep mem fl.head (l₁ ++ b :: l₂)) (hn : 16 ≤ n) (hfit : n + 16 ≤ b.size) :
    let t : Block := ⟨b.addr + n, b.size - n⟩
    let m := setBlockNext (setBlockSize mem t.addr t.size) t.addr (blockNext mem b.addr)
    let r := setLink m fl (lastAddr l₁) t.addr
    FreeRep (setBlockSize r.1 b.addr n) r.2.head (l₁ ++ t :: l₂) ∧
      (Gapped (l₁ ++ b :: l₂) → Gapped (l₁ ++ t :: l₂)) ∧
      r.2.capacity = fl.capacity ∧ blockSize (setBlockSize r.1 b.addr n) b.addr = n ∧
      ∀ p, (∀ c ∈ l₁ ++ b :: l₂, p + 16 ≤ c.addr ∨ c.addr + c.size ≤ p) →
        SameHeader mem (setBlockSize r.1 b.addr n) p := by
  intro t m r
  have hb := h.good b (by simp)
  have hbb := hb.bound
  have hb0 := hb.positive
  have hgt : Gapped (l₁ ++ b :: l₂) → Gapped (l₁ ++ t :: l₂) := by
    intro hgap
    apply pairwise_replace hgap
    · intro c hc
      simp only [t]
      omega
    · intro c hc
      simp only [t]
      omega
  have hordered : (l₁ ++ t :: l₂).Pairwise (fun b c => b.addr + b.size ≤ c.addr) := by
    apply pairwise_replace h.ordered
    · intro c hc
      simp only [t]
      omega
    · intro c hc
      simp only [t]
      omega
  have hgood : ∀ c ∈ l₁ ++ t :: l₂, GoodBlock c := by
    intro c hc
    simp only [List.mem_append, List.mem_cons] at hc
    rcases hc with hc | rfl | hc
    · exact h.good c (by simp [hc])
    · exact ⟨by simp only [t]; omega, by simp only [t]; omega, by simp only [t]; omega⟩
    · exact h.good c (by simp [hc])
  obtain ⟨q, hrest, hseg⟩ := h.sublist
  have hq : q = b.addr := hrest.head_eq
  subst hq
  -- the header of the tail lies inside the old block
  have hm : ∀ p k, p + k ≤ t.addr ∨ t.addr + 16 ≤ p → Mem.EqOn mem m p k := fun p k hp =>
    (setBlockSize_eqOn mem hp).trans (setBlockNext_eqOn _ hp)
  have hside : ∀ c ∈ l₁ ++ l₂, c.addr + 16 ≤ b.addr ∨ b.addr + b.size ≤ c.addr :=
    fun c hc => ordered_headers h.ordered h.good hc
  have hsame : ∀ c ∈ l₁ ++ l₂, SameHeader mem m c.addr := by
    intro c hc
    have h1 := hside c hc
    exact hm _ _ (by simp only [t]; omega)
  have hseg' : Seg (blockNext m) fl.head (l₁.map Block.addr) b.addr := by
    apply hseg.congr
    intro x hx
    obtain ⟨c, hc, rfl⟩ := List.mem_map.mp hx
    exact (hsame c (by simp [hc])).next
  have htl : FreeRep m t.addr (t :: l₂) := by
    have hseg₀ : Seg (blockNext mem) t.addr (([] : List Block).map Block.addr) t.addr := rfl
    apply freeRep_of_parts hseg₀ (by simp) hrest.tail (fun c hc => hsame c (by simp at hc; simp [hc]))
      (blockNext_setBlockNext _ _ (blockNext_lt mem b.addr))
    · exact (blockSize_setBlockNext_same _ _ _).trans
        (blockSize_setBlockSize mem _ (by simp only [t]; omega))
    · exact fun c hc => hgood c (List.mem_append_right l₁ hc)
    · exact (List.pairwise_append.mp hordered).2.1
  obtain ⟨hr, hcap, hkeep⟩ := setLink_spec hseg'
    (fun c hc => ((hsame c (by simp [hc])).size).trans (h.sizes c (by simp [hc]))) htl
    (fun c hc => h.good c (by simp [hc])) hordered
  refine ⟨hr.congr ?_, hgt, hcap, blockSize_setBlockSize _ _ (by omega), ?_⟩
  · intro c hc
    apply setBlockSize_eqOn
    simp only [List.mem_append, List.mem_cons] at hc
    rcases hc with hc | rfl | hc
    · have h1 := hside c (by simp [hc])
      omega
    · simp only [t]
      omega
    · have h1 := hside c (by simp [hc])
      omega
  · intro p hp
    have hpb := hp b (by simp)
    have k₁ : SameHeader mem m p := hm _ _ (by simp only [t]; omega)
    have k₂ : SameHeader m r.1 p := by
      apply hkeep
      intro c hc
      have h1 := hp c (by simp [hc])
      have h2 := (h.good c (by simp [hc])).header
      omega
    exact (k₁.trans k₂).trans (setBlockSize_eqOn _ (by omega))

/-- Taking a block off the list. -/
lemma consume_spec {mem : Mem} {fl : FreeList} {l₁ l₂ : List Block} {b : Block}
    (h : FreeRep mem fl.head (l₁ ++ b :: l₂)) :
    let r := setLink mem fl (lastAddr l₁) (blockNext mem b.addr)
    FreeRep r.1 r.2.head (l₁ ++ l₂) ∧ (Gapped (l₁ ++ b :: l₂) → Gapped (l₁ ++ l₂)) ∧ r.2.capacity = fl.capacity ∧
      blockSize r.1 b.addr = b.size ∧
      ∀ p, (∀ c ∈ l₁ ++ b :: l₂, p + 16 ≤ c.addr ∨ c.addr + c.size ≤ p) → SameHeader mem r.1 p := by
  intro r
  have hsub : (l₁ ++ l₂).Sublist (l₁ ++ b :: l₂) :=
    (List.Sublist.refl l₁).append (List.sublist_cons_self b l₂)
  obtain ⟨q, hrest, hseg⟩ := h.sublist
  obtain ⟨hr, hcap, hkeep⟩ := setLink_spec hseg (fun c hc => h.sizes c (by simp [hc])) hrest.tail
    (fun c hc => h.good c (by simp [hc])) (h.ordered.sublist hsub)
  refine ⟨hr, fun hgap => hgap.sublist hsub, hcap, ?_, ?_⟩
  · have hb := h.good b (by simp)
    have hsame : SameHeader mem r.1 b.addr := by
      apply hkeep
      intro c hc
      have h1 := (List.pairwise_append.mp h.ordered).2.2 c hc b (by simp)
      have h2 := (h.good c (by simp [hc])).header
      omega
    rw [hsame.size, h.sizes b (by simp)]
  · intro p hp
    apply hkeep
    intro c hc
    have h1 := hp c (by simp [hc])
    have h2 := (h.good c (by simp [hc])).header
    omega

/-- An allocation either finds no block and changes nothing, or takes the first block that is
large enough, cutting off its tail when that can hold a header. -/
theorem freelistAlloc_spec {mem : Mem} {fl : FreeList} {l : List Block} {s : Nat}
    (h : FreeRep mem fl.head l) (hl : l ≠ []) (hs : 1 ≤ s) (hs' : s + 16 < 2 ^ 64) :
    (freelistAlloc mem fl s = .ok (.error .ENOMEM, mem, fl) ∧ ∀ b ∈ l, b.size < s + 16) ∨
    ∃ l₁ c l₂ mem' fl' l' b, l = l₁ ++ c :: l₂ ∧ (∀ d ∈ l₁, d.size < s + 16) ∧ s + 16 ≤ c.size ∧
      b.addr = c.addr ∧ freelistAlloc mem fl s = .ok (.ok (c.addr + 16), mem', fl') ∧
      Allocated mem fl l s (c.addr + 16) mem' fl' l' b := by
  have hhead : fl.head ≠ 0 := by
    cases l with
    | nil => exact absurd rfl hl
    | cons c l =>
      have h1 := (h.good c (by simp)).positive
      have h2 : fl.head = c.addr := h.head_eq
      omega
  have hactual : wadd s entrySize = s + 16 := wadd_of_lt hs'
  rcases findFit_head (s + 16) h with ⟨hfind, hall⟩ | ⟨l₁, c, l₂, rfl, hlt, hfit, hfind⟩
  · left
    refine ⟨?_, hall⟩
    simp [freelistAlloc, hhead, show s ≠ 0 by omega, hactual, hfind]
  · right
    have hc := h.good c (by simp)
    have hc0 : c.addr ≠ 0 := by have := hc.positive; omega
    have hcb := hc.bound
    have hsz := h.sizes c (by simp)
    have hptr : wadd c.addr entrySize = c.addr + 16 := wadd_of_lt (by simp only [entrySize]; omega)
    have hremain : wsub c.size (s + 16) = c.size - (s + 16) := wsub_of_le hfit (by have := hc.positive; omega)
    have hothers : ∀ tail, ∀ d ∈ l₁ ++ c :: l₂, d.addr ≠ c.addr → d ∈ l₁ ++ (tail ++ l₂) := by
      intro tail d hd hne
      rcases List.mem_append.mp hd with hd | hd
      · exact List.mem_append_left _ hd
      · rcases List.mem_cons.mp hd with rfl | hd
        · exact absurd rfl hne
        · exact List.mem_append_right _ (List.mem_append_right _ hd)
    by_cases hsplit : s + 16 + 16 ≤ c.size
    · have hnew : wadd c.addr (s + 16) = c.addr + (s + 16) := wadd_of_lt (by omega)
      obtain ⟨h1, h2, h3, h4, h5⟩ := split_spec h (by omega : 16 ≤ s + 16) (by omega)
      have hnext : blockNext (setBlockSize mem (c.addr + (s + 16)) (c.size - (s + 16))) c.addr =
          blockNext mem c.addr := SameHeader.next (setBlockSize_eqOn mem (by omega))
      refine ⟨l₁, c, l₂, _, _, _, ⟨c.addr, s + 16⟩, rfl, hlt, hfit, rfl, ?_,
        ⟨rfl, h1, h2, hothers [_], h3, ?_, h4, le_refl _, by simp, ⟨by simp, hc.positive, by simp only; omega⟩, h5⟩⟩
      · simp [freelistAlloc, hhead, show s ≠ 0 by omega, hactual, hfind, hc0, hsz, hremain, hptr, hnew,
          hnext, show 16 ≤ c.size - (s + 16) by omega]
      · intro x
        have e1 := cov_split c.addr (s + 16) (c.size - (s + 16)) x
        rw [show s + 16 + (c.size - (s + 16)) = c.size by omega] at e1
        have e2 := cov_cons_add c l₂ x
        have e3 := cov_cons_add ⟨c.addr + (s + 16), c.size - (s + 16)⟩ l₂ x
        have e4 : cov [c] x = cov [⟨c.addr, c.size⟩] x := rfl
        rw [cov_append, cov_append]
        omega
    · obtain ⟨h1, h2, h3, h4, h5⟩ := consume_spec h
      refine ⟨l₁, c, l₂, _, _, _, c, rfl, hlt, hfit, rfl, ?_,
        ⟨rfl, h1, h2, hothers [], h3, ?_, h4, hfit, by omega, hc, h5⟩⟩
      · simp [freelistAlloc, hhead, show s ≠ 0 by omega, hactual, hfind, hc0, hsz, hremain, hptr,
          show ¬16 ≤ c.size - (s + 16) by omega]
      · intro x
        have e2 := cov_cons_add c l₂ x
        rw [cov_append, cov_append]
        omega

end KaworuOS.Proofs
