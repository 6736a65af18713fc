import Mathlib.Algebra.BigOperators.Intervals
import Mathlib.Data.List.Basic

/-!
# Singly linked chains and covered addresses

`Seg next p l q` says that following `next` from `p` visits the addresses of `l` in order
and arrives at `q`. `cov l x` counts the blocks of `l` that contain the address `x`; a list
of blocks is pairwise disjoint when no count exceeds one. Splitting, joining and moving
blocks keep the counts, which is why an allocator's accounting is stated with them.
-/

namespace KaworuOS.Lib

/-- Following `next` from `p` visits `l` and arrives at `q`. Zero is the null address. -/
def Seg (next : Nat → Nat) : Nat → List Nat → Nat → Prop
  | p, [], q => p = q
  | p, a :: l, q => p = a ∧ a ≠ 0 ∧ Seg next (next a) l q

lemma seg_append {next : Nat → Nat} {p q : Nat} {l₁ l₂ : List Nat} :
    Seg next p (l₁ ++ l₂) q ↔ ∃ r, Seg next p l₁ r ∧ Seg next r l₂ q := by
  induction l₁ generalizing p with
  | nil => simp [Seg]
  | cons a l₁ ih =>
    simp only [List.cons_append, Seg, ih]
    constructor
    · rintro ⟨hp, ha, r, h1, h2⟩
      exact ⟨r, ⟨hp, ha, h1⟩, h2⟩
    · rintro ⟨r, ⟨hp, ha, h1⟩, h2⟩
      exact ⟨hp, ha, r, h1, h2⟩

lemma Seg.congr {next next' : Nat → Nat} {p q : Nat} {l : List Nat} (h : Seg next p l q)
    (hn : ∀ a ∈ l, next' a = next a) : Seg next' p l q := by
  induction l generalizing p with
  | nil => exact h
  | cons a l ih =>
    obtain ⟨hp, ha, hr⟩ := h
    refine ⟨hp, ha, ?_⟩
    rw [hn a (by simp)]
    exact ih hr (fun b hb => hn b (by simp [hb]))

lemma seg_snoc {next : Nat → Nat} {p q a : Nat} {l : List Nat} :
    Seg next p (l ++ [a]) q ↔ Seg next p l a ∧ a ≠ 0 ∧ next a = q := by
  rw [seg_append]
  constructor
  · rintro ⟨r, h1, rfl, ha, hq⟩
    exact ⟨h1, ha, hq⟩
  · rintro ⟨h1, ha, hq⟩
    exact ⟨a, h1, rfl, ha, hq⟩

/-- The address at which a chain of the addresses `l` begins. -/
def firstOf (l : List Nat) : Nat := l.headD 0

@[simp] lemma firstOf_nil : firstOf [] = 0 := rfl

@[simp] lemma firstOf_cons (a : Nat) (l : List Nat) : firstOf (a :: l) = a := rfl

lemma Seg.first_eq {next : Nat → Nat} {p : Nat} {l : List Nat} (h : Seg next p l 0) :
    p = firstOf l := by
  cases l with
  | nil => exact h
  | cons a l => exact h.1

lemma Seg.unique {next : Nat → Nat} {p : Nat} {l l' : List Nat} (h : Seg next p l 0) (h' : Seg next p l' 0) :
    l = l' := by
  induction l generalizing p l' with
  | nil =>
    cases l' with
    | nil => rfl
    | cons b l' => exact absurd (h'.1.symm.trans h) h'.2.1
  | cons a l ih =>
    cases l' with
    | nil => exact absurd (h.1.symm.trans h') h.2.1
    | cons b l' =>
      obtain rfl : a = b := h.1.symm.trans h'.1
      rw [ih h.2.2 h'.2.2]

/-- A contiguous range of addresses. -/
@[ext] structure Block where
  addr : Nat
  size : Nat
  deriving DecidableEq, Repr

/-- The address lies in the block. -/
def Block.Has (b : Block) (x : Nat) : Prop := b.addr ≤ x ∧ x < b.addr + b.size

instance (b : Block) (x : Nat) : Decidable (b.Has x) :=
  inferInstanceAs (Decidable (_ ∧ _))

/-- The blocks have no address in common. -/
def Block.Disj (b c : Block) : Prop := b.addr + b.size ≤ c.addr ∨ c.addr + c.size ≤ b.addr

lemma Block.Disj.symm {b c : Block} (h : b.Disj c) : c.Disj b := Or.symm h

/-- The number of blocks of `l` that contain `x`. -/
def cov (l : List Block) (x : Nat) : Nat := l.countP (fun b => b.Has x)

@[simp] lemma cov_nil (x : Nat) : cov [] x = 0 := rfl

lemma cov_cons (b : Block) (l : List Block) (x : Nat) :
    cov (b :: l) x = cov l x + if b.Has x then 1 else 0 := by
  simp [cov, List.countP_cons]

lemma cov_append (l₁ l₂ : List Block) (x : Nat) : cov (l₁ ++ l₂) x = cov l₁ x + cov l₂ x := by
  simp [cov]

lemma cov_cons_add (b : Block) (l : List Block) (x : Nat) : cov (b :: l) x = cov [b] x + cov l x :=
  cov_append [b] l x

lemma cov_perm {l₁ l₂ : List Block} (h : l₁.Perm l₂) (x : Nat) : cov l₁ x = cov l₂ x :=
  h.countP_eq _

lemma cov_pos {l : List Block} {b : Block} (hb : b ∈ l) {x : Nat} (hx : b.Has x) : 0 < cov l x :=
  List.countP_pos_iff.mpr ⟨b, hb, by simpa using hx⟩

lemma exists_of_cov_pos {l : List Block} {x : Nat} (h : 0 < cov l x) : ∃ b ∈ l, b.Has x := by
  obtain ⟨b, hb, hx⟩ := List.countP_pos_iff.mp h
  exact ⟨b, hb, by simpa using hx⟩

lemma cov_split (a n k x : Nat) :
    cov [⟨a, n + k⟩] x = cov [⟨a, n⟩] x + cov [⟨a + n, k⟩] x := by
  have hiff : Block.Has ⟨a, n + k⟩ x ↔ Block.Has ⟨a, n⟩ x ∨ Block.Has ⟨a + n, k⟩ x := by
    simp only [Block.Has]
    omega
  have hnot : ¬(Block.Has ⟨a, n⟩ x ∧ Block.Has ⟨a + n, k⟩ x) := by
    simp only [Block.Has]
    omega
  simp only [cov_cons, cov_nil, hiff]
  by_cases h1 : Block.Has ⟨a, n⟩ x
  · have h2 : ¬Block.Has ⟨a + n, k⟩ x := fun h2 => hnot ⟨h1, h2⟩
    simp [h1, h2]
  · simp [h1]

lemma disj_of_cov {b c : Block} (hb : 0 < b.size) (hc : 0 < c.size)
    (h : ∀ x, b.Has x → ¬c.Has x) : b.Disj c := by
  have h1 := h b.addr ⟨by omega, by omega⟩
  have h2 : ¬b.Has c.addr := fun hx => h c.addr hx ⟨by omega, by omega⟩
  simp only [Block.Has] at h1 h2
  unfold Block.Disj
  omega

lemma disj_of_cov_add {l₁ l₂ : List Block} {x₀ : Nat → Nat} (h : ∀ x, cov l₁ x + cov l₂ x = x₀ x)
    (h₀ : ∀ x, x₀ x ≤ 1) {b c : Block} (hb : b ∈ l₁) (hc : c ∈ l₂) (hbs : 0 < b.size)
    (hcs : 0 < c.size) : b.Disj c := by
  apply disj_of_cov hbs hcs
  intro x hbx hcx
  have h1 := cov_pos hb hbx
  have h2 := cov_pos hc hcx
  have h3 := h x
  have h4 := h₀ x
  omega

lemma pairwise_disj_of_cov {l : List Block} (h : ∀ x, cov l x ≤ 1) (hs : ∀ b ∈ l, 0 < b.size) :
    l.Pairwise Block.Disj := by
  induction l with
  | nil => exact List.Pairwise.nil
  | cons b l ih =>
    refine List.Pairwise.cons ?_ (ih (fun x => ?_) (fun c hc => hs c (by simp [hc])))
    · intro c hc
      apply disj_of_cov (hs b (by simp)) (hs c (by simp [hc]))
      intro x hbx hcx
      have h1 := cov_pos hc hcx
      have h2 := h x
      rw [cov_cons, if_pos hbx] at h2
      omega
    · have h2 := h x
      rw [cov_cons] at h2
      omega

/-- The sum of the sizes. -/
def totalSize (l : List Block) : Nat := (l.map Block.size).sum

@[simp] lemma totalSize_nil : totalSize [] = 0 := rfl

@[simp] lemma totalSize_cons (b : Block) (l : List Block) :
    totalSize (b :: l) = b.size + totalSize l := by
  simp [totalSize]

@[simp] lemma totalSize_append (l₁ l₂ : List Block) :
    totalSize (l₁ ++ l₂) = totalSize l₁ + totalSize l₂ := by
  simp [totalSize]

lemma sum_has (b : Block) {n : Nat} (h : b.addr + b.size ≤ n) :
    ∑ x ∈ Finset.range n, (if b.Has x then 1 else 0) = b.size := by
  have hset : (Finset.range n).filter (fun x => b.Has x) = Finset.Ico b.addr (b.addr + b.size) := by
    ext x
    rw [Finset.mem_filter, Finset.mem_range, Finset.mem_Ico]
    unfold Block.Has
    omega
  rw [← Finset.card_filter, hset]
  simp

lemma totalSize_eq_sum_cov {l : List Block} {n : Nat} (h : ∀ b ∈ l, b.addr + b.size ≤ n) :
    totalSize l = ∑ x ∈ Finset.range n, cov l x := by
  induction l with
  | nil => simp
  | cons b l ih =>
    have ht := ih (fun c hc => h c (by simp [hc]))
    simp only [cov_cons, Finset.sum_add_distrib, totalSize_cons, sum_has b (h b (by simp)), ht]
    omega

end KaworuOS.Lib
