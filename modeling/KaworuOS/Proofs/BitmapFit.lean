import KaworuOS.Proofs.Bitmap

/-!
# The bitmap allocator is first fit

The search jumps over the taken page that ended a count. No range that begins before this page and has not been
looked at could have fitted, so the range that is found is the first one.
-/

namespace KaworuOS.Proofs
open Lib

variable {alloc alloc' : AllocBitMap} {start n : Nat}

/-- The `n` pages from `start` on lie in the pool and are free. -/
def FreeRun (alloc : AllocBitMap) (start n : Nat) : Prop :=
  start + n ≤ alloc.pageCount ∧ ∀ q, start ≤ q → q < start + n → bmGetPageAllocated alloc q = false

/-- The first `n` pages that are free. -/
def FirstRun (alloc : AllocBitMap) (start n : Nat) : Prop :=
  FreeRun alloc start n ∧ ∀ p < start, ¬FreeRun alloc p n

/-- `alloc'` is `alloc` with exactly the bits of the `n` pages from `start` on set. -/
def BitsSet (alloc alloc' : AllocBitMap) (start n : Nat) : Prop :=
  alloc'.pageCount = alloc.pageCount ∧ alloc'.pool = alloc.pool ∧
    ∀ q, bmGetPageAllocated alloc' q = (decide (start ≤ q ∧ q < start + n) || bmGetPageAllocated alloc q)

lemma not_freeRun {p : Nat} (h : ∃ q, (⟨p, n⟩ : Block).Has q ∧ alloc.bitmap.bit q = true) : ¬FreeRun alloc p n := by
  obtain ⟨q, hq, hbit⟩ := h
  intro hfree
  have hclear : alloc.bitmap.bit q = false := hfree.2 q hq.1 hq.2
  rw [hbit] at hclear
  cases hclear

lemma Marked.bitsSet (h : Marked alloc ⟨start, n⟩ true alloc') : BitsSet alloc alloc' start n := by
  refine ⟨h.pageCount, h.pool, ?_⟩
  intro q
  by_cases hq : start ≤ q ∧ q < start + n
  · have hset : alloc'.bitmap.bit q = true := h.inside q hq
    simp [bmGetPageAllocated, hset, hq]
  · have hsame : alloc'.bitmap.bit q = alloc.bitmap.bit q := h.outside q hq
    simp [bmGetPageAllocated, hsame, hq]

/-- A request that is larger than the pool fails at the first look. -/
lemma bitmapAlloc_of_large (hn : alloc.pageCount < n) (hn' : n < 2 ^ 64) :
    bitmapAlloc alloc n = .ok (errToPtr .ENOMEM, alloc) := by
  have hfind : bmFindNFreePages alloc n = .ok (wordSize - 1) := by
    rw [bmFindNFreePages, bmFindFrom, wadd_of_lt (by omega), if_neg (by omega)]
  rw [bitmapAlloc, hfind]
  rfl

section Pool

variable (hpool : alloc.pool + alloc.pageCount * 4096 < 2 ^ 64)
include hpool

lemma bmPageToAddr_eq (hstart : start ≤ alloc.pageCount) : bmPageToAddr alloc start = alloc.pool + 4096 * start := by
  have hmul : wmul start PAGE_SIZE = 4096 * start := by
    rw [wmul_of_lt (by simp only [PAGE_SIZE]; omega), Nat.mul_comm]
  rw [bmPageToAddr, hmul, wadd_of_lt (by omega)]

/-- `bitmap_alloc` takes the first range, or there is none and it changes nothing. -/
lemma bitmapAlloc_cases (hn : 1 ≤ n) (hn' : n < 2 ^ 64) :
    (bitmapAlloc alloc n = .ok (errToPtr .ENOMEM, alloc) ∧ ∀ start, ¬FreeRun alloc start n) ∨
    ∃ start alloc', bitmapAlloc alloc n = .ok (alloc.pool + 4096 * start, alloc') ∧ FirstRun alloc start n ∧
      Marked alloc ⟨start, n⟩ true alloc' := by
  by_cases hlarge : alloc.pageCount < n
  · refine .inl ⟨bitmapAlloc_of_large hlarge hn', ?_⟩
    intro start hfree
    have h1 := hfree.1
    omega
  · have hsize : alloc.pageCount ≤ 2 ^ 52 := by omega
    rcases bitmapAlloc_spec hsize (by omega) hn with ⟨hfail, hnone⟩ | ⟨page, alloc', hok, hin, hfree, hmarked, hfirst⟩
    · refine .inl ⟨hfail, ?_⟩
      intro start hfree
      exact not_freeRun (hnone start (Nat.zero_le start) hfree.1) hfree
    · rw [bmPageToAddr_eq hpool (by omega)] at hok
      exact .inr ⟨page, alloc', hok,
        ⟨⟨hin, fun q h1 h2 => hfree q ⟨h1, h2⟩⟩, fun p hp => not_freeRun (hfirst p hp)⟩, hmarked⟩

/-- Freeing the pages that were just marked gives the bitmap back, byte by byte. -/
lemma bitmapFree_marked (hn : 1 ≤ n) (hfree : FreeRun alloc start n) (hmarked : Marked alloc ⟨start, n⟩ true alloc') :
    bitmapFree alloc' (alloc.pool + 4096 * start) n = .ok alloc := by
  have hin := hfree.1
  have hpage : (alloc.pool + 4096 * start - alloc'.pool) / 4096 = start := by
    rw [hmarked.pool]
    omega
  obtain ⟨alloc₂, hok⟩ : ∃ alloc₂, bmFree alloc' (alloc.pool + 4096 * start) n = .ok alloc₂ := by
    apply bmFree_returns (by omega) (by rw [hmarked.pool]; omega) (by rw [hpage, hmarked.pageCount]; omega) hn
      (by rw [hmarked.pool, hmarked.pageCount]; omega)
    rw [hpage]
    exact hmarked.inside
  obtain ⟨-, -, -, hcleared⟩ := bmFree_ok (by omega) (by rw [hmarked.pageCount]; omega) hok
  rw [hpage] at hcleared
  have hbitmap : alloc₂.bitmap = alloc.bitmap := by
    apply Mem.eq_of_bit
    intro q
    by_cases hq : (⟨start, n⟩ : Block).Has q
    · rw [hcleared.inside q hq]
      exact (hfree.2 q hq.1 hq.2).symm
    · rw [hcleared.outside q hq, hmarked.outside q hq]
  have hsame : alloc₂ = alloc := by
    have h1 := hcleared.pageCount.trans hmarked.pageCount
    have h2 := hcleared.pool.trans hmarked.pool
    cases alloc₂
    cases alloc
    simp_all
  rw [bitmapFree, hok, hsame]

/-- **`bitmap_alloc` is first fit**: it returns the first range of free pages and sets exactly their bits, it
fails and changes nothing exactly when there is none, and `bitmap_free` undoes it. -/
theorem bitmap_alloc_first_fit (hn : 1 ≤ n) (hn' : n < 2 ^ 64) :
    (∀ start, FirstRun alloc start n →
      ∃ alloc', bitmapAlloc alloc n = .ok (alloc.pool + 4096 * start, alloc') ∧ BitsSet alloc alloc' start n ∧
        bitmapFree alloc' (alloc.pool + 4096 * start) n = .ok alloc) ∧
    (bitmapAlloc alloc n = .ok (errToPtr .ENOMEM, alloc) ↔ ¬∃ start, FreeRun alloc start n) := by
  rcases bitmapAlloc_cases hpool hn hn' with ⟨hfail, hnone⟩ | ⟨first, alloc', hok, hfirst, hmarked⟩
  · exact ⟨fun start hfirst => absurd hfirst.1 (hnone start), fun _ ⟨start, hfree⟩ => hnone start hfree, fun _ => hfail⟩
  · constructor
    · intro start hstart
      have hsame : start = first := by
        by_contra hne
        rcases Nat.lt_or_gt_of_ne hne with hlt | hgt
        · exact hfirst.2 start hlt hstart.1
        · exact hstart.2 first hgt hfirst.1
      subst hsame
      exact ⟨alloc', hok, hmarked.bitsSet, bitmapFree_marked hpool hn hstart.1 hmarked⟩
    · constructor
      · intro hfail
        have hin := hfirst.1.1
        have haddr : alloc.pool + 4096 * first = errToPtr .ENOMEM := by
          rw [hok] at hfail
          exact (Prod.mk.inj (Except.ok.inj hfail)).1
        -- the address of a page of the pool is no error pointer
        have herr : errToPtr .ENOMEM = 2 ^ 64 - 12 := by decide
        omega
      · intro hnone
        exact absurd ⟨first, hfirst.1⟩ hnone

end Pool

/-- Eight pages, of which the first and the third are taken. -/
def twoTaken : AllocBitMap := ⟨fun _ => 5, 8, 0x10000⟩

lemma twoTaken_first : FirstRun twoTaken 3 2 := by
  refine ⟨⟨by decide, ?_⟩, ?_⟩
  · intro q h1 h2
    obtain rfl | rfl : q = 3 ∨ q = 4 := by omega
    · decide
    · decide
  · intro p hp hfree
    obtain rfl | hp : p = 0 ∨ (p = 1 ∨ p = 2) := by omega
    · exact absurd (hfree.2 0 (by omega) (by omega)) (by decide)
    · exact absurd (hfree.2 2 (by omega) (by omega)) (by decide)

/-- Two pages are found behind the third. -/
theorem bitmap_alloc_first_fit_twoTaken :
    ∃ alloc', bitmapAlloc twoTaken 2 = .ok (0x13000, alloc') ∧ BitsSet twoTaken alloc' 3 2 ∧
      bitmapFree alloc' 0x13000 2 = .ok twoTaken :=
  (bitmap_alloc_first_fit (by decide) (by decide) (by decide)).1 3 twoTaken_first

end KaworuOS.Proofs
