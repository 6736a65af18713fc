import KaworuOS.Bitmap
import KaworuOS.Lib.Chain
import KaworuOS.Lib.Outcome

/-!
# The bitmap allocator marks and clears page ranges

Every function of the allocator acts on the bits of a page range as a whole; the bytes that hold
them do not appear after this module.
-/

namespace KaworuOS.Proofs
open Lib

lemma mem_pageLoop {page n q : Nat} (h : page + n < 2 ^ 64) :
    q ∈ pageLoop page n ↔ (⟨page, n⟩ : Block).Has q := by
  rw [pageLoop, wadd_of_lt h, List.mem_range'_1]
  unfold Block.Has
  simp only
  omega

/-- `alloc'` is `alloc` with the bits of the pages of `b` changed to `v`. -/
structure Marked (alloc : AllocBitMap) (b : Block) (v : Bool) (alloc' : AllocBitMap) : Prop where
  pageCount : alloc'.pageCount = alloc.pageCount
  pool : alloc'.pool = alloc.pool
  inside : ∀ q, b.Has q → alloc'.bitmap.bit q = v
  outside : ∀ q, ¬b.Has q → alloc'.bitmap.bit q = alloc.bitmap.bit q

lemma foldl_bmSetPageAllocate (l : List Nat) (alloc : AllocBitMap) :
    l.foldl bmSetPageAllocate alloc = { alloc with bitmap := l.foldl Mem.setBit alloc.bitmap } := by
  induction l generalizing alloc with
  | nil => rfl
  | cons p l ih => rw [List.foldl_cons, ih]; rfl

lemma foldl_bmSetPageFree (l : List Nat) (alloc : AllocBitMap) :
    l.foldl bmSetPageFree alloc = { alloc with bitmap := l.foldl Mem.clearBit alloc.bitmap } := by
  induction l generalizing alloc with
  | nil => rfl
  | cons p l ih => rw [List.foldl_cons, ih]; rfl

lemma marked_set (alloc : AllocBitMap) {page n : Nat} (h : page + n < 2 ^ 64) :
    Marked alloc ⟨page, n⟩ true ((pageLoop page n).foldl bmSetPageAllocate alloc) := by
  rw [foldl_bmSetPageAllocate]
  refine ⟨rfl, rfl, ?_, ?_⟩
  · intro q hq
    simp [Mem.bit_foldl_setBit, (mem_pageLoop h).mpr hq]
  · intro q hq
    simp [Mem.bit_foldl_setBit, (mem_pageLoop h).not.mpr hq]

lemma marked_clear (alloc : AllocBitMap) {page n : Nat} (h : page + n < 2 ^ 64) :
    Marked alloc ⟨page, n⟩ false ((pageLoop page n).foldl bmSetPageFree alloc) := by
  rw [foldl_bmSetPageFree]
  refine ⟨rfl, rfl, ?_, ?_⟩
  · intro q hq
    simp [Mem.bit_foldl_clearBit, (mem_pageLoop h).mpr hq]
  · intro q hq
    simp [Mem.bit_foldl_clearBit, (mem_pageLoop h).not.mpr hq]

lemma bmRangeAsserts_iff {alloc : AllocBitMap} {page n : Nat} (hn : n ≤ 2 ^ 52)
    (hsize : alloc.pageCount ≤ 2 ^ 52) :
    bmRangeAsserts alloc page n = true ↔ page + n ≤ alloc.pageCount ∧ 0 < n := by
  unfold bmRangeAsserts
  by_cases hpage : page < alloc.pageCount
  · rw [wadd_of_lt (by omega)]
    simp [hpage]
  · simp [hpage]
    omega

lemma bmAllocate_ok {alloc alloc' : AllocBitMap} {page n va : Nat} (hn : n ≤ 2 ^ 52)
    (hsize : alloc.pageCount ≤ 2 ^ 52) (h : bmAllocate alloc page n = .ok (va, alloc')) :
    page + n ≤ alloc.pageCount ∧ 0 < n ∧ va = bmPageToAddr alloc page ∧
      Marked alloc ⟨page, n⟩ true alloc' := by
  unfold bmAllocate at h
  split at h
  · rename_i hasserts
    obtain ⟨h1, h2⟩ := (bmRangeAsserts_iff hn hsize).mp hasserts
    cases h
    exact ⟨h1, h2, rfl, marked_set alloc (by omega)⟩
  · cases h

lemma bmAllocate_returns {alloc : AllocBitMap} {page n : Nat} (hn : n ≤ 2 ^ 52)
    (hsize : alloc.pageCount ≤ 2 ^ 52) (hin : page + n ≤ alloc.pageCount) (hpos : 0 < n) :
    ∃ alloc', bmAllocate alloc page n = .ok (bmPageToAddr alloc page, alloc') := by
  unfold bmAllocate
  rw [if_pos ((bmRangeAsserts_iff hn hsize).mpr ⟨hin, hpos⟩)]
  exact ⟨_, rfl⟩

lemma bmAddrToPage_ok {alloc : AllocBitMap} {addr page : Nat} (h : bmAddrToPage alloc addr = .ok page) :
    alloc.pool ≤ addr ∧ page = (addr - alloc.pool) / 4096 := by
  unfold bmAddrToPage at h
  split at h
  · cases h
  · split at h
    · cases h
    · cases h
      exact ⟨by omega, rfl⟩

lemma bmAddrToPage_eq {alloc : AllocBitMap} {addr : Nat} (h1 : alloc.pool ≤ addr)
    (h2 : addr < alloc.pool + alloc.pageCount * 4096)
    (h3 : alloc.pool + alloc.pageCount * 4096 < 2 ^ 64) :
    bmAddrToPage alloc addr = .ok ((addr - alloc.pool) / 4096) := by
  unfold bmAddrToPage PAGE_SIZE
  rw [wmul_of_lt (by omega), wadd_of_lt h3, if_neg (by omega), if_neg (by omega)]

lemma bmFree_pool_le {alloc alloc' : AllocBitMap} {addr n : Nat} (h : bmFree alloc addr n = .ok alloc') :
    alloc.pool ≤ addr := by
  unfold bmFree at h
  obtain ⟨page, hpage, -⟩ := bind_eq_ok.mp h
  exact (bmAddrToPage_ok hpage).1

lemma bmFree_ok {alloc alloc' : AllocBitMap} {addr n : Nat} (hn : n ≤ 2 ^ 52)
    (hsize : alloc.pageCount ≤ 2 ^ 52) (h : bmFree alloc addr n = .ok alloc') :
    alloc.pool ≤ addr ∧ (addr - alloc.pool) / 4096 + n ≤ alloc.pageCount ∧ 0 < n ∧
      Marked alloc ⟨(addr - alloc.pool) / 4096, n⟩ false alloc' := by
  unfold bmFree at h
  obtain ⟨page, hpage, h⟩ := bind_eq_ok.mp h
  obtain ⟨hpool, rfl⟩ := bmAddrToPage_ok hpage
  split at h
  · rename_i hasserts
    obtain ⟨h1, h2⟩ := (bmRangeAsserts_iff hn hsize).mp hasserts
    split at h
    · cases h
      exact ⟨hpool, h1, h2, marked_clear alloc (by omega)⟩
    · cases h
  · cases h

lemma bmFree_returns {alloc : AllocBitMap} {addr n : Nat} (hn : n ≤ 2 ^ 52)
    (h1 : alloc.pool ≤ addr) (h2 : (addr - alloc.pool) / 4096 + n ≤ alloc.pageCount) (hpos : 0 < n)
    (h3 : alloc.pool + alloc.pageCount * 4096 < 2 ^ 64)
    (hset : ∀ q, (⟨(addr - alloc.pool) / 4096, n⟩ : Block).Has q → alloc.bitmap.bit q = true) :
    ∃ alloc', bmFree alloc addr n = .ok alloc' := by
  have hall : (pageLoop ((addr - alloc.pool) / 4096) n).all (bmGetPageAllocated alloc) = true := by
    rw [List.all_eq_true]
    intro q hq
    exact hset q ((mem_pageLoop (by omega)).mp hq)
  rw [bmFree, bmAddrToPage_eq h1 (by omega) h3]
  simp only [bind, Except.bind]
  rw [if_pos ((bmRangeAsserts_iff hn (by omega)).mpr ⟨h2, hpos⟩), if_pos hall]
  exact ⟨_, rfl⟩

/-- The inner search loop counts the free pages up to the first one that is taken. -/
lemma bmCountFreePages_spec {alloc : AllocBitMap} {start : Nat} (hsize : alloc.pageCount ≤ 2 ^ 52) :
    ∀ (left i : Nat), start + i + left ≤ alloc.pageCount →
      ∃ k, bmCountFreePages alloc start left i = .ok k ∧ i ≤ k ∧ k ≤ i + left ∧
        (∀ q, i ≤ q → q < k → alloc.bitmap.bit (start + q) = false) ∧
        (k < i + left → alloc.bitmap.bit (start + k) = true) := by
  intro left
  induction left with
  | zero =>
    intro i _
    exact ⟨i, rfl, le_refl _, le_refl _, fun q h1 h2 => by omega, fun hlt => by omega⟩
  | succ left ih =>
    intro i hin
    have hcheck : bmIsPageAllocated alloc (wadd start i) = .ok (alloc.bitmap.bit (start + i)) := by
      rw [wadd_of_lt (by omega), bmIsPageAllocated, if_neg (by omega)]
      rfl
    rw [bmCountFreePages, hcheck]
    cases hbit : alloc.bitmap.bit (start + i) with
    | true => exact ⟨i, rfl, le_refl _, by omega, fun q h1 h2 => by omega, fun _ => hbit⟩
    | false =>
      obtain ⟨k, hk, h1, h2, h3, h4⟩ := ih (i + 1) (by omega)
      refine ⟨k, hk, by omega, by omega, ?_, fun hlt => h4 (by omega)⟩
      intro q hq hqk
      by_cases hqi : q = i
      · rw [hqi, hbit]
      · exact h3 q (by omega) hqk

/-- No `n` free pages follow each other from `start` on. -/
def NoRun (alloc : AllocBitMap) (start n : Nat) : Prop :=
  ∀ p, start ≤ p → p + n ≤ alloc.pageCount → ∃ q, (⟨p, n⟩ : Block).Has q ∧ alloc.bitmap.bit q = true

/-- The outer search loop ends, with the first range of free pages if there is one. -/
lemma bmFindFrom_spec {alloc : AllocBitMap} {n : Nat} (hsize : alloc.pageCount ≤ 2 ^ 52)
    (hn : n ≤ 2 ^ 52) : ∀ (fuel start : Nat), start ≤ alloc.pageCount + 1 →
      alloc.pageCount + 2 ≤ fuel + start → ∃ r, bmFindFrom alloc n fuel start = .ok r ∧
        ((r = 2 ^ 64 - 1 ∧ NoRun alloc start n) ∨ r + n ≤ alloc.pageCount ∧
          (∀ q, (⟨r, n⟩ : Block).Has q → alloc.bitmap.bit q = false) ∧
          ∀ p, start ≤ p → p < r → ∃ q, (⟨p, n⟩ : Block).Has q ∧ alloc.bitmap.bit q = true) := by
  intro fuel
  induction fuel with
  | zero =>
    intro start h1 h2
    omega
  | succ fuel ih =>
    intro start h1 h2
    rw [bmFindFrom, wadd_of_lt (by omega)]
    by_cases hin : start + n ≤ alloc.pageCount
    · rw [if_pos hin]
      obtain ⟨k, hk, -, hkn, hfree, htaken⟩ := bmCountFreePages_spec hsize n 0 (by omega)
      rw [hk]
      simp only [bind, Except.bind]
      by_cases hkeq : k = n
      · rw [if_pos hkeq]
        refine ⟨start, rfl, .inr ⟨hin, ?_, fun p h1 h2 => absurd h1 (by omega)⟩⟩
        intro q hq
        unfold Block.Has at hq
        simp only at hq
        have hbit := hfree (q - start) (by omega) (by omega)
        rwa [show start + (q - start) = q by omega] at hbit
      · rw [if_neg hkeq, wadd_of_lt (by omega)]
        -- the taken page that ended the count lies in every range that begins before it
        have hskip : ∀ p, start ≤ p → p ≤ start + k → ∃ q, (⟨p, n⟩ : Block).Has q ∧ alloc.bitmap.bit q = true :=
          fun p h1 h2 => ⟨start + k, by unfold Block.Has; simp only; omega, htaken (by omega)⟩
        obtain ⟨r, hr, hcase⟩ := ih (start + (k + 1)) (by omega) (by omega)
        refine ⟨r, hr, ?_⟩
        rcases hcase with ⟨hr, hnone⟩ | ⟨hrn, hclear, hfirst⟩
        · refine .inl ⟨hr, ?_⟩
          intro p hp hpn
          by_cases hbefore : p ≤ start + k
          · exact hskip p hp hbefore
          · exact hnone p (by omega) hpn
        · refine .inr ⟨hrn, hclear, ?_⟩
          intro p hp hpr
          by_cases hbefore : p ≤ start + k
          · exact hskip p hp hbefore
          · exact hfirst p (by omega) hpr
    · rw [if_neg hin]
      refine ⟨_, rfl, .inl ⟨rfl, ?_⟩⟩
      intro p hp hpn
      omega

/-- `bitmap_alloc` either finds no room and changes nothing, or marks the first range of free pages. -/
lemma bitmapAlloc_spec {alloc : AllocBitMap} {n : Nat} (hsize : alloc.pageCount ≤ 2 ^ 52)
    (hn : n ≤ 2 ^ 52) (hpos : 0 < n) :
    (bitmapAlloc alloc n = .ok (errToPtr .ENOMEM, alloc) ∧ NoRun alloc 0 n) ∨
    ∃ page alloc', bitmapAlloc alloc n = .ok (bmPageToAddr alloc page, alloc') ∧
      page + n ≤ alloc.pageCount ∧ (∀ q, (⟨page, n⟩ : Block).Has q → alloc.bitmap.bit q = false) ∧
      Marked alloc ⟨page, n⟩ true alloc' ∧
      ∀ p < page, ∃ q, (⟨p, n⟩ : Block).Has q ∧ alloc.bitmap.bit q = true := by
  obtain ⟨r, hr, hcase⟩ := bmFindFrom_spec hsize hn (alloc.pageCount + 2) 0 (by omega) (by omega)
  rw [bitmapAlloc, bmFindNFreePages, hr]
  simp only [bind, Except.bind]
  rcases hcase with ⟨rfl, hnone⟩ | ⟨hin, hfree, hfirst⟩
  · exact .inl ⟨rfl, hnone⟩
  · right
    have hne : r ≠ wordSize - 1 := by
      unfold wordSize
      omega
    rw [if_neg hne]
    obtain ⟨alloc', hok⟩ := bmAllocate_returns hn hsize hin hpos
    exact ⟨r, alloc', hok, hin, hfree, (bmAllocate_ok hn hsize hok).2.2.2, fun p hp => hfirst p (Nat.zero_le p) hp⟩

lemma bmAnyAllocated_false {alloc : AllocBitMap} {l : List Nat} (h : bmAnyAllocated alloc l = .ok false) :
    ∀ q ∈ l, alloc.bitmap.bit q = false := by
  induction l with
  | nil => simp
  | cons p l ih =>
    rw [bmAnyAllocated] at h
    obtain ⟨taken, hcheck, h⟩ := bind_eq_ok.mp h
    cases taken with
    | true => simp at h
    | false =>
      have hbit : alloc.bitmap.bit p = false := by
        unfold bmIsPageAllocated at hcheck
        split at hcheck
        · cases hcheck
        · exact Except.ok.inj hcheck
      intro q hq
      rcases List.mem_cons.mp hq with rfl | hq
      · exact hbit
      · exact ih (by simpa using h) q hq

/-- A call of `bitmap_reserve` that returns either changes nothing or marks a range of free
pages. -/
lemma bitmapReserve_ok {alloc alloc' : AllocBitMap} {addr n : Nat} {err : Errno}
    (hsize : alloc.pageCount ≤ 2 ^ 52) (hn : n ≤ 2 ^ 52)
    (h : bitmapReserve alloc addr n = .ok (err, alloc')) :
    (err = .ENOMEM ∧ alloc' = alloc) ∨
    (err = .EOK ∧ alloc.pool ≤ addr ∧ (addr - alloc.pool) / 4096 + n ≤ alloc.pageCount ∧ 0 < n ∧
      (∀ q, (⟨(addr - alloc.pool) / 4096, n⟩ : Block).Has q → alloc.bitmap.bit q = false) ∧
      Marked alloc ⟨(addr - alloc.pool) / 4096, n⟩ true alloc') := by
  unfold bitmapReserve at h
  obtain ⟨page, hpage, h⟩ := bind_eq_ok.mp h
  obtain ⟨hpool, rfl⟩ := bmAddrToPage_ok hpage
  obtain ⟨taken, hcheck, h⟩ := bind_eq_ok.mp h
  cases taken with
  | true =>
    left
    simp only [if_true] at h
    cases h
    exact ⟨rfl, rfl⟩
  | false =>
    right
    simp only [Bool.false_eq_true, if_false] at h
    obtain ⟨⟨va, alloc₁⟩, halloc, h⟩ := bind_eq_ok.mp h
    cases h
    obtain ⟨hin, hpos, -, hmarked⟩ := bmAllocate_ok hn hsize halloc
    refine ⟨rfl, hpool, hin, hpos, ?_, hmarked⟩
    intro q hq
    exact bmAnyAllocated_false hcheck q ((mem_pageLoop (by omega)).mpr hq)

lemma bmAnyAllocated_eq (alloc : AllocBitMap) {l : List Nat} (h : ∀ q ∈ l, q < alloc.pageCount) :
    bmAnyAllocated alloc l = .ok (l.any alloc.bitmap.bit) := by
  induction l with
  | nil => rfl
  | cons p l ih =>
    have hp : bmIsPageAllocated alloc p = .ok (alloc.bitmap.bit p) := by
      have hlt := h p (by simp)
      rw [bmIsPageAllocated, if_neg (by omega)]
      rfl
    rw [bmAnyAllocated, hp, List.any_cons, ih (fun q hq => h q (List.mem_cons_of_mem _ hq))]
    cases alloc.bitmap.bit p with
    | false => rfl
    | true => rfl

/-- `bitmap_reserve` inside the pool: some page is taken, or all are marked. -/
lemma bitmapReserve_cases {alloc : AllocBitMap} {addr n : Nat} (hsize : alloc.pageCount ≤ 2 ^ 52) (hpos : 0 < n)
    (h1 : alloc.pool ≤ addr) (h2 : (addr - alloc.pool) / 4096 + n ≤ alloc.pageCount)
    (h3 : alloc.pool + alloc.pageCount * 4096 < 2 ^ 64) :
    ((∃ q, (⟨(addr - alloc.pool) / 4096, n⟩ : Block).Has q ∧ alloc.bitmap.bit q = true) ∧
      bitmapReserve alloc addr n = .ok (.ENOMEM, alloc)) ∨
    ∃ alloc', bitmapReserve alloc addr n = .ok (.EOK, alloc') := by
  have hloop : ∀ q, q ∈ pageLoop ((addr - alloc.pool) / 4096) n ↔ (⟨(addr - alloc.pool) / 4096, n⟩ : Block).Has q :=
    fun q => mem_pageLoop (by omega)
  have hany := bmAnyAllocated_eq alloc (l := pageLoop ((addr - alloc.pool) / 4096) n) (by
    intro q hq
    have hin := (hloop q).mp hq
    unfold Block.Has at hin
    simp only at hin
    omega)
  rw [bitmapReserve, bmAddrToPage_eq h1 (by omega) h3]
  show (_ ∧ (bmAnyAllocated alloc _ >>= _) = _) ∨ ∃ alloc', (bmAnyAllocated alloc _ >>= _) = _
  rw [hany]
  cases htaken : (pageLoop ((addr - alloc.pool) / 4096) n).any alloc.bitmap.bit with
  | true =>
    left
    obtain ⟨q, hq, hbit⟩ := List.any_eq_true.mp htaken
    exact ⟨⟨q, (hloop q).mp hq, hbit⟩, rfl⟩
  | false =>
    right
    obtain ⟨alloc', halloc⟩ : ∃ alloc', bmAllocate alloc ((addr - alloc.pool) / 4096) n = .ok (_, alloc') :=
      bmAllocate_returns (by omega) hsize h2 hpos
    refine ⟨alloc', ?_⟩
    show (bmAllocate alloc _ n >>= _) = _
    rw [halloc]
    rfl

end KaworuOS.Proofs
