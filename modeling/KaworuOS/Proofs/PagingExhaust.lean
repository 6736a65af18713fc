import KaworuOS.Proofs.PagingRefines
import Mathlib.Data.Finset.Card

/-!
# Page tables when the frames run out

A call of `paging_map` needs one frame for every table on the way to its pages that is not there.
`pmm_alloc` fails in the middle of a walk exactly when these are more than the free frames, and the
walk then goes on with the error value.
-/

namespace KaworuOS.Proofs
open Lib

/-- The keys of the tables of level `l` that are not there for `n` pages from `p` on. -/
def missingKeys (T : Tree) (l p n : Nat) : Finset Nat :=
  ((Finset.range n).image (fun i => (p + i) / 512 ^ (4 - l))).filter (fun k => T.node l k = none)

/-- How many tables are not there for `n` pages from `p` on. -/
def tablesNeeded (T : Tree) (p n : Nat) : Nat :=
  (missingKeys T 1 p n).card + (missingKeys T 2 p n).card + (missingKeys T 3 p n).card

/-- Every page takes `c` frames for itself beside those of its tables. With `m` free frames there are
not enough of them for some page of the range, and no page before it is mapped already. -/
def Starved (c : Nat) (T : Tree) (m p n : Nat) : Prop :=
  ∃ i < n, m < c * (i + 1) + tablesNeeded T p (i + 1) ∧ ∀ j < i, T.leaf (p + j) = none

variable {s s' : Mm} {root l k p f va pa n m base : Nat} {T T' : Tree} {free free' used : List Nat}

lemma mem_missingKeys : k ∈ missingKeys T l p n ↔
    (∃ i < n, (p + i) / 512 ^ (4 - l) = k) ∧ T.node l k = none := by
  simp [missingKeys]

lemma card_missingKeys_succ (hnodes : ∀ k, T'.node l k = none ↔ T.node l k = none ∧ k ≠ p / 512 ^ (4 - l)) :
    (missingKeys T l p (n + 1)).card = miss T l (p / 512 ^ (4 - l)) + (missingKeys T' l (p + 1) n).card := by
  have hmem : ∀ k, k ∈ missingKeys T l p (n + 1) ↔
      (k = p / 512 ^ (4 - l) ∧ T.node l k = none) ∨ k ∈ missingKeys T' l (p + 1) n := by
    intro k
    rw [mem_missingKeys, mem_missingKeys, hnodes]
    constructor
    · rintro ⟨⟨i, hi, rfl⟩, hnone⟩
      by_cases hfirst : (p + i) / 512 ^ (4 - l) = p / 512 ^ (4 - l)
      · exact .inl ⟨hfirst, hnone⟩
      · cases i with
        | zero => exact absurd rfl hfirst
        | succ i => exact .inr ⟨⟨i, by omega, by rw [Nat.add_assoc, Nat.add_comm 1]⟩, hnone, hfirst⟩
    · rintro (⟨rfl, hnone⟩ | ⟨⟨i, hi, rfl⟩, hnone, -⟩)
      · exact ⟨⟨0, by omega, rfl⟩, hnone⟩
      · exact ⟨⟨i + 1, by omega, by rw [Nat.add_assoc, Nat.add_comm 1]⟩, hnone⟩
  by_cases hnone : T.node l (p / 512 ^ (4 - l)) = none
  · have hset : missingKeys T l p (n + 1) = insert (p / 512 ^ (4 - l)) (missingKeys T' l (p + 1) n) := by
      ext k
      rw [hmem, Finset.mem_insert]
      constructor
      · rintro (⟨hk, -⟩ | hk)
        · exact .inl hk
        · exact .inr hk
      · rintro (rfl | hk)
        · exact .inl ⟨rfl, hnone⟩
        · exact .inr hk
    have hnot : p / 512 ^ (4 - l) ∉ missingKeys T' l (p + 1) n := by
      rw [mem_missingKeys, hnodes]
      exact fun hk => hk.2.2 rfl
    rw [hset, Finset.card_insert_of_notMem hnot, miss, if_pos hnone, Nat.add_comm]
  · have hset : missingKeys T l p (n + 1) = missingKeys T' l (p + 1) n := by
      ext k
      rw [hmem]
      constructor
      · rintro (⟨rfl, hk⟩ | hk)
        · exact absurd hk hnone
        · exact hk
      · exact .inr
    rw [hset, miss, if_neg hnone, Nat.zero_add]

/-- The tables for `n + 1` pages are those for the first page and, once these are there, those for
the others. -/
lemma tablesNeeded_succ (hnodes : ∀ l k, T'.node l k ≠ none ↔ T.node l k ≠ none ∨ OnPath p l k) :
    tablesNeeded T p (n + 1) = missing T p + tablesNeeded T' (p + 1) n := by
  have hkeys : ∀ l, 1 ≤ l → l ≤ 3 → ∀ k, T'.node l k = none ↔ T.node l k = none ∧ k ≠ p / 512 ^ (4 - l) := by
    intro l h1 h3 k
    have hiff := not_congr (hnodes l k)
    rw [not_not, not_or, not_not] at hiff
    rw [hiff]
    apply and_congr_right
    intro _
    unfold OnPath
    obtain rfl | rfl | rfl : l = 1 ∨ l = 2 ∨ l = 3 := by omega
    · simp [Nat.div_div_eq_div_mul]
    · simp [Nat.div_div_eq_div_mul]
    · simp
  have h1 := card_missingKeys_succ (n := n) (hkeys 1 (by omega) (by omega))
  have h2 := card_missingKeys_succ (n := n) (hkeys 2 (by omega) (by omega))
  have h3 := card_missingKeys_succ (n := n) (hkeys 3 (by omega) (by omega))
  have hmissing : missing T p = miss T 1 (p / 512 ^ (4 - 1)) + miss T 2 (p / 512 ^ (4 - 2)) +
      miss T 3 (p / 512 ^ (4 - 3)) := by
    simp [missing, Nat.div_div_eq_div_mul]
  unfold tablesNeeded
  omega

lemma tablesNeeded_one (T : Tree) (p : Nat) : tablesNeeded T p 1 = missing T p := by
  have hcard : ∀ l, (missingKeys T l p 1).card = miss T l (p / 512 ^ (4 - l)) := by
    intro l
    by_cases hnone : T.node l (p / 512 ^ (4 - l)) = none
    · simp [missingKeys, miss, Finset.filter_singleton, hnone]
    · simp [missingKeys, miss, Finset.filter_singleton, hnone]
  simp [tablesNeeded, hcard, missing, Nat.div_div_eq_div_mul]

lemma not_starved_zero {c : Nat} : ¬Starved c T m p 0 := by
  rintro ⟨i, hi, -⟩
  omega

lemma starved_succ {c count : Nat} (hnone : T.leaf p = none) (hm : c + missing T p + m = count)
    (hnodes : ∀ l k, T'.node l k ≠ none ↔ T.node l k ≠ none ∨ OnPath p l k)
    (hleaf : ∀ q, q ≠ p → T'.leaf q = T.leaf q) :
    Starved c T count p (n + 1) ↔ Starved c T' m (p + 1) n := by
  constructor
  · rintro ⟨i, hi, hlt, hfree⟩
    cases i with
    | zero =>
      rw [tablesNeeded_one] at hlt
      omega
    | succ i =>
      rw [tablesNeeded_succ hnodes, Nat.mul_succ] at hlt
      refine ⟨i, by omega, by omega, ?_⟩
      intro j hj
      rw [hleaf _ (by omega), Nat.add_assoc, Nat.add_comm 1]
      exact hfree (j + 1) (by omega)
  · rintro ⟨i, hi, hlt, hfree⟩
    refine ⟨i + 1, by omega, ?_, ?_⟩
    · rw [tablesNeeded_succ hnodes, Nat.mul_succ]
      omega
    · intro j hj
      cases j with
      | zero => exact hnone
      | succ j =>
        have h1 := hfree j (by omega)
        rwa [hleaf _ (by omega), Nat.add_assoc, Nat.add_comm 1] at h1

lemma not_starved_of_mapped {c : Nat} (hold : T.leaf p ≠ none) (hm : c + missing T p ≤ m) : ¬Starved c T m p n := by
  rintro ⟨i, hi, hlt, hfree⟩
  cases i with
  | zero =>
    rw [tablesNeeded_one] at hlt
    omega
  | succ i => exact hold (hfree 0 (by omega))

lemma starved_first {c : Nat} (hm : m < c + missing T p) : Starved c T m p (n + 1) := by
  refine ⟨0, by omega, ?_, by omega⟩
  rw [tablesNeeded_one]
  omega

lemma TreeRep.missing_eq_zero {hhdm : Nat} {mem : Mem} (h : TreeRep hhdm mem root T) (hp : T.leaf p ≠ none) :
    missing T p = 0 := by
  obtain ⟨leaf, hleaf⟩ := Option.ne_none_iff_exists'.mp hp
  obtain ⟨f₃, h₃⟩ := h.leafTable hleaf
  obtain ⟨f₂, h₂⟩ := h.parent h₃
  obtain ⟨f₁, h₁⟩ := h.parent h₂
  simp [missing, miss, h₁, h₂, h₃]

lemma pagingMapPages_fails_iff (h : TableInv s root T free) (attrs : PageAttrs)
    (hva : va % 2 ^ 48 + n * 4096 ≤ 2 ^ 48) (haligned : pa % 4096 = 0) (hpa : pa + n * 4096 ≤ 2 ^ 48) :
    failures s < failures (pagingMapPages (root + s.hhdm) attrs n va pa s).2 ↔
      Starved 0 T free.length (pageOf va) n := by
  induction n generalizing s T free va pa with
  | zero => exact ⟨fun hlt => absurd hlt (Nat.lt_irrefl _), fun hst => absurd hst not_starved_zero⟩
  | succ n ih =>
    rcases pagingMapPages_succ h attrs n va ⟨haligned, by omega⟩ with
      ⟨hfail, hlt⟩ | ⟨hold, -⟩ | ⟨s₁, T₁, free₁, used₁, hnone, hrun, hm⟩
    · exact ⟨fun _ => starved_first (by omega), fun _ => hfail⟩
    · -- a mapped page has all its tables, so the walk takes no frame before the panic
      have hzero := h.tree.missing_eq_zero hold
      rcases walk_grow h va with ⟨-, hlen⟩ | ⟨f, s', T', free', used, hwalk, hw⟩
      · omega
      · refine ⟨fun hlt => ?_, fun hst => absurd hst (not_starved_of_mapped hold (by omega))⟩
        rw [pagingMapPages_conflict hwalk hw hold, hw.grows.failures_eq] at hlt
        exact absurd hlt (Nat.lt_irrefl _)
    · have hlen := hm.grows.length
      have hused := hm.length
      have hleaf : ∀ q, q ≠ pageOf va → T₁.leaf q = T.leaf q := by
        intro q hq
        rw [hm.leaf, Function.update_of_ne hq]
      rw [hrun, starved_succ (m := free₁.length) hnone (by omega) hm.nodes hleaf, ← hm.grows.failures_eq]
      cases n with
      | zero => exact ⟨fun hlt => absurd hlt (Nat.lt_irrefl _), fun hst => absurd hst not_starved_zero⟩
      | succ n =>
        have hnext : pageOf (wadd va PAGE_SIZE) = pageOf va + 1 := pageOf_wadd (by omega)
        have hpa' : wadd pa PAGE_SIZE = pa + 4096 := wadd_of_lt (by simp only [PAGE_SIZE]; omega)
        have hva' : wadd va PAGE_SIZE % 2 ^ 48 = va % 2 ^ 48 + 4096 := by
          unfold wadd wordSize PAGE_SIZE
          omega
        have hrest := @ih s₁ (wadd va PAGE_SIZE) (pa + 4096) T₁ free₁ hm.grows.inv (by omega) (by omega)
          (by omega)
        rw [hm.grows.hhdm, hnext] at hrest
        rw [hpa']
        exact hrest

/-- What a walk may take for a table: a page of the direct map, or the place to which the direct map
moves the error value of `pmm_alloc`. -/
def Stray (hhdm r : Nat) : Prop := (r % 4096 = 0 ∧ r < 2 ^ 64) ∨ r + 12 = hhdm

/-- The pointer is that of the table of level `l` and key `k`, or the frames have run out and it is
anything that a walk may take for a table. -/
structure Reaches (root hhdm l k r : Nat) (s : Mm) : Prop where
  offset : s.hhdm = hhdm
  good : GoodHhdm hhdm
  bound : hhdm < 2 ^ 64
  place : (∃ T free f, TableInv s root T free ∧ T.node l k = some f ∧ r = f + hhdm) ∨
    (PmmInv s [] ∧ Stray hhdm r)

section Exhausted

variable {hhdm r i : Nat} (hgood : GoodHhdm hhdm) (hbound : hhdm < 2 ^ 64)
include hgood hbound

lemma Stray.not_isErr (h : Stray hhdm r) : isErrValue r = false := by
  have h1 := hgood.aligned
  apply not_isErrValue_of_lt
  rcases h with ⟨haligned, hlt⟩ | hlt
  · omega
  · omega

lemma Stray.entry_ne (h : Stray hhdm r) (hi : i < 512) : ptrToErr (descAddr r i) ≠ Errno.code .ENOMEM := by
  have h1 := hgood.aligned
  have h2 := hgood.positive
  show wordSize - (r + 8 * i) % wordSize ≠ 12
  unfold wordSize
  rcases h with ⟨haligned, hlt⟩ | hlt
  · omega
  · omega

end Exhausted

lemma writeWord_exhausted (h : PmmInv s []) (q v : Nat) :
    Call.Ends (fun _ _ => True) (writeWord q v) s (fun _ s' => PmmInv s' [] ∧ s'.hhdm = s.hhdm) := by
  apply (writeWord_ends q v s).mono
  rintro - s' rfl
  exact ⟨h.congr rfl rfl (by simp), rfl⟩

/-- Without a free frame `table_next_table` returns the address that some descriptor holds, or what
the direct map makes of the error value. -/
lemma tableNextTable_exhausted (h : PmmInv s []) (hbound : s.hhdm < 2 ^ 64) (td : Nat) :
    Call.Ends (fun _ _ => True) (tableNextTable td true) s
      (fun r s' => (PmmInv s' [] ∧ s'.hhdm = s.hhdm) ∧ Stray s.hhdm r) := by
  have hal := h.good.aligned
  have hpos := h.good.positive
  apply (readWord_ends td s).bind
  rintro raw s₁ ⟨-, rfl⟩
  by_cases hvalid : TableDescriptor.isValid.get raw = 1
  · rw [if_pos hvalid]
    refine Call.ends_of_ok rfl ⟨⟨h, rfl⟩, .inl ?_⟩
    show wadd _ s₁.hhdm % 4096 = 0 ∧ wadd _ s₁.hhdm < 2 ^ 64
    rw [pageDescToPa, Nat.shiftLeft_eq]
    unfold wadd wordSize
    omega
  · rw [if_neg hvalid, if_pos rfl]
    apply Call.ends_bind_ok (pmmAlloc_nil h)
    have hstray : wadd (errToPtr .ENOMEM) s₁.hhdm + 12 = s₁.hhdm := by
      show (2 ^ 64 - 12 + s₁.hhdm) % 2 ^ 64 + 12 = s₁.hhdm
      omega
    apply Call.ends_bind_ok (a := wadd (errToPtr .ENOMEM) s₁.hhdm) rfl
    have hpmm : PmmInv { s₁ with log := { s₁.log with failed := s₁.log.failed + 1 } } [] :=
      h.congr rfl rfl (by simp)
    apply (writeWord_exhausted hpmm td (tableEntry (errToPtr .ENOMEM))).bind
    rintro - s₂ hs₂
    exact Call.ends_of_ok rfl ⟨hs₂, .inr hstray⟩

section Reaches

variable {hhdm r : Nat}

lemma Reaches.stray (h : Reaches root hhdm l k r s) : Stray hhdm r := by
  rcases h.place with ⟨T, free, f, hT, hf, rfl⟩ | ⟨-, hr⟩
  · have hframe := hT.frame hf
    rw [h.offset] at hframe
    have h1 := hframe.aligned
    have h2 := hframe.top
    have h3 := h.good.aligned
    exact .inl (by omega)
  · exact hr

lemma Reaches.not_isErr (h : Reaches root hhdm l k r s) : ¬isErrValue r = true := by
  rw [h.stray.not_isErr h.good h.bound]
  decide

lemma tableNextTable_reaches (h : Reaches root hhdm l (k / 512) r s) (hl : l < 3) (hk : k < 512 ^ (l + 1)) :
    Call.Ends (fun _ _ => True) (tableNextTable (descAddr r (k % 512)) true) s
      (Reaches root hhdm (l + 1) k) := by
  have hout : PmmInv s [] → Call.Ends (fun _ _ => True) (tableNextTable (descAddr r (k % 512)) true) s
      (Reaches root hhdm (l + 1) k) := by
    intro hpmm
    apply (tableNextTable_exhausted hpmm (h.offset ▸ h.bound) _).mono
    rintro r' s' ⟨⟨hpmm', hhdm'⟩, hr'⟩
    exact ⟨hhdm'.trans h.offset, h.good, h.bound, .inr ⟨hpmm', h.offset ▸ hr'⟩⟩
  rcases h.place with ⟨T, free, f, hT, hf, rfl⟩ | ⟨hpmm, -⟩
  · rw [← h.offset] at hout ⊢
    rcases tableNextTable_grow hT hl hf hk with ⟨-, hlen⟩ | ⟨g, s', T', free', used, hrun, he⟩
    · obtain rfl : free = [] := by
        rw [← List.length_eq_zero_iff]
        unfold miss at hlen
        split at hlen
        · omega
        · omega
      exact hout hT.pmm
    · refine Call.ends_of_ok hrun ⟨he.grows.hhdm, h.offset ▸ h.good, h.offset ▸ h.bound, .inl ?_⟩
      exact ⟨T', free', g, he.grows.inv, he.table, rfl⟩
  · exact hout hpmm

lemma walkPagetable_reaches (h : Reaches root hhdm 0 0 (root + hhdm) s) (va : Nat) :
    Call.Ends (fun _ _ => True) (walkPagetable (root + hhdm) va true) s
      (fun pde s' => ∃ r, Reaches root hhdm 3 (pageOf va / 512) r s' ∧ pde = descAddr r (pageOf va % 512)) := by
  rw [walkPagetable, levelIndex_zero, levelIndex_one, levelIndex_two, levelIndex_three]
  have hp := pageOf_lt va
  generalize pageOf va = p at hp
  have hroot : Reaches root hhdm 0 (p / 512 / 512 / 512 / 512) (root + hhdm) s := by
    rw [show p / 512 / 512 / 512 / 512 = 0 by omega]
    exact h
  apply (tableNextTable_reaches hroot (by omega) (by omega)).bind
  intro l1 s₁ h₁
  rw [if_neg h₁.not_isErr]
  apply (tableNextTable_reaches h₁ (by omega) (by omega)).bind
  intro l2 s₂ h₂
  rw [if_neg h₂.not_isErr]
  apply (tableNextTable_reaches h₂ (by omega) (by omega)).bind
  intro l3 s₃ h₃
  rw [if_neg h₃.not_isErr]
  exact Call.ends_of_ok rfl ⟨l3, h₃, rfl⟩

lemma pagingMapPages_never (attrs : PageAttrs) (h : Reaches root hhdm 0 0 (root + hhdm) s)
    (hroot : IsFrame hhdm root) (haligned : pa % 4096 = 0) (hpa : pa + n * 4096 ≤ 2 ^ 48) :
    Call.Ends (fun _ _ => True) (pagingMapPages (root + hhdm) attrs n va pa) s
      (fun r _ => r ≠ Errno.code .ENOMEM) := by
  induction n generalizing s va pa with
  | zero => exact Call.ends_of_ok rfl (by decide)
  | succ n ih =>
    rw [pagingMapPages]
    apply (walkPagetable_reaches h va).bind
    rintro pde s₁ ⟨r, hr, rfl⟩
    have hmod : pageOf va % 512 < 512 := Nat.mod_lt _ (by omega)
    by_cases herr : isErrValue (descAddr r (pageOf va % 512)) = true
    · rw [if_pos herr]
      exact Call.ends_of_ok rfl (hr.stray.entry_ne hr.good hr.bound hmod)
    rw [if_neg herr]
    apply (readWord_ends _ s₁).bind
    rintro raw s₂ ⟨hraw, rfl⟩
    by_cases hvalid : PageDescriptor.isValid.get raw = 1
    · rw [if_pos hvalid]
      exact Call.ends_of_error rfl trivial
    rw [if_neg hvalid]
    -- the pages that follow, from the state after the descriptor has been written
    have hnext : ∀ s', Reaches root hhdm 0 0 (root + hhdm) s' →
        Call.Ends (fun _ _ => True)
          (pagingMapPages (root + hhdm) attrs n (wadd va PAGE_SIZE) (wadd pa PAGE_SIZE)) s'
          (fun r _ => r ≠ Errno.code .ENOMEM) := by
      intro s' hs'
      cases n with
      | zero => exact Call.ends_of_ok rfl (by decide)
      | succ n =>
        rw [show wadd pa PAGE_SIZE = pa + 4096 from wadd_of_lt (by simp only [PAGE_SIZE]; omega)]
        exact ih hs' (by omega) (by omega)
    rcases hr.place with ⟨T, free, f, hT, hf, rfl⟩ | ⟨hpmm, -⟩
    · have haddr : descAddr (f + hhdm) (pageOf va % 512) = f + s₂.hhdm + 8 * (pageOf va % 512) := by
        rw [← hr.offset]
        exact hT.descAddr_eq hf _
      have hleaf : raw = leafRaw (T.leaf (pageOf va)) := by
        rw [hraw, haddr, hT.tree.leafEntry hf]
      have hnone : T.leaf (pageOf va) = none := by
        by_contra hsome
        rw [hleaf] at hvalid
        exact hvalid ((leafRaw_isValid _).mpr hsome)
      rw [hleaf, hnone, haddr]
      have hset : Grows root s₂ T free (setEntry s₂ f (pageOf va) (some ⟨pa, attrs⟩))
          (T.setLeaf (pageOf va) (some ⟨pa, attrs⟩)) free [] :=
        hT.setLeaf hf (by rintro l ⟨⟩; exact ⟨haligned, show pa < 2 ^ 48 by omega⟩)
      apply Call.ends_bind_ok (hT.writeWord_leaf hf (some ⟨pa, attrs⟩))
      apply hnext
      exact ⟨hset.hhdm.trans hr.offset, hr.good, hr.bound, .inl ⟨_, _, root, hset.inv, hset.inv.tree.root, rfl⟩⟩
    · apply (writeWord_exhausted hpmm _ _).bind
      rintro - s₃ ⟨hpmm₃, hhdm₃⟩
      apply hnext
      have h1 := hroot.aligned
      have h2 := hroot.top
      have h3 := hr.good.aligned
      exact ⟨hhdm₃.trans hr.offset, hr.good, hr.bound, .inr ⟨hpmm₃, .inl (by omega)⟩⟩

end Reaches

/-- What `paging_map` owes when the frames run out in the middle of it: it returns `-ENOMEM`, the
memory still holds a tree whose tables are all in frames that `pmm_alloc` returned, and the pages
outside the range are mapped as before. -/
def GrowthSafe (s : Mm) (root : Nat) (T : Tree) (free : List Nat) (va pa size : Nat) (attrs : PageAttrs) : Prop :=
  failures s < failures (pagingMap (root + s.hhdm) va pa size attrs s).2 →
    ∃ s', pagingMap (root + s.hhdm) va pa size attrs s = (.ok (Errno.code .ENOMEM), s') ∧
      ∃ T', TreeRep s'.hhdm s'.mem root T' ∧ (∀ f, T'.IsTable f → T.IsTable f ∨ f ∈ free) ∧
        ∀ q, ¬(PagingOp.map va pa size attrs).Covers q → T'.leaf q = T.leaf q

lemma TableInv.not_growthSafe (hT : TableInv s root T free) {size : Nat} {attrs : PageAttrs}
    (hpa : pa % 4096 = 0) (hend : pa + pageIterations va size * 4096 ≤ 2 ^ 48)
    (hfail : failures s < failures (pagingMap (root + s.hhdm) va pa size attrs s).2) :
    ¬GrowthSafe s root T free va pa size attrs := by
  intro hsafe
  obtain ⟨s', hrun, -⟩ := hsafe hfail
  have hroot := hT.frame hT.tree.root
  have htop := hroot.top
  have hreach : Reaches root s.hhdm 0 0 (root + s.hhdm) s :=
    ⟨rfl, hT.pmm.good, by omega, .inl ⟨T, free, root, hT, hT.tree.root, rfl⟩⟩
  unfold pagingMap at hrun
  split at hrun
  · exact (pagingMapPages_never attrs hreach hroot hpa hend).ok hrun rfl
  · cases hrun

/-- In every state of a run on a new table in which `pmm_alloc` has not failed, the next `paging_map`
meets a shortage of frames as it should exactly if it does not meet one. -/
theorem page_table_growth_iff {s₀ s₁ s : Mm} {free₀ : List Nat} {table base : Nat} (hpmm : PmmInv s₀ free₀)
    (hcreate : pagingCreateTable s₀ = (.ok table, s₁)) (hbase : IsHalf base) {ops : List PagingOp}
    (hops : ∀ op ∈ ops, op.InHalf base) (hrun : PagingOp.runAll table ops s₁ = (.ok (), s))
    (hnever : s.log.failed = s₀.log.failed) :
    (∃ root T free, table = root + s.hhdm ∧ TableInv s root T free) ∧
    ∀ root T free, table = root + s.hhdm → TableInv s root T free →
      ∀ va pa size attrs, (PagingOp.map va pa size attrs).InHalf base →
        (GrowthSafe s root T free va pa size attrs ↔ ¬Starved 0 T free.length (pageOf va) (size / 4096)) := by
  obtain ⟨root, T, free, htable, hT, -⟩ := created_run_inv hpmm hcreate hbase hops hrun hnever
  refine ⟨⟨root, T, free, htable, hT⟩, ?_⟩
  clear htable hT
  rintro root T free - hT va pa size attrs ⟨⟨hva, hpa, hsize⟩, hlo, hhi, hend, hphys⟩
  have hcount : pageIterations va size = size / 4096 := pageIterations_eq hend
  have hmap : pagingMap (root + s.hhdm) va pa size attrs =
      pagingMapPages (root + s.hhdm) attrs (size / 4096) va pa := by
    rw [pagingMap, if_pos (by simp [hva, hpa, hsize]), hcount]
  have hrange : va % 2 ^ 48 + size / 4096 * 4096 ≤ 2 ^ 48 := by
    rcases mod_half hbase hlo hhi hsize with rfl | h1
    · omega
    · exact h1
  have hfails := pagingMapPages_fails_iff hT attrs hrange hpa (by omega)
  rw [← hfails, ← hmap]
  constructor
  · intro hsafe hfail
    exact hT.not_growthSafe hpa (by rw [hcount]; omega) hfail hsafe
  · intro hok hfail
    exact absurd hfail hok

/-- A new table and as many frames as one page needs. -/
theorem page_table_growth_first_page :
    GrowthSafe (createTable (bootMm 0x100000 [0x1000, 0x2000, 0x3000, 0x4000]) 0x1000) 0x1000
      (emptyTree 0x1000) [0x2000, 0x3000, 0x4000] 0x400000 0x80000 0x1000 userAttrs := by
  have hpmm : PmmInv (bootMm 0x100000 [0x1000, 0x2000, 0x3000, 0x4000]) [0x1000, 0x2000, 0x3000, 0x4000] :=
    bootMm_inv ⟨by decide, by decide⟩ (by decide) (by decide)
  have hiff := (page_table_growth_iff hpmm (pagingCreateTable_cons hpmm) (.inl rfl)
    (by simp : ∀ op ∈ ([] : List PagingOp), op.InHalf 0) rfl rfl).2 0x1000 (emptyTree 0x1000)
      [0x2000, 0x3000, 0x4000] rfl hpmm.createTable 0x400000 0x80000
    0x1000 userAttrs ⟨by decide, by decide⟩
  apply hiff.mpr
  rintro ⟨i, hi, hlt, -⟩
  obtain rfl : i = 0 := by omega
  rw [tablesNeeded_one] at hlt
  revert hlt
  decide

/-- With no frame left, `paging_map` reports success after it has made the error value of `pmm_alloc`
a table. -/
theorem page_table_growth_follows_error :
    ∃ s', pagingMap 0x101000 0x401000 0x80000 0x1000 userAttrs
        (createTable (bootMm 0x100000 [0x1000]) 0x1000) = (.ok 0, s') ∧
      s'.log.failed = 3 ∧ s'.mem.load64 0x101000 = tableEntry (errToPtr .ENOMEM) ∧
      ¬GrowthSafe (createTable (bootMm 0x100000 [0x1000]) 0x1000) 0x1000 (emptyTree 0x1000) []
        0x401000 0x80000 0x1000 userAttrs := by
  have hpmm : PmmInv (bootMm 0x100000 [0x1000]) [0x1000] :=
    bootMm_inv ⟨by decide, by decide⟩ (by decide) (by decide)
  refine ⟨_, Call.eq_of_fst (by decide +kernel), by decide +kernel, by decide +kernel, ?_⟩
  exact hpmm.createTable.not_growthSafe (by decide) (by decide) (by decide +kernel)

end KaworuOS.Proofs
