import KaworuOS.Proofs.ElfPages
import KaworuOS.Proofs.VmCoverage
import Mathlib.Data.Finset.Card
import Mathlib.Data.Finset.Image

/-!
# Copying the pages of an address space

Each turn of the loop of `address_space_copy` takes a frame, copies a page of the source into it and
maps it in the destination. `CopyInv` accounts for the frames that the destination takes; outside of
the frames that were free at first the memory stays as it was.
-/

namespace KaworuOS.Proofs
open Lib

/-- The source of a copy: no page of it lies in a free frame. -/
structure SourceInv (s : Mm) (root : Nat) (T : Tree) (free : List Nat) : Prop where
  table : TableInv s root T free
  pages : ∀ {q l}, T.leaf q = some l → IsFrame s.hhdm l.pa ∧ l.pa ∉ free

/-- Memory has changed in the given frames only. -/
structure Within (frames : List Nat) (s s' : Mm) : Prop where
  hhdm : s'.hhdm = s.hhdm
  mem : ∀ x, (∀ f ∈ frames, ¬InPage s.hhdm f x) → s'.mem x = s.mem x

/-- The keys of the tables of level `l` for some pages. -/
def tableKeys (l : Nat) (pages : Finset Nat) : Finset Nat := pages.image (· / 512 ^ (4 - l))

/-- The frames that a page table takes that maps each of the pages to a frame of its own. -/
def framesFor (pages : Finset Nat) : Nat :=
  1 + (tableKeys 1 pages).card + (tableKeys 2 pages).card + (tableKeys 3 pages).card + pages.card

/-- The tree `T` maps copies of the pages `done` of the source `S`, as they were in `s₀`. Its tables and
pages are the frames `owned`, which were free, and `free` are still free. -/
structure CopyInv (s₀ : Mm) (S : Tree) (free₀ : List Nat) (root : Nat) (done : Finset Nat) (s : Mm) (T : Tree)
    (owned free : List Nat) : Prop where
  table : TableInv s root T free
  within : Within free₀ s₀ s
  account : free₀.Perm (owned ++ free)
  owned_iff : ∀ f, f ∈ owned ↔ T.Uses f
  inj : ∀ {q q' l l'}, T.leaf q = some l → T.leaf q' = some l' → l.pa = l'.pa → q = q'
  apart : ∀ {q l}, T.leaf q = some l → ¬T.IsTable l.pa
  nodes : ∀ l k, T.node l k ≠ none ↔ (l = 0 ∧ k = 0) ∨ ∃ p ∈ done, OnPath p l k
  count : owned.length = framesFor done
  pages : ∀ q, T.leaf q ≠ none ↔ q ∈ done
  copied : ∀ {q l'}, T.leaf q = some l' → ∃ l, S.leaf q = some l ∧ l'.attrs = l.attrs ∧
    ∀ j < 4096, s.mem (l'.pa + s₀.hhdm + j) = s₀.mem (l.pa + s₀.hhdm + j)

variable {s s' s₀ : Mm} {root rootS f va p q n : Nat} {S T T' : Tree} {free free' free₀ owned used frames : List Nat}
  {done : Finset Nat} {l : Leaf}
variable {m : Mm → Nat} [Gauge m]

section Counting

lemma framesFor_mono {P Q : Finset Nat} (h : P ⊆ Q) : framesFor P ≤ framesFor Q := by
  have hkeys : ∀ l, (tableKeys l P).card ≤ (tableKeys l Q).card :=
    fun l => Finset.card_le_card (Finset.image_subset_image h)
  have h1 := hkeys 1
  have h2 := hkeys 2
  have h3 := hkeys 3
  have h4 := Finset.card_le_card h
  unfold framesFor
  omega

lemma card_tableKeys_insert {l : Nat}
    (hnode : T.node l (p / 512 ^ (4 - l)) ≠ none ↔ p / 512 ^ (4 - l) ∈ tableKeys l done) :
    (tableKeys l (insert p done)).card = (tableKeys l done).card + miss T l (p / 512 ^ (4 - l)) := by
  unfold tableKeys at *
  rw [Finset.image_insert]
  by_cases hin : p / 512 ^ (4 - l) ∈ done.image (· / 512 ^ (4 - l))
  · rw [Finset.insert_eq_of_mem hin, miss, if_neg (hnode.mpr hin), Nat.add_zero]
  · have hnone : T.node l (p / 512 ^ (4 - l)) = none := by
      by_contra hne
      exact hin (hnode.mp hne)
    rw [Finset.card_insert_of_notMem hin, miss, if_pos hnone]

/-- One more page takes a frame for itself and one for each table that is not there. -/
lemma framesFor_insert (hnodes : ∀ l k, T.node l k ≠ none ↔ (l = 0 ∧ k = 0) ∨ ∃ p ∈ done, OnPath p l k)
    (hp : p ∉ done) : framesFor (insert p done) = framesFor done + 1 + missing T p := by
  have hkey : ∀ l, 1 ≤ l → l ≤ 3 → (T.node l (p / 512 ^ (4 - l)) ≠ none ↔ p / 512 ^ (4 - l) ∈ tableKeys l done) := by
    intro l h1 h3
    rw [hnodes, tableKeys, Finset.mem_image]
    have hpath : ∀ r, OnPath r l (p / 512 ^ (4 - l)) ↔ r / 512 ^ (4 - l) = p / 512 ^ (4 - l) := by
      intro r
      unfold OnPath
      obtain rfl | rfl | rfl : l = 1 ∨ l = 2 ∨ l = 3 := by omega
      · simp [Nat.div_div_eq_div_mul, eq_comm]
      · simp [Nat.div_div_eq_div_mul, eq_comm]
      · simp [eq_comm]
    simp only [hpath]
    constructor
    · rintro (⟨rfl, -⟩ | hex)
      · omega
      · exact hex
    · exact .inr
  have h1 := card_tableKeys_insert (hkey 1 (by omega) (by omega))
  have h2 := card_tableKeys_insert (hkey 2 (by omega) (by omega))
  have h3 := card_tableKeys_insert (hkey 3 (by omega) (by omega))
  have hmissing : missing T p = miss T 1 (p / 512 ^ (4 - 1)) + miss T 2 (p / 512 ^ (4 - 2)) +
      miss T 3 (p / 512 ^ (4 - 3)) := by
    simp [missing, Nat.div_div_eq_div_mul]
  have h4 := Finset.card_insert_of_notMem hp
  unfold framesFor
  omega

end Counting

lemma Within.refl (s : Mm) : Within frames s s := ⟨rfl, fun _ _ => rfl⟩

lemma Within.trans {s'' : Mm} (h : Within frames s s') (h' : Within frames s' s'') : Within frames s s'' := by
  refine ⟨h'.hhdm.trans h.hhdm, ?_⟩
  intro x hx
  rw [h'.mem x (by rw [h.hhdm]; exact hx), h.mem x hx]

lemma Within.samePage (h : Within frames s s') (hframes : ∀ g ∈ frames, IsFrame s.hhdm g) (hf : IsFrame s.hhdm f)
    (hnot : f ∉ frames) : SamePage s.hhdm s.mem s'.mem f := by
  intro x h1 h2
  apply h.mem
  intro g hg hin
  apply hnot
  rwa [← inPage_unique (hframes g hg).aligned hf.aligned hin ⟨h1, h2⟩]

lemma SourceInv.table_within (h : SourceInv s₀ rootS S free₀) (hw : Within free₀ s₀ s) (hpmm : PmmInv s free)
    (hsub : ∀ g ∈ free, g ∈ free₀) : TableInv s rootS S free := by
  refine ⟨hpmm, ?_, fun ht hg => h.table.apart ht (hsub _ hg)⟩
  rw [hw.hhdm]
  apply h.table.tree.congr
  rintro g ⟨l, k, hg⟩
  exact hw.samePage h.table.pmm.frames (h.table.frame hg) (h.table.apart ⟨l, k, hg⟩)

/-- The state after a page has been copied to the frame `f`, which was free. -/
def copyFrame (s : Mm) (f pa : Nat) : Mm :=
  { takeFrame s f with
    mem := (takeFrame s f).mem.blit (f + s.hhdm) (pa + s.hhdm) 4096
    log := { s.log with copies := ⟨f + s.hhdm, pa + s.hhdm, 4096⟩ :: s.log.copies } }

lemma memcpy_frame {pa : Nat} (hf : IsFrame s.hhdm f) (hpa : IsFrame s.hhdm pa) (hne : f ≠ pa) :
    memcpy (f + s.hhdm) (pa + s.hhdm) PAGE_SIZE (takeFrame s f) = (.ok (), copyFrame s f pa) := by
  have h1 := hf.top
  have h2 := hpa.top
  have h3 := hf.apart hpa hne
  have hblit : copyBytes (takeFrame s f).mem (f + s.hhdm) (pa + s.hhdm) PAGE_SIZE =
      (takeFrame s f).mem.blit (f + s.hhdm) (pa + s.hhdm) 4096 :=
    copyBytes_eq_blit _ (by simp only [PAGE_SIZE]; omega) (by simp only [PAGE_SIZE]; omega)
      (by simp only [PAGE_SIZE]; omega)
  show (Except.ok (), { takeFrame s f with
    mem := copyBytes (takeFrame s f).mem (f + s.hhdm) (pa + s.hhdm) PAGE_SIZE
    log := { s.log with copies := ⟨f + s.hhdm, pa + s.hhdm, PAGE_SIZE⟩ :: s.log.copies } }) = _
  rw [hblit]
  rfl

lemma copyFrame_other {pa x : Nat} (hx : ¬InPage s.hhdm f x) : (copyFrame s f pa).mem x = s.mem x := by
  unfold InPage at hx
  show (s.mem.fill (f + s.hhdm) 4096 0).blit (f + s.hhdm) (pa + s.hhdm) 4096 x = s.mem x
  rw [Mem.blit, if_neg hx, Mem.fill, if_neg hx]

lemma copyFrame_copied {pa j : Nat} (hf : IsFrame s.hhdm f) (hpa : IsFrame s.hhdm pa) (hne : f ≠ pa) (hj : j < 4096) :
    (copyFrame s f pa).mem (f + s.hhdm + j) = s.mem (pa + s.hhdm + j) := by
  have h1 := hf.apart hpa hne
  show (s.mem.fill (f + s.hhdm) 4096 0).blit (f + s.hhdm) (pa + s.hhdm) 4096 (f + s.hhdm + j) = _
  rw [Mem.blit_apply _ hj, Mem.fill, if_neg (by omega)]

lemma TableInv.copyFrame (h : TableInv s root T (f :: free)) (pa : Nat) : TableInv (copyFrame s f pa) root T free := by
  have hf := h.pmm.frames f (by simp)
  have hfree : f ∉ free := (List.nodup_cons.mp h.pmm.nodup).1
  have htable : ¬T.IsTable f := fun ht => h.apart ht (by simp)
  have hmem : ∀ x, ¬InPage (takeFrame s f).hhdm f x →
      (takeFrame s f).mem.blit (f + s.hhdm) (pa + s.hhdm) 4096 x = (takeFrame s f).mem x := by
    intro x hx
    have hx' : ¬InPage s.hhdm f x := hx
    unfold InPage at hx'
    rw [Mem.blit, if_neg hx']
  refine (h.take.write hf hfree htable hmem).congr ?_ ?_ ?_
  · rfl
  · rfl
  · rfl

/-- The heap is as it was, and so is the log, but for the copies. -/
structure Copying (s s' : Mm) : Prop where
  heap : s'.heap = s.heap
  log : s'.log = { s.log with copies := s'.log.copies }

lemma Copying.refl (s : Mm) : Copying s s := ⟨rfl, rfl⟩

lemma Copying.trans {s'' : Mm} (h : Copying s s') (h' : Copying s' s'') : Copying s s'' := by
  refine ⟨h'.heap.trans h.heap, ?_⟩
  rw [h'.log, h.log]

section Turn

variable (hsrc : SourceInv s₀ rootS S free₀) (h : CopyInv s₀ S free₀ root done s T owned free)

include h in
lemma CopyInv.free_start (hf : f ∈ free) : f ∈ free₀ := h.account.mem_iff.mpr (List.mem_append_right _ hf)

include h in
lemma CopyInv.owned_start (hf : T.Uses f) : f ∈ free₀ :=
  h.account.mem_iff.mpr (List.mem_append_left _ ((h.owned_iff f).mpr hf))

include h in
lemma CopyInv.length_start : free₀.length = framesFor done + free.length := by
  rw [h.account.length_eq, List.length_append, h.count]

include hsrc h

lemma CopyInv.not_used (hf : f ∈ free) : ¬T.Uses f := by
  intro hu
  have h1 := h.account.nodup_iff.mp hsrc.table.pmm.nodup
  exact List.disjoint_of_nodup_append h1 ((h.owned_iff f).mpr hu) hf

lemma CopyInv.source : TableInv s rootS S free :=
  hsrc.table_within h.within h.table.pmm (fun _ hg => h.free_start hg)

omit hsrc in
lemma CopyInv.within_copy {pa : Nat} (hf : f ∈ free) : Within free₀ s₀ (copyFrame s f pa) := by
  refine ⟨h.within.hhdm, ?_⟩
  intro x hx
  rw [← h.within.mem x hx]
  apply copyFrame_other
  rw [h.within.hhdm]
  exact hx f (h.free_start hf)

end Turn

/-- One turn of the loop: the page `p` of the source has been copied to the frame `f` and mapped. -/
lemma CopyInv.mapped {free₁ : List Nat} (hsrc : SourceInv s₀ rootS S free₀)
    (h : CopyInv s₀ S free₀ root done s T owned (f :: free)) (hl : S.leaf p = some l) (hp : p ∉ done)
    (hm : PageMapped root (copyFrame s f l.pa) T free p ⟨f, l.attrs⟩ s' T' free₁ used) :
    CopyInv s₀ S free₀ root (insert p done) s' T' (f :: owned ++ used) free₁ := by
  have hff : f ∈ f :: free := List.mem_cons_self
  have hfree : f ∉ free := (List.nodup_cons.mp h.table.pmm.nodup).1
  have hhdm := h.within.hhdm
  have hsub : ∀ {g}, g ∈ used → g ∈ f :: free := by
    intro g hg
    rw [hm.grows.split]
    exact List.mem_cons_of_mem f (List.mem_append_left _ hg)
  have hleaf : ∀ {q l'}, T'.leaf q = some l' → (q = p ∧ l' = ⟨f, l.attrs⟩) ∨ (q ≠ p ∧ T.leaf q = some l') := by
    intro q l' hq
    rw [hm.leaf] at hq
    by_cases hqp : q = p
    · subst hqp
      rw [Function.update_self] at hq
      exact .inl ⟨rfl, (Option.some.inj hq).symm⟩
    · rw [Function.update_of_ne hqp] at hq
      exact .inr ⟨hqp, hq⟩
  have hhere : T'.leaf p = some ⟨f, l.attrs⟩ := by rw [hm.leaf, Function.update_self]
  have hother : ∀ {q l'}, T.leaf q = some l' → T'.leaf q = some l' := by
    intro q l' hq
    rw [hm.leaf, Function.update_of_ne]
    · exact hq
    · rintro rfl
      exact hp ((h.pages _).mp (by rw [hq]; simp))
  have hnotTable : ¬T'.IsTable f := by
    intro ht
    rcases hm.grows.tables.mp ht with ht | ht
    · exact h.not_used hsrc hff (.inl ht)
    · rw [hm.grows.split] at hfree
      exact hfree (List.mem_append_left _ ht)
  have hpage : ∀ {q l'}, T.leaf q = some l' → l'.pa ≠ f ∧ ¬T'.IsTable l'.pa := by
    intro q l' hq
    have hused : T.Uses l'.pa := .inr ⟨q, l', hq, rfl⟩
    refine ⟨fun heq => h.not_used hsrc hff (heq ▸ hused), ?_⟩
    intro ht
    rcases hm.grows.tables.mp ht with ht | ht
    · exact h.apart hq ht
    · exact h.not_used hsrc (hsub ht) hused
  -- tables are written to, and nothing else
  have hframe : ∀ {g}, g ∈ free₀ → g % 4096 = 0 := fun hg => (hsrc.table.pmm.frames _ hg).aligned
  have hkeep : ∀ {g x}, g ∈ free₀ → ¬T'.IsTable g → InPage s₀.hhdm g x → s'.mem x = (copyFrame s f l.pa).mem x := by
    intro g x hg hnot hx
    apply hm.grows.mem
    intro t ht hin
    have hin' : InPage s.hhdm t x := hin
    rw [hhdm] at hin'
    obtain ⟨lt, kt, hnode⟩ := ht
    have haligned := (hm.grows.inv.frame hnode).aligned
    obtain rfl := inPage_unique haligned (hframe hg) hin' hx
    exact hnot ⟨lt, kt, hnode⟩
  refine ⟨hm.grows.inv, ?_, ?_, ?_, ?_, ?_, ?_, ?_, ?_, ?_⟩
  · have hcopy : Within free₀ s₀ (copyFrame s f l.pa) := h.within_copy hff
    refine hcopy.trans ⟨hm.grows.hhdm, ?_⟩
    intro x hx
    apply hm.grows.mem
    intro t ht
    apply hx
    rcases hm.grows.tables.mp ht with ht | ht
    · exact h.owned_start (.inl ht)
    · exact h.free_start (hsub ht)
  · refine h.account.trans ?_
    rw [hm.grows.split, List.perm_iff_count]
    intro x
    simp only [List.count_append, List.count_cons, List.cons_append]
    omega
  · intro g
    rw [List.cons_append, List.mem_cons, List.mem_append, h.owned_iff]
    unfold Tree.Uses
    rw [hm.grows.tables]
    constructor
    · rintro (rfl | (ht | ⟨q, l', hq, rfl⟩) | hg)
      · exact .inr ⟨p, _, hhere, rfl⟩
      · exact .inl (.inl ht)
      · exact .inr ⟨q, l', hother hq, rfl⟩
      · exact .inl (.inr hg)
    · rintro ((ht | hg) | ⟨q, l', hq, rfl⟩)
      · exact .inr (.inl (.inl ht))
      · exact .inr (.inr hg)
      · rcases hleaf hq with ⟨-, rfl⟩ | ⟨-, hq⟩
        · exact .inl rfl
        · exact .inr (.inl (.inr ⟨q, l', hq, rfl⟩))
  · intro q q' l₁ l₂ h1 h2 hpa
    rcases hleaf h1 with ⟨rfl, rfl⟩ | ⟨-, h1⟩
    · rcases hleaf h2 with ⟨rfl, rfl⟩ | ⟨-, h2⟩
      · rfl
      · exact absurd hpa.symm (hpage h2).1
    · rcases hleaf h2 with ⟨rfl, rfl⟩ | ⟨-, h2⟩
      · exact absurd hpa (hpage h1).1
      · exact h.inj h1 h2 hpa
  · intro q l' hq
    rcases hleaf hq with ⟨-, rfl⟩ | ⟨-, hq⟩
    · exact hnotTable
    · exact (hpage hq).2
  · intro lt k
    rw [hm.nodes, h.nodes, or_assoc]
    simp only [Finset.exists_mem_insert]
    exact or_congr_right or_comm
  · have h1 := hm.length
    have h2 := h.count
    rw [framesFor_insert h.nodes hp]
    simp only [List.length_append, List.length_cons]
    omega
  · intro q
    rw [Finset.mem_insert, ← h.pages, hm.leaf]
    by_cases hqp : q = p
    · subst hqp
      simp
    · rw [Function.update_of_ne hqp]
      simp [hqp]
  · intro q l' hq
    rcases hleaf hq with ⟨rfl, rfl⟩ | ⟨-, hq⟩
    · refine ⟨l, hl, rfl, ?_⟩
      intro j hj
      obtain ⟨hpa, hnot⟩ := hsrc.pages hl
      have hfr := hsrc.table.pmm.frames f (h.free_start hff)
      have hne : f ≠ l.pa := by
        rintro rfl
        exact hnot (h.free_start hff)
      rw [hkeep (h.free_start hff) hnotTable ⟨by dsimp only; omega, by dsimp only; omega⟩]
      have hcopied : (copyFrame s f l.pa).mem (f + s.hhdm + j) = s.mem (l.pa + s.hhdm + j) :=
        copyFrame_copied (by rw [hhdm]; exact hfr) (by rw [hhdm]; exact hpa) hne hj
      rw [hhdm] at hcopied
      rw [hcopied]
      exact h.within.samePage hsrc.table.pmm.frames hpa hnot _ (by omega) (by omega)
    · obtain ⟨l₀, hl₀, hattrs, hbytes⟩ := h.copied hq
      refine ⟨l₀, hl₀, hattrs, ?_⟩
      intro j hj
      have hstart := h.owned_start (.inr ⟨q, l', hq, rfl⟩)
      obtain ⟨hne, hnot⟩ := hpage hq
      rw [hkeep hstart hnot ⟨by omega, by omega⟩, ← hbytes j hj]
      apply copyFrame_other
      rw [hhdm]
      intro hin
      exact hne (inPage_unique (hframe hstart) (hframe (h.free_start hff)) ⟨by omega, by omega⟩ hin)

/-- The state after `pmm_alloc` has found no frame. -/
def noFrame (s : Mm) : Mm := { s with log := { s.log with failed := s.log.failed + 1 } }

omit [Gauge m] in
lemma mono_pagingPageToPa (pde va : Nat) : Call.Mono m (pagingPageToPa pde va) :=
  Call.mono_bind (mono_readWord _) (fun _ => Call.mono_pure _)

lemma mono_memcpy (dest src size : Nat) : Call.Mono m (memcpy dest src size) :=
  mono_sameHeap (fun _ => rfl) (fun _ => Nat.le_refl _)

lemma mono_copyPages (dst src : Nat) (pages : List Nat) (n ret : Nat) :
    Call.Mono m (copyPages dst src pages n ret) := by
  induction pages generalizing n ret with
  | nil => exact Call.mono_pure _
  | cons va rest ih =>
    apply Call.mono_bind (mono_walkPagetable _ _ _)
    intro srcPde
    apply Call.mono_bind (mono_readWord _)
    intro raw
    refine Call.mono_ite ?_ (ih _ _)
    apply Call.mono_bind (mono_pagingPageToPa _ _)
    intro srcPa
    apply Call.mono_bind mono_pmmAlloc
    intro dstPa
    apply Call.mono_ite (Call.mono_pure _)
    apply Call.mono_bind (mono_pmmPhysToVirt _)
    intro dstVirt
    apply Call.mono_bind (mono_pmmPhysToVirt _)
    intro srcVirt
    apply Call.mono_bind (mono_memcpy _ _ _)
    intro _
    apply Call.mono_bind (mono_readWord _)
    intro raw
    apply Call.mono_bind (mono_pagingMap _ _ _ _ _)
    intro ret
    exact Call.mono_ite (Call.mono_bind (mono_pmmFree _) (fun _ => Call.mono_pure _)) (ih _ _)

/-- The loop of `address_space_copy` behind `paging_map`. -/
def copyRest (dst src dstPa n : Nat) (rest : List Nat) (ret : Nat) : Kernel (Nat × Option Nat) :=
  if ret ≠ 0 then do
    pmmFree dstPa
    return (ret, some n)
  else copyPages dst src rest (n + 1) ret

lemma mono_copyRest (dst src dstPa n : Nat) (rest : List Nat) (ret : Nat) :
    Call.Mono m (copyRest dst src dstPa n rest ret) :=
  Call.mono_ite (Call.mono_bind (mono_pmmFree _) (fun _ => Call.mono_pure _)) (mono_copyPages _ _ _ _ _)

/-- A turn without a free frame ends the loop, with `ret` as it was. -/
lemma copyPages_nil {dst ret : Nat} (hS : TableInv s rootS S []) (hl : S.leaf (pageOf va) = some l)
    (rest : List Nat) : copyPages dst (rootS + s.hhdm) (va :: rest) n ret s = (.ok (ret, some n), noFrame s) := by
  obtain ⟨g, hg⟩ := hS.tree.leafTable hl
  have hread := hS.readWord_leaf hg
  rw [hl] at hread
  have hpa := pagingPageToPa_leaf hS hg hl va
  rw [copyPages, pagingLookupDesc, Call.bind_ok (walk_lookup hS va), descPtr, hg]
  dsimp only
  rw [Call.bind_ok hread, if_pos ⟨pageEntry_isValid _ _ _, pageEntry_isPage _ _ _⟩, Call.bind_ok hpa,
    Call.bind_ok (pmmAlloc_nil hS.pmm), if_pos isErrValue_errToPtr]
  rfl

/-- A turn with a free frame copies the page before it maps it. -/
lemma copyPages_cons {dst ret : Nat} (hS : TableInv s rootS S (f :: free)) (hva : va % 4096 = 0)
    (hl : S.leaf (pageOf va) = some l) (hpa : IsFrame s.hhdm l.pa) (hne : f ≠ l.pa)
    (hS' : TableInv (copyFrame s f l.pa) rootS S free) (rest : List Nat) :
    copyPages dst (rootS + s.hhdm) (va :: rest) n ret s =
      (pagingMap dst va f PAGE_SIZE l.attrs >>= copyRest dst (rootS + s.hhdm) f n rest) (copyFrame s f l.pa) := by
  obtain ⟨g, hg⟩ := hS.tree.leafTable hl
  have hf := hS.pmm.frames f (by simp)
  have htop := hf.top
  have htop' := hpa.top
  have hread := hS.readWord_leaf hg
  have hread' := hS'.readWord_leaf hg
  rw [hl] at hread hread'
  have hread'' : readWord (g + s.hhdm + 8 * (pageOf va % 512)) (copyFrame s f l.pa) =
      (.ok (leafRaw (some l)), copyFrame s f l.pa) := hread'
  have htoPa := pagingPageToPa_leaf hS hg hl va
  have hdst : pmmPhysToVirt f (takeFrame s f) = (.ok (f + s.hhdm), takeFrame s f) :=
    pmmPhysToVirt_ok (s := takeFrame s f) (show f + s.hhdm < 2 ^ 64 by omega)
  have hsrc : pmmPhysToVirt (l.pa + va % 4096) (takeFrame s f) = (.ok (l.pa + s.hhdm), takeFrame s f) := by
    rw [hva]
    exact pmmPhysToVirt_ok (s := takeFrame s f) (show l.pa + s.hhdm < 2 ^ 64 by omega)
  rw [copyPages, pagingLookupDesc, Call.bind_ok (walk_lookup hS va), descPtr, hg]
  dsimp only
  rw [Call.bind_ok hread, if_pos ⟨pageEntry_isValid _ _ _, pageEntry_isPage _ _ _⟩, Call.bind_ok htoPa,
    Call.bind_ok (pmmAlloc_cons hS.pmm), if_neg (by rw [isErrValue_frame hf]; decide), Call.bind_ok hdst,
    Call.bind_ok hsrc, Call.bind_ok (memcpy_frame hf hpa hne), Call.bind_ok hread'', leafRaw, attrs_pageEntry]
  rfl

/-- One turn of the loop: there is no frame for the page, or the frames run out in its tables, or the
page is copied. -/
lemma CopyInv.turn (hsrc : SourceInv s₀ rootS S free₀) (h : CopyInv s₀ S free₀ root done s T owned free)
    (hva : Span va 1) (hl : S.leaf (pageOf va) = some l) (hp : pageOf va ∉ done) (rest : List Nat) (n : Nat) :
    (free = [] ∧ copyPages (root + s₀.hhdm) (rootS + s₀.hhdm) (va :: rest) n 0 s = (.ok (0, some n), noFrame s)) ∨
    (free.length < 1 + missing T (pageOf va) ∧
      failures s < failures (copyPages (root + s₀.hhdm) (rootS + s₀.hhdm) (va :: rest) n 0 s).2) ∨
    ∃ s' T' owned' free', copyPages (root + s₀.hhdm) (rootS + s₀.hhdm) (va :: rest) n 0 s =
        copyPages (root + s₀.hhdm) (rootS + s₀.hhdm) rest (n + 1) 0 s' ∧
      CopyInv s₀ S free₀ root (insert (pageOf va) done) s' T' owned' free' ∧ Copying s s' := by
  have hS := h.source hsrc
  have hhdm := h.within.hhdm
  obtain ⟨hpa, hnot⟩ := hsrc.pages hl
  rw [← hhdm]
  cases free with
  | nil => exact .inl ⟨rfl, copyPages_nil hS hl rest⟩
  | cons f free =>
    right
    have hff : f ∈ f :: free := List.mem_cons_self
    have hf := h.table.pmm.frames f hff
    have hne : f ≠ l.pa := by
      rintro rfl
      exact hnot (h.free_start hff)
    have hcopy := h.table.copyFrame l.pa
    have hS' : TableInv (copyFrame s f l.pa) rootS S free :=
      hsrc.table_within (h.within_copy hff) hcopy.pmm (fun g hg => h.free_start (List.mem_cons_of_mem f hg))
    rw [copyPages_cons hS hva.aligned hl (by rw [hhdm]; exact hpa) hne hS' rest]
    rcases pagingMap_page hcopy l.attrs hva ⟨hf.aligned, hf.bound⟩ with
      ⟨hfail, hlt⟩ | ⟨hold, -⟩ | ⟨s', T', free', used, -, hrun, hm⟩
    · left
      refine ⟨by rw [List.length_cons]; omega, ?_⟩
      exact Call.lt_bind (mono_copyRest _ _ _ _ _) hfail
    · exact absurd ((h.pages _).mp hold) hp
    · right
      have hrun' : pagingMap (root + s.hhdm) va f PAGE_SIZE l.attrs (copyFrame s f l.pa) = (.ok 0, s') := hrun
      refine ⟨s', T', f :: owned ++ used, free', ?_, h.mapped hsrc hl hp hm, hm.grows.heap, ?_⟩
      · rw [Call.bind_ok hrun', copyRest, if_neg (by simp)]
      · rw [hm.grows.log]
        rfl

/-- The addresses lie in pages of the source that are mapped, each in a page of its own. -/
structure Copyable (S : Tree) (pages : List Nat) : Prop where
  span : ∀ va ∈ pages, Span va 1
  mapped : ∀ va ∈ pages, S.leaf (pageOf va) ≠ none
  nodup : (pages.map pageOf).Nodup

/-- The numbers of the pages. -/
def pageSet (pages : List Nat) : Finset Nat := (pages.map pageOf).toFinset

lemma pageSet_cons (va : Nat) (pages : List Nat) : pageSet (va :: pages) = insert (pageOf va) (pageSet pages) := by
  simp [pageSet]

lemma mem_pageSet {pages : List Nat} : q ∈ pageSet pages ↔ ∃ va ∈ pages, pageOf va = q := by
  simp [pageSet]

lemma Copyable.tail {pages : List Nat} (h : Copyable S (va :: pages)) : Copyable S pages :=
  ⟨fun x hx => h.span x (List.mem_cons_of_mem va hx), fun x hx => h.mapped x (List.mem_cons_of_mem va hx),
    (List.nodup_cons.mp h.nodup).2⟩

lemma Copyable.not_mem_insert {pages : List Nat} (h : Copyable S (va :: pages))
    (hnew : ∀ x ∈ va :: pages, pageOf x ∉ done) :
    ∀ x ∈ pages, pageOf x ∉ insert (pageOf va) done := by
  intro x hx hin
  rcases Finset.mem_insert.mp hin with heq | hin
  · exact (List.nodup_cons.mp h.nodup).1 (heq ▸ List.mem_map_of_mem hx)
  · exact hnew x (List.mem_cons_of_mem va hx) hin

/-- The loop with frames for all pages: it copies them. -/
lemma CopyInv.run {pages : List Nat} (hsrc : SourceInv s₀ rootS S free₀)
    (h : CopyInv s₀ S free₀ root done s T owned free)
    (hc : Copyable S pages) (hnew : ∀ va ∈ pages, pageOf va ∉ done) (n : Nat) :
    (free₀.length < framesFor (done ∪ pageSet pages) ∧
      failures s < failures (copyPages (root + s₀.hhdm) (rootS + s₀.hhdm) pages n 0 s).2) ∨
    ∃ s' T' owned' free', copyPages (root + s₀.hhdm) (rootS + s₀.hhdm) pages n 0 s = (.ok (0, none), s') ∧
      CopyInv s₀ S free₀ root (done ∪ pageSet pages) s' T' owned' free' ∧ Copying s s' := by
  induction pages generalizing done s T owned free n with
  | nil =>
    right
    rw [show done ∪ pageSet [] = done by simp [pageSet]]
    exact ⟨s, T, owned, free, rfl, h, Copying.refl s⟩
  | cons va rest ih =>
    obtain ⟨l, hl⟩ := Option.ne_none_iff_exists'.mp (hc.mapped va List.mem_cons_self)
    have hp := hnew va List.mem_cons_self
    have hset : insert (pageOf va) done ∪ pageSet rest = done ∪ pageSet (va :: rest) := by
      rw [pageSet_cons, Finset.insert_union, Finset.union_insert]
    have hshort : free.length < 1 + missing T (pageOf va) →
        free₀.length < framesFor (done ∪ pageSet (va :: rest)) := by
      intro hlt
      have h1 := h.length_start
      have h2 := framesFor_insert h.nodes hp
      have h3 : framesFor (insert (pageOf va) done) ≤ framesFor (insert (pageOf va) done ∪ pageSet rest) :=
        framesFor_mono Finset.subset_union_left
      rw [hset] at h3
      omega
    rcases h.turn hsrc (hc.span va List.mem_cons_self) hl hp rest n with
      ⟨rfl, hrun⟩ | ⟨hlt, hfail⟩ | ⟨s₁, T₁, owned₁, free₁, hrun, h₁, hcopying₁⟩
    · left
      refine ⟨hshort (by rw [List.length_nil]; omega), ?_⟩
      rw [hrun]
      exact Nat.lt_succ_self _
    · exact .inl ⟨hshort hlt, hfail⟩
    · have hrest := ih h₁ hc.tail (hc.not_mem_insert hnew) (n + 1)
      rw [hset, ← hrun] at hrest
      have hsame : failures s₁ = failures s := by rw [failures, hcopying₁.log, failures]
      rw [hsame] at hrest
      rcases hrest with hshort' | ⟨s₂, T₂, owned₂, free₂, hrun₂, h₂, hcopying₂⟩
      · exact .inl hshort'
      · exact .inr ⟨s₂, T₂, owned₂, free₂, hrun₂, h₂, hcopying₁.trans hcopying₂⟩

end KaworuOS.Proofs
