import KaworuOS.Proofs.HeapView
import KaworuOS.Proofs.PagingExhaust
import KaworuOS.Proofs.SpaceIsolation
import Mathlib.Data.Finset.Sigma

/-!
# Copies of address spaces when the frames run out

`address_space_copy` leaves its loop with `EOK` when there is no frame for a page, so that the half
copied space is returned and frames that it maps have been freed. A call that finds its frames is right,
and so is one that finds none at all.
-/

namespace KaworuOS.Proofs
open Lib

/-- The frame of a table, or at level four that of a page. -/
def Tree.place (T : Tree) (x : (_ : Nat) × Nat) : Option Nat :=
  if x.1 = 4 then (T.leaf x.2).map (·.pa) else T.node x.1 x.2

variable {s s' s₀ : Mm} {root rootS hhdm l k r f va p q n : Nat} {S T T' : Tree}
  {free free' free₀ owned used : List Nat}
  {done pages : Finset Nat} {src dst : AddressSpace} {mem : Mem}

section Counting

end Counting

section Exhausted

/-- `pmm_alloc` has not failed yet, or no frame is free. -/
def Spent (n : Nat) (s : Mm) : Prop := failures s = n ∨ PmmInv s []

lemma Spent.store (h : Spent n s) (mem : Mem) : Spent n { s with mem := mem } := by
  rcases h with h | h
  · exact .inl h
  · exact .inr (h.congr rfl rfl (by simp))

lemma tableNextTable_spent (h : Reaches root hhdm l (k / 512) r s) (hs : Spent n s) (hl : l < 3)
    (hk : k < 512 ^ (l + 1)) :
    Call.Ends (fun _ _ => True) (tableNextTable (descAddr r (k % 512)) true) s
      (fun r' s' => Reaches root hhdm (l + 1) k r' s' ∧ Spent n s') := by
  apply (tableNextTable_reaches h hl hk).and
  have hout : PmmInv s [] → Call.Ends (fun _ _ => True) (tableNextTable (descAddr r (k % 512)) true) s
      (fun _ s' => Spent n s') := by
    intro hpmm
    exact (tableNextTable_exhausted hpmm (h.offset ▸ h.bound) _).mono (fun _ _ hr => .inr hr.1.1)
  rcases hs with hn | hpmm
  · rcases h.place with ⟨T, free, f, hT, hf, rfl⟩ | ⟨hpmm, -⟩
    · rw [← h.offset] at hout ⊢
      rcases tableNextTable_grow hT hl hf hk with ⟨-, hlen⟩ | ⟨g, s', T', free', used, hrun, he⟩
      · obtain rfl : free = [] := by
          rw [← List.length_eq_zero_iff]
          unfold miss at hlen
          split at hlen
          · omega
          · omega
        exact hout hT.pmm
      · exact Call.ends_of_ok hrun (.inl (he.grows.failures_eq.trans hn))
    · exact hout hpmm
  · exact hout hpmm

lemma walkPagetable_spent (h : Reaches root hhdm 0 0 (root + hhdm) s) (hs : Spent n s) (va : Nat) :
    Call.Ends (fun _ _ => True) (walkPagetable (root + hhdm) va true) s (fun _ s' => Spent n s') := by
  rw [walkPagetable, levelIndex_zero, levelIndex_one, levelIndex_two, levelIndex_three]
  have hp := pageOf_lt va
  generalize pageOf va = p at hp
  have hroot : Reaches root hhdm 0 (p / 512 / 512 / 512 / 512) (root + hhdm) s := by
    rw [show p / 512 / 512 / 512 / 512 = 0 by omega]
    exact h
  apply (tableNextTable_spent hroot hs (by omega) (by omega)).bind
  rintro l1 s₁ ⟨h₁, hs₁⟩
  rw [if_neg h₁.not_isErr]
  apply (tableNextTable_spent h₁ hs₁ (by omega) (by omega)).bind
  rintro l2 s₂ ⟨h₂, hs₂⟩
  rw [if_neg h₂.not_isErr]
  apply (tableNextTable_spent h₂ hs₂ (by omega) (by omega)).bind
  rintro l3 s₃ ⟨h₃, hs₃⟩
  rw [if_neg h₃.not_isErr]
  exact Call.ends_of_ok rfl hs₃

/-- `paging_map` of one page does not return `-ENOMEM`. -/
lemma pagingMap_spent (h : TableInv s root T free) (attrs : PageAttrs) (hva : Span va 1) {pa : Nat}
    (hpa : pa % 4096 = 0) (hend : pa + 4096 ≤ 2 ^ 48) :
    Call.Ends (fun _ _ => True) (pagingMap (root + s.hhdm) va pa PAGE_SIZE attrs) s
      (fun ret s' => ret ≠ Errno.code .ENOMEM ∧ Spent (failures s) s') := by
  have hroot := h.frame h.tree.root
  have htop := hroot.top
  have hreach : Reaches root s.hhdm 0 0 (root + s.hhdm) s :=
    ⟨rfl, h.pmm.good, by omega, .inl ⟨T, free, root, h, h.tree.root, rfl⟩⟩
  rw [pagingMap_one hva hpa]
  apply (pagingMapPages_never attrs hreach hroot hpa (by omega)).and
  rw [pagingMapPages]
  apply (walkPagetable_spent hreach (.inl rfl) va).bind
  intro pde s₁ hs₁
  by_cases herr : isErrValue pde = true
  · rw [if_pos herr]
    exact Call.ends_of_ok rfl hs₁
  rw [if_neg herr]
  apply (readWord_ends _ s₁).bind
  rintro raw s₂ ⟨-, rfl⟩
  by_cases hvalid : PageDescriptor.isValid.get raw = 1
  · rw [if_pos hvalid]
    exact Call.ends_of_error rfl trivial
  rw [if_neg hvalid]
  apply (writeWord_ends _ _ s₂).bind
  rintro - s₃ rfl
  exact Call.ends_of_ok rfl (hs₁.store _)

lemma tableNextTable_looks (td : Nat) :
    Call.Ends (fun _ _ => True) (tableNextTable td false) s (fun _ s' => s' = s) := by
  apply (readWord_ends td s).bind
  rintro raw s₁ ⟨-, rfl⟩
  by_cases hvalid : TableDescriptor.isValid.get raw = 1
  · rw [if_pos hvalid]
    exact Call.ends_of_ok rfl rfl
  · rw [if_neg hvalid, if_neg Bool.false_ne_true]
    exact Call.ends_of_ok rfl rfl

lemma pagingLookupDesc_looks (table va : Nat) :
    Call.Ends (fun _ _ => True) (pagingLookupDesc table va) s (fun _ s' => s' = s) := by
  rw [pagingLookupDesc, walkPagetable]
  apply (tableNextTable_looks _).bind
  rintro l1 s₁ rfl
  by_cases h1 : isErrValue l1 = true
  · rw [if_pos h1]
    exact Call.ends_of_ok rfl rfl
  rw [if_neg h1]
  apply (tableNextTable_looks _).bind
  rintro l2 s₂ rfl
  by_cases h2 : isErrValue l2 = true
  · rw [if_pos h2]
    exact Call.ends_of_ok rfl rfl
  rw [if_neg h2]
  apply (tableNextTable_looks _).bind
  rintro l3 s₃ rfl
  by_cases h3 : isErrValue l3 = true
  · rw [if_pos h3]
    exact Call.ends_of_ok rfl rfl
  rw [if_neg h3]
  exact Call.ends_of_ok rfl rfl

/-- Without a free frame the loop leaves `ret` as it is, whatever the tables have become. -/
lemma copyPages_exhausted (h : PmmInv s []) (dst src : Nat) (pages : List Nat) (n ret : Nat) :
    Call.Ends (fun _ _ => True) (copyPages dst src pages n ret) s (fun r _ => r.1 = ret) := by
  induction pages with
  | nil => exact Call.ends_of_ok rfl rfl
  | cons va rest ih =>
    rw [copyPages]
    apply (pagingLookupDesc_looks src va).bind
    rintro srcPde s₁ rfl
    apply (readWord_ends srcPde s₁).bind
    rintro raw s₂ ⟨-, rfl⟩
    by_cases hvalid : PageDescriptor.isValid.get raw = 1 ∧ PageDescriptor.isPage.get raw = 1
    · rw [if_pos hvalid]
      have hlook : Call.Ends (fun _ _ => True) (pagingPageToPa srcPde va) s₂ (fun _ s' => s' = s₂) := by
        apply (readWord_ends srcPde s₂).bind
        rintro raw s₃ ⟨-, rfl⟩
        exact Call.ends_of_ok rfl rfl
      apply hlook.bind
      rintro srcPa s₃ rfl
      apply Call.ends_bind_ok (pmmAlloc_nil h)
      rw [if_pos isErrValue_errToPtr]
      exact Call.ends_of_ok rfl rfl
    · rw [if_neg hvalid]
      exact ih

end Exhausted

section Loop

variable {l : Leaf} (hsrc : SourceInv s₀ rootS S free₀)
include hsrc

/-- A turn without frames for the page and its tables. -/
lemma CopyInv.short (h : CopyInv s₀ S free₀ root done s T owned free) (hva : Span va 1)
    (hl : S.leaf (pageOf va) = some l)
    (hp : pageOf va ∉ done) (hlt : free.length < 1 + missing T (pageOf va)) (rest : List Nat) (n : Nat) :
    Call.Ends (fun _ _ => True) (copyPages (root + s₀.hhdm) (rootS + s₀.hhdm) (va :: rest) n 0) s
      (fun r _ => r.1 ≠ Errno.code .ENOMEM) := by
  have hS := h.source hsrc
  have hhdm := h.within.hhdm
  obtain ⟨hpa, hnot⟩ := hsrc.pages hl
  rw [← hhdm]
  cases free with
  | nil =>
    refine Call.ends_of_ok (copyPages_nil hS hl rest) ?_
    show (0 : Nat) ≠ 12
    decide
  | cons f free =>
    have hff : f ∈ f :: free := List.mem_cons_self
    have hf := h.table.pmm.frames f hff
    have haligned := hf.aligned
    have hbound := hf.bound
    have hne : f ≠ l.pa := by
      rintro rfl
      exact hnot (h.free_start hff)
    have hcopy := h.table.copyFrame l.pa
    have hS' : TableInv (copyFrame s f l.pa) rootS S free :=
      hsrc.table_within (h.within_copy hff) hcopy.pmm (fun g hg => h.free_start (List.mem_cons_of_mem f hg))
    have hturn : copyPages (root + s.hhdm) (rootS + s.hhdm) (va :: rest) n 0 s = _ :=
      copyPages_cons hS hva.aligned hl (by rw [hhdm]; exact hpa) hne hS' rest
    rw [Call.Ends, hturn]
    have hspent := pagingMap_spent hcopy l.attrs hva haligned (by omega)
    rcases hmap : pagingMap (root + s.hhdm) va f PAGE_SIZE l.attrs (copyFrame s f l.pa) with ⟨e | ret, s'⟩
    · rw [Call.bind_error hmap]
      trivial
    obtain ⟨hret, hs'⟩ := hspent.ok hmap
    have hfail : failures (copyFrame s f l.pa) < failures s' := by
      rcases pagingMap_page hcopy l.attrs hva ⟨haligned, hbound⟩ with
        ⟨hfail, -⟩ | ⟨hold, -⟩ | ⟨s₁, T₁, free₁, used, -, -, hm⟩
      · have hfail' : _ < failures (pagingMap (root + s.hhdm) va f PAGE_SIZE l.attrs (copyFrame s f l.pa)).2 := hfail
        rwa [hmap] at hfail'
      · exact absurd ((h.pages _).mp hold) hp
      · have h1 := hm.grows.length
        have h2 := hm.length
        rw [List.length_cons] at hlt
        omega
    have hnone : PmmInv s' [] := hs'.resolve_left (Nat.ne_of_gt hfail)
    rw [Call.bind_ok hmap]
    show Call.Ends _ (copyRest _ _ _ _ _ ret) s' _
    unfold copyRest
    by_cases h0 : ret = 0
    · rw [if_neg (not_not.mpr h0)]
      apply (copyPages_exhausted hnone _ _ _ _ _).mono
      rintro r - hr
      rw [hr]
      exact hret
    · rw [if_pos h0]
      apply (Call.ends_true (pmmFree f) s').bind
      intro _ s'' _
      exact Call.ends_of_ok rfl hret

/-- The loop never ends with `-ENOMEM`. -/
lemma CopyInv.never {pages : List Nat} (h : CopyInv s₀ S free₀ root done s T owned free) (hc : Copyable S pages)
    (hnew : ∀ va ∈ pages, pageOf va ∉ done) (n : Nat) :
    Call.Ends (fun _ _ => True) (copyPages (root + s₀.hhdm) (rootS + s₀.hhdm) pages n 0) s
      (fun r _ => r.1 ≠ Errno.code .ENOMEM) := by
  induction pages generalizing done s T owned free n with
  | nil =>
    refine Call.ends_of_ok rfl ?_
    show (0 : Nat) ≠ 12
    decide
  | cons va rest ih =>
    obtain ⟨l, hl⟩ := Option.ne_none_iff_exists'.mp (hc.mapped va List.mem_cons_self)
    have hp := hnew va List.mem_cons_self
    by_cases hlt : free.length < 1 + missing T (pageOf va)
    · exact h.short hsrc (hc.span va List.mem_cons_self) hl hp hlt rest n
    rcases h.turn hsrc (hc.span va List.mem_cons_self) hl hp rest n with
      ⟨rfl, -⟩ | ⟨hlt', -⟩ | ⟨s₁, T₁, owned₁, free₁, hrun, h₁, -⟩
    · rw [List.length_nil] at hlt
      omega
    · exact absurd hlt' hlt
    · rw [Call.Ends, hrun]
      exact ih h₁ hc.tail (hc.not_mem_insert hnew) (n + 1)

end Loop

/-- What `address_space_create_from` owes with any number of free frames. Nothing but frames that were free
changes, and no table that was there uses a frame that is free afterwards. A space that is returned is a
whole copy, and a call that fails has given back each frame that it took, once. -/
def ForkSafe (s : Mm) (src : AddressSpace) (S : Tree) (free : List Nat) : Prop :=
  ∃ r s' free', addressSpaceCreateFrom src s = (.ok r, s') ∧ Within free s s' ∧
    (∀ root T, SourceInv s root T free → SourceInv s' root T free') ∧
    match r with
    | .ok dst => ∃ root T, ForkCopy s src S free dst s' root T free'
    | .error _ => ∃ taken rest back, free = taken ++ rest ∧ back.Perm taken ∧ free' = back ++ rest ∧
        s'.log.released = back ++ s.log.released

/-- The call stops before it copies anything, or there is a frame for each table and page. -/
def FramesSuffice (s : Mm) (src : AddressSpace) (free : List Nat) : Prop :=
  HasBlocks s ∧ free ≠ [] → framesFor (copiedPages src) ≤ free.length

lemma SourceInv.kept (h : SourceInv s root T free) (hw : Within free s s') (hpmm : PmmInv s' free')
    (hsub : ∀ f ∈ free', f ∈ free) : SourceInv s' root T free' := by
  refine ⟨h.table_within hw hpmm hsub, ?_⟩
  intro q l hl
  obtain ⟨hframe, hnot⟩ := h.pages hl
  rw [hw.hhdm]
  exact ⟨hframe, fun hf => hnot (hsub _ hf)⟩

lemma afterCopy_ends (dst : AddressSpace) (r : Nat × Option Nat) :
    Call.Ends (fun _ _ => True) (afterCopy dst r) s (fun ret _ => ret = r.1) := by
  obtain ⟨ret, _ | n⟩ := r
  · exact Call.ends_of_ok rfl rfl
  · apply (Call.ends_true (copyCleanup dst.table (pageAddresses dst.region) n) s).bind
    intro _ s' _
    exact Call.ends_of_ok rfl rfl

lemma forkEnd_ends (dst : AddressSpace) (ret : Nat) :
    Call.Ends (fun _ _ => True) (forkEnd dst ret) s
      (fun r _ => (ret = 0 ∧ r = .ok dst) ∨ (ret ≠ 0 ∧ r = .error ret)) := by
  unfold forkEnd
  by_cases h0 : ret = 0
  · rw [if_neg (not_not.mpr h0)]
    exact Call.ends_of_ok rfl (.inl ⟨h0, rfl⟩)
  · rw [if_pos h0]
    apply (Call.ends_true (addressSpaceDestroy dst) s).bind
    intro _ s' _
    exact Call.ends_of_ok rfl (.inr ⟨h0, rfl⟩)

section Fork

variable (h : ForkSource s src rootS S free)
include h

lemma ForkSource.safe_error (hstop : ¬(HasBlocks s ∧ free ≠ [])) : ForkSafe s src S free := by
  obtain ⟨s', hcreate, ⟨hwithin, taken, rest, back, hfree, hperm, hpmm, hreleased⟩, -⟩ :=
    addressSpaceCreate_error h.inv.table.pmm hstop
  have hcall : addressSpaceCreateFrom src s = (.ok (.error (Errno.code .ENOMEM)), s') := by
    rw [addressSpaceCreateFrom, Call.bind_ok hcreate]
    rfl
  refine ⟨_, s', back ++ rest, hcall, hwithin, ?_, taken, rest, back, hfree, hperm, rfl, hreleased⟩
  intro root T hT
  apply hT.kept hwithin hpmm
  intro f hf
  rw [hfree]
  rcases List.mem_append.mp hf with hf | hf
  · exact List.mem_append_left _ (hperm.mem_iff.mp hf)
  · exact List.mem_append_right _ hf

lemma ForkSource.safe (hframes : FramesSuffice s src free) : ForkSafe s src S free := by
  by_cases hstop : HasBlocks s ∧ free ≠ []
  · rcases h.copies hstop.1 hstop.2 with ⟨hshort, -⟩ | ⟨dst, s', root, T, free', hrun, hc, -⟩
    · have henough := hframes hstop
      omega
    · exact ⟨.ok dst, s', free', hrun, hc.within,
        fun _ _ hT => hT.kept hc.within hc.table.pmm (fun _ hf => hc.left hf), root, T, hc⟩
  · exact h.safe_error hstop

/-- A call that runs out of frames does not return `-ENOMEM`. -/
lemma ForkSource.never (hb : HasBlocks s) (hne : free ≠ []) :
    Call.Ends (fun _ _ => True) (addressSpaceCreateFrom src) s (fun r _ => r ≠ .error (Errno.code .ENOMEM)) := by
  obtain ⟨root, free', hfree⟩ := List.exists_cons_of_ne_nil hne
  obtain ⟨dst, s₁, -, -, heq, hstart, -⟩ := h.start hb hfree
  rw [Call.Ends, heq]
  have hloop := hstart.never h.inv (h.region.copyable h.mapped) (fun _ _ => Finset.notMem_empty _) 0
  apply Call.Ends.bind (Q := fun ret _ => ret ≠ Errno.code .ENOMEM)
  · apply hloop.bind
    intro r s₂ hr
    apply (afterCopy_ends dst r).mono
    rintro ret - rfl
    exact hr
  · intro ret s₂ hret
    apply (forkEnd_ends dst ret).mono
    rintro r - (⟨-, rfl⟩ | ⟨-, rfl⟩)
    · intro hbad
      cases hbad
    · exact fun heq => hret (Except.error.inj heq)

end Fork

lemma ForkSource.heap (h : ForkSource s src rootS S free) (heap : Heap) :
    ForkSource { s with heap := heap } src rootS S free :=
  { h with inv := ⟨h.inv.table.congr rfl rfl rfl, h.inv.pages⟩ }

end KaworuOS.Proofs
