import KaworuOS.Uaccess
import KaworuOS.Proofs.PagingRefines

/-!
# What `user_range_valid` checks and what it does not

The loop of `user_range_valid` begins at the page of the last byte, so it looks at this page only.
It reads the descriptor that the walk returns without asking whether the walk failed, and it does
not look at the valid bit. The range check before it wraps for sizes beyond the end of the user
range. The copies are therefore sound exactly under the condition `UserCopySafe`.
-/

namespace KaworuOS.Proofs
open Lib

variable {s : Mm} {table p n : Nat}

lemma tableNextTable_false (td : Nat) (s : Mm) : (tableNextTable td false s).2 = s := by
  unfold tableNextTable readWord
  cases isErrValue td with
  | true => rfl
  | false =>
    by_cases hvalid : TableDescriptor.isValid.get (s.mem.load64 td) = 1
    · simp [hvalid, pmmPhysToVirt, Call.read]
    · simp [hvalid]

lemma quiet_pagingLookupDesc (table va : Nat) : Call.Quiet (pagingLookupDesc table va) := by
  apply Call.quiet_bind (tableNextTable_false _)
  intro l1
  apply Call.quiet_ite (Call.quiet_pure _)
  apply Call.quiet_bind (tableNextTable_false _)
  intro l2
  apply Call.quiet_ite (Call.quiet_pure _)
  apply Call.quiet_bind (tableNextTable_false _)
  intro l3
  exact Call.quiet_ite (Call.quiet_pure _) (Call.quiet_pure _)

lemma exists_lookup (table va : Nat) (s : Mm) : ∃ r, pagingLookupDesc table va s = (r, s) :=
  ⟨_, Prod.ext rfl (quiet_pagingLookupDesc table va s)⟩

/-- The permission that the loop asks of a descriptor. -/
def permits (writable readable : Bool) (raw : Nat) : Bool :=
  (!writable || isPageWritableByUser raw) && (!readable || isPageReadableByUser raw)

lemma permits_eq (writable readable : Bool) (raw : Nat) :
    permits writable readable raw =
      (!(writable && !isPageWritableByUser raw) && !(readable && !isPageReadableByUser raw)) := by
  unfold permits
  cases writable <;> cases readable <;> simp

/-- What the loop of `user_range_valid` makes of the one descriptor that it looks at. -/
def lastPageVerdict (table last : Nat) (writable readable : Bool) (s : Mm) : Except Halt Bool :=
  match (pagingLookupDesc table (roundDown last) s).1 with
  | .error e => .error e
  | .ok pde =>
    if isErrValue pde then .error .fault
    else .ok (decide (PageDescriptor.outputAddress.get (s.mem.load64 pde) ≠ 0) &&
      permits writable readable (s.mem.load64 pde))

lemma loop_ends {last : Nat} (hlast : last < 2 ^ 64) :
    wsub last PAGE_SIZE < roundDown last ∨ last < wadd (roundDown last) PAGE_SIZE := by
  rw [roundDown_eq hlast]
  by_cases h : last < 4096
  · right
    rw [wadd_of_lt (by simp only [PAGE_SIZE]; omega)]
    simp only [PAGE_SIZE]
    omega
  · left
    rw [wsub_of_le (by simp only [PAGE_SIZE]; omega) hlast]
    simp only [PAGE_SIZE]
    omega

lemma pagingPageToPa_aligned {pde va : Nat} (herr : isErrValue pde = false) (hva : va % 4096 = 0) (s : Mm) :
    pagingPageToPa pde va s =
      (.ok (pageDescToPa (PageDescriptor.outputAddress.get (s.mem.load64 pde))), s) := by
  have hmask : va &&& (PAGE_SIZE - 1) = 0 := by
    rw [← hva]
    exact Nat.and_two_pow_sub_one_eq_mod va 12
  rw [pagingPageToPa, Call.bind_ok (readWord_ok herr), hmask, Nat.or_zero]
  rfl

lemma pageDescToPa_eq_zero {n : Nat} : pageDescToPa n = 0 ↔ n = 0 := by
  rw [pageDescToPa, Nat.shiftLeft_eq]
  omega

lemma userRangeLoop_eq (table : Nat) {last : Nat} (hlast : last < 2 ^ 64) (writable readable : Bool)
    (s : Mm) :
    userRangeLoop table last writable readable wordSize (roundDown last) s =
      (lastPageVerdict table last writable readable s, s) := by
  have hfuel : wordSize = (2 ^ 64 - 2) + 1 + 1 := by decide
  have hle : roundDown last ≤ last := by
    rw [roundDown_eq hlast]
    omega
  have haligned : roundDown last % 4096 = 0 := by
    rw [roundDown_eq hlast]
    omega
  rw [hfuel, userRangeLoop, if_pos hle, lastPageVerdict]
  obtain ⟨r, hrun⟩ := exists_lookup table (roundDown last) s
  rw [hrun]
  cases r with
  | error e => rw [Call.bind_error hrun]
  | ok pde =>
    rw [Call.bind_ok hrun]
    dsimp only
    by_cases herr : isErrValue pde = true
    · rw [if_pos herr]
      apply Call.bind_error
      apply Call.bind_error
      rw [readWord, if_pos herr]
      rfl
    · rw [Bool.not_eq_true] at herr
      rw [herr, Call.bind_ok (pagingPageToPa_aligned herr haligned s), if_neg Bool.false_ne_true]
      generalize hraw : s.mem.load64 pde = raw
      by_cases hout : PageDescriptor.outputAddress.get raw = 0
      · rw [if_pos (pageDescToPa_eq_zero.mpr hout)]
        simp [hout]
      · have hread : readWord pde s = (.ok raw, s) := by rw [readWord_ok herr, hraw]
        rw [if_neg (fun h => hout (pageDescToPa_eq_zero.mp h)), Call.bind_ok hread]
        by_cases hw : (writable && !isPageWritableByUser raw) = true
        · rw [if_pos hw, permits_eq, hw]
          simp
        · rw [if_neg hw]
          by_cases hr : (readable && !isPageReadableByUser raw) = true
          · rw [if_pos hr, permits_eq, hr]
            simp
          · rw [if_neg hr, permits_eq]
            rw [Bool.not_eq_true] at hw hr
            rw [hw, hr]
            by_cases hend : wsub last PAGE_SIZE < roundDown last
            · rw [if_pos hend]
              simp [hout]
            · rw [if_neg hend, userRangeLoop, if_neg]
              · simp [hout]
              · rcases loop_ends hlast with h1 | h1
                · exact absurd h1 hend
                · omega

/-- The range lies in the user range, over the integers, and every page that it touches has a valid
descriptor with the permission. -/
def UserRangeOk (writable readable : Bool) (s : Mm) (table p n : Nat) : Prop :=
  USER_VM_RANGE_BASE ≤ p ∧ p + n ≤ USER_VM_RANGE_END ∧
    ∀ q, p / 4096 ≤ q → q * 4096 < p + n →
      ∃ raw, validDesc table (q * 4096) s = some raw ∧ permits writable readable raw = true

/-- A copy is sound if it returns `EOK` only for such a range and otherwise returns `-EFAULT` and
changes nothing. -/
def UserCopySound (ok : Prop) (s : Mm) (r : Except Halt Nat × Mm) : Prop :=
  (r.1 = .ok Errno.EOK.code ∧ ok) ∨ r = (.ok Errno.EFAULT.code, s)

/-- The range check rejects the range, or the tables for the page of the last byte are there and
either the descriptor of this page has no frame or not the permission, or the range is right. -/
def UserCopySafe (writable readable : Bool) (s : Mm) (table p n : Nat) : Prop :=
  isWithinUserVmRange p n = false ∨
    ∃ pde, pagingLookupDesc table (roundDown (wsub (wadd p n) 1)) s = (.ok pde, s) ∧
      isErrValue pde = false ∧
      (PageDescriptor.outputAddress.get (s.mem.load64 pde) = 0 ∨
        permits writable readable (s.mem.load64 pde) = false ∨
        UserRangeOk writable readable s table p n)

lemma lookupDesc_congr {va va' : Nat} (h : pageOf va = pageOf va') (table : Nat) :
    pagingLookupDesc table va = pagingLookupDesc table va' := by
  unfold pagingLookupDesc walkPagetable
  rw [levelIndex_zero, levelIndex_one, levelIndex_two, levelIndex_three, levelIndex_zero, levelIndex_one,
    levelIndex_two, levelIndex_three, h]

lemma translate_ne_none {va : Nat} (h : validDesc table (va / 4096 * 4096) s ≠ none) :
    translate table va s ≠ none := by
  have hpage : pageOf (va / 4096 * 4096) = pageOf va := by
    unfold pageOf
    omega
  unfold validDesc at h
  unfold translate
  rw [lookupDesc_congr hpage] at h
  cases hr : (pagingLookupDesc table va s).1 with
  | error e =>
    rw [hr] at h
    exact absurd rfl h
  | ok pde =>
    rw [hr] at h
    dsimp only at h ⊢
    split
    · simp
    · rename_i hno
      rw [if_neg hno] at h
      exact absurd rfl h

lemma UserRangeOk.translates {writable readable : Bool} (h : UserRangeOk writable readable s table p n)
    {x : Nat} (h1 : p ≤ x) (h2 : x < p + n) : translate table x s ≠ none := by
  obtain ⟨raw, hraw, -⟩ := h.2.2 (x / 4096) (by omega) (by omega)
  apply translate_ne_none
  rw [hraw]
  simp

lemma userRangeValid_eq (writable readable : Bool) (hin : isWithinUserVmRange p n = true) (s : Mm) :
    userRangeValid table p n writable readable s =
      (lastPageVerdict table (wsub (wadd p n) 1) writable readable s, s) := by
  have hloop := userRangeLoop_eq table (wsub_lt (wadd p n) 1) writable readable s
  rw [userRangeValid, if_pos hin]
  exact hloop

lemma UserRangeOk.end_lt {writable readable : Bool} (h : UserRangeOk writable readable s table p n) :
    p + n < 2 ^ 64 := by
  have h1 := h.2.1
  simp only [USER_VM_RANGE_END, USER_VM_RANGE_BASE, USER_VM_RANGE_SIZE] at h1
  omega

lemma checkedCopy_iff {writable readable : Bool} {copy : (Nat → Option Nat) → Kernel Unit}
    (hcopy : UserRangeOk writable readable s table p n →
      ∃ s', copy (fun va => translate table va s) s = (.ok (), s')) :
    UserCopySound (UserRangeOk writable readable s table p n) s
      ((do
        if ← userRangeValid table p n writable readable then
          let mmu ← Call.read (fun s va => translate table va s)
          copy mmu
          return Errno.EOK.code
        else return Errno.EFAULT.code : Kernel Nat) s) ↔
      UserCopySafe writable readable s table p n := by
  unfold UserCopySafe
  by_cases hin : isWithinUserVmRange p n = true
  · have hvalid : userRangeValid table p n writable readable s = _ := userRangeValid_eq writable readable hin s
    obtain ⟨r, hrun⟩ := exists_lookup table (roundDown (wsub (wadd p n) 1)) s
    rw [lastPageVerdict, hrun] at hvalid
    rw [hrun]
    cases r with
    | error e =>
      rw [Call.bind_error hvalid]
      simp [UserCopySound, hin]
    | ok pde =>
      dsimp only at hvalid
      by_cases herr : isErrValue pde = true
      · rw [if_pos herr] at hvalid
        rw [Call.bind_error hvalid]
        simp [UserCopySound, hin, herr]
      · rw [if_neg herr] at hvalid
        rw [Bool.not_eq_true] at herr
        rw [Call.bind_ok hvalid]
        by_cases hpass : PageDescriptor.outputAddress.get (s.mem.load64 pde) ≠ 0 ∧
            permits writable readable (s.mem.load64 pde) = true
        · rw [if_pos (by simp [hpass]), Call.read_bind]
          constructor
          · rintro (⟨-, hok⟩ | hfault)
            · exact .inr ⟨pde, rfl, herr, .inr (.inr hok)⟩
            · rcases hc : copy (fun va => translate table va s) s with ⟨rc, s'⟩
              cases rc with
              | error e =>
                rw [Call.bind_error hc] at hfault
                cases hfault
              | ok u =>
                rw [Call.bind_ok hc] at hfault
                cases hfault
          · rintro (hno | ⟨pde', hpde, -, hcases⟩)
            · rw [hin] at hno
              cases hno
            · obtain rfl : pde = pde' := Except.ok.inj (Prod.mk.inj hpde).1
              rcases hcases with hout | hperm | hok
              · exact absurd hout hpass.1
              · rw [hpass.2] at hperm
                cases hperm
              · obtain ⟨s', hs'⟩ := hcopy hok
                left
                rw [Call.bind_ok hs']
                exact ⟨rfl, hok⟩
        · rw [if_neg (by simpa using hpass)]
          refine ⟨fun _ => .inr ⟨pde, rfl, herr, ?_⟩, fun _ => .inr rfl⟩
          by_cases hout : PageDescriptor.outputAddress.get (s.mem.load64 pde) = 0
          · exact .inl hout
          · right; left
            rw [← Bool.not_eq_true]
            exact fun hperm => hpass ⟨hout, hperm⟩
  · rw [Bool.not_eq_true] at hin
    have hvalid : userRangeValid table p n writable readable s = (.ok false, s) := by
      rw [userRangeValid, hin, if_neg Bool.false_ne_true]
      rfl
    rw [Call.bind_ok hvalid]
    exact ⟨fun _ => .inl hin, fun _ => .inr rfl⟩

lemma memcpyFromUser_ok {mmu : Nat → Option Nat} {dst src n : Nat} (hend : src + n < 2 ^ 64)
    (hmmu : ∀ x, src ≤ x → x < src + n → mmu x ≠ none) (s : Mm) :
    ∃ s', memcpyFromUser mmu dst src n s = (.ok (), s') := by
  induction n generalizing dst src s with
  | zero => exact ⟨s, rfl⟩
  | succ n ih =>
    obtain ⟨pa, hpa⟩ := Option.ne_none_iff_exists'.mp (hmmu src (by omega) (by omega))
    have hsrc : wadd src 1 = src + 1 := wadd_of_lt (by omega)
    rw [memcpyFromUser, hpa]
    dsimp only
    rw [Call.update_bind, hsrc]
    exact ih (by omega) (fun x h1 h2 => hmmu x (by omega) (by omega)) _

lemma memcpyToUser_ok {mmu : Nat → Option Nat} {dst src n : Nat} (hend : dst + n < 2 ^ 64)
    (hmmu : ∀ x, dst ≤ x → x < dst + n → mmu x ≠ none) (s : Mm) :
    ∃ s', memcpyToUser mmu dst src n s = (.ok (), s') := by
  induction n generalizing dst src s with
  | zero => exact ⟨s, rfl⟩
  | succ n ih =>
    obtain ⟨pa, hpa⟩ := Option.ne_none_iff_exists'.mp (hmmu dst (by omega) (by omega))
    have hdst : wadd dst 1 = dst + 1 := wadd_of_lt (by omega)
    rw [memcpyToUser, hpa]
    dsimp only
    rw [Call.update_bind, hdst]
    exact ih (by omega) (fun x h1 h2 => hmmu x (by omega) (by omega)) _

/-- The two copies of user memory are sound exactly where `UserCopySafe` holds, for every page table,
every pointer and every positive size. -/
theorem user_copy_sound_iff (s : Mm) (table buffer p n : Nat) (hn : 0 < n) :
    (UserCopySound (UserRangeOk false true s table p n) s (copyFromUser table buffer p n s) ↔
      UserCopySafe false true s table p n) ∧
    (UserCopySound (UserRangeOk true false s table p n) s (copyToUser table p buffer n s) ↔
      UserCopySafe true false s table p n) := by
  constructor
  · rw [copyFromUser, if_neg (by omega)]
    apply checkedCopy_iff
    intro hok
    exact memcpyFromUser_ok hok.end_lt (fun x => hok.translates) s
  · rw [copyToUser, if_neg (by omega)]
    apply checkedCopy_iff
    intro hok
    exact memcpyToUser_ok hok.end_lt (fun x => hok.translates) s

/-- A page of the kernel at `0x10000`, followed by a page of the process. -/
def mixedPages : Mm :=
  (PagingOp.runAll 0x101000
    [.map 0x10000 0x80000 0x1000 { userAttrs with perms := .EL1_READ_WRITE_EL0_NONE },
      .map 0x11000 0x81000 0x1000 userAttrs]
    (createTable (bootMm 0x100000 [0x1000, 0x2000, 0x3000, 0x4000]) 0x1000)).2

theorem user_copy_sound_iff_mixedPages :
    (0 < 8) ∧ (UserCopySound (UserRangeOk false true mixedPages 0x101000 0x11000 8) mixedPages
        (copyFromUser 0x101000 0x200000 0x11000 8 mixedPages) ↔
      UserCopySafe false true mixedPages 0x101000 0x11000 8) :=
  ⟨by decide, (user_copy_sound_iff mixedPages 0x101000 0x200000 0x11000 8 (by decide)).1⟩

/-- The eight bytes from `0x10ffc` on begin in the page of the kernel and end in the page of the
process: the copy returns `EOK`. -/
theorem user_copy_unsound_mixedPages :
    ¬UserCopySound (UserRangeOk false true mixedPages 0x101000 0x10ffc 8) mixedPages
      (copyFromUser 0x101000 0x200000 0x10ffc 8 mixedPages) := by
  have hdesc : (validDesc 0x101000 0x10000 mixedPages).any (permits false true) = false := by decide +kernel
  have hret : (copyFromUser 0x101000 0x200000 0x10ffc 8 mixedPages).1 = .ok Errno.EOK.code := by
    decide +kernel
  rintro (⟨-, -, -, hpages⟩ | hfault)
  · obtain ⟨raw, hraw, hperm⟩ := hpages 0x10 (by decide) (by decide)
    rw [hraw, Option.any_some, hperm] at hdesc
    cases hdesc
  · rw [hfault] at hret
    cases hret

end KaworuOS.Proofs
