import KaworuOS.FdTable
import KaworuOS.Proofs.SpaceIsolation

/-!
# The blocks that a creation takes and gives back

How many blocks of the heap are in use, counted for the memory management and for the files and tables. No call but
`kfree` makes the number smaller, each `kfree` by at most one, and what has been created holds its blocks.
-/

namespace KaworuOS.Proofs
open Lib

/-- How many blocks of the heap are in use. -/
def blockCount (s : Mm) : Nat := (inUse s.heap.live).length

instance : Gauge blockCount := ⟨fun {s s'} h _ => by rw [blockCount, blockCount, h]⟩

/-- The same for a state of files and tables. -/
def fileBlockCount (s : Files) : Nat := (inUse s.heap.live).length

section Heap

variable {s : Mm}

lemma inUse_le_cons (b : Nat) (live : List Nat) : (inUse live).length ≤ (inUse (b :: live)).length := by
  cases herr : isErrValue b with
  | true => rw [inUse_cons_error herr]
  | false =>
    rw [inUse_cons herr]
    exact Nat.le_succ _

lemma inUse_erase_le (b : Nat) (live : List Nat) : (inUse live).length ≤ (inUse (live.erase b)).length + 1 := by
  rw [inUse_erase, List.length_erase]
  split <;> omega

lemma kalloc_gains (s : Mm) : Call.Ends (fun _ _ => True) kalloc s
    (fun b s' => isErrValue b = false → blockCount s + 1 ≤ blockCount s') := by
  rcases hb : s.heap.blocks with _ | ⟨b, rest⟩
  · refine Call.ends_of_ok (kalloc_nil hb) ?_
    rw [isErrValue_errToPtr]
    exact fun h => absurd h (by decide)
  · refine Call.ends_of_ok (kalloc_cons hb) ?_
    intro herr
    show _ ≤ (inUse (b :: s.heap.live)).length
    rw [inUse_cons herr]
    exact Nat.le_refl _

lemma mono_kalloc : Call.Mono blockCount kalloc := by
  intro s
  rcases hb : s.heap.blocks with _ | ⟨b, rest⟩
  · rw [kalloc_nil hb]
  · rw [kalloc_cons hb]
    exact inUse_le_cons b s.heap.live

lemma loses_kfree (b : Nat) : Call.Loses blockCount 1 (kfree b) := by
  intro s
  by_cases hlive : b ∈ s.heap.live
  · rw [kfree_ok hlive]
    exact inUse_erase_le b s.heap.live
  · have hrun : kfree b s = (.error .fault, s) := by
      unfold kfree
      rw [Call.read_bind, if_neg hlive]
      rfl
    rw [hrun]
    exact Nat.le_succ _

lemma loses_addressSpaceDestroy (as : AddressSpace) : Call.Loses blockCount 4 (addressSpaceDestroy as) := by
  have hregion : ∀ r, Call.Loses blockCount 3 (regionDestroy r) := by
    intro r
    exact Call.loses_bind (loses_kfree _) (fun _ => Call.loses_bind (loses_kfree _) (fun _ => loses_kfree _) rfl) rfl
  refine Call.loses_bind (l := 4) (mono_destroyAllocations _ _ _).loses (fun region => ?_) rfl
  refine Call.loses_bind (l := 1) (hregion _) (fun _ => ?_) rfl
  exact Call.loses_bind (mono_pagingDestroyTable _).loses (fun _ => loses_kfree _) rfl

lemma mono_pagingCreateTable : Call.Mono blockCount pagingCreateTable := by
  apply Call.mono_bind mono_pmmAlloc
  intro pa
  apply Call.mono_ite (Call.mono_pure _)
  apply Call.mono_bind (mono_pmmPhysToVirt _)
  intro td
  refine Call.mono_bind ?_ (fun _ => Call.mono_pure _)
  exact mono_sameHeap (fun _ => rfl) (fun _ => Nat.le_refl _)

/-- A part of a creation that goes on to take blocks gains them. -/
lemma regionCreate_gains (base size maxAllocations : Nat) (s : Mm) :
    Call.Ends (fun _ _ => True) (regionCreate base size maxAllocations) s
      (fun r s' => ∀ region, r = .ok region → blockCount s + 3 ≤ blockCount s') := by
  apply (kalloc_gains s).bind
  intro b₁ s₁ h1
  split
  case isTrue => exact fun _ hr => nomatch hr
  apply (kalloc_gains s₁).bind
  intro b₂ s₂ h2
  split
  case isTrue =>
    apply (Call.ends_true (kfree b₁) s₂).bind
    intro _ s₃ _ _ hr
    cases hr
  apply (kalloc_gains s₂).bind
  intro b₃ s₃ h3
  split
  case isTrue =>
    apply (Call.ends_true (kfree b₂) s₃).bind
    intro _ s₄ _
    apply (Call.ends_true (kfree b₁) s₄).bind
    intro _ s₅ _ _ hr
    cases hr
  intro region _
  have h1' := h1 (by simpa using ‹¬isErrValue b₁ = true›)
  have h2' := h2 (by simpa using ‹¬isErrValue b₂ = true›)
  have h3' := h3 (by simpa using ‹¬isErrValue b₃ = true›)
  show blockCount s + 3 ≤ blockCount s₃
  omega

lemma addressSpaceCreate_gains (s : Mm) : Call.Ends (fun _ _ => True) addressSpaceCreate s
    (fun r s' => ∀ as, r = .ok as → blockCount s + 4 ≤ blockCount s') := by
  apply (kalloc_gains s).bind
  intro b s₁ h1
  split
  case isTrue => exact fun _ hr => nomatch hr
  apply (mono_pagingCreateTable.ends s₁).bind
  intro table s₂ h2
  split
  case isTrue =>
    apply (Call.ends_true (kfree b) s₂).bind
    intro _ s₃ _ _ hr
    cases hr
  apply (regionCreate_gains _ _ _ s₂).bind
  intro r s₃ h3
  cases r with
  | error err =>
    dsimp only
    generalize pagingDestroyTable table = destroy
    apply (Call.ends_true destroy s₃).bind
    intro _ s₄ _
    apply (Call.ends_true (kfree b) s₄).bind
    intro _ s₅ _ _ hr
    cases hr
  | ok region =>
    intro as _
    have h1' := h1 (by simpa using ‹¬isErrValue b = true›)
    have h3' := h3 region rfl
    show blockCount s + 4 ≤ blockCount s₃
    omega

lemma addressSpaceCreateFrom_gains (src : AddressSpace) (s : Mm) :
    Call.Ends (fun _ _ => True) (addressSpaceCreateFrom src) s
    (fun r s' => ∀ as, r = .ok as → blockCount s + 4 ≤ blockCount s') := by
  apply (addressSpaceCreate_gains s).bind
  intro r s₁ h1
  cases r with
  | error err => exact fun _ hr => nomatch hr
  | ok dst =>
    have h1' := h1 dst rfl
    apply ((Call.mono_lift (m := blockCount) (regionCopy false dst.region src.region)).ends s₁).bind
    rintro ⟨err, region⟩ s₂ h2
    dsimp only
    split
    case isTrue =>
      apply (Call.ends_true (addressSpaceDestroy _) s₂).bind
      intro _ s₃ _ _ hr
      cases hr
    apply ((mono_addressSpaceCopy (m := blockCount) (dst.setRegion region) src).ends s₂).bind
    intro ret s₃ h3
    split
    case isTrue =>
      apply (Call.ends_true (addressSpaceDestroy _) s₃).bind
      intro _ s₄ _ _ hr
      cases hr
    intro as _
    show blockCount s + 4 ≤ blockCount s₃
    omega

end Heap

section FileTables

variable {s s' : Files}

lemma mono_fileKalloc : Call.Mono fileBlockCount Files.kalloc := by
  intro s
  unfold Files.kalloc
  rw [Call.read_bind]
  cases s.heap.blocks with
  | nil => exact Nat.le_refl _
  | cons b blocks => exact inUse_le_cons b s.heap.live

lemma mono_deref {α : Type} (content : Files → Nat → α) (p : Nat) : Call.Mono fileBlockCount (Files.deref content p) :=
  Call.mono_bind (Call.mono_read _) (fun _ => Call.mono_ite (Call.mono_read _) (Call.mono_halt _))

lemma mono_setTable (g : Files → FDTable) (t : Nat) :
    Call.Mono fileBlockCount (Call.update (fun s => s.setTable t (g s)) : FileCall Unit) :=
  Call.mono_update (fun _ => Nat.le_refl _)

lemma mono_fileCreate (ops mode privateData : Nat) : Call.Mono fileBlockCount (fileCreate ops mode privateData) := by
  apply Call.mono_bind mono_fileKalloc
  intro f
  apply Call.mono_ite (Call.mono_pure _)
  refine Call.mono_bind ?_ (fun _ => Call.mono_pure _)
  exact Call.mono_ite (Call.mono_update (fun _ => Nat.le_refl _)) (Call.mono_halt _)

lemma mono_fdtableReserve (t minFd : Nat) : Call.Mono fileBlockCount (fdtableReserve t minFd) := by
  apply Call.mono_bind (mono_deref _ _)
  intro table
  apply Call.mono_ite (Call.mono_pure _)
  split
  · exact Call.mono_pure _
  · exact Call.mono_bind (mono_setTable (fun _ => _) t) (fun _ => Call.mono_pure _)

lemma mono_fdtableInstallAt (t file fd : Nat) : Call.Mono fileBlockCount (fdtableInstallAt t file fd) := by
  apply Call.mono_bind (mono_deref _ _)
  intro table
  apply Call.mono_ite (Call.mono_pure _)
  apply Call.mono_ite (Call.mono_pure _)
  exact Call.mono_bind (mono_setTable (fun _ => _) t) (fun _ => Call.mono_pure _)

lemma mono_attachStdFile (t std ops mode : Nat) : Call.Mono fileBlockCount (attachStdFile t std ops mode) := by
  apply Call.mono_bind (mono_fdtableReserve _ _)
  rintro (err | fd)
  · exact Call.mono_pure _
  apply Call.mono_ite (Call.mono_pure _)
  apply Call.mono_bind (mono_fileCreate _ _ _)
  intro file
  apply Call.mono_bind (mono_fdtableInstallAt _ _ _)
  intro ret
  exact Call.mono_ite (Call.mono_pure _) (Call.mono_pure _)

lemma mono_fdtableAttachStdFiles (t : Nat) : Call.Mono fileBlockCount (fdtableAttachStdFiles t) := by
  apply Call.mono_bind (mono_attachStdFile _ _ _ _)
  rintro (_ | ret)
  case some => exact Call.mono_pure _
  apply Call.mono_bind (mono_attachStdFile _ _ _ _)
  rintro (_ | ret)
  case some => exact Call.mono_pure _
  apply Call.mono_bind (mono_attachStdFile _ _ _ _)
  rintro (_ | ret)
  · exact Call.mono_pure _
  · exact Call.mono_pure _

end FileTables

end KaworuOS.Proofs
