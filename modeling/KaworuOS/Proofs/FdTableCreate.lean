import KaworuOS.Proofs.BlockCount
import KaworuOS.Proofs.FdTableShare

/-!
# The table of descriptors of a new process

What `fdtable_create`, `fdtable_create_from` and `fdtable_attach_std_files` leave in a new table, and when
`fdtable_destroy` accepts it again.
-/

namespace KaworuOS.Proofs
open Lib

variable {s s' : Files} {t b : Nat}

/-- `fdtable_reserve` where the smallest descriptor is free. -/
lemma reserve_first {minFd : Nat} (hlt : minFd < MAX_FILES_PER_FD) (hfree : slotState s (t, minFd) = .FREE) :
    Yields (fdtableReserve t minFd) s (fun r s' =>
      r = .ok minFd ∧ slotState s' = Function.update (slotState s) (t, minFd) .RESERVED) := by
  unfold fdtableReserve
  apply (deref_yields Files.table t).bind
  rintro table s₁ ⟨rfl, rfl⟩
  have hfirst : (List.range' minFd (MAX_FILES_PER_FD - minFd)).find? (s₁.table t).isFdFree = some minFd := by
    obtain ⟨n, hn⟩ : ∃ n, MAX_FILES_PER_FD - minFd = n + 1 := ⟨MAX_FILES_PER_FD - minFd - 1, by omega⟩
    rw [hn, List.range'_succ]
    exact List.find?_cons_of_pos (by simpa [FDTable.isFdFree, slotState] using hfree)
  rw [if_neg (Nat.not_le.mpr hlt), hfirst]
  exact ⟨rfl, slotState_setSlot rfl _ _ _ _⟩

lemma attachStdFile_yields {std : Nat} (hlt : std < MAX_FILES_PER_FD) (hfree : slotState s (t, std) = .FREE)
    (ops mode : Nat) : Yields (attachStdFile t std ops mode) s (fun r s' =>
      r = none ∧ slotState s' = Function.update (slotState s) (t, std) .INSTALLED) := by
  unfold attachStdFile
  apply (reserve_first hlt hfree).bind
  rintro _ s₁ ⟨rfl, h1⟩
  dsimp only
  rw [if_neg (not_not.mpr rfl)]
  apply (fileCreate_yields ops mode 0).bind
  intro file s₂ h2
  have hstate : slotState s₂ = Function.update (slotState s) (t, std) .RESERVED := by
    rw [slotState_of_table h2, h1]
  apply (installAt_yields t (filePtr file) std).bind
  rintro ret s₃ (⟨-, -, hnot⟩ | ⟨rfl, h3, -⟩)
  · refine absurd ?_ (hnot hlt)
    rw [hstate, Function.update_self]
  · refine ⟨rfl, ?_⟩
    rw [h3, hstate, Function.update_idem]

/-- The standard files of a new table are attached, also where the heap does not give blocks for them. -/
lemma attachStdFiles_yields (hfree : ∀ fd < MAX_FILES_PER_FD, slotState s (t, fd) = .FREE) :
    Yields (fdtableAttachStdFiles t) s (fun err s' => err = .EOK ∧ slotState s' (t, STDIN) = .INSTALLED) := by
  have hother : ∀ {fd fd' : Nat}, fd ≠ fd' → (t, fd) ≠ (t, fd') := fun hne heq => hne (Prod.mk.inj heq).2
  unfold fdtableAttachStdFiles
  apply (attachStdFile_yields (by decide) (hfree STDIN (by decide)) _ _).bind
  rintro _ s₁ ⟨rfl, h1⟩
  have hfree₁ : slotState s₁ (t, STDOUT) = .FREE := by
    rw [h1, Function.update_of_ne (hother (by decide))]
    exact hfree STDOUT (by decide)
  apply (attachStdFile_yields (by decide) hfree₁ _ _).bind
  rintro _ s₂ ⟨rfl, h2⟩
  have hfree₂ : slotState s₂ (t, STDERR) = .FREE := by
    rw [h2, Function.update_of_ne (hother (by decide)), h1, Function.update_of_ne (hother (by decide))]
    exact hfree STDERR (by decide)
  apply (attachStdFile_yields (by decide) hfree₂ _ _).bind
  rintro _ s₃ ⟨rfl, h3⟩
  refine ⟨rfl, ?_⟩
  rw [h3, Function.update_of_ne (hother (by decide)), h2, Function.update_of_ne (hother (by decide)), h1,
    Function.update_self]

/-- The state after `fdtable_create` has taken a block. -/
def newTable (s : Files) (b : Nat) (rest : List Nat) : Files :=
  { s with heap := ⟨rest, b :: s.heap.live⟩ }.setTable b FDTable.blank

lemma fileKalloc_nil (hblocks : s.heap.blocks = []) : Files.kalloc s = (.ok (errToPtr .ENOMEM), s) := by
  unfold Files.kalloc
  rw [Call.read_bind, hblocks]
  rfl

lemma fileKalloc_cons {rest : List Nat} (hblocks : s.heap.blocks = b :: rest) :
    Files.kalloc s = (.ok b, { s with heap := ⟨rest, b :: s.heap.live⟩ }) := by
  unfold Files.kalloc
  rw [Call.read_bind, hblocks]
  rfl

lemma fdtableCreate_cons {rest : List Nat} (hblocks : s.heap.blocks = b :: rest) (herr : isErrValue b = false) :
    fdtableCreate s = (.ok (.ok b), newTable s b rest) := by
  unfold fdtableCreate
  rw [Call.bind_ok (fileKalloc_cons hblocks), herr, if_neg Bool.false_ne_true]
  rfl

lemma slotState_newTable (rest : List Nat) (fd : Nat) : slotState (newTable s b rest) (b, fd) = .FREE := by
  rw [newTable, slotState_setTable, if_pos rfl]
  rfl

/-- The heap is another one, without a new block in use. -/
structure OnlyErrors (s s' : Files) : Prop where
  rest : s' = { s with heap := s'.heap }
  live : ∀ p ∈ s.heap.live, p ∈ s'.heap.live
  inUse : inUse s'.heap.live = inUse s.heap.live

/-- `fdtable_create` on a heap that gives it no block. -/
lemma fdtableCreate_error (h : ∀ b rest, s.heap.blocks = b :: rest → isErrValue b = true) :
    ∃ s', fdtableCreate s = (.ok (.error .ENOMEM), s') ∧ OnlyErrors s s' := by
  unfold fdtableCreate
  match hb : s.heap.blocks with
  | [] =>
    rw [Call.bind_ok (fileKalloc_nil hb), if_pos isErrValue_errToPtr]
    exact ⟨s, rfl, rfl, fun _ hp => hp, rfl⟩
  | b :: rest =>
    have herr := h b rest hb
    rw [Call.bind_ok (fileKalloc_cons hb), if_pos herr]
    exact ⟨_, rfl, rfl, fun _ hp => List.mem_cons_of_mem _ hp, inUse_cons_error herr _⟩

/-- `fdtable_create_from` of a table with no descriptor in use. -/
lemma fdtableCreateFrom_blank {src : Nat} {rest : List Nat} (hblocks : s.heap.blocks = b :: rest)
    (herr : isErrValue b = false) (hsrc : src ∈ s.heap.live)
    (hfree : ∀ fd < MAX_FILES_PER_FD, slotState s (src, fd) = .FREE) :
    ∃ s', fdtableCreateFrom src s = (.ok (.ok b), s') ∧ s'.heap = ⟨rest, b :: s.heap.live⟩ ∧ s'.file = s.file ∧
      ∀ fd < MAX_FILES_PER_FD, slotState s' (b, fd) = .FREE := by
  let Kept (s' : Files) : Prop := s'.heap = ⟨rest, b :: s.heap.live⟩ ∧ s'.file = s.file ∧
    ∀ fd < MAX_FILES_PER_FD, slotState s' (src, fd) = .FREE ∧ slotState s' (b, fd) = .FREE
  have hnew : Kept (newTable s b rest) := by
    refine ⟨rfl, rfl, fun fd hfd => ⟨?_, slotState_newTable rest fd⟩⟩
    rw [newTable, slotState_setTable]
    split
    · rfl
    · exact hfree fd hfd
  have hslot : ∀ fd l s', ((∀ d ∈ fd :: l, d < MAX_FILES_PER_FD) ∧ Kept s') →
      Call.Ends (fun _ _ => False) (copySlot b src fd) s'
        (fun _ s'' => (∀ d ∈ l, d < MAX_FILES_PER_FD) ∧ Kept s'') := by
    rintro fd l s' ⟨hl, hheap, hfile, hstate⟩
    have hsrc' : src ∈ s'.heap.live := by
      rw [hheap]
      exact List.mem_cons_of_mem _ hsrc
    have hnot : (s'.table src).isFdInstalled fd = false := by
      have h1 : (s'.table src).filesState fd = .FREE := (hstate fd (hl fd List.mem_cons_self)).1
      simp [FDTable.isFdInstalled, h1]
    unfold copySlot
    apply Call.ends_bind_ok (deref_of_live Files.table hsrc')
    rw [hnot, if_neg Bool.false_ne_true]
    refine ⟨fun d hd => hl d (List.mem_cons_of_mem _ hd), hheap, hfile, ?_⟩
    intro d hd
    have hset := slotState_setSlot (s := s') (t := b) rfl fd ((s'.table src).files fd) ((s'.table src).filesState fd)
      ((s'.table src).closeOnExec fd)
    have hkept : ∀ p, slotState s' p = .FREE →
      slotState (s'.setTable b ((s'.table b).setSlot fd ((s'.table src).files fd)
        ((s'.table src).filesState fd) ((s'.table src).closeOnExec fd))) p = .FREE := by
      intro p hp
      rw [hset, Function.update_apply]
      split
      · exact (hstate fd (hl fd List.mem_cons_self)).1
      · exact hp
    exact ⟨hkept _ (hstate d hd).1, hkept _ (hstate d hd).2⟩
  have hloop := Call.ends_each (fun l s' => (∀ d ∈ l, d < MAX_FILES_PER_FD) ∧ Kept s') hslot
    (List.range MAX_FILES_PER_FD)
    (newTable s b rest) ⟨fun d hd => List.mem_range.mp hd, hnew⟩
  unfold fdtableCreateFrom
  rw [Call.bind_ok (fdtableCreate_cons hblocks herr)]
  dsimp only
  rcases hrun : Call.each (copySlot b src) (List.range MAX_FILES_PER_FD) (newTable s b rest) with ⟨_ | _, s'⟩
  · rw [Call.Ends, hrun] at hloop
    exact hloop.elim
  · obtain ⟨-, hheap, hfile, hstate⟩ := hloop.ok hrun
    rw [Call.bind_ok hrun]
    exact ⟨s', rfl, hheap, hfile, fun fd hfd => (hstate fd hfd).2⟩

lemma fdtableCreateFrom_error (h : ∀ b rest, s.heap.blocks = b :: rest → isErrValue b = true) (src : Nat) :
    ∃ s', fdtableCreateFrom src s = (.ok (.error .ENOMEM), s') ∧ OnlyErrors s s' := by
  obtain ⟨s', hrun, honly⟩ := fdtableCreate_error h
  unfold fdtableCreateFrom
  rw [Call.bind_ok hrun]
  exact ⟨s', rfl, honly⟩

/-- `fdtable_destroy` of a table with no descriptor in use. -/
lemma fdtableDestroy_free (hlive : t ∈ s.heap.live) (hfree : ∀ fd < MAX_FILES_PER_FD, slotState s (t, fd) = .FREE) :
    fdtableDestroy t s = (.ok .EOK, { s with heap := { s.heap with live := s.heap.live.erase t } }) := by
  have hall : (List.range MAX_FILES_PER_FD).all (s.table t).isFdFree = true := by
    rw [List.all_eq_true]
    intro fd hfd
    have h1 : (s.table t).filesState fd = .FREE := hfree fd (List.mem_range.mp hfd)
    simp [FDTable.isFdFree, h1]
  unfold fdtableDestroy
  rw [Call.bind_ok (deref_of_live Files.table hlive), if_pos hall, Call.bind_ok (kfree_of_live hlive)]
  rfl

end KaworuOS.Proofs
