import KaworuOS.Proofs.FdTableShare

/-!
# Reservations of descriptors

As long as nobody installs over, frees or copies the reservation of another thread, a reserved slot
belongs to exactly one thread, and `fdtable_add` finds the slot as it left it.
-/

namespace KaworuOS.Proofs
open Lib

/-- The reserved slots are those of the outstanding reservations, and no slot is reserved twice. -/
structure ReservedInv (s : Files) (g : Shares) : Prop where
  nodup : (g.reserved.map Reservation.slot).Nodup
  inside : ∀ q ∈ g.reserved, q.slot ∈ slotsOf g.refs.tables
  state : ∀ p ∈ slotsOf g.refs.tables, slotState s p = .RESERVED ↔ ∃ q ∈ g.reserved, q.slot = p
  adding : ∀ i a, g.adding i = some a → ⟨i, (a.table, a.fd)⟩ ∈ g.reserved

variable {s s' : Files} {g g' : Shares} {i t fd : Nat} {p : Nat × Nat} {q : Reservation}

namespace ReservedInv

variable (h : ReservedInv s g)
include h

lemma unique (hq : q ∈ g.reserved) (hi : ⟨i, q.slot⟩ ∈ g.reserved) : q = ⟨i, q.slot⟩ :=
  List.inj_on_of_nodup_map h.nodup hq hi rfl

lemma reserved_state (hq : q ∈ g.reserved) : slotState s q.slot = .RESERVED :=
  (h.state q.slot (h.inside q hq)).mpr ⟨q, hq, rfl⟩

lemma frame (hstate : ∀ p ∈ slotsOf g.refs.tables, slotState s' p = .RESERVED ↔ slotState s p = .RESERVED)
    (htables : g'.refs.tables = g.refs.tables) (hreserved : g'.reserved = g.reserved)
    (hadding : g'.adding = g.adding) : ReservedInv s' g' := by
  constructor
  · rw [hreserved]
    exact h.nodup
  · rw [hreserved, htables]
    exact h.inside
  · rw [hreserved, htables]
    intro p hp
    rw [hstate p hp]
    exact h.state p hp
  · rw [hreserved, hadding]
    exact h.adding

lemma update {state : FileDescriptorState} (hold : slotState s p ≠ .RESERVED) (hne : state ≠ .RESERVED)
    (hs' : slotState s' = Function.update (slotState s) p state) (htables : g'.refs.tables = g.refs.tables)
    (hreserved : g'.reserved = g.reserved) (hadding : g'.adding = g.adding) : ReservedInv s' g' := by
  refine h.frame ?_ htables hreserved hadding
  intro p' _
  rw [hs']
  by_cases hp : p' = p
  · subst hp
    rw [Function.update_self]
    exact ⟨fun h' => absurd h' hne, fun h' => absurd h' hold⟩
  · rw [Function.update_of_ne hp]

lemma reserve (hp : p ∈ slotsOf g.refs.tables) (hfree : slotState s p = .FREE)
    (hs' : slotState s' = Function.update (slotState s) p .RESERVED) (htables : g'.refs.tables = g.refs.tables)
    (hreserved : g'.reserved = ⟨i, p⟩ :: g.reserved)
    (hadding : ∀ j a, g'.adding j = some a → g.adding j = some a ∨ (j = i ∧ (a.table, a.fd) = p)) :
    ReservedInv s' g' := by
  have hnew : ∀ q ∈ g.reserved, q.slot ≠ p := by
    rintro q hq rfl
    rw [h.reserved_state hq] at hfree
    cases hfree
  constructor
  · rw [hreserved, List.map_cons, List.nodup_cons]
    refine ⟨?_, h.nodup⟩
    intro hmem
    obtain ⟨q, hq, hslot⟩ := List.mem_map.mp hmem
    exact hnew q hq hslot
  · rw [hreserved, htables]
    intro q hq
    rcases List.mem_cons.mp hq with rfl | hq
    · exact hp
    · exact h.inside q hq
  · rw [hreserved, htables, hs']
    intro p' hp'
    by_cases heq : p' = p
    · subst heq
      rw [Function.update_self]
      exact ⟨fun _ => ⟨⟨i, p'⟩, List.mem_cons_self, rfl⟩, fun _ => rfl⟩
    · rw [Function.update_of_ne heq, h.state p' hp']
      constructor
      · rintro ⟨q, hq, hslot⟩
        exact ⟨q, List.mem_cons_of_mem _ hq, hslot⟩
      · rintro ⟨q, hq, hslot⟩
        rcases List.mem_cons.mp hq with rfl | hq
        · exact absurd hslot.symm heq
        · exact ⟨q, hq, hslot⟩
  · rw [hreserved]
    intro j a ha
    rcases hadding j a ha with ha | ⟨rfl, rfl⟩
    · exact List.mem_cons_of_mem _ (h.adding j a ha)
    · exact List.mem_cons_self

lemma settle (keep : Reservation → Bool) (hkeep : ∀ q, keep q = false → q.owner = i)
    (hopen : ∀ q ∈ g.reserved, slotState s' q.slot ≠ .RESERVED → keep q = false)
    (hother : ∀ p ∈ slotsOf g.refs.tables, slotState s' p ≠ .RESERVED ∨ slotState s' p = slotState s p)
    (hgone : ∀ q ∈ g.reserved, keep q = false → slotState s' q.slot ≠ .RESERVED)
    (htables : g'.refs.tables = g.refs.tables) (hreserved : g'.reserved = g.reserved.filter keep)
    (hadding : ∀ j a, g'.adding j = some a → g.adding j = some a ∧ j ≠ i) : ReservedInv s' g' := by
  constructor
  · rw [hreserved]
    exact h.nodup.sublist (List.filter_sublist.map _)
  · rw [hreserved, htables]
    intro q hq
    exact h.inside q (List.mem_of_mem_filter hq)
  · rw [hreserved, htables]
    intro p hp
    constructor
    · intro hstate
      have hold : slotState s p = .RESERVED := by
        rcases hother p hp with hne | hsame
        · exact absurd hstate hne
        · rw [← hsame, hstate]
      obtain ⟨q, hq, rfl⟩ := (h.state p hp).mp hold
      refine ⟨q, List.mem_filter.mpr ⟨hq, ?_⟩, rfl⟩
      by_contra hnot
      exact hgone q hq (Bool.eq_false_of_not_eq_true hnot) hstate
    · rintro ⟨q, hq, rfl⟩
      obtain ⟨hq, hkeepq⟩ := List.mem_filter.mp hq
      by_contra hnot
      rw [hopen q hq hnot] at hkeepq
      cases hkeepq
  · rw [hreserved]
    intro j a ha
    obtain ⟨ha, hne⟩ := hadding j a ha
    refine List.mem_filter.mpr ⟨h.adding j a ha, ?_⟩
    by_contra hnot
    exact hne (hkeep _ (Bool.eq_false_of_not_eq_true hnot))

lemma settleSlot {state : FileDescriptorState} (hopen : slotState s p = .RESERVED → ⟨i, p⟩ ∈ g.reserved)
    (hne : state ≠ .RESERVED) (hs' : slotState s' = Function.update (slotState s) p state)
    (htables : g'.refs.tables = g.refs.tables) (hreserved : g'.reserved = g.reserved.erase ⟨i, p⟩)
    (hadding : ∀ j a, g'.adding j = some a → g.adding j = some a ∧ j ≠ i) : ReservedInv s' g' := by
  have hnodup : g.reserved.Nodup := h.nodup.of_map _
  have hslot : ∀ q ∈ g.reserved, q.slot = p → q = ⟨i, p⟩ := by
    rintro q hq rfl
    exact h.unique hq (hopen (h.reserved_state hq))
  refine h.settle (i := i) (fun q => q != ⟨i, p⟩) ?_ ?_ ?_ ?_ htables ?_ hadding
  · intro q hq
    rw [bne_eq_false_iff_eq] at hq
    rw [hq]
  · intro q hq hstate
    rw [bne_eq_false_iff_eq]
    apply hslot q hq
    by_contra hpne
    rw [hs', Function.update_of_ne hpne] at hstate
    exact hstate (h.reserved_state hq)
  · intro p' _
    rw [hs']
    by_cases hp : p' = p
    · subst hp
      rw [Function.update_self]
      exact .inl hne
    · rw [Function.update_of_ne hp]
      exact .inr rfl
  · intro q _ hq
    rw [bne_eq_false_iff_eq] at hq
    rw [hq, hs', Function.update_self]
    exact hne
  · rw [hreserved]
    exact hnodup.erase_eq_filter _

lemma addTable {b : Nat} (hb : b ∉ g.refs.tables) (hother : ∀ p : Nat × Nat, p.1 ≠ b → slotState s' p = slotState s p)
    (hnew : ∀ fd < MAX_FILES_PER_FD, slotState s' (b, fd) ≠ .RESERVED)
    (htables : g'.refs.tables = insert b g.refs.tables) (hreserved : g'.reserved = g.reserved)
    (hadding : g'.adding = g.adding) : ReservedInv s' g' := by
  have hslot : ∀ q ∈ g.reserved, q.slot.1 ≠ b := by
    intro q hq heq
    exact hb (heq ▸ (mem_slotsOf.mp (h.inside q hq)).1)
  constructor
  · rw [hreserved]
    exact h.nodup
  · rw [hreserved, htables]
    intro q hq
    have hin := mem_slotsOf.mp (h.inside q hq)
    exact mem_slotsOf.mpr ⟨Finset.mem_insert_of_mem hin.1, hin.2⟩
  · rw [hreserved, htables]
    rintro ⟨t, fd⟩ hp
    rw [mem_slotsOf, Finset.mem_insert] at hp
    obtain ⟨ht, hfd⟩ := hp
    by_cases htb : t = b
    · subst htb
      constructor
      · exact fun hstate => absurd hstate (hnew fd hfd)
      · rintro ⟨q, hq, hqslot⟩
        exact absurd (by rw [hqslot]) (hslot q hq)
    · rw [hother (t, fd) htb]
      exact h.state (t, fd) (mem_slotsOf.mpr ⟨ht.resolve_left htb, hfd⟩)
  · rw [hreserved, hadding]
    exact h.adding

lemma dropTable (hfree : ∀ fd < MAX_FILES_PER_FD, slotState s (t, fd) = .FREE) (hs' : slotState s' = slotState s)
    (htables : g'.refs.tables = g.refs.tables.erase t) (hreserved : g'.reserved = g.reserved)
    (hadding : g'.adding = g.adding) : ReservedInv s' g' := by
  constructor
  · rw [hreserved]
    exact h.nodup
  · rw [hreserved, htables]
    rintro ⟨j, t', fd⟩ hq
    have hin := mem_slotsOf.mp (h.inside _ hq)
    have hstate := h.reserved_state hq
    refine mem_slotsOf.mpr ⟨Finset.mem_erase.mpr ⟨?_, hin.1⟩, hin.2⟩
    rintro rfl
    rw [hfree fd hin.2] at hstate
    cases hstate
  · rw [hreserved, htables, hs']
    intro p hp
    rw [mem_slotsOf, Finset.mem_erase] at hp
    exact h.state p (mem_slotsOf.mpr ⟨hp.1.2, hp.2⟩)
  · rw [hreserved, hadding]
    exact h.adding

end ReservedInv

lemma FdAct.file_yields {act : FdAct} (h : FileInvOf s g.refs) (hop : act.Named s g) :
    Yields (act.call i) s (fun effect s' => FileInvOf s' (effect g).refs) := by
  cases act with
  | plain op => exact (op.step_ends h hop.2).returns.bind (fun _ _ hinv => hinv)
  | reserve table minFd =>
    apply (FileInv.reserve_ends h hop minFd).returns.bind
    rintro r s' ⟨hinv, -⟩
    cases r <;> exact hinv
  | installAt table file fd =>
    apply (FileInv.installAt_ends h hop.1 hop.2 fd).returns.bind
    rintro err s' ⟨hinv, -⟩
    by_cases herr : err = .EOK
    · subst herr
      exact hinv
    · rw [if_neg herr] at hinv ⊢
      exact hinv
  | addReserve table file =>
    apply (FileInv.reserve_ends h hop 0).returns.bind
    rintro r s' ⟨hinv, -⟩
    cases r <;> exact hinv
  | addInstall table file fd =>
    apply (FileInv.installAt_ends h hop.1 hop.2 fd).returns.bind
    rintro err s' ⟨hinv, -⟩
    by_cases herr : err = .EOK
    · subst herr
      exact hinv
    · rw [if_neg herr] at hinv ⊢
      exact hinv
  | dupAt table srcFd dstFd closeOnExec =>
    apply (FileInv.dupAtLocked_ends h hop srcFd dstFd closeOnExec).returns.bind
    rintro ⟨err, old⟩ s' hinv
    have hrefs : FileInvOf s' ((if old = 0 then id else Refs.take [old]) g.refs) := by
      by_cases hold : old = 0
      · rw [if_pos hold] at hinv ⊢
        exact hinv
      · rw [if_neg hold] at hinv ⊢
        exact hinv
    dsimp only
    split <;> exact hrefs
  | closeAll table =>
    have hclose := FileInv.closeSlots_ends h hop _ (fun fd hfd => List.mem_range.mp hfd)
    exact hclose.returns.bind (fun _ _ hinv => hinv)
  | destroy table =>
    apply (destroy_yields table).bind
    rintro err s' ⟨rfl, hfree⟩
    exact FileInv.dropTable h hfree hop

lemma FileOp.reserved_yields {op : FileOp} (hfile : FileInvOf s g.refs) (h : ReservedInv s g)
    (hplain : op.Plain) (hop : op.Allowed s g.refs)
    (hcopy : ∀ src, op = .createFrom src → ∀ fd < MAX_FILES_PER_FD, slotState s (src, fd) ≠ .RESERVED) :
    Yields op.call s (fun effect s' => ReservedInv s' (Shares.onRefs effect g)) := by
  have hsame : ∀ {r : Refs → Refs} {s₁ : Files}, slotState s₁ = slotState s →
      (r g.refs).tables = g.refs.tables → ReservedInv s₁ (Shares.onRefs r g) := by
    intro r s₁ hstate htables
    refine h.frame ?_ htables rfl rfl
    intro p _
    rw [hstate]
  have honOk : ∀ r : Except Errno Nat, (onOk (fun f => Refs.take [f]) r g.refs).tables = g.refs.tables := by
    intro r
    cases r <;> rfl
  cases op with
  | fileCreate ops mode privateData =>
    apply (fileCreate_yields ops mode privateData).bind
    intro r s₁ htable
    refine hsame (slotState_of_table htable) ?_
    cases r <;> rfl
  | filePut f =>
    apply (filePut_yields f).bind
    intro r s₁ htable
    exact hsame (slotState_of_table htable) rfl
  | create =>
    apply (create_yields hop).bind
    rintro r s₁ (⟨err, rfl, rfl⟩ | ⟨b, rfl, hnot, hnew⟩)
    · exact hsame rfl rfl
    · refine h.addTable (fun hb => hnot (hfile.tables_live b hb)) ?_ ?_ rfl rfl rfl
      · intro p hp
        rw [hnew, if_neg hp]
      · intro fd _
        rw [hnew, if_pos rfl]
        decide
  | createFrom src =>
    apply (createFrom_yields hop.2 (hfile.tables_live src hop.1)).bind
    rintro r s₁ (⟨err, rfl, rfl⟩ | ⟨b, rfl, hnot, hother, hnew⟩)
    · exact hsame rfl rfl
    · refine h.addTable (fun hb => hnot (hfile.tables_live b hb)) hother ?_ rfl rfl rfl
      intro fd hfd
      rw [hnew fd hfd]
      exact hcopy src rfl fd hfd
  | getFile table fd =>
    apply (getFile_yields table fd).bind
    intro r s₁ hstate
    exact hsame hstate (honOk r)
  | closeFileLocked table fd =>
    apply (closeFileLocked_yields table fd).bind
    rintro r s₁ (hstate | ⟨hinst, hstate⟩)
    · exact hsame hstate (honOk r)
    · refine h.update ?_ (by decide) hstate (honOk r) rfl rfl
      rw [hinst]
      decide
  | setCloseOnExec table fd closeOnExec =>
    apply (setCloseOnExec_yields table fd closeOnExec).bind
    intro r s₁ hstate
    exact hsame hstate rfl
  | dup table srcFd =>
    apply (dup_yields table srcFd).bind
    rintro r s₁ (hstate | ⟨fd, hfree, hstate⟩)
    · exact hsame hstate rfl
    · refine h.update ?_ (by decide) hstate rfl rfl rfl
      rw [hfree]
      decide
  | heap new =>
    have hheap : ReservedInv { s with heap := new } (Shares.onRefs id g) := hsame rfl rfl
    exact hheap
  | reserve | installAt | add | closeFile | dupAt | dupAtLocked | closeAll | closeAllLocked => exact hplain.elim

lemma FdAct.reserved_yields {r : FdRun} {act : FdAct} (hfile : FileInvOf r.files r.shares.refs)
    (h : ReservedInv r.files r.shares) (hop : act.Allowed r i) (hcare : act.Careful r i) :
    Yields (act.call i) r.files (fun effect s' => ReservedInv s' (effect r.shares)) := by
  obtain ⟨hnamed, hturn⟩ := hop
  -- a thread that is not in `fdtable_add` may end its reservations
  have hidle : r.shares.adding i = none → ∀ j a, r.shares.adding j = some a → r.shares.adding j = some a ∧ j ≠ i := by
    intro hnone j a ha
    refine ⟨ha, ?_⟩
    rintro rfl
    rw [hnone] at ha
    cases ha
  cases act with
  | plain op =>
    have hcopy : ∀ src, op = .createFrom src → ∀ fd < MAX_FILES_PER_FD, slotState r.files (src, fd) ≠ .RESERVED := by
      rintro src rfl
      exact hcare
    exact (FileOp.reserved_yields hfile h hnamed.1 hnamed.2 hcopy).bind (fun _ _ hinv => hinv)
  | reserve table minFd =>
    apply (reserve_yields table minFd).bind
    rintro _ s' (⟨err, rfl, rfl, -⟩ | ⟨fd, rfl, hfd, hfree, hstate⟩)
    · exact h
    · have hslot : (table, fd) ∈ slotsOf r.shares.refs.tables := mem_slotsOf.mpr ⟨hnamed, hfd⟩
      exact h.reserve hslot hfree hstate rfl rfl (fun j a ha => .inl ha)
  | installAt table file fd =>
    apply (installAt_yields table file fd).bind
    rintro err s' (⟨hne, rfl, -⟩ | ⟨rfl, hstate, -⟩)
    · rw [if_neg hne]
      exact h
    · exact h.settleSlot hcare (by decide) hstate rfl rfl (hidle hturn)
  | addReserve table file =>
    apply (reserve_yields table 0).bind
    rintro _ s' (⟨err, rfl, rfl, -⟩ | ⟨fd, rfl, hfd, hfree, hstate⟩)
    · exact h
    · have hslot : (table, fd) ∈ slotsOf r.shares.refs.tables := mem_slotsOf.mpr ⟨hnamed, hfd⟩
      refine h.reserve (i := i) hslot hfree hstate rfl rfl ?_
      intro j a ha
      change Function.update r.shares.adding i (some ⟨table, file, fd⟩) j = some a at ha
      by_cases hj : j = i
      · subst hj
        rw [Function.update_self] at ha
        obtain rfl := Option.some.inj ha
        exact .inr ⟨rfl, rfl⟩
      · rw [Function.update_of_ne hj] at ha
        exact .inl ha
  | addInstall table file fd =>
    have hmem := h.adding i _ hturn
    have hadding : ∀ j a, Function.update r.shares.adding i none j = some a → r.shares.adding j = some a ∧ j ≠ i := by
      intro j a ha
      by_cases hj : j = i
      · subst hj
        rw [Function.update_self] at ha
        cases ha
      · rw [Function.update_of_ne hj] at ha
        exact ⟨ha, hj⟩
    have hlt : fd < MAX_FILES_PER_FD := (mem_slotsOf.mp (h.inside _ hmem)).2
    apply (installAt_yields table file fd).bind
    rintro err s' (⟨-, -, hnot⟩ | ⟨rfl, hstate, -⟩)
    · exact absurd (h.reserved_state hmem) (hnot hlt)
    · exact h.settleSlot (fun _ => hmem) (by decide) hstate rfl rfl hadding
  | dupAt table srcFd dstFd closeOnExec =>
    have htaken : ∀ old, ((if old = 0 then id else Refs.take [old]) r.shares.refs).tables = r.shares.refs.tables := by
      intro old
      split <;> rfl
    apply (dupAtLocked_yields table srcFd dstFd closeOnExec).bind
    rintro ⟨err, old⟩ s' (⟨hstate, heq⟩ | ⟨rfl, hne, hstate⟩)
    · dsimp only
      rw [if_neg (fun hc : err = .EOK ∧ srcFd ≠ dstFd => hc.2 (heq hc.1))]
      exact h.frame (fun p _ => by rw [hstate]) (htaken old) rfl rfl
    · dsimp only
      rw [if_pos (⟨rfl, hne⟩ : _ ∧ srcFd ≠ dstFd)]
      exact h.settleSlot (hcare hne) (by decide) hstate (htaken old) rfl (hidle hturn)
  | closeAll table =>
    apply (closeSlots_yields table (List.range MAX_FILES_PER_FD)).bind
    intro toPut s' hstate
    have hfreed : ∀ p ∈ slotsOf r.shares.refs.tables,
      slotState s' p = if p.1 = table then .FREE else slotState r.files p := by
      intro p hp
      have hmem : p.2 ∈ List.range MAX_FILES_PER_FD := List.mem_range.mpr (mem_slotsOf.mp hp).2
      rw [hstate]
      simp only [hmem, and_true]
    have hgone : ∀ q ∈ r.shares.reserved, slotState s' q.slot ≠ .RESERVED ↔ q.slot.1 = table := by
      intro q hq
      rw [hfreed q.slot (h.inside q hq)]
      by_cases ht : q.slot.1 = table
      · simp [ht]
      · simp [ht, h.reserved_state hq]
    have hkeep : ∀ q : Reservation, (!(q.owner == i && q.slot.1 == table)) = false ↔
      q.owner = i ∧ q.slot.1 = table := by
      intro q
      simp
    refine h.settle (i := i) _ (fun q hq => ((hkeep q).mp hq).1) ?_ ?_ ?_ rfl rfl (hidle hturn)
    · intro q hq hne
      have ht := (hgone q hq).mp hne
      have hin := mem_slotsOf.mp (h.inside q hq)
      have hown := hcare q.slot.2 hin.2
      rw [← ht] at hown
      have hq' := h.unique hq (hown (h.reserved_state hq))
      rw [hkeep]
      exact ⟨congrArg Reservation.owner hq', ht⟩
    · intro p hp
      rw [hfreed p hp]
      by_cases ht : p.1 = table
      · rw [if_pos ht]
        exact .inl (by decide)
      · rw [if_neg ht]
        exact .inr rfl
    · intro q hq hk
      exact (hgone q hq).mpr ((hkeep q).mp hk).2
  | destroy table =>
    apply (destroy_yields table).bind
    rintro err s' ⟨rfl, hfree⟩
    exact h.dropTable hfree rfl rfl rfl rfl

lemma reserve_returns (minFd : Nat) (hlive : t ∈ s.heap.live) : ∃ r s', fdtableReserve t minFd s = (.ok r, s') := by
  unfold fdtableReserve
  rw [Call.bind_ok (deref_of_live Files.table hlive)]
  split
  · exact ⟨_, _, rfl⟩
  · cases (List.range' minFd (MAX_FILES_PER_FD - minFd)).find? (s.table t).isFdFree with
    | none => exact ⟨_, _, rfl⟩
    | some fd => exact ⟨_, _, rfl⟩

lemma installAt_returns (file fd : Nat) (hlive : t ∈ s.heap.live) :
    ∃ err s', fdtableInstallAt t file fd s = (.ok err, s') := by
  unfold fdtableInstallAt
  rw [Call.bind_ok (deref_of_live Files.table hlive)]
  split
  · exact ⟨_, _, rfl⟩
  · split
    · exact ⟨_, _, rfl⟩
    · exact ⟨_, _, rfl⟩

variable {r r' : FdRun}

namespace FdRun

/-- The invariant of a run. -/
structure Inv (r : FdRun) : Prop where
  file : FileInvOf r.files r.shares.refs
  reserved : ReservedInv r.files r.shares

/-- Before the first call there are no tables, no files and no reservations. -/
structure Start (r : FdRun) : Prop where
  shares : r.shares = ⟨⟨∅, [], []⟩, [], fun _ => none⟩
  released : r.files.released = []

/-- A reserved slot belongs to exactly one outstanding reservation, and the slot of an outstanding
reservation is reserved. -/
structure Exclusive (r : FdRun) : Prop where
  owned : ∀ t ∈ r.shares.refs.tables, ∀ fd < MAX_FILES_PER_FD, slotState r.files (t, fd) = .RESERVED →
    (r.shares.reserved.map Reservation.slot).count (t, fd) = 1
  kept : ∀ q ∈ r.shares.reserved, slotState r.files q.slot = .RESERVED

/-- What the two sections of `fdtable_add` return: the first reserves a slot, or the table is full and stays
as it is; the second installs the file in the slot of the first. -/
structure Adds (r : FdRun) : Prop where
  reserve : ∀ t ∈ r.shares.refs.tables, fdtableReserve t 0 r.files = (.ok (.error .EMFILE), r.files) ∨
    ∃ fd s', fdtableReserve t 0 r.files = (.ok (.ok fd), s')
  install : ∀ i a, r.shares.adding i = some a → ∃ s', fdtableInstallAt a.table a.file a.fd r.files = (.ok .EOK, s') ∧
    slotState s' (a.table, a.fd) = .INSTALLED ∧ (s'.table a.table).files a.fd = a.file

lemma Start.inv (h : r.Start) : r.Inv := by
  have hfile : FileRun.Start ⟨r.files, r.shares.refs⟩ := ⟨by rw [h.shares], h.released⟩
  refine ⟨hfile.inv, ?_⟩
  rw [h.shares]
  constructor
  · exact List.nodup_nil
  · intro q hq
    cases hq
  · intro p hp
    cases (mem_slotsOf.mp hp).1
  · intro i a ha
    cases ha

lemma Inv.step (h : r.Inv) (hstep : FdStep FdAct.Careful r i r') : r'.Inv := by
  cases hstep with
  | mk hop hcare hcall =>
    exact ⟨(FdAct.file_yields h.file hop.named).ok hcall,
      (FdAct.reserved_yields h.file h.reserved hop hcare).ok hcall⟩

lemma Inv.run (h : r.Inv) (hrun : Relation.ReflTransGen (FdNext FdAct.Careful) r r') : r'.Inv := by
  induction hrun with
  | refl => exact h
  | tail _ hstep ih =>
    obtain ⟨i, hstep⟩ := hstep
    exact ih.step hstep

lemma Inv.exclusive (h : r.Inv) : r.Exclusive := by
  constructor
  · intro t ht fd hfd hstate
    obtain ⟨q, hq, hslot⟩ := (h.reserved.state (t, fd) (mem_slotsOf.mpr ⟨ht, hfd⟩)).mp hstate
    exact List.count_eq_one_of_mem h.reserved.nodup (List.mem_map.mpr ⟨q, hq, hslot⟩)
  · intro q hq
    exact h.reserved.reserved_state hq

lemma Inv.adds (h : r.Inv) : r.Adds := by
  constructor
  · intro t ht
    obtain ⟨res, s', hrun⟩ := reserve_returns 0 (h.file.tables_live t ht)
    rcases (reserve_yields t 0).ok hrun with ⟨err, rfl, rfl, herr⟩ | ⟨fd, rfl, -⟩
    · rw [herr (by decide)] at hrun
      exact .inl hrun
    · exact .inr ⟨fd, s', hrun⟩
  · intro i a ha
    have hmem := h.reserved.adding i a ha
    have hin := mem_slotsOf.mp (h.reserved.inside _ hmem)
    obtain ⟨err, s', hrun⟩ := installAt_returns a.file a.fd (h.file.tables_live a.table hin.1)
    rcases (installAt_yields a.table a.file a.fd).ok hrun with ⟨-, -, hnot⟩ | ⟨rfl, hstate, hfile⟩
    · exact absurd (h.reserved.reserved_state hmem) (hnot hin.2)
    · refine ⟨s', hrun, ?_, hfile⟩
      rw [hstate, Function.update_self]

end FdRun

lemma FdAct.kept (act : FdAct) (hq : q ∈ g.reserved) (hne : q.owner ≠ i) :
    Yields (act.call i) s (fun effect _ => q ∈ (effect g).reserved) := by
  have herase : ∀ p, q ∈ g.reserved.erase ⟨i, p⟩ := by
    intro p
    refine (List.mem_erase_of_ne ?_).mpr hq
    rintro rfl
    exact hne rfl
  cases act with
  | plain op => exact (Call.ends_true _ _).bind (fun _ _ _ => hq)
  | reserve table minFd =>
    apply (Call.ends_true _ _).bind
    intro res _ _
    cases res with
    | error err => exact hq
    | ok fd => exact List.mem_cons_of_mem _ hq
  | installAt table file fd =>
    apply (Call.ends_true _ _).bind
    intro err _ _
    by_cases herr : err = .EOK
    · rw [if_pos herr]
      exact herase (table, fd)
    · rw [if_neg herr]
      exact hq
  | addReserve table file =>
    apply (Call.ends_true _ _).bind
    intro res _ _
    cases res with
    | error err => exact hq
    | ok fd => exact List.mem_cons_of_mem _ hq
  | addInstall table file fd => exact (Call.ends_true _ _).bind (fun _ _ _ => herase (table, fd))
  | dupAt table srcFd dstFd closeOnExec =>
    apply (Call.ends_true _ _).bind
    rintro ⟨err, old⟩ _ _
    dsimp only
    split
    · exact herase (table, dstFd)
    · exact hq
  | closeAll table =>
    apply (Call.ends_true _ _).bind
    intro toPut _ _
    refine List.mem_filter.mpr ⟨hq, ?_⟩
    simp [hne]
  | destroy table => exact (Call.ends_true _ _).bind (fun _ _ _ => hq)

lemma FdStep.kept {cond : FdRun → Nat → FdAct → Prop} (hstep : FdStep cond r i r') (hq : q ∈ r.shares.reserved)
    (hne : q.owner ≠ i) : q ∈ r'.shares.reserved := by
  cases hstep with
  | mk hop hcond hcall => exact (FdAct.kept _ hq hne).ok hcall

/-- **Reservations.** In a run in which no thread installs over the reservation of another one, frees it
or copies it to a new table, each reserved slot belongs to exactly one outstanding reservation, no
step of another thread changes it, and `fdtable_add` installs its file in the slot that it has
reserved or finds the table full and leaves it alone. -/
theorem reservations_exclusive (hstart : r.Start) (hrun : Relation.ReflTransGen (FdNext FdAct.Careful) r r') :
    r'.Exclusive ∧ r'.Adds ∧ ∀ i r'', FdStep FdAct.Careful r' i r'' →
      ∀ q ∈ r'.shares.reserved, q.owner ≠ i → slotState r''.files q.slot = .RESERVED := by
  have hinv := hstart.inv.run hrun
  refine ⟨hinv.exclusive, hinv.adds, ?_⟩
  intro i r'' hstep q hq hne
  exact (hinv.step hstep).reserved.reserved_state (hstep.kept hq hne)

/-- The state after a step that returns. -/
def FdRun.next (r : FdRun) (i : Nat) (act : FdAct) : FdRun :=
  ⟨(act.call i r.files).2, (act.call i).valueD r.files id r.shares⟩

lemma FdRun.step_next {cond : FdRun → Nat → FdAct → Prop} (r : FdRun) (i : Nat) {act : FdAct} (hop : act.Allowed r i)
    (hcond : cond r i act) (hok : (act.call i r.files).1.isOk = true) : FdStep cond r i (r.next i act) :=
  .mk hop hcond (Call.eq_valueD id hok)

def fdBoot : FdRun where
  files := ⟨⟨[0x1000, 0x2000, 0x3000, 0x4000], []⟩, fun _ => ⟨0, 0, 0, 0, 0⟩, fun _ => FDTable.blank, []⟩
  shares := ⟨⟨∅, [], []⟩, [], fun _ => none⟩

def fdBootTable : FdRun := fdBoot.next 0 (.plain .create)

def fdBootFile : FdRun := fdBootTable.next 0 (.plain (.fileCreate 0x80 1 0))

def fdBootAdding : FdRun := fdBootFile.next 0 (.addReserve 0x1000 0x2000)

def fdBootAdded : FdRun := fdBootAdding.next 0 (.addInstall 0x1000 0x2000 0)

def fdBootSecond : FdRun := fdBootAdded.next 1 (.plain (.fileCreate 0x80 1 0))

/-- Thread 0 has added a file; thread 1 has reserved descriptor 1 for its own. -/
def fdBootPending : FdRun := fdBootSecond.next 1 (.addReserve 0x1000 0x3000)

lemma fdBootPending_run (cond : FdRun → Nat → FdAct → Prop)
    (hcond : ∀ r i act, act.Careful r i → cond r i act) : Relation.ReflTransGen (FdNext cond) fdBoot fdBootPending := by
  have hfresh : HeapFresh fdBoot.files.heap ∧ HeapFresh fdBootTable.files.heap ∧ HeapFresh fdBootAdded.files.heap := by
    unfold HeapFresh
    decide +kernel
  have h1 : FdStep cond fdBoot 0 fdBootTable :=
    fdBoot.step_next 0 ⟨⟨trivial, hfresh.1⟩, rfl⟩ (hcond _ _ _ trivial) (by decide +kernel)
  have h2 : FdStep cond fdBootTable 0 fdBootFile :=
    fdBootTable.step_next 0 ⟨⟨trivial, by decide, hfresh.2.1⟩, rfl⟩ (hcond _ _ _ trivial) (by decide +kernel)
  have h3 : FdStep cond fdBootFile 0 fdBootAdding := by
    refine fdBootFile.step_next 0 ⟨?_, rfl⟩ (hcond _ _ _ trivial) (by decide +kernel)
    show 0x1000 ∈ fdBootFile.shares.refs.tables
    decide +kernel
  have h4 : FdStep cond fdBootAdding 0 fdBootAdded :=
    fdBootAdding.step_next 0 ⟨⟨by decide +kernel, by decide +kernel⟩, by rfl⟩ (hcond _ _ _ trivial) (by decide +kernel)
  have h5 : FdStep cond fdBootAdded 1 fdBootSecond :=
    fdBootAdded.step_next 1 ⟨⟨trivial, by decide, hfresh.2.2⟩, rfl⟩ (hcond _ _ _ trivial) (by decide +kernel)
  have h6 : FdStep cond fdBootSecond 1 fdBootPending := by
    refine fdBootSecond.step_next 1 ⟨?_, rfl⟩ (hcond _ _ _ trivial) (by decide +kernel)
    show 0x1000 ∈ fdBootSecond.shares.refs.tables
    decide +kernel
  have hrun := ((((Relation.ReflTransGen.single (r := FdNext cond) ⟨0, h1⟩).tail ⟨0, h2⟩).tail ⟨0, h3⟩).tail ⟨0, h4⟩)
  exact (hrun.tail ⟨1, h5⟩).tail ⟨1, h6⟩

lemma fdBootPending_table : 0x1000 ∈ fdBootPending.shares.refs.tables := by decide +kernel

/-- Thread 0 duplicates its descriptor to 2, which nobody has reserved. -/
def fdBootCareful : FdRun := fdBootPending.next 0 (.dupAt 0x1000 0 2 false)

/-- Thread 1 is in the middle of `fdtable_add` when thread 0 calls `fdtable_dup_at`. -/
theorem reservations_exclusive_pending :
    fdBoot.Start ∧ Relation.ReflTransGen (FdNext FdAct.Careful) fdBoot fdBootCareful ∧
      fdBootCareful.Exclusive ∧ fdBootCareful.Adds ∧ fdBootCareful.shares.adding 1 = some ⟨0x1000, 0x3000, 1⟩ := by
  have hstart : fdBoot.Start := ⟨rfl, rfl⟩
  have hstep : FdStep FdAct.Careful fdBootPending 0 fdBootCareful := by
    refine fdBootPending.step_next 0 ⟨fdBootPending_table, rfl⟩ ?_ (by decide +kernel)
    intro _ hres
    revert hres
    decide +kernel
  have hrun : Relation.ReflTransGen (FdNext FdAct.Careful) fdBoot fdBootCareful :=
    (fdBootPending_run FdAct.Careful (fun _ _ _ h => h)).tail ⟨0, hstep⟩
  obtain ⟨hexclusive, hadds, -⟩ := reservations_exclusive hstart hrun
  exact ⟨hstart, hrun, hexclusive, hadds, by rfl⟩

/-- Thread 0 duplicates its descriptor to the one that thread 1 has reserved. -/
def fdBootOver : FdRun := fdBootPending.next 0 (.dupAt 0x1000 0 1 false)

def fdBootClosed : FdRun := fdBootPending.next 0 (.closeAll 0x1000)

def fdBootCopied : FdRun := fdBootPending.next 0 (.plain (.createFrom 0x1000))

/-- `fdtable_dup_at` installs over the reservation of another thread, whose `fdtable_add` then fails
with `-EBADF`; `fdtable_close_all` frees it; and `fdtable_create_from` makes a reserved slot that
belongs to nobody. -/
theorem reservation_taken_by_other_thread :
    fdBoot.Start ∧ Relation.ReflTransGen (FdNext (fun _ _ _ => True)) fdBoot fdBootPending ∧
      fdBootPending.shares.adding 1 = some ⟨0x1000, 0x3000, 1⟩ ∧
      (FdStep (fun _ _ _ => True) fdBootPending 0 fdBootOver ∧ ¬ fdBootOver.Exclusive ∧ ¬ fdBootOver.Adds ∧
        (fdtableInstallAt 0x1000 0x3000 1 fdBootOver.files).1 = .ok .EBADF) ∧
      (FdStep (fun _ _ _ => True) fdBootPending 0 fdBootClosed ∧ ¬ fdBootClosed.Exclusive) ∧
      (FdStep (fun _ _ _ => True) fdBootPending 0 fdBootCopied ∧ ¬ fdBootCopied.Exclusive) := by
  have hrun := fdBootPending_run (fun _ _ _ => True) (fun _ _ _ _ => trivial)
  have hfresh : HeapFresh fdBootPending.files.heap := by
    unfold HeapFresh
    decide +kernel
  have hover : FdStep (fun _ _ _ => True) fdBootPending 0 fdBootOver :=
    fdBootPending.step_next 0 ⟨fdBootPending_table, rfl⟩ trivial (by decide +kernel)
  have hclosed : FdStep (fun _ _ _ => True) fdBootPending 0 fdBootClosed :=
    fdBootPending.step_next 0 ⟨fdBootPending_table, rfl⟩ trivial (by decide +kernel)
  have hcopied : FdStep (fun _ _ _ => True) fdBootPending 0 fdBootCopied :=
    fdBootPending.step_next 0 ⟨⟨trivial, fdBootPending_table, hfresh⟩, rfl⟩ trivial (by decide +kernel)
  refine ⟨⟨rfl, rfl⟩, hrun, by rfl, ⟨hover, ?_, ?_, by decide +kernel⟩, ⟨hclosed, ?_⟩, ⟨hcopied, ?_⟩⟩
  · intro h
    exact absurd (h.kept ⟨1, (0x1000, 1)⟩ (by decide +kernel)) (by decide +kernel)
  · intro h
    obtain ⟨s', hinstall, -⟩ := h.install 1 ⟨0x1000, 0x3000, 1⟩ (by rfl)
    have hres : (fdtableInstallAt 0x1000 0x3000 1 fdBootOver.files).1 = .ok .EBADF := by decide +kernel
    rw [hinstall] at hres
    cases hres
  · intro h
    exact absurd (h.kept ⟨1, (0x1000, 1)⟩ (by decide +kernel)) (by decide +kernel)
  · intro h
    have hcount := h.owned 0x4000 (by decide +kernel) 1 (by decide) (by decide +kernel)
    exact absurd hcount (by decide +kernel)

end KaworuOS.Proofs
