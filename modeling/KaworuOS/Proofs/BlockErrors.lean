import KaworuOS.Proofs.BlockRange
import Mathlib.Data.List.Nodup

/-!
# Errors of a block device

The loops of `internal_block_read` and `internal_block_write` drop what the operation of the driver returns.
`perform` keeps it, for the same calls in the same states.
-/

namespace KaworuOS.Proofs
open Lib

variable {δ : Type} {device : Device δ} {s : BlockState δ} {sector count buf : Nat} {block : Bool}
  {r : Except Halt Errno}

/-- The operation on one sector after the other: what it returns for each, with memory and the data of the
device afterwards. -/
def perform (op : SectorOp δ) (addr : Nat → Nat) : List Nat → Mem × δ → List (Nat × Errno) × Mem × δ
  | [], p => ([], p)
  | sect :: l, p =>
    let (errno, p) := op sect (addr sect) p
    let (rest, p) := perform op addr l p
    ((sect, errno) :: rest, p)

/-- What the device returns for the sectors of a read. -/
def readOutcomes (device : Device δ) (sector count buf : Nat) (block : Bool) (s : BlockState δ) : List (Nat × Errno) :=
  (perform (readOp device block) (fun sect => wadd buf (wmul (wsub sect sector) device.blockOps.sectorSize))
    (sectors sector count) (s.mem, s.data)).1

/-- What the device returns for the sectors of a write. -/
def writeOutcomes (device : Device δ) (sector count buf : Nat) (block : Bool) (s : BlockState δ) : List (Nat × Errno) :=
  (perform (writeOp device block) (fun sect => wadd buf (wmul sect device.blockOps.sectorSize)) (sectors sector count)
    (s.mem, s.data)).1

/-- A transfer that returned `r` is right about errors: with `EOK`, the operation has been called for every sector
of the range and has succeeded. -/
def ReportsErrors (sector count : Nat) (outcomes : List (Nat × Errno)) (r : Except Halt Errno) : Prop :=
  r = .ok .EOK → ∀ i < count, (sector + i, Errno.EOK) ∈ outcomes

/-- Nothing is transferred, or the range does not wrap around and the device does not fail on any sector of it. -/
def NoFailure (device : Device δ) (sector count : Nat) (outcomes : List (Nat × Errno)) : Prop :=
  count = 0 ∨ verifySectorRange sector count device.blockOps.capacity device.blockOps.sectorSize ≠ .EOK ∨
    (sector + count < wordSize ∧ ∀ e ∈ outcomes, e.2 = .EOK)

lemma perform_sectors (op : SectorOp δ) (addr : Nat → Nat) (l : List Nat) (p : Mem × δ) :
    (perform op addr l p).1.map Prod.fst = l := by
  induction l generalizing p with
  | nil => rfl
  | cons sect l ih =>
    rw [perform, List.map_cons]
    exact congrArg _ (ih _)

/-- The loops make the calls of `perform`. -/
lemma each_perform (op : SectorOp δ) (addr : Nat → Nat) (l : List Nat) (s : BlockState δ) :
    ∃ s', Call.each (fun sect => issue op sect (addr sect)) l s = (.ok (), s') ∧
      (s'.mem, s'.data) = (perform op addr l (s.mem, s.data)).2 := by
  induction l generalizing s with
  | nil => exact ⟨s, rfl, rfl⟩
  | cons sect l ih =>
    obtain ⟨s', hrun, hstate⟩ := ih (issue op sect (addr sect) s).2
    refine ⟨s', ?_, hstate⟩
    rw [Call.each, Call.bind_ok (Call.eq_of_fst rfl)]
    exact hrun

/-- What both transfers do with a range that is accepted. -/
lemma loop_performs (op : SectorOp δ) (addr : Nat → Nat) (s : BlockState δ)
    (hverdict : verifySectorRange sector count device.blockOps.capacity device.blockOps.sectorSize = .EOK) :
    ∃ s', ((do
        let ret := verifySectorRange sector count device.blockOps.capacity device.blockOps.sectorSize
        if ret ≠ .EOK then return ret
        Call.each (fun sect => issue op sect (addr sect)) (sectors sector count)
        return .EOK : BlockCall δ Errno) s) = (.ok .EOK, s') ∧
      (s'.mem, s'.data) = (perform op addr (sectors sector count) (s.mem, s.data)).2 := by
  obtain ⟨s', hrun, hstate⟩ := each_perform op addr (sectors sector count) s
  refine ⟨s', ?_, hstate⟩
  dsimp only
  rw [if_neg (by simp [hverdict]), Call.bind_ok hrun]
  rfl

/-- An accepted transfer leaves memory and the data of the device as the operations do whose results it drops. -/
theorem transfers_perform (hcls : device.cls = .block) (hcount : count ≠ 0)
    (hverdict : verifySectorRange sector count device.blockOps.capacity device.blockOps.sectorSize = .EOK)
    (buf : Nat) (block : Bool) (s : BlockState δ) :
    (∃ s', internalBlockRead device sector count buf block s = (.ok .EOK, s') ∧
      (s'.mem, s'.data) = (perform (readOp device block)
        (fun sect => wadd buf (wmul (wsub sect sector) device.blockOps.sectorSize)) (sectors sector count)
        (s.mem, s.data)).2) ∧
    ∃ s', internalBlockWrite device sector count buf block s = (.ok .EOK, s') ∧
      (s'.mem, s'.data) = (perform (writeOp device block)
        (fun sect => wadd buf (wmul sect device.blockOps.sectorSize)) (sectors sector count) (s.mem, s.data)).2 := by
  unfold internalBlockRead internalBlockWrite
  rw [assertThat_true hcls, Call.lift_ok_bind, Call.lift_ok_bind, if_neg hcount, if_neg hcount]
  cases block with
  | true =>
    exact ⟨loop_performs device.blockOps.readSync _ s hverdict, loop_performs device.blockOps.writeSync _ s hverdict⟩
  | false =>
    exact ⟨loop_performs device.blockOps.read _ s hverdict, loop_performs device.blockOps.write _ s hverdict⟩

lemma reportsErrors_iff {op : SectorOp δ} {addr : Nat → Nat} {p : Mem × δ} (hcount : count ≠ 0) (hlt : count < wordSize)
    (hsector : sector < wordSize)
    (hret : r = .ok (verifySectorRange sector count device.blockOps.capacity device.blockOps.sectorSize)) :
    ReportsErrors sector count (perform op addr (sectors sector count) p).1 r ↔
      NoFailure device sector count (perform op addr (sectors sector count) p).1 := by
  have hkeys := perform_sectors op addr (sectors sector count) p
  generalize (perform op addr (sectors sector count) p).1 = outcomes at hkeys ⊢
  unfold ReportsErrors NoFailure
  rw [hret, Except.ok.injEq]
  by_cases hverdict : verifySectorRange sector count device.blockOps.capacity device.blockOps.sectorSize = .EOK
  case neg => exact ⟨fun _ => .inr (.inl hverdict), fun _ heq => absurd heq hverdict⟩
  by_cases hwrap : sector + count < wordSize
  · rw [sectors_of_lt hwrap] at hkeys
    constructor
    · intro h
      refine .inr (.inr ⟨hwrap, ?_⟩)
      rintro ⟨sect, errno⟩ he
      have hsect : sect ∈ List.range' sector count := hkeys ▸ List.mem_map_of_mem he
      rw [List.mem_range'_1] at hsect
      -- each sector has one entry
      have hnodup : (outcomes.map Prod.fst).Nodup := hkeys ▸ List.nodup_range'
      have hok := h hverdict (sect - sector) (by omega)
      rw [Nat.add_sub_cancel' hsect.1] at hok
      have heq := List.inj_on_of_nodup_map hnodup he hok rfl
      exact congrArg Prod.snd heq
    · rintro (h | h | ⟨-, h⟩) - i hi
      · exact absurd h hcount
      · exact absurd hverdict h
      · have hmem : sector + i ∈ outcomes.map Prod.fst := by
          rw [hkeys, List.mem_range'_1]
          omega
        obtain ⟨⟨sect, errno⟩, he, rfl⟩ := List.mem_map.mp hmem
        obtain rfl : errno = .EOK := h _ he
        exact he
  · -- the loop of a range that wraps around is empty
    rw [sectors_of_wrap hlt hsector (by omega), List.map_eq_nil_iff] at hkeys
    subst hkeys
    constructor
    · intro h
      have hnone := h hverdict 0 (Nat.pos_of_ne_zero hcount)
      cases hnone
    · rintro (h | h | ⟨h, -⟩)
      · exact absurd h hcount
      · exact absurd hverdict h
      · exact absurd h hwrap

/-- Block transfers report errors exactly when there are none: on any device, a read or a write, blocking or not,
returns `EOK` only for a range on whose sectors the operation succeeded if and only if nothing is transferred, or
the range does not wrap around and the device does not fail on it. -/
theorem block_errors_reported_iff (hcls : device.cls = .block) (hsector : sector < wordSize) (hcount : count < wordSize)
    (buf : Nat) (block : Bool) (s : BlockState δ) :
    (ReportsErrors sector count (readOutcomes device sector count buf block s)
        (internalBlockRead device sector count buf block s).1 ↔
      NoFailure device sector count (readOutcomes device sector count buf block s)) ∧
    (ReportsErrors sector count (writeOutcomes device sector count buf block s)
        (internalBlockWrite device sector count buf block s).1 ↔
      NoFailure device sector count (writeOutcomes device sector count buf block s)) := by
  by_cases hzero : count = 0
  · subst hzero
    exact ⟨⟨fun _ => .inl rfl, fun _ _ i hi => absurd hi (Nat.not_lt_zero i)⟩,
      ⟨fun _ => .inl rfl, fun _ _ i hi => absurd hi (Nat.not_lt_zero i)⟩⟩
  constructor
  · apply reportsErrors_iff hzero hcount hsector
    exact (internalBlockRead_transferred hcls hzero buf block s).1
  · apply reportsErrors_iff hzero hcount hsector
    exact (internalBlockWrite_transferred hcls hzero buf block s).1

/-- The first two of four sectors of a device that works. -/
theorem block_errors_reported_iff_first :
    NoFailure ramDisk 0 2 (writeOutcomes ramDisk 0 2 0x100 true ⟨fun _ => 0, fun _ => 0, []⟩) ∧
      ReportsErrors 0 2 (writeOutcomes ramDisk 0 2 0x100 true ⟨fun _ => 0, fun _ => 0, []⟩)
        (blockWriteSync ramDisk 0 2 0x100 ⟨fun _ => 0, fun _ => 0, []⟩).1 := by
  have hgood : NoFailure ramDisk 0 2 (writeOutcomes ramDisk 0 2 0x100 true ⟨fun _ => 0, fun _ => 0, []⟩) :=
    .inr (.inr ⟨by decide, by decide⟩)
  exact ⟨hgood, (block_errors_reported_iff rfl (by decide) (by decide) 0x100 true _).2.mpr hgood⟩

/-- A device of four sectors of one byte that fails on the second of them. -/
def badDisk : Device Unit where
  cls := .block
  blockOps :=
    { readSync := fun sector _ p => (if sector = 1 then .ENODEV else .EOK, p)
      read := fun sector _ p => (if sector = 1 then .ENODEV else .EOK, p)
      writeSync := fun sector _ p => (if sector = 1 then .ENODEV else .EOK, p)
      write := fun sector _ p => (if sector = 1 then .ENODEV else .EOK, p)
      sectorSize := 1
      capacity := 4 }

/-- All four calls return `EOK` for the first two sectors, of which the second one has failed. -/
theorem block_errors_dropped :
    (blockRead badDisk 0 2 0x100 ⟨fun _ => 0, (), []⟩).1 = .ok .EOK ∧
      (blockReadSync badDisk 0 2 0x100 ⟨fun _ => 0, (), []⟩).1 = .ok .EOK ∧
      (blockWrite badDisk 0 2 0x100 ⟨fun _ => 0, (), []⟩).1 = .ok .EOK ∧
      (blockWriteSync badDisk 0 2 0x100 ⟨fun _ => 0, (), []⟩).1 = .ok .EOK ∧
      readOutcomes badDisk 0 2 0x100 true ⟨fun _ => 0, (), []⟩ = [(0, .EOK), (1, .ENODEV)] ∧
      ∀ block, ¬ReportsErrors 0 2 (readOutcomes badDisk 0 2 0x100 block ⟨fun _ => 0, (), []⟩)
          (internalBlockRead badDisk 0 2 0x100 block ⟨fun _ => 0, (), []⟩).1 ∧
        ¬ReportsErrors 0 2 (writeOutcomes badDisk 0 2 0x100 block ⟨fun _ => 0, (), []⟩)
          (internalBlockWrite badDisk 0 2 0x100 block ⟨fun _ => 0, (), []⟩).1 := by
  refine ⟨by decide, by decide, by decide, by decide, by decide, ?_⟩
  intro block
  constructor
  · intro h
    have hsecond := h (by cases block <;> decide) 1 (by decide)
    cases block <;> exact absurd hsecond (by decide)
  · intro h
    have hsecond := h (by cases block <;> decide) 1 (by decide)
    cases block <;> exact absurd hsecond (by decide)

end KaworuOS.Proofs
