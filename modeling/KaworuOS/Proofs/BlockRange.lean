import KaworuOS.Proofs.Block

/-!
# Which sector ranges a block device accepts

`verify_sector_range` refuses a range that ends with the last sector, and its sum of sector and count
wraps around. Both are seen by comparing it with one inequality over the integers.
-/

namespace KaworuOS.Proofs
open Lib

variable {δ : Type} {device : Device δ} {s : BlockState δ} {sector count buf : Nat} {block : Bool}

/-- The number of sectors of a device. -/
def sectorCount (device : Device δ) : Nat := device.blockOps.capacity / device.blockOps.sectorSize

/-- The device has a geometry and the range ends on it, over the integers. -/
def InDevice (device : Device δ) (sector count : Nat) : Prop :=
  device.blockOps.capacity ≠ 0 ∧ device.blockOps.sectorSize ≠ 0 ∧ sector + count ≤ sectorCount device

/-- The result `r` of a call in the state `s` is `EOK` exactly for a range on the device, and then the driver
has been given each sector of the range once, in order. -/
structure RangeExact (device : Device δ) (sector count : Nat) (s : BlockState δ)
    (r : Except Halt Errno × BlockState δ) :
    Prop where
  accepts : r.1 = .ok .EOK ↔ InDevice device sector count
  issues : r.1 = .ok .EOK → ∃ l : List SectorRequest, r.2.issued = s.issued ++ l ∧
    l.map SectorRequest.sector = List.range' sector count

/-- The range does not end with the last sector of the device, and no range from a sector of the device on
reaches the end of the integers. -/
def RangeFits (device : Device δ) (sector count : Nat) : Prop :=
  device.blockOps.capacity = 0 ∨ device.blockOps.sectorSize = 0 ∨
    (sector + count ≠ sectorCount device ∧ (sector < sectorCount device → sector + count < wordSize))

/-- A transfer returns what `verify_sector_range` says, and has issued the sectors of its loop if that is
`EOK`. -/
def Transferred (device : Device δ) (sector count : Nat) (s : BlockState δ) (r : Except Halt Errno × BlockState δ) :
    Prop :=
  let verdict := verifySectorRange sector count device.blockOps.capacity device.blockOps.sectorSize
  r.1 = .ok verdict ∧ (verdict = .EOK → ∃ addr : Nat → Nat,
    r.2.issued = s.issued ++ (sectors sector count).map (fun sect => ⟨sect, addr sect⟩))

/-- What both transfers do once the device and the count have been looked at. -/
lemma transferred_of_loop (op : SectorOp δ) (addr : Nat → Nat) (s : BlockState δ) :
    Transferred device sector count s
      ((do
        let ret := verifySectorRange sector count device.blockOps.capacity device.blockOps.sectorSize
        if ret ≠ .EOK then return ret
        Call.each (fun sect => issue op sect (addr sect)) (sectors sector count)
        return .EOK : BlockCall δ Errno) s) := by
  unfold Transferred
  dsimp only
  by_cases hverdict : verifySectorRange sector count device.blockOps.capacity device.blockOps.sectorSize = .EOK
  · obtain ⟨s', hrun, hissued⟩ := each_issue op addr (sectors sector count) s
    rw [if_neg (by simp [hverdict]), Call.bind_ok hrun, hverdict]
    exact ⟨rfl, fun _ => ⟨addr, hissued⟩⟩
  · rw [if_pos hverdict]
    exact ⟨rfl, fun h => absurd h hverdict⟩

lemma internalBlockRead_transferred (hcls : device.cls = .block) (hcount : count ≠ 0) (buf : Nat) (block : Bool)
    (s : BlockState δ) : Transferred device sector count s (internalBlockRead device sector count buf block s) := by
  unfold internalBlockRead
  rw [assertThat_true hcls, Call.lift_ok_bind, if_neg hcount]
  cases block with
  | true => exact transferred_of_loop device.blockOps.readSync _ s
  | false => exact transferred_of_loop device.blockOps.read _ s

lemma internalBlockWrite_transferred (hcls : device.cls = .block) (hcount : count ≠ 0) (buf : Nat) (block : Bool)
    (s : BlockState δ) : Transferred device sector count s (internalBlockWrite device sector count buf block s) := by
  unfold internalBlockWrite
  rw [assertThat_true hcls, Call.lift_ok_bind, if_neg hcount]
  cases block with
  | true => exact transferred_of_loop device.blockOps.writeSync _ s
  | false => exact transferred_of_loop device.blockOps.write _ s

/-- `verify_sector_range` as a condition on the integers, with the sum as it wraps. -/
lemma verifySectorRange_eq_EOK {capacity sectorSize : Nat} :
    verifySectorRange sector count capacity sectorSize = .EOK ↔
      capacity ≠ 0 ∧ sectorSize ≠ 0 ∧ sector < capacity / sectorSize ∧ wadd sector count < capacity / sectorSize := by
  unfold verifySectorRange
  split
  · simp
    omega
  · split
    · simp
      omega
    · split
      · simp
        omega
      · simp
        omega

section Range

variable (hcount : 1 ≤ count) (hcount' : count < wordSize) (hsector : sector < wordSize)
  (hcapacity : device.blockOps.capacity < wordSize)
include hcount hcount' hsector hcapacity

/-- The verdict is right exactly for the ranges of `RangeFits`. -/
lemma verdict_iff :
    (verifySectorRange sector count device.blockOps.capacity device.blockOps.sectorSize = .EOK ↔
      InDevice device sector count) ↔ RangeFits device sector count := by
  have hsize : device.blockOps.capacity / device.blockOps.sectorSize ≤ device.blockOps.capacity := Nat.div_le_self _ _
  have hsum : wadd sector count = if sector + count < wordSize then sector + count else sector + count - wordSize := by
    unfold wadd wordSize at *
    split <;> omega
  rw [verifySectorRange_eq_EOK, hsum]
  unfold InDevice RangeFits sectorCount
  generalize device.blockOps.capacity / device.blockOps.sectorSize = n at hsize ⊢
  split <;> omega

lemma Transferred.exact_iff {r : Except Halt Errno × BlockState δ} (h : Transferred device sector count s r) :
    RangeExact device sector count s r ↔ RangeFits device sector count := by
  obtain ⟨hret, hissued⟩ := h
  have hok : r.1 = .ok .EOK ↔
      verifySectorRange sector count device.blockOps.capacity device.blockOps.sectorSize = .EOK := by
    rw [hret, Except.ok.injEq]
  have hverdict := verdict_iff hcount hcount' hsector hcapacity
  constructor
  · intro hexact
    exact hverdict.mp (hok.symm.trans hexact.accepts)
  · intro hfits
    have haccepts := hok.trans (hverdict.mpr hfits)
    refine ⟨haccepts, ?_⟩
    intro hret
    obtain ⟨addr, hissued⟩ := hissued (hok.mp hret)
    refine ⟨_, hissued, ?_⟩
    -- a range on the device does not wrap, so that the loop runs over all of it
    have hend : sector + count < wordSize := by
      obtain ⟨-, -, hend⟩ := haccepts.mp hret
      have hsize : sectorCount device ≤ device.blockOps.capacity := Nat.div_le_self _ _
      omega
    rw [sectors_of_lt hend, List.map_map]
    exact List.map_id _

/-- A read and a write are right about a range, and transfer each of its sectors once, exactly when the range
does not end with the last sector and does not wrap around. -/
theorem sector_range_exact_iff (hcls : device.cls = .block) (buf : Nat) (block : Bool) (s : BlockState δ) :
    (RangeExact device sector count s (internalBlockRead device sector count buf block s) ∧
      RangeExact device sector count s (internalBlockWrite device sector count buf block s)) ↔
      RangeFits device sector count := by
  have hne : count ≠ 0 := by omega
  have hread := (internalBlockRead_transferred hcls hne buf block s).exact_iff hcount hcount' hsector hcapacity
  have hwrite := (internalBlockWrite_transferred hcls hne buf block s).exact_iff hcount hcount' hsector hcapacity
  rw [hread, hwrite, and_self]

end Range

/-- The first two of four sectors. -/
theorem sector_range_exact_iff_first : RangeFits ramDisk 0 2 ∧
    RangeExact ramDisk 0 2 ⟨fun _ => 0, fun _ => 0, []⟩ (blockRead ramDisk 0 2 0x100 ⟨fun _ => 0, fun _ => 0, []⟩) ∧
    RangeExact ramDisk 0 2 ⟨fun _ => 0, fun _ => 0, []⟩
      (blockWrite ramDisk 0 2 0x100 ⟨fun _ => 0, fun _ => 0, []⟩) := by
  have hfits : RangeFits ramDisk 0 2 := .inr (.inr ⟨by decide, by decide⟩)
  exact ⟨hfits, (sector_range_exact_iff (by decide) (by decide) (by decide) (by decide) rfl 0x100 false
    ⟨fun _ => 0, fun _ => 0, []⟩).mpr hfits⟩

/-- The last of four sectors is refused, and a range whose end wraps around to the first sector is accepted
and not transferred. -/
theorem sector_range_refuses_last :
    ((blockRead ramDisk 3 1 0x100 ⟨fun _ => 0, fun _ => 0, []⟩).1 = .ok .EINVAL ∧ InDevice ramDisk 3 1 ∧
      ¬RangeExact ramDisk 3 1 ⟨fun _ => 0, fun _ => 0, []⟩
        (blockRead ramDisk 3 1 0x100 ⟨fun _ => 0, fun _ => 0, []⟩)) ∧
    ((blockWrite ramDisk 1 (2 ^ 64 - 1) 0x100 ⟨fun _ => 0, fun _ => 0, []⟩).1 = .ok .EOK ∧
      (blockWrite ramDisk 1 (2 ^ 64 - 1) 0x100 ⟨fun _ => 0, fun _ => 0, []⟩).2.issued = [] ∧
      ¬RangeExact ramDisk 1 (2 ^ 64 - 1) ⟨fun _ => 0, fun _ => 0, []⟩
        (blockWrite ramDisk 1 (2 ^ 64 - 1) 0x100 ⟨fun _ => 0, fun _ => 0, []⟩)) := by
  have hin : InDevice ramDisk 3 1 := ⟨by decide, by decide, by decide⟩
  refine ⟨⟨by decide, hin, ?_⟩, by decide, by decide, ?_⟩
  · intro h
    exact absurd (h.accepts.mpr hin) (by decide)
  · intro h
    exact absurd (h.accepts.mp (by decide)).2.2 (by decide)

end KaworuOS.Proofs
