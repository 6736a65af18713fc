import KaworuOS.Fdt
import KaworuOS.Lib.BigEndian
import KaworuOS.Lib.Guarded
import KaworuOS.Lib.Outcome
import Mathlib.Algebra.Order.Ring.Int

/-!
# What the readers of the device tree access

The calls below stop with a `fault` in one way only, when an access is out of bounds. So each of them is `Guarded` by
a condition on indices, and the condition for a whole call is arithmetic on the cell counts and the length.
-/

namespace KaworuOS.Proofs
open Lib

/-- The call returns, or stops at a failed `ASSERT`. -/
def InBounds {α : Type} (x : Except Halt α) : Prop := ∀ e, x = .error e → e = .panic

lemma inBounds_iff_of_guarded {α : Type} {P : Prop} {x : Except Halt α} (h : Guarded .fault P x) :
    InBounds x ↔ P := by
  rcases h with ⟨hP, a, rfl⟩ | ⟨hP, rfl⟩
  · exact ⟨fun _ => hP, fun _ e he => (by cases he)⟩
  · exact ⟨fun h => absurd (h _ rfl) (by decide), fun h => absurd h hP⟩

/-- The cell with index `i` of a property. -/
def cellAt (prop : List UInt8) (i : Nat) : Nat := bigEndian ((prop.drop (4 * i)).take 4)

lemma cellAt_lt (prop : List UInt8) (i : Nat) : cellAt prop i < 2 ^ 32 := by
  have hlen : ((prop.drop (4 * i)).take 4).length ≤ 4 := List.length_take_le _ _
  calc cellAt prop i < 256 ^ ((prop.drop (4 * i)).take 4).length := bigEndian_lt _
    _ ≤ 256 ^ 4 := Nat.pow_le_pow_right (by decide) hlen
    _ = 2 ^ 32 := by norm_num

lemma readCell_of_le {prop : List UInt8} {i : Nat} (h : 4 * i + 4 ≤ prop.length) :
    readCell prop i = .ok (cellAt prop i) := by
  have hlen : 4 ≤ (prop.drop (4 * i)).length := by
    rw [List.length_drop]
    omega
  unfold readCell cellAt
  match hdrop : prop.drop (4 * i), hlen with
  | b₀ :: b₁ :: b₂ :: b₃ :: rest, _ => exact congrArg Except.ok (bigEndian_four b₀ b₁ b₂ b₃)

lemma readCell_of_lt {prop : List UInt8} {i : Nat} (h : prop.length < 4 * i + 4) :
    readCell prop i = .error .fault := by
  have hlen : (prop.drop (4 * i)).length < 4 := by
    rw [List.length_drop]
    omega
  unfold readCell
  match hdrop : prop.drop (4 * i), hlen with
  | [], _ | [_], _ | [_, _], _ | [_, _, _], _ => rfl

lemma readCell_guarded (prop : List UInt8) (i : Nat) :
    Guarded .fault (4 * i + 4 ≤ prop.length) (readCell prop i) := by
  rcases Nat.lt_or_ge prop.length (4 * i + 4) with h | h
  · exact .inr ⟨Nat.not_le.mpr h, readCell_of_lt h⟩
  · exact .inl ⟨h, _, readCell_of_le h⟩

lemma writeElem_guarded {α : Type} (l : List α) (i : Nat) (a : α) :
    Guarded .fault (i < l.length) (writeElem l i a) := by
  unfold writeElem
  split
  next h => exact .inl ⟨h, _, rfl⟩
  next h => exact .inr ⟨h, rfl⟩

/-- The cells of one number are read up to the last one, or not at all. -/
lemma readCells_guarded (prop : List UInt8) (start n value : Nat) :
    Guarded .fault (n = 0 ∨ 4 * (start + n) ≤ prop.length) (readCells prop start n value) := by
  induction n generalizing start value with
  | zero => exact (Guarded.ok value).congr (by simp)
  | succ n ih =>
    refine ((readCell_guarded prop start).bind fun cell _ => ih (start + 1) _).congr ?_
    omega

lemma shiftLeft_or_eq {value cell : Nat} (hcell : cell < 2 ^ 32) :
    (value <<< 32) % wordSize ||| cell = (value * 2 ^ 32 + cell) % 2 ^ 64 := by
  have hmod : (value <<< 32) % wordSize = (value % 2 ^ 32) <<< 32 := by
    rw [Nat.shiftLeft_eq, Nat.shiftLeft_eq, show wordSize = 2 ^ 32 * 2 ^ 32 by norm_num, Nat.mul_mod_mul_right]
  rw [hmod, ← Nat.shiftLeft_add_eq_or_of_lt hcell, Nat.shiftLeft_eq]
  omega

lemma mod_mul_add_mod (a b c m : Nat) : (a % m * b + c) % m = (a * b + c) % m := by
  rw [Nat.add_mod, Nat.mod_mul_mod, ← Nat.add_mod]

/-- The value of a number is that of its cells, as far as it fits into 64 bits. -/
lemma readCells_value {prop : List UInt8} {start n value r : Nat} (hvalue : value < 2 ^ 64)
    (h : readCells prop start n value = .ok r) :
    r = (value * 256 ^ (4 * n) + bigEndian ((prop.drop (4 * start)).take (4 * n))) % 2 ^ 64 := by
  induction n generalizing start value with
  | zero =>
    obtain rfl : value = r := Except.ok.inj h
    have hnil : bigEndian [] = 0 := rfl
    simp only [Nat.mul_zero, Nat.pow_zero, Nat.mul_one, List.take_zero, hnil, Nat.add_zero]
    exact (Nat.mod_eq_of_lt hvalue).symm
  | succ n ih =>
    have hlen : 4 * (start + (n + 1)) ≤ prop.length := by
      rcases (readCells_guarded prop start (n + 1) value).holds h with h0 | hlen
      · cases h0
      · exact hlen
    obtain ⟨cell, hcell, h⟩ := bind_eq_ok.mp h
    rw [readCell_of_le (by omega)] at hcell
    obtain rfl := Except.ok.inj hcell
    rw [shiftLeft_or_eq (cellAt_lt prop start)] at h
    have hsplit : bigEndian ((prop.drop (4 * start)).take (4 * (n + 1))) =
        cellAt prop start * 256 ^ (4 * n) + bigEndian ((prop.drop (4 * (start + 1))).take (4 * n)) := by
      rw [show 4 * (n + 1) = 4 + 4 * n by ring, bigEndian_take_add (by rw [List.length_drop]; omega),
        List.drop_drop, show 4 * start + 4 = 4 * (start + 1) by ring]
      rfl
    have hpow : 256 ^ (4 * (n + 1)) = 2 ^ 32 * 256 ^ (4 * n) := by
      rw [show 4 * (n + 1) = 4 + 4 * n by ring, Nat.pow_add]
      norm_num
    rw [ih (Nat.mod_lt _ (by norm_num)) h, hsplit, hpow, mod_mul_add_mod, Nat.add_mul, Nat.mul_assoc, Nat.add_assoc]

/-- What holds for the indices of a loop holds for the first one and for the others. -/
lemma forall_from_succ {P : Nat → Prop} {k n : Nat} :
    (∀ i, k ≤ i → i < k + (n + 1) → P i) ↔ P k ∧ ∀ i, k + 1 ≤ i → i < k + 1 + n → P i := by
  constructor
  · exact fun h => ⟨h k le_rfl (by omega), fun i h₁ h₂ => h i (by omega) (by omega)⟩
  · rintro ⟨hfirst, hrest⟩ i h₁ h₂
    rcases Nat.eq_or_lt_of_le h₁ with rfl | h₁
    · exact hfirst
    · exact hrest i h₁ (by omega)

section Reg

variable {prop : List UInt8} {ac sc regCellsCount : Nat}

/-- The accesses for register `i` are inside of the property. -/
def TupleFits (prop : List UInt8) (ac sc regCellsCount i : Nat) : Prop :=
  (ac = 0 ∨ 4 * (i * regCellsCount + ac) ≤ prop.length) ∧ (sc = 0 ∨ 4 * (i * regCellsCount + ac + sc) ≤ prop.length)

lemma writeElem_eq_ok {α : Type} {l l' : List α} {i : Nat} {a : α} (h : writeElem l i a = .ok l') :
    i < l.length ∧ l' = l.set i a := by
  unfold writeElem at h
  split at h
  next hi => exact ⟨hi, (Except.ok.inj h).symm⟩
  · cases h

lemma fdtGetRegLoop_guarded {n iReg : Nat} {reg : List Register} (hlen : reg.length = iReg + n) :
    Guarded .fault (∀ i, iReg ≤ i → i < iReg + n → TupleFits prop ac sc regCellsCount i)
      (fdtGetRegLoop prop ac sc regCellsCount n iReg reg) := by
  induction n generalizing iReg reg with
  | zero => exact (Guarded.ok reg).congr ⟨fun _ i h₁ h₂ => by omega, fun _ => trivial⟩
  | succ n ih =>
    have hseq : Guarded .fault ((ac = 0 ∨ 4 * (iReg * regCellsCount + ac) ≤ prop.length) ∧
        (sc = 0 ∨ 4 * (iReg * regCellsCount + ac + sc) ≤ prop.length) ∧ iReg < reg.length ∧
          ∀ i, iReg + 1 ≤ i → i < iReg + 1 + n → TupleFits prop ac sc regCellsCount i)
        (fdtGetRegLoop prop ac sc regCellsCount (n + 1) iReg reg) := by
      refine (readCells_guarded _ _ _ _).bind fun address _ => ?_
      refine (readCells_guarded _ _ _ _).bind fun size _ => ?_
      refine (writeElem_guarded _ _ _).bind fun reg' hreg' => ih ?_
      obtain ⟨-, rfl⟩ := writeElem_eq_ok hreg'
      rw [List.length_set, hlen]
      ring
    refine hseq.congr ?_
    rw [forall_from_succ, TupleFits, and_assoc]
    have hlt : iReg < reg.length := by omega
    simp only [hlt, true_and]

/-- The tuple with index `i` of a `reg` property, as the two numbers that its bytes stand for. -/
def regTuple (prop : List UInt8) (ac sc i : Nat) : Register where
  size := bigEndian ((prop.drop (4 * (i * (ac + sc) + ac))).take (4 * sc))
  address := bigEndian ((prop.drop (4 * (i * (ac + sc)))).take (4 * ac))

/-- A number of at most two cells is read as it is. -/
lemma readCells_two {start n r : Nat} (hn : n ≤ 2) (h : readCells prop start n 0 = .ok r) :
    r = bigEndian ((prop.drop (4 * start)).take (4 * n)) := by
  have hlt : bigEndian ((prop.drop (4 * start)).take (4 * n)) < 2 ^ 64 := by
    calc _ < 256 ^ ((prop.drop (4 * start)).take (4 * n)).length := bigEndian_lt _
      _ ≤ 256 ^ 8 := Nat.pow_le_pow_right (by decide) ((List.length_take_le _ _).trans (by omega))
      _ = 2 ^ 64 := by norm_num
  have hvalue := readCells_value (by norm_num) h
  rwa [Nat.zero_mul, Nat.zero_add, Nat.mod_eq_of_lt hlt] at hvalue

lemma fdtGetRegLoop_value {n iReg : Nat} {reg reg' : List Register} (hac : ac ≤ 2) (hsc : sc ≤ 2)
    (h : fdtGetRegLoop prop ac sc (ac + sc) n iReg reg = .ok reg') :
    (∀ i < iReg, reg'[i]? = reg[i]?) ∧
      ∀ i, iReg ≤ i → i < iReg + n → reg'[i]? = some (regTuple prop ac sc i) := by
  induction n generalizing iReg reg with
  | zero =>
    obtain rfl : reg = reg' := Except.ok.inj h
    exact ⟨fun _ _ => rfl, fun i h₁ h₂ => by omega⟩
  | succ n ih =>
    obtain ⟨address, haddress, h⟩ := bind_eq_ok.mp h
    obtain ⟨size, hsize, h⟩ := bind_eq_ok.mp h
    obtain ⟨written, hwritten, h⟩ := bind_eq_ok.mp h
    obtain ⟨hlt, rfl⟩ := writeElem_eq_ok hwritten
    obtain ⟨hbelow, hfrom⟩ := ih h
    refine ⟨fun i hi => ?_, fun i h₁ h₂ => ?_⟩
    · rw [hbelow i (by omega), List.getElem?_set_ne (by omega)]
    · rcases Nat.eq_or_lt_of_le h₁ with rfl | h₁
      · rw [hbelow iReg (by omega), List.getElem?_set_self hlt, readCells_two hac haddress, readCells_two hsc hsize]
        rfl
      · exact hfrom i h₁ (by omega)

/-- All tuples are inside when their cell count does not wrap around, or when there are none. -/
lemma tupleFits_all_iff {regCount : Nat} (hac : ac < 2 ^ 32) (hsc : sc < 2 ^ 32) (hlen : prop.length < 2 ^ 31)
    (hcount : regCount = prop.length / ((ac + sc) % 2 ^ 32) / CELL_UNIT_SIZE) :
    (∀ i, 0 ≤ i → i < 0 + regCount → TupleFits prop ac sc ((ac + sc) % 2 ^ 32) i) ↔
      (2 ^ 32 ≤ ac + sc → regCount = 0) := by
  constructor
  · intro hall hwrap
    by_contra hne
    have hfirst := (hall 0 le_rfl (by omega)).2
    rw [Nat.zero_mul, Nat.zero_add] at hfirst
    omega
  · intro hno i _ hi
    have hsum : (ac + sc) % 2 ^ 32 = ac + sc := Nat.mod_eq_of_lt (by omega)
    rw [hsum, Nat.div_div_eq_div_mul] at hcount
    rw [Nat.zero_add, hcount] at hi
    have hend : (i + 1) * ((ac + sc) * 4) ≤ prop.length :=
      (Nat.mul_le_mul_right _ hi).trans (Nat.div_mul_le_self prop.length ((ac + sc) * 4))
    have hdist : 4 * (i * (ac + sc) + ac + sc) = (i + 1) * ((ac + sc) * 4) := by ring
    rw [hsum]
    exact ⟨.inr (by omega), .inr (by omega)⟩

/-- The number in a property of one cell, or 2 if there is none. -/
def cellsOf : Option (List UInt8) → Nat
  | some prop => cellAt prop 0
  | none => 2

lemma cellsOf_lt (prop : Option (List UInt8)) : cellsOf prop < 2 ^ 32 := by
  cases prop with
  | none => decide
  | some prop => exact cellAt_lt prop 0

/-- The property is as long as a cell, if it is there. -/
def HasCell (prop : Option (List UInt8)) : Prop := ∀ p, prop = some p → 4 ≤ p.length

lemma cellsOrDefault_guarded (prop : Option (List UInt8)) :
    Guarded .fault (HasCell prop) (cellsOrDefault prop) := by
  cases prop with
  | none => exact (Guarded.ok 2).congr ⟨fun _ p hp => (by cases hp), fun _ => trivial⟩
  | some p =>
    refine (readCell_guarded p 0).congr ⟨fun h q hq => ?_, fun h => h p rfl⟩
    obtain rfl := Option.some.inj hq
    exact h

lemma cellsOrDefault_eq_ok {prop : Option (List UInt8)} {c : Nat} (h : cellsOrDefault prop = .ok c) :
    c = cellsOf prop := by
  cases prop with
  | none => exact (Except.ok.inj h).symm
  | some p =>
    have hlen := (readCell_guarded p 0).holds h
    rw [cellsOrDefault, readCell_of_le hlen] at h
    exact (Except.ok.inj h).symm

variable {t : DeviceTree} {node : Int}

/-- The cell counts that `fdt_get_reg` uses: those of the parent. -/
def addressCells (t : DeviceTree) (node : Int) : Nat := cellsOf (t.getprop (t.parentOffset node) "#address-cells")

def sizeCells (t : DeviceTree) (node : Int) : Nat := cellsOf (t.getprop (t.parentOffset node) "#size-cells")

lemma addressCells_lt : addressCells t node < 2 ^ 32 := cellsOf_lt _

lemma sizeCells_lt : sizeCells t node < 2 ^ 32 := cellsOf_lt _

/-- The cell count of a tuple is not zero in 32 bits, and if it has wrapped around then `fdt_get_reg` reads nothing:
the count of tuples is not the one asked for, or both are zero. -/
def TuplesFit (prop : List UInt8) (ac sc regCount : Nat) : Prop :=
  (ac + sc) % 2 ^ 32 ≠ 0 ∧
    (2 ^ 32 ≤ ac + sc → regCount = prop.length / ((ac + sc) % 2 ^ 32) / CELL_UNIT_SIZE → regCount = 0)

/-- What `fdt_get_reg` needs. Where there are no registers, or there is no place for them, the cell counts do not
matter. -/
structure RegFits (t : DeviceTree) (node : Int) (reg : Option (List Register)) (regCount : Nat) : Prop where
  address : HasCell (t.getprop (t.parentOffset node) "#address-cells")
  size : HasCell (t.getprop (t.parentOffset node) "#size-cells")
  tuples : ∀ prop, t.getprop node "reg" = some prop → prop ≠ [] → reg ≠ none →
    TuplesFit prop (addressCells t node) (sizeCells t node) regCount

lemma fdtGetReg_guarded {reg : Option (List Register)} {regCount : Nat}
    (hreg : ∀ regs, reg = some regs → regs.length = regCount) :
    Guarded .fault (RegFits t node reg regCount) (fdtGetReg t node reg regCount) := by
  have hseq : Guarded .fault (HasCell (t.getprop (t.parentOffset node) "#address-cells") ∧
      HasCell (t.getprop (t.parentOffset node) "#size-cells") ∧
        ∀ prop, t.getprop node "reg" = some prop → prop ≠ [] → reg ≠ none →
          TuplesFit prop (addressCells t node) (sizeCells t node) regCount) (fdtGetReg t node reg regCount) := by
    have hcond (prop : List UInt8) (regs : List Register) (hempty : ¬prop.length = 0) :
        (∀ p, some prop = some p → p ≠ [] → some regs ≠ none →
          TuplesFit p (addressCells t node) (sizeCells t node) regCount) ↔
            TuplesFit prop (addressCells t node) (sizeCells t node) regCount := by
      refine ⟨fun h => h prop rfl ?_ (by simp), fun h p hp _ _ => Option.some.inj hp ▸ h⟩
      exact fun hnil => hempty (hnil ▸ rfl)
    refine (cellsOrDefault_guarded _).bind fun ac hac => ?_
    obtain rfl : ac = addressCells t node := cellsOrDefault_eq_ok hac
    refine (cellsOrDefault_guarded _).bind fun sc hsc => ?_
    obtain rfl : sc = sizeCells t node := cellsOrDefault_eq_ok hsc
    cases hprop : t.getprop node "reg" with
    | none => exact (Guarded.ok _).congr ⟨fun _ p hp => (by cases hp), fun _ => trivial⟩
    | some prop =>
      cases reg with
      | none => exact (Guarded.ok _).congr ⟨fun _ _ _ _ hn => absurd rfl hn, fun _ => trivial⟩
      | some regs =>
        dsimp only
        split_ifs with hempty hcells hcount
        · refine (Guarded.ok _).congr ⟨fun _ p hp hne => ?_, fun _ => trivial⟩
          obtain rfl := Option.some.inj hp
          exact absurd (List.eq_nil_of_length_eq_zero hempty) hne
        · exact .inr ⟨fun h => ((hcond prop regs hempty).mp h).1 hcells, rfl⟩
        · have hfits : TuplesFit prop (addressCells t node) (sizeCells t node) regCount :=
            ⟨hcells, fun _ heq => absurd heq hcount⟩
          exact (Guarded.ok _).congr ⟨fun _ => (hcond prop regs hempty).mpr hfits, fun _ => trivial⟩
        · have hcount := not_not.mp hcount
          have hloop := @fdtGetRegLoop_guarded prop (addressCells t node) (sizeCells t node)
            ((addressCells t node + sizeCells t node) % 2 ^ 32) regCount 0 regs
            ((hreg regs rfl).trans (Nat.zero_add _).symm)
          refine ((hloop.bind fun regs' _ => Guarded.ok _).congr ?_).congr (hcond prop regs hempty).symm
          rw [and_true, tupleFits_all_iff addressCells_lt sizeCells_lt (t.length_lt _ _ _ hprop) hcount]
          exact ⟨fun h => ⟨hcells, fun hwrap _ => h hwrap⟩, fun h hwrap => h.2 hwrap hcount⟩
  refine hseq.congr ⟨?_, ?_⟩
  · rintro ⟨haddress, hsize, htuples⟩
    exact ⟨haddress, hsize, htuples⟩
  · rintro ⟨haddress, hsize, htuples⟩
    exact ⟨haddress, hsize, htuples⟩

/-- With one or two cells for each number, the registers are the tuples of the property. -/
lemma fdtGetReg_value {reg reg' : Option (List Register)} {regCount : Nat} (hac : addressCells t node ≤ 2)
    (hsc : sizeCells t node ≤ 2) (h : fdtGetReg t node reg regCount = .ok (true, reg')) :
    ∃ prop regs, t.getprop node "reg" = some prop ∧ reg' = some regs ∧
      ∀ i < regCount, regs[i]? = some (regTuple prop (addressCells t node) (sizeCells t node) i) := by
  obtain ⟨ac, hac', h⟩ := bind_eq_ok.mp h
  obtain rfl : ac = addressCells t node := cellsOrDefault_eq_ok hac'
  obtain ⟨sc, hsc', h⟩ := bind_eq_ok.mp h
  obtain rfl : sc = sizeCells t node := cellsOrDefault_eq_ok hsc'
  have hsum : (addressCells t node + sizeCells t node) % 2 ^ 32 = addressCells t node + sizeCells t node :=
    Nat.mod_eq_of_lt (by omega)
  cases hprop : t.getprop node "reg" with
  | none =>
    rw [hprop] at h
    cases h
  | some prop =>
    rw [hprop] at h
    cases reg with
    | none => cases h
    | some regs =>
      dsimp only at h
      split_ifs at h with hempty hcells hcount
      · cases h
      · cases h
      · obtain ⟨regs', hloop, h⟩ := bind_eq_ok.mp h
        cases h
        rw [hsum] at hloop
        refine ⟨prop, regs', rfl, rfl, fun i hi => ?_⟩
        exact (fdtGetRegLoop_value hac hsc hloop).2 i (Nat.zero_le i) (by omega)

end Reg

section Interrupts

/-- The interrupt controller of a node: the one that its own `interrupt-parent` points to, or that of its parent if
it has none. -/
inductive InterruptController (t : DeviceTree) : Int → Int → Prop
  | own {node : Int} {phandle : List UInt8} (h : t.getprop node "interrupt-parent" = some phandle)
      (hlen : phandle.length = 4) : InterruptController t node (t.nodeOffsetByPhandle (cellAt phandle 0))
  | up {node c : Int} (h : t.getprop node "interrupt-parent" = none) (hparent : 0 ≤ t.parentOffset node)
      (hc : InterruptController t (t.parentOffset node) c) : InterruptController t node c

variable {t : DeviceTree} {node : Int}

lemma InterruptController.unique {c c' : Int} (h : InterruptController t node c) (h' : InterruptController t node c') :
    c = c' := by
  induction h with
  | own hphandle hlen =>
    cases h' with
    | own hphandle' hlen' => rw [Option.some.inj (hphandle.symm.trans hphandle')]
    | up hnone _ _ => simp [hphandle] at hnone
  | up hnone _ _ ih =>
    cases h' with
    | own hphandle' hlen' => simp [hnone] at hphandle'
    | up _ _ hc' => exact ih hc'

/-- A search for the interrupt controller of a node either finds it, or there is none and the search says so or ends
at a failed `ASSERT`. -/
def Finds (t : DeviceTree) (node : Int) (x : Except Halt Int) : Prop :=
  (∃ c, InterruptController t node c ∧ x = .ok c) ∨
    (∀ c, ¬InterruptController t node c) ∧ (x = .ok (-1) ∨ x = .error .panic)

lemma interruptParentOf_finds {phandle : List UInt8} (h : t.getprop node "interrupt-parent" = some phandle) :
    Finds t node (interruptParentOf t phandle) := by
  by_cases hlen : phandle.length = 4
  · refine .inl ⟨_, .own h hlen, ?_⟩
    rw [interruptParentOf, assertThat, if_pos hlen, ok_bind, readCell_of_le (by omega), ok_bind]
    rfl
  · refine .inr ⟨fun c hc => ?_, .inr ?_⟩
    · cases hc with
      | own h' hlen' => exact hlen (Option.some.inj (h.symm.trans h') ▸ hlen')
      | up h' _ _ => simp [h] at h'
    · rw [interruptParentOf, assertThat, if_neg hlen]
      rfl

lemma Finds.up {x : Except Halt Int} (h : t.getprop node "interrupt-parent" = none) (hparent : 0 ≤ t.parentOffset node)
    (hx : Finds t (t.parentOffset node) x) : Finds t node x := by
  rcases hx with ⟨c, hc, hx⟩ | ⟨hno, hx⟩
  · exact .inl ⟨c, .up h hparent hc, hx⟩
  · refine .inr ⟨fun c hc => ?_, hx⟩
    cases hc with
    | own h' _ => simp [h] at h'
    | up _ _ hc => exact hno c hc

/-- The way to the root is not longer than the offset of the node. -/
lemma interruptParentLoop_finds {fuel : Nat} (hnone : t.getprop node "interrupt-parent" = none)
    (hpos : 0 < fuel) (hfuel : node < fuel) : Finds t node (interruptParentLoop t fuel node) := by
  induction fuel generalizing node with
  | zero => exact absurd hpos (Nat.lt_irrefl 0)
  | succ fuel ih =>
    unfold interruptParentLoop
    dsimp only
    split_ifs with hparent
    · refine .inr ⟨fun c hc => ?_, .inl rfl⟩
      cases hc with
      | own h _ => simp [hnone] at h
      | up _ hpos _ => omega
    · refine .up hnone (Int.not_lt.mp hparent) ?_
      cases hphandle : t.getprop (t.parentOffset node) "interrupt-parent" with
      | some phandle => exact interruptParentOf_finds hphandle
      | none =>
        have hlt := t.parent_lt node (Int.not_lt.mp hparent)
        exact ih hphandle (by omega) (by omega)

lemma findInterruptController_finds (t : DeviceTree) (node : Int) :
    Finds t node (findInterruptController t node) := by
  unfold findInterruptController
  cases hphandle : t.getprop node "interrupt-parent" with
  | some phandle => exact interruptParentOf_finds hphandle
  | none => exact interruptParentLoop_finds hphandle (Nat.succ_pos _) (by omega)

/-- `p` is the `#interrupt-cells` property that counts for the interrupts of a node. -/
def InterruptCells (t : DeviceTree) (node : Int) (p : List UInt8) : Prop :=
  ∃ c, InterruptController t node c ∧ 0 ≤ c ∧ t.getprop c "interrupt-controller" ≠ none ∧
    t.getprop c "#interrupt-cells" = some p

lemma InterruptCells.unique {p p' : List UInt8} (h : InterruptCells t node p) (h' : InterruptCells t node p') :
    p = p' := by
  obtain ⟨c, hc, -, -, hp⟩ := h
  obtain ⟨c', hc', -, -, hp'⟩ := h'
  obtain rfl := hc.unique hc'
  exact Option.some.inj (hp.symm.trans hp')

/-- `fdt_get_interrupt_cells_count` reads the `#interrupt-cells` of the node, if they are there. -/
lemma fdtGetInterruptCellsCount_cases (t : DeviceTree) (node : Int) :
    (∃ p, InterruptCells t node p ∧ fdtGetInterruptCellsCount t node =
      (readCell p 0 >>= fun cells => .ok (Int.bmod cells (2 ^ 32)))) ∨
    (∀ p, ¬InterruptCells t node p) ∧
      (fdtGetInterruptCellsCount t node = .ok (-1) ∨ fdtGetInterruptCellsCount t node = .error .panic) := by
  unfold fdtGetInterruptCellsCount
  rcases findInterruptController_finds t node with ⟨c, hc, hx⟩ | ⟨hno, hx⟩
  · rw [hx, ok_bind]
    split_ifs with hneg
    · refine .inr ⟨?_, .inl rfl⟩
      rintro p ⟨c', hc', hpos, -⟩
      obtain rfl := hc.unique hc'
      omega
    · by_cases hcontroller : t.getprop c "interrupt-controller" = none
      · refine .inr ⟨?_, .inr ?_⟩
        · rintro p ⟨c', hc', -, hsome, -⟩
          obtain rfl := hc.unique hc'
          exact hsome hcontroller
        · rw [assertThat, if_neg (not_not.mpr hcontroller)]
          rfl
      · rw [assertThat, if_pos hcontroller, ok_bind]
        cases hcells : t.getprop c "#interrupt-cells" with
        | some p => exact .inl ⟨p, ⟨c, hc, Int.not_lt.mp hneg, hcontroller, hcells⟩, rfl⟩
        | none =>
          refine .inr ⟨?_, .inr rfl⟩
          rintro p ⟨c', hc', -, -, hp⟩
          obtain rfl := hc.unique hc'
          simp [hcells] at hp
  · refine .inr ⟨?_, ?_⟩
    · rintro p ⟨c, hc, -⟩
      exact hno c hc
    · rcases hx with hx | hx
      · rw [hx]
        exact .inl rfl
      · rw [hx]
        exact .inr rfl

/-- The access for cell `j` of interrupt `i` is inside of the property and of the array. -/
def CellFits (interrupts : List UInt8) (cellsCount i j : Nat) : Prop :=
  4 * ((i * cellsCount % 2 ^ 32 + j) % 2 ^ 32) + 4 ≤ interrupts.length ∧ j < MAX_INTERRUPT_CELLS_COUNT

lemma interruptCellsLoop_guarded {interrupts : List UInt8} {cellsCount i n j : Nat}
    {cells : Vector Nat MAX_INTERRUPT_CELLS_COUNT} :
    Guarded .fault (∀ j', j ≤ j' → j' < j + n → CellFits interrupts cellsCount i j')
      (interruptCellsLoop interrupts cellsCount i n j cells) := by
  induction n generalizing j cells with
  | zero => exact (Guarded.ok cells).congr ⟨fun _ j' h₁ h₂ => by omega, fun _ => trivial⟩
  | succ n ih =>
    have hseq : Guarded .fault (4 * ((i * cellsCount % 2 ^ 32 + j) % 2 ^ 32) + 4 ≤ interrupts.length ∧
        j < MAX_INTERRUPT_CELLS_COUNT ∧ ∀ j', j + 1 ≤ j' → j' < j + 1 + n → CellFits interrupts cellsCount i j')
        (interruptCellsLoop interrupts cellsCount i (n + 1) j cells) := by
      refine (readCell_guarded _ _).bind fun cell _ => ?_
      split
      next hj => exact ih.congr ⟨fun h => ⟨hj, h⟩, fun h => h.2⟩
      next hj => exact .inr ⟨fun h => hj h.1, rfl⟩
    refine hseq.congr ?_
    rw [forall_from_succ, CellFits, and_assoc]

lemma interruptsLoop_guarded {interrupts : List UInt8} {cellsCount : Int} {n i : Nat} {fdtInterrupt : List FdtInterrupt}
    (hlen : fdtInterrupt.length = i + n) :
    Guarded .fault (∀ i', i ≤ i' → i' < i + n → ∀ j < cellsCount.toNat, CellFits interrupts cellsCount.toNat i' j)
      (interruptsLoop interrupts cellsCount n i fdtInterrupt) := by
  induction n generalizing i fdtInterrupt with
  | zero => exact (Guarded.ok fdtInterrupt).congr ⟨fun _ i' h₁ h₂ => by omega, fun _ => trivial⟩
  | succ n ih =>
    obtain ⟨thisFdt, hget⟩ : ∃ thisFdt, fdtInterrupt[i]? = some thisFdt :=
      ⟨_, List.getElem?_eq_getElem (by omega)⟩
    unfold interruptsLoop
    rw [hget]
    dsimp only
    refine (interruptCellsLoop_guarded.bind fun cells _ => ih ?_).congr ?_
    · rw [List.length_set, hlen]
      ring
    · rw [forall_from_succ]
      refine and_congr_left' ⟨fun h j hj => h j (Nat.zero_le j) (by omega), fun h j _ hj => h j (by omega)⟩

/-- All cells fit when an interrupt has at most eight of them and the property is long enough for all. -/
lemma cellFits_all_iff {interrupts : List UInt8} {cellsCount count : Nat} (hlen : interrupts.length < 2 ^ 31) :
    (∀ i, 0 ≤ i → i < 0 + count → ∀ j < cellsCount, CellFits interrupts cellsCount i j) ↔
      (0 < count → cellsCount ≤ MAX_INTERRUPT_CELLS_COUNT ∧ 4 * (count * cellsCount) ≤ interrupts.length) := by
  constructor
  · intro hall hcount
    refine ⟨?_, ?_⟩
    · by_contra hmany
      exact absurd (hall 0 le_rfl (by omega) MAX_INTERRUPT_CELLS_COUNT (by omega)).2 (Nat.lt_irrefl _)
    · -- otherwise the first cell behind the end is read
      by_contra hshort
      have hpos : 0 < cellsCount := by
        rcases Nat.eq_zero_or_pos cellsCount with rfl | hpos
        · simp at hshort
        · exact hpos
      have hlt : interrupts.length / 4 / cellsCount < count := by
        rw [Nat.div_lt_iff_lt_mul hpos]
        omega
      have hfits := (hall (interrupts.length / 4 / cellsCount) (Nat.zero_le _) (by omega) _
        (Nat.mod_lt (interrupts.length / 4) hpos)).1
      have hk := Nat.div_add_mod' (interrupts.length / 4) cellsCount
      have hle := Nat.div_mul_le_self (interrupts.length / 4) cellsCount
      rw [Nat.mod_eq_of_lt (a := interrupts.length / 4 / cellsCount * cellsCount) (by omega), hk] at hfits
      omega
  · intro h i _ hi j hj
    obtain ⟨hmany, hend⟩ := h (by omega)
    have hnext : (i + 1) * cellsCount ≤ count * cellsCount := Nat.mul_le_mul_right _ (by omega)
    rw [Nat.add_mul, Nat.one_mul] at hnext
    refine ⟨?_, by omega⟩
    omega

/-- What `fdt_get_interrupt_cells` needs of a node that has interrupts: the cell count is a cell, it is at most
`MAX_INTERRUPT_CELLS_COUNT`, and the property has as many cells as are asked for. A count that is negative as an `i32`
is refused, and without an interrupt to read nothing matters but the count itself. -/
def InterruptsFit (t : DeviceTree) (node : Int) (count : Nat) : Prop :=
  ∀ interrupts p, t.getprop node "interrupts" = some interrupts → InterruptCells t node p → 4 ≤ p.length ∧
    (cellAt p 0 < 2 ^ 31 → 0 < count →
      cellAt p 0 ≤ MAX_INTERRUPT_CELLS_COUNT ∧ 4 * (count * cellAt p 0) ≤ interrupts.length)

lemma bmod_of_lt {c : Nat} (h : c < 2 ^ 31) : Int.bmod c (2 ^ 32) = c := by
  unfold Int.bmod
  dsimp only
  omega

lemma bmod_neg {c : Nat} (h : 2 ^ 31 ≤ c) (h' : c < 2 ^ 32) : Int.bmod c (2 ^ 32) < 0 := by
  unfold Int.bmod
  dsimp only
  omega

lemma fdtGetInterruptCells_inBounds_iff {fdtInterrupt : List FdtInterrupt} {count : Nat}
    (hlen : fdtInterrupt.length = count) :
    InBounds (fdtGetInterruptCells t node fdtInterrupt count) ↔ InterruptsFit t node count := by
  unfold fdtGetInterruptCells InterruptsFit
  cases hinterrupts : t.getprop node "interrupts" with
  | none => exact ⟨fun _ _ _ h => (by cases h), fun _ e he => (Except.error.inj he).symm⟩
  | some interrupts =>
    dsimp only
    rcases fdtGetInterruptCellsCount_cases t node with ⟨p, hp, hcount⟩ | ⟨hno, hcount⟩
    · -- only this property counts
      have hcond : (∀ interrupts' p', some interrupts = some interrupts' → InterruptCells t node p' → 4 ≤ p'.length ∧
          (cellAt p' 0 < 2 ^ 31 → 0 < count →
            cellAt p' 0 ≤ MAX_INTERRUPT_CELLS_COUNT ∧ 4 * (count * cellAt p' 0) ≤ interrupts'.length)) ↔
          4 ≤ p.length ∧ (cellAt p 0 < 2 ^ 31 → 0 < count →
            cellAt p 0 ≤ MAX_INTERRUPT_CELLS_COUNT ∧ 4 * (count * cellAt p 0) ≤ interrupts.length) := by
        refine ⟨fun h => h interrupts p rfl hp, fun h interrupts' p' hi hp' => ?_⟩
        obtain rfl := Option.some.inj hi
        obtain rfl := hp.unique hp'
        exact h
      rw [hcond, hcount]
      refine inBounds_iff_of_guarded ?_
      rcases Nat.lt_or_ge p.length 4 with hshort | hcell
      · rw [readCell_of_lt (by omega)]
        exact .inr ⟨fun h => absurd h.1 (by omega), rfl⟩
      · rw [readCell_of_le (by omega), ok_bind, ok_bind]
        split_ifs with hneg
        · refine (Guarded.ok _).congr ⟨fun _ => ⟨hcell, fun hlt => ?_⟩, fun _ => trivial⟩
          rw [bmod_of_lt hlt] at hneg
          omega
        · have hlt : cellAt p 0 < 2 ^ 31 := by
            by_contra hge
            exact hneg (bmod_neg (Nat.not_lt.mp hge) (cellAt_lt p 0))
          rw [bmod_of_lt hlt]
          refine (interruptsLoop_guarded (hlen.trans (Nat.zero_add _).symm)).bind (fun _ _ => Guarded.ok _) |>.congr ?_
          rw [and_true, Int.toNat_natCast, cellFits_all_iff (t.length_lt _ _ _ hinterrupts)]
          exact ⟨fun h => ⟨hcell, fun _ => h⟩, fun h => h.2 hlt⟩
    · refine ⟨fun _ _ p _ hp => absurd hp (hno p), fun _ e he => ?_⟩
      rcases hcount with hcount | hcount
      · rw [hcount, ok_bind, if_pos (by decide)] at he
        cases he
      · rw [hcount] at he
        exact (Except.error.inj he).symm

end Interrupts

/-- What the two functions promise for a node with registers and for one with interrupts. -/
structure DecodesInBounds (t : DeviceTree) (node node' : Int) (reg : Option (List Register)) (regCount : Nat)
    (fdtInterrupt : List FdtInterrupt) (count : Nat) : Prop where
  regInBounds : InBounds (fdtGetReg t node reg regCount)
  interruptsInBounds : InBounds (fdtGetInterruptCells t node' fdtInterrupt count)
  values : ∀ reg', fdtGetReg t node reg regCount = .ok (true, reg') →
    (addressCells t node = 1 ∨ addressCells t node = 2) → (sizeCells t node = 1 ∨ sizeCells t node = 2) →
      ∃ prop regs, t.getprop node "reg" = some prop ∧ reg' = some regs ∧
        ∀ i < regCount, regs[i]? = some (regTuple prop (addressCells t node) (sizeCells t node) i)

/-- The two functions stay in bounds and give the values of the properties exactly where the cell counts, the lengths
and the counts that are asked for fit together. -/
theorem fdt_decodes_in_bounds_iff (t : DeviceTree) (node node' : Int) {reg : Option (List Register)} {regCount : Nat}
    {fdtInterrupt : List FdtInterrupt} {count : Nat} (hreg : ∀ regs, reg = some regs → regs.length = regCount)
    (hinterrupt : fdtInterrupt.length = count) :
    DecodesInBounds t node node' reg regCount fdtInterrupt count ↔
      RegFits t node reg regCount ∧ InterruptsFit t node' count := by
  rw [← inBounds_iff_of_guarded (fdtGetReg_guarded hreg), ← fdtGetInterruptCells_inBounds_iff hinterrupt]
  refine ⟨fun h => ⟨h.regInBounds, h.interruptsInBounds⟩, fun h => ⟨h.1, h.2, fun reg' hreg' hac hsc => ?_⟩⟩
  exact fdtGetReg_value (by omega) (by omega) hreg'

/-- A bus with the address of a device on it, and an interrupt controller; the cell counts of the bus are
parameters. -/
def busTree (ac sc : UInt8) : DeviceTree where
  parentOffset node := node - 1
  getprop node name :=
    if node = 0 ∧ name = "#address-cells" then some [0, 0, 0, ac]
    else if node = 0 ∧ name = "#size-cells" then some [0, 0, 0, sc]
    else if node = 0 ∧ name = "interrupt-controller" then some []
    else if node = 0 ∧ name = "#interrupt-cells" then some [0, 0, 0, 3]
    else if node = 1 ∧ name = "interrupt-parent" then some [0, 0, 0, 1]
    else if node = 1 ∧ name = "interrupts" then some [0, 0, 0, 0, 0, 0, 0, 1, 0, 0, 0, 4]
    else if node = 1 ∧ name = "reg" then some [9, 0, 0, 0, 0, 0, 16, 0]
    else none
  nodeOffsetByPhandle phandle := if phandle = 1 then 0 else -1
  parent_lt := by intro node; omega
  length_lt := by
    intro node name prop h
    split_ifs at h <;> cases h <;> simp only [List.length_cons, List.length_nil] <;> norm_num

/-- Without cells for addresses and sizes there is a division by zero. With two interrupts asked for, what is behind
the property of a device with one is read. -/
theorem fdt_decodes_out_of_bounds :
    ¬DecodesInBounds (busTree 0 0) 1 1 (some [⟨0, 0⟩]) 1 [⟨0, .replicate 8 0⟩] 1 ∧
      ¬DecodesInBounds (busTree 1 1) 1 1 (some [⟨0, 0⟩]) 1 [⟨0, .replicate 8 0⟩, ⟨0, .replicate 8 0⟩] 2 := by
  have hreg : fdtGetReg (busTree 0 0) 1 (some [⟨0, 0⟩]) 1 = .error .fault := by decide
  have hinterrupts : fdtGetInterruptCells (busTree 1 1) 1 [⟨0, .replicate 8 0⟩, ⟨0, .replicate 8 0⟩] 2 =
      .error .fault := by decide
  refine ⟨fun h => ?_, fun h => ?_⟩
  · exact absurd (h.regInBounds _ hreg) (by decide)
  · exact absurd (h.interruptsInBounds _ hinterrupts) (by decide)

lemma busTree_interruptCells {ac sc : UInt8} {p : List UInt8} (h : InterruptCells (busTree ac sc) 1 p) :
    p = [0, 0, 0, 3] := by
  have hcontroller : InterruptController (busTree ac sc) 1 0 :=
    @InterruptController.own (busTree ac sc) 1 [0, 0, 0, 1] rfl rfl
  obtain ⟨c, hc, -, -, hp⟩ := h
  obtain rfl := hc.unique hcontroller
  exact (Option.some.inj hp).symm

theorem fdt_decodes_in_bounds_iff_bus :
    DecodesInBounds (busTree 1 1) 1 1 (some [⟨0, 0⟩]) 1 [⟨0, .replicate 8 0⟩] 1 := by
  refine (fdt_decodes_in_bounds_iff (busTree 1 1) 1 1 ?_ rfl).mpr ⟨⟨?_, ?_, ?_⟩, ?_⟩
  · rintro regs hregs
    obtain rfl := Option.some.inj hregs
    rfl
  · rintro p hp
    obtain rfl := Option.some.inj hp
    decide
  · rintro p hp
    obtain rfl := Option.some.inj hp
    decide
  · rintro prop hprop - -
    have hac : addressCells (busTree 1 1) 1 = 1 := by decide
    have hsc : sizeCells (busTree 1 1) 1 = 1 := by decide
    rw [hac, hsc]
    exact ⟨by decide, fun h => absurd h (by decide)⟩
  · rintro interrupts p hinterrupts hp
    obtain rfl := Option.some.inj hinterrupts
    obtain rfl := busTree_interruptCells hp
    exact ⟨by decide, fun _ _ => by decide⟩

end KaworuOS.Proofs
