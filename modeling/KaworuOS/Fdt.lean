import KaworuOS.Base
import Mathlib.Algebra.Order.Ring.Nat
import Mathlib.Data.Int.Notation

/-!
# Reading the device tree (`kernel/boot/fdt.c`)

What `libfdt` gives back is a parameter. A property is the list of its bytes, and an access to a byte that it does not
have is a `fault`, as are an access outside of the caller's array and a division by zero.
-/

namespace KaworuOS

/-- The queries of `libfdt`: `fdt_parent_offset`, `fdt_getprop` and `fdt_node_offset_by_phandle`. A node comes after
its parent, and a length is an `int`. -/
structure DeviceTree where
  parentOffset : Int → Int
  getprop : Int → String → Option (List UInt8)
  nodeOffsetByPhandle : Nat → Int
  parent_lt : ∀ node, 0 ≤ parentOffset node → parentOffset node < node
  length_lt : ∀ node name prop, getprop node name = some prop → prop.length < 2 ^ 31

/-- `CPU_TO_FDT32`. -/
def fdt32ToCpu (b₀ b₁ b₂ b₃ : UInt8) : Nat :=
  (b₀.toNat <<< 24 ||| b₁.toNat <<< 16) ||| b₂.toNat <<< 8 ||| b₃.toNat

/-- `fdt32_to_cpu(prop[i])`. -/
def readCell (prop : List UInt8) (i : Nat) : Except Halt Nat :=
  match prop.drop (4 * i) with
  | b₀ :: b₁ :: b₂ :: b₃ :: _ => .ok (fdt32ToCpu b₀ b₁ b₂ b₃)
  | _ => .error .fault

/-- `Register`. -/
structure Register where
  size : Nat
  address : Nat
  deriving DecidableEq, Repr

/-- `MAX_INTERRUPT_CELLS_COUNT`. -/
abbrev MAX_INTERRUPT_CELLS_COUNT : Nat := 8

/-- `FDTInterrupt`. -/
structure FdtInterrupt where
  cellsCount : Int
  cells : Vector Nat MAX_INTERRUPT_CELLS_COUNT
  deriving DecidableEq

/-- `CELL_UNIT_SIZE`. -/
abbrev CELL_UNIT_SIZE : Nat := 4

/-- A write to an element of the caller's array. -/
def writeElem {α : Type} (l : List α) (i : Nat) (a : α) : Except Halt (List α) :=
  if i < l.length then .ok (l.set i a) else .error .fault

/-- The loops of `fdt_get_reg` over the cells of an address or a size, from `start` on. -/
def readCells (prop : List UInt8) : Nat → Nat → Nat → Except Halt Nat
  | _, 0, value => .ok value
  | start, n + 1, value => do
    let cell ← readCell prop start
    readCells prop (start + 1) n ((value <<< 32) % wordSize ||| cell)

/-- The loop of `fdt_get_reg` over the registers that are left. -/
def fdtGetRegLoop (prop : List UInt8) (ac sc regCellsCount : Nat) :
    Nat → Nat → List Register → Except Halt (List Register)
  | 0, _, reg => .ok reg
  | n + 1, iReg, reg => do
    let offset := iReg * regCellsCount
    let address ← readCells prop offset ac 0
    let size ← readCells prop (offset + ac) sc 0
    let reg ← writeElem reg iReg ⟨size, address⟩
    fdtGetRegLoop prop ac sc regCellsCount n (iReg + 1) reg

/-- `ac_prop ? fdt32_to_cpu(*ac_prop) : 2`. -/
def cellsOrDefault : Option (List UInt8) → Except Halt Nat
  | some prop => readCell prop 0
  | none => .ok 2

/-- `fdt_get_reg`, with what `reg` points to. -/
def fdtGetReg (t : DeviceTree) (node : Int) (reg : Option (List Register)) (regCount : Nat) :
    Except Halt (Bool × Option (List Register)) := do
  let parent := t.parentOffset node
  let ac ← cellsOrDefault (t.getprop parent "#address-cells")
  let sc ← cellsOrDefault (t.getprop parent "#size-cells")
  match t.getprop node "reg", reg with
  | some prop, some regs =>
    if prop.length = 0 then return (false, reg)
    else
      let regCellsCount := (ac + sc) % 2 ^ 32
      if regCellsCount = 0 then throw .fault
      else
        let actual := prop.length / regCellsCount / CELL_UNIT_SIZE
        if regCount ≠ actual then return (false, reg)
        else
          let regs ← fdtGetRegLoop prop ac sc regCellsCount regCount 0 regs
          return (true, some regs)
  | _, _ => return (false, reg)

/-- The node that an `interrupt-parent` property points to. -/
def interruptParentOf (t : DeviceTree) (phandle : List UInt8) : Except Halt Int := do
  assertThat (phandle.length = 4)
  let phandle ← readCell phandle 0
  return t.nodeOffsetByPhandle phandle

/-- The loop of `fdt_get_interrupt_cells_count` from a node towards the root. -/
def interruptParentLoop (t : DeviceTree) : Nat → Int → Except Halt Int
  | 0, _ => .error .hang
  | fuel + 1, node =>
    let parent := t.parentOffset node
    if parent < 0 then .ok (-1)
    else
      match t.getprop parent "interrupt-parent" with
      | some phandle => interruptParentOf t phandle
      | none => interruptParentLoop t fuel parent

/-- The first half of `fdt_get_interrupt_cells_count`; `FDT_ERR_NOTFOUND` is 1. -/
def findInterruptController (t : DeviceTree) (node : Int) : Except Halt Int :=
  match t.getprop node "interrupt-parent" with
  | some phandle => interruptParentOf t phandle
  | none => interruptParentLoop t (node.toNat + 1) node

/-- `fdt_get_interrupt_cells_count`. -/
def fdtGetInterruptCellsCount (t : DeviceTree) (node : Int) : Except Halt Int := do
  let interruptController ← findInterruptController t node
  if interruptController < 0 then return -1
  else
    assertThat (t.getprop interruptController "interrupt-controller" ≠ none)
    match t.getprop interruptController "#interrupt-cells" with
    | some prop =>
      let interruptCells ← readCell prop 0
      return Int.bmod interruptCells (2 ^ 32)
    | none => throw .panic

/-- The loop of `fdt_get_interrupt_cells` over the cells that are left of interrupt `i`. -/
def interruptCellsLoop (interrupts : List UInt8) (cellsCount i : Nat) :
    Nat → Nat → Vector Nat MAX_INTERRUPT_CELLS_COUNT → Except Halt (Vector Nat MAX_INTERRUPT_CELLS_COUNT)
  | 0, _, cells => .ok cells
  | n + 1, j, cells => do
    let cell ← readCell interrupts (((i * cellsCount) % 2 ^ 32 + j) % 2 ^ 32)
    if hj : j < MAX_INTERRUPT_CELLS_COUNT then
      interruptCellsLoop interrupts cellsCount i n (j + 1) (cells.set j cell hj)
    else throw .fault

/-- The loop of `fdt_get_interrupt_cells` over the interrupts that are left. -/
def interruptsLoop (interrupts : List UInt8) (cellsCount : Int) :
    Nat → Nat → List FdtInterrupt → Except Halt (List FdtInterrupt)
  | 0, _, fdtInterrupt => .ok fdtInterrupt
  | n + 1, i, fdtInterrupt =>
    match fdtInterrupt[i]? with
    | none => .error .fault
    | some thisFdt => do
      let cells ← interruptCellsLoop interrupts cellsCount.toNat i cellsCount.toNat 0 thisFdt.cells
      interruptsLoop interrupts cellsCount n (i + 1) (fdtInterrupt.set i ⟨cellsCount, cells⟩)

/-- `fdt_get_interrupt_cells`. -/
def fdtGetInterruptCells (t : DeviceTree) (node : Int) (fdtInterrupt : List FdtInterrupt) (fdtInterruptCount : Nat) :
    Except Halt (Bool × List FdtInterrupt) :=
  match t.getprop node "interrupts" with
  | none => .error .panic
  | some interrupts => do
    let intcCellsCount ← fdtGetInterruptCellsCount t node
    if intcCellsCount < 0 then return (false, fdtInterrupt)
    else
      let fdtInterrupt ← interruptsLoop interrupts intcCellsCount fdtInterruptCount 0 fdtInterrupt
      return (true, fdtInterrupt)

end KaworuOS
