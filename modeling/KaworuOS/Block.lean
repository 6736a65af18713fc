import KaworuOS.Pmm

/-!
# Block devices (`fs/block.c`, `drivers/common/manager.h`)

The operations of a device are given by its driver: each has a sector and the address of a buffer, and
changes memory and the device. The geometry of a device is fixed.
-/

namespace KaworuOS
open Lib

/-- `DeviceClass`. -/
inductive DeviceClass
  | unknown
  | framebuffer
  | console
  | irqchip
  | timer
  | block
  | entropy
  | network
  | virtioMmioDevice
  deriving DecidableEq, Repr

/-- An operation on one sector of a device with data of type `δ`. -/
abbrev SectorOp (δ : Type) := Nat → Nat → Mem × δ → Errno × Mem × δ

/-- `BlockOps`. -/
structure BlockOps (δ : Type) where
  readSync : SectorOp δ
  read : SectorOp δ
  writeSync : SectorOp δ
  write : SectorOp δ
  sectorSize : Nat
  capacity : Nat

/-- `Device`. -/
structure Device (δ : Type) where
  cls : DeviceClass
  blockOps : BlockOps δ

/-- A sector and a buffer that a driver has been given. -/
structure SectorRequest where
  sector : Nat
  buf : Nat
  deriving DecidableEq, Repr

/-- Memory and the data of the device, with what the driver has been given so far. -/
structure BlockState (δ : Type) where
  mem : Mem
  data : δ
  issued : List SectorRequest

/-- Code that uses a block device. -/
abbrev BlockCall (δ : Type) := Call Halt (BlockState δ)

variable {δ : Type}

/-- A call of an operation of the driver, whose result is dropped. -/
def issue (op : SectorOp δ) (sector buf : Nat) : BlockCall δ Unit :=
  Call.update (fun s =>
    let r := op sector buf (s.mem, s.data)
    { mem := r.2.1, data := r.2.2, issued := s.issued ++ [⟨sector, buf⟩] })

/-- `verify_sector_range`. -/
def verifySectorRange (sector count capacity sectorSize : Nat) : Errno :=
  if capacity = 0 ∨ sectorSize = 0 then .ENODEV
  else if sector ≥ capacity / sectorSize then .EINVAL
  else if wadd sector count ≥ capacity / sectorSize then .EINVAL
  else .EOK

/-- The values of `sect` in `for (usize sect = sector; sect < sector + count; sect++)`. -/
def sectors (sector count : Nat) : List Nat := List.range' sector (wadd sector count - sector)

/-- `internal_block_read`. -/
def internalBlockRead (device : Device δ) (sector count buf : Nat) (block : Bool) : BlockCall δ Errno := do
  Call.lift (assertThat (device.cls = .block))
  if count = 0 then return .EOK
  let capacity := device.blockOps.capacity
  let sectorSize := device.blockOps.sectorSize
  let ret := verifySectorRange sector count capacity sectorSize
  if ret ≠ .EOK then return ret
  Call.each (fun sect =>
    let offsetedBuf := wadd buf (wmul (wsub sect sector) sectorSize)
    if block then issue device.blockOps.readSync sect offsetedBuf
    else issue device.blockOps.read sect offsetedBuf) (sectors sector count)
  return .EOK

/-- `block_read_sync`. -/
def blockReadSync (device : Device δ) (sector count buf : Nat) : BlockCall δ Errno :=
  internalBlockRead device sector count buf true

/-- `block_read`. -/
def blockRead (device : Device δ) (sector count buf : Nat) : BlockCall δ Errno :=
  internalBlockRead device sector count buf false

/-- `internal_block_write`. The place in the buffer is counted from the beginning of the device. -/
def internalBlockWrite (device : Device δ) (sector count buf : Nat) (block : Bool) : BlockCall δ Errno := do
  Call.lift (assertThat (device.cls = .block))
  if count = 0 then return .EOK
  let capacity := device.blockOps.capacity
  let sectorSize := device.blockOps.sectorSize
  let ret := verifySectorRange sector count capacity sectorSize
  if ret ≠ .EOK then return ret
  Call.each (fun sect =>
    let offsetedBuf := wadd buf (wmul sect sectorSize)
    if block then issue device.blockOps.writeSync sect offsetedBuf
    else issue device.blockOps.write sect offsetedBuf) (sectors sector count)
  return .EOK

/-- `block_write_sync`. -/
def blockWriteSync (device : Device δ) (sector count buf : Nat) : BlockCall δ Errno :=
  internalBlockWrite device sector count buf true

/-- `block_write`. -/
def blockWrite (device : Device δ) (sector count buf : Nat) : BlockCall δ Errno :=
  internalBlockWrite device sector count buf false

end KaworuOS
