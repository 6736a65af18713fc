import KaworuOS.Block
import Mathlib.Logic.Function.Basic

/-!
# Probing of virtio devices (`drivers/common/virtio.c`, `drivers/common/manager.c`, `drivers/virtio/virtio_mmio.c`)

Devices are named by their addresses. What a driver meets when it probes a device is part of the device: whether
the device tree gives a register, whether it can be mapped, what the register says, and what the driver of the
particular type returns.
-/

namespace KaworuOS

/-- `DeviceState`. -/
inductive DeviceState
  | discovered
  | ready
  | failed
  deriving DecidableEq, Repr

/-- `VirtDeviceID`. The memory balloon and the SCSI host have the same number. -/
inductive VirtDeviceId
  | unknown
  | network
  | block
  | console
  | entropy
  | memoryBalloon
  deriving DecidableEq, Repr

/-- `get_device_id`. -/
def getDeviceId : Nat → VirtDeviceId
  | 1 => .network
  | 2 => .block
  | 3 => .console
  | 4 => .entropy
  | 5 => .memoryBalloon
  | _ => .unknown

/-- `device_id_to_device_class`. -/
def deviceIdToDeviceClass : VirtDeviceId → DeviceClass
  | .network => .network
  | .block => .block
  | .console => .console
  | .entropy => .entropy
  | .memoryBalloon | .unknown => .unknown

/-- A virtio-mmio device as `virtio_mmio_probe` finds it: the results of `fdt_get_reg` and `vm_mmio_map`, the register
`VIRTIO_OFFSET_DEVICEID`, and the result of `virtio_blk_probe`. -/
structure VirtioTransport where
  hasReg : Bool
  mapped : Bool
  deviceId : Nat
  blkProbe : Errno
  deriving DecidableEq, Repr

/-- `Driver`: the one of virtio-mmio, or another one with its class and what its `probe` returns. -/
inductive Driver
  | virtioMmio (transport : VirtioTransport)
  | other (deviceClass : DeviceClass) (probe : Errno)
  deriving DecidableEq, Repr

/-- `driver->device_class`. -/
def Driver.deviceClass : Driver → DeviceClass
  | virtioMmio _ => .virtioMmioDevice
  | other deviceClass _ => deviceClass

/-- The fields of `Device` that the driver manager uses. -/
structure ManagedDevice where
  cls : DeviceClass
  state : DeviceState
  driver : Driver
  deriving DecidableEq, Repr

/-- `DriverManager`, whose list holds no device twice, and the variables of `virtio_mmio.c`. The devices that
`dmanager_ready_device` has been called for are `readied`. -/
structure DriverManager where
  deviceList : List Nat
  nodup : deviceList.Nodup
  device : Nat → ManagedDevice
  claimed : VirtDeviceId → Bool
  virtioDevicesIndex : Nat
  readied : List Nat

namespace DriverManager

/-- `device->class = class`. -/
def setClass (m : DriverManager) (d : Nat) (cls : DeviceClass) : DriverManager :=
  { m with device := Function.update m.device d { m.device d with cls := cls } }

/-- `device->state = state`. -/
def setState (m : DriverManager) (d : Nat) (state : DeviceState) : DriverManager :=
  { m with device := Function.update m.device d { m.device d with state := state } }

end DriverManager

/-- `virtio_mmio_probe`. -/
def virtioMmioProbe (m : DriverManager) (d : Nat) (transport : VirtioTransport) : Errno × DriverManager :=
  if !transport.hasReg then (.ENODEV, m)
  else if !transport.mapped then (.ENOMEM, m)
  else
    let deviceId := getDeviceId transport.deviceId
    if deviceId = .unknown then (.ENODEV, m)
    else if m.claimed deviceId then (.ENODEV, m)
    else
      let m := { m with claimed := Function.update m.claimed deviceId true }
      let m := m.setClass d (deviceIdToDeviceClass deviceId)
      match (m.device d).cls with
      | .block =>
        (transport.blkProbe, { m with virtioDevicesIndex := (m.virtioDevicesIndex + 1) % 2 ^ 32 })
      | _ => (.ENODEV, m)

/-- `device->driver->probe(device)`. -/
def Driver.probe (m : DriverManager) (d : Nat) : Driver → Errno × DriverManager
  | virtioMmio transport => virtioMmioProbe m d transport
  | other _ errno => (errno, m)

/-- `dmanager_ready_device`. -/
def dmanagerReadyDevice (m : DriverManager) (d : Nat) : Errno × DriverManager :=
  let m := { m with readied := m.readied ++ [d] }
  if (m.device d).state = .ready then (.EOK, m)
  else if (m.device d).driver.deviceClass = .unknown then (.ENODEV, m)
  else
    let (ret, m) := (m.device d).driver.probe m d
    if ret = .EOK then (ret, m.setState d .ready) else (ret, m)

/-- The loop of `dmanager_get_by_class_skip`. -/
def getByClassLoop (device : Nat → ManagedDevice) (cls : DeviceClass) (skip : Nat) :
    List Nat → Nat → Except Errno Nat
  | [], _ => .error .ENOENT
  | curr :: rest, count =>
    if (device curr).cls = cls then
      if count + 1 = skip + 1 then .ok curr else getByClassLoop device cls skip rest (count + 1)
    else getByClassLoop device cls skip rest count

/-- `dmanager_get_by_class_skip`. -/
def dmanagerGetByClassSkip (m : DriverManager) (cls : DeviceClass) (skip : Nat) : Except Errno Nat :=
  getByClassLoop m.device cls skip m.deviceList 0

/-- The loop of `virtio_init`. -/
def virtioInitLoop : Nat → Nat → DriverManager → Except Halt DriverManager
  | 0, _, _ => .error .hang
  | fuel + 1, count, m =>
    match dmanagerGetByClassSkip m .virtioMmioDevice count with
    | .error _ => .ok m
    | .ok device =>
      let (_, m) := dmanagerReadyDevice m device
      virtioInitLoop fuel (count + 1) m

/-- `virtio_init`, which does not go round more often than there are devices. -/
def virtioInit (m : DriverManager) : Except Halt DriverManager := virtioInitLoop (m.deviceList.length + 1) 0 m

end KaworuOS
