import Mathlib.Data.Fintype.Basic
import Mathlib.Logic.Function.Basic
import ThistleOS.Bytes
import ThistleOS.Component
import ThistleOS.CString
import ThistleOS.EspErr
import ThistleOS.Slots
import ThistleOS.StableSort

/-!
# The BLE scanner

The scanner keeps a table of the devices whose advertising reports it has seen. A report is a list of
fields, each with its length and its type before its data, as the device that is not trusted sent it.
-/

namespace ThistleOS.BleScan

def maxDevices : ℕ := 32

def maxNameLen : ℕ := 32

def maxAdvLen : ℕ := 31

def maxServices : ℕ := 8

abbrev Addr := Vector UInt8 6

abbrev Uuid := Vector UInt8 16

/-! ### Devices -/

/-- The services are the used part of the array. -/
structure BleDevice where
  addr : Addr
  addrType : UInt8
  name : Arr maxNameLen
  nameLen : ℕ
  rssi : Int8
  services : List Uuid
  mfgData : Arr maxAdvLen
  mfgLen : ℕ
  companyId : UInt16
  lastSeen : UInt32
  seenCount : UInt32
  connectable : Bool

/-- The array with `src` written over its start. -/
def overwrite {n : ℕ} (src : List UInt8) (a : Arr n) : Arr n := fun i => src.getD i (a i)

namespace BleDevice

def new : BleDevice where
  addr := .replicate 6 0
  addrType := 0
  name := .zero
  nameLen := 0
  rssi := -127
  services := []
  mfgData := .zero
  mfgLen := 0
  companyId := 0
  lastSeen := 0
  seenCount := 0
  connectable := false

end BleDevice

/-! ### Advertising data -/

/-- A 16-bit UUID at the start of the data, with the Bluetooth base UUID around it. -/
def uuid16 (data : List UInt8) : Uuid :=
  #v[0xFB, 0x34, 0x9B, 0x5F, 0x80, 0x00, 0x00, 0x80, 0x00, 0x10, 0x00, 0x00, data.getD 0 0, data.getD 1 0, 0x00, 0x00]

def uuid128 (data : List UInt8) : Uuid := .ofFn fun i => data.getD i 0

/-- Store the UUIDs of the data, each of `last + 1` bytes, while there is room. -/
def storeUuids (last : ℕ) (uuid : List UInt8 → Uuid) (data : List UInt8) (services : List Uuid) : List Uuid :=
  if last < data.length ∧ services.length < maxServices then
    storeUuids last uuid (data.drop (last + 1)) (services ++ [uuid data])
  else services
termination_by data.length
decreasing_by simp only [List.length_drop]; omega

def isUuid16 (adType : UInt8) : Bool := adType == 0x02 || adType == 0x03

def isUuid128 (adType : UInt8) : Bool := adType == 0x06 || adType == 0x07

def isName (adType : UInt8) : Bool := adType == 0x08 || adType == 0x09

namespace BleDevice

/-- A complete name, or one that is longer. -/
def storeName (adType : UInt8) (data : List UInt8) (device : BleDevice) : BleDevice :=
  let nameLen := min data.length maxNameLen
  if adType == 0x09 || decide (device.nameLen < nameLen) then
    { device with
      name := overwrite (data.take nameLen ++ if nameLen < maxNameLen then [0] else []) device.name
      nameLen }
  else device

def storeMfgData (data : List UInt8) (device : BleDevice) : BleDevice :=
  match data with
  | lo :: hi :: payload =>
    let mfgPayloadLen := min payload.length maxAdvLen
    { device with
      companyId := lo.toUInt16 ||| hi.toUInt16 <<< 8
      mfgData := overwrite (payload.take mfgPayloadLen) device.mfgData
      mfgLen := mfgPayloadLen }
  | [lo] => { device with companyId := lo.toUInt16 }
  | [] => device

/-- What a field says of the device. -/
def store (adType : UInt8) (data : List UInt8) (device : BleDevice) : BleDevice :=
  if isUuid16 adType then { device with services := storeUuids 1 uuid16 data device.services }
  else if isUuid128 adType then { device with services := storeUuids 15 uuid128 data device.services }
  else if isName adType then device.storeName adType data
  else if adType == 0xFF then device.storeMfgData data
  else device

end BleDevice

/-- The loop over the fields, which stops at one that is truncated. The length of a field counts its
type. -/
def parseAdvData (raw : List UInt8) (device : BleDevice) : BleDevice :=
  match raw with
  | [] => device
  | fieldLen :: rest =>
    if fieldLen = 0 then parseAdvData rest device
    else if rest.length < fieldLen.toNat then device
    else
      parseAdvData (rest.drop fieldLen.toNat) (device.store (rest.getD 0 0) ((rest.take fieldLen.toNat).drop 1))
termination_by raw.length
decreasing_by all_goals simp only [List.length_drop, List.length_cons]; omega

/-- An advertising report of the controller. -/
structure Report where
  advType : UInt8
  addrType : UInt8
  addr : Addr
  rssi : Int8
  data : List UInt8

/-- The device of the scan callback. -/
def Report.device (r : Report) : BleDevice :=
  let dev : BleDevice := { BleDevice.new with
    addr := r.addr
    addrType := r.addrType
    rssi := r.rssi
    connectable := r.advType == 0 || r.advType == 1 }
  if 0 < r.data.length ∧ r.data.length ≤ maxAdvLen then parseAdvData r.data dev else dev

/-! ### The table -/

/-- A table that has not been allocated is empty. -/
structure BleScanner where
  devices : List (Option BleDevice)
  deviceCount : ℕ
  filterRssi : Int8
  filterName : Arr maxNameLen
  filterNameLen : ℕ
  totalAdvSeen : UInt32

def toAsciiLowercase (b : UInt8) : UInt8 := if 65 ≤ b ∧ b ≤ 90 then b + 32 else b

/-- Merge services, without those that are there. -/
def mergeServices (services : List Uuid) : List Uuid → List Uuid
  | [] => services
  | service :: rest =>
    if maxServices ≤ services.length then services
    else mergeServices (if services.contains service then services else services ++ [service]) rest

/-- Update a device that is there. -/
def BleDevice.update (newDev dev : BleDevice) : BleDevice :=
  { dev with
    rssi := newDev.rssi
    lastSeen := newDev.lastSeen
    seenCount := dev.seenCount + 1
    name := if dev.nameLen < newDev.nameLen then newDev.name else dev.name
    nameLen := if dev.nameLen < newDev.nameLen then newDev.nameLen else dev.nameLen
    services := mergeServices dev.services newDev.services
    mfgData := if 0 < newDev.mfgLen then newDev.mfgData else dev.mfgData
    mfgLen := if 0 < newDev.mfgLen then newDev.mfgLen else dev.mfgLen
    companyId := if 0 < newDev.mfgLen then newDev.companyId else dev.companyId
    connectable := newDev.connectable }

/-- The index and the signal of the weakest device so far, from slot `i` on. -/
def weakestFrom (i : ℕ) (weakest : Option ℕ × Int8) : List (Option BleDevice) → Option ℕ × Int8
  | [] => weakest
  | none :: slots => weakestFrom (i + 1) weakest slots
  | some dev :: slots =>
    weakestFrom (i + 1) (if dev.rssi < weakest.2 then (some i, dev.rssi) else weakest) slots

namespace BleScanner

def new : BleScanner := ⟨List.replicate maxDevices none, 0, -127, .zero, 0, 0⟩

def clearDevices (s : BleScanner) : BleScanner :=
  { s with devices := List.replicate maxDevices none, deviceCount := 0, totalAdvSeen := 0 }

def findByAddr (addr : Addr) (s : BleScanner) : Option ℕ :=
  s.devices.findIdx? fun slot => slot.any fun dev => dev.addr == addr

def findEmptySlot (s : BleScanner) : Option ℕ := s.devices.findIdx? Option.isNone

def findWeakestRssiIndex (s : BleScanner) : Option ℕ := (weakestFrom 0 (none, 127) s.devices).1

/-- The filters. -/
def accepts (newDev : BleDevice) (s : BleScanner) : Bool :=
  !decide (newDev.rssi < s.filterRssi) &&
    (s.filterNameLen == 0 ||
      decide (s.filterNameLen ≤ newDev.nameLen) &&
        ((s.filterName.bytes.take s.filterNameLen).zip (newDev.name.bytes.take s.filterNameLen)).all fun ab =>
          toAsciiLowercase ab.1 == toAsciiLowercase ab.2)

def insertAt (idx : ℕ) (newDev : BleDevice) (s : BleScanner) : BleScanner :=
  { s with
    devices := s.devices.set idx (some { newDev with seenCount := 1 })
    deviceCount := s.deviceCount + 1 }

def evict (idx : ℕ) (s : BleScanner) : BleScanner :=
  { s with devices := s.devices.set idx none, deviceCount := s.deviceCount - 1 }

/-- Insert a device, in the place of the weakest one if there is no free slot. -/
def insertNew (newDev : BleDevice) (s : BleScanner) : BleScanner :=
  match s.findEmptySlot with
  | some idx => s.insertAt idx newDev
  | none =>
    match s.findWeakestRssiIndex with
    | some idx => (s.evict idx).insertAt idx newDev
    | none => s

def processAdvReport (newDev : BleDevice) (s : BleScanner) : BleScanner :=
  let s := { s with totalAdvSeen := s.totalAdvSeen + 1 }
  if s.accepts newDev then
    match s.findByAddr newDev.addr with
    | some idx => { s with devices := s.devices.modify idx (Option.map newDev.update) }
    | none => s.insertNew newDev
  else s

/-- The strongest signal first. -/
def rank (dev : BleDevice) : ℕ := (127 - dev.rssi.toInt).toNat

def sortByRssi (s : BleScanner) : BleScanner :=
  let sorted := StableSort.sortByKey rank s.devices.reduceOption
  { s with devices := sorted.map some ++ List.replicate (maxDevices - sorted.length) none }

def setRssiFilter (minRssi : Int8) (s : BleScanner) : BleScanner := { s with filterRssi := minRssi }

/-- A prefix that is not UTF-8 is refused. -/
def setNameFilter (pre : Option CStr) (s : BleScanner) : EspErr × BleScanner :=
  match pre with
  | none => (espOk, { s with filterNameLen := 0 })
  | some cstr =>
    match cstr.toStr with
    | none => (espErrInvalidArg, s)
    | some _ =>
      let len := min cstr.bytes.length maxNameLen
      (espOk, { s with filterName := overwrite (cstr.bytes.take len) s.filterName, filterNameLen := len })

def init (s : BleScanner) : BleScanner :=
  { s.clearDevices with filterRssi := -127, filterNameLen := 0 }

end BleScanner

/-! ### The calls -/

inductive Op
  | report (r : Report)
  | setRssiFilter (minRssi : Int8)
  | setNameFilter (pre : Option CStr)
  | sortByRssi
  | clear
  | init

open BleScanner in
def step : Op → BleScanner → EspErr × BleScanner
  | .report r, s => (0, s.processAdvReport r.device)
  | .setRssiFilter minRssi, s => (espOk, s.setRssiFilter minRssi)
  | .setNameFilter pre, s => s.setNameFilter pre
  | .sortByRssi, s => (espOk, s.sortByRssi)
  | .clear, s => (espOk, s.clearDevices)
  | .init, s => (espOk, s.init)

def bleScanner : Component Op (fun _ => EspErr) BleScanner := ⟨step⟩

end ThistleOS.BleScan
