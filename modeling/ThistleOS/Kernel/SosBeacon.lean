import ThistleOS.BigEndian
import ThistleOS.Bytes
import ThistleOS.Component
import ThistleOS.EspErr
import ThistleOS.Text

/-!
# The SOS beacon

The packets that an emergency beacon sends and the decoder for them. Floating-point numbers are their bit
patterns.
-/

namespace ThistleOS.Sos

/-- The bytes of `SOS!`. -/
def sosMagic : List UInt8 := [0x53, 0x4F, 0x53, 0x21]

def sosProtocolVersion : UInt8 := 1

def sosMessageMax : ℕ := 64

def sosPacketSize : ℕ := 109

inductive SosStatus
  | active
  | moving
  | immobile
  | medical
  | cancel
  | test
  deriving DecidableEq

namespace SosStatus

def toU8 : SosStatus → UInt8
  | active => 0
  | moving => 1
  | immobile => 2
  | medical => 3
  | cancel => 4
  | test => 5

def fromU8 (v : UInt8) : Option SosStatus :=
  match v.toNat with
  | 0 => some active
  | 1 => some moving
  | 2 => some immobile
  | 3 => some medical
  | 4 => some cancel
  | 5 => some test
  | _ => none

end SosStatus

/-! ### CRC-16/CCITT-FALSE -/

def crc16Bit (crc : UInt16) : UInt16 := if crc &&& 0x8000 ≠ 0 then (crc <<< 1) ^^^ 0x1021 else crc <<< 1

/-- The inner loop, eight times. -/
def crc16Byte (crc : UInt16) (byte : UInt8) : UInt16 := crc16Bit^[8] (crc ^^^ byte.toUInt16 <<< 8)

def crc16Ccitt (data : List UInt8) : UInt16 := data.foldl crc16Byte 0xFFFF

/-! ### Messages -/

structure SosMessage where
  magic : Arr 4
  version : UInt8
  sequence : UInt16
  deviceId : Arr 8
  timestamp : UInt32
  latitude : UInt64
  longitude : UInt64
  altitudeM : UInt32
  satellites : UInt8
  batteryPct : UInt8
  status : SosStatus
  messageLen : UInt8
  message : Arr sosMessageMax
  checksum : UInt16

namespace SosMessage

/-- Everything that precedes the checksum. -/
def fields (m : SosMessage) : List UInt8 :=
  m.magic.bytes ++ ([m.version] ++ (BigEndian.encode 2 m.sequence.toNat ++ (m.deviceId.bytes ++
    (BigEndian.encode 4 m.timestamp.toNat ++ (BigEndian.encode 8 m.latitude.toNat ++
    (BigEndian.encode 8 m.longitude.toNat ++ (BigEndian.encode 4 m.altitudeM.toNat ++ ([m.satellites] ++
    ([m.batteryPct] ++ ([m.status.toU8] ++ ([m.messageLen] ++ m.message.bytes)))))))))))

def toBytes (m : SosMessage) : List UInt8 := m.fields ++ BigEndian.encode 2 (crc16Ccitt m.fields).toNat

/-- `n` bytes from an offset on. -/
def slice (data : List UInt8) (off n : ℕ) : List UInt8 := (data.drop off).take n

def fromBytes (data : List UInt8) : Except EspErr SosMessage :=
  if data.length < sosPacketSize then .error espErrInvalidArg
  else if slice data 0 4 ≠ sosMagic then .error espErrInvalidArg
  else
    let payload := data.take (sosPacketSize - 2)
    let storedCrc := UInt16.ofNat (BigEndian.decode (slice data (sosPacketSize - 2) 2))
    if crc16Ccitt payload ≠ storedCrc then .error espFail
    else
      let off := 0
      let magic := Arr.ofSlice (slice data off 4)
      let off := off + 4
      let version := data.getD off 0
      let off := off + 1
      let sequence := UInt16.ofNat (BigEndian.decode (slice data off 2))
      let off := off + 2
      let deviceId := Arr.ofSlice (slice data off 8)
      let off := off + 8
      let timestamp := UInt32.ofNat (BigEndian.decode (slice data off 4))
      let off := off + 4
      let latitude := UInt64.ofNat (BigEndian.decode (slice data off 8))
      let off := off + 8
      let longitude := UInt64.ofNat (BigEndian.decode (slice data off 8))
      let off := off + 8
      let altitudeM := UInt32.ofNat (BigEndian.decode (slice data off 4))
      let off := off + 4
      let satellites := data.getD off 0
      let off := off + 1
      let batteryPct := data.getD off 0
      let off := off + 1
      let statusRaw := data.getD off 0
      let off := off + 1
      match SosStatus.fromU8 statusRaw with
      | none => .error espErrInvalidArg
      | some status =>
        let messageLen := data.getD off 0
        let off := off + 1
        let message := Arr.ofSlice (slice data off sosMessageMax)
        let off := off + sosMessageMax
        let checksum := UInt16.ofNat (BigEndian.decode (slice data off 2))
        .ok {
          magic, version, sequence, deviceId, timestamp, latitude, longitude, altitudeM, satellites, batteryPct
          status, messageLen, message, checksum }

end SosMessage

/-! ### The beacon -/

/-- The part of a GPS fix that the beacon takes. -/
structure HalGpsPosition where
  latitude : UInt64
  longitude : UInt64
  altitudeM : UInt32
  satellites : UInt8
  timestamp : UInt32

structure SosBeacon where
  deviceId : Arr 8
  active : Bool
  status : Option SosStatus
  sequence : UInt16
  packetsSent : UInt32
  latitude : UInt64
  longitude : UInt64
  altitudeM : UInt32
  satellites : UInt8
  batteryPct : UInt8
  timestamp : UInt32
  message : Arr sosMessageMax
  messageLen : UInt8
  activationTimestamp : Option UInt32

namespace SosBeacon

def new (deviceId : Arr 8) : SosBeacon :=
  ⟨deviceId, false, none, 0, 0, 0, 0, 0, 0, 0, 0, .zero, 0, none⟩

/-- A message is truncated to 64 bytes. -/
def setMessage (msg : String) (s : SosBeacon) : SosBeacon :=
  let len := min (utf8 msg).length sosMessageMax
  { s with message := .ofSlice ((utf8 msg).take len), messageLen := .ofNat len }

def cancel (s : SosBeacon) : Except EspErr Unit × SosBeacon :=
  if !s.active then (.error espErrInvalidState, s)
  else (.ok (), { s with status := some .cancel })

def activate (status : SosStatus) (message : Option String) (s : SosBeacon) : Except EspErr Unit × SosBeacon :=
  if s.active && status != .cancel then (.error espErrInvalidState, s)
  else if status == .cancel then s.cancel
  else
    let s := { s with
      active := true
      status := some status
      sequence := 0
      activationTimestamp := some s.timestamp }
    match message with
    | some msg => (.ok (), s.setMessage msg)
    | none => (.ok (), { s with message := .zero, messageLen := 0 })

def updatePosition (pos : HalGpsPosition) (s : SosBeacon) : SosBeacon :=
  { s with
    latitude := pos.latitude
    longitude := pos.longitude
    altitudeM := pos.altitudeM
    satellites := pos.satellites
    timestamp := pos.timestamp }

def updateBattery (pct : UInt8) (s : SosBeacon) : SosBeacon :=
  { s with batteryPct := if 100 < pct then 100 else pct }

/-- What the next packet says. -/
def nextMessage (s : SosBeacon) : SosMessage where
  magic := .ofSlice sosMagic
  version := sosProtocolVersion
  sequence := s.sequence
  deviceId := s.deviceId
  timestamp := s.timestamp
  latitude := s.latitude
  longitude := s.longitude
  altitudeM := s.altitudeM
  satellites := s.satellites
  batteryPct := s.batteryPct
  status := s.status.getD .active
  messageLen := s.messageLen
  message := s.message
  checksum := 0

/-- A beacon that is not active has no packet. The packet of a cancellation is the last one. -/
def nextPacket (s : SosBeacon) : Option (List UInt8) × SosBeacon :=
  if !s.active then (none, s)
  else
    let bytes := s.nextMessage.toBytes
    let s := { s with sequence := s.sequence + 1, packetsSent := s.packetsSent + 1 }
    if s.status = some .cancel then
      (some bytes, { s with active := false, status := none, activationTimestamp := none })
    else (some bytes, s)

end SosBeacon

/-! ### The calls -/

inductive Op
  | activate (status : SosStatus) (message : Option String)
  | cancel
  | updatePosition (pos : HalGpsPosition)
  | updateBattery (pct : UInt8)
  | setMessage (msg : String)
  | nextPacket

def Reply : Op → Type
  | .activate _ _ | .cancel => Except EspErr Unit
  | .nextPacket => Option (List UInt8)
  | _ => Unit

open SosBeacon in
def step : (o : Op) → SosBeacon → Reply o × SosBeacon
  | .activate status message, s => s.activate status message
  | .cancel, s => s.cancel
  | .updatePosition pos, s => ((), s.updatePosition pos)
  | .updateBattery pct, s => ((), s.updateBattery pct)
  | .setMessage msg, s => ((), s.setMessage msg)
  | .nextPacket, s => s.nextPacket

def sosBeacon : Component Op Reply SosBeacon := ⟨step⟩

end ThistleOS.Sos
