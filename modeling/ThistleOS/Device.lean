import ThistleOS.EspErr
import ThistleOS.PowerLoss.Handler
import Mathlib.Logic.Function.Basic

/-!
# The device

What the programs of the device reach through ESP-IDF: the app partitions, the boot selector, the
security floor in NVS, the file that is open for reading, and the servers. Nothing is assumed about
what a reading gives when the environment disturbs it.
-/

open PowerLoss

namespace ThistleOS

/-- The app partitions of the partition table. -/
inductive Slot
  | factory
  | ota0
  | ota1
  deriving DecidableEq

/-- The OTA partition that follows the running one. -/
def Slot.nextUpdate : Slot → Slot
  | .factory => .ota0
  | .ota0 => .ota1
  | .ota1 => .ota0

/-- The states of an OTA image in `otadata`. -/
inductive ImgState
  | new
  | pendingVerify
  | valid
  | invalid
  | aborted
  | undefined
  deriving DecidableEq

structure Device where
  running : Slot
  boot : Slot
  image : Slot → List UInt8
  imgState : Slot → Option ImgState
  floor : Option UInt32
  /-- What is left to read of the open file. -/
  reader : List UInt8

namespace Device

def setImage (slot : Slot) (bytes : List UInt8) (dev : Device) : Device :=
  { dev with image := Function.update dev.image slot bytes }

/-- Record a partition as the one to boot. Its image has to be verified anew. -/
def select (slot : Slot) (dev : Device) : Device :=
  { dev with boot := slot, imgState := Function.update dev.imgState slot (some .new) }

def setFloor (floor : Option UInt32) (dev : Device) : Device := { dev with floor }

def setReader (reader : List UInt8) (dev : Device) : Device := { dev with reader }

end Device

inductive DeviceOp
  | getNextUpdatePartition
  | getBootPartition
  | getStatePartition (slot : Slot)
  | otaBegin (slot : Slot) (size : Nat)
  | otaWrite (slot : Slot) (data : List UInt8)
  | otaEnd (slot : Slot)
  | otaAbort (slot : Slot)
  | setBootPartition (slot : Slot)
  | nvsFlashInit
  | nvsFlashErase
  | nvsOpen
  | getSecurityVersion
  | setSecurityVersion (value : UInt32)
  | openFile (contents : List UInt8)
  | rewind (contents : List UInt8)
  | read (wanted : Nat)
  | httpOpen (url : String) (maxSize : Nat)
  | httpBody (url : String) (maxSize : Nat)

/-- A file is opened with the contents that the card has under its path; opening it also gives its
length. -/
def DeviceOp.Reply : DeviceOp → Type
  | .getNextUpdatePartition => Option Slot
  | .getBootPartition => Option Slot
  | .getStatePartition _ => Except EspErr ImgState
  | .otaBegin _ _ => EspErr
  | .otaWrite _ _ => EspErr
  | .otaEnd _ => EspErr
  | .otaAbort _ => EspErr
  | .setBootPartition _ => EspErr
  | .nvsFlashInit => EspErr
  | .nvsFlashErase => EspErr
  | .nvsOpen => Except String Unit
  | .getSecurityVersion => Except String (Option UInt32)
  | .setSecurityVersion _ => Except String Unit
  | .openFile _ => Except String Nat
  | .rewind _ => Except String Unit
  | .read _ => Except String (List UInt8)
  | .httpOpen _ _ => Except String Unit
  | .httpBody _ _ => Except String (List UInt8)

abbrev deviceSig : Sig := ⟨DeviceOp, DeviceOp.Reply⟩

/-- What the environment does to an operation: it makes the operation report a failure, it gives a
reading of its own, or it cuts the power. Some of the work may have been done. -/
inductive DeviceFault
  | fails (code : EspErr) (message : String) (bytes : List UInt8) (took : Bool)
  | answers (bytes : List UInt8) (size : Nat)
  | cutsPower (bytes : List UInt8) (took : Bool)

namespace Device

def perform : (o : DeviceOp) → Device → o.Reply × Device
  | .getNextUpdatePartition, dev => (some dev.running.nextUpdate, dev)
  | .getBootPartition, dev => (some dev.boot, dev)
  | .getStatePartition slot, dev =>
    (match dev.imgState slot with
      | some state => .ok state
      | none => .error espErrNotFound, dev)
  | .otaBegin slot _, dev => (espOk, dev.setImage slot [])
  | .otaWrite slot data, dev => (espOk, dev.setImage slot (dev.image slot ++ data))
  | .otaEnd _, dev => (espOk, dev)
  | .otaAbort _, dev => (espOk, dev)
  | .setBootPartition slot, dev => (espOk, dev.select slot)
  | .nvsFlashInit, dev => (espOk, dev)
  | .nvsFlashErase, dev => (espOk, dev.setFloor none)
  | .nvsOpen, dev => (.ok (), dev)
  | .getSecurityVersion, dev => (.ok dev.floor, dev)
  | .setSecurityVersion value, dev => (.ok (), dev.setFloor (some value))
  | .openFile contents, dev => (.ok contents.length, dev.setReader contents)
  | .rewind contents, dev => (.ok (), dev.setReader contents)
  | .read wanted, dev => (.ok (dev.reader.take wanted), dev.setReader (dev.reader.drop wanted))
  | .httpOpen _ _, dev => (.ok (), dev)
  | .httpBody _ _, dev => (.ok [], dev)

/-- What an operation that does not end well leaves behind. -/
def partly (bytes : List UInt8) (took : Bool) : DeviceOp → Device → Device
  | .otaBegin slot _, dev => dev.setImage slot bytes
  | .otaWrite slot _, dev => dev.setImage slot (dev.image slot ++ bytes)
  | .setBootPartition slot, dev => if took then dev.select slot else dev
  | .nvsFlashErase, dev => if took then dev.setFloor none else dev
  | .setSecurityVersion value, dev => if took then dev.setFloor (some value) else dev
  | _, dev => dev

/-- The code of an operation that does not succeed. -/
def failure (code : EspErr) : EspErr := if code = espOk then espFail else code

def failed (code : EspErr) (message : String) : (o : DeviceOp) → o.Reply
  | .getNextUpdatePartition => (none : Option Slot)
  | .getBootPartition => (none : Option Slot)
  | .getStatePartition _ => .error (failure code)
  | .otaBegin _ _ => failure code
  | .otaWrite _ _ => failure code
  | .otaEnd _ => failure code
  | .otaAbort _ => failure code
  | .setBootPartition _ => failure code
  | .nvsFlashInit => failure code
  | .nvsFlashErase => failure code
  | .nvsOpen => .error message
  | .getSecurityVersion => .error message
  | .setSecurityVersion _ => .error message
  | .openFile _ => .error message
  | .rewind _ => .error message
  | .read _ => .error message
  | .httpOpen _ _ => .error message
  | .httpBody _ _ => .error message

/-- A reading that the environment gives; a value that is to be stored is silently dropped. -/
def answered (bytes : List UInt8) (size : Nat) : (o : DeviceOp) → Device → o.Reply × Device
  | .setSecurityVersion _, dev => (.ok (), dev)
  | .openFile _, dev => (.ok size, dev.setReader bytes)
  | .read wanted, dev => (.ok (bytes.take wanted), dev)
  | .httpBody _ maxSize, dev => (.ok (bytes.take maxSize), dev)
  | o, dev => dev.perform o

def disturb (o : DeviceOp) (f : DeviceFault) (dev : Device) : Option o.Reply × Device :=
  match f with
  | .fails code message bytes took => (some (failed code message o), dev.partly bytes took o)
  | .answers bytes size => (some (dev.answered bytes size o).1, (dev.answered bytes size o).2)
  | .cutsPower bytes took => (none, dev.partly bytes took o)

end Device

def device : Machine deviceSig Device where
  Fault := DeviceFault
  perform o dev := dev.perform o
  disturb o f dev := dev.disturb o f

/-! ### Actions -/

section Actions

variable {ε : Type}

/-- Call an operation and return its reply. -/
def reply (o : DeviceOp) : Act ε deviceSig o.Reply :=
  ExceptT.mk (.call (S := deviceSig) o fun r => .pure (.ok r))

def getNextUpdatePartition : Act ε deviceSig (Option Slot) := reply .getNextUpdatePartition

def getBootPartition : Act ε deviceSig (Option Slot) := reply .getBootPartition

def getStatePartition (slot : Slot) : Act ε deviceSig (Except EspErr ImgState) :=
  reply (.getStatePartition slot)

def otaBegin (slot : Slot) (size : Nat) : Act ε deviceSig EspErr := reply (.otaBegin slot size)

def otaWrite (slot : Slot) (data : List UInt8) : Act ε deviceSig EspErr :=
  reply (.otaWrite slot data)

def otaEnd (slot : Slot) : Act ε deviceSig EspErr := reply (.otaEnd slot)

def otaAbort (slot : Slot) : Act ε deviceSig EspErr := reply (.otaAbort slot)

def setBootPartition (slot : Slot) : Act ε deviceSig EspErr := reply (.setBootPartition slot)

def nvsFlashInit : Act ε deviceSig EspErr := reply .nvsFlashInit

def nvsFlashErase : Act ε deviceSig EspErr := reply .nvsFlashErase

def nvsOpen : Act ε deviceSig (Except String Unit) := reply .nvsOpen

def openFile (contents : List UInt8) : Act ε deviceSig (Except String Nat) :=
  reply (.openFile contents)

def rewind (contents : List UInt8) : Act ε deviceSig (Except String Unit) :=
  reply (.rewind contents)

def readSome (wanted : Nat) : Act ε deviceSig (Except String (List UInt8)) := reply (.read wanted)

def httpOpen (url : String) (maxSize : Nat) : Act ε deviceSig (Except String Unit) :=
  reply (.httpOpen url maxSize)

def httpBody (url : String) (maxSize : Nat) : Act ε deviceSig (Except String (List UInt8)) :=
  reply (.httpBody url maxSize)

/-- Return the value of a reply, or throw its error. -/
def orThrow {α : Type} (x : Act ε deviceSig (Except ε α)) : Act ε deviceSig α := do
  match ← x with
  | .ok a => return a
  | .error e => throw e

end Actions

/-! ### What an operation may change -/

namespace Device

/-- The operation puts bytes into a partition. -/
def Writes (slot : Slot) (o : DeviceOp) : Prop :=
  (∃ size, o = .otaBegin slot size) ∨ ∃ data, o = .otaWrite slot data

/-- Everything that an operation may do to the device. -/
structure Moves (o : DeviceOp) (dev dev' : Device) : Prop where
  running : dev'.running = dev.running
  floor : dev'.floor = dev.floor ∨ (∃ value, o = .setSecurityVersion value ∧ dev'.floor = some value) ∨
    (o = .nvsFlashErase ∧ dev'.floor = none)
  image : ∀ slot, dev'.image slot = dev.image slot ∨ Writes slot o
  selected : (dev'.boot = dev.boot ∧ dev'.imgState = dev.imgState) ∨
    ∃ slot, o = .setBootPartition slot ∧ dev'.boot = slot ∧ dev'.imgState slot = some .new

lemma Moves.refl (o : DeviceOp) (dev : Device) : Moves o dev dev :=
  ⟨rfl, .inl rfl, fun _ => .inl rfl, .inl ⟨rfl, rfl⟩⟩

lemma moves_setReader (o : DeviceOp) (dev : Device) (reader : List UInt8) :
    Moves o dev (dev.setReader reader) :=
  ⟨rfl, .inl rfl, fun _ => .inl rfl, .inl ⟨rfl, rfl⟩⟩

lemma moves_setImage {o : DeviceOp} {slot : Slot} (ho : Writes slot o) (dev : Device)
    (bytes : List UInt8) : Moves o dev (dev.setImage slot bytes) where
  running := rfl
  floor := .inl rfl
  image slot' := by
    by_cases hslot : slot' = slot
    · exact .inr (hslot ▸ ho)
    · exact .inl (Function.update_of_ne hslot _ _)
  selected := .inl ⟨rfl, rfl⟩

lemma moves_select (slot : Slot) (dev : Device) :
    Moves (.setBootPartition slot) dev (dev.select slot) :=
  ⟨rfl, .inl rfl, fun _ => .inl rfl, .inr ⟨slot, rfl, rfl, Function.update_self _ _ _⟩⟩

lemma moves_setFloor (value : UInt32) (dev : Device) :
    Moves (.setSecurityVersion value) dev (dev.setFloor (some value)) :=
  ⟨rfl, .inr (.inl ⟨value, rfl, rfl⟩), fun _ => .inl rfl, .inl ⟨rfl, rfl⟩⟩

lemma moves_erase (dev : Device) : Moves .nvsFlashErase dev (dev.setFloor none) :=
  ⟨rfl, .inr (.inr ⟨rfl, rfl⟩), fun _ => .inl rfl, .inl ⟨rfl, rfl⟩⟩

lemma moves_perform (o : DeviceOp) (dev : Device) : Moves o dev (dev.perform o).2 := by
  cases o with
  | otaBegin slot size => exact moves_setImage (.inl ⟨size, rfl⟩) dev []
  | otaWrite slot data => exact moves_setImage (.inr ⟨data, rfl⟩) dev _
  | setBootPartition slot => exact moves_select slot dev
  | nvsFlashErase => exact moves_erase dev
  | setSecurityVersion value => exact moves_setFloor value dev
  | openFile contents => exact moves_setReader _ dev _
  | rewind contents => exact moves_setReader _ dev _
  | read wanted => exact moves_setReader _ dev _
  | _ => exact .refl _ dev

lemma moves_partly (bytes : List UInt8) (took : Bool) (o : DeviceOp) (dev : Device) :
    Moves o dev (dev.partly bytes took o) := by
  cases o with
  | otaBegin slot size => exact moves_setImage (.inl ⟨size, rfl⟩) dev bytes
  | otaWrite slot data => exact moves_setImage (.inr ⟨data, rfl⟩) dev _
  | setBootPartition slot =>
    cases took with
    | true => exact moves_select slot dev
    | false => exact .refl _ dev
  | nvsFlashErase =>
    cases took with
    | true => exact moves_erase dev
    | false => exact .refl _ dev
  | setSecurityVersion value =>
    cases took with
    | true => exact moves_setFloor value dev
    | false => exact .refl _ dev
  | _ => exact .refl _ dev

lemma moves_answered (bytes : List UInt8) (size : Nat) (o : DeviceOp) (dev : Device) :
    Moves o dev (dev.answered bytes size o).2 := by
  cases o with
  | setSecurityVersion value => exact .refl _ dev
  | openFile contents => exact moves_setReader _ dev bytes
  | read wanted => exact .refl _ dev
  | httpBody url maxSize => exact .refl _ dev
  | _ => exact moves_perform _ dev

/-- What an operation does, whatever the environment does to it. -/
theorem moves_exec (o : DeviceOp) (c : Option DeviceFault) (dev : Device) :
    Moves o dev (device.exec o c dev).2 := by
  rcases c with _ | ⟨code, message, bytes, took⟩ | ⟨bytes, size⟩ | ⟨bytes, took⟩
  · exact moves_perform o dev
  · exact moves_partly bytes took o dev
  · exact moves_answered bytes size o dev
  · exact moves_partly bytes took o dev

end Device

/-! ### The log -/

/-- What the history of a device is judged by: the partitions that are written, and the image and
the floor that a selection finds. -/
inductive Event
  | writing (slot : Slot)
  | selecting (slot : Slot) (image : List UInt8) (floor : Option UInt32)

def event : DeviceOp → Device → List Event
  | .otaBegin slot _, _ => [.writing slot]
  | .otaWrite slot _, _ => [.writing slot]
  | .setBootPartition slot, dev => [.selecting slot (dev.image slot) dev.floor]
  | _, _ => []

/-- The device with its log. -/
abbrev Logged := Device × List Event

def loggedDevice : Machine deviceSig Logged := device.logged event

end ThistleOS
