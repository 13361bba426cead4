import ThistleOS.Bytes
import ThistleOS.Component
import ThistleOS.EspErr
import ThistleOS.Kernel.MsgQueue
import ThistleOS.Recovery.ArtifactManifest

/-!
# The contact manager

The address book, the file that it is written to and the vCards that are read into it. Its helpers
for JSON and base64 are those of the message queue. The arithmetic of the kernel wraps.
-/

open ThistleOS.MsgQueue

namespace ThistleOS.Contacts

def maxContacts : Nat := 128

structure Contact where
  id : UInt32
  name : Text
  callsign : Text
  deviceId : UInt32
  phone : Text
  bleAddr : Text
  publicKey : Arr 32
  notes : Text
  isEmergency : Bool
  createdAt : UInt32
  updatedAt : UInt32

def jsonGetBool (json key : Text) : Option Bool := do
  let value ← jsonValue json key
  if "true".toList.isPrefixOf value then some true
  else if "false".toList.isPrefixOf value then some false
  else none

def boolText (b : Bool) : Text := if b then "true".toList else "false".toList

namespace Contact

def new (id : UInt32) (name : Text) : Contact where
  id := id
  name := name
  callsign := []
  deviceId := 0
  phone := []
  bleAddr := []
  publicKey := .zero
  notes := []
  isEmergency := false
  createdAt := 0
  updatedAt := 0

def toJson (c : Contact) : Text :=
  "\x7b\"id\":".toList ++ decimal c.id.toNat ++
  ",\"name\":\"".toList ++ jsonEscape c.name ++
  "\",\"callsign\":\"".toList ++ jsonEscape c.callsign ++
  "\",\"device_id\":".toList ++ decimal c.deviceId.toNat ++
  ",\"phone\":\"".toList ++ jsonEscape c.phone ++
  "\",\"ble_addr\":\"".toList ++ jsonEscape c.bleAddr ++
  "\",\"public_key\":\"".toList ++ base64Encode c.publicKey.bytes ++
  "\",\"notes\":\"".toList ++ jsonEscape c.notes ++
  "\",\"is_emergency\":".toList ++ boolText c.isEmergency ++
  ",\"created_at\":".toList ++ decimal c.createdAt.toNat ++
  ",\"updated_at\":".toList ++ decimal c.updatedAt.toNat ++ "\x7d".toList

/-- The key that decoded bytes make, if there are enough of them. -/
def keyOf (text : Option Text) : Arr 32 :=
  match text with
  | none => .zero
  | some s =>
    if s = [] then .zero
    else
      match base64Decode s with
      | none => .zero
      | some decoded => if 32 ≤ decoded.length then .ofSlice (decoded.take 32) else .zero

def fromJson (json : Text) : Option Contact := do
  let id ← jsonGetInt json "id".toList
  let name ← jsonGetString json "name".toList
  if name = [] then none
  else
    some {
      id := asU32 id
      name := name
      callsign := (jsonGetString json "callsign".toList).getD []
      deviceId := asU32 ((jsonGetInt json "device_id".toList).getD 0)
      phone := (jsonGetString json "phone".toList).getD []
      bleAddr := (jsonGetString json "ble_addr".toList).getD []
      publicKey := keyOf (jsonGetString json "public_key".toList)
      notes := (jsonGetString json "notes".toList).getD []
      isEmergency := (jsonGetBool json "is_emergency".toList).getD false
      createdAt := asU32 ((jsonGetInt json "created_at".toList).getD 0)
      updatedAt := asU32 ((jsonGetInt json "updated_at".toList).getD 0) }

/-! ### vCards -/

/-- The lines of a text, without the carriage returns at their ends. -/
def lines (data : Text) : List Text :=
  let pieces := data.splitOn '\n'
  let pieces := if pieces.getLast? = some [] then pieces.dropLast else pieces
  pieces.map fun line => line.rdropWhile (· == '\r')

def parseU32 (s : Text) : Option UInt32 :=
  (ArtifactManifest.parseDecimal 0x100000000 (String.ofList s)).map UInt32.ofNat

def readNotePart (c : Contact) (part : Text) : Contact :=
  match part.dropPrefix? "device_id=".toList with
  | some v => { c with deviceId := (parseU32 v).getD 0 }
  | none =>
    match part.dropPrefix? "ble_addr=".toList with
    | some v => { c with bleAddr := v }
    | none =>
      match part.dropPrefix? "emergency=".toList with
      | some v => { c with isEmergency := v == "true".toList }
      | none => c

def readKey (c : Contact) (value : Text) : Contact :=
  match base64Decode (trim value) with
  | none => c
  | some decoded =>
    if 32 ≤ decoded.length then { c with publicKey := .ofSlice (decoded.take 32) } else c

def readLine (c : Contact) (line : Text) : Contact :=
  match line.dropPrefix? "FN:".toList with
  | some value => { c with name := value }
  | none =>
    match line.dropPrefix? "NICKNAME:".toList with
    | some value => { c with callsign := value }
    | none =>
      match line.dropPrefix? "TEL:".toList with
      | some value => { c with phone := value }
      | none =>
        match line.dropPrefix? "NOTE:".toList with
        | some value => (value.splitOn ';').foldl readNotePart c
        | none =>
          match line.dropPrefix? "KEY;ENCODING=BASE64:".toList with
          | some value => readKey c value
          | none => c

/-- The manager assigns the id. -/
def fromVcard (data : Text) : Option Contact :=
  let c := (lines data).foldl readLine (new 0 [])
  if c.name = [] then none else some c

end Contact

/-! ### C structures -/

structure CContactInfo where
  id : UInt32
  name : Arr 64
  callsign : Arr 16
  deviceId : UInt32
  phone : Arr 24
  bleAddr : Arr 24
  publicKey : Arr 32
  isEmergency : Bool

/-- The first byte of `bs`, or zero, is a continuation byte in the range. -/
def nextIn (low high : UInt8) (bs : List UInt8) : Bool :=
  low ≤ bs.headD 0 && bs.headD 0 ≤ high

/-- The number of bytes of the character that begins with `b`, or of the bytes that are no
character's. -/
def charWidth (b : UInt8) (bs : List UInt8) : Nat × Bool :=
  let continues := nextIn 0x80 0xBF
  if b < 0x80 then (1, true)
  else if 0xC2 ≤ b && b ≤ 0xDF then
    if continues bs then (2, true) else (1, false)
  else if 0xE0 ≤ b && b ≤ 0xEF then
    let second := if b = 0xE0 then nextIn 0xA0 0xBF bs
      else if b = 0xED then nextIn 0x80 0x9F bs else continues bs
    if !second then (1, false)
    else if continues (bs.drop 1) then (3, true) else (2, false)
  else if 0xF0 ≤ b && b ≤ 0xF4 then
    let second := if b = 0xF0 then nextIn 0x90 0xBF bs
      else if b = 0xF4 then nextIn 0x80 0x8F bs else continues bs
    if !second then (1, false)
    else if !continues (bs.drop 1) then (2, false)
    else if continues (bs.drop 2) then (4, true) else (3, false)
  else (1, false)

/-- The character of the bytes of one. -/
def decodeChar : List UInt8 → Char
  | [b0] => Char.ofNat b0.toNat
  | [b0, b1] => Char.ofNat (b0.toNat % 0x20 * 0x40 + b1.toNat % 0x40)
  | [b0, b1, b2] => Char.ofNat ((b0.toNat % 0x10 * 0x40 + b1.toNat % 0x40) * 0x40 + b2.toNat % 0x40)
  | [b0, b1, b2, b3] =>
    Char.ofNat (((b0.toNat % 8 * 0x40 + b1.toNat % 0x40) * 0x40 + b2.toNat % 0x40) * 0x40 +
      b3.toNat % 0x40)
  | _ => '\uFFFD'

/-- The text of bytes, with a replacement for what is no character; every round takes a byte. -/
def fromUtf8Lossy : Nat → List UInt8 → Text
  | 0, _ => []
  | _, [] => []
  | fuel + 1, b :: bs =>
    let (width, valid) := charWidth b bs
    (if valid then decodeChar ((b :: bs).take width) else '\uFFFD') ::
      fromUtf8Lossy fuel ((b :: bs).drop width)

def bufToString (buf : List UInt8) : Text :=
  let bytes := buf.takeWhile (· != 0)
  fromUtf8Lossy bytes.length bytes

def Contact.update (info : CContactInfo) (c : Contact) : Contact :=
  { c with
    name := bufToString info.name.bytes
    callsign := bufToString info.callsign.bytes
    deviceId := info.deviceId
    phone := bufToString info.phone.bytes
    bleAddr := bufToString info.bleAddr.bytes
    publicKey := info.publicKey
    isEmergency := info.isEmergency }

/-! ### The manager -/

structure ContactManager where
  contacts : List Contact
  nextId : UInt32
  initialized : Bool
  dirty : Bool

namespace ContactManager

def new : ContactManager := ⟨[], 1, false, false⟩

def loadContact (mgr : ContactManager) (c : Contact) : ContactManager :=
  { mgr with
    nextId := if mgr.nextId ≤ c.id then c.id + 1 else mgr.nextId
    contacts := mgr.contacts ++ [c] }

def parsed (json : Text) : List Contact := (jsonSplitArray json).filterMap Contact.fromJson

def loadFromDisk (file : Option Text) (mgr : ContactManager) : ContactManager :=
  match file with
  | none => mgr
  | some json => { (parsed json).foldl loadContact mgr with dirty := false }

def init (file : Option Text) (mgr : ContactManager) : ContactManager :=
  if mgr.initialized then mgr
  else { loadFromDisk file mgr with initialized := true }

/-- The text that is written to the file. -/
def toFile (mgr : ContactManager) : Text :=
  "[\n".toList ++
    ((mgr.contacts.map fun c => "  ".toList ++ c.toJson).intersperse ",\n".toList).flatten ++
    "\n]".toList

/-- The file is written if the manager has been initialised; `written` says whether that worked. -/
def saveToDisk (written : Bool) (mgr : ContactManager) : EspErr × Option Text × ContactManager :=
  if !mgr.initialized then (espErrInvalidState, none, mgr)
  else if written then (espOk, some mgr.toFile, { mgr with dirty := false })
  else (espErrInvalidState, none, mgr)

/-- The contact gets the next id; the reply is that id, or an error code. -/
def push (mgr : ContactManager) (c : Contact) : Int32 × ContactManager :=
  (mgr.nextId.toInt32,
    { mgr with
      nextId := mgr.nextId + 1
      contacts := mgr.contacts ++ [{ c with id := mgr.nextId }]
      dirty := true })

def add (name callsign : Text) (deviceId : UInt32) (phone : Text) (mgr : ContactManager) :
    Int32 × ContactManager :=
  if name = [] then (espErrInvalidArg, mgr)
  else if maxContacts ≤ mgr.contacts.length then (espErrNoMem, mgr)
  else mgr.push { Contact.new 0 name with callsign := callsign, deviceId := deviceId, phone := phone }

def importVcard (data : Text) (mgr : ContactManager) : Int32 × ContactManager :=
  if maxContacts ≤ mgr.contacts.length then (espErrNoMem, mgr)
  else
    match Contact.fromVcard data with
    | some c => mgr.push c
    | none => (espErrInvalidArg, mgr)

def remove (id : UInt32) (mgr : ContactManager) : EspErr × ContactManager :=
  let kept := mgr.contacts.filter (·.id != id)
  if kept.length = mgr.contacts.length then (espErrNotFound, { mgr with contacts := kept })
  else (espOk, { mgr with contacts := kept, dirty := true })

/-- Change the first contact with an id. -/
def modifyFirst (id : UInt32) (f : Contact → Contact) (mgr : ContactManager) :
    EspErr × ContactManager :=
  match mgr.contacts.findIdx? (·.id == id) with
  | some i => (espOk, { mgr with contacts := mgr.contacts.modify i f, dirty := true })
  | none => (espErrNotFound, mgr)

def update (info : CContactInfo) (mgr : ContactManager) : EspErr × ContactManager :=
  mgr.modifyFirst info.id (·.update info)

def setPubkey (id : UInt32) (key : Arr 32) (mgr : ContactManager) : EspErr × ContactManager :=
  mgr.modifyFirst id fun c => { c with publicKey := key }

def get (id : UInt32) (mgr : ContactManager) : Option Contact := mgr.contacts.find? (·.id == id)

end ContactManager

/-! ### Runs -/

/-- The manager and the file on the card, which outlives it. -/
structure AddressBook where
  mgr : ContactManager
  file : Option Text

/-- The calls. A restart begins a new run with an empty manager; a file that cannot be read is not
there. -/
inductive ContactOp where
  | restart
  | init (readable : Bool)
  | save (written : Bool)
  | add (name callsign : Text) (deviceId : UInt32) (phone : Text)
  | importVcard (data : Text)
  | update (info : CContactInfo)
  | setPubkey (id : UInt32) (key : Arr 32)
  | remove (id : UInt32)

namespace AddressBook

def save (written : Bool) (s : AddressBook) : EspErr × AddressBook :=
  let (reply, file, mgr) := s.mgr.saveToDisk written
  (reply, ⟨mgr, file <|> s.file⟩)

def on (s : AddressBook) (result : Int32 × ContactManager) : Int32 × AddressBook :=
  (result.1, { s with mgr := result.2 })

end AddressBook

/-- The address book as a component. -/
def addressBook : Component ContactOp (fun _ => Int32) AddressBook where
  step
    | .restart, s => (espOk, { s with mgr := .new })
    | .init readable, s =>
      (espOk, { s with mgr := s.mgr.init (if readable then s.file else none) })
    | .save written, s => s.save written
    | .add name callsign deviceId phone, s => s.on (s.mgr.add name callsign deviceId phone)
    | .importVcard data, s => s.on (s.mgr.importVcard data)
    | .update info, s => s.on (s.mgr.update info)
    | .setPubkey id key, s => s.on (s.mgr.setPubkey id key)
    | .remove id, s => s.on (s.mgr.remove id)

end ThistleOS.Contacts
