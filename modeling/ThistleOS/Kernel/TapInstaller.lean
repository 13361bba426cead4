import ThistleOS.FileTree.Requests
import ThistleOS.Text

/-!
# The installer of application packages

A package is an archive of stored files. It is checked, extracted into a stage, and the stage becomes
a generation of its app; the record of the app then names the generation. Paths are lists of names
below the card's root.
-/

open PowerLoss FileTree

namespace ThistleOS.TapInstaller

abbrev Tree := FileTree String UInt8
abbrev Path := List String

def maxArchiveSize : Nat := 2 * 1024 * 1024
def maxExtractedSize : Nat := 4 * 1024 * 1024
def maxEntries : Nat := 64
def maxJsonSize : Nat := 64 * 1024
def maxElfSize : Nat := 1024 * 1024

inductive TapError
  | io
  | invalidZip
  | limit
  | invalidPath
  | invalidManifest
  | mismatch
  | integrity
  | signature
  | downgrade
  | exists
  deriving DecidableEq

/-- The values of JSON; of a number, what it is as a `u64`. -/
inductive Value
  | null
  | bool (b : Bool)
  | number (asU64 : Option Nat)
  | string (s : String)
  | array (values : List Value)
  | object (members : List (String × Value))

namespace Value

def get : Value → String → Option Value
  | object members, key => members.lookup key
  | _, _ => none

def asStr : Value → Option String
  | string s => some s
  | _ => none

def asU64 : Value → Option Nat
  | number n => n
  | _ => none

def asArray : Value → Option (List Value)
  | array values => some values
  | _ => none

end Value

/-- What the installer runs on: the reader of JSON, the hash, the directory of the apps, and whether
the file system renames a file over another one. -/
structure Platform where
  fromSlice : List UInt8 → Option Value
  sha256 : List UInt8 → List UInt8
  appsRoot : Path
  renameReplaces : Bool

/-! ### The archive -/

structure ZipEntry where
  name : String
  crc32 : UInt32
  size : Nat
  localOffset : Nat

def u16le (bytes : List UInt8) (i : Nat) : Nat :=
  (bytes.getD i 0).toNat + (bytes.getD (i + 1) 0).toNat * 256

def u32le (bytes : List UInt8) (i : Nat) : Nat := u16le bytes i + u16le bytes (i + 2) * 65536

/-- The names of a path between its separators. -/
def names (name : String) : Path := (name.toList.splitOn '/').map String.ofList

def validPath (name : String) : Bool :=
  !name.toList.isEmpty && decide ((utf8 name).length ≤ 160) && name.toList.head? != some '/' &&
    name.toList.getLast? != some '/' && !name.toList.contains '\\' &&
    (names name).all fun part => part != "" && part != "." && part != ".."

/-- Some bytes of a file. -/
def readExact (file : List UInt8) (pos n : Nat) : Except TapError (List UInt8) :=
  if pos + n ≤ file.length then .ok ((file.drop pos).take n) else .error .io

/-- The last place, not after `i`, where the end of the central directory begins. -/
def findEocd (tail : List UInt8) : Nat → Option Nat
  | 0 => if tail.take 4 = [0x50, 0x4b, 0x05, 0x06] then some 0 else none
  | i + 1 =>
    if (tail.drop (i + 1)).take 4 = [0x50, 0x4b, 0x05, 0x06] then some (i + 1) else findEocd tail i

/-- The entries of the central directory. -/
def readCentral (file : List UInt8) : Nat → Nat → Except TapError (List ZipEntry)
  | 0, _ => .ok []
  | count + 1, pos => do
    let fixed ← readExact file pos 46
    if fixed.take 4 ≠ [0x50, 0x4b, 0x01, 0x02] then throw .invalidZip
    let needed := u16le fixed 6
    let flags := u16le fixed 8
    let method := u16le fixed 10
    let compressed := u32le fixed 20
    let size := u32le fixed 24
    let nameLen := u16le fixed 28
    let extraLen := u16le fixed 30
    let commentLen := u16le fixed 32
    let localOffset := u32le fixed 42
    if 45 ≤ needed ∨ flags &&& 0x0009 ≠ 0 ∨ method ≠ 0 ∨ compressed ≠ size ∨ extraLen ≠ 0 ∨
        commentLen ≠ 0 ∨ nameLen = 0 ∨ 160 < nameLen then
      throw .invalidZip
    let nameBytes ← readExact file (pos + 46) nameLen
    match String.fromUTF8? ⟨nameBytes.toArray⟩ with
    | none => throw .invalidPath
    | some name =>
      if !validPath name then throw .invalidPath
      let rest ← readCentral file count (pos + 46 + nameLen)
      return ⟨name, UInt32.ofNat (u32le fixed 16), size, localOffset⟩ :: rest

def readEntries (file : List UInt8) : Except TapError (List ZipEntry) :=
  if maxArchiveSize < file.length ∨ file.length < 22 then .error .limit
  else
    let tail := file.drop (file.length - min file.length 65557)
    match findEocd tail (tail.length - 22) with
    | none => .error .invalidZip
    | some eocd => do
      let last := tail.drop eocd
      if u16le last 4 ≠ 0 ∨ u16le last 6 ≠ 0 ∨ u16le last 20 ≠ 0 then throw .invalidZip
      let count := u16le last 10
      let centralSize := u32le last 12
      let centralOffset := u32le last 16
      if count = 0 ∨ maxEntries < count ∨ file.length < centralOffset + centralSize then throw .limit
      let entries ← readCentral file count centralOffset
      if maxExtractedSize < (entries.map ZipEntry.size).foldl (· + ·) 0 then throw .limit
      if !(entries.zip entries.tail).all fun pair => decide (pair.1.name < pair.2.name) then
        throw .invalidZip
      return entries

def entryDataOffset (file : List UInt8) (entry : ZipEntry) : Except TapError Nat := do
  let fixed ← readExact file entry.localOffset 30
  if fixed.take 4 ≠ [0x50, 0x4b, 0x03, 0x04] ∨ u16le fixed 6 &&& 0x0009 ≠ 0 ∨ u16le fixed 8 ≠ 0 ∨
      u32le fixed 18 ≠ entry.size ∨ u32le fixed 22 ≠ entry.size then
    throw .invalidZip
  let nameLen := u16le fixed 26
  let extraLen := u16le fixed 28
  let name ← readExact file (entry.localOffset + 30) nameLen
  if name ≠ utf8 entry.name ∨ extraLen ≠ 0 then throw .invalidZip
  return entry.localOffset + 30 + nameLen

def crcBit (crc : UInt32) : UInt32 := (crc >>> 1) ^^^ (0xedb88320 &&& (0 - (crc &&& 1)))

def crcByte (crc : UInt32) (byte : UInt8) : UInt32 :=
  crcBit (crcBit (crcBit (crcBit (crcBit (crcBit (crcBit (crcBit (crc ^^^ byte.toUInt32))))))))

def crc32 (data : List UInt8) : UInt32 := ~~~ data.foldl crcByte 0xffffffff

def readEntry (file : List UInt8) (entry : ZipEntry) (max : Nat) : Except TapError (List UInt8) := do
  if max < entry.size then throw .limit
  let offset ← entryDataOffset file entry
  let data ← readExact file offset entry.size
  if crc32 data ≠ entry.crc32 then throw .integrity
  return data

def findEntry (entries : List ZipEntry) (name : String) : Except TapError ZipEntry :=
  match entries.find? (·.name == name) with
  | some entry => .ok entry
  | none => .error .invalidManifest

/-! ### The manifest -/

/-- An id is one name of a path. -/
def validCatalogId (id : String) : Bool :=
  !id.toList.isEmpty && !decide (['.', '.'] <:+: id.toList) &&
    id.toList.all fun c => c.isAlphanum || c == '-' || c == '_' || c == '.'

/-- What the installer is asked for, and what the verifiers of the package and of its program will
say. -/
structure TapRequest where
  tapPath : Path
  expectedId : String
  idValid : validCatalogId expectedId = true
  expectedVersion : String
  expectedSequence : UInt32
  packageVerified : Bool
  elfVerified : Bool

def orManifest {α : Type} : Option α → Except TapError α
  | some a => .ok a
  | none => .error .invalidManifest

def jsonString (value : Value) (key : String) : Except TapError String :=
  orManifest (((value.get key).bind Value.asStr).filter (· ≠ ""))

def jsonU64 (value : Value) (key : String) : Option Nat := (value.get key).bind Value.asU64

/-- A file that the manifest declares. -/
structure Declared where
  path : String
  digest : String
  size : Nat

def isHexDigit (c : Char) : Bool :=
  c.isDigit || (decide ('a' ≤ c) && decide (c ≤ 'f')) || (decide ('A' ≤ c) && decide (c ≤ 'F'))

/-- The files that the manifest declares after some others. -/
def validateFiles : List Value → List Declared → Except TapError (List Declared)
  | [], declared => .ok declared
  | item :: items, declared => do
    let path ← jsonString item "path"
    let digest ← jsonString item "sha256"
    let size ← orManifest (jsonU64 item "size_bytes")
    if !validPath path ∨ (utf8 digest).length ≠ 64 ∨ !digest.toList.all isHexDigit ∨ size = 0 ∨
        maxElfSize < size ∨ declared.any (·.path == path) then
      throw .invalidManifest
    validateFiles items (declared ++ [⟨path, String.ofList (digest.toList.map Char.toLower), size⟩])

def isPayload (name : String) : Bool :=
  name != "package.json" && name != "metadata.json" && name != "LICENSE" && name != "NOTICE"

def validateManifest (package metadata : Value) (entries : List ZipEntry) (r : TapRequest) :
    Except TapError (List Declared) := do
  let schema ← jsonString package "schema"
  if schema ≠ "thistle.app.package/v1" then throw .invalidManifest
  let type ← jsonString package "type"
  if type ≠ "app" then throw .invalidManifest
  let id ← jsonString package "id"
  let version ← jsonString package "version"
  let sequence ← orManifest (jsonU64 package "release_sequence")
  if id ≠ r.expectedId ∨ version ≠ r.expectedVersion ∨ sequence ≠ r.expectedSequence.toNat then
    throw .mismatch
  let metadataId ← jsonString metadata "id"
  if metadataId ≠ id then throw .mismatch
  let releases ← orManifest ((metadata.get "releases").bind Value.asArray)
  let latest ← orManifest releases.head?
  let latestVersion ← jsonString latest "version"
  if latestVersion ≠ version ∨ jsonU64 latest "release_sequence" ≠ some sequence then throw .mismatch
  let entry ← jsonString package "entry"
  if entry ≠ "app.app.elf" then throw .invalidManifest
  let signature ← jsonString package "signature"
  if signature ≠ "app.app.elf.sig" then throw .invalidManifest
  let files ← orManifest ((package.get "files").bind Value.asArray)
  let declared ← validateFiles files []
  let payloads := (entries.map ZipEntry.name).filter isPayload
  if payloads.length ≠ declared.length ∨ declared.any (fun d => !payloads.contains d.path) then
    throw .mismatch
  return declared

/-! ### Extraction -/

def hexLower (bytes : List UInt8) : String :=
  String.ofList (bytes.flatMap fun b => [Nat.digitChar (b.toNat / 16), Nat.digitChar (b.toNat % 16)])

abbrev TapAct (α : Type) := Act TapError (fsSig String UInt8) α

/-- Any error of the file system is the same to the installer. -/
def request (u : FsUpdate String UInt8) : TapAct Unit := FileTree.request (fun _ => .io) u

def readFile (p : Path) : TapAct (List UInt8) := requestRead (fun _ => .io) p

/-- Another reading of the archive, which is open and does not change. -/
def readOn (r : TapRequest) : TapAct Unit := do
  let _ ← readFile r.tapPath

variable (P : Platform)

/-- The data of an entry, once it has been written: does it have its checksum and its digest? -/
def checkData (entry : ZipEntry) (data : List UInt8) (expectedHash : Option String) :
    Except TapError Unit :=
  if crc32 data ≠ entry.crc32 then .error .integrity
  else
    match expectedHash with
    | none => .ok ()
    | some expected => if hexLower (P.sha256 data) ≠ expected then .error .integrity else .ok ()

/-- The data is written in pieces of 4096 bytes; an archive that ends too early has given some of
them. -/
def extractEntry (r : TapRequest) (file : List UInt8) (entry : ZipEntry) (target : Path)
    (expectedHash : Option String) : TapAct Unit := do
  readOn r
  let offset ← liftM (entryDataOffset file entry)
  request (.createDirAll target.dropLast)
  request (.createNew target)
  let data := (file.drop offset).take entry.size
  if data.length < entry.size then
    request (.writeAll target (data.take (data.length / 4096 * 4096)))
    throw .io
  request (.writeAll target data)
  request (.syncAll target)
  liftM (checkData P entry data expectedHash)

/-! ### Installation -/

/-- The sequence in the text of a record. -/
def recordSequence (text : List UInt8) : Except TapError Nat :=
  match P.fromSlice text with
  | none => .error .invalidManifest
  | some value => orManifest (jsonU64 value "release_sequence")

def activeSequence (path : Path) : TapAct (Option Nat) := do
  if !(← requestExists path) then return none
  let text ← readFile path
  let sequence ← liftM (recordSequence P text)
  return some sequence

namespace TapRequest

variable (r : TapRequest)

def appDir : Path := P.appsRoot ++ [r.expectedId]

def generations : Path := r.appDir P ++ ["generations"]

def destination : Path := r.generations P ++ [toString r.expectedSequence.toNat]

/-- The stage of the call that takes `k` from the sequence of stages. -/
def stage (k : UInt32) : Path :=
  r.generations P ++ ["." ++ toString r.expectedSequence.toNat ++ ".stage-" ++ toString k.toNat]

def activePath : Path := r.appDir P ++ ["active.json"]

def activeTmp : Path := r.appDir P ++ [".active.json.tmp"]

/-- The text of the record. -/
def recordText : List UInt8 :=
  utf8 ("\x7b\n  \"release_sequence\": " ++ toString r.expectedSequence.toNat ++ ",\n  \"version\": \"" ++
    r.expectedVersion ++ "\"\n\x7d\n")

end TapRequest

def requiredEntries : List String :=
  ["package.json", "metadata.json", "app.app.elf", "app.app.elf.sig", "LICENSE"]

def readJson (file : List UInt8) (entries : List ZipEntry) (name : String) : Except TapError Value := do
  let entry ← findEntry entries name
  let text ← readEntry file entry maxJsonSize
  orManifest (P.fromSlice text)

/-- The entries of an archive that has all those that are required. -/
def listEntries (file : List UInt8) : Except TapError (List ZipEntry) := do
  let entries ← readEntries file
  requiredEntries.forM fun name => do
    let _ ← findEntry entries name
  return entries

/-- Extract one entry into the stage. -/
def extractInto (r : TapRequest) (file : List UInt8) (declared : List Declared) (stage : Path)
    (entry : ZipEntry) : TapAct Unit := do
  let expected := declared.find? (·.path == entry.name)
  if expected.any (·.size != entry.size) then throw .integrity
  extractEntry P r file entry (stage ++ names entry.name) (expected.map Declared.digest)

/-- Put the new record in the place of the old one. -/
def renameRecord (r : TapRequest) : TapAct Unit :=
  if P.renameReplaces then request (.replace (r.activeTmp P) (r.activePath P))
  else request (.rename (r.activeTmp P) (r.activePath P))

/-- What is undone if it fails: the stage is filled, becomes the generation, and is recorded. -/
def activate (r : TapRequest) (file : List UInt8) (entries : List ZipEntry) (declared : List Declared)
    (stage : Path) : TapAct Path := do
  entries.forM (extractInto P r file declared stage)
  if !r.packageVerified then throw .signature
  if !r.elfVerified then throw .signature
  request (.rename stage (r.destination P))
  request (.create (r.activeTmp P) none)
  request (.writeAll (r.activeTmp P) r.recordText)
  renameRecord P r
  return r.destination P

def installTapWith (r : TapRequest) (k : UInt32) : TapAct Path := do
  let file ← readFile r.tapPath
  let entries ← liftM (listEntries file)
  readOn r
  let package ← liftM (readJson P file entries "package.json")
  readOn r
  let metadata ← liftM (readJson P file entries "metadata.json")
  let declared ← liftM (validateManifest package metadata entries r)
  if ← requestExists (r.destination P) then throw .exists
  let active ← activeSequence P (r.activePath P)
  if active.any (r.expectedSequence.toNat < ·) then throw .downgrade
  request (.createDirAll (r.generations P))
  request (.createDir (r.stage P k))
  let result ← (activate P r file entries declared (r.stage P k)).attempt
  match result with
  | .ok destination => return destination
  | .error e =>
    let _ ← (request (.removeDirAll (r.stage P k))).attempt
    throw e

end ThistleOS.TapInstaller
