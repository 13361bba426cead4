import ThistleOS.Kernel.AppstoreClient.Entries
import ThistleOS.Kernel.AppstoreClient.Install
import ThistleOS.Kernel.Manifest.FromJson

/-!
# The records of a catalog

The app store reads each object of the catalog into a record. A field is looked up at the first place where its key
stands in quotes, and its value is the next text of the kind that is asked for, wherever it stands.
-/

open ThistleOS.MsgQueue (Text findAfter quoted trim trimStart parseI64)
open ThistleOS.Manifests (untilMark quotedPieces jsonGetHexOrInt)

namespace ThistleOS.AppstoreClient

/-! ### Looking up -/

def jsonStrExtract (json key : Text) : Option Text := do
  let afterKey ← findAfter (quoted key) json
  let valueStr ← findAfter ['"'] afterKey
  untilMark '"' valueStr

/-- The characters of the number of a key. -/
def numStr (p : Char → Bool) (json key : Text) : Option Text := do
  let afterKey ← findAfter (quoted key) json
  let afterColon ← findAfter [':'] afterKey
  return (trimStart afterColon).takeWhile p

def isIntChar (c : Char) : Bool := c.isDigit || c == '-'

def isFloatChar (c : Char) : Bool := c.isDigit || c == '.' || c == '-'

def jsonIntExtract (json key : Text) : Option ℤ := (numStr isIntChar json key).bind parseI64

/-- The strings of an array, between commas. -/
def joinStrings (inner : Text) : Option Text :=
  let values := quotedPieces none inner
  if values = [] then none else some ([','].intercalate values)

def jsonArrayExtract (json key : Text) : Option Text := do
  let afterKey ← findAfter (quoted key) json
  let content ← findAfter ['['] afterKey
  (untilMark ']' content).bind joinStrings

/-- What stands between the braces of the detection. -/
def detectionInner (objJson : Text) : Option Text := do
  let after ← findAfter (quoted "detection".toList) objJson
  let innerStart ← findAfter ['{'] after
  untilMark '}' innerStart

/-- The same as in a manifest, but zero where there is no number. -/
def jsonHexOrIntExtract (json key : Text) : UInt16 := (jsonGetHexOrInt json key).getD 0

/-- What is looked up in an object: texts, numbers, the characters of other numbers, the strings of arrays, and what
stands between the braces of the detection. -/
structure Fields where
  str : Text → Option Text
  int : Text → Option ℤ
  float : Text → Option Text
  array : Text → Option Text
  detection : Option Text

def extracted (obj : Text) : Fields where
  str := jsonStrExtract obj
  int := jsonIntExtract obj
  float := numStr isFloatChar obj
  array := jsonArrayExtract obj
  detection := detectionInner obj

/-! ### Records -/

structure FullCatalogEntry extends CatalogEntry where
  name : Vector UInt8 64
  version : Vector UInt8 16
  author : Vector UInt8 32
  description : Vector UInt8 256
  permissions : Vector UInt8 64
  minOsVersion : Vector UInt8 16
  isSigned : Bool
  compatibleBoards : Vector UInt8 128
  detectionBus : Vector UInt8 8
  detectionAddress : UInt16
  detectionChipIdReg : UInt16
  detectionChipIdValue : UInt16
  category : Vector UInt8 32
  iconUrl : Vector UInt8 256
  screenshots : Vector (Vector UInt8 256) 3
  screenshotCount : UInt8
  ratingStars : UInt16
  ratingCount : UInt32
  downloadCount : UInt32
  updatedDate : Vector UInt8 11
  changelog : Vector UInt8 512
  packageUrl : Vector UInt8 256
  packageSigUrl : Vector UInt8 256
  packageSha256Hex : Vector UInt8 65
  packageSizeBytes : UInt32
  releaseSequence : UInt32
  publisherKeyId : Vector UInt8 64

/-- As many bytes as leave room for a zero behind them. -/
def copyStrToBuf {n : ℕ} (src : Text) (dst : Vector UInt8 n) : Vector UInt8 n :=
  let bytes := utf8 (String.ofList src)
  let len := min bytes.length (n - 1)
  Vector.ofFn fun i => if i < len then bytes.getD i 0 else if i = len then 0 else dst[i]

/-- The first byte of a buffer is zero if there is no text in it. -/
def firstByte {n : ℕ} (buf : Vector UInt8 (n + 1)) : UInt8 := buf.head

/-- A field with a text, if there is one. -/
def textField (n : ℕ) (v : Option Text) : Vector UInt8 n :=
  match v with
  | some v => copyStrToBuf v (Vector.replicate n 0)
  | none => Vector.replicate n 0

/-- A size that is not zero and fits. -/
def sizeField (sz : Option ℤ) : UInt32 :=
  match sz with
  | some sz => if 0 < sz ∧ sz ≤ 0xFFFFFFFF then UInt32.ofNat sz.toNat else 0
  | none => 0

def countField (n : Option ℤ) : UInt32 :=
  match n with
  | some n => if 0 < n then UInt32.ofNat n.toNat else 0
  | none => 0

def typeField (t : Option Text) : UInt32 :=
  match t with
  | some t =>
    if t = "firmware".toList then catalogTypeFirmware
    else if t = "driver".toList then catalogTypeDriver
    else if t = "wm".toList then catalogTypeWm
    else catalogTypeApp
  | none => catalogTypeApp

/-- A number of the detection, which is there if its bus is. -/
def detectionNumber (detection : Option Text) (key : String) : UInt16 :=
  match detection with
  | some inner =>
    if (jsonStrExtract inner "bus".toList).isSome then jsonHexOrIntExtract inner key.toList else 0
  | none => 0

/-- The record of what is looked up; `stars` reads a rating and turns it into hundredths. -/
def Fields.entry (stars : Text → Option UInt16) (f : Fields) : FullCatalogEntry :=
  let sigUrl := textField 256 (f.str "sig_url".toList)
  let packageSigUrl := textField 256 (f.str "package_sig_url".toList)
  let urls := ((f.array "screenshots".toList).map fun raw => (raw.splitOn ',').take 3).getD []
  { id := textField 64 (f.str "id".toList)
    name := textField 64 (f.str "name".toList)
    version := textField 16 (f.str "version".toList)
    author := textField 32 (f.str "author".toList)
    description := textField 256 (f.str "description".toList)
    url := textField 256 (f.str "url".toList)
    sigUrl := sigUrl
    sha256Hex := textField 65 (f.str "sha256".toList)
    permissions := textField 64 (f.str "permissions".toList)
    minOsVersion := textField 16 (f.str "min_os_version".toList)
    sizeBytes := sizeField (f.int "size_bytes".toList)
    entryType := typeField (f.str "type".toList)
    isSigned := firstByte sigUrl != 0 || firstByte packageSigUrl != 0
    compatibleBoards := textField 128 (f.array "compatible_boards".toList)
    detectionBus := textField 8 (f.detection.bind fun inner => jsonStrExtract inner "bus".toList)
    detectionAddress := detectionNumber f.detection "address"
    detectionChipIdReg := detectionNumber f.detection "chip_id_reg"
    detectionChipIdValue := detectionNumber f.detection "chip_id_value"
    category := textField 32 (f.str "category".toList)
    iconUrl := textField 256 (f.str "icon_url".toList)
    screenshots := Vector.ofFn fun i => textField 256 (urls[i.val]?.map trim)
    screenshotCount := UInt8.ofNat urls.length
    ratingStars := ((f.float "rating".toList).bind stars).getD 0
    ratingCount := countField (f.int "rating_count".toList)
    downloadCount := countField (f.int "downloads".toList)
    updatedDate := textField 11 (f.str "updated".toList)
    changelog := textField 512 (f.str "changelog".toList)
    packageUrl := textField 256 (f.str "package_url".toList)
    packageSigUrl := packageSigUrl
    packageSha256Hex := textField 65 (f.str "package_sha256".toList)
    packageSizeBytes := sizeField (f.int "package_size_bytes".toList)
    releaseSequence := sizeField (f.int "release_sequence".toList)
    publisherKeyId := textField 64 (f.str "publisher_key_id".toList) }

/-- An object without an architecture, or with the one of the device. -/
def Fields.matchesArch (currentArch : Text) (f : Fields) : Bool :=
  match f.str "arch".toList with
  | none => true
  | some arch => arch == [] || arch == currentArch

/-! ### The loop -/

/-- The records that are counted, up to the number that there is room for: an object for another architecture is passed
over, and a record without an id is overwritten by the next. -/
def parseEntries (currentArch : Text) (stars : Text → Option UInt16) : ℕ → List Text → List FullCatalogEntry
  | 0, _ => []
  | _ + 1, [] => []
  | room + 1, obj :: objs =>
    if (extracted obj).matchesArch currentArch then
      let entry := (extracted obj).entry stars
      if firstByte entry.id ≠ 0 then entry :: parseEntries currentArch stars room objs
      else parseEntries currentArch stars (room + 1) objs
    else parseEntries currentArch stars (room + 1) objs

/-- The records of a catalog. -/
def parseCatalog (currentArch : Text) (stars : Text → Option UInt16) (maxEntries : ℕ) (json : Text) :
    List FullCatalogEntry :=
  parseEntries currentArch stars maxEntries (catalogEntryObjects json)

end ThistleOS.AppstoreClient
