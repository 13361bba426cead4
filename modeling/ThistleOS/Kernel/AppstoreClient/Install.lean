import Mathlib.Algebra.Group.Nat.Defs
import ThistleOS.EspErr
import ThistleOS.Kernel.AppstoreClient
import ThistleOS.PowerLoss.Handler
import ThistleOS.Text

/-!
# Installing an entry

Firmware, drivers and window managers are downloaded beside their destination and replace what is
there. An entry with a signature replaces the pair; an entry without one replaces the payload alone
and leaves the signature that is beside it.
-/

open PowerLoss FileTree

namespace ThistleOS.AppstoreClient

abbrev InstallAct (α : Type) := Act EspErr ((fsSig String UInt8).sum Sig.none) α

/-- A file action whose errors the caller turns into one code. -/
def orCode {α : Type} (code : EspErr) (x : StoreAct α) : InstallAct α :=
  Act.mapError (fun _ => code) x

/-! ### The checks of an entry -/

def catalogTypeApp : UInt32 := 0
def catalogTypeFirmware : UInt32 := 1
def catalogTypeDriver : UInt32 := 2
def catalogTypeWm : UInt32 := 3

/-- What the installation reads of an entry. -/
structure CatalogEntry where
  id : Vector UInt8 64
  url : Vector UInt8 256
  sigUrl : Vector UInt8 256
  sha256Hex : Vector UInt8 65
  sizeBytes : UInt32
  entryType : UInt32

/-- Zero if the catalog names no signature. -/
abbrev CatalogEntry.sigUrlFirst (entry : CatalogEntry) : UInt8 := entry.sigUrl[0]

def fixedCstr (value : List UInt8) : Option String :=
  match value.findIdx? (· = 0) with
  | some length => String.fromUTF8? ⟨(value.take length).toArray⟩
  | none => none

def isAsciiHexdigit (byte : UInt8) : Bool :=
  (48 ≤ byte && byte ≤ 57) || (65 ≤ byte && byte ≤ 70) || (97 ≤ byte && byte ≤ 102)

def validSha256Hex (value : String) : Bool :=
  (utf8 value).length = 64 && (utf8 value).all isAsciiHexdigit

def isIdByte (byte : UInt8) : Bool :=
  (48 ≤ byte && byte ≤ 57) || (65 ≤ byte && byte ≤ 90) || (97 ≤ byte && byte ≤ 122) ||
    byte = 45 || byte = 95 || byte = 46

def validatedCatalogId (id : Vector UInt8 64) : Except EspErr String :=
  match fixedCstr id.toList with
  | none => .error espErrInvalidArg
  | some value =>
    if value.isEmpty ∨ ['.', '.'] <:+: value.toList ∨ !(utf8 value).all isIdByte then
      .error espErrInvalidArg
    else .ok value

/-- The destination of a checked id. Its name has no separator, so its parent is the root. -/
def installDestination (entryType : UInt32) (id : String) : Except EspErr Path :=
  if entryType = catalogTypeFirmware then .ok ["sdcard", "update", "thistle_os.bin"]
  else if entryType = catalogTypeDriver then .ok ["sdcard", "drivers", s!"{id}.drv.elf"]
  else if entryType = catalogTypeWm then .ok ["sdcard", "wm", s!"{id}.wm.elf"]
  else if entryType = catalogTypeApp then .error espErrNotSupported
  else .error espErrInvalidArg

/-- The destination of an entry with a valid id. -/
def entryDestination (entry : CatalogEntry) : Except EspErr Path := do
  let id ← validatedCatalogId entry.id
  installDestination entry.entryType id

def maxAppDownload : ℕ := 8 * 1024 * 1024
def maxFirmwareDownload : ℕ := 16 * 1024 * 1024
def maxDriverDownload : ℕ := 4 * 1024 * 1024
def maxWmDownload : ℕ := 8 * 1024 * 1024
def maxSignatureDownload : ℕ := 64

def maxDownloadForType (entryType : UInt32) : ℕ :=
  if entryType = catalogTypeFirmware then maxFirmwareDownload
  else if entryType = catalogTypeDriver then maxDriverDownload
  else if entryType = catalogTypeWm then maxWmDownload
  else maxAppDownload

/-- The hash that the payload is to have. -/
def catalogHash (entry : CatalogEntry) : Except EspErr String :=
  match fixedCstr entry.sha256Hex.toList with
  | some hash => if validSha256Hex hash then .ok hash else .error espErrInvalidArg
  | none => .error espErrInvalidArg

/-- The hash and the destination of an entry that passes the checks. -/
def checkEntry (entry : CatalogEntry) : Except EspErr (String × Path) := do
  if entry.url[0] = 0 then throw espErrInvalidArg
  let expectedHash ← catalogHash entry
  if entry.sizeBytes = 0 ∨ maxDownloadForType entry.entryType < entry.sizeBytes.toNat then
    throw espErrInvalidSize
  let destination ← entryDestination entry
  pure (expectedHash, destination)

/-! ### Downloads -/

def downloadBufSize : ℕ := 4096

/-- What the client reads at once; of no bytes it is the end of the stream. -/
abbrev Chunk := { data : List UInt8 // data.length ≤ downloadBufSize }

/-- What an HTTP session answers. A read without a chunk has failed, and the stream ends after the
last read. -/
structure HttpSession where
  openError : EspErr
  contentLength : Int
  status : Int
  reads : List (Option Chunk)

/-- What the two requests are answered with; the client is null where there is no session. -/
structure Site where
  payload : Option HttpSession
  signature : Option HttpSession

/-- The hash of some bytes in hexadecimal, and the verification of bytes against a signature. -/
structure Crypto where
  sha256Hex : List UInt8 → String
  verify : List UInt8 → List UInt8 → Bool

inductive StreamValidationError
  | httpStatus
  | missingLength
  | sizeMismatch
  | oversized
  | read
  | counterOverflow
  deriving DecidableEq, Repr

def StreamValidationError.espError : StreamValidationError → EspErr
  | .sizeMismatch | .oversized | .counterOverflow => espErrInvalidSize
  | .httpStatus | .missingLength | .read => espFail

structure StreamValidator where
  contentLength : ℕ
  expectedSize : Option ℕ
  maxSize : ℕ
  received : ℕ

namespace StreamValidator

def new (status contentLength : Int) (expectedSize : Option ℕ) (maxSize : ℕ) :
    Except StreamValidationError StreamValidator :=
  if ¬ (200 ≤ status ∧ status < 300) then .error .httpStatus
  else if contentLength < 0 then .error .missingLength
  else if maxSize < contentLength.toNat then .error .oversized
  else if expectedSize.any (contentLength.toNat ≠ ·) then .error .sizeMismatch
  else .ok ⟨contentLength.toNat, expectedSize, maxSize, 0⟩

/-- Whether the stream goes on after a read. -/
def observeRead (v : StreamValidator) (readLen : Int) :
    Except StreamValidationError (Bool × StreamValidator) :=
  if readLen < 0 then .error .read
  else if readLen = 0 then
    if v.received ≠ v.contentLength || v.expectedSize.any (v.received ≠ ·) then .error .sizeMismatch
    else .ok (false, v)
  else
    let received := v.received + readLen.toNat
    if 2 ^ 64 ≤ received then .error .counterOverflow
    else if v.maxSize < received then .error .oversized
    else if v.contentLength < received || v.expectedSize.any (· < received) then .error .sizeMismatch
    else .ok (true, { v with received := received })

end StreamValidator

def orEspError {α : Type} (x : Except StreamValidationError α) : InstallAct α :=
  liftM (x.mapError StreamValidationError.espError)

/-- The loop over the reads, with what has been hashed so far; `reports` says whether somebody is
told of the progress. -/
def receive (staged : Path) (reports : Bool) :
    List (Option Chunk) → StreamValidator → List UInt8 → InstallAct (List UInt8)
  | [], v, hashed => do
    let _ ← orEspError (v.observeRead 0)
    pure hashed
  | none :: _, v, hashed => do
    let _ ← orEspError (v.observeRead (-1))
    pure hashed
  | some chunk :: reads, v, hashed => do
    let (more, v) ← orEspError (v.observeRead chunk.val.length)
    if more then
      orCode espFail (update (.writeAll staged chunk.val))
      if reports && 2 ^ 32 ≤ v.received then throw espErrInvalidSize
      receive staged reports reads v (hashed ++ chunk.val)
    else pure hashed

def eqIgnoreAsciiCase (s t : String) : Bool :=
  s.toList.map Char.toLower = t.toList.map Char.toLower

/-- The hash to compare with, if any. -/
def parseExpectedHash : Option String → Except EspErr (Option String)
  | none => .ok none
  | some value =>
    if value.isEmpty then .ok none
    else if validSha256Hex value then .ok (some value)
    else .error espErrInvalidArg

/-- The session and what its headers allow. -/
def openDownload (client : Option HttpSession) (expectedSize : Option ℕ) (maxSize : ℕ) :
    Except EspErr (HttpSession × StreamValidator) :=
  match client with
  | none => .error espFail
  | some session => do
    if session.openError ≠ espOk then throw session.openError
    let validator ← (StreamValidator.new session.status session.contentLength expectedSize
      maxSize).mapError StreamValidationError.espError
    if 2 ^ 32 ≤ validator.contentLength then throw espErrInvalidSize
    pure (session, validator)

/-- Download into a staged file. Its contents are what has been hashed. -/
def downloadIntoStaged (sha256Hex : List UInt8 → String) (client : Option HttpSession)
    (expectedSha256Hex : Option String) (expectedSize : Option ℕ) (maxSize : ℕ) (reports : Bool)
    (staged : Path) : InstallAct Unit := do
  let expectedHash ← liftM (parseExpectedHash expectedSha256Hex)
  let (session, validator) ← liftM (openDownload client expectedSize maxSize)
  let hashed ← receive staged reports session.reads validator []
  if expectedHash.any (!eqIgnoreAsciiCase (sha256Hex hashed) ·) then throw espErrInvalidCrc
  orCode espFail (update (.syncAll staged))

/-! ### Staged files -/

def stagedPath (destination : Path) (sequence : UInt32) : Path :=
  let name := destination.getLast?.getD "artifact"
  destination.dropLast ++ [s!".{name}.thistle-tmp-{sequence}"]

/-- A staged file with the first number that is free, with the next value of the counter. -/
def createFor (destination : Path) : Nat → UInt32 → StoreAct (Path × UInt32)
  | 0, _ => throw (.ofKind .alreadyExists)
  | tries + 1, sequence => do
    match ← (update (.createNew (stagedPath destination sequence)) : StoreAct Unit).attempt with
    | .ok () => pure (stagedPath destination sequence, sequence + 1)
    | .error error =>
      if error.kind = .alreadyExists then createFor destination tries (sequence + 1)
      else throw error

def stagedTries : ℕ := 128

def signaturePath (path : Path) : Path :=
  let name := path.getLast?.getD ""
  path.dropLast ++ [s!"{name}.sig"]

/-- Run an action and drop the staged file, whatever comes of the action. -/
def andDrop {α : Type} (staged : Path) (x : InstallAct α) : InstallAct α := do
  let result ← x.attempt
  let _ ← (orCode espFail (update (.removeFile staged))).attempt
  liftM result

def maxVerifySize : ℕ := 16 * 1024 * 1024

/-- The verification of a file against the signature beside it, of whose errors the caller makes one
code. -/
def signingVerifyFile (verify : List UInt8 → List UInt8 → Bool) (path : Path) : InstallAct Unit := do
  let bytes ← orCode espErrInvalidCrc (read path)
  if maxVerifySize < bytes.length then throw espErrInvalidCrc
  let signature ← orCode espErrInvalidCrc (read (signaturePath path))
  if signature.length ≠ 64 || !verify bytes signature then throw espErrInvalidCrc

/-! ### Replacing a payload alone -/

/-- Put the old file back and report why. -/
def restoreAlone (backup destination : Path) (commitError : IoError) : StoreAct Unit := do
  match ← (update (.rename backup destination) : StoreAct Unit).attempt with
  | .ok () => throw commitError
  | .error restoreError =>
    throw ⟨restoreError.kind,
      s!"commit failed: {commitError.message}; restore failed: {restoreError.message}"⟩

def atomicReplaceWith (staged destination : Path) (tries : Nat) (sequence : UInt32) :
    StoreAct Unit := do
  if !(← fileExists destination) then update (.rename staged destination)
  else
    let (backup, _) ← unusedBackupPath destination tries sequence
    update (.rename destination backup)
    match ← (update (.rename staged destination) : StoreAct Unit).attempt with
    | .ok () =>
      let _ ← (update (.removeFile backup) : StoreAct Unit).attempt
    | .error commitError => restoreAlone backup destination commitError

/-! ### The installation -/

section

variable (crypto : Crypto) (site : Site) (reports : Bool) (tries : ℕ)

/-- What is done once the payload has been downloaded. -/
def commitEntry (entry : CatalogEntry) (destination stagedPayload : Path) (sequence : UInt32) :
    InstallAct Unit :=
  if entry.sigUrlFirst ≠ 0 then do
    let stagedSignature := signaturePath stagedPayload
    orCode espErrNotFound (update (.createNew stagedSignature))
    andDrop stagedSignature do
      downloadIntoStaged crypto.sha256Hex site.signature none (some maxSignatureDownload)
        maxSignatureDownload false stagedSignature
      signingVerifyFile crypto.verify stagedPayload
      orCode espFail (atomicReplacePairWith
        ⟨stagedPayload, destination, stagedSignature, signaturePath destination⟩ tries sequence)
  else orCode espFail (atomicReplaceWith stagedPayload destination tries sequence)

/-- The installation, from the checks of the entry on. `tries` bounds the search for a free backup
name, which the code does not give up. -/
def installChecked (entry : CatalogEntry) (expectedHash : String) (destination : Path)
    (sequence : UInt32) : InstallAct Unit := do
  let dir := destination.dropLast
  let _ ← (orCode espFail (update (.createDirAll dir))).attempt
  -- nothing on the card is a link: a directory that is there is its own canonical path
  if !(← orCode espFail (fileExists dir)) then throw espFail
  let (stagedPayload, sequence) ← orCode espErrNotFound (createFor destination stagedTries sequence)
  andDrop stagedPayload do
    downloadIntoStaged crypto.sha256Hex site.payload (some expectedHash) (some entry.sizeBytes.toNat)
      (maxDownloadForType entry.entryType) reports stagedPayload
    commitEntry crypto site tries entry destination stagedPayload sequence

/-- The installation of an entry. Apps are installed by `installTapEntry`. -/
def appstoreInstallEntry (installTapEntry : CatalogEntry → InstallAct Unit) (entry : CatalogEntry)
    (sequence : UInt32) : InstallAct Unit := do
  if entry.entryType = catalogTypeApp then installTapEntry entry
  else
    let (expectedHash, destination) ← (liftM (checkEntry entry) : InstallAct (String × Path))
    installChecked crypto site reports tries entry expectedHash destination sequence

end

end ThistleOS.AppstoreClient
