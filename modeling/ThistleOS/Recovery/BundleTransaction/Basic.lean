import ThistleOS.FileTree.Actions
import ThistleOS.Text

/-!
# Bundle transactions

The file transaction that Recovery uses to install a bundle. A path of the card is the list of its
names below the card's root. The firmware writer, the boot selector and the boundary hook that the
caller passes in are operations of their own, answered by a machine that is a parameter.
-/

open PowerLoss FileTree

namespace ThistleOS.BundleTransaction

abbrev Tree := FileTree String UInt8
abbrev Path := List String

/-! ### Relative paths -/

inductive Component
  | rootDir
  | curDir
  | parentDir
  | normal (name : String)
  deriving DecidableEq, Repr

/-- A piece between two separators; an empty piece and an inner `.` are no component. -/
def piece : List Char → List Component
  | [] => []
  | ['.'] => []
  | ['.', '.'] => [.parentDir]
  | name => [.normal (String.ofList name)]

/-- The components of a path, as the standard library normalises them. -/
def components (path : String) : List Component :=
  match path.toList.splitOn '/' with
  | [] => []
  | [] :: [] => []
  | [] :: rest => .rootDir :: rest.flatMap piece
  | ['.'] :: rest => .curDir :: rest.flatMap piece
  | first :: rest => (first :: rest).flatMap piece

def isAbsolute (path : String) : Bool := path.toList.head? == some '/'

/-- The names that lead to a relative path. -/
def names (path : String) : Path :=
  (components path).filterMap fun
    | .normal name => some name
    | _ => none

def invalidInput (message : String) : IoError := ⟨.invalidInput, message⟩

def invalidData (message : String) : IoError := ⟨.invalidData, message⟩

def Component.isNormal : Component → Bool
  | .normal _ => true
  | _ => false

/-- A path is text here, so the check that it is UTF-8 cannot fail. -/
def validateRelativePath (path : String) : Except IoError Unit :=
  if path.toList.isEmpty || isAbsolute path then
    .error (invalidInput "bundle destination must be relative")
  else if (components path).any (fun component => !component.isNormal) then
    .error (invalidInput "bundle destination contains unsafe components")
  else if path.toList.any (fun c => c == '\t' || c == '\n' || c == '\r') then
    .error (invalidInput "bundle destination contains control characters")
  else .ok ()

/-- The error of opening a file under a path: no system call takes a NUL, and a path that ends in a
separator or in `/.` names a directory. -/
def openRefused (path : String) : Option ErrorKind :=
  if path.toList.contains '\x00' then some .invalidInput
  else if ['/'] <:+ path.toList || ['/', '.'] <:+ path.toList then some .isADirectory
  else none

/-! ### Bundle files and the journal -/

inductive Phase
  | prepared
  | filesActive
  | firmwareWritten
  deriving DecidableEq, Repr

def Phase.asStr : Phase → String
  | .prepared => "prepared"
  | .filesActive => "files_active"
  | .firmwareWritten => "firmware_written"

def Phase.parse (value : List Char) : Except IoError Phase :=
  if value = Phase.prepared.asStr.toList then .ok .prepared
  else if value = Phase.filesActive.asStr.toList then .ok .filesActive
  else if value = Phase.firmwareWritten.asStr.toList then .ok .firmwareWritten
  else .error (invalidData "unknown bundle transaction phase")

inductive RecoveryAction
  | none
  | rollback
  | finalize
  deriving DecidableEq, Repr

inductive Boundary
  | stageFile (index : Nat)
  | writePreparedJournal
  | backupFile (index : Nat)
  | activateFile (index : Nat)
  | writeFilesActiveJournal
  | writeFirmware
  | writeFirmwareJournal
  | selectBootPartition
  deriving DecidableEq, Repr

/-- What a bundle file is made of: bytes in memory, or a file of the card. -/
inductive BundleContents
  | bytes (data : List UInt8)
  | file (source : Path)

/-- A bundle file is built only under a path that has passed `validateRelativePath`. -/
structure BundleFile where
  relativePath : String
  contents : BundleContents
  valid : validateRelativePath relativePath = .ok ()

def BundleFile.new (relativePath : String) (data : List UInt8) : Except IoError BundleFile :=
  match h : validateRelativePath relativePath with
  | .error e => .error e
  | .ok () => .ok ⟨relativePath, .bytes data, h⟩

def BundleFile.fromFile (relativePath : String) (sourcePath : Path) : Except IoError BundleFile :=
  match h : validateRelativePath relativePath with
  | .error e => .error e
  | .ok () => .ok ⟨relativePath, .file sourcePath, h⟩

structure JournalEntry where
  hadOriginal : Bool
  relativePath : String
  deriving DecidableEq, Repr

structure Journal where
  phase : Phase
  entries : List JournalEntry
  deriving DecidableEq, Repr

/-! ### The transaction directory -/

def transactionRoot : Path := [".thistle-bundle-transaction"]

def stageDir : Path := transactionRoot ++ ["stage"]

def backupDir : Path := transactionRoot ++ ["backup"]

def journalPath : Path := transactionRoot ++ ["journal"]

def journalTmp : Path := transactionRoot ++ ["journal.tmp"]

def filesActiveMarker : Path := transactionRoot ++ ["files-active"]

def firmwareWrittenMarker : Path := transactionRoot ++ ["firmware-written"]

def journalVersion : String := "THISTLE_BUNDLE_V1"

/-- Where a relative path is installed, staged and backed up. -/
def destination (path : String) : Path := names path

def staged (path : String) : Path := stageDir ++ names path

def backup (path : String) : Path := backupDir ++ names path

/-! ### Callbacks -/

/-- The functions that the caller of `install` passes in. -/
inductive Callback
  | boundary (b : Boundary)
  | writeFirmware
  | selectBootPartition

abbrev callbackSig : Sig := ⟨Callback, fun _ => Except IoError Unit⟩

def callbackFailed (o : callbackSig.Op) (r : callbackSig.Reply o) : Bool :=
  match o, r with
  | _, .error _ => true
  | _, .ok _ => false

abbrev BundleAct (α : Type) := FileAct String UInt8 callbackSig α

def boundary (b : Boundary) : BundleAct Unit := callback (T := callbackSig) (.boundary b) rfl

def writeFirmware : BundleAct Unit := callback (T := callbackSig) .writeFirmware rfl

def selectBootPartition : BundleAct Unit := callback (T := callbackSig) .selectBootPartition rfl

/-! ### Writing files -/

def ensureParent (path : Path) : BundleAct Unit := update (.createDirAll path.dropLast)

def removeFileIfPresent (path : Path) : BundleAct Unit := do
  match ← (update (.removeFile path) : BundleAct Unit).attempt with
  | .ok () => pure ()
  | .error e => if e.kind = .notFound then pure () else throw e

def writeSynced (path : Path) (refused : Option ErrorKind) (data : List UInt8) :
    BundleAct Unit := do
  ensureParent path
  update (.create path refused)
  update (.writeAll path data)
  update (.syncAll path)

def stageContents (path : Path) (refused : Option ErrorKind) : BundleContents → BundleAct Unit
  | .bytes data => writeSynced path refused data
  | .file source => do
    ensureParent path
    update (.copy source path refused)
    update (.openWrite path)
    update (.syncAll path)

/-! ### The journal -/

def transactionExists : BundleAct Bool := fileExists journalPath

/-- One line of a file, with its line feed. -/
def writeln (path : Path) (line : String) : BundleAct Unit :=
  update (.writeAll path (utf8 (line ++ "\n")))

def formatEntry (entry : JournalEntry) : String :=
  (if entry.hadOriginal then "1" else "0") ++ "\t" ++ entry.relativePath

def writeJournal (journal : Journal) : BundleAct Unit := do
  if journal.phase ≠ .prepared then
    throw (invalidInput "the bundle journal may only be created once")
  if ← fileExists journalPath then
    throw (invalidInput "the bundle journal may only be created once")
  update (.createDirAll transactionRoot)
  update (.create journalTmp none)
  writeln journalTmp journalVersion
  writeln journalTmp ("phase=" ++ Phase.prepared.asStr)
  journal.entries.forM fun entry => writeln journalTmp (formatEntry entry)
  update (.syncAll journalTmp)
  update (.rename journalTmp journalPath)

/-- The lines of a text: a line ends in a line feed or in a carriage return and a line feed, and
the last one need not end. -/
def textLines (acc : List Char) : List Char → List (List Char)
  | [] => if acc = [] then [] else [acc.reverse]
  | '\n' :: cs => (if acc.head? = some '\r' then acc.tail.reverse else acc.reverse) :: textLines [] cs
  | c :: cs => textLines (c :: acc) cs

/-- The parts of a line before and after the first `c`. -/
def splitOnce (c : Char) : List Char → Option (List Char × List Char)
  | [] => none
  | x :: xs => if x = c then some ([], xs) else (splitOnce c xs).map fun (a, b) => (x :: a, b)

def stripStart (start : List Char) (line : List Char) : Option (List Char) :=
  if start <+: line then some (line.drop start.length) else none

/-- The entry lines of a journal, once its version and phase have been checked. -/
def parseHeader : List (List Char) → Except IoError (List (List Char))
  | [] => .error (invalidData "unsupported bundle transaction journal")
  | version :: lines =>
    if version ≠ journalVersion.toList then
      .error (invalidData "unsupported bundle transaction journal")
    else
      match lines with
      | [] => .error (invalidData "bundle transaction journal has no phase")
      | phaseLine :: lines =>
        match stripStart "phase=".toList phaseLine with
        | none => .error (invalidData "bundle transaction journal has no phase")
        | some value =>
          match Phase.parse value with
          | .error e => .error e
          | .ok phase =>
            if phase ≠ .prepared then
              .error (invalidData "bundle journal must begin in prepared phase")
            else .ok lines

def parseMarker (existed : List Char) : Except IoError Bool :=
  if existed = ['0'] then .ok false
  else if existed = ['1'] then .ok true
  else .error (invalidData "invalid original-file marker")

/-- The entries of a journal; `seen` holds the paths of the lines before, and paths are equal when
their components are. -/
def parseEntries (seen : List (List Component)) : List (List Char) → Except IoError (List JournalEntry)
  | [] => .ok []
  | line :: lines =>
    match splitOnce '\t' line with
    | none => .error (invalidData "malformed bundle transaction entry")
    | some (existed, path) => do
      let relativePath := String.ofList path
      validateRelativePath relativePath
      if components relativePath ∈ seen then
        throw (invalidData "duplicate path in bundle transaction journal")
      let hadOriginal ← parseMarker existed
      let entries ← parseEntries (components relativePath :: seen) lines
      return ⟨hadOriginal, relativePath⟩ :: entries

def readToString (path : Path) : BundleAct String := do
  let bytes ← read path
  match String.fromUTF8? ⟨bytes.toArray⟩ with
  | some s => pure s
  | none => throw (invalidData "stream did not contain valid UTF-8")

def readJournal : BundleAct Journal := do
  let contents ← readToString journalPath
  let lines ← (parseHeader (textLines [] contents.toList) : Except IoError _)
  let phase ← do
    if ← fileExists firmwareWrittenMarker then pure Phase.firmwareWritten
    else if ← fileExists filesActiveMarker then pure Phase.filesActive
    else pure Phase.prepared
  let entries ← (parseEntries [] lines : Except IoError _)
  if entries.isEmpty then
    throw (invalidData "empty bundle transaction journal")
  return ⟨phase, entries⟩

def writePhase : Phase → BundleAct Unit
  | .prepared => pure ()
  | .filesActive => writeSynced filesActiveMarker none (utf8 Phase.filesActive.asStr)
  | .firmwareWritten => writeSynced firmwareWrittenMarker none (utf8 Phase.firmwareWritten.asStr)

/-! ### Recovery -/

def recoveryAction (otaImageIsSelected otaImageIsValid : Bool) : BundleAct RecoveryAction := do
  if !(← transactionExists) then
    return .none
  let journal ← readJournal
  if journal.phase = .firmwareWritten && otaImageIsSelected && otaImageIsValid then
    return .finalize
  else
    return .rollback

/-- Put back what was at the destination of one entry. -/
def rollbackEntry (entry : JournalEntry) : BundleAct Unit := do
  if entry.hadOriginal then
    if ← fileExists (backup entry.relativePath) then
      removeFileIfPresent (destination entry.relativePath)
      ensureParent (destination entry.relativePath)
      update (.rename (backup entry.relativePath) (destination entry.relativePath))
  else if !(← fileExists (staged entry.relativePath)) then
    removeFileIfPresent (destination entry.relativePath)

def rollback : BundleAct Unit := do
  if !(← transactionExists) then
    return ()
  let journal ← readJournal
  journal.entries.reverse.forM rollbackEntry
  update (.removeDirAll transactionRoot)

def finalize : BundleAct Unit := do
  if ← fileExists transactionRoot then
    update (.removeDirAll transactionRoot)

/-! ### Installation -/

/-- Refuse to start over an unfinished transaction, and make an empty transaction directory. -/
def openTransaction : BundleAct Unit := do
  if ← transactionExists then
    throw ⟨.alreadyExists, "an unfinished bundle transaction already exists"⟩
  if ← fileExists transactionRoot then
    update (.removeDirAll transactionRoot)
  update (.createDirAll stageDir)
  update (.createDirAll backupDir)

/-- Stage one file; the accumulator holds the entries and the paths so far. -/
def stageFile (acc : List JournalEntry × List (List Component)) (file : BundleFile × Nat) :
    BundleAct (List JournalEntry × List (List Component)) := do
  let path := file.1.relativePath
  if components path ∈ acc.2 then
    throw (invalidInput "duplicate bundle destination")
  boundary (.stageFile file.2)
  stageContents (staged path) (openRefused path) file.1.contents
  let hadOriginal ← fileExists (destination path)
  return (acc.1 ++ [⟨hadOriginal, path⟩], components path :: acc.2)

def prepare (files : List BundleFile) : BundleAct Unit := do
  let acc ← files.zipIdx.foldlM stageFile ([], [])
  boundary .writePreparedJournal
  writeJournal ⟨.prepared, acc.1⟩

def activateEntry (entry : JournalEntry × Nat) : BundleAct Unit := do
  let path := entry.1.relativePath
  if entry.1.hadOriginal then
    boundary (.backupFile entry.2)
    ensureParent (backup path)
    update (.rename (destination path) (backup path))
  boundary (.activateFile entry.2)
  ensureParent (destination path)
  update (.rename (staged path) (destination path))

def activate : BundleAct Unit := do
  let journal ← readJournal
  journal.entries.zipIdx.forM activateEntry
  boundary .writeFilesActiveJournal
  writePhase .filesActive
  boundary .writeFirmware
  writeFirmware
  boundary .writeFirmwareJournal
  writePhase .firmwareWritten
  boundary .selectBootPartition
  selectBootPartition

/-- What `install` does in the transaction directory that it has opened. -/
def transact (files : List BundleFile) : BundleAct Unit := do
  match ← (prepare files).attempt with
  | .error e =>
    let _ ← (update (.removeDirAll transactionRoot) : BundleAct Unit).attempt
    throw e
  | .ok () =>
    match ← activate.attempt with
    | .ok () => pure ()
    | .error e =>
      match ← rollback.attempt with
      | .error rollbackError =>
        throw ⟨.other, e.message ++ "; rollback also failed: " ++ rollbackError.message⟩
      | .ok () => throw e

def install (files : List BundleFile) : BundleAct Unit := do
  openTransaction
  transact files

end ThistleOS.BundleTransaction
