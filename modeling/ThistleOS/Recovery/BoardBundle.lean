import ThistleOS.Recovery.AntiRollback
import ThistleOS.Recovery.ArtifactManifest
import ThistleOS.Recovery.BundleTransaction.Basic
import ThistleOS.Recovery.Catalog

/-!
# Board bundles

Recovery selects from a catalog the artifacts of a board, downloads them, and hands them over to a
bundle transaction. It can also plan the download, which writes nothing.
-/

open ThistleOS.BundleTransaction (BundleFile Path invalidInput)
open FileTree (IoError)
open ThistleOS.Catalog
open ThistleOS.MsgQueue (Text trim)

namespace ThistleOS.BoardBundle

def detectChip (model : UInt32) : String :=
  match model.toNat with
  | 1 => "esp32"
  | 2 => "esp32s2"
  | 9 => "esp32s3"
  | 5 => "esp32c3"
  | 13 => "esp32c6"
  | _ => "unknown"

def maxSignatureSize : Nat := 64

def maxArtifactManifestSize : Nat := 4096

/-- What Recovery reads to select a bundle: the model of the chip, the text that the catalog's server
sends, the bodies under other URLs, the check of a signature with the recovery key, and the stored
security version. -/
structure Site where
  chipModel : UInt32
  catalog : Except String String
  httpGetBytes : String → Nat → Except String (List UInt8)
  verify : List UInt8 → List UInt8 → Except String Unit
  loadSecurityVersion : Except String (Option UInt32)

/-- An installation either rejects the selection, because an entry is missing, there are two of it, an
id is bad or two destinations are the same, or fails for a reason that lies elsewhere. -/
inductive BundleError
  | rejected (message : String)
  | failed (message : String)
  deriving DecidableEq

def BundleError.message : BundleError → String
  | .rejected message => message
  | .failed message => message

/-! ### Signed manifests -/

structure VerifiedManifest where
  manifest : ArtifactManifest
  canonical : List UInt8
  signature : List UInt8

def verifyEd25519 (site : Site) (data signature : List UInt8) : Except String Unit := do
  if signature.length ≠ 64 then
    throw s!"Invalid Ed25519 signature size: {signature.length} bytes"
  site.verify data signature

def orMissing (value : Option String) (legacyType key : String) : Except String String :=
  match value with
  | some value => .ok value
  | none => .error s!"Catalog {legacyType} entry is missing {key}"

/-- The manifest of one entry of the catalog. -/
def fetchVerifiedManifest (site : Site) (obj : Text) (legacyType : String) :
    Except String VerifiedManifest := do
  let manifestUrl ← orMissing (jsonExtractString obj "manifest_url") legacyType "manifest_url"
  let signatureUrl ← orMissing (jsonExtractString obj "manifest_sig_url") legacyType "manifest_sig_url"
  let canonical ← site.httpGetBytes manifestUrl maxArtifactManifestSize
  let signature ← site.httpGetBytes signatureUrl maxSignatureSize
  verifyEd25519 site canonical signature
  match String.fromUTF8? ⟨canonical.toArray⟩ with
  | none => throw "Signed artifact manifest is not UTF-8"
  | some text =>
    let manifest ← ArtifactManifest.parse text
    if manifest.artifactType.asStr ≠ legacyType then
      throw (s!"Catalog type '{legacyType}' disagrees with signed type " ++
        s!"'{manifest.artifactType.asStr}'")
    match jsonExtractString obj "id" with
    | some legacyId =>
      if legacyId ≠ manifest.id then
        throw s!"Catalog id '{legacyId}' disagrees with signed id '{manifest.id}'"
      return ⟨manifest, canonical, signature⟩
    | none => return ⟨manifest, canonical, signature⟩

def fetchVerifiedManifests (site : Site) : List Text → Except String (List VerifiedManifest)
  | [] => .ok []
  | obj :: objs =>
    match jsonExtractString obj "type" with
    | none => fetchVerifiedManifests site objs
    | some legacyType =>
      if legacyType ∉ ["firmware", "board", "driver", "wm"] then fetchVerifiedManifests site objs
      else do
        let artifact ← fetchVerifiedManifest site obj legacyType
        let artifacts ← fetchVerifiedManifests site objs
        return artifact :: artifacts

/-- A firmware version is compared to the stored one without any other call. -/
def requireNewerFirmware (site : Site) (candidate : UInt32) : Except String Unit :=
  (ExceptT.run (AntiRollback.requireNewer (S := PowerLoss.Sig.none) candidate
    (liftM site.loadSecurityVersion))).value.map fun _ => ()

/-! ### The plan -/

/-- The planned artifacts and the security versions of the firmware among them. -/
def planEntries (chip boardName : String) :
    List VerifiedManifest → Except String (List ArtifactManifest × List UInt32)
  | [] => .ok ([], [])
  | artifact :: artifacts =>
    let manifest := artifact.manifest
    if manifest.arch ≠ chip || !manifest.compatibleBoards.contains boardName ||
        (manifest.artifactType = .board && manifest.id ≠ boardName) then
      planEntries chip boardName artifacts
    else do
      manifest.validateForDevice chip boardName 1
      let (entries, versions) ← planEntries chip boardName artifacts
      return (manifest :: entries,
        if manifest.artifactType = .firmware then manifest.securityVersion :: versions else versions)

/-- The artifacts that a plan lists. -/
def bundlePlan (site : Site) (boardName : String) : Except String (List ArtifactManifest) := do
  let catalogJson ← site.catalog
  let chip := detectChip site.chipModel
  let manifests ← fetchVerifiedManifests site (iterJsonObjects catalogJson.toList)
  let (entries, versions) ← planEntries chip boardName manifests
  match versions with
  | [version] =>
    requireNewerFirmware site version
    return entries
  | _ => throw "Signed bundle plan must contain exactly one firmware image"

def planEntryJson (manifest : ArtifactManifest) : String :=
  "\x7b\"id\":\"" ++ manifest.id ++ "\",\"type\":\"" ++ manifest.artifactType.asStr ++
    "\",\"version\":\"" ++ manifest.version ++ "\",\"destination\":\"" ++ manifest.destination ++ "\"\x7d"

def recoveryBundlePlanJson (site : Site) (catalogUrl boardName : String) : Except String String := do
  let entries ← bundlePlan site boardName
  return "\x7b\"ok\":true,\"board\":\"" ++ boardName ++ "\",\"chip\":\"" ++ detectChip site.chipModel ++
    "\",\"catalog_source\":\"" ++ catalogUrl ++ "\",\"count\":" ++ toString entries.length ++
    ",\"entries\":[" ++ ",".intercalate (entries.map planEntryJson) ++ "]\x7d"

/-! ### The selection -/

def selectArtifacts (chip boardName : String) :
    List VerifiedManifest → Except String (List VerifiedManifest)
  | [] => .ok []
  | artifact :: artifacts =>
    if artifact.manifest.arch ≠ chip || !artifact.manifest.compatibleBoards.contains boardName ||
        (artifact.manifest.artifactType = .board && artifact.manifest.id ≠ boardName) then
      selectArtifacts chip boardName artifacts
    else do
      artifact.manifest.validateForDevice chip boardName 1
      let selected ← selectArtifacts chip boardName artifacts
      return artifact :: selected

def countType (type : ArtifactType) (selected : List VerifiedManifest) : Nat :=
  (selected.filter fun artifact => artifact.manifest.artifactType = type).length

/-- The selected artifacts and the security version of the firmware among them. -/
def selectBundle (site : Site) (boardName : String) :
    Except BundleError (List VerifiedManifest × UInt32) := do
  let catalogJson ← site.catalog.mapError .failed
  let chip := detectChip site.chipModel
  let manifests ←
    (fetchVerifiedManifests site (iterJsonObjects catalogJson.toList)).mapError .failed
  let selected ← (selectArtifacts chip boardName manifests).mapError .failed
  if selected.isEmpty then
    throw (.rejected s!"Catalog has no signed compatible bundle entries for '{boardName}'")
  if countType .firmware selected ≠ 1 || countType .board selected ≠ 1 then
    throw (.rejected "Signed bundle must contain exactly one firmware and one board profile")
  match selected.find? fun artifact => artifact.manifest.artifactType = .firmware with
  | none => throw (.rejected "Signed bundle has no firmware security version")
  | some firmware =>
    (requireNewerFirmware site firmware.manifest.securityVersion).mapError .failed
    return (selected, firmware.manifest.securityVersion)

/-! ### The download -/

/-- What happens while one artifact is downloaded: how many bytes are received, the digest of the file
as it is read back, and whether the manifest and the signature are written. -/
structure Download where
  received : Except String UInt32
  digest : Except String (List UInt8)
  manifestWritten : Except String Unit
  signatureWritten : Except String Unit

/-- Whether the download directory is made, and what happens for each artifact. -/
structure Downloads where
  stage : Except String Unit
  artifact : Nat → Download

def maxFirmwareSize : UInt32 := 4 * 1024 * 1024

def maxBoardProfileSize : UInt32 := 64 * 1024

def maxExecutableSize : UInt32 := 2 * 1024 * 1024

def artifactSizeLimit : ArtifactType → UInt32
  | .firmware => maxFirmwareSize
  | .board => maxBoardProfileSize
  | .driver => maxExecutableSize
  | .windowManager => maxExecutableSize

def hexChar (n : Nat) : Char := "0123456789abcdef".toList.getD n '0'

def hexLower (bytes : List UInt8) : String :=
  String.ofList (bytes.flatMap fun byte => [hexChar (byte.toNat >>> 4), hexChar (byte.toNat &&& 0x0f)])

def isHexDigit (byte : UInt8) : Bool :=
  (48 ≤ byte && byte ≤ 57) || (65 ≤ byte && byte ≤ 70) || (97 ≤ byte && byte ≤ 102)

def verifySha256File (download : Download) (expectedSha256 : String) : Except String Unit := do
  let expected := String.ofList ((trim expectedSha256.toList).map Char.toLower)
  if (utf8 expected).length ≠ 64 || !(utf8 expected).all isHexDigit then
    throw s!"Invalid catalog sha256 '{expectedSha256}'"
  let digest ← download.digest
  let actual := hexLower digest
  if actual ≠ expected then
    throw s!"SHA-256 mismatch: expected {expected}, got {actual}"

def downloadVerifiedPayload (download : Download) (artifact : ArtifactManifest) :
    Except String Unit := do
  let limit := artifactSizeLimit artifact.artifactType
  if limit < artifact.size then
    throw (s!"Signed {artifact.artifactType.asStr} artifact '{artifact.id}' exceeds its " ++
      s!"{limit} byte limit")
  let written ← download.received
  if written ≠ artifact.size then
    throw s!"Signed artifact size mismatch: expected {artifact.size}, received {written}"
  verifySha256File download artifact.sha256

/-- A file of the download directory. -/
def stagePath (name : String) : Except IoError Path :=
  if name.isEmpty || name.toList.contains '/' || name.toList.contains '\\' || name = "." ||
      name = ".." then
    .error (invalidInput "invalid download staging name")
  else .ok [".thistle-bundle-download", name]

/-- Write one file of the download directory. -/
def stageWrite (written : Except String Unit) (name : String) : Except String Path := do
  let path ← (stagePath name).mapError IoError.message
  written
  return path

def bundleFile (relativePath : String) (source : Path) : Except String BundleFile :=
  (BundleFile.fromFile relativePath source).mapError IoError.message

/-- What the loop over the selected artifacts has gathered. -/
structure Collected where
  destinations : List String
  downloaded : Nat
  bundleFiles : List BundleFile
  firmwarePath : Option Path
  firmwareSha256 : Option String

def downloadFirmware (download : Download) (st : Collected) (artifact : VerifiedManifest) :
    Except String Collected := do
  let staged ← (stagePath s!"{st.downloaded}-firmware.bin").mapError IoError.message
  downloadVerifiedPayload download artifact.manifest
  let stagedManifest ← stageWrite download.manifestWritten s!"{st.downloaded}-manifest"
  let stagedSignature ← stageWrite download.signatureWritten s!"{st.downloaded}-manifest-signature"
  let manifestFile ← bundleFile "config/firmware.manifest" stagedManifest
  let signatureFile ← bundleFile "config/firmware.manifest.sig" stagedSignature
  return { st with
    bundleFiles := st.bundleFiles ++ [manifestFile, signatureFile]
    firmwarePath := some staged
    firmwareSha256 := some artifact.manifest.sha256 }

/-- The active board profile, besides the copy under the id of the board. -/
def activeBoardFile (type : ArtifactType) (relativePath : String) (source : Path) :
    Except String (List BundleFile) := do
  if type = .board then return [← bundleFile relativePath source]
  return []

def downloadFile (download : Download) (st : Collected) (artifact : VerifiedManifest) :
    Except String Collected := do
  let manifest := artifact.manifest
  let staged ← (stagePath s!"{st.downloaded}-payload").mapError IoError.message
  downloadVerifiedPayload download manifest
  let activeFile ← activeBoardFile manifest.artifactType "config/board.json" staged
  let payloadFile ← bundleFile manifest.destination staged
  let stagedManifest ← stageWrite download.manifestWritten s!"{st.downloaded}-manifest"
  let stagedSignature ← stageWrite download.signatureWritten s!"{st.downloaded}-manifest-signature"
  let manifestFile ← bundleFile s!"{manifest.destination}.manifest" stagedManifest
  let signatureFile ← bundleFile s!"{manifest.destination}.manifest.sig" stagedSignature
  let activeManifest ← activeBoardFile manifest.artifactType "config/board.json.manifest" stagedManifest
  let activeSignature ←
    activeBoardFile manifest.artifactType "config/board.json.manifest.sig" stagedSignature
  return { st with
    bundleFiles := st.bundleFiles ++
      (activeFile ++ [payloadFile, manifestFile, signatureFile] ++ activeManifest ++ activeSignature) }

def downloadArtifact (download : Download) (st : Collected) (artifact : VerifiedManifest) :
    Except String Collected :=
  if artifact.manifest.artifactType = .firmware then downloadFirmware download st artifact
  else downloadFile download st artifact

def collectArtifact (download : Download) (st : Collected) (artifact : VerifiedManifest) :
    Except BundleError Collected := do
  let manifest := artifact.manifest
  if manifest.destination ∈ st.destinations then
    throw (.rejected s!"Signed bundle contains duplicate destination '{manifest.destination}'")
  let st := { st with destinations := manifest.destination :: st.destinations }
  (validateCatalogId manifest.id).mapError .rejected
  if manifest.artifactType = .firmware && st.firmwarePath.isSome then
    throw (.rejected "Signed bundle contains multiple firmware images")
  let st ← (downloadArtifact download st artifact).mapError .failed
  return { st with downloaded := st.downloaded + 1 }

def collectBundle (downloads : Nat → Download) :
    Collected → List VerifiedManifest → Except BundleError Collected
  | st, [] => .ok st
  | st, artifact :: artifacts => do
    let st ← collectArtifact (downloads st.downloaded) st artifact
    collectBundle downloads st artifacts

/-- What the bundle transaction is given. -/
structure BundleInstall where
  bundleFiles : List BundleFile
  firmwarePath : Path
  firmwareSha256 : String
  firmwareSecurityVersion : UInt32
  downloaded : Nat

/-- There is no transaction without a firmware image. -/
def bundleInstall (firmwareSecurityVersion : UInt32) (st : Collected) :
    Except BundleError BundleInstall :=
  match st.firmwarePath, st.firmwareSha256 with
  | some firmwarePath, some firmwareSha256 =>
    .ok ⟨st.bundleFiles, firmwarePath, firmwareSha256, firmwareSecurityVersion, st.downloaded⟩
  | none, _ => .error (.rejected "Catalog has no compatible firmware image")
  | _, none => .error (.rejected "Catalog firmware has no signed SHA-256")

/-- The installation of a bundle up to its transaction. -/
def recoveryDownloadBoardBundleFor (site : Site) (downloads : Downloads) (boardName : String) :
    Except BundleError BundleInstall := do
  let (selected, firmwareSecurityVersion) ← selectBundle site boardName
  downloads.stage.mapError .failed
  let st ← collectBundle downloads.artifact ⟨[], 0, [], none, none⟩ selected
  bundleInstall firmwareSecurityVersion st

end ThistleOS.BoardBundle
