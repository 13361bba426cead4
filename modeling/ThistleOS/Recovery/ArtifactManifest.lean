import ThistleOS.Except
import ThistleOS.Text

/-!
# Artifact manifests

The canonical description of an artifact that Recovery can install.
-/

open Except (bind_ok)

namespace ThistleOS

def manifestHeader : String := "THISTLE-ARTIFACT-MANIFEST-V1"

inductive ArtifactType
  | firmware
  | board
  | driver
  | windowManager
  deriving DecidableEq

namespace ArtifactType

def asStr : ArtifactType → String
  | .firmware => "firmware"
  | .board => "board"
  | .driver => "driver"
  | .windowManager => "wm"

def parse (value : String) : Except String ArtifactType :=
  match value with
  | "firmware" => .ok .firmware
  | "board" => .ok .board
  | "driver" => .ok .driver
  | "wm" => .ok .windowManager
  | _ => .error s!"unsupported artifact type '{value}'"

end ArtifactType

structure ArtifactManifest where
  artifactType : ArtifactType
  id : String
  version : String
  securityVersion : UInt32
  arch : String
  compatibleBoards : List String
  destination : String
  sha256 : String
  size : UInt32
  url : String
  deriving DecidableEq

/-! ### Checks -/

def isLowerHexDigit (byte : UInt8) : Bool :=
  (48 ≤ byte && byte ≤ 57) || (97 ≤ byte && byte ≤ 102)

/-- 64 lowercase hexadecimal digits. -/
def isSha256Hex (s : String) : Bool := (utf8 s).length == 64 && (utf8 s).all isLowerHexDigit

def isAlphanumeric (byte : UInt8) : Bool :=
  (48 ≤ byte && byte ≤ 57) || (65 ≤ byte && byte ≤ 90) || (97 ≤ byte && byte ≤ 122)

def validateIdentifier (value label : String) : Except String Unit :=
  if value.isEmpty || 64 < (utf8 value).length || value.toList.head? == some '.' ||
      !(utf8 value).all fun byte => isAlphanumeric byte || byte == 45 || byte == 95 || byte == 46 then
    .error s!"invalid {label} '{value}'"
  else .ok ()

def validateVersion (version : String) : Except String Unit :=
  let normalized := (version.toList.dropPrefix? ['v']).getD version.toList
  let parts := normalized.splitOn '.'
  if parts.length ≠ 3 || parts.any fun part => part.isEmpty || !part.all Char.isDigit then
    .error s!"version '{version}' must be a numeric semantic version"
  else .ok ()

def expectedDestination : ArtifactType → String → String
  | .firmware, _ => "ota_1"
  | .board, id => s!"config/boards/{id}.json"
  | .driver, id => s!"drivers/{id}.drv.elf"
  | .windowManager, id => s!"wm/{id}.wm.elf"

/-- Every board is an identifier that is greater than the one before it. -/
def validateBoards : Option String → List String → Except String Unit
  | _, [] => .ok ()
  | previous, board :: boards => do
    validateIdentifier board "compatible board"
    if previous.any fun value => decide (board ≤ value) then
      throw "compatible_boards must be sorted and unique"
    validateBoards (some board) boards

namespace ArtifactManifest

def validateShape (m : ArtifactManifest) : Except String Unit := do
  validateIdentifier m.id "id"
  validateVersion m.version
  if m.securityVersion = 0 then
    throw "security_version must be greater than zero"
  if m.arch ∉ ["esp32", "esp32s2", "esp32s3", "esp32c3", "esp32c6"] then
    throw s!"unsupported architecture '{m.arch}'"
  if m.compatibleBoards.isEmpty then
    throw "compatible_boards must not be empty"
  validateBoards none m.compatibleBoards
  if m.destination ≠ expectedDestination m.artifactType m.id then
    throw (s!"destination '{m.destination}' does not match signed artifact role " ++
      s!"'{expectedDestination m.artifactType m.id}'")
  if !isSha256Hex m.sha256 then
    throw "sha256 must be 64 lowercase hexadecimal characters"
  if m.size = 0 then
    throw "artifact size must be greater than zero"
  if !"https://".toList.isPrefixOf m.url.toList || (utf8 m.url).any (· ≤ 32) then
    throw "artifact URL must be a whitespace-free HTTPS URL"

def validateForDevice (m : ArtifactManifest) (chip board : String)
    (minimumSecurityVersion : UInt32) : Except String Unit := do
  m.validateShape
  if m.arch ≠ chip then
    throw s!"artifact architecture '{m.arch}' does not match '{chip}'"
  if m.securityVersion < minimumSecurityVersion then
    throw (s!"artifact security version {m.securityVersion} is below device minimum " ++
      s!"{minimumSecurityVersion}")
  if board ∉ m.compatibleBoards then
    throw s!"artifact is not signed for board '{board}'"
  if m.artifactType = .board ∧ m.id ≠ board then
    throw "board manifest identity does not match selection"

/-! ### The canonical encoding -/

def canonicalText (m : ArtifactManifest) : String :=
  manifestHeader ++ "\n" ++
  s!"type={m.artifactType.asStr}\n" ++
  s!"id={m.id}\n" ++
  s!"version={m.version}\n" ++
  s!"security_version={m.securityVersion}\n" ++
  s!"arch={m.arch}\n" ++
  "compatible_boards=" ++ ",".intercalate m.compatibleBoards ++ "\n" ++
  s!"destination={m.destination}\n" ++
  s!"sha256={m.sha256}\n" ++
  s!"size={m.size}\n" ++
  s!"url={m.url}\n"

def canonicalBytes (m : ArtifactManifest) : List UInt8 := utf8 m.canonicalText

/-- The value of one line, after the name that is expected there. -/
def field (line : List Char) (expectedName : String) : Except String String :=
  match line.dropPrefix? (expectedName ++ "=").toList with
  | some (c :: value) => .ok (String.ofList (c :: value))
  | _ => .error s!"missing or empty canonical field '{expectedName}'"

/-- An unsigned decimal number below `bound`, with an optional sign. -/
def parseDecimal (bound : Nat) (value : String) : Option Nat :=
  let digits := (value.toList.dropPrefix? ['+']).getD value.toList
  if digits.isEmpty || !digits.all Char.isDigit then none
  else
    let n := digits.foldl (fun n c => 10 * n + (c.toNat - 48)) 0
    if n < bound then some n else none

/-- The manifest that the lines spell. The size is a `usize` of the 32-bit target. -/
def parseLines (canonical : String) : Except String ArtifactManifest := do
  if canonical.toList.getLast? ≠ some '\n' || canonical.toList.contains '\r' then
    throw "manifest must use canonical LF-terminated lines"
  match canonical.toList.dropLast.splitOn '\n' with
  | [l0, l1, l2, l3, l4, l5, l6, l7, l8, l9, l10] =>
    if l0 ≠ manifestHeader.toList then
      throw "manifest has an invalid header or field count"
    let artifactType ← ArtifactType.parse (← field l1 "type")
    let id ← field l2 "id"
    let version ← field l3 "version"
    let securityVersion ←
      match parseDecimal 0x100000000 (← field l4 "security_version") with
      | some n => pure (UInt32.ofNat n)
      | none => throw "security_version must be a decimal u32"
    let arch ← field l5 "arch"
    let boards ← field l6 "compatible_boards"
    let destination ← field l7 "destination"
    let sha256 ← field l8 "sha256"
    let size ←
      match parseDecimal 0x100000000 (← field l9 "size") with
      | some n => pure (UInt32.ofNat n)
      | none => throw "size must be a decimal usize"
    let url ← field l10 "url"
    return {
      artifactType, id, version, securityVersion, arch
      compatibleBoards := (boards.toList.splitOn ',').map String.ofList
      destination, sha256, size, url }
  | _ => throw "manifest has an invalid header or field count"

def parse (canonical : String) : Except String ArtifactManifest := do
  let manifest ← parseLines canonical
  manifest.validateShape
  if manifest.canonicalBytes ≠ utf8 canonical then
    throw "manifest is not in canonical form"
  return manifest

/-- What is accepted is well formed and is the canonical encoding of its manifest. -/
theorem parse_ok {canonical : String} {m : ArtifactManifest} (h : parse canonical = .ok m) :
    m.validateShape = .ok () ∧ m.canonicalText = canonical := by
  rw [parse] at h
  obtain ⟨manifest, -, h⟩ := bind_ok h
  obtain ⟨_, hshape, h⟩ := bind_ok h
  by_cases hbytes : manifest.canonicalBytes = utf8 canonical
  · rw [if_neg (not_not.mpr hbytes)] at h
    cases h
    exact ⟨hshape, utf8_injective hbytes⟩
  · rw [if_pos hbytes] at h
    cases h

/-- A manifest has at most one accepted encoding. -/
theorem parse_injective {text text' : String} {m : ArtifactManifest} (h : parse text = .ok m)
    (h' : parse text' = .ok m) : text = text' :=
  (parse_ok h).2.symm.trans (parse_ok h').2

end ArtifactManifest

end ThistleOS
