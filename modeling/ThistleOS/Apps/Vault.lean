import Mathlib.Data.List.OfFn
import ThistleOS.Bytes
import ThistleOS.CString
import ThistleOS.EspErr
import ThistleOS.FileTree.Frame
import ThistleOS.PowerLoss.Handler

/-!
# The password vault

The vault app keeps its entries in an array and in one encrypted file. A save writes the whole file
anew beside the old one and then moves it into place; a load repairs what an interrupted save has
left behind, or starts with an empty vault if there is none.

The kernel's cryptography, its random numbers and the heap are what a call gets from the outside.
-/

open PowerLoss FileTree

namespace ThistleOS.Vault

/-! ### Entries -/

def fieldMax : ℕ := 64
def maxEntries : ℕ := 32

structure VaultEntry where
  name : Arr fieldMax
  username : Arr fieldMax
  password : Arr fieldMax
  notes : Arr fieldMax

def VaultEntry.zero : VaultEntry := ⟨.zero, .zero, .zero, .zero⟩

abbrev Entries := Fin maxEntries → VaultEntry

/-- The array with the entry at `i` replaced; an index behind the array changes nothing. -/
def setEntry (entries : Entries) (i : ℕ) (e : VaultEntry) : Entries :=
  fun k => if k.val = i then e else entries k

/-- `strncpy` of at most 63 bytes, with zeros behind them. -/
def copyField (text : CStr) : Arr fieldMax := .ofSlice (text.bytes.take (fieldMax - 1))

/-- What the program keeps in memory. -/
structure SVault where
  entries : Entries
  entryCount : ℕ
  derivedKey : Arr 32
  salt : Arr 16
  unlocked : Bool

def SVault.zero : SVault := ⟨fun _ => .zero, 0, .zero, .zero, false⟩

/-! ### The text of the entries -/

def quote : UInt8 := 0x22
def backslash : UInt8 := 0x5c

/-- The loop of `json_escape`, from the byte `out` of its buffer on. -/
def jsonEscape (dstMax : ℕ) : List UInt8 → ℕ → List UInt8
  | [], _ => []
  | c :: src, out =>
    if out + 3 < dstMax then
      if c = quote ∨ c = backslash then backslash :: c :: jsonEscape dstMax src (out + 2)
      else c :: jsonEscape dstMax src (out + 1)
    else []

/-- The loop of `json_unescape`: the value, with the byte `out` of its buffer the next one. -/
def jsonUnescape (dstMax : ℕ) : List UInt8 → ℕ → List UInt8
  | [], _ => []
  | c :: src, out =>
    if out + 1 < dstMax then
      if c = quote then []
      else if c = backslash then
        match src with
        | [] => [c]
        | c' :: src => c' :: jsonUnescape dstMax src (out + 1)
      else c :: jsonUnescape dstMax src (out + 1)
    else []

/-- A key in quotes, with the colon and the quote before its value. -/
def needle (key : String) : List UInt8 := utf8 "\"" ++ utf8 key ++ utf8 "\":\""

def appendField (key : String) (value : Arr fieldMax) : List UInt8 :=
  needle key ++ jsonEscape (fieldMax * 2 + 2) (CStr.ofBuffer value.bytes).bytes 0 ++ utf8 "\""

def entryToJson (e : VaultEntry) : List UInt8 :=
  utf8 "\x7b" ++ appendField "name" e.name ++ utf8 "," ++ appendField "user" e.username ++ utf8 "," ++
    appendField "pass" e.password ++ utf8 "," ++ appendField "notes" e.notes ++ utf8 "\x7d"

/-- The buffer has room for every text of so many entries, so nothing is cut off. -/
def entriesToJson (vault : SVault) : List UInt8 :=
  let listed := (List.ofFn vault.entries).take vault.entryCount
  utf8 "[" ++ (utf8 ",").intercalate (listed.map entryToJson) ++ utf8 "]"

/-- What stands behind the first `needle`. -/
def seek (needle : List UInt8) : List UInt8 → Option (List UInt8)
  | [] => if needle = [] then some [] else none
  | c :: text =>
    if needle.isPrefixOf (c :: text) then some ((c :: text).drop needle.length) else seek needle text

def parseField (text : List UInt8) : Arr fieldMax := .ofSlice (jsonUnescape fieldMax text 0)

def seekKey (text : List UInt8) (key : String) : Option (List UInt8) := seek (needle key) text

/-- One object, with what has been read of it, and whether all of it has been. -/
def parseEntry (body : List UInt8) : VaultEntry × Bool :=
  match seekKey body "name" with
  | none => (.zero, false)
  | some text =>
    let e := { VaultEntry.zero with name := parseField text }
    match seekKey body "user" with
    | none => (e, false)
    | some text =>
      let e := { e with username := parseField text }
      match seekKey body "pass" with
      | none => (e, false)
      | some text =>
        let e := { e with password := parseField text }
        match seekKey body "notes" with
        | none => (e, false)
        | some text => ({ e with notes := parseField text }, true)

/-- The loop of `json_to_entries`, at most once for each byte of the text. -/
def jsonToEntriesFrom : ℕ → List UInt8 → ℕ → Entries → Entries × ℕ
  | 0, _, count, entries => (entries, count)
  | steps + 1, text, count, entries =>
    if text.length = 0 ∨ maxEntries ≤ count then (entries, count)
    else
      match seek (utf8 "\x7b") text with
      | none => (entries, count)
      | some body =>
        let (e, complete) := parseEntry body
        let entries := setEntry entries count e
        let count := if complete then count + 1 else count
        match seek (utf8 "\x7d") body with
        | none => (entries, count)
        | some text => jsonToEntriesFrom steps text count entries

def jsonToEntries (json : CStr) (entries : Entries) : Entries × ℕ :=
  jsonToEntriesFrom json.bytes.length json.bytes 0 entries

/-! ### Padding -/

def pkcs7Pad (text : List UInt8) : List UInt8 :=
  let padded := (text.length / 16 + 1) * 16
  text ++ List.replicate (padded - text.length) (UInt8.ofNat (padded - text.length))

/-- The length without the padding, or 0. -/
def pkcs7Unpad (buf : List UInt8) : ℕ :=
  if buf.length = 0 ∨ buf.length % 16 ≠ 0 then 0
  else
    let pad := buf.getLast?.getD 0
    if pad = 0 ∨ 16 < pad then 0
    else if (buf.drop (buf.length - pad.toNat)).all (· == pad) then buf.length - pad.toNat
    else 0

/-! ### The file -/

def hmacLen : ℕ := 32
def legacyHeaderLen : ℕ := 32
def v2HeaderLen : ℕ := 52
def v2SaltOffset : ℕ := 20
def v2IvOffset : ℕ := v2SaltOffset + 16

def writeU32Le (value : UInt32) : List UInt8 :=
  [value.toUInt8, (value >>> 8).toUInt8, (value >>> 16).toUInt8, (value >>> 24).toUInt8]

def vaultMagic : List UInt8 := utf8 "THV2"

/-- The bytes of a header before its salt: magic, version, function, and its costs. -/
def v2Parameters : List UInt8 :=
  vaultMagic ++ [2, 1, 0, 0] ++ writeU32Le 64 ++ writeU32Le 6 ++ writeU32Le 1

def validV2Header (header : List UInt8) : Bool :=
  decide (v2HeaderLen ≤ header.length) && v2Parameters.isPrefixOf header

/-- The buffers that a call asks the heap for. -/
inductive Buffer
  | filebuf
  | plaintext
  | json
  | padded
  | ciphertext
  | envelope
  deriving DecidableEq

/-- What a call gets from outside of the app: the kernel's cryptography, random bytes, memory, and
whether a renaming puts a file in the place of another one. -/
structure Env where
  argon2id : List UInt8 → Arr 16 → Option (Arr 32)
  pbkdf2Sha256 : List UInt8 → Arr 16 → ℕ → Option (Arr 32)
  hmacSha256 : Arr 32 → List UInt8 → Option (Arr 32)
  aes256CbcEncrypt : Arr 32 → Arr 16 → List UInt8 → Option (List UInt8)
  aes256CbcDecrypt : Arr 32 → Arr 16 → List UInt8 → Option (List UInt8)
  randomSalt : Option (Arr 16)
  randomIv : Option (Arr 16)
  malloc : Buffer → Bool
  overwrites : Bool

def Env.hmacVerify (env : Env) (key : Arr 32) (data expected : List UInt8) : Bool :=
  match env.hmacSha256 key data with
  | some mac => mac.bytes == expected
  | none => false

def deriveKeyV2 (env : Env) (password : CStr) (salt : Arr 16) : Option (Arr 32) :=
  env.argon2id password.bytes salt

def deriveKeyLegacy (env : Env) (password : CStr) (salt : Arr 16) : Option (Arr 32) :=
  env.pbkdf2Sha256 password.bytes salt 10000

/-- The bytes that a save writes. -/
def sealVault (env : Env) (vault : SVault) : Except EspErr (List UInt8) :=
  if !env.malloc .json then .error espErrNoMem
  else if !env.malloc .padded then .error espErrNoMem
  else
    match env.randomIv with
    | none => .error espFail
    | some iv =>
      if !env.malloc .ciphertext then .error espErrNoMem
      else
        match env.aes256CbcEncrypt vault.derivedKey iv (pkcs7Pad (entriesToJson vault)) with
        | none => .error espFail
        | some ciphertext =>
          if !env.malloc .envelope then .error espErrNoMem
          else
            let body := v2Parameters ++ vault.salt.bytes ++ iv.bytes ++ ciphertext
            match env.hmacSha256 vault.derivedKey body with
            | none => .error espFail
            | some mac => .ok (body ++ mac.bytes)

/-- What an authentic file holds. -/
structure Opened where
  isV2 : Bool
  fileSalt : Arr 16
  candidateKey : Arr 32
  plaintext : CStr

/-- The bytes of a file that is long enough, authenticated and decrypted. -/
def openFile (env : Env) (masterPw : CStr) (filebuf : List UInt8) : Except EspErr Opened :=
  let isV2 := vaultMagic.isPrefixOf filebuf
  let headerLen := if isV2 then v2HeaderLen else legacyHeaderLen
  if isV2 && !validV2Header filebuf then .error espErrNotSupported
  else if filebuf.length < headerLen + 16 + hmacLen then .error espErrInvalidSize
  else
    let fileSalt : Arr 16 := .ofSlice (filebuf.drop (if isV2 then v2SaltOffset else 0))
    let fileIv : Arr 16 := .ofSlice (filebuf.drop (if isV2 then v2IvOffset else 16))
    let body := filebuf.take (filebuf.length - hmacLen)
    let ciphertext := body.drop headerLen
    if ciphertext.length = 0 ∨ ciphertext.length % 16 ≠ 0 then .error espErrInvalidSize
    else
      match if isV2 then deriveKeyV2 env masterPw fileSalt else deriveKeyLegacy env masterPw fileSalt with
      | none => .error espFail
      | some candidateKey =>
        if !env.hmacVerify candidateKey body (filebuf.drop (filebuf.length - hmacLen)) then
          .error espErrInvalidArg
        else if !env.malloc .plaintext then .error espErrNoMem
        else
          match env.aes256CbcDecrypt candidateKey fileIv ciphertext with
          | none => .error espFail
          | some plaintext =>
            let plainLen := pkcs7Unpad plaintext
            if plainLen = 0 then .error espErrInvalidArg
            else .ok ⟨isV2, fileSalt, candidateKey, .ofBuffer (plaintext.take plainLen)⟩

/-! ### Files and their history -/

abbrev Path := List String

abbrev Tree := FileTree String UInt8

def vaultConfigDir : Path := ["sdcard", "config"]
def vaultPath : Path := vaultConfigDir ++ ["vault.enc"]
def vaultTempPath : Path := vaultConfigDir ++ ["vault.enc.tmp"]
def vaultBackupPath : Path := vaultConfigDir ++ ["vault.enc.bak"]

/-- What the history tells of a program, beside its file operations: that a save begins and what it
reports, and that a load takes the device for a new one. -/
inductive Mark
  | began (filebuf : List UInt8)
  | reported (filebuf : List UInt8) (rc : EspErr)
  | firstUse

/-- The content of the last save that has reported success, the contents of the saves since then
that have not reported an error, and whether a load has taken a device with a saved vault for a new
one. -/
structure History where
  saved : Option (List UInt8)
  started : List (List UInt8)
  forgotten : Bool

def History.empty : History := ⟨none, [], false⟩

def History.record (h : History) : Mark → History
  | .began filebuf => { h with started := filebuf :: h.started }
  | .reported filebuf rc =>
    if rc = espOk then { h with saved := some filebuf, started := [] }
    else { h with started := h.started.erase filebuf }
  | .firstUse => { h with forgotten := h.forgotten || h.saved.isSome }

def marks : Sig where
  Op := Mark
  Reply _ := Unit

def historian : Machine marks History where
  Fault := Empty
  perform mark h := ((), h.record mark)
  disturb _ fault _ := fault.elim

abbrev VaultProg (α : Type) := Prog ((fsSig String UInt8).sum marks) α

abbrev State := Tree × History

/-- Every file operation may fail, and the power may be lost. -/
abbrev device : Machine ((fsSig String UInt8).sum marks) State :=
  (machine String UInt8).sum historian

def note (mark : Mark) : VaultProg Unit := .call (S := (fsSig String UInt8).sum marks) (.inr mark) .pure

def stat (p : Path) : VaultProg Bool :=
  .call (S := (fsSig String UInt8).sum marks) (.inl (.exists? p)) .pure

def fread (p : Path) : VaultProg (Option (List UInt8)) :=
  .call (S := (fsSig String UInt8).sum marks) (.inl (.read p)) fun r => .pure (Except.toOption r)

/-- An operation, and whether it has succeeded. -/
def perform (u : FsUpdate String UInt8) : VaultProg Bool :=
  .call (S := (fsSig String UInt8).sum marks) (.inl (.update u)) fun r => .pure (Except.toBool r)

/-- Some platforms let a renaming replace a file, others refuse it. -/
def rename (env : Env) (src dst : Path) : FsUpdate String UInt8 :=
  if env.overwrites then .replace src dst else .rename src dst

/-! ### Saving and loading -/

def ensureConfigDir : VaultProg Unit := do
  if !(← stat vaultConfigDir) then
    let _ ← perform (.createDir vaultConfigDir)
  pure ()

def recoverInterruptedVaultWrite (env : Env) : VaultProg EspErr := do
  if ← stat vaultPath then pure espOk
  else if ← stat vaultBackupPath then
    if ← perform (rename env vaultBackupPath vaultPath) then pure espOk else pure espErrNotFound
  else pure espErrNotFound

def discardTemp : VaultProg EspErr := do
  let _ ← perform (.removeFile vaultTempPath)
  pure espFail

/-- The second half of `replace_vault_file`. -/
def installVaultFile (env : Env) (hadOriginal : Bool) : VaultProg EspErr := do
  if ← perform (rename env vaultTempPath vaultPath) then
    if hadOriginal then
      let _ ← perform (.removeFile vaultBackupPath)
    pure espOk
  else
    if hadOriginal then
      let _ ← perform (rename env vaultBackupPath vaultPath)
    discardTemp

/-- The vault moves out of the way, if there is one. -/
def moveAside (env : Env) (hadOriginal : Bool) : VaultProg EspErr := do
  if hadOriginal then
    if ← perform (rename env vaultPath vaultBackupPath) then installVaultFile env true
    else discardTemp
  else installVaultFile env false

def replaceVaultFile (env : Env) : VaultProg EspErr := do
  let hadOriginal ← stat vaultPath
  let _ ← perform (.removeFile vaultBackupPath)
  moveAside env hadOriginal

/-- The new file beside the old one: `fopen`, `fwrite` and `fclose`. -/
def writeTemp (filebuf : List UInt8) : VaultProg EspErr := do
  if ← perform (.create vaultTempPath none) then
    let writeOk ← perform (.writeAll vaultTempPath filebuf)
    let closeOk ← perform (.syncAll vaultTempPath)
    if writeOk && closeOk then pure espOk else pure espFail
  else pure espErrNotFound

/-- A replacement that fails drops the new file once more. -/
def orDiscard (x : VaultProg EspErr) : VaultProg EspErr := do
  if (← x) = espOk then pure espOk else discardTemp

/-- What follows on the writing of the new file. -/
def storeTemp (env : Env) (rc : EspErr) : VaultProg EspErr :=
  if rc = espErrNotFound then pure rc
  else if rc = espOk then orDiscard (replaceVaultFile env)
  else discardTemp

def vaultSave (env : Env) (vault : SVault) : VaultProg EspErr := do
  ensureConfigDir
  match sealVault env vault with
  | .error rc => pure rc
  | .ok filebuf =>
    note (.began filebuf)
    let rc ← writeTemp filebuf
    let rc ← storeTemp env rc
    note (.reported filebuf rc)
    pure rc

/-- A device without a vault gets an empty one. -/
def firstUse (env : Env) (masterPw : CStr) (vault : SVault) : VaultProg (EspErr × SVault) := do
  note .firstUse
  match env.randomSalt with
  | none => pure (espFail, { vault with salt := .zero })
  | some salt =>
    let vault := { vault with salt := salt, entryCount := 0 }
    match deriveKeyV2 env masterPw salt with
    | none => pure (espFail, vault)
    | some key =>
      let vault := { vault with derivedKey := key }
      let rc ← vaultSave env vault
      if rc = espOk then pure (espOk, vault) else pure (rc, { vault with derivedKey := .zero })

/-- The entries of a file of the first version are saved again under a new key. -/
def migrate (env : Env) (masterPw : CStr) (vault : SVault) : VaultProg (EspErr × SVault) :=
  match env.randomSalt with
  | none => pure (espFail, vault)
  | some migratedSalt =>
    match deriveKeyV2 env masterPw migratedSalt with
    | none => pure (espFail, vault)
    | some migratedKey => do
      let vault := { vault with salt := migratedSalt, derivedKey := migratedKey }
      let rc ← vaultSave env vault
      if rc = espOk then pure (espOk, vault) else pure (espFail, { vault with derivedKey := .zero })

/-- The entries of an authentic file. -/
def SVault.fill (vault : SVault) (opened : Opened) : SVault :=
  let (entries, count) := jsonToEntries opened.plaintext vault.entries
  { vault with entries := entries, entryCount := count }

/-- The file is opened and measured, then read, authenticated and decrypted. -/
def readFile (env : Env) (masterPw : CStr) : VaultProg (Except EspErr Opened) := do
  match ← fread vaultPath with
  | none => pure (.error espErrNotFound)
  | some sized =>
    if sized.length < legacyHeaderLen + 16 + hmacLen then pure (.error espErrInvalidSize)
    else if !env.malloc .filebuf then pure (.error espErrNoMem)
    else
      match ← fread vaultPath with
      | none => pure (.error espErrInvalidSize)
      | some filebuf => pure (openFile env masterPw filebuf)

def loadFile (env : Env) (masterPw : CStr) (vault : SVault) : VaultProg (EspErr × SVault) := do
  match ← readFile env masterPw with
  | .error rc => pure (rc, vault)
  | .ok opened =>
    let vault := vault.fill opened
    if opened.isV2 then
      pure (espOk, { vault with salt := opened.fileSalt, derivedKey := opened.candidateKey })
    else migrate env masterPw vault

def loadOrCreate (env : Env) (masterPw : CStr) (vault : SVault) : VaultProg (EspErr × SVault) := do
  if ← stat vaultPath then loadFile env masterPw vault
  else firstUse env masterPw vault

def vaultLoad (env : Env) (masterPw : CStr) (vault : SVault) : VaultProg (EspErr × SVault) := do
  ensureConfigDir
  let _ ← recoverInterruptedVaultWrite env
  loadOrCreate env masterPw vault

end ThistleOS.Vault
