import ThistleOS.Bytes
import ThistleOS.Component
import ThistleOS.EspErr
import ThistleOS.Text

/-!
# Encryption of messages

A table of channels, one for each contact, with keys that are derived from a passphrase. A message is
encrypted in counter mode and authenticated with a MAC over the envelope before it.
-/

namespace ThistleOS.MsgCrypto

def maxChannels : Nat := 32
def maxPassphraseLen : Nat := 256
abbrev masterKeyLen : Nat := 32
abbrev nonceLen : Nat := 16
abbrev hmacLen : Nat := 32
def headerLen : Nat := 1
def overhead : Nat := headerLen + nonceLen + hmacLen
abbrev v2SaltLen : Nat := 16
def v2Overhead : Nat := headerLen + v2SaltLen + nonceLen + hmacLen
def legacyVersion : UInt8 := 1
def version : UInt8 := 2
def pbkdf2Iterations : UInt32 := 10000
def pbkdf2Salt : List UInt8 := utf8 "ThistleOS-MsgCrypto-v1"
def argon2idMaxPasswordLen : Nat := 1024

/-- The functions of the cryptographic libraries. Only Argon2 may fail. -/
structure Crypto where
  aes256 : Arr 32 → Arr 16 → Arr 16
  hmacSha256 : Arr 32 → List UInt8 → Arr 32
  sha256 : List UInt8 → Arr 32
  pbkdf2HmacSha256 : List UInt8 → List UInt8 → UInt32 → Arr 32
  argon2id : List UInt8 → Arr 16 → Option (Arr 32)

variable (crypto : Crypto)

/-- The carry goes through the given bytes as long as they become zero. -/
def incrementFrom : List (Fin 16) → Arr 16 → Arr 16
  | [], counter => counter
  | i :: is, counter =>
    let counter : Arr 16 := Function.update counter i (counter i + 1)
    if counter i ≠ 0 then counter else incrementFrom is counter

/-- The last four bytes are the counter, the last of them first. -/
def incrementCounter (counter : Arr 16) : Arr 16 :=
  incrementFrom ((List.finRange 16).reverse.take 4) counter

/-- What is written to the output. -/
def aes256CtrProcess (key : Arr 32) (nonce : Arr 16) (input : List UInt8) : List UInt8 :=
  counterMode (crypto.aes256 key) incrementCounter ((input.length + 15) / 16) nonce input

def computeHmac (key : Arr 32) (data : List UInt8) : Arr 32 := crypto.hmacSha256 key data

def derivePerMessageKeys (masterKey : Arr masterKeyLen) (nonce : Arr nonceLen) : Arr 32 × Arr 32 :=
  (computeHmac crypto masterKey (nonce.bytes ++ utf8 "enc"),
    computeHmac crypto masterKey (nonce.bytes ++ utf8 "mac"))

def constantTimeEq (a b : List UInt8) : Bool :=
  if a.length ≠ b.length then false else differingBits a b == 0

def deriveMasterKey (passphrase : List UInt8) : Arr masterKeyLen :=
  crypto.pbkdf2HmacSha256 passphrase pbkdf2Salt pbkdf2Iterations

def prehashPassphrase (passphrase : List UInt8) : Arr masterKeyLen :=
  crypto.sha256 (utf8 "ThistleOS-MsgCrypto-v2\x00" ++ passphrase)

def deriveArgon2idKey (password : List UInt8) (salt : Arr 16) : Except EspErr (Arr 32) :=
  if password.isEmpty || argon2idMaxPasswordLen < password.length then .error espErrInvalidArg
  else
    match crypto.argon2id password salt with
    | some key => .ok key
    | none => .error espFail

def deriveV2MasterKey (passwordMaterial : Arr masterKeyLen) (salt : Arr v2SaltLen) :
    Except EspErr (Arr masterKeyLen) :=
  deriveArgon2idKey crypto passwordMaterial.bytes salt

def deriveV2EnvelopeKeyWith (passwordMaterial : Arr masterKeyLen) (input : List UInt8)
    (derive : Arr masterKeyLen → Arr v2SaltLen → Except EspErr (Arr masterKeyLen)) :
    Except EspErr (Arr masterKeyLen) :=
  if input.length < v2Overhead then .error espErrInvalidSize
  else if input.head? ≠ some version then .error espErrNotSupported
  else derive passwordMaterial (.ofSlice (input.drop headerLen))

/-! ### Envelopes -/

/-- The envelope of a plaintext: a header, the nonce, the ciphertext, and the MAC of all of these. The
result is the length and the output. -/
def encryptEnvelope (masterKey : Arr masterKeyLen) (header plaintext output : List UInt8)
    (random : Option (Arr nonceLen)) : Except EspErr Nat × List UInt8 :=
  let totalLen := header.length + nonceLen + hmacLen + plaintext.length
  if output.length < totalLen then (.error espErrNoMem, output)
  else
    match random with
    | none => (.error espFail, output)
    | some nonce =>
      let (encKey, macKey) := derivePerMessageKeys crypto masterKey nonce
      let ctStart := header.length + nonceLen
      let ctEnd := ctStart + plaintext.length
      let output := copyInto 0 header output
      let output := copyInto header.length nonce.bytes output
      let output := copyInto ctStart (aes256CtrProcess crypto encKey nonce plaintext) output
      let output := copyInto ctEnd (computeHmac crypto macKey (output.take ctEnd)).bytes output
      (.ok totalLen, output)

/-- The plaintext of an envelope with the given version and length of the header. The result is the
length and the plaintext buffer. -/
def decryptEnvelope (masterKey : Arr masterKeyLen) (ver : UInt8) (header : Nat)
    (input plaintext : List UInt8) : Except EspErr Nat × List UInt8 :=
  if input.length < header + nonceLen + hmacLen then (.error espErrInvalidSize, plaintext)
  else if input.head? ≠ some ver then (.error espErrNotSupported, plaintext)
  else
    let nonce : Arr nonceLen := .ofSlice (input.drop header)
    let ctLen := input.length - (header + nonceLen + hmacLen)
    let ctStart := header + nonceLen
    let ctEnd := ctStart + ctLen
    if plaintext.length < ctLen then (.error espErrNoMem, plaintext)
    else
      let (encKey, macKey) := derivePerMessageKeys crypto masterKey nonce
      let computedHmac := computeHmac crypto macKey (input.take ctEnd)
      if !constantTimeEq computedHmac.bytes ((input.drop ctEnd).take hmacLen) then
        (.error espErrInvalidCrc, plaintext)
      else
        (.ok ctLen,
          copyInto 0 (aes256CtrProcess crypto encKey nonce ((input.drop ctStart).take ctLen)) plaintext)

def encryptMessage (masterKey : Arr masterKeyLen) (plaintext output : List UInt8)
    (random : Option (Arr nonceLen)) : Except EspErr Nat × List UInt8 :=
  encryptEnvelope crypto masterKey [legacyVersion] plaintext output random

def decryptMessage (masterKey : Arr masterKeyLen) (input plaintext : List UInt8) :
    Except EspErr Nat × List UInt8 :=
  decryptEnvelope crypto masterKey legacyVersion headerLen input plaintext

def encryptMessageV2 (masterKey : Arr masterKeyLen) (salt : Arr v2SaltLen)
    (plaintext output : List UInt8) (random : Option (Arr nonceLen)) : Except EspErr Nat × List UInt8 :=
  encryptEnvelope crypto masterKey (version :: salt.bytes) plaintext output random

def decryptMessageV2 (masterKey : Arr masterKeyLen) (input plaintext : List UInt8) :
    Except EspErr Nat × List UInt8 :=
  decryptEnvelope crypto masterKey version (headerLen + v2SaltLen) input plaintext

/-! ### Channels -/

structure CryptoChannel where
  contactId : UInt32
  masterKey : Arr masterKeyLen
  salt : Arr v2SaltLen
  passwordMaterial : Arr masterKeyLen
  legacyMasterKey : Arr masterKeyLen
  active : Bool
  msgCountTx : UInt32
  msgCountRx : UInt32

def CryptoChannel.empty : CryptoChannel := ⟨0, .zero, .zero, .zero, .zero, false, 0, 0⟩

structure MsgCryptoState where
  channels : Fin maxChannels → CryptoChannel
  channelCount : Nat
  initialized : Bool

namespace MsgCryptoState

def new : MsgCryptoState := ⟨fun _ => .empty, 0, false⟩

def findChannel (st : MsgCryptoState) (contactId : UInt32) : Option (Fin maxChannels) :=
  (List.finRange maxChannels).find? fun i =>
    (st.channels i).active && (st.channels i).contactId == contactId

def findFreeSlot (st : MsgCryptoState) : Option (Fin maxChannels) :=
  (List.finRange maxChannels).find? fun i => !(st.channels i).active

def setChannel (st : MsgCryptoState) (i : Fin maxChannels) (ch : CryptoChannel) : MsgCryptoState :=
  { st with channels := Function.update st.channels i ch }

end MsgCryptoState

/-- Every field of a channel is overwritten. -/
def zeroizeChannel (_ : CryptoChannel) : CryptoChannel := ⟨0, .zero, .zero, .zero, .zero, false, 0, 0⟩

/-- A pointer and a length of the caller. -/
inductive Slice
  | null (len : Nat)
  | at (bytes : List UInt8)

namespace Slice

def isNull : Slice → Bool
  | null _ => true
  | .at _ => false

def len : Slice → Nat
  | null len => len
  | .at bytes => bytes.length

def bytes : Slice → List UInt8
  | null _ => []
  | .at bytes => bytes

end Slice

def rsMsgCryptoInit (st : MsgCryptoState) : EspErr × MsgCryptoState :=
  (espOk, ⟨fun i => zeroizeChannel (st.channels i), 0, true⟩)

/-- The free slot or the slot of the contact, whose old channel is erased and no longer counted. -/
def establishSlot (contactId : UInt32) (st : MsgCryptoState) : Option (Fin maxChannels) × MsgCryptoState :=
  match st.findChannel contactId with
  | some i =>
    (some i, { st.setChannel i (zeroizeChannel (st.channels i)) with
      channelCount := st.channelCount - 1 })
  | none => (st.findFreeSlot, st)

def rsMsgCryptoEstablish (contactId : UInt32) (passphrase : Slice) (random : Option (Arr v2SaltLen))
    (st : MsgCryptoState) : EspErr × MsgCryptoState :=
  if passphrase.isNull || passphrase.len == 0 || maxPassphraseLen < passphrase.len then
    (espErrInvalidArg, st)
  else if !st.initialized then (espErrInvalidState, st)
  else
    let passwordMaterial := prehashPassphrase crypto passphrase.bytes
    let legacyMasterKey := deriveMasterKey crypto passphrase.bytes
    match random with
    | none => (espFail, st)
    | some salt =>
      match deriveV2MasterKey crypto passwordMaterial salt with
      | .error err => (err, st)
      | .ok masterKey =>
        match establishSlot contactId st with
        | (none, st) => (espErrNoMem, st)
        | (some slot, st) =>
          (espOk, { st.setChannel slot
              ⟨contactId, masterKey, salt, passwordMaterial, legacyMasterKey, true, 0, 0⟩ with
            channelCount := st.channelCount + 1 })

def rsMsgCryptoDestroy (contactId : UInt32) (st : MsgCryptoState) : EspErr × MsgCryptoState :=
  if !st.initialized then (espErrInvalidState, st)
  else
    match st.findChannel contactId with
    | some i =>
      (espOk, { st.setChannel i (zeroizeChannel (st.channels i)) with
        channelCount := st.channelCount - 1 })
    | none => (espErrNotFound, st)

def rsMsgCryptoDestroyAll (st : MsgCryptoState) : EspErr × MsgCryptoState :=
  if !st.initialized then (espErrInvalidState, st)
  else (espOk, { st with channels := fun i => zeroizeChannel (st.channels i), channelCount := 0 })

/-- What an exported function leaves behind for its caller: a length or an error, and the buffer that
it may write to. -/
abbrev Outcome := Except EspErr Nat × Option (List UInt8)

def rsMsgCryptoEncrypt (contactId : UInt32) (plaintext : Slice) (ciphertext : Option (List UInt8))
    (random : Option (Arr nonceLen)) (st : MsgCryptoState) : Outcome × MsgCryptoState :=
  match ciphertext with
  | none => ((.error espErrInvalidArg, none), st)
  | some ct =>
    if plaintext.isNull && 0 < plaintext.len then ((.error espErrInvalidArg, some ct), st)
    else if !st.initialized then ((.error espErrInvalidState, some ct), st)
    else
      match st.findChannel contactId with
      | none => ((.error espErrNotFound, some ct), st)
      | some i =>
        let ch := st.channels i
        match encryptMessageV2 crypto ch.masterKey ch.salt plaintext.bytes ct random with
        | (.ok len, ct) =>
          ((.ok len, some ct), st.setChannel i { ch with msgCountTx := ch.msgCountTx + 1 })
        | (.error e, ct) => ((.error e, some ct), st)

/-- The version decides how an envelope is decrypted. -/
def decryptAny (ch : CryptoChannel) (ct pt : List UInt8) : Except EspErr Nat × List UInt8 :=
  match ct.head? with
  | none => (.error espErrInvalidSize, pt)
  | some v =>
    if v = legacyVersion then decryptMessage crypto ch.legacyMasterKey ct pt
    else if v = version then
      match deriveV2EnvelopeKeyWith ch.passwordMaterial ct (deriveV2MasterKey crypto) with
      | .ok masterKey => decryptMessageV2 crypto masterKey ct pt
      | .error e => (.error e, pt)
    else (.error espErrNotSupported, pt)

def rsMsgCryptoDecrypt (contactId : UInt32) (ciphertext : Option (List UInt8))
    (plaintext : Option (List UInt8)) (st : MsgCryptoState) : Outcome × MsgCryptoState :=
  match ciphertext, plaintext with
  | some ct, some pt =>
    if !st.initialized then ((.error espErrInvalidState, some pt), st)
    else
      match st.findChannel contactId with
      | none => ((.error espErrNotFound, some pt), st)
      | some i =>
        let ch := st.channels i
        match decryptAny crypto ch ct pt with
        | (.ok len, pt) =>
          ((.ok len, some pt), st.setChannel i { ch with msgCountRx := ch.msgCountRx + 1 })
        | (.error e, pt) => ((.error e, some pt), st)
  | _, _ => ((.error espErrInvalidArg, plaintext), st)

/-- The integer that an exported function returns. -/
def returned : Except EspErr Nat → Int32
  | .ok len => Int32.ofNat len
  | .error e => e

/-! ### What the calls do -/

variable {crypto} {contactId : UInt32} {random : Option (Arr nonceLen)} {st st' : MsgCryptoState}

/-- The slot of a contact is found by what the slots say of the contact. -/
lemma findChannel_congr
    (h : ∀ j, ((st'.channels j).active && (st'.channels j).contactId == contactId) =
      ((st.channels j).active && (st.channels j).contactId == contactId)) :
    st'.findChannel contactId = st.findChannel contactId := by
  unfold MsgCryptoState.findChannel
  congr 1
  funext j
  exact h j

lemma findChannel_eq_some {i : Fin maxChannels}
    (h : ∀ j, ((st.channels j).active && (st.channels j).contactId == contactId) = true ↔ j = i) :
    st.findChannel contactId = some i := by
  have hsome : (st.findChannel contactId).isSome :=
    List.find?_isSome.mpr ⟨i, List.mem_finRange i, (h i).mpr rfl⟩
  obtain ⟨j, hj⟩ := Option.isSome_iff_exists.mp hsome
  have hmatch := List.find?_some hj
  rw [hj, (h j).mp hmatch]

lemma findChannel_eq_none (h : st.findChannel contactId = none) (j : Fin maxChannels) :
    ((st.channels j).active && (st.channels j).contactId == contactId) = false := by
  simpa using List.find?_eq_none.mp h j (List.mem_finRange j)

lemma findChannel_active {i : Fin maxChannels} (h : st.findChannel contactId = some i) :
    (st.channels i).active = true ∧ (st.channels i).contactId = contactId := by
  simpa using List.find?_some h

lemma findFreeSlot_inactive {i : Fin maxChannels} (h : st.findFreeSlot = some i) :
    (st.channels i).active = false := by
  simpa using List.find?_some h

lemma encryptEnvelope_error {masterKey : Arr masterKeyLen} {header plaintext output : List UInt8}
    {e : EspErr} (h : (encryptEnvelope crypto masterKey header plaintext output random).1 = .error e) :
    encryptEnvelope crypto masterKey header plaintext output random = (.error e, output) := by
  cases random with
  | none =>
    simp only [encryptEnvelope] at h ⊢
    split_ifs at h ⊢
    · rw [← h]
    · rw [← h]
  | some nonce =>
    simp only [encryptEnvelope] at h ⊢
    split_ifs at h ⊢
    rw [← h]

lemma decryptEnvelope_error {masterKey : Arr masterKeyLen} {ver : UInt8} {header : Nat}
    {input plaintext : List UInt8} {e : EspErr}
    (h : (decryptEnvelope crypto masterKey ver header input plaintext).1 = .error e) :
    decryptEnvelope crypto masterKey ver header input plaintext = (.error e, plaintext) := by
  simp only [decryptEnvelope] at h ⊢
  split_ifs at h ⊢
  · rw [← h]
  · rw [← h]
  · rw [← h]
  · rw [← h]

lemma decryptAny_error {ch : CryptoChannel} {ct pt : List UInt8} {e : EspErr}
    (h : (decryptAny crypto ch ct pt).1 = .error e) : decryptAny crypto ch ct pt = (.error e, pt) := by
  rw [decryptAny] at h ⊢
  cases hhead : ct.head? with
  | none => rw [← h, hhead]
  | some v =>
    simp only [hhead] at h ⊢
    split_ifs at h ⊢
    · exact decryptEnvelope_error h
    · cases hkey : deriveV2EnvelopeKeyWith ch.passwordMaterial ct (deriveV2MasterKey crypto) with
      | ok masterKey =>
        rw [hkey] at h
        exact decryptEnvelope_error h
      | error e' =>
        rw [hkey] at h
        cases h
        rfl
    · rw [← h]

/-- An encryption that fails leaves the buffer and the table as they are; another one counts a
message. -/
lemma rsMsgCryptoEncrypt_cases (crypto : Crypto) (contactId : UInt32) (plaintext : Slice)
    (ciphertext : Option (List UInt8)) (random : Option (Arr nonceLen)) (st : MsgCryptoState) :
    (∃ e, rsMsgCryptoEncrypt crypto contactId plaintext ciphertext random st =
      ((.error e, ciphertext), st)) ∨
    ∃ i ct len ct', st.initialized = true ∧ ciphertext = some ct ∧ st.findChannel contactId = some i ∧
      encryptMessageV2 crypto (st.channels i).masterKey (st.channels i).salt plaintext.bytes ct random =
        (.ok len, ct') ∧
      rsMsgCryptoEncrypt crypto contactId plaintext ciphertext random st =
        ((.ok len, some ct'), st.setChannel i
          { st.channels i with msgCountTx := (st.channels i).msgCountTx + 1 }) := by
  cases ciphertext with
  | none => exact .inl ⟨_, rfl⟩
  | some ct =>
    rw [rsMsgCryptoEncrypt]
    split_ifs with hnull hinit
    · exact .inl ⟨_, rfl⟩
    · exact .inl ⟨_, rfl⟩
    · cases hfind : st.findChannel contactId with
      | none => exact .inl ⟨_, rfl⟩
      | some i =>
        dsimp only
        cases hresult : (encryptMessageV2 crypto (st.channels i).masterKey (st.channels i).salt
            plaintext.bytes ct random).1 with
        | error e =>
          have herr := encryptEnvelope_error hresult
          rw [encryptMessageV2, herr]
          exact .inl ⟨e, rfl⟩
        | ok len =>
          have hpair : encryptMessageV2 crypto (st.channels i).masterKey (st.channels i).salt
              plaintext.bytes ct random = (.ok len, (encryptMessageV2 crypto (st.channels i).masterKey
                (st.channels i).salt plaintext.bytes ct random).2) := Prod.ext hresult rfl
          refine .inr ⟨i, ct, len, _, by simpa using hinit, rfl, rfl, hpair, ?_⟩
          rw [hpair]

lemma rsMsgCryptoDecrypt_cases (crypto : Crypto) (contactId : UInt32)
    (ciphertext plaintext : Option (List UInt8)) (st : MsgCryptoState) :
    (∃ e, rsMsgCryptoDecrypt crypto contactId ciphertext plaintext st = ((.error e, plaintext), st)) ∨
    ∃ i ct pt len pt', st.initialized = true ∧ ciphertext = some ct ∧ plaintext = some pt ∧
      st.findChannel contactId = some i ∧ decryptAny crypto (st.channels i) ct pt = (.ok len, pt') ∧
      rsMsgCryptoDecrypt crypto contactId ciphertext plaintext st =
        ((.ok len, some pt'), st.setChannel i
          { st.channels i with msgCountRx := (st.channels i).msgCountRx + 1 }) := by
  cases ciphertext with
  | none => exact .inl ⟨_, rfl⟩
  | some ct =>
    cases plaintext with
    | none => exact .inl ⟨_, rfl⟩
    | some pt =>
      simp only [rsMsgCryptoDecrypt]
      split_ifs with hinit
      · exact .inl ⟨_, rfl⟩
      · cases hfind : st.findChannel contactId with
        | none => exact .inl ⟨_, rfl⟩
        | some i =>
          dsimp only
          cases hresult : (decryptAny crypto (st.channels i) ct pt).1 with
          | error e =>
            rw [decryptAny_error hresult]
            exact .inl ⟨e, rfl⟩
          | ok len =>
            have hpair : decryptAny crypto (st.channels i) ct pt =
                (.ok len, (decryptAny crypto (st.channels i) ct pt).2) := Prod.ext hresult rfl
            refine .inr ⟨i, ct, pt, len, _, by simpa using hinit, rfl, rfl, rfl, hpair, ?_⟩
            rw [hpair]

/-- The key derivation gets a password that is long enough. -/
lemma deriveV2MasterKey_error {material : Arr masterKeyLen} {salt : Arr v2SaltLen} {e : EspErr}
    (h : deriveV2MasterKey crypto material salt = .error e) : e = espFail := by
  have hmaterial : (material.bytes.isEmpty || argon2idMaxPasswordLen < material.bytes.length) =
      false := by
    have hlen := Arr.length_bytes material
    rw [hlen, List.isEmpty_eq_false_iff.mpr (List.ne_nil_of_length_pos (by rw [hlen]; decide))]
    rfl
  rw [deriveV2MasterKey, deriveArgon2idKey, hmaterial, if_neg Bool.false_ne_true] at h
  split at h
  · cases h
  · exact (Except.error.inj h).symm

/-- An establishment that fails leaves the table as it is; another one puts a new channel into the slot
of the contact, or into a free slot if the contact has none. -/
lemma rsMsgCryptoEstablish_cases (crypto : Crypto) (contactId : UInt32) (passphrase : Slice)
    (random : Option (Arr v2SaltLen)) (st : MsgCryptoState) :
    (∃ e, e ≠ espOk ∧ rsMsgCryptoEstablish crypto contactId passphrase random st = (e, st)) ∨
    ∃ masterKey salt slot count, st.initialized = true ∧
      deriveV2MasterKey crypto (prehashPassphrase crypto passphrase.bytes) salt = .ok masterKey ∧
      ((st.findChannel contactId = some slot ∧ count = st.channelCount - 1 + 1) ∨
        (st.findChannel contactId = none ∧ st.findFreeSlot = some slot ∧
          count = st.channelCount + 1)) ∧
      rsMsgCryptoEstablish crypto contactId passphrase random st =
        (espOk, { st.setChannel slot ⟨contactId, masterKey, salt,
          prehashPassphrase crypto passphrase.bytes, deriveMasterKey crypto passphrase.bytes, true, 0, 0⟩
            with channelCount := count }) := by
  rw [rsMsgCryptoEstablish]
  split_ifs with harg hinit
  · exact .inl ⟨_, by decide, rfl⟩
  · exact .inl ⟨_, by decide, rfl⟩
  · cases random with
    | none => exact .inl ⟨_, by decide, rfl⟩
    | some salt =>
      dsimp only
      cases hkey : deriveV2MasterKey crypto (prehashPassphrase crypto passphrase.bytes) salt with
      | error e =>
        refine .inl ⟨e, ?_, rfl⟩
        rw [deriveV2MasterKey_error hkey]
        decide
      | ok masterKey =>
        simp only [Bool.not_eq_true', Bool.not_eq_false] at hinit
        dsimp only
        rw [establishSlot]
        cases hfind : st.findChannel contactId with
        | some slot =>
          refine .inr ⟨masterKey, salt, slot, _, hinit, hkey, .inl ⟨rfl, rfl⟩, ?_⟩
          simp [MsgCryptoState.setChannel]
        | none =>
          cases hfree : st.findFreeSlot with
          | none => exact .inl ⟨_, by decide, rfl⟩
          | some slot =>
            exact .inr ⟨masterKey, salt, slot, _, hinit, hkey, .inr ⟨rfl, rfl, rfl⟩, rfl⟩

end ThistleOS.MsgCrypto
