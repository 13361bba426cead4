import ThistleOS.Kernel.MsgCrypto.RoundTrip
import ThistleOS.Kernel.MsgCrypto.Table

/-!
# The integers that are returned

An encryption and a decryption return a length or an error in one integer.
-/

namespace ThistleOS.MsgCrypto

/-- A call of the exported encryption. A slice is no longer than what an `isize` counts. -/
structure EncryptCall where
  state : MsgCryptoState
  wellFormed : WellFormed state
  contactId : UInt32
  plaintext : Slice
  ciphertext : Option (List UInt8)
  short : ∀ ct, ciphertext = some ct → ct.length < 0x80000000
  random : Option (Arr nonceLen)

structure DecryptCall where
  state : MsgCryptoState
  wellFormed : WellFormed state
  contactId : UInt32
  ciphertext : Option (List UInt8)
  short : ∀ ct, ciphertext = some ct → ct.length < 0x80000000
  plaintext : Option (List UInt8)

def EncryptCall.result (crypto : Crypto) (c : EncryptCall) : Except EspErr Nat :=
  (rsMsgCryptoEncrypt crypto c.contactId c.plaintext c.ciphertext c.random c.state).1.1

def DecryptCall.result (crypto : Crypto) (c : DecryptCall) : Except EspErr Nat :=
  (rsMsgCryptoDecrypt crypto c.contactId c.ciphertext c.plaintext c.state).1.1

/-- If the call fails, then it returns what no other call returns as a length. -/
def Unambiguous {Call : Type} (result : Call → Except EspErr Nat) (c : Call) : Prop :=
  ∀ e, result c = .error e → ∀ c' len, result c' = .ok len → returned (.ok len) ≠ returned (.error e)

/-- The call passes every check: the pointers, the channel, and the length of the output. -/
def EncryptCall.Passes (c : EncryptCall) : Prop :=
  ∃ ct i, c.ciphertext = some ct ∧ (c.plaintext.isNull && 0 < c.plaintext.len) = false ∧
    c.state.initialized = true ∧ c.state.findChannel c.contactId = some i ∧
    v2Overhead + c.plaintext.bytes.length ≤ ct.length

/-- The envelope is long enough, its plaintext fits and its MAC is right. -/
def EnvelopePasses (crypto : Crypto) (masterKey : Arr masterKeyLen) (header : Nat)
    (ct pt : List UInt8) : Prop :=
  header + nonceLen + hmacLen ≤ ct.length ∧ ct.length - (header + nonceLen + hmacLen) ≤ pt.length ∧
    constantTimeEq
      (computeHmac crypto (derivePerMessageKeys crypto masterKey (.ofSlice (ct.drop header))).2
        (ct.take (header + nonceLen + (ct.length - (header + nonceLen + hmacLen))))).bytes
      ((ct.drop (header + nonceLen + (ct.length - (header + nonceLen + hmacLen)))).take hmacLen) = true

/-- The envelope passes the checks of its version. Where Argon2 fails, there is no key to check with. -/
def AnyPasses (crypto : Crypto) (ch : CryptoChannel) (ct pt : List UInt8) : Prop :=
  (ct.head? = some legacyVersion ∧ EnvelopePasses crypto ch.legacyMasterKey headerLen ct pt) ∨
  (ct.head? = some version ∧ v2Overhead ≤ ct.length ∧
    ∀ masterKey, deriveV2MasterKey crypto ch.passwordMaterial (.ofSlice (ct.drop headerLen)) =
      .ok masterKey → EnvelopePasses crypto masterKey (headerLen + v2SaltLen) ct pt)

def DecryptCall.Passes (crypto : Crypto) (c : DecryptCall) : Prop :=
  ∃ ct pt i, c.ciphertext = some ct ∧ c.plaintext = some pt ∧ c.state.initialized = true ∧
    c.state.findChannel c.contactId = some i ∧ AnyPasses crypto (c.state.channels i) ct pt

/-! ### Errors -/

/-- The errors that are positive. -/
def namedErrors : List EspErr :=
  [espErrNoMem, espErrInvalidArg, espErrInvalidState, espErrInvalidSize, espErrNotFound,
    espErrNotSupported, espErrInvalidCrc]

/-- The result is a length that an `i32` holds, or the error -1. -/
def LengthOrFail (result : Except EspErr Nat) : Prop :=
  (∃ len, result = .ok len) ∨ result = .error espFail

def Named (result : Except EspErr Nat) : Prop := ∃ e ∈ namedErrors, result = .error e

variable {Call : Type} {result : Call → Except EspErr Nat} {c : Call}

/-- A named error is also a length. -/
lemma named_eq_length {e : EspErr} (he : e ∈ namedErrors) :
    ∃ len, 65 ≤ len ∧ len < 0x200 ∧ Int32.ofNat len = e := by
  have hall : namedErrors.all (fun e => 65 ≤ e.toNatClampNeg && e.toNatClampNeg < 0x200 &&
      Int32.ofNat e.toNatClampNeg == e) = true := by decide
  have hnamed := List.all_eq_true.mp hall e he
  rw [Bool.and_eq_true, Bool.and_eq_true, decide_eq_true_eq, decide_eq_true_eq, beq_iff_eq] at hnamed
  exact ⟨e.toNatClampNeg, hnamed.1.1, hnamed.1.2, hnamed.2⟩

lemma ofNat_ne_fail {len : Nat} (h : len < 0x80000000) : Int32.ofNat len ≠ espFail := by
  intro heq
  have hint := congrArg Int32.toInt heq
  rw [Int32.toInt_ofNat_of_lt (by simpa using h)] at hint
  exact absurd hint (by have : espFail.toInt = -1 := by decide
                        omega)

/-- A call is unambiguous exactly if its checks pass: with checks that fail it returns a named error,
which is the length of another call. -/
lemma unambiguous_iff {passes : Prop}
    (hshort : ∀ c len, result c = .ok len → len < 0x80000000)
    (hlength : ∀ len, 65 ≤ len → len < 0x200 → ∃ c', result c' = .ok len)
    (hpass : passes → LengthOrFail (result c)) (hfail : ¬ passes → Named (result c)) :
    Unambiguous result c ↔ passes := by
  constructor
  · intro h
    by_contra hnot
    obtain ⟨e, he, hresult⟩ := hfail hnot
    obtain ⟨len, hlow, hhigh, hlen⟩ := named_eq_length he
    obtain ⟨c', hc'⟩ := hlength len hlow hhigh
    exact h e hresult c' len hc' hlen
  · intro h e he c' len hc'
    rcases hpass h with ⟨len', hok⟩ | herr
    · rw [he] at hok
      cases hok
    · rw [he] at herr
      rw [Except.error.inj herr]
      exact ofNat_ne_fail (hshort c' len hc')

/-! ### A table with one channel -/

/-- A table with a channel for the contact 0 in the given slot. -/
def oneChannel (i : Fin maxChannels) : MsgCryptoState :=
  { MsgCryptoState.setChannel ⟨fun _ => .empty, 0, true⟩ i
      { CryptoChannel.empty with active := true } with
    channelCount := 1 }

lemma wellFormed_oneChannel (i : Fin maxChannels) : WellFormed (oneChannel i) := by
  have hempty : WellFormed ⟨fun _ => .empty, 0, true⟩ :=
    wellFormed_of_inactive (fun _ => rfl) (fun _ => ⟨rfl, rfl, rfl, rfl⟩) rfl
  exact hempty.occupy (i := i) { CryptoChannel.empty with active := true } rfl
    (fun j hj => absurd hj Bool.false_ne_true) rfl

lemma findChannel_oneChannel (i : Fin maxChannels) : (oneChannel i).findChannel 0 = some i := by
  refine findChannel_eq_some fun j => ?_
  by_cases hj : j = i
  · simp [oneChannel, MsgCryptoState.setChannel, hj, CryptoChannel.empty]
  · simp [oneChannel, MsgCryptoState.setChannel, hj, CryptoChannel.empty]

lemma exists_slot : Nonempty (Fin maxChannels) := ⟨⟨0, by decide⟩⟩

/-! ### Encryption -/

variable {crypto : Crypto}

lemma EncryptCall.pass {c : EncryptCall} (h : c.Passes) : LengthOrFail (c.result crypto) := by
  obtain ⟨ct, i, hct, hnull, hinit, hfind, hroom⟩ := h
  have hheader : (version :: Arr.bytes (c.state.channels i).salt).length + nonceLen + hmacLen +
      c.plaintext.bytes.length ≤ ct.length := by
    rw [List.length_cons, Arr.length_bytes]
    exact hroom
  rw [EncryptCall.result, hct]
  simp only [rsMsgCryptoEncrypt, hnull, hinit, hfind, encryptMessageV2]
  cases c.random with
  | none =>
    rw [encryptEnvelope, if_neg (Nat.not_lt.mpr hheader)]
    exact .inr rfl
  | some nonce =>
    rw [encryptEnvelope_some hheader]
    exact .inl ⟨_, rfl⟩

lemma EncryptCall.fail {c : EncryptCall} (h : ¬ c.Passes) : Named (c.result crypto) := by
  rw [EncryptCall.result]
  cases hct : c.ciphertext with
  | none =>
    refine ⟨espErrInvalidArg, by decide, ?_⟩
    simp only [rsMsgCryptoEncrypt]
  | some ct =>
    simp only [rsMsgCryptoEncrypt]
    split_ifs with hnull hinit
    · exact ⟨espErrInvalidArg, by decide, rfl⟩
    · exact ⟨espErrInvalidState, by decide, rfl⟩
    · cases hfind : c.state.findChannel c.contactId with
      | none => exact ⟨espErrNotFound, by decide, rfl⟩
      | some i =>
        refine ⟨espErrNoMem, by decide, ?_⟩
        have hfull : ct.length < (version :: Arr.bytes (c.state.channels i).salt).length + nonceLen +
            hmacLen + c.plaintext.bytes.length := by
          rw [List.length_cons, Arr.length_bytes]
          refine Nat.lt_of_not_le fun hroom => h ⟨ct, i, hct, ?_, ?_, hfind, hroom⟩
          · simpa using hnull
          · simpa using hinit
        dsimp only
        rw [encryptMessageV2]
        unfold encryptEnvelope
        rw [if_pos hfull]

/-- The length of an envelope is that of a slice. -/
lemma encryptEnvelope_length {masterKey : Arr masterKeyLen} {header plaintext output output' : List UInt8}
    {random : Option (Arr nonceLen)} {len : Nat}
    (h : encryptEnvelope crypto masterKey header plaintext output random = (.ok len, output')) :
    len ≤ output.length := by
  cases random with
  | none =>
    simp only [encryptEnvelope] at h
    split_ifs at h
    · cases h
    · cases h
  | some nonce =>
    simp only [encryptEnvelope] at h
    split_ifs at h with hroom
    · cases h
    · cases h
      exact Nat.not_lt.mp hroom

lemma EncryptCall.length_lt (c : EncryptCall) {len : Nat} (h : c.result crypto = .ok len) :
    len < 0x80000000 := by
  rcases rsMsgCryptoEncrypt_cases crypto c.contactId c.plaintext c.ciphertext c.random c.state with
    ⟨e, heq⟩ | ⟨i, ct, len', ct', -, hct, -, hsealed, heq⟩
  · rw [EncryptCall.result, heq] at h
    cases h
  · rw [EncryptCall.result, heq] at h
    cases h
    exact Nat.lt_of_le_of_lt (encryptEnvelope_length hsealed) (c.short ct hct)

/-- Every length is that of an envelope. -/
lemma EncryptCall.exists_length {len : Nat} (hlow : 65 ≤ len) (hhigh : len < 0x200) :
    ∃ c : EncryptCall, c.result crypto = .ok len := by
  obtain ⟨i⟩ := exists_slot
  refine ⟨⟨oneChannel i, wellFormed_oneChannel i, 0, .at (List.replicate (len - 65) 0),
    some (List.replicate len 0), fun ct hct => ?_, some .zero⟩, ?_⟩
  · rw [← Option.some.inj hct, List.length_replicate]
    exact hhigh.trans (by decide)
  · have hlen : (version :: Arr.bytes ((oneChannel i).channels i).salt).length + nonceLen + hmacLen +
        (List.replicate (len - 65) (0 : UInt8)).length = len := by
      rw [List.length_cons, Arr.length_bytes, List.length_replicate]
      exact Nat.add_sub_of_le hlow
    have hsealed : ∃ output, encryptMessageV2 crypto ((oneChannel i).channels i).masterKey
        ((oneChannel i).channels i).salt (List.replicate (len - 65) 0) (List.replicate len 0)
        (some .zero) = (.ok len, output) := by
      rw [encryptMessageV2, encryptEnvelope_some (by rw [hlen, List.length_replicate]), hlen]
      exact ⟨_, rfl⟩
    obtain ⟨output, hsealed⟩ := hsealed
    rw [EncryptCall.result]
    simp only [rsMsgCryptoEncrypt, findChannel_oneChannel, Slice.bytes, hsealed]
    rfl

/-! ### Decryption -/

lemma decryptEnvelope_pass {masterKey : Arr masterKeyLen} {ver : UInt8} {header : Nat}
    {ct pt : List UInt8} (hver : ct.head? = some ver) (h : EnvelopePasses crypto masterKey header ct pt) :
    ∃ len, (decryptEnvelope crypto masterKey ver header ct pt).1 = .ok len := by
  obtain ⟨hlen, hroom, hmac⟩ := h
  simp only [decryptEnvelope]
  rw [if_neg (Nat.not_lt.mpr hlen), if_neg (by simp [hver]), if_neg (Nat.not_lt.mpr hroom),
    if_neg (by simp [hmac])]
  exact ⟨_, rfl⟩

lemma decryptEnvelope_fail {masterKey : Arr masterKeyLen} {ver : UInt8} {header : Nat}
    {ct pt : List UInt8} (h : ¬ EnvelopePasses crypto masterKey header ct pt) :
    Named (decryptEnvelope crypto masterKey ver header ct pt).1 := by
  simp only [decryptEnvelope]
  split_ifs with hlen hver hroom hmac
  · exact ⟨espErrInvalidSize, by decide, rfl⟩
  · exact ⟨espErrNotSupported, by decide, rfl⟩
  · exact ⟨espErrNoMem, by decide, rfl⟩
  · exact ⟨espErrInvalidCrc, by decide, rfl⟩
  · exact absurd ⟨Nat.not_lt.mp hlen, Nat.not_lt.mp hroom, by simpa using hmac⟩ h

lemma decryptAny_pass {ch : CryptoChannel} {ct pt : List UInt8} (h : AnyPasses crypto ch ct pt) :
    LengthOrFail (decryptAny crypto ch ct pt).1 := by
  rcases h with ⟨hver, h⟩ | ⟨hver, hlen, h⟩
  · rw [decryptAny, hver]
    simp only [if_true]
    exact .inl (decryptEnvelope_pass hver h)
  · rw [decryptAny, hver]
    simp only [if_neg (show version ≠ legacyVersion by decide), if_true]
    rw [deriveV2EnvelopeKeyWith, if_neg (Nat.not_lt.mpr hlen), if_neg (by simp [hver])]
    cases hkey : deriveV2MasterKey crypto ch.passwordMaterial (.ofSlice (ct.drop headerLen)) with
    | error e =>
      rw [deriveV2MasterKey_error hkey]
      exact .inr rfl
    | ok masterKey => exact .inl (decryptEnvelope_pass hver (h masterKey hkey))

lemma decryptAny_fail {ch : CryptoChannel} {ct pt : List UInt8} (h : ¬ AnyPasses crypto ch ct pt) :
    Named (decryptAny crypto ch ct pt).1 := by
  rw [decryptAny]
  cases hhead : ct.head? with
  | none => exact ⟨espErrInvalidSize, by decide, rfl⟩
  | some v =>
    dsimp only
    split_ifs with hlegacy hversion
    · exact decryptEnvelope_fail fun hpass => h (.inl ⟨by rw [hhead, hlegacy], hpass⟩)
    · rw [hversion] at hhead
      rw [deriveV2EnvelopeKeyWith]
      split_ifs with hlen hver
      · exact ⟨espErrInvalidSize, by decide, rfl⟩
      · exact absurd hhead hver
      · cases hkey : deriveV2MasterKey crypto ch.passwordMaterial (.ofSlice (ct.drop headerLen)) with
        | error e =>
          refine absurd (.inr ⟨hhead, Nat.not_lt.mp hlen, fun masterKey hok => ?_⟩) h
          rw [hkey] at hok
          cases hok
        | ok masterKey =>
          refine decryptEnvelope_fail fun hpass => h (.inr ⟨hhead, Nat.not_lt.mp hlen, ?_⟩)
          intro masterKey' hok
          rw [hkey] at hok
          rwa [← Except.ok.inj hok]
    · exact ⟨espErrNotSupported, by decide, rfl⟩

lemma DecryptCall.pass {c : DecryptCall} (h : c.Passes crypto) : LengthOrFail (c.result crypto) := by
  obtain ⟨ct, pt, i, hct, hpt, hinit, hfind, hpass⟩ := h
  have hresult := decryptAny_pass hpass
  rw [DecryptCall.result, hct, hpt]
  simp only [rsMsgCryptoDecrypt, hinit, hfind]
  generalize decryptAny crypto (c.state.channels i) ct pt = outcome at hresult ⊢
  obtain ⟨result, pt'⟩ := outcome
  cases result with
  | ok len => exact hresult
  | error e => exact hresult

lemma DecryptCall.fail {c : DecryptCall} (h : ¬ c.Passes crypto) : Named (c.result crypto) := by
  rw [DecryptCall.result]
  cases hct : c.ciphertext with
  | none => exact ⟨espErrInvalidArg, by decide, rfl⟩
  | some ct =>
    cases hpt : c.plaintext with
    | none => exact ⟨espErrInvalidArg, by decide, rfl⟩
    | some pt =>
      simp only [rsMsgCryptoDecrypt]
      split_ifs with hinit
      · exact ⟨espErrInvalidState, by decide, rfl⟩
      · cases hfind : c.state.findChannel c.contactId with
        | none => exact ⟨espErrNotFound, by decide, rfl⟩
        | some i =>
          have hresult : Named (decryptAny crypto (c.state.channels i) ct pt).1 :=
            decryptAny_fail fun hpass => h ⟨ct, pt, i, hct, hpt, by simpa using hinit, hfind, hpass⟩
          dsimp only
          generalize decryptAny crypto (c.state.channels i) ct pt = outcome at hresult ⊢
          obtain ⟨result, pt'⟩ := outcome
          cases result with
          | ok len => exact hresult
          | error e => exact hresult

/-- The length of a plaintext is less than that of its envelope. -/
lemma decryptEnvelope_length {masterKey : Arr masterKeyLen} {ver : UInt8} {header len : Nat}
    {ct pt : List UInt8} (h : (decryptEnvelope crypto masterKey ver header ct pt).1 = .ok len) :
    len ≤ ct.length := by
  simp only [decryptEnvelope] at h
  split_ifs at h
  cases h
  exact Nat.sub_le _ _

lemma decryptAny_length {ch : CryptoChannel} {ct pt : List UInt8} {len : Nat}
    (h : (decryptAny crypto ch ct pt).1 = .ok len) : len ≤ ct.length := by
  rw [decryptAny] at h
  cases hhead : ct.head? with
  | none =>
    rw [hhead] at h
    cases h
  | some v =>
    simp only [hhead] at h
    split_ifs at h
    · exact decryptEnvelope_length h
    · split at h
      · exact decryptEnvelope_length h
      · cases h

lemma DecryptCall.length_lt (c : DecryptCall) {len : Nat} (h : c.result crypto = .ok len) :
    len < 0x80000000 := by
  rcases rsMsgCryptoDecrypt_cases crypto c.contactId c.ciphertext c.plaintext c.state with
    ⟨e, heq⟩ | ⟨i, ct, pt, len', pt', -, hct, -, -, hopened, heq⟩
  · rw [DecryptCall.result, heq] at h
    cases h
  · rw [DecryptCall.result, heq] at h
    cases h
    exact Nat.lt_of_le_of_lt (decryptAny_length (congrArg Prod.fst hopened)) (c.short ct hct)

/-- Every length is that of the plaintext of a legacy envelope. -/
lemma DecryptCall.exists_length {len : Nat} (h : len < 0x200) :
    ∃ c : DecryptCall, c.result crypto = .ok len := by
  obtain ⟨i⟩ := exists_slot
  have hopen : ∃ pt, decryptAny crypto ((oneChannel i).channels i) (envelope crypto
      ((oneChannel i).channels i).legacyMasterKey [legacyVersion] .zero (List.replicate len 0))
      (List.replicate len 0) = (.ok len, pt) := by
    rw [decryptAny_legacy (le_refl _), List.length_replicate]
    exact ⟨_, rfl⟩
  obtain ⟨pt, hopen⟩ := hopen
  refine ⟨⟨oneChannel i, wellFormed_oneChannel i, 0, some (envelope crypto
    ((oneChannel i).channels i).legacyMasterKey [legacyVersion] .zero (List.replicate len 0)),
    fun ct hct => ?_, some (List.replicate len 0)⟩, ?_⟩
  · rw [← Option.some.inj hct, length_envelope, List.length_replicate]
    exact (Nat.add_lt_add_left h _).trans (by decide)
  · rw [DecryptCall.result]
    simp only [rsMsgCryptoDecrypt, findChannel_oneChannel, hopen]
    rfl

/-! ### What a caller can tell -/

/-- A call of the encryption or of the decryption returns what no other call of it returns as a length,
if and only if it passes every check. Then it returns a length, or -1 because a library has failed. -/
theorem returned_unambiguous_iff (crypto : Crypto) :
    (∀ c : EncryptCall, Unambiguous (EncryptCall.result crypto) c ↔ c.Passes) ∧
      ∀ c : DecryptCall, Unambiguous (DecryptCall.result crypto) c ↔ c.Passes crypto := by
  constructor
  · exact fun c => unambiguous_iff (fun c _ h => c.length_lt h)
      (fun _ hlow hhigh => EncryptCall.exists_length hlow hhigh) EncryptCall.pass EncryptCall.fail
  · exact fun c => unambiguous_iff (fun c _ h => c.length_lt h)
      (fun _ _ hhigh => DecryptCall.exists_length hhigh) DecryptCall.pass DecryptCall.fail

/-- A forged packet has the return value of a plaintext of 265 bytes. -/
theorem forged_packet_ambiguous : ¬ ∀ crypto,
    (∀ c : EncryptCall, Unambiguous (EncryptCall.result crypto) c) ∧
      ∀ c : DecryptCall, Unambiguous (DecryptCall.result crypto) c := by
  intro h
  obtain ⟨c, hc⟩ : ∃ c : DecryptCall, c.result sampleCrypto = .ok 265 :=
    DecryptCall.exists_length (by decide)
  have hforged := (h sampleCrypto).2 ⟨oneChannel ⟨0, by decide⟩, wellFormed_oneChannel _, 0,
    some (legacyVersion :: List.replicate 48 0), fun ct hct => by rw [← Option.some.inj hct]; decide,
    some []⟩ espErrInvalidCrc (by decide +kernel) c 265 hc
  exact hforged (by decide)

end ThistleOS.MsgCrypto
