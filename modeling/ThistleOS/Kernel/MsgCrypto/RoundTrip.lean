import ThistleOS.Kernel.MsgCrypto

/-!
# Messages between two peers

What a peer has encrypted is an envelope under a key that the other peer derives again from the same
passphrase and from what the envelope says.
-/

namespace ThistleOS.MsgCrypto

variable (crypto : Crypto)

/-! ### Envelopes -/

def ciphertextOf (masterKey : Arr masterKeyLen) (nonce : Arr nonceLen) (plaintext : List UInt8) :
    List UInt8 :=
  aes256CtrProcess crypto (derivePerMessageKeys crypto masterKey nonce).1 nonce plaintext

/-- What the MAC is about. -/
def authenticated (masterKey : Arr masterKeyLen) (header : List UInt8) (nonce : Arr nonceLen)
    (plaintext : List UInt8) : List UInt8 :=
  header ++ nonce.bytes ++ ciphertextOf crypto masterKey nonce plaintext

def envelope (masterKey : Arr masterKeyLen) (header : List UInt8) (nonce : Arr nonceLen)
    (plaintext : List UInt8) : List UInt8 :=
  authenticated crypto masterKey header nonce plaintext ++
    (computeHmac crypto (derivePerMessageKeys crypto masterKey nonce).2
      (authenticated crypto masterKey header nonce plaintext)).bytes

variable {crypto} {masterKey : Arr masterKeyLen} {header plaintext output : List UInt8}
  {nonce : Arr nonceLen} {random : Option (Arr nonceLen)}

lemma blocks_enough (input : List UInt8) : input.length ≤ (input.length + 15) / 16 * 16 := by
  omega

@[simp] lemma length_aes256CtrProcess (key : Arr 32) (nonce : Arr 16) (input : List UInt8) :
    (aes256CtrProcess crypto key nonce input).length = input.length :=
  length_counterMode (blocks_enough input) nonce

/-- The cipher undoes itself. -/
lemma aes256CtrProcess_twice (key : Arr 32) (nonce : Arr 16) (input : List UInt8) :
    aes256CtrProcess crypto key nonce (aes256CtrProcess crypto key nonce input) = input := by
  rw [aes256CtrProcess, length_aes256CtrProcess, aes256CtrProcess]
  exact counterMode_counterMode (blocks_enough input) nonce

lemma constantTimeEq_self (a : List UInt8) : constantTimeEq a a = true := by
  simp [constantTimeEq, differingBits_eq_zero]

@[simp] lemma length_ciphertextOf :
    (ciphertextOf crypto masterKey nonce plaintext).length = plaintext.length :=
  length_aes256CtrProcess _ _ _

@[simp] lemma length_authenticated :
    (authenticated crypto masterKey header nonce plaintext).length =
      header.length + nonceLen + plaintext.length := by
  simp [authenticated, Nat.add_assoc]

@[simp] lemma length_envelope :
    (envelope crypto masterKey header nonce plaintext).length =
      header.length + nonceLen + hmacLen + plaintext.length := by
  simp only [envelope, List.length_append, length_authenticated, Arr.length_bytes, hmacLen]
  omega

/-- What is written at the end of what has been written. -/
lemma copyInto_at {offset : Nat} {pre : List UInt8} (h : pre.length = offset) (src slice : List UInt8) :
    copyInto offset src (pre ++ slice.drop offset) =
      (pre ++ src) ++ slice.drop (offset + src.length) := by
  rw [← h, copyInto_append, List.length_append]

/-- The envelope is written at the start of the output. -/
lemma encryptEnvelope_some
    (h : header.length + nonceLen + hmacLen + plaintext.length ≤ output.length) :
    encryptEnvelope crypto masterKey header plaintext output (some nonce) =
      (.ok (header.length + nonceLen + hmacLen + plaintext.length),
        envelope crypto masterKey header nonce plaintext ++
          output.drop (header.length + nonceLen + hmacLen + plaintext.length)) := by
  have hnonce : copyInto header.length nonce.bytes (header ++ output.drop header.length) =
      (header ++ nonce.bytes) ++ output.drop (header.length + nonceLen) := by
    rw [copyInto_at rfl, Arr.length_bytes]
  have hct : copyInto (header.length + nonceLen) (ciphertextOf crypto masterKey nonce plaintext)
      ((header ++ nonce.bytes) ++ output.drop (header.length + nonceLen)) =
        authenticated crypto masterKey header nonce plaintext ++
          output.drop (header.length + nonceLen + plaintext.length) := by
    rw [copyInto_at (by simp), length_ciphertextOf]
    rfl
  have htake : (authenticated crypto masterKey header nonce plaintext ++
      output.drop (header.length + nonceLen + plaintext.length)).take
        (header.length + nonceLen + plaintext.length) =
          authenticated crypto masterKey header nonce plaintext :=
    List.take_left' length_authenticated
  have hend : header.length + nonceLen + plaintext.length + hmacLen =
      header.length + nonceLen + hmacLen + plaintext.length := Nat.add_right_comm _ _ _
  rw [encryptEnvelope, if_neg (Nat.not_lt.mpr h)]
  simp only [copyInto_zero, hnonce]
  rw [show aes256CtrProcess crypto (derivePerMessageKeys crypto masterKey nonce).1 nonce plaintext =
    ciphertextOf crypto masterKey nonce plaintext from rfl, hct, htake,
    copyInto_at length_authenticated, Arr.length_bytes, hend]
  rfl

/-- An envelope is opened with the key under which it was sealed. -/
lemma decryptEnvelope_envelope {ver : UInt8} (hver : header.head? = some ver) {buffer : List UInt8}
    (h : plaintext.length ≤ buffer.length) :
    decryptEnvelope crypto masterKey ver header.length
        (envelope crypto masterKey header nonce plaintext) buffer =
      (.ok plaintext.length, plaintext ++ buffer.drop plaintext.length) := by
  have hlen : (envelope crypto masterKey header nonce plaintext).length -
      (header.length + nonceLen + hmacLen) = plaintext.length := by
    rw [length_envelope, Nat.add_sub_cancel_left]
  have hhead : (envelope crypto masterKey header nonce plaintext).head? = some ver := by
    simp [envelope, authenticated, List.head?_append, hver]
  have hnonce : Arr.ofSlice ((envelope crypto masterKey header nonce plaintext).drop header.length) =
      nonce := by
    have hdrop : (envelope crypto masterKey header nonce plaintext).drop header.length =
        nonce.bytes ++ (ciphertextOf crypto masterKey nonce plaintext ++
          (computeHmac crypto (derivePerMessageKeys crypto masterKey nonce).2
            (authenticated crypto masterKey header nonce plaintext)).bytes) := by
      simp [envelope, authenticated]
    rw [hdrop, Arr.ofSlice_append]
  have htake : (envelope crypto masterKey header nonce plaintext).take
      (header.length + nonceLen + plaintext.length) =
        authenticated crypto masterKey header nonce plaintext :=
    List.take_left' length_authenticated
  have hmac : ((envelope crypto masterKey header nonce plaintext).drop
      (header.length + nonceLen + plaintext.length)).take hmacLen =
        (computeHmac crypto (derivePerMessageKeys crypto masterKey nonce).2
          (authenticated crypto masterKey header nonce plaintext)).bytes := by
    rw [envelope, List.drop_left' length_authenticated]
    exact List.take_of_length_le (Arr.length_bytes _).le
  have hct : ((envelope crypto masterKey header nonce plaintext).drop
      (header.length + nonceLen)).take plaintext.length =
        ciphertextOf crypto masterKey nonce plaintext := by
    rw [envelope, authenticated, List.append_assoc, List.drop_left' (by simp)]
    exact List.take_left' length_ciphertextOf
  rw [decryptEnvelope, if_neg (by rw [length_envelope]; omega), if_neg (by simp [hhead])]
  simp only [hlen, hnonce, htake, hmac, hct, constantTimeEq_self]
  rw [if_neg (Nat.not_lt.mpr h), Bool.not_true, if_neg Bool.false_ne_true, ciphertextOf,
    aes256CtrProcess_twice, copyInto_zero]

/-! ### Channels of one passphrase -/

variable (crypto)

/-- The keys of the channel come from the passphrase. -/
structure KeyedBy (passphrase : List UInt8) (ch : CryptoChannel) : Prop where
  material : ch.passwordMaterial = prehashPassphrase crypto passphrase
  legacy : ch.legacyMasterKey = deriveMasterKey crypto passphrase
  master : deriveV2MasterKey crypto ch.passwordMaterial ch.salt = .ok ch.masterKey

/-- There is a channel for the contact, and its keys come from the passphrase. -/
def Ready (passphrase : List UInt8) (contactId : UInt32) (st : MsgCryptoState) : Prop :=
  st.initialized = true ∧
    ∃ i, st.findChannel contactId = some i ∧ KeyedBy crypto passphrase (st.channels i)

/-- The packet is an envelope of the plaintext, of one of the two versions, under a key from the
passphrase. -/
def Authentic (passphrase packet plaintext : List UInt8) : Prop :=
  (∃ masterKey salt nonce,
    deriveV2MasterKey crypto (prehashPassphrase crypto passphrase) salt = .ok masterKey ∧
      packet = envelope crypto masterKey (version :: Arr.bytes salt) nonce plaintext) ∨
  ∃ nonce, packet =
    envelope crypto (deriveMasterKey crypto passphrase) [legacyVersion] nonce plaintext

variable {crypto} {passphrase packet : List UInt8} {contactId contactId' : UInt32}
  {st st' : MsgCryptoState} {ch : CryptoChannel}

lemma decryptAny_legacy {buffer : List UInt8} (hbuffer : plaintext.length ≤ buffer.length) :
    decryptAny crypto ch (envelope crypto ch.legacyMasterKey [legacyVersion] nonce plaintext) buffer =
      (.ok plaintext.length, plaintext ++ buffer.drop plaintext.length) := by
  have hhead : (envelope crypto ch.legacyMasterKey [legacyVersion] nonce plaintext).head? =
      some legacyVersion := rfl
  rw [decryptAny, hhead]
  simp only [if_true]
  exact decryptEnvelope_envelope rfl hbuffer

lemma decryptAny_authentic (hch : KeyedBy crypto passphrase ch)
    (h : Authentic crypto passphrase packet plaintext) {buffer : List UInt8}
    (hbuffer : plaintext.length ≤ buffer.length) :
    decryptAny crypto ch packet buffer =
      (.ok plaintext.length, plaintext ++ buffer.drop plaintext.length) := by
  rcases h with ⟨masterKey, salt, nonce, hkey, rfl⟩ | ⟨nonce, rfl⟩
  · have hhead : (envelope crypto masterKey (version :: Arr.bytes salt) nonce plaintext).head? =
        some version := rfl
    have hsalt : Arr.ofSlice ((envelope crypto masterKey (version :: Arr.bytes salt) nonce
        plaintext).drop headerLen) = salt := by
      simp only [envelope, authenticated, headerLen, List.cons_append, List.append_assoc,
        List.drop_succ_cons, List.drop_zero]
      exact Arr.ofSlice_append salt _
    have hlen : ¬ (envelope crypto masterKey (version :: Arr.bytes salt) nonce plaintext).length <
        v2Overhead := by
      rw [length_envelope, List.length_cons, Arr.length_bytes]
      exact Nat.not_lt.mpr (Nat.le_add_right _ _)
    have hopen : decryptEnvelope crypto masterKey version (version :: Arr.bytes salt).length
        (envelope crypto masterKey (version :: Arr.bytes salt) nonce plaintext) buffer = _ :=
      decryptEnvelope_envelope rfl hbuffer
    rw [List.length_cons, Arr.length_bytes] at hopen
    rw [decryptAny, hhead]
    simp only [if_neg (show version ≠ legacyVersion by decide), if_true]
    rw [deriveV2EnvelopeKeyWith, if_neg hlen, if_neg (by simp [hhead]), hsalt, hch.material, hkey]
    exact hopen
  · rw [← hch.legacy]
    exact decryptAny_legacy hbuffer

/-- A peer with a channel of the passphrase decrypts what is authentic. -/
lemma decrypt_authentic (hst : Ready crypto passphrase contactId st)
    (h : Authentic crypto passphrase packet plaintext) {buffer : List UInt8}
    (hbuffer : plaintext.length ≤ buffer.length) :
    (rsMsgCryptoDecrypt crypto contactId (some packet) (some buffer) st).1 =
      (.ok plaintext.length, some (plaintext ++ buffer.drop plaintext.length)) := by
  obtain ⟨hinit, i, hi, hch⟩ := hst
  rw [rsMsgCryptoDecrypt, hinit, hi]
  simp [decryptAny_authentic hch h hbuffer]

/-! ### Channels stay -/

/-- A peer that has established a channel has its keys from the passphrase. -/
lemma establish_ready {slice : Slice} {random : Option (Arr v2SaltLen)}
    (h : rsMsgCryptoEstablish crypto contactId slice random st = (espOk, st')) :
    Ready crypto slice.bytes contactId st' := by
  rcases rsMsgCryptoEstablish_cases crypto contactId slice random st with
    ⟨e, hne, heq⟩ | ⟨masterKey, salt, slot, count, hinit, hkey, hslot, heq⟩
  · rw [heq, Prod.mk.injEq] at h
    exact absurd h.1 hne
  · rw [heq, Prod.mk.injEq] at h
    rw [← h.2]
    refine ⟨hinit, slot, ?_, ?_⟩
    · rcases hslot with ⟨hfind, -⟩ | ⟨hfind, -, -⟩
      · rw [← hfind]
        refine findChannel_congr fun j => ?_
        by_cases hj : j = slot
        · have hold := List.find?_some hfind
          rw [hj, hold]
          simp [MsgCryptoState.setChannel]
        · simp [MsgCryptoState.setChannel, hj]
      · refine findChannel_eq_some fun j => ?_
        by_cases hj : j = slot
        · simp [MsgCryptoState.setChannel, hj]
        · simpa [MsgCryptoState.setChannel, hj] using findChannel_eq_none hfind j
    · simp only [MsgCryptoState.setChannel, Function.update_self]
      exact ⟨rfl, rfl, hkey⟩

/-- The counters of a channel have nothing to do with its keys. -/
lemma Ready.count (h : Ready crypto passphrase contactId st) (i : Fin maxChannels) (tx rx : UInt32) :
    Ready crypto passphrase contactId
      (st.setChannel i { st.channels i with msgCountTx := tx, msgCountRx := rx }) := by
  obtain ⟨hinit, j, hj, hkeys⟩ := h
  refine ⟨hinit, j, ?_, ?_⟩
  · rw [← hj]
    refine findChannel_congr fun k => ?_
    by_cases hk : k = i
    · simp [MsgCryptoState.setChannel, hk]
    · simp [MsgCryptoState.setChannel, hk]
  · by_cases hji : j = i
    · subst hji
      simp only [MsgCryptoState.setChannel, Function.update_self]
      exact ⟨hkeys.material, hkeys.legacy, hkeys.master⟩
    · simpa [MsgCryptoState.setChannel, hji] using hkeys

lemma Ready.encrypt (h : Ready crypto passphrase contactId st) (contactId' : UInt32) (slice : Slice)
    (ciphertext : Option (List UInt8)) (random : Option (Arr nonceLen)) :
    Ready crypto passphrase contactId
      (rsMsgCryptoEncrypt crypto contactId' slice ciphertext random st).2 := by
  rcases rsMsgCryptoEncrypt_cases crypto contactId' slice ciphertext random st with
    ⟨e, heq⟩ | ⟨i, ct, len, ct', -, -, -, -, heq⟩
  · rw [heq]
    exact h
  · rw [heq]
    exact h.count i _ _

lemma Ready.decrypt (h : Ready crypto passphrase contactId st) (contactId' : UInt32)
    (ciphertext buffer : Option (List UInt8)) :
    Ready crypto passphrase contactId
      (rsMsgCryptoDecrypt crypto contactId' ciphertext buffer st).2 := by
  rcases rsMsgCryptoDecrypt_cases crypto contactId' ciphertext buffer st with
    ⟨e, heq⟩ | ⟨i, ct, pt, len, pt', -, -, -, -, -, heq⟩
  · rw [heq]
    exact h
  · rw [heq]
    exact h.count i _ _

/-! ### Two peers -/

inductive Peer
  | first
  | second
  deriving DecidableEq

def Peer.other : Peer → Peer
  | first => second
  | second => first

/-- What the peers do. A peer that still runs the old code makes legacy packets. -/
inductive PeerOp
  | encrypt (p : Peer) (contactId : UInt32) (plaintext : Slice) (ciphertext : Option (List UInt8))
      (random : Option (Arr nonceLen))
  | encryptLegacy (p : Peer) (plaintext output : List UInt8) (random : Option (Arr nonceLen))
  | decrypt (p : Peer) (contactId : UInt32) (ciphertext plaintext : Option (List UInt8))

abbrev PeerOp.Reply : PeerOp → Type := fun _ => Outcome

/-- The legacy packet of a peer, under the legacy key of the channel. -/
def legacyPacket (crypto : Crypto) (contactId : UInt32) (plaintext output : List UInt8)
    (random : Option (Arr nonceLen)) (st : MsgCryptoState) : Outcome :=
  match st.findChannel contactId with
  | none => (.error espErrNotFound, some output)
  | some i =>
    let (result, output) :=
      encryptMessage crypto (st.channels i).legacyMasterKey plaintext output random
    (result, some output)

/-- Each peer knows the other as a contact. -/
def peers (crypto : Crypto) (contact : Peer → UInt32) :
    Component PeerOp PeerOp.Reply (Peer → MsgCryptoState) where
  step
    | .encrypt p contactId plaintext ciphertext random, st =>
      let (outcome, new) := rsMsgCryptoEncrypt crypto contactId plaintext ciphertext random (st p)
      (outcome, Function.update st p new)
    | .encryptLegacy p plaintext output random, st =>
      (legacyPacket crypto (contact p) plaintext output random (st p), st)
    | .decrypt p contactId ciphertext plaintext, st =>
      let (outcome, new) := rsMsgCryptoDecrypt crypto contactId ciphertext plaintext (st p)
      (outcome, Function.update st p new)

/-- A packet that a peer has made for the other. -/
structure Packet where
  sender : Peer
  data : List UInt8
  plaintext : List UInt8

/-- The packet is what the reply says of the output buffer. -/
def packetOf (sender : Peer) (plaintext : List UInt8) : Outcome → List Packet
  | (.ok len, some output) => [⟨sender, output.take len, plaintext⟩]
  | _ => []

def record (contact : Peer → UInt32) : (o : PeerOp) → o.Reply → List Packet → List Packet
  | .encrypt p contactId plaintext _ _, outcome, packets =>
    if contactId = contact p then packets ++ packetOf p plaintext.bytes outcome else packets
  | .encryptLegacy p plaintext _ _, outcome, packets => packets ++ packetOf p plaintext outcome
  | .decrypt _ _ _ _, _, packets => packets

def watched (crypto : Crypto) (contact : Peer → UInt32) := (peers crypto contact).watch (record contact)

/-- The channels of the peers are those of the passphrase, and so are the packets. -/
def Secured (crypto : Crypto) (contact : Peer → UInt32) (passphrase : List UInt8)
    (w : (Peer → MsgCryptoState) × List Packet) : Prop :=
  (∀ p, Ready crypto passphrase (contact p) (w.1 p)) ∧
    ∀ packet ∈ w.2, Authentic crypto passphrase packet.data packet.plaintext

variable {contact : Peer → UInt32} {w : (Peer → MsgCryptoState) × List Packet}

/-- An encryption that succeeds makes one envelope. -/
lemma encryptEnvelope_ok {len : Nat} {output' : List UInt8}
    (h : encryptEnvelope crypto masterKey header plaintext output random = (.ok len, output')) :
    ∃ nonce, output'.take len = envelope crypto masterKey header nonce plaintext := by
  by_cases hlen : header.length + nonceLen + hmacLen + plaintext.length ≤ output.length
  · cases random with
    | none =>
      rw [encryptEnvelope, if_neg (Nat.not_lt.mpr hlen)] at h
      cases h
    | some nonce =>
      rw [encryptEnvelope_some hlen] at h
      cases h
      exact ⟨nonce, List.take_left' length_envelope⟩
  · have herr : encryptEnvelope crypto masterKey header plaintext output random =
        (.error espErrNoMem, output) := by
      unfold encryptEnvelope
      exact if_pos (Nat.lt_of_not_le hlen)
    rw [herr] at h
    cases h

/-- What a peer encrypts for a contact with a channel of the passphrase is authentic. -/
lemma Ready.encrypt_authentic (h : Ready crypto passphrase contactId st) (p : Peer) (slice : Slice)
    (ciphertext : Option (List UInt8)) (random : Option (Arr nonceLen)) :
    ∀ packet ∈ packetOf p slice.bytes (rsMsgCryptoEncrypt crypto contactId slice ciphertext random st).1,
      Authentic crypto passphrase packet.data packet.plaintext := by
  obtain ⟨-, j, hj, hkeys⟩ := h
  rcases rsMsgCryptoEncrypt_cases crypto contactId slice ciphertext random st with
    ⟨e, heq⟩ | ⟨i, ct, len, ct', -, -, hfind, hsealed, heq⟩
  · rw [heq]
    exact fun packet hmem => absurd hmem (by simp [packetOf])
  · rw [heq]
    intro packet hmem
    rw [List.mem_singleton.mp hmem]
    obtain rfl : j = i := Option.some.inj (hj.symm.trans hfind)
    obtain ⟨nonce, hpacket⟩ := encryptEnvelope_ok hsealed
    refine .inl ⟨_, _, nonce, ?_, hpacket⟩
    rw [← hkeys.material]
    exact hkeys.master

lemma Ready.legacy_authentic (h : Ready crypto passphrase contactId st) (p : Peer) :
    ∀ packet ∈ packetOf p plaintext (legacyPacket crypto contactId plaintext output random st),
      Authentic crypto passphrase packet.data packet.plaintext := by
  obtain ⟨-, i, hi, hkeys⟩ := h
  rw [legacyPacket, hi]
  dsimp only
  cases hresult : encryptMessage crypto (st.channels i).legacyMasterKey plaintext output random with
  | mk result output' =>
    cases result with
    | error e => exact fun packet hmem => absurd hmem (by simp [packetOf])
    | ok len =>
      intro packet hmem
      rw [List.mem_singleton.mp hmem]
      obtain ⟨nonce, hpacket⟩ := encryptEnvelope_ok hresult
      rw [hkeys.legacy] at hpacket
      exact .inr ⟨nonce, hpacket⟩

/-- A peer whose table has changed keeps the channels if this peer does. -/
lemma forall_update {p : Peer} {st : Peer → MsgCryptoState} {new : MsgCryptoState}
    (h : ∀ q, Ready crypto passphrase (contact q) (st q))
    (hnew : Ready crypto passphrase (contact p) new) (q : Peer) :
    Ready crypto passphrase (contact q) (Function.update st p new q) := by
  by_cases hq : q = p
  · subst hq
    rwa [Function.update_self]
  · rw [Function.update_of_ne hq]
    exact h q

lemma Secured.step (h : Secured crypto contact passphrase w) (o : PeerOp) :
    Secured crypto contact passphrase ((watched crypto contact).next o w) := by
  obtain ⟨hready, hpackets⟩ := h
  cases o with
  | encrypt p contactId slice ciphertext random =>
    refine ⟨forall_update hready ((hready p).encrypt contactId slice ciphertext random), ?_⟩
    change ∀ packet ∈ (if contactId = contact p then w.2 ++ packetOf p slice.bytes
      (rsMsgCryptoEncrypt crypto contactId slice ciphertext random (w.1 p)).1 else w.2), _
    split_ifs with hcontact
    · subst hcontact
      intro packet hmem
      rcases List.mem_append.mp hmem with hold | hnew
      · exact hpackets packet hold
      · exact (hready p).encrypt_authentic p slice ciphertext random packet hnew
    · exact hpackets
  | encryptLegacy p plaintext output random =>
    refine ⟨hready, fun packet hmem => ?_⟩
    rcases List.mem_append.mp hmem with hold | hnew
    · exact hpackets packet hold
    · exact (hready p).legacy_authentic p packet hnew
  | decrypt p contactId ciphertext plaintext =>
    exact ⟨forall_update hready ((hready p).decrypt contactId ciphertext plaintext), hpackets⟩

/-- Two peers have established channels to each other from one passphrase. After any run of messages,
what one of them has encrypted for the other is decrypted there to exactly the plaintext, at any later
time, and whatever the version of the packet. -/
theorem packets_decrypted (crypto : Crypto) (contact : Peer → UInt32) (passphrase : Slice)
    (salt : Peer → Option (Arr v2SaltLen)) (before after : Peer → MsgCryptoState)
    (hestablish : ∀ p, rsMsgCryptoEstablish crypto (contact p) passphrase (salt p) (before p) =
      (espOk, after p)) (ops : List PeerOp) :
    ∀ packet ∈ ((watched crypto contact).run (after, []) ops).2,
      ∀ buffer : List UInt8, packet.plaintext.length ≤ buffer.length →
        (rsMsgCryptoDecrypt crypto (contact packet.sender.other) (some packet.data) (some buffer)
          (((watched crypto contact).run (after, []) ops).1 packet.sender.other)).1 =
            (.ok packet.plaintext.length,
              some (packet.plaintext ++ buffer.drop packet.plaintext.length)) := by
  have hstart : Secured crypto contact passphrase.bytes (after, []) :=
    ⟨fun p => establish_ready (hestablish p), fun _ hmem => absurd hmem List.not_mem_nil⟩
  have hany : (watched crypto contact).Along (fun _ _ => True) (after, []) ops :=
    fun _ _ _ _ => trivial
  obtain ⟨-, hready, hpackets⟩ := Component.along_of_preserved (C := watched crypto contact)
    (I := Secured crypto contact passphrase.bytes) (fun o _ hw _ => hw.step o) hstart hany
  intro packet hmem buffer hbuffer
  exact decrypt_authentic (hready packet.sender.other) (hpackets packet hmem) hbuffer

/-- Functions that are as simple as can be. -/
def sampleCrypto : Crypto where
  aes256 key block := .ofSlice (List.zipWith (· + ·) key.bytes block.bytes)
  hmacSha256 key data := fun i => key i + UInt8.ofNat data.length
  sha256 data := .ofSlice data
  pbkdf2HmacSha256 password salt _ := .ofSlice (password ++ salt)
  argon2id password salt := some (.ofSlice (salt.bytes ++ password))

def sampleContact : Peer → UInt32
  | .first => 7
  | .second => 9

def samplePeer (p : Peer) : MsgCryptoState :=
  (rsMsgCryptoEstablish sampleCrypto (sampleContact p) (.at [1, 2]) (some fun _ => 3)
    (rsMsgCryptoInit .new).2).2

def sampleOps : List PeerOp :=
  [.encrypt .first 7 (.at [5, 6]) (some (List.replicate 70 0)) (some fun _ => 4),
    .encryptLegacy .second [8] (List.replicate 50 0) (some fun _ => 4)]

/-- One packet in each direction, one of each version. -/
theorem sample_packets_decrypted :
    ((watched sampleCrypto sampleContact).run (samplePeer, []) sampleOps).2.map (·.plaintext) =
        [[5, 6], [8]] ∧
      ∀ packet ∈ ((watched sampleCrypto sampleContact).run (samplePeer, []) sampleOps).2,
        ∀ buffer : List UInt8, packet.plaintext.length ≤ buffer.length →
          (rsMsgCryptoDecrypt sampleCrypto (sampleContact packet.sender.other) (some packet.data)
            (some buffer) (((watched sampleCrypto sampleContact).run (samplePeer, []) sampleOps).1
              packet.sender.other)).1 =
              (.ok packet.plaintext.length,
                some (packet.plaintext ++ buffer.drop packet.plaintext.length)) :=
  ⟨by decide +kernel, packets_decrypted sampleCrypto sampleContact (.at [1, 2]) (fun _ => some fun _ => 3)
    (fun _ => (rsMsgCryptoInit .new).2) samplePeer
    (fun p => Prod.ext (by cases p <;> decide +kernel) rfl) sampleOps⟩

end ThistleOS.MsgCrypto
