import ThistleOS.Kernel.MsgCrypto
import Mathlib.Data.Fintype.Card

/-!
# The table of channels
-/

namespace ThistleOS.MsgCrypto

inductive TableOp
  | init
  | establish (contactId : UInt32) (passphrase : Slice) (random : Option (Arr v2SaltLen))
  | destroy (contactId : UInt32)
  | destroyAll
  | encrypt (contactId : UInt32) (plaintext : Slice) (ciphertext : Option (List UInt8))
      (random : Option (Arr nonceLen))
  | decrypt (contactId : UInt32) (ciphertext plaintext : Option (List UInt8))

def TableOp.Reply : TableOp → Type
  | .encrypt _ _ _ _ => Outcome
  | .decrypt _ _ _ => Outcome
  | _ => EspErr

def table (crypto : Crypto) : Component TableOp TableOp.Reply MsgCryptoState where
  step
    | .init, st => rsMsgCryptoInit st
    | .establish contactId passphrase random, st =>
      rsMsgCryptoEstablish crypto contactId passphrase random st
    | .destroy contactId, st => rsMsgCryptoDestroy contactId st
    | .destroyAll, st => rsMsgCryptoDestroyAll st
    | .encrypt contactId plaintext ciphertext random, st =>
      rsMsgCryptoEncrypt crypto contactId plaintext ciphertext random st
    | .decrypt contactId ciphertext plaintext, st =>
      rsMsgCryptoDecrypt crypto contactId ciphertext plaintext st

/-- A call that returns an error changes neither the table nor a buffer of the caller. -/
def FailsWithoutEffect (crypto : Crypto) : TableOp → MsgCryptoState → Prop
  | .init, st => (rsMsgCryptoInit st).1 = espOk
  | .establish contactId passphrase random, st =>
    (rsMsgCryptoEstablish crypto contactId passphrase random st).1 ≠ espOk →
      (rsMsgCryptoEstablish crypto contactId passphrase random st).2 = st
  | .destroy contactId, st =>
    (rsMsgCryptoDestroy contactId st).1 ≠ espOk → (rsMsgCryptoDestroy contactId st).2 = st
  | .destroyAll, st => (rsMsgCryptoDestroyAll st).1 ≠ espOk → (rsMsgCryptoDestroyAll st).2 = st
  | .encrypt contactId plaintext ciphertext random, st =>
    ∀ e, (rsMsgCryptoEncrypt crypto contactId plaintext ciphertext random st).1.1 = .error e →
      rsMsgCryptoEncrypt crypto contactId plaintext ciphertext random st = ((.error e, ciphertext), st)
  | .decrypt contactId ciphertext plaintext, st =>
    ∀ e, (rsMsgCryptoDecrypt crypto contactId ciphertext plaintext st).1.1 = .error e →
      rsMsgCryptoDecrypt crypto contactId ciphertext plaintext st = ((.error e, plaintext), st)

def activeSlots (st : MsgCryptoState) : Finset (Fin maxChannels) :=
  Finset.univ.filter fun i => (st.channels i).active

/-- Nothing is left of the keys of the channel. -/
structure Erased (ch : CryptoChannel) : Prop where
  masterKey : ch.masterKey = .zero
  salt : ch.salt = .zero
  passwordMaterial : ch.passwordMaterial = .zero
  legacyMasterKey : ch.legacyMasterKey = .zero

structure WellFormed (st : MsgCryptoState) : Prop where
  distinct : ∀ i j, (st.channels i).active = true → (st.channels j).active = true →
    (st.channels i).contactId = (st.channels j).contactId → i = j
  count : st.channelCount = (activeSlots st).card
  erased : ∀ i, (st.channels i).active = false → Erased (st.channels i)

variable {crypto : Crypto} {st : MsgCryptoState} {i : Fin maxChannels} {ch : CryptoChannel}
  {contactId : UInt32}

lemma mem_activeSlots : i ∈ activeSlots st ↔ (st.channels i).active = true := by
  simp [activeSlots]

/-! ### One slot changes -/

@[simp] lemma setChannel_self : (st.setChannel i ch).channels i = ch := Function.update_self ..

@[simp] lemma setChannel_of_ne {j : Fin maxChannels} (h : j ≠ i) :
    (st.setChannel i ch).channels j = st.channels j := Function.update_of_ne h ..

/-- A table all of whose slots are free. -/
lemma wellFormed_of_inactive (hinactive : ∀ i, (st.channels i).active = false)
    (herased : ∀ i, Erased (st.channels i)) (hcount : st.channelCount = 0) : WellFormed st := by
  refine ⟨fun i j hi _ _ => ?_, ?_, fun i _ => herased i⟩
  · rw [hinactive i] at hi
    cases hi
  · have hempty : activeSlots st = ∅ := Finset.filter_eq_empty_iff.mpr fun i _ => by simp [hinactive i]
    rw [hcount, hempty, Finset.card_empty]

lemma erased_zeroize (ch : CryptoChannel) : Erased (zeroizeChannel ch) := ⟨rfl, rfl, rfl, rfl⟩

/-- The slots of the active channels after the channel of one slot has changed. -/
lemma activeSlots_setChannel (count : Nat) :
    activeSlots { st.setChannel i ch with channelCount := count } =
      if ch.active then insert i (activeSlots st) else (activeSlots st).erase i := by
  ext j
  rw [mem_activeSlots]
  by_cases hji : j = i
  · cases hch : ch.active
    · simp [hji, hch]
    · simp [hji, hch]
  · cases hch : ch.active
    · simp [hji, mem_activeSlots]
    · simp [hji, mem_activeSlots]

/-- A channel takes the place of another one. -/
lemma WellFormed.replace (h : WellFormed st) {count : Nat}
    (hnew : ch.active = true → ∀ j, j ≠ i → (st.channels j).active = true →
      (st.channels j).contactId ≠ ch.contactId)
    (hcount : count =
      (if ch.active then insert i (activeSlots st) else (activeSlots st).erase i).card)
    (herased : ch.active = false → Erased ch) :
    WellFormed { st.setChannel i ch with channelCount := count } := by
  have hother : ∀ j, j ≠ i → (st.setChannel i ch).channels j = st.channels j :=
    fun j hj => setChannel_of_ne hj
  refine ⟨fun j k hj hk heq => ?_, ?_, fun j hj => ?_⟩
  · by_cases hji : j = i
    · by_cases hki : k = i
      · rw [hji, hki]
      · simp only [hji, setChannel_self, hother k hki] at hj hk heq
        exact absurd heq.symm (hnew hj k hki hk)
    · by_cases hki : k = i
      · simp only [hki, setChannel_self, hother j hji] at hj hk heq
        exact absurd heq (hnew hk j hji hj)
      · simp only [hother j hji, hother k hki] at hj hk heq
        exact h.distinct j k hj hk heq
  · rw [activeSlots_setChannel]
    exact hcount
  · by_cases hji : j = i
    · simp only [hji, setChannel_self] at hj ⊢
      exact herased hj
    · simp only [hother j hji] at hj ⊢
      exact h.erased j hj

lemma WellFormed.zeroize (h : WellFormed st) (hi : (st.channels i).active = true) :
    WellFormed { st.setChannel i (zeroizeChannel (st.channels i)) with
      channelCount := st.channelCount - 1 } := by
  refine h.replace (fun hactive => ?_) ?_ fun _ => erased_zeroize _
  · cases hactive
  · rw [h.count]
    exact (Finset.card_erase_of_mem (mem_activeSlots.mpr hi)).symm

/-- A free slot gets a channel for a contact that has none. -/
lemma WellFormed.occupy (h : WellFormed st) (ch : CryptoChannel) (hi : (st.channels i).active = false)
    (hnew : ∀ j, (st.channels j).active = true → (st.channels j).contactId ≠ ch.contactId)
    (hch : ch.active = true) :
    WellFormed { st.setChannel i ch with channelCount := st.channelCount + 1 } := by
  have hfree : i ∉ activeSlots st := by
    rw [mem_activeSlots, hi]
    exact Bool.false_ne_true
  refine h.replace (fun _ j _ => hnew j) ?_ fun hinactive => ?_
  · rw [if_pos hch, Finset.card_insert_of_notMem hfree, h.count]
  · rw [hch] at hinactive
    cases hinactive

/-- The counters of a channel do not matter. -/
lemma WellFormed.counters (h : WellFormed st) (hi : (st.channels i).active = true) (tx rx : UInt32) :
    WellFormed (st.setChannel i { st.channels i with msgCountTx := tx, msgCountRx := rx }) := by
  refine h.replace (fun _ j hji hj hid => hji (h.distinct j i hj hi hid)) ?_ fun hinactive => ?_
  · rw [if_pos hi, Finset.insert_eq_of_mem (mem_activeSlots.mpr hi)]
    exact h.count
  · obtain ⟨hkey, hsalt, hmaterial, hlegacy⟩ := h.erased i hinactive
    exact ⟨hkey, hsalt, hmaterial, hlegacy⟩

/-! ### Runs -/

lemma WellFormed.establish (h : WellFormed st) (passphrase : Slice) (random : Option (Arr v2SaltLen)) :
    WellFormed (rsMsgCryptoEstablish crypto contactId passphrase random st).2 := by
  rcases rsMsgCryptoEstablish_cases crypto contactId passphrase random st with
    ⟨e, -, heq⟩ | ⟨masterKey, salt, slot, count, -, -, ⟨hfind, hcount⟩ | ⟨hfind, hfree, hcount⟩, heq⟩
  · rw [heq]
    exact h
  · obtain ⟨hactive, hcontact⟩ := findChannel_active hfind
    -- The slot is erased before it is taken again.
    have herased := h.zeroize hactive
    have hnew := herased.occupy (i := slot) ⟨contactId, masterKey, salt,
      prehashPassphrase crypto passphrase.bytes, deriveMasterKey crypto passphrase.bytes, true, 0, 0⟩
      (by simp [zeroizeChannel]) (fun j hj hid => by
        by_cases hjs : j = slot
        · simp [hjs, zeroizeChannel] at hj
        · simp only [setChannel_of_ne hjs] at hj hid
          exact hjs (h.distinct j slot hj hactive (hid.trans hcontact.symm))) rfl
    rw [heq, hcount]
    simpa [MsgCryptoState.setChannel] using hnew
  · rw [heq, hcount]
    refine h.occupy _ (findFreeSlot_inactive hfree) (fun j hj hid => ?_) rfl
    have hnone := findChannel_eq_none hfind j
    rw [hj, Bool.true_and, beq_eq_false_iff_ne] at hnone
    exact hnone hid

lemma WellFormed.step (h : WellFormed st) (o : TableOp) : WellFormed ((table crypto).next o st) := by
  cases o with
  | init => exact wellFormed_of_inactive (fun _ => rfl) (fun i => erased_zeroize (st.channels i)) rfl
  | establish contactId passphrase random => exact h.establish passphrase random
  | destroy contactId =>
    change WellFormed (rsMsgCryptoDestroy contactId st).2
    rw [rsMsgCryptoDestroy]
    split_ifs
    · exact h
    · cases hfind : st.findChannel contactId with
      | none => exact h
      | some i => exact h.zeroize (findChannel_active hfind).1
  | destroyAll =>
    change WellFormed (rsMsgCryptoDestroyAll st).2
    rw [rsMsgCryptoDestroyAll]
    split_ifs
    · exact h
    · exact wellFormed_of_inactive (fun _ => rfl) (fun i => erased_zeroize (st.channels i)) rfl
  | encrypt contactId plaintext ciphertext random =>
    change WellFormed (rsMsgCryptoEncrypt crypto contactId plaintext ciphertext random st).2
    rcases rsMsgCryptoEncrypt_cases crypto contactId plaintext ciphertext random st with
      ⟨e, heq⟩ | ⟨i, ct, len, ct', -, -, hfind, -, heq⟩
    · rw [heq]
      exact h
    · rw [heq]
      exact h.counters (findChannel_active hfind).1 _ _
  | decrypt contactId ciphertext plaintext =>
    change WellFormed (rsMsgCryptoDecrypt crypto contactId ciphertext plaintext st).2
    rcases rsMsgCryptoDecrypt_cases crypto contactId ciphertext plaintext st with
      ⟨e, heq⟩ | ⟨i, ct, pt, len, pt', -, -, -, hfind, -, heq⟩
    · rw [heq]
      exact h
    · rw [heq]
      exact h.counters (findChannel_active hfind).1 _ _

lemma failsWithoutEffect (o : TableOp) (st : MsgCryptoState) : FailsWithoutEffect crypto o st := by
  cases o with
  | init => rfl
  | establish contactId passphrase random =>
    intro hfail
    rcases rsMsgCryptoEstablish_cases crypto contactId passphrase random st with
      ⟨e, -, heq⟩ | ⟨masterKey, salt, slot, count, -, -, -, heq⟩
    · rw [heq]
    · rw [heq] at hfail
      exact absurd rfl hfail
  | destroy contactId =>
    intro hfail
    rw [rsMsgCryptoDestroy] at hfail ⊢
    split_ifs at hfail ⊢
    · rfl
    · cases hfind : st.findChannel contactId with
      | none => rfl
      | some i =>
        rw [hfind] at hfail
        exact absurd rfl hfail
  | destroyAll =>
    intro hfail
    rw [rsMsgCryptoDestroyAll] at hfail ⊢
    split_ifs at hfail ⊢
    · rfl
    · exact absurd rfl hfail
  | encrypt contactId plaintext ciphertext random =>
    intro e he
    rcases rsMsgCryptoEncrypt_cases crypto contactId plaintext ciphertext random st with
      ⟨e', heq⟩ | ⟨i, ct, len, ct', -, -, -, -, heq⟩
    · rw [heq] at he ⊢
      rw [Except.error.inj he]
    · rw [heq] at he
      cases he
  | decrypt contactId ciphertext plaintext =>
    intro e he
    rcases rsMsgCryptoDecrypt_cases crypto contactId ciphertext plaintext st with
      ⟨e', heq⟩ | ⟨i, ct, pt, len, pt', -, -, -, -, -, heq⟩
    · rw [heq] at he ⊢
      rw [Except.error.inj he]
    · rw [heq] at he
      cases he

lemma wellFormed_new : WellFormed .new :=
  wellFormed_of_inactive (fun _ => rfl) (fun _ => ⟨rfl, rfl, rfl, rfl⟩) rfl

/-- After every run the contacts of the active channels are distinct, the count is that of the active
channels and at most 32, and a free slot holds no key. No call of the run that returned an error has
changed the table, a counter or a buffer. -/
theorem channel_table_wellFormed (crypto : Crypto) (ops : List TableOp) :
    WellFormed ((table crypto).run .new ops) ∧
      ((table crypto).run .new ops).channelCount ≤ maxChannels ∧
      (table crypto).Along (FailsWithoutEffect crypto) .new ops := by
  have hany : (table crypto).Along (fun _ _ => True) .new ops := fun _ _ _ _ => trivial
  obtain ⟨-, hlast⟩ := Component.along_of_preserved (C := table crypto) (I := WellFormed)
    (fun o _ hst _ => hst.step o) wellFormed_new hany
  refine ⟨hlast, ?_, fun pre o post _ => failsWithoutEffect o _⟩
  rw [hlast.count]
  exact (Finset.card_le_univ _).trans (Fintype.card_fin _).le

end ThistleOS.MsgCrypto
