import ThistleOS.Kernel.ContactManager
import ThistleOS.Slots

/-!
# Edits through C

A contact that is read into a structure of C and written back. Its texts come back as far as the buffers of the
structure hold them; a character that is cut comes back as a replacement character.
-/

namespace ThistleOS.Contacts

open MsgQueue ContactManager

/-! ### Reading a contact -/

def encode (s : Text) : List UInt8 := s.flatMap String.utf8EncodeChar

/-- The bytes that fit before the last one, and zeros. -/
def copyStrToBuf (n : ℕ) (s : Text) : Arr n :=
  let bytes := encode s
  let len := min bytes.length (n - 1)
  .ofSlice (bytes.take len ++ List.replicate (n - len) 0)

def Contact.toCInfo (c : Contact) : CContactInfo where
  id := c.id
  name := copyStrToBuf 64 c.name
  callsign := copyStrToBuf 16 c.callsign
  deviceId := c.deviceId
  phone := copyStrToBuf 24 c.phone
  bleAddr := copyStrToBuf 24 c.bleAddr
  publicKey := c.publicKey
  isEmergency := c.isEmergency

/-- The call of C, on a pointer that is not null, with what it writes there. -/
def ContactManager.rsContactGet (id : UInt32) (mgr : ContactManager) : EspErr × Option CContactInfo :=
  match mgr.get id with
  | some contact => (espOk, some contact.toCInfo)
  | none => (espErrNotFound, none)

/-- A change of one field of the structure. The id is not one of them: it tells which contact is written. -/
inductive Edit where
  | name (buf : Arr 64)
  | callsign (buf : Arr 16)
  | deviceId (deviceId : UInt32)
  | phone (buf : Arr 24)
  | bleAddr (buf : Arr 24)
  | publicKey (key : Arr 32)
  | isEmergency (b : Bool)

namespace Edit

def apply : Edit → CContactInfo → CContactInfo
  | name buf, info => { info with name := buf }
  | callsign buf, info => { info with callsign := buf }
  | deviceId n, info => { info with deviceId := n }
  | phone buf, info => { info with phone := buf }
  | bleAddr buf, info => { info with bleAddr := buf }
  | publicKey key, info => { info with publicKey := key }
  | isEmergency b, info => { info with isEmergency := b }

/-- What the edit is for: the field of the contact gets the value, and no other field changes. -/
def change : Edit → Contact → Contact
  | name buf, c => { c with name := bufToString buf.bytes }
  | callsign buf, c => { c with callsign := bufToString buf.bytes }
  | deviceId n, c => { c with deviceId := n }
  | phone buf, c => { c with phone := bufToString buf.bytes }
  | bleAddr buf, c => { c with bleAddr := bufToString buf.bytes }
  | publicKey key, c => { c with publicKey := key }
  | isEmergency b, c => { c with isEmergency := b }

end Edit

/-! ### Texts that are cut -/

/-- The characters of a text before a NUL that have room, and a replacement character for one that has room for a
part of its bytes only. -/
def cut : ℕ → Text → Text
  | _, [] => []
  | room, c :: s =>
    if c = '\x00' then []
    else if c.utf8Size ≤ room then c :: cut (room - c.utf8Size) s
    else if room = 0 then []
    else ['\uFFFD']

/-- A text that is not changed: all of it has room, or all but a part of a replacement character at its end. -/
def Fits (room : ℕ) (s : Text) : Prop :=
  '\x00' ∉ s ∧ ((encode s).length ≤ room ∨ ∃ s', s = s' ++ ['\uFFFD'] ∧ (encode s').length < room)

lemma length_encode_cons (c : Char) (s : Text) : (encode (c :: s)).length = c.utf8Size + (encode s).length := by
  rw [encode, List.flatMap_cons, List.length_append, String.length_utf8EncodeChar]
  rfl

/-- A character that has room leaves the rest of the room to what follows it. -/
lemma fits_cons {room : ℕ} {c : Char} (hnul : c ≠ '\x00') (hroom : c.utf8Size ≤ room) (s : Text) :
    Fits room (c :: s) ↔ Fits (room - c.utf8Size) s := by
  have hmem : '\x00' ∉ c :: s ↔ '\x00' ∉ s := by simp [Ne.symm hnul]
  rw [Fits, Fits, hmem, length_encode_cons]
  refine and_congr_right fun _ => ⟨?_, ?_⟩
  · rintro (hle | ⟨s', hs', hlt⟩)
    · exact .inl (by omega)
    · cases s' with
      | nil =>
        obtain ⟨rfl, rfl⟩ := List.cons.inj hs'
        exact .inl (Nat.zero_le _)
      | cons c' s' =>
        obtain ⟨rfl, rfl⟩ := List.cons.inj hs'
        rw [length_encode_cons] at hlt
        exact .inr ⟨s', rfl, by omega⟩
  · rintro (hle | ⟨s', rfl, hlt⟩)
    · exact .inl (by omega)
    · refine .inr ⟨c :: s', rfl, ?_⟩
      rw [length_encode_cons]
      omega

/-- Which texts are not changed. -/
theorem cut_eq_self_iff (room : ℕ) (s : Text) : cut room s = s ↔ Fits room s := by
  induction s generalizing room with
  | nil => exact iff_of_true rfl ⟨List.not_mem_nil, .inl (Nat.zero_le _)⟩
  | cons c s ih =>
    have hsize := c.utf8Size_pos
    rw [cut]
    split_ifs with hnul hroom hzero
    · exact iff_of_false (by simp) fun h => h.1 (hnul ▸ List.mem_cons_self)
    · rw [List.cons_inj_right, ih]
      exact (fits_cons hnul hroom s).symm
    · refine iff_of_false (by simp) fun h => ?_
      rcases h.2 with hle | ⟨s', -, hlt⟩
      · rw [length_encode_cons] at hle
        omega
      · omega
    · constructor
      · intro h
        obtain ⟨rfl, rfl⟩ := List.cons.inj h
        exact ⟨by decide, .inr ⟨[], rfl, Nat.pos_of_ne_zero hzero⟩⟩
      · rintro ⟨-, hle | ⟨s', hs', hlt⟩⟩
        · rw [length_encode_cons] at hle
          omega
        · cases s' with
          | nil =>
            obtain ⟨rfl, rfl⟩ := List.cons.inj hs'
            rfl
          | cons c' s' =>
            obtain ⟨rfl, rfl⟩ := List.cons.inj hs'
            rw [length_encode_cons] at hlt
            omega

/-! ### Decoding -/

lemma toNat_ofNat {n : ℕ} (h : n < 256) : (UInt8.ofNat n).toNat = n := by
  rw [UInt8.toNat_ofNat', Nat.mod_eq_of_lt h]

/-- A byte after the first one of a character. -/
def Continues (b : UInt8) : Prop := 0x80 ≤ b.toNat ∧ b.toNat ≤ 0xBF

/-- The bytes of a character and its number. -/
inductive Encoded (n : ℕ) : List UInt8 → Prop
  | one (b₀ : UInt8) : b₀.toNat < 0x80 → n = b₀.toNat → Encoded n [b₀]
  | two (b₀ b₁ : UInt8) : 0xC2 ≤ b₀.toNat → b₀.toNat ≤ 0xDF → Continues b₁ →
    n = b₀.toNat % 0x20 * 0x40 + b₁.toNat % 0x40 → Encoded n [b₀, b₁]
  | three (b₀ b₁ b₂ : UInt8) : 0xE0 ≤ b₀.toNat → b₀.toNat ≤ 0xEF → Continues b₁ → Continues b₂ →
    (b₀.toNat = 0xE0 → 0xA0 ≤ b₁.toNat) → (b₀.toNat = 0xED → b₁.toNat ≤ 0x9F) →
    n = (b₀.toNat % 0x10 * 0x40 + b₁.toNat % 0x40) * 0x40 + b₂.toNat % 0x40 → Encoded n [b₀, b₁, b₂]
  | four (b₀ b₁ b₂ b₃ : UInt8) : 0xF0 ≤ b₀.toNat → b₀.toNat ≤ 0xF4 → Continues b₁ → Continues b₂ → Continues b₃ →
    (b₀.toNat = 0xF0 → 0x90 ≤ b₁.toNat) → (b₀.toNat = 0xF4 → b₁.toNat ≤ 0x8F) →
    n = ((b₀.toNat % 8 * 0x40 + b₁.toNat % 0x40) * 0x40 + b₂.toNat % 0x40) * 0x40 + b₃.toNat % 0x40 →
    Encoded n [b₀, b₁, b₂, b₃]

lemma encoded_utf8EncodeChar (c : Char) : Encoded c.toNat (String.utf8EncodeChar c) := by
  have hvalid : c.val.toNat < 0xD800 ∨ 0xDFFF < c.val.toNat ∧ c.val.toNat < 0x110000 := c.valid
  change Encoded c.val.toNat _
  rw [String.utf8EncodeChar]
  obtain ⟨n, hn⟩ : ∃ n, c.val.toNat = n := ⟨_, rfl⟩
  rw [hn] at hvalid ⊢
  split_ifs with h₁ h₂ h₃
  · have hbyte := @toNat_ofNat n (by omega)
    exact .one _ (by omega) (by omega)
  · have hb₀ := @toNat_ofNat (n / 64 % 0x20 + 0xc0) (by omega)
    have hb₁ := @toNat_ofNat (n % 0x40 + 0x80) (by omega)
    exact .two _ _ (by omega) (by omega) ⟨by omega, by omega⟩ (by omega)
  · have hb₀ := @toNat_ofNat (n / 4096 % 0x10 + 0xe0) (by omega)
    have hb₁ := @toNat_ofNat (n / 64 % 0x40 + 0x80) (by omega)
    have hb₂ := @toNat_ofNat (n % 0x40 + 0x80) (by omega)
    exact .three _ _ _ (by omega) (by omega) ⟨by omega, by omega⟩ ⟨by omega, by omega⟩ (by omega) (by omega) (by omega)
  · have hb₀ := @toNat_ofNat (n / 262144 % 0x08 + 0xf0) (by omega)
    have hb₁ := @toNat_ofNat (n / 4096 % 0x40 + 0x80) (by omega)
    have hb₂ := @toNat_ofNat (n / 64 % 0x40 + 0x80) (by omega)
    have hb₃ := @toNat_ofNat (n % 0x40 + 0x80) (by omega)
    exact .four _ _ _ _ (by omega) (by omega) ⟨by omega, by omega⟩ ⟨by omega, by omega⟩ ⟨by omega, by omega⟩
      (by omega) (by omega) (by omega)

variable {n : ℕ} {b : UInt8} {bs : List UInt8}

/-- The bytes of a character are read as one character. -/
lemma charWidth_encoded (h : Encoded n (b :: bs)) (rest : List UInt8) :
    charWidth b (bs ++ rest) = (bs.length + 1, true) := by
  simp only [charWidth, UInt8.lt_iff_toNat_lt, UInt8.le_iff_toNat_le, ← UInt8.toNat_inj]
  cases h with
  | one _ h₀ => exact if_pos h₀
  | two _ b₁ h₀ h₀' h₁ =>
    obtain ⟨h₁, h₁'⟩ := h₁
    simp [nextIn, UInt8.le_iff_toNat_le, *]
    omega
  | three _ b₁ b₂ h₀ h₀' h₁ h₂ he hed =>
    obtain ⟨h₁, h₁'⟩ := h₁
    obtain ⟨h₂, h₂'⟩ := h₂
    simp [nextIn, UInt8.le_iff_toNat_le, *]
    split_ifs
    all_goals first
      | rfl
      | omega
  | four _ b₁ b₂ b₃ h₀ h₀' h₁ h₂ h₃ hf hf' =>
    obtain ⟨h₁, h₁'⟩ := h₁
    obtain ⟨h₂, h₂'⟩ := h₂
    obtain ⟨h₃, h₃'⟩ := h₃
    simp [nextIn, UInt8.le_iff_toNat_le, *]
    split_ifs
    all_goals first
      | rfl
      | omega

/-- Some of the bytes of a character are read as no character. -/
lemma charWidth_cut (h : Encoded n (b :: bs)) {m : ℕ} (hm : m < bs.length) :
    charWidth b (bs.take m) = (m + 1, false) := by
  simp only [charWidth, UInt8.lt_iff_toNat_lt, UInt8.le_iff_toNat_le, ← UInt8.toNat_inj]
  cases h with
  | one _ h₀ => cases hm
  | two _ b₁ h₀ h₀' h₁ =>
    obtain rfl : m = 0 := Nat.lt_one_iff.mp hm
    simp [nextIn, UInt8.le_iff_toNat_le, *]
    omega
  | three _ b₁ b₂ h₀ h₀' h₁ h₂ he hed =>
    obtain ⟨h₁, h₁'⟩ := h₁
    obtain rfl | rfl : m = 0 ∨ m = 1 := by simp at hm; omega
    · simp [nextIn, UInt8.le_iff_toNat_le, *]
      omega
    · simp [nextIn, UInt8.le_iff_toNat_le, *]
      split_ifs
      all_goals first
        | rfl
        | omega
  | four _ b₁ b₂ b₃ h₀ h₀' h₁ h₂ h₃ hf hf' =>
    obtain ⟨h₁, h₁'⟩ := h₁
    obtain ⟨h₂, h₂'⟩ := h₂
    obtain rfl | rfl | rfl : m = 0 ∨ m = 1 ∨ m = 2 := by simp at hm; omega
    · simp [nextIn, UInt8.le_iff_toNat_le, *]
      omega
    all_goals
      simp [nextIn, UInt8.le_iff_toNat_le, *]
      split_ifs
    all_goals first
      | rfl
      | omega

lemma decodeChar_encoded (h : Encoded n bs) : decodeChar bs = Char.ofNat n := by
  cases h with
  | one _ _ hn => rw [hn, decodeChar]
  | two _ _ _ _ _ hn => rw [hn, decodeChar]
  | three _ _ _ _ _ _ _ _ _ hn => rw [hn, decodeChar]
  | four _ _ _ _ _ _ _ _ _ _ _ hn => rw [hn, decodeChar]

lemma Continues.ne_zero (h : Continues b) : b ≠ 0 := by
  rintro rfl
  exact absurd h.1 (by decide)

/-- Only the byte of NUL is zero. -/
lemma ne_zero_of_mem_encoded (h : Encoded n bs) (hn : n ≠ 0) : ∀ b ∈ bs, b ≠ 0 := by
  have hfirst {b : UInt8} (hb : 0 < b.toNat) : b ≠ 0 := by
    rintro rfl
    cases hb
  cases h with
  | one _ _ hn' => simpa using hfirst (by omega)
  | two _ _ h₀ _ h₁ => simpa using ⟨hfirst (by omega), h₁.ne_zero⟩
  | three _ _ _ h₀ _ h₁ h₂ => simpa using ⟨hfirst (by omega), h₁.ne_zero, h₂.ne_zero⟩
  | four _ _ _ _ h₀ _ h₁ h₂ h₃ => simpa using ⟨hfirst (by omega), h₁.ne_zero, h₂.ne_zero, h₃.ne_zero⟩

variable {c : Char}

lemma ne_zero_of_mem_utf8EncodeChar (h : c ≠ '\x00') : ∀ b ∈ String.utf8EncodeChar c, b ≠ 0 := by
  refine ne_zero_of_mem_encoded (encoded_utf8EncodeChar c) fun hzero => h ?_
  rw [← Char.ofNat_toNat c, hzero]

/-- A character is read and then what follows it. -/
lemma fromUtf8Lossy_append (fuel : ℕ) (c : Char) (rest : List UInt8) :
    fromUtf8Lossy (fuel + 1) (String.utf8EncodeChar c ++ rest) = c :: fromUtf8Lossy fuel rest := by
  have hencoded := encoded_utf8EncodeChar c
  cases hbytes : String.utf8EncodeChar c with
  | nil => exact absurd hbytes String.utf8EncodeChar_ne_nil
  | cons b bs =>
    rw [hbytes] at hencoded
    rw [List.cons_append, fromUtf8Lossy, charWidth_encoded hencoded]
    simp only [if_true, ← List.cons_append]
    have hlength : (b :: bs).length = bs.length + 1 := List.length_cons
    rw [List.take_left' hlength, List.drop_left' hlength, decodeChar_encoded hencoded, Char.ofNat_toNat]

/-- A part of a character is read as one replacement character. -/
lemma fromUtf8Lossy_take (fuel : ℕ) {m : ℕ} (hpos : 0 < m) (hm : m < c.utf8Size) :
    fromUtf8Lossy (fuel + 1) ((String.utf8EncodeChar c).take m) = ['\uFFFD'] := by
  have hencoded := encoded_utf8EncodeChar c
  have hsize := String.length_utf8EncodeChar c
  obtain ⟨m, rfl⟩ := Nat.exists_eq_add_of_le' hpos
  cases hbytes : String.utf8EncodeChar c with
  | nil => exact absurd hbytes String.utf8EncodeChar_ne_nil
  | cons b bs =>
    rw [hbytes] at hencoded hsize
    rw [List.length_cons] at hsize
    have hlt : m < bs.length := by omega
    rw [List.take_succ_cons, fromUtf8Lossy, charWidth_cut hencoded hlt]
    have hdrop : (b :: bs.take m).drop (m + 1) = [] := by simp
    simp only [hdrop]
    cases fuel <;> rfl

lemma takeWhile_append_zero (l rest : List UInt8) :
    (l ++ 0 :: rest).takeWhile (· != 0) = l.takeWhile (· != 0) := by
  rw [List.takeWhile_append]
  split_ifs with hlength
  · have hall : l.takeWhile (· != 0) = l := (List.takeWhile_prefix _).eq_of_length hlength
    rw [hall]
    exact List.append_nil l
  · rfl

/-- The bytes before the first zero of those that have room. -/
def bytesThere (room : ℕ) (s : Text) : List UInt8 := ((encode s).take room).takeWhile (· != 0)

lemma bytesThere_cons (room : ℕ) (hnul : c ≠ '\x00') (s : Text) : bytesThere room (c :: s) =
    (String.utf8EncodeChar c).take room ++ if c.utf8Size ≤ room then bytesThere (room - c.utf8Size) s else [] := by
  have hsize := String.length_utf8EncodeChar c
  have hbytes : ∀ b ∈ (String.utf8EncodeChar c).take room, (b != 0) = true := fun b hb =>
    bne_iff_ne.mpr (ne_zero_of_mem_utf8EncodeChar hnul b (List.mem_of_mem_take hb))
  rw [bytesThere, encode, List.flatMap_cons, List.take_append, List.takeWhile_append_of_pos hbytes, hsize]
  split_ifs with hroom
  · rfl
  · rw [Nat.sub_eq_zero_of_le (Nat.le_of_not_le hroom), List.take_zero, List.takeWhile_nil]

/-- What is read of a text of which `room` bytes are there. -/
lemma fromUtf8Lossy_bytesThere (room : ℕ) (s : Text) {fuel : ℕ} (hfuel : (bytesThere room s).length ≤ fuel) :
    fromUtf8Lossy fuel (bytesThere room s) = cut room s := by
  have hnil (fuel : ℕ) : fromUtf8Lossy fuel [] = [] := by cases fuel <;> rfl
  induction s generalizing room fuel with
  | nil =>
    have hempty : bytesThere room [] = [] := by simp [bytesThere, encode]
    rw [hempty, hnil, cut]
  | cons c s ih =>
    have hsize := String.length_utf8EncodeChar c
    have hpos := c.utf8Size_pos
    rw [cut]
    by_cases hnul : c = '\x00'
    · subst hnul
      have hempty : bytesThere room ('\x00' :: s) = [] := by cases room <;> rfl
      rw [hempty, hnil, if_pos rfl]
    · rw [bytesThere_cons room hnul] at hfuel ⊢
      rw [if_neg hnul]
      split_ifs at hfuel ⊢ with hroom hzero
      · rw [List.take_of_length_le (hsize.trans_le hroom)] at hfuel ⊢
        rw [List.length_append, hsize] at hfuel
        obtain ⟨fuel, rfl⟩ := Nat.exists_eq_add_of_le' (Nat.le_trans hpos ((Nat.le_add_right _ _).trans hfuel))
        rw [fromUtf8Lossy_append, ih _ (by omega)]
      · rw [hzero, List.take_zero, List.append_nil, hnil]
      · rw [List.append_nil, List.length_take, hsize] at hfuel
        rw [List.append_nil]
        obtain ⟨fuel, rfl⟩ := Nat.exists_eq_add_of_le' (show 1 ≤ fuel by omega)
        exact fromUtf8Lossy_take fuel (Nat.pos_of_ne_zero hzero) (Nat.lt_of_not_le hroom)

/-- What a buffer gives back of a text. -/
theorem bufToString_copyStrToBuf {n : ℕ} (hn : 0 < n) (s : Text) :
    bufToString (copyStrToBuf n s).bytes = cut (n - 1) s := by
  obtain ⟨room, rfl⟩ := Nat.exists_eq_add_of_le' hn
  have hlength : ((encode s).take (min (encode s).length room) ++
      List.replicate (room + 1 - min (encode s).length room) 0).length = room + 1 := by
    rw [List.length_append, List.length_take, List.length_replicate]
    omega
  obtain ⟨zeros, hzeros⟩ : ∃ zeros, room + 1 - min (encode s).length room = zeros + 1 :=
    ⟨room - min (encode s).length room, by omega⟩
  have htake : (encode s).take (min (encode s).length room) = (encode s).take room := by
    rw [Nat.min_comm, ← List.take_take, List.take_of_length_le (Nat.le_refl (encode s).length)]
  have hbytes : (copyStrToBuf (room + 1) s).bytes.takeWhile (· != 0) = bytesThere room s := by
    rw [copyStrToBuf, Nat.add_sub_cancel, Arr.bytes_ofSlice hlength, htake, hzeros, List.replicate_succ]
    exact takeWhile_append_zero _ _
  rw [bufToString, hbytes]
  exact fromUtf8Lossy_bytesThere room s (Nat.le_refl _)

/-! ### Writing back -/

/-- The contact with its texts as the buffers give them back. -/
def Contact.cutTexts (c : Contact) : Contact :=
  { c with name := cut 63 c.name, callsign := cut 15 c.callsign, phone := cut 23 c.phone, bleAddr := cut 23 c.bleAddr }

/-- What is written back is what was read, but for the field that was changed. -/
lemma update_apply (e : Edit) (c : Contact) : c.update (e.apply c.toCInfo) = e.change c.cutTexts := by
  have hname : bufToString (copyStrToBuf 64 c.name).bytes = cut 63 c.name := bufToString_copyStrToBuf (by decide) _
  have hcallsign : bufToString (copyStrToBuf 16 c.callsign).bytes = cut 15 c.callsign :=
    bufToString_copyStrToBuf (by decide) _
  have hphone : bufToString (copyStrToBuf 24 c.phone).bytes = cut 23 c.phone := bufToString_copyStrToBuf (by decide) _
  have hbleAddr : bufToString (copyStrToBuf 24 c.bleAddr).bytes = cut 23 c.bleAddr :=
    bufToString_copyStrToBuf (by decide) _
  cases e <;> simp only [Contact.update, Edit.apply, Contact.toCInfo, Edit.change, Contact.cutTexts, hname, hcallsign,
    hphone, hbleAddr]

lemma id_toCInfo (c : Contact) : c.toCInfo.id = c.id := rfl

lemma id_apply (e : Edit) (info : CContactInfo) : (e.apply info).id = info.id := by
  cases e <;> rfl

/-- The texts that the edit does not replace fit their buffers. -/
def Edit.Whole : Edit → Contact → Prop
  | .name _, c => Fits 15 c.callsign ∧ Fits 23 c.phone ∧ Fits 23 c.bleAddr
  | .callsign _, c => Fits 63 c.name ∧ Fits 23 c.phone ∧ Fits 23 c.bleAddr
  | .phone _, c => Fits 63 c.name ∧ Fits 15 c.callsign ∧ Fits 23 c.bleAddr
  | .bleAddr _, c => Fits 63 c.name ∧ Fits 15 c.callsign ∧ Fits 23 c.phone
  | _, c => Fits 63 c.name ∧ Fits 15 c.callsign ∧ Fits 23 c.phone ∧ Fits 23 c.bleAddr

lemma change_cutTexts_iff (e : Edit) (c : Contact) : e.change c.cutTexts = e.change c ↔ e.Whole c := by
  cases e <;> simp [Edit.change, Contact.cutTexts, Edit.Whole, cut_eq_self_iff]

/-- A contact that is read, changed in one field and written back: the contact with that field changed and the other
texts as far as the buffers hold them, which is all of them exactly if they fit. No other contact changes. -/
theorem edit_written_back (e : Edit) (mgr : ContactManager) (id : UInt32) (c : Contact) (h : mgr.get id = some c) :
    ∃ info i, mgr.rsContactGet id = (espOk, some info) ∧ mgr.contacts[i]? = some c ∧
      mgr.update (e.apply info) =
        (espOk, { mgr with contacts := mgr.contacts.set i (e.change c.cutTexts), dirty := true }) ∧
      (e.change c.cutTexts = e.change c ↔ e.Whole c) := by
  have hread : mgr.rsContactGet id = (espOk, some c.toCInfo) := by rw [rsContactGet, h]
  have hid : c.id = id := by simpa using List.find?_some h
  cases hfind : mgr.contacts.findIdx? (·.id == id) with
  | none =>
    have hnone := List.findIdx?_eq_none_iff.mp hfind c (List.mem_of_find?_eq_some h)
    rw [beq_eq_false_iff_ne] at hnone
    exact absurd hid hnone
  | some i =>
    obtain ⟨pre, c', post, hsplit, rfl, hpre, hc'⟩ := Slots.findIdx?_eq_some_split hfind
    obtain rfl : c' = c := by
      rw [ContactManager.get, hsplit, List.find?_append, List.find?_eq_none.mpr (by simpa using hpre), List.find?_cons,
        hc'] at h
      exact Option.some.inj h
    have hget : mgr.contacts[pre.length]? = some c' := by
      rw [hsplit, List.getElem?_append_right (Nat.le_refl _), Nat.sub_self]
      rfl
    have hmodify : mgr.contacts.modify pre.length (·.update (e.apply c'.toCInfo)) =
        mgr.contacts.set pre.length (e.change c'.cutTexts) := by
      rw [hsplit, Slots.modify_length_append, update_apply, List.set_append_right _ _ (Nat.le_refl _), Nat.sub_self]
      rfl
    refine ⟨c'.toCInfo, pre.length, hread, hget, ?_, change_cutTexts_iff e c'⟩
    rw [ContactManager.update, modifyFirst, id_apply, id_toCInfo, hid, hfind]
    dsimp only
    rw [hmodify]

/-- The book with one contact. -/
def bookOf (name : Text) : ContactManager := ⟨[Contact.new 1 name], 2, true, false⟩

theorem edit_written_back_ada : ∃ info i, (bookOf "Ada".toList).rsContactGet 1 = (espOk, some info) ∧
    (bookOf "Ada".toList).contacts[i]? = some (Contact.new 1 "Ada".toList) ∧
      (bookOf "Ada".toList).update ((Edit.isEmergency true).apply info) = (espOk, { bookOf "Ada".toList with
        contacts := (bookOf "Ada".toList).contacts.set i
          ((Edit.isEmergency true).change (Contact.new 1 "Ada".toList).cutTexts), dirty := true }) ∧
      ((Edit.isEmergency true).change (Contact.new 1 "Ada".toList).cutTexts =
        (Edit.isEmergency true).change (Contact.new 1 "Ada".toList) ↔
          (Edit.isEmergency true).Whole (Contact.new 1 "Ada".toList)) :=
  edit_written_back (.isEmergency true) (bookOf "Ada".toList) 1 (Contact.new 1 "Ada".toList) rfl

/-- A name of 64 characters loses the last one when the contact is made an emergency contact. -/
theorem name_loses_character : ∃ info, (bookOf (List.replicate 64 'a')).rsContactGet 1 = (espOk, some info) ∧
    ((bookOf (List.replicate 64 'a')).update ((Edit.isEmergency true).apply info)).2.contacts.map Contact.name =
      [List.replicate 63 'a'] := by
  refine ⟨(Contact.new 1 (List.replicate 64 'a')).toCInfo, rfl, ?_⟩
  change [bufToString (copyStrToBuf 64 (List.replicate 64 'a')).bytes] = _
  rw [bufToString_copyStrToBuf (by decide)]
  decide +kernel

end ThistleOS.Contacts
