import ThistleOS.Crc
import ThistleOS.Kernel.SosBeacon

/-!
# The codec of SOS packets

What is encoded is decoded, and what is decoded is what was encoded; a burst of errors is found out. The decoder
looks at the magic, the checksum and the status, and not at the version and the length of the message.
-/

namespace ThistleOS.Sos

open SosMessage

/-! ### Offsets -/

section

variable {data seg rest : List UInt8} {k n : ℕ}

lemma slice_of_drop (h : data.drop k = seg ++ rest) (hn : seg.length = n) :
    slice data k n = seg ∧ data.drop (k + n) = rest := by
  constructor
  · rw [slice, h, List.take_left' hn]
  · rw [← List.drop_drop, h, List.drop_left' hn]

lemma getD_of_drop {b : UInt8} (h : data.drop k = [b] ++ rest) : data.getD k 0 = b ∧ data.drop (k + 1) = rest := by
  refine ⟨?_, (slice_of_drop h rfl).2⟩
  have hget := congrArg (·[0]?) h
  rw [List.getElem?_drop, Nat.add_zero] at hget
  rw [List.getD_eq_getElem?_getD, hget]
  rfl

lemma slice_append_drop (data : List UInt8) (k n : ℕ) : slice data k n ++ data.drop (k + n) = data.drop k := by
  rw [slice, ← List.drop_drop, List.take_append_drop]

lemma getD_append_drop (h : k < data.length) : [data.getD k 0] ++ data.drop (k + 1) = data.drop k := by
  rw [List.getD_eq_getElem?_getD, List.getElem?_eq_getElem h, Option.getD_some, List.singleton_append,
    List.getElem_cons_drop]

lemma length_slice (h : k + n ≤ data.length) : (slice data k n).length = n := by
  rw [slice, List.length_take, List.length_drop]
  omega

end

/-! ### Fields -/

lemma ofNat_decode16 (x : UInt16) : UInt16.ofNat (BigEndian.decode (BigEndian.encode 2 x.toNat)) = x := by
  rw [BigEndian.decode_encode_of_lt x.toNat_lt, UInt16.ofNat_toNat]

lemma ofNat_decode32 (x : UInt32) : UInt32.ofNat (BigEndian.decode (BigEndian.encode 4 x.toNat)) = x := by
  rw [BigEndian.decode_encode_of_lt x.toNat_lt, UInt32.ofNat_toNat]

lemma ofNat_decode64 (x : UInt64) : UInt64.ofNat (BigEndian.decode (BigEndian.encode 8 x.toNat)) = x := by
  rw [BigEndian.decode_encode_of_lt x.toNat_lt, UInt64.ofNat_toNat]

lemma encode_toNat16 {l : List UInt8} (h : l.length = 2) :
    BigEndian.encode 2 (UInt16.ofNat (BigEndian.decode l)).toNat = l := by
  rw [UInt16.toNat_ofNat', BigEndian.encode_decode_mod (m := 2 ^ 16) h rfl]

lemma encode_toNat32 {l : List UInt8} (h : l.length = 4) :
    BigEndian.encode 4 (UInt32.ofNat (BigEndian.decode l)).toNat = l := by
  rw [UInt32.toNat_ofNat', BigEndian.encode_decode_mod (m := 2 ^ 32) h rfl]

lemma encode_toNat64 {l : List UInt8} (h : l.length = 8) :
    BigEndian.encode 8 (UInt64.ofNat (BigEndian.decode l)).toNat = l := by
  rw [UInt64.toNat_ofNat', BigEndian.encode_decode_mod (m := 2 ^ 64) h rfl]

lemma fromU8_toU8 (status : SosStatus) : SosStatus.fromU8 status.toU8 = some status := by
  cases status <;> rfl

lemma toU8_fromU8 {v : UInt8} {status : SosStatus} (h : SosStatus.fromU8 v = some status) : status.toU8 = v := by
  rw [SosStatus.fromU8] at h
  apply UInt8.toNat_inj.mp
  split at h
  case h_7 => cases h
  all_goals
    rename_i hv
    rw [hv, ← Option.some.inj h]
    rfl

/-! ### Encoding and decoding -/

lemma length_fields (m : SosMessage) : m.fields.length = 107 := by
  simp only [SosMessage.fields, List.length_append, Arr.length_bytes, List.length_singleton, BigEndian.length_encode]
  rfl

lemma length_toBytes (m : SosMessage) : m.toBytes.length = sosPacketSize := by
  rw [toBytes, List.length_append, length_fields, BigEndian.length_encode]
  rfl

/-- The message whose fields the bytes are, with a status. -/
def decoded (data : List UInt8) (status : SosStatus) : SosMessage where
  magic := .ofSlice (slice data 0 4)
  version := data.getD 4 0
  sequence := .ofNat (BigEndian.decode (slice data 5 2))
  deviceId := .ofSlice (slice data 7 8)
  timestamp := .ofNat (BigEndian.decode (slice data 15 4))
  latitude := .ofNat (BigEndian.decode (slice data 19 8))
  longitude := .ofNat (BigEndian.decode (slice data 27 8))
  altitudeM := .ofNat (BigEndian.decode (slice data 35 4))
  satellites := data.getD 39 0
  batteryPct := data.getD 40 0
  status := status
  messageLen := data.getD 42 0
  message := .ofSlice (slice data 43 sosMessageMax)
  checksum := .ofNat (BigEndian.decode (slice data 107 2))

lemma fromBytes_eq_ok_iff {data : List UInt8} {m : SosMessage} :
    fromBytes data = .ok m ↔ sosPacketSize ≤ data.length ∧ slice data 0 4 = sosMagic ∧
      crc16Ccitt (data.take 107) = .ofNat (BigEndian.decode (slice data 107 2)) ∧
      ∃ status, SosStatus.fromU8 (data.getD 41 0) = some status ∧ m = decoded data status := by
  rw [fromBytes]
  by_cases hlen : data.length < sosPacketSize
  · rw [if_pos hlen]
    exact ⟨fun h => (by cases h), fun h => absurd h.1 (Nat.not_le.mpr hlen)⟩
  rw [if_neg hlen, and_iff_right (Nat.not_lt.mp hlen)]
  by_cases hmagic : slice data 0 4 = sosMagic
  · rw [if_neg (not_not.mpr hmagic), and_iff_right hmagic]
    by_cases hcrc : crc16Ccitt (data.take (sosPacketSize - 2)) =
        .ofNat (BigEndian.decode (slice data (sosPacketSize - 2) 2))
    · have hcrc' : crc16Ccitt (data.take 107) = .ofNat (BigEndian.decode (slice data 107 2)) := hcrc
      rw [and_iff_right hcrc']
      dsimp only
      rw [if_neg (not_not.mpr hcrc)]
      cases hstatus : SosStatus.fromU8 (data.getD 41 0) with
      | none => simp
      | some status =>
        constructor
        · intro h
          exact ⟨status, rfl, (Except.ok.inj h).symm⟩
        · rintro ⟨status', hsome, rfl⟩
          obtain rfl := Option.some.inj hsome
          rfl
    · dsimp only
      rw [if_pos hcrc]
      exact ⟨fun h => (by cases h), fun h => absurd h.1 hcrc⟩
  · rw [if_pos hmagic]
    exact ⟨fun h => (by cases h), fun h => absurd h.1 hmagic⟩

/-- The fields of a message, one after the other. -/
lemma decoded_toBytes (m : SosMessage) :
    slice m.toBytes 0 4 = m.magic.bytes ∧ m.toBytes.getD 41 0 = m.status.toU8 ∧
      decoded m.toBytes m.status = { m with checksum := crc16Ccitt m.fields } := by
  have h0 : m.toBytes.drop 0 = m.fields ++ BigEndian.encode 2 (crc16Ccitt m.fields).toNat := rfl
  simp only [SosMessage.fields, List.append_assoc] at h0
  obtain ⟨hmagic, h4⟩ := slice_of_drop h0 (Arr.length_bytes _)
  obtain ⟨hversion, h5⟩ := getD_of_drop h4
  obtain ⟨hsequence, h7⟩ := slice_of_drop h5 (BigEndian.length_encode _ _)
  obtain ⟨hdeviceId, h15⟩ := slice_of_drop h7 (Arr.length_bytes _)
  obtain ⟨htimestamp, h19⟩ := slice_of_drop h15 (BigEndian.length_encode _ _)
  obtain ⟨hlatitude, h27⟩ := slice_of_drop h19 (BigEndian.length_encode _ _)
  obtain ⟨hlongitude, h35⟩ := slice_of_drop h27 (BigEndian.length_encode _ _)
  obtain ⟨haltitudeM, h39⟩ := slice_of_drop h35 (BigEndian.length_encode _ _)
  obtain ⟨hsatellites, h40⟩ := getD_of_drop h39
  obtain ⟨hbatteryPct, h41⟩ := getD_of_drop h40
  obtain ⟨hstatus, h42⟩ := getD_of_drop h41
  obtain ⟨hmessageLen, h43⟩ := getD_of_drop h42
  obtain ⟨hmessage, h107⟩ := slice_of_drop h43 (Arr.length_bytes _)
  have hchecksum := (slice_of_drop (h107.trans (List.append_nil _).symm) (BigEndian.length_encode _ _)).1
  refine ⟨hmagic, hstatus, ?_⟩
  rw [decoded, SosMessage.mk.injEq]
  exact ⟨(congrArg Arr.ofSlice hmagic).trans (Arr.ofSlice_bytes _), hversion,
    (congrArg (UInt16.ofNat ∘ BigEndian.decode) hsequence).trans (ofNat_decode16 _),
    (congrArg Arr.ofSlice hdeviceId).trans (Arr.ofSlice_bytes _),
    (congrArg (UInt32.ofNat ∘ BigEndian.decode) htimestamp).trans (ofNat_decode32 _),
    (congrArg (UInt64.ofNat ∘ BigEndian.decode) hlatitude).trans (ofNat_decode64 _),
    (congrArg (UInt64.ofNat ∘ BigEndian.decode) hlongitude).trans (ofNat_decode64 _),
    (congrArg (UInt32.ofNat ∘ BigEndian.decode) haltitudeM).trans (ofNat_decode32 _),
    hsatellites, hbatteryPct, rfl, hmessageLen,
    (congrArg Arr.ofSlice hmessage).trans (Arr.ofSlice_bytes _),
    (congrArg (UInt16.ofNat ∘ BigEndian.decode) hchecksum).trans (ofNat_decode16 _)⟩

lemma take_toBytes (m : SosMessage) : m.toBytes.take 107 = m.fields := by
  rw [toBytes, List.take_left' (length_fields m)]

lemma slice_checksum (m : SosMessage) : slice m.toBytes 107 2 = BigEndian.encode 2 (crc16Ccitt m.fields).toNat := by
  rw [slice, toBytes, List.drop_left' (length_fields m), List.take_of_length_le (BigEndian.length_encode _ _).le]

lemma crc_toBytes (m : SosMessage) :
    crc16Ccitt (m.toBytes.take 107) = .ofNat (BigEndian.decode (slice m.toBytes 107 2)) := by
  rw [take_toBytes, slice_checksum, ofNat_decode16]

/-- A message with the right magic is decoded as it was encoded, with its checksum. -/
theorem fromBytes_toBytes {m : SosMessage} (hmagic : m.magic.bytes = sosMagic) :
    fromBytes m.toBytes = .ok { m with checksum := crc16Ccitt m.fields } := by
  obtain ⟨hslice, hstatus, hdecoded⟩ := decoded_toBytes m
  exact fromBytes_eq_ok_iff.mpr ⟨(length_toBytes m).ge, hslice.trans hmagic, crc_toBytes m, m.status,
    hstatus ▸ fromU8_toU8 m.status, hdecoded.symm⟩

/-- What is decoded is what was encoded. -/
theorem toBytes_of_fromBytes {data : List UInt8} (hlen : data.length = sosPacketSize) {m : SosMessage}
    (h : fromBytes data = .ok m) : m.toBytes = data := by
  obtain ⟨-, -, hcrc, status, hstatus, rfl⟩ := fromBytes_eq_ok_iff.mp h
  have hlen : data.length = 109 := hlen
  have hchecksum : BigEndian.encode 2 (crc16Ccitt (data.take 107)).toNat = data.drop 107 := by
    rw [hcrc, encode_toNat16 (length_slice (by omega)), slice, List.take_of_length_le]
    rw [List.length_drop]
    omega
  have hmessage : (Arr.ofSlice (slice data 43 64) : Arr 64).bytes ++ data.drop 107 = data.drop 43 := by
    rw [Arr.bytes_ofSlice (length_slice (by omega)), slice_append_drop data 43 64]
  have h42 : [data.getD 42 0] ++ data.drop 43 = data.drop 42 := getD_append_drop (by omega)
  have h41 : [data.getD 41 0] ++ data.drop 42 = data.drop 41 := getD_append_drop (by omega)
  have h40 : [data.getD 40 0] ++ data.drop 41 = data.drop 40 := getD_append_drop (by omega)
  have h39 : [data.getD 39 0] ++ data.drop 40 = data.drop 39 := getD_append_drop (by omega)
  have h35 : slice data 35 4 ++ data.drop 39 = data.drop 35 := slice_append_drop data 35 4
  have h27 : slice data 27 8 ++ data.drop 35 = data.drop 27 := slice_append_drop data 27 8
  have h19 : slice data 19 8 ++ data.drop 27 = data.drop 19 := slice_append_drop data 19 8
  have h15 : slice data 15 4 ++ data.drop 19 = data.drop 15 := slice_append_drop data 15 4
  have h7 : slice data 7 8 ++ data.drop 15 = data.drop 7 := slice_append_drop data 7 8
  have h5 : slice data 5 2 ++ data.drop 7 = data.drop 5 := slice_append_drop data 5 2
  have h4 : [data.getD 4 0] ++ data.drop 5 = data.drop 4 := getD_append_drop (by omega)
  have h0 : slice data 0 4 ++ data.drop 4 = data := slice_append_drop data 0 4
  have hfields : (decoded data status).fields ++ data.drop 107 = data := by
    simp only [SosMessage.fields, decoded, List.append_assoc]
    rw [Arr.bytes_ofSlice (length_slice (by omega)), encode_toNat16 (length_slice (by omega)),
      Arr.bytes_ofSlice (length_slice (by omega)), encode_toNat32 (length_slice (by omega)),
      encode_toNat64 (length_slice (by omega)), encode_toNat64 (length_slice (by omega)),
      encode_toNat32 (length_slice (by omega)), toU8_fromU8 hstatus]
    change slice data 0 4 ++ ([data.getD 4 0] ++ (slice data 5 2 ++ (slice data 7 8 ++ (slice data 15 4 ++
      (slice data 19 8 ++ (slice data 27 8 ++ (slice data 35 4 ++ ([data.getD 39 0] ++ ([data.getD 40 0] ++
      ([data.getD 41 0] ++ ([data.getD 42 0] ++ ((Arr.ofSlice (slice data 43 64) : Arr 64).bytes ++
      data.drop 107)))))))))))) = data
    rw [hmessage, h42, h41, h40, h39, h35, h27, h19, h15, h7, h5, h4, h0]
  have hpayload := congrArg (List.take 107) hfields
  rw [List.take_left' (length_fields (decoded data status))] at hpayload
  rw [toBytes, hpayload, hchecksum, List.take_append_drop]

/-! ### Bursts -/

/-- The bits of a byte, the most significant one first. -/
def bitsOf (b : UInt8) : List Bool := [7, 6, 5, 4, 3, 2, 1, 0].map fun i => b.toBitVec.getLsbD i

def bits (data : List UInt8) : List Bool := data.flatMap bitsOf

def crc16Poly : BitVec 16 := 0x1021

lemma toBitVec_crc16Bit (crc : UInt16) : (crc16Bit crc).toBitVec = Crc.shift crc16Poly crc.toBitVec := by
  have hmsb : crc &&& 0x8000 ≠ 0 ↔ crc.toBitVec.msb = true := by
    have htop : (crc &&& 0x8000).toBitVec = crc.toBitVec &&& BitVec.twoPow 16 15 := rfl
    rw [Ne, ← UInt16.toBitVec_inj, htop, BitVec.and_twoPow, BitVec.msb_eq_getLsbD_last]
    split_ifs with h
    · exact iff_of_true (by decide) h
    · exact iff_of_false (not_not.mpr rfl) h
  rw [crc16Bit, Crc.shift]
  by_cases h : crc.toBitVec.msb = true
  · rw [if_pos (hmsb.mpr h), if_pos h]
    rfl
  · rw [if_neg (mt hmsb.mp h), if_neg h]
    rfl

lemma toBitVec_iterate (n : ℕ) (crc : UInt16) :
    (crc16Bit^[n] crc).toBitVec = Crc.shifts crc16Poly n crc.toBitVec := by
  induction n generalizing crc with
  | zero => rfl
  | succ n ih => rw [Function.iterate_succ_apply, ih, toBitVec_crc16Bit, Crc.shifts]

/-- The bits of a byte, in the highest places. -/
lemma top_bitsOf (b : UInt8) : Crc.top (bitsOf b) = (b.toUInt16 <<< 8).toBitVec := by
  have hall : ∀ x : BitVec 8, Crc.top ([7, 6, 5, 4, 3, 2, 1, 0].map fun i => x.getLsbD i) =
      x.setWidth 16 <<< 8 := by
    decide +kernel
  exact hall b.toBitVec

lemma length_bitsOf (b : UInt8) : (bitsOf b).length = 8 := rfl

/-- A byte of the checksum is eight bits of the remainder. -/
lemma toBitVec_crc16Byte (crc : UInt16) (b : UInt8) :
    (crc16Byte crc b).toBitVec = Crc.remainder crc16Poly crc.toBitVec (bitsOf b) := by
  rw [Crc.remainder_eq_shifts (by rw [length_bitsOf]; decide), top_bitsOf, crc16Byte, toBitVec_iterate]
  rfl

lemma toBitVec_foldl (crc : UInt16) (data : List UInt8) :
    (data.foldl crc16Byte crc).toBitVec = Crc.remainder crc16Poly crc.toBitVec (bits data) := by
  induction data generalizing crc with
  | nil => rfl
  | cons b data ih =>
    have hbits : bits (b :: data) = bitsOf b ++ bits data := List.flatMap_cons
    rw [List.foldl_cons, ih, toBitVec_crc16Byte, hbits, Crc.remainder_append]

/-- The bits of a checksum, in the highest places. -/
lemma top_checksum (hi lo : UInt8) : Crc.top (bitsOf hi ++ bitsOf lo) =
    (UInt16.ofNat (BigEndian.decode [hi, lo])).toBitVec := by
  rw [Crc.top_append, top_bitsOf, top_bitsOf, length_bitsOf]
  have hdecode : BigEndian.decode [hi, lo] = 2 ^ 8 * hi.toNat + lo.toNat := by
    simp [BigEndian.decode, Nat.mul_comm]
  refine BitVec.eq_of_getLsbD_eq fun i hi16 => ?_
  have hstored : (UInt16.ofNat (BigEndian.decode [hi, lo])).toBitVec.getLsbD i =
      (2 ^ 8 * hi.toNat + lo.toNat).testBit i := by
    rw [hdecode]
    change (BitVec.ofNat 16 _).getLsbD i = _
    rw [BitVec.getLsbD_ofNat, decide_eq_true hi16, Bool.true_and]
  have hhi : (hi.toUInt16 <<< 8).toBitVec.getLsbD i = (!decide (i < 8) && hi.toBitVec.getLsbD (i - 8)) := by
    change (hi.toBitVec.setWidth 16 <<< 8).getLsbD i = _
    rw [BitVec.getLsbD_shiftLeft, BitVec.getLsbD_setWidth, decide_eq_true hi16,
      decide_eq_true (Nat.lt_of_le_of_lt (Nat.sub_le i 8) hi16), Bool.true_and, Bool.true_and]
  have hlo : ((lo.toUInt16 <<< 8).toBitVec >>> 8).getLsbD i = lo.toBitVec.getLsbD i := by
    change ((lo.toBitVec.setWidth 16 <<< 8) >>> 8).getLsbD i = _
    rw [BitVec.getLsbD_ushiftRight, BitVec.getLsbD_shiftLeft, BitVec.getLsbD_setWidth, Nat.add_sub_cancel_left,
      decide_eq_true hi16, Bool.true_and]
    by_cases h8 : i < 8
    · rw [decide_eq_true (by omega : 8 + i < 16), decide_eq_false (by omega : ¬ 8 + i < 8)]
      rfl
    · rw [BitVec.getLsbD_of_ge lo.toBitVec i (Nat.not_lt.mp h8), Bool.and_false]
  rw [hstored, Nat.testBit_two_pow_mul_add _ lo.toNat_lt, BitVec.getLsbD_xor, hhi, hlo]
  split_ifs with h8
  · rw [decide_eq_true h8, Bool.not_true, Bool.false_and, Bool.false_xor]
    rfl
  · rw [decide_eq_false h8, Bool.not_false, Bool.true_and, BitVec.getLsbD_of_ge lo.toBitVec i (Nat.not_lt.mp h8),
      Bool.xor_false]
    rfl

/-- A packet with the right checksum has no remainder. -/
lemma remainder_eq_zero {data : List UInt8} (hlen : data.length = sosPacketSize)
    (hcrc : crc16Ccitt (data.take 107) = .ofNat (BigEndian.decode (slice data 107 2))) :
    Crc.remainder crc16Poly 0xFFFF (bits data) = 0 := by
  have hlen : data.length = 109 := hlen
  obtain ⟨hi, lo, hdrop⟩ : ∃ hi lo, data.drop 107 = [hi, lo] :=
    List.length_eq_two.mp (by rw [List.length_drop, hlen])
  have hbits : bits data = bits (data.take 107) ++ (bitsOf hi ++ bitsOf lo) := by
    conv_lhs => rw [← List.take_append_drop 107 data, hdrop]
    simp [bits]
  have hcrc := congrArg UInt16.toBitVec hcrc
  rw [crc16Ccitt, toBitVec_foldl, slice, hdrop] at hcrc
  have hpayload : Crc.remainder crc16Poly 0xFFFF (bits (data.take 107)) =
      (UInt16.ofNat (BigEndian.decode [hi, lo])).toBitVec := hcrc
  have hlast : (bitsOf hi ++ bitsOf lo).length = 16 := rfl
  rw [hbits, Crc.remainder_append, Crc.remainder_eq_shifts hlast.le, top_checksum, hpayload, BitVec.xor_self]
  exact Crc.shifts_zero 16

lemma length_bits (data : List UInt8) : (bits data).length = data.length * 8 := by
  induction data with
  | nil => rfl
  | cons b data ih =>
    have hbits : bits (b :: data) = bitsOf b ++ bits data := List.flatMap_cons
    rw [hbits, List.length_append, ih, length_bitsOf, List.length_cons]
    omega

lemma bitsOf_injective {b b' : UInt8} (h : bitsOf b = bitsOf b') : b = b' := by
  have htop : Crc.top (w := 8) (bitsOf b) = Crc.top (bitsOf b') := by rw [h]
  have hall : ∀ x : BitVec 8, Crc.top ([7, 6, 5, 4, 3, 2, 1, 0].map fun i => x.getLsbD i) = x := by decide +kernel
  exact UInt8.toBitVec_inj.mp ((hall b.toBitVec).symm.trans (htop.trans (hall b'.toBitVec)))

lemma bits_injective {data data' : List UInt8} (h : bits data = bits data') : data = data' := by
  induction data generalizing data' with
  | nil =>
    have hlen := congrArg List.length h
    rw [length_bits, length_bits, List.length_nil] at hlen
    exact (List.eq_nil_of_length_eq_zero (by omega)).symm
  | cons b data ih =>
    cases data' with
    | nil =>
      have hlen := congrArg List.length h
      rw [length_bits, length_bits, List.length_cons, List.length_nil] at hlen
      omega
    | cons b' data' =>
      have hbits : bitsOf b ++ bits data = bitsOf b' ++ bits data' := h
      obtain ⟨hb, hdata⟩ := List.append_inj hbits rfl
      rw [bitsOf_injective hb, ih hdata]

/-- A packet that differs from an encoded one by a burst is rejected. -/
theorem burst_rejected (m : SosMessage) {data : List UInt8} (hlen : data.length = sosPacketSize)
    (hne : data ≠ m.toBytes) {i : ℕ} (hburst : ∀ k, (bits data)[k]? ≠ (bits m.toBytes)[k]? → i ≤ k ∧ k < i + 16) :
    ∃ e, fromBytes data = .error e := by
  cases h : fromBytes data with
  | error e => exact ⟨e, rfl⟩
  | ok m' =>
    obtain ⟨-, -, hcrc, -⟩ := fromBytes_eq_ok_iff.mp h
    have hremainder := (remainder_eq_zero hlen hcrc).trans (remainder_eq_zero (length_toBytes m) (crc_toBytes m)).symm
    refine absurd (bits_injective (Crc.eq_of_remainder_eq rfl ?_ hremainder hburst)) hne
    rw [length_bits, length_bits, hlen, length_toBytes]

/-! ### The beacon -/

lemma magic_nextMessage (s : SosBeacon) : s.nextMessage.magic.bytes = sosMagic := Arr.bytes_ofSlice rfl

lemma nextPacket_of_active {s : SosBeacon} (h : s.active = true) : s.nextPacket.1 = some s.nextMessage.toBytes := by
  rw [SosBeacon.nextPacket, if_neg (by simp [h])]
  dsimp only
  split_ifs <;> rfl

lemma active_of_nextPacket {s : SosBeacon} {packet : List UInt8} (h : s.nextPacket.1 = some packet) :
    s.active = true := by
  by_contra hinactive
  rw [SosBeacon.nextPacket, if_pos (by simpa using hinactive)] at h
  cases h

/-- The length of the message is that of the text in it. -/
def Measured (s : SosBeacon) : Prop := s.messageLen.toNat ≤ sosMessageMax

lemma measured_setMessage (msg : String) (s : SosBeacon) : Measured (s.setMessage msg) := by
  have hmin := Nat.min_le_right (utf8 msg).length sosMessageMax
  have hlen : (s.setMessage msg).messageLen.toNat = min (utf8 msg).length sosMessageMax % 256 := UInt8.toNat_ofNat'
  rw [Measured, hlen]
  exact (Nat.mod_le _ _).trans hmin

lemma measured_next (o : Op) {s : SosBeacon} (h : Measured s) : Measured (sosBeacon.next o s) := by
  cases o with
  | activate status message =>
    change Measured (s.activate status message).2
    rw [SosBeacon.activate, SosBeacon.cancel]
    split_ifs
    · exact h
    · exact h
    · exact h
    · cases message with
      | some msg => exact measured_setMessage msg _
      | none => exact Nat.zero_le _
  | cancel =>
    change Measured s.cancel.2
    rw [SosBeacon.cancel]
    split_ifs
    · exact h
    · exact h
  | updatePosition pos => exact h
  | updateBattery pct => exact h
  | setMessage msg => exact measured_setMessage msg s
  | nextPacket =>
    change Measured s.nextPacket.2
    rw [SosBeacon.nextPacket]
    dsimp only
    split_ifs
    · exact h
    · exact h
    · exact h

lemma measured_run (deviceId : Arr 8) (ops : List Op) : Measured (sosBeacon.run (.new deviceId) ops) :=
  (Component.along_of_preserved (C := sosBeacon) (P := fun _ _ => True) (I := Measured)
    (fun o _ h _ => measured_next o h) (Nat.zero_le _) fun _ _ _ _ => trivial).2

/-- What an active beacon encodes is decoded as it was encoded, a packet that is accepted is what its message is
encoded to, those of a beacon have its version and a length that fits, and a burst of errors is found out. -/
theorem packets_codec :
    (∀ s : SosBeacon, s.active = true → ∃ packet, s.nextPacket.1 = some packet ∧ packet.length = sosPacketSize ∧
      fromBytes packet = .ok { s.nextMessage with checksum := crc16Ccitt s.nextMessage.fields }) ∧
    (∀ (data : List UInt8) (m : SosMessage), data.length = sosPacketSize → fromBytes data = .ok m →
      m.toBytes = data) ∧
    (∀ (deviceId : Arr 8) (ops : List Op) (packet : List UInt8),
      (sosBeacon.run (.new deviceId) ops).nextPacket.1 = some packet → ∃ m, fromBytes packet = .ok m ∧
        m.messageLen.toNat ≤ sosMessageMax ∧ m.version = sosProtocolVersion) ∧
    (∀ (m : SosMessage) (data : List UInt8) (i : ℕ), data.length = sosPacketSize → data ≠ m.toBytes →
      (∀ k, (bits data)[k]? ≠ (bits m.toBytes)[k]? → i ≤ k ∧ k < i + 16) → ∃ e, fromBytes data = .error e) := by
  refine ⟨fun s hactive => ?_, fun data m hlen h => toBytes_of_fromBytes hlen h, fun deviceId ops packet h => ?_,
    fun m data i hlen hne hburst => burst_rejected m hlen hne hburst⟩
  · exact ⟨_, nextPacket_of_active hactive, length_toBytes _, fromBytes_toBytes (magic_nextMessage s)⟩
  · have hpacket := nextPacket_of_active (active_of_nextPacket h)
    rw [h] at hpacket
    obtain rfl := Option.some.inj hpacket
    exact ⟨_, fromBytes_toBytes (magic_nextMessage _), measured_run deviceId ops, rfl⟩

/-- A packet of another version, with a length that no message has, is accepted. -/
theorem not_bounded_accepted : ¬ ∀ (data : List UInt8) (m : SosMessage), data.length = sosPacketSize →
    fromBytes data = .ok m → m.messageLen.toNat ≤ sosMessageMax ∧ m.version = sosProtocolVersion := by
  intro h
  let m : SosMessage := { (SosBeacon.new .zero).nextMessage with messageLen := 200, version := 2 }
  have hbound := h m.toBytes _ (length_toBytes m) (fromBytes_toBytes (magic_nextMessage (.new .zero)))
  exact absurd hbound.2 (by decide)

end ThistleOS.Sos
