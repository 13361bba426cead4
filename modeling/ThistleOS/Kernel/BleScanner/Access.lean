import ThistleOS.Kernel.BleScanner.Fields

/-!
# The advertising data, access by access

The loops of the parser with their positions, where an access to a buffer may be out of range. None is, and
what the parser reads are the complete structures at the start of the data.
-/

namespace ThistleOS.BleScan

/-! ### Accesses -/

/-- The bytes from `start` to `stop`, if they are in range. -/
def slice (raw : List UInt8) (start stop : ℕ) : Option (List UInt8) :=
  if start ≤ stop ∧ stop ≤ raw.length then some ((raw.take stop).drop start) else none

/-- Copy a slice over the first `len` bytes of an array, which must be as many as the slice has. -/
def copyTo {n : ℕ} (len : ℕ) (src : List UInt8) (a : Arr n) : Option (Arr n) :=
  if len ≤ n ∧ src.length = len then some (overwrite src a) else none

def writeAt {n : ℕ} (i : ℕ) (b : UInt8) (a : Arr n) : Option (Arr n) :=
  if i < n then some fun j => if j.val = i then b else a j else none

def pushService (uuid : Uuid) (services : List Uuid) : Option (List Uuid) :=
  if services.length < maxServices then some (services ++ [uuid]) else none

def uuid16At (raw : List UInt8) (k : ℕ) : Option Uuid := do
  let lo ← raw[k]?
  let hi ← raw[k + 1]?
  some #v[0xFB, 0x34, 0x9B, 0x5F, 0x80, 0x00, 0x00, 0x80, 0x00, 0x10, 0x00, 0x00, lo, hi, 0x00, 0x00]

def uuid128At (raw : List UInt8) (k : ℕ) : Option Uuid := do
  let bytes ← slice raw k (k + 16)
  if bytes.length = 16 then some (.ofFn fun i => bytes.getD i 0) else none

/-! ### The loops -/

def storeUuidsAt (last : ℕ) (uuidAt : ℕ → Option Uuid) (dataStart dataLen i : ℕ) (services : List Uuid) :
    Option (List Uuid) :=
  if i + last < dataLen ∧ services.length < maxServices then
    match uuidAt (dataStart + i) with
    | none => none
    | some uuid =>
      match pushService uuid services with
      | none => none
      | some services => storeUuidsAt last uuidAt dataStart dataLen (i + (last + 1)) services
  else some services
termination_by dataLen - i
decreasing_by omega

namespace BleDevice

def storeNameAt (raw : List UInt8) (adType : UInt8) (dataStart dataLen : ℕ) (device : BleDevice) :
    Option BleDevice := do
  let nameLen := min dataLen maxNameLen
  if adType == 0x09 || decide (device.nameLen < nameLen) then
    let src ← slice raw dataStart (dataStart + nameLen)
    let name ← copyTo nameLen src device.name
    let name ← if nameLen < maxNameLen then writeAt nameLen 0 name else some name
    some { device with name, nameLen }
  else some device

def storeMfgDataAt (raw : List UInt8) (dataStart dataLen : ℕ) (device : BleDevice) : Option BleDevice := do
  if 2 ≤ dataLen then
    let lo ← raw[dataStart]?
    let hi ← raw[dataStart + 1]?
    let mfgPayloadLen := min (dataLen - 2) maxAdvLen
    let mfgData ←
      if 0 < mfgPayloadLen then do
        let src ← slice raw (dataStart + 2) (dataStart + 2 + mfgPayloadLen)
        copyTo mfgPayloadLen src device.mfgData
      else some device.mfgData
    some { device with companyId := lo.toUInt16 ||| hi.toUInt16 <<< 8, mfgData, mfgLen := mfgPayloadLen }
  else if dataLen = 1 then
    let lo ← raw[dataStart]?
    some { device with companyId := lo.toUInt16 }
  else some device

def storeAt (raw : List UInt8) (adType : UInt8) (dataStart dataLen : ℕ) (device : BleDevice) :
    Option BleDevice :=
  if isUuid16 adType then do
    let services ← storeUuidsAt 1 (uuid16At raw) dataStart dataLen 0 device.services
    some { device with services }
  else if isUuid128 adType then do
    let services ← storeUuidsAt 15 (uuid128At raw) dataStart dataLen 0 device.services
    some { device with services }
  else if isName adType then device.storeNameAt raw adType dataStart dataLen
  else if adType == 0xFF then device.storeMfgDataAt raw dataStart dataLen
  else some device

end BleDevice

/-- The parser from a position on; there is no answer if an access is out of range. -/
def parseAdvDataAt (raw : List UInt8) (pos : ℕ) (device : BleDevice) : Option BleDevice :=
  if pos < raw.length then
    match raw[pos]? with
    | none => none
    | some fieldLen =>
      if fieldLen = 0 then parseAdvDataAt raw (pos + 1) device
      else if raw.length < pos + 1 + fieldLen.toNat then some device
      else
        match raw[pos + 1]? with
        | none => none
        | some adType =>
          match device.storeAt raw adType (pos + 2) (fieldLen.toNat - 1) with
          | none => none
          | some device => parseAdvDataAt raw (pos + 1 + fieldLen.toNat) device
  else some device
termination_by raw.length - pos
decreasing_by all_goals omega

/-! ### No access is out of range -/

section

variable {pre data post : List UInt8} {i n : ℕ}

lemma getElem?_middle (hi : i < data.length) : (pre ++ data ++ post)[pre.length + i]? = data[i]? := by
  rw [List.append_assoc, List.getElem?_append_right (Nat.le_add_right _ _), Nat.add_sub_cancel_left,
    List.getElem?_append_left hi]

lemma slice_middle (h : i + n ≤ data.length) :
    slice (pre ++ data ++ post) (pre.length + i) (pre.length + i + n) = some ((data.drop i).take n) := by
  have hle : pre.length + i + n ≤ (pre ++ data ++ post).length := by
    simp only [List.length_append]
    omega
  have hdrop : (pre ++ data ++ post).drop (pre.length + i) = data.drop i ++ post := by
    rw [List.append_assoc, ← List.drop_drop, List.drop_left, List.drop_append_of_le_length (by omega)]
  rw [slice, if_pos ⟨Nat.le_add_right _ _, hle⟩, List.drop_take, hdrop, Nat.add_sub_cancel_left,
    List.take_append_of_le_length (by rw [List.length_drop]; omega)]

lemma copyTo_eq {m : ℕ} {src : List UInt8} (hlen : src.length = n) (hn : n ≤ m) (a : Arr m) :
    copyTo n src a = some (overwrite src a) :=
  if_pos ⟨hn, hlen⟩

/-- What is written behind a slice that has been copied. -/
lemma writeAt_overwrite {m : ℕ} {src : List UInt8} (hlen : src.length = n) (hn : n < m) (b : UInt8) (a : Arr m) :
    writeAt n b (overwrite src a) = some (overwrite (src ++ [b]) a) := by
  rw [writeAt, if_pos hn]
  congr 1
  funext j
  subst hlen
  simp only [overwrite, List.getD_eq_getElem?_getD]
  split_ifs with hj
  · rw [hj, List.getElem?_concat_length, Option.getD_some]
  · rcases Nat.lt_or_gt_of_ne hj with hlt | hgt
    · rw [List.getElem?_append_left hlt]
    · rw [List.getElem?_eq_none (Nat.le_of_lt hgt), List.getElem?_eq_none (by simpa [Nat.succ_le_iff] using hgt)]

lemma uuid16At_middle (h : i + 1 < data.length) :
    uuid16At (pre ++ data ++ post) (pre.length + i) = some (uuid16 (data.drop i)) := by
  have hlo : i < data.length := by omega
  rw [uuid16At, Nat.add_assoc, getElem?_middle hlo, getElem?_middle h, List.getElem?_eq_getElem hlo,
    List.getElem?_eq_getElem h, uuid16, List.drop_eq_getElem_cons hlo, List.drop_eq_getElem_cons h]
  rfl

lemma uuid128At_middle (h : i + 15 < data.length) :
    uuid128At (pre ++ data ++ post) (pre.length + i) = some (uuid128 (data.drop i)) := by
  have hlength : ((data.drop i).take 16).length = 16 := by
    rw [List.length_take, List.length_drop]
    omega
  have hbytes : ∀ j : Fin 16, ((data.drop i).take 16).getD j 0 = (data.drop i).getD j 0 := by
    intro j
    rw [List.getD_eq_getElem?_getD, List.getD_eq_getElem?_getD, List.getElem?_take_of_lt j.isLt]
  rw [uuid128At, slice_middle (by omega), Option.bind_eq_bind, Option.bind_some, if_pos hlength, uuid128]
  simp only [hbytes]

lemma storeUuidsAt_eq {last start : ℕ} {uuidAt : ℕ → Option Uuid} {uuid : List UInt8 → Uuid}
    (h : ∀ i, i + last < data.length → uuidAt (start + i) = some (uuid (data.drop i))) (i : ℕ)
    (services : List Uuid) :
    storeUuidsAt last uuidAt start data.length i services = some (storeUuids last uuid (data.drop i) services) := by
  fun_induction storeUuidsAt last uuidAt start data.length i services with
  | case1 i services hmore hnone =>
    rw [h i hmore.1] at hnone
    cases hnone
  | case2 i services hmore found hfound hnone =>
    rw [pushService, if_pos hmore.2] at hnone
    cases hnone
  | case3 i services hmore found hfound services' hpush ih =>
    rw [h i hmore.1] at hfound
    obtain rfl := Option.some.inj hfound
    rw [pushService, if_pos hmore.2] at hpush
    obtain rfl := Option.some.inj hpush
    have hmore' : last < (data.drop i).length ∧ services.length < maxServices :=
      ⟨by rw [List.length_drop]; omega, hmore.2⟩
    rw [ih, storeUuids.eq_def last uuid (data.drop i), if_pos hmore', List.drop_drop]
  | case4 i services hmore =>
    have hmore' : ¬ (last < (data.drop i).length ∧ services.length < maxServices) := by
      rw [List.length_drop]
      exact fun hlt => hmore ⟨by omega, hlt.2⟩
    rw [storeUuids, if_neg hmore']

lemma slice_start (h : n ≤ data.length) :
    slice (pre ++ data ++ post) pre.length (pre.length + n) = some (data.take n) := by
  simpa using @slice_middle pre data post 0 n (by omega)

variable (device : BleDevice)

lemma storeNameAt_eq (adType : UInt8) :
    device.storeNameAt (pre ++ data ++ post) adType pre.length data.length =
      some (device.storeName adType data) := by
  have hmin : min data.length maxNameLen ≤ data.length := Nat.min_le_left _ _
  have hlength := List.length_take_of_le hmin
  rw [BleDevice.storeNameAt, BleDevice.storeName]
  dsimp only
  split_ifs with hlonger hroom
  · rw [slice_start hmin]
    simp only [Option.bind_eq_bind, Option.bind_some, copyTo_eq hlength (Nat.min_le_right _ _),
      writeAt_overwrite hlength hroom]
  · rw [slice_start hmin]
    simp only [Option.bind_eq_bind, Option.bind_some, copyTo_eq hlength (Nat.min_le_right _ _), List.append_nil]
  · rfl

lemma storeMfgDataAt_eq :
    device.storeMfgDataAt (pre ++ data ++ post) pre.length data.length = some (device.storeMfgData data) := by
  match data with
  | [] => rfl
  | [lo] =>
    simp [BleDevice.storeMfgDataAt, BleDevice.storeMfgData]
  | lo :: hi :: payload =>
    have hlo : (pre ++ (lo :: hi :: payload) ++ post)[pre.length]? = some lo :=
      @getElem?_middle pre (lo :: hi :: payload) post 0 (by simp)
    have hhi : (pre ++ (lo :: hi :: payload) ++ post)[pre.length + 1]? = some hi :=
      @getElem?_middle pre (lo :: hi :: payload) post 1 (by simp)
    have hmin : min payload.length maxAdvLen ≤ payload.length := Nat.min_le_left _ _
    have hslice : slice (pre ++ (lo :: hi :: payload) ++ post) (pre.length + 2)
        (pre.length + 2 + min payload.length maxAdvLen) = some (payload.take (min payload.length maxAdvLen)) :=
      slice_middle (by simp only [List.length_cons]; omega)
    have htwo : 2 ≤ (lo :: hi :: payload).length := by simp
    have hsub : (lo :: hi :: payload).length - 2 = payload.length := rfl
    rw [BleDevice.storeMfgDataAt, if_pos htwo, hlo, hhi, hsub, BleDevice.storeMfgData]
    simp only [Option.bind_eq_bind, Option.bind_some]
    split_ifs with hsome
    · rw [hslice, Option.bind_some, copyTo_eq (List.length_take_of_le hmin) (Nat.min_le_right _ _)]
      rfl
    · rw [Nat.eq_zero_of_not_pos hsome]
      rfl

/-- A field is stored without an access that is out of range. -/
lemma storeAt_eq (adType : UInt8) :
    device.storeAt (pre ++ data ++ post) adType pre.length data.length = some (device.store adType data) := by
  rw [BleDevice.storeAt, BleDevice.store]
  split_ifs
  · rw [storeUuidsAt_eq (fun i hi => uuid16At_middle hi)]
    rfl
  · rw [storeUuidsAt_eq (fun i hi => uuid128At_middle hi)]
    rfl
  · exact storeNameAt_eq device adType
  · exact storeMfgDataAt_eq device
  · rfl

end

/-- The parser makes of the rest of the data what is made of them alone. -/
lemma parseAdvDataAt_eq (pre raw : List UInt8) (device : BleDevice) :
    parseAdvDataAt (pre ++ raw) pre.length device = some (parseAdvData raw device) := by
  fun_induction parseAdvData raw device generalizing pre with
  | case1 device => rw [parseAdvDataAt, if_neg (by simp)]
  | case2 device rest ih =>
    have hnext := ih (pre ++ [0])
    rw [List.length_append, List.append_assoc] at hnext
    rw [parseAdvDataAt, if_pos (by simp), List.getElem?_append_right (Nat.le_refl _)]
    simpa using hnext
  | case3 device fieldLen rest hzero hshort =>
    rw [parseAdvDataAt, if_pos (by simp), List.getElem?_append_right (Nat.le_refl _), Nat.sub_self]
    have hlt : (pre ++ fieldLen :: rest).length < pre.length + 1 + fieldLen.toNat := by
      simp only [List.length_append, List.length_cons]
      omega
    simp only [List.getElem?_cons_zero, if_neg hzero, if_pos hlt]
  | case4 device fieldLen rest hzero hshort ih =>
    have hpos : 0 < fieldLen.toNat := Nat.pos_of_ne_zero fun h => hzero (UInt8.toNat_inj.mp h)
    obtain ⟨n, hn⟩ := Nat.exists_eq_add_of_le' hpos
    cases rest with
    | nil => simp only [List.length_nil] at hshort; omega
    | cons adType rest =>
      have hroom : n ≤ rest.length := by
        simp only [List.length_cons] at hshort
        omega
      have hlength : (rest.take n).length = n := List.length_take_of_le hroom
      have hstore := @storeAt_eq (pre ++ [fieldLen, adType]) (rest.take n) (rest.drop n) device adType
      have hnext := ih (pre ++ fieldLen :: adType :: rest.take n)
      have hraw : pre ++ [fieldLen, adType] ++ rest.take n ++ rest.drop n = pre ++ fieldLen :: adType :: rest := by
        simp
      have hraw' : pre ++ fieldLen :: adType :: rest.take n ++ rest.drop n = pre ++ fieldLen :: adType :: rest := by
        simp
      rw [hraw, hlength] at hstore
      rw [hn, List.drop_succ_cons, hraw', List.take_succ_cons, List.drop_one, List.tail_cons, List.getD_cons_zero]
        at hnext
      have hend : (pre ++ fieldLen :: adType :: rest.take n).length = pre.length + 1 + (n + 1) := by
        simp only [List.length_append, List.length_cons, hlength]
        omega
      have hstart : (pre ++ [fieldLen, adType]).length = pre.length + 2 := by simp
      have hfits : ¬ (pre ++ fieldLen :: adType :: rest).length < pre.length + 1 + (n + 1) := by
        simp only [List.length_append, List.length_cons]
        omega
      have htype : (pre ++ fieldLen :: adType :: rest)[pre.length + 1]? = some adType := by
        rw [List.getElem?_append_right (Nat.le_add_right _ _), Nat.add_sub_cancel_left]
        rfl
      rw [hend] at hnext
      rw [hstart] at hstore
      rw [parseAdvDataAt, if_pos (by simp), List.getElem?_append_right (Nat.le_refl _), Nat.sub_self]
      simp only [List.getElem?_cons_zero, if_neg hzero, hn, if_neg hfits, htype, Nat.add_sub_cancel, hstore, hnext,
        List.getD_cons_zero, List.take_succ_cons, List.drop_succ_cons, List.drop_zero]

/-! ### The structures -/

/-- A structure of the advertising data; its length, with its type, is one byte. -/
structure AdStructure where
  adType : UInt8
  data : List UInt8
  short : data.length ≤ 254

namespace AdStructure

def encode (s : AdStructure) : List UInt8 := UInt8.ofNat (s.data.length + 1) :: s.adType :: s.data

/-- What a structure means for a device: the UUIDs that there is room for, a complete name or a longer one, the
data of the manufacturer. -/
def meaning (s : AdStructure) (device : BleDevice) : BleDevice :=
  if isUuid16 s.adType || isUuid128 s.adType then
    { device with
      services := device.services ++ (uuidsIn (s.adType, s.data)).take (maxServices - device.services.length) }
  else if isName s.adType then device.storeName s.adType s.data
  else if s.adType == 0xFF then device.storeMfgData s.data
  else device

end AdStructure

/-- A structure, or a length of zero. -/
inductive Piece
  | zero
  | full (s : AdStructure)

def Piece.encode : Piece → List UInt8
  | zero => [0]
  | full s => s.encode

def Piece.meaning : Piece → BleDevice → BleDevice
  | zero, device => device
  | full s, device => s.meaning device

def encodeAll (pieces : List Piece) : List UInt8 := pieces.flatMap Piece.encode

lemma encodeAll_cons (piece : Piece) (pieces : List Piece) :
    encodeAll (piece :: pieces) = piece.encode ++ encodeAll pieces := List.flatMap_cons

/-- No structure is complete at the start. -/
def Truncated : List UInt8 → Prop
  | [] => True
  | fieldLen :: rest => fieldLen ≠ 0 ∧ rest.length < fieldLen.toNat

section

variable {pieces pieces' : List Piece} {rest rest' : List UInt8}

lemma storeUuids_room (last : ℕ) (uuid : List UInt8 → Uuid) (data : List UInt8) (services : List Uuid) :
    storeUuids last uuid data services =
      services ++ (uuidsOf last uuid data).take (maxServices - services.length) := by
  fun_induction storeUuids last uuid data services with
  | case1 data services hmore ih =>
    obtain ⟨room, hroom⟩ := Nat.exists_eq_add_of_lt hmore.2
    have hrest : maxServices - (services ++ [uuid data]).length = room := by
      rw [List.length_append, List.length_singleton]
      omega
    have hall : maxServices - services.length = room + 1 := by omega
    rw [ih, hrest, hall, uuidsOf.eq_def _ _ data, if_pos hmore.1, List.take_succ_cons, List.append_assoc,
      List.singleton_append]
  | case2 data services hmore =>
    rw [uuidsOf]
    split_ifs with hlast
    · have hfull : maxServices - services.length = 0 := by omega
      rw [hfull, List.take_zero, List.append_nil]
    · rw [List.take_nil, List.append_nil]

lemma meaning_eq_store (s : AdStructure) (device : BleDevice) : s.meaning device = device.store s.adType s.data := by
  rw [AdStructure.meaning, BleDevice.store, uuidsIn]
  cases h16 : isUuid16 s.adType with
  | true => simp only [Bool.true_or, if_true, storeUuids_room]
  | false =>
    cases h128 : isUuid128 s.adType with
    | true => simp only [Bool.or_true, Bool.false_eq_true, if_true, if_false, storeUuids_room]
    | false => simp only [Bool.or_false, Bool.false_eq_true, if_false]

lemma toNat_length (s : AdStructure) : (UInt8.ofNat (s.data.length + 1)).toNat = s.data.length + 1 :=
  UInt8.toNat_ofNat_of_lt' (by have := s.short; simp only [UInt8.size]; omega)

lemma length_ne_zero (s : AdStructure) : UInt8.ofNat (s.data.length + 1) ≠ 0 := by
  intro h
  have := toNat_length s
  rw [h] at this
  cases this

lemma parseAdvData_encode (s : AdStructure) (rest : List UInt8) (device : BleDevice) :
    parseAdvData (s.encode ++ rest) device = parseAdvData rest (s.meaning device) := by
  have hfits : ¬ (s.adType :: (s.data ++ rest)).length < (UInt8.ofNat (s.data.length + 1)).toNat := by
    rw [toNat_length, List.length_cons, List.length_append]
    omega
  rw [AdStructure.encode, List.cons_append, List.cons_append, parseAdvData, if_neg (length_ne_zero s), if_neg hfits,
    toNat_length, List.drop_succ_cons, List.drop_left, List.take_succ_cons, List.take_left, List.drop_one,
    List.tail_cons, List.getD_cons_zero, meaning_eq_store]

lemma parseAdvData_truncated (h : Truncated rest) (device : BleDevice) : parseAdvData rest device = device := by
  cases rest with
  | nil => rw [parseAdvData]
  | cons fieldLen rest => rw [parseAdvData, if_neg h.1, if_pos h.2]

lemma parseAdvData_encodeAll (pieces : List Piece) (rest : List UInt8) (device : BleDevice) :
    parseAdvData (encodeAll pieces ++ rest) device =
      parseAdvData rest (pieces.foldl (fun device piece => piece.meaning device) device) := by
  induction pieces generalizing device with
  | nil => rfl
  | cons piece pieces ih =>
    rw [encodeAll_cons, List.append_assoc, List.foldl_cons, ← ih]
    cases piece with
    | zero => exact (parseAdvData.eq_def (0 :: _) device).trans (if_pos rfl)
    | full s => exact parseAdvData_encode s _ device

/-- All data are complete structures with something truncated after them. -/
lemma exists_pieces (raw : List UInt8) : ∃ pieces rest, raw = encodeAll pieces ++ rest ∧ Truncated rest := by
  fun_induction fields raw with
  | case1 => exact ⟨[], [], rfl, trivial⟩
  | case2 rest ih =>
    obtain ⟨pieces, rest', hrest, htruncated⟩ := ih
    exact ⟨.zero :: pieces, rest', congrArg (0 :: ·) hrest, htruncated⟩
  | case3 fieldLen rest hzero hshort => exact ⟨[], fieldLen :: rest, rfl, hzero, hshort⟩
  | case4 fieldLen rest hzero hshort ih =>
    obtain ⟨pieces, rest', hrest, htruncated⟩ := ih
    have hpos : 0 < fieldLen.toNat := Nat.pos_of_ne_zero fun h => hzero (UInt8.toNat_inj.mp h)
    obtain ⟨n, hn⟩ := Nat.exists_eq_add_of_le' hpos
    cases rest with
    | nil => simp only [List.length_nil] at hshort; omega
    | cons adType rest =>
      have hlength : (rest.take n).length = n := by
        simp only [List.length_cons] at hshort
        exact List.length_take_of_le (by omega)
      have hshort' : (rest.take n).length ≤ 254 := by
        have := fieldLen.toNat_lt
        omega
      have hlen : UInt8.ofNat ((rest.take n).length + 1) = fieldLen := by
        rw [hlength, ← hn, UInt8.ofNat_toNat]
      refine ⟨.full ⟨adType, rest.take n, hshort'⟩ :: pieces, rest', ?_, htruncated⟩
      rw [hn, List.drop_succ_cons] at hrest
      rw [encodeAll_cons, List.append_assoc, ← hrest, Piece.encode, AdStructure.encode, hlen, List.cons_append,
        List.cons_append, List.take_append_drop]

/-- The structures at the start of data are determined, and those before something truncated are all. -/
lemma prefix_of_truncated (h : encodeAll pieces' ++ rest' = encodeAll pieces ++ rest) (hrest : Truncated rest) :
    pieces' <+: pieces := by
  induction pieces' generalizing pieces with
  | nil => exact List.nil_prefix
  | cons piece' pieces' ih =>
    rw [encodeAll_cons, List.append_assoc] at h
    cases pieces with
    | nil =>
      change piece'.encode ++ _ = rest at h
      subst h
      cases piece' with
      | zero => exact absurd rfl hrest.1
      | full s =>
        have hshort := hrest.2
        rw [toNat_length] at hshort
        simp only [List.append_eq, List.length_cons, List.length_append] at hshort
        omega
    | cons piece pieces =>
      rw [encodeAll_cons, List.append_assoc] at h
      cases piece' with
      | zero =>
        cases piece with
        | zero => exact List.cons_prefix_cons.mpr ⟨rfl, ih (List.cons.inj h).2⟩
        | full s => exact absurd (List.cons.inj h).1.symm (length_ne_zero s)
      | full s' =>
        cases piece with
        | zero => exact absurd (List.cons.inj h).1 (length_ne_zero s')
        | full s =>
          obtain ⟨hlen, h⟩ := List.cons.inj h
          obtain ⟨htype, h⟩ := List.cons.inj h
          have hlength : s'.data.length = s.data.length := by
            have := congrArg UInt8.toNat hlen
            rw [toNat_length, toNat_length] at this
            omega
          obtain ⟨hdata, h⟩ := List.append_inj h hlength
          have hs : s' = s := by
            cases s'
            cases s
            obtain rfl : _ = _ := htype
            obtain rfl : _ = _ := hdata
            rfl
          exact List.cons_prefix_cons.mpr ⟨congrArg _ hs, ih h⟩

end

/-- Without an access out of range, the parser does what the complete structures at the start of the data mean,
one after the other. What is behind them has no effect. -/
theorem parse_reads_structures (device : BleDevice) :
    (∀ raw, ∃ pieces rest, raw = encodeAll pieces ++ rest ∧
      (∀ pieces' rest', raw = encodeAll pieces' ++ rest' → pieces' <+: pieces) ∧
      parseAdvDataAt raw 0 device = some (pieces.foldl (fun device piece => piece.meaning device) device)) ∧
    (∀ pieces garbage, Truncated garbage →
      parseAdvDataAt (encodeAll pieces ++ garbage) 0 device = parseAdvDataAt (encodeAll pieces) 0 device) ∧
    ∀ pieces pieces', parseAdvDataAt (encodeAll pieces ++ encodeAll pieces') 0 device =
      (parseAdvDataAt (encodeAll pieces) 0 device).bind (parseAdvDataAt (encodeAll pieces') 0) := by
  have heq : ∀ raw device, parseAdvDataAt raw 0 device = some (parseAdvData raw device) := parseAdvDataAt_eq []
  have hall : ∀ pieces garbage device, Truncated garbage → parseAdvData (encodeAll pieces ++ garbage) device =
      pieces.foldl (fun device piece => piece.meaning device) device := by
    intro pieces garbage device hgarbage
    rw [parseAdvData_encodeAll, parseAdvData_truncated hgarbage]
  have hnil : ∀ pieces device, parseAdvData (encodeAll pieces) device =
      pieces.foldl (fun device piece => piece.meaning device) device := by
    intro pieces device
    have := hall pieces [] device trivial
    rwa [List.append_nil] at this
  refine ⟨fun raw => ?_, fun pieces garbage hgarbage => ?_, fun pieces pieces' => ?_⟩
  · obtain ⟨pieces, rest, hraw, hrest⟩ := exists_pieces raw
    refine ⟨pieces, rest, hraw, fun pieces' rest' hraw' => prefix_of_truncated (hraw'.symm.trans hraw) hrest, ?_⟩
    rw [heq, hraw, hall pieces rest device hrest]
  · rw [heq, heq, hall pieces garbage device hgarbage, hnil]
  · rw [heq, heq, Option.bind_some, heq, parseAdvData_encodeAll, ← hnil pieces device]

end ThistleOS.BleScan
