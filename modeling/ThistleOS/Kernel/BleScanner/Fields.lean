import ThistleOS.Kernel.BleScanner

/-!
# What a report says

The fields of the advertising data, apart from what is made of them: whatever the data are, the services of
the device are the first ones that they list, and the lengths fit the buffers.
-/

namespace ThistleOS.BleScan

/-- The fields with their types, up to one that is truncated. -/
def fields (raw : List UInt8) : List (UInt8 × List UInt8) :=
  match raw with
  | [] => []
  | fieldLen :: rest =>
    if fieldLen = 0 then fields rest
    else if rest.length < fieldLen.toNat then []
    else (rest.getD 0 0, (rest.take fieldLen.toNat).drop 1) :: fields (rest.drop fieldLen.toNat)
termination_by raw.length
decreasing_by all_goals simp only [List.length_drop, List.length_cons]; omega

lemma parseAdvData_eq (raw : List UInt8) (device : BleDevice) :
    parseAdvData raw device = (fields raw).foldl (fun device field => device.store field.1 field.2) device := by
  fun_induction parseAdvData raw device with
  | case1 device => rw [fields, List.foldl_nil]
  | case2 device rest ih => rw [fields, if_pos rfl, ih]
  | case3 device fieldLen rest hzero hshort => rw [fields, if_neg hzero, if_pos hshort, List.foldl_nil]
  | case4 device fieldLen rest hzero hshort ih =>
    rw [fields, if_neg hzero, if_neg hshort, List.foldl_cons, ih]

/-! ### Services -/

/-- The UUIDs that the data of a field list. -/
def uuidsOf (last : ℕ) (uuid : List UInt8 → Uuid) (data : List UInt8) : List Uuid :=
  if last < data.length then uuid data :: uuidsOf last uuid (data.drop (last + 1)) else []
termination_by data.length
decreasing_by simp only [List.length_drop]; omega

def uuidsIn (field : UInt8 × List UInt8) : List Uuid :=
  if isUuid16 field.1 then uuidsOf 1 uuid16 field.2
  else if isUuid128 field.1 then uuidsOf 15 uuid128 field.2
  else []

def uuids (raw : List UInt8) : List Uuid := (fields raw).flatMap uuidsIn

/-- The services of the device of a report. -/
def Report.listed (r : Report) : List Uuid :=
  if 0 < r.data.length ∧ r.data.length ≤ maxAdvLen then (uuids r.data).take maxServices else []

lemma storeUuids_eq (last : ℕ) (uuid : List UInt8 → Uuid) (data : List UInt8) (services : List Uuid)
    (h : services.length ≤ maxServices) :
    storeUuids last uuid data services = (services ++ uuidsOf last uuid data).take maxServices := by
  fun_induction storeUuids last uuid data services with
  | case1 data services hmore ih =>
    rw [ih (by rw [List.length_append, List.length_singleton]; exact hmore.2), uuidsOf.eq_def _ _ data,
      if_pos hmore.1, List.append_assoc, List.singleton_append]
  | case2 data services hmore =>
    rw [uuidsOf]
    split_ifs with hlast
    · rw [List.take_append_of_le_length (by omega), List.take_of_length_le h]
    · rw [List.append_nil, List.take_of_length_le h]

/-- The lengths fit the buffers. -/
structure Fits (dev : BleDevice) : Prop where
  services : dev.services.length ≤ maxServices
  name : dev.nameLen ≤ maxNameLen
  mfg : dev.mfgLen ≤ maxAdvLen

/-- What a field, or the fields of a report, make of a device. -/
structure Stored (services : List Uuid) (dev dev' : BleDevice) : Prop where
  fits : Fits dev'
  services : dev'.services = (dev.services ++ services).take maxServices
  addr : dev'.addr = dev.addr
  rssi : dev'.rssi = dev.rssi

section

variable {dev : BleDevice}

lemma stored_same (h : Fits dev) : Stored [] dev dev :=
  ⟨h, by rw [List.append_nil, List.take_of_length_le h.services], rfl, rfl⟩

lemma stored_store (h : Fits dev) (adType : UInt8) (data : List UInt8) :
    Stored (uuidsIn (adType, data)) dev (dev.store adType data) := by
  have hsame := stored_same h
  rw [BleDevice.store, uuidsIn]
  split_ifs with huuid16 huuid128 hname hmfg
  · have heq := storeUuids_eq 1 uuid16 data dev.services h.services
    exact ⟨⟨heq ▸ List.length_take_le _ _, h.name, h.mfg⟩, heq, rfl, rfl⟩
  · have heq := storeUuids_eq 15 uuid128 data dev.services h.services
    exact ⟨⟨heq ▸ List.length_take_le _ _, h.name, h.mfg⟩, heq, rfl, rfl⟩
  · rw [BleDevice.storeName]
    split_ifs
    · exact ⟨⟨h.services, Nat.min_le_right _ _, h.mfg⟩, hsame.services, rfl, rfl⟩
    · exact ⟨⟨h.services, Nat.min_le_right _ _, h.mfg⟩, hsame.services, rfl, rfl⟩
    · exact hsame
  · match data with
    | [] => exact hsame
    | [lo] => exact ⟨⟨h.services, h.name, h.mfg⟩, hsame.services, rfl, rfl⟩
    | lo :: hi :: payload =>
      exact ⟨⟨h.services, h.name, Nat.min_le_right _ _⟩, hsame.services, rfl, rfl⟩
  · exact hsame

lemma stored_fields (h : Fits dev) (fs : List (UInt8 × List UInt8)) :
    Stored (fs.flatMap uuidsIn) dev (fs.foldl (fun dev field => dev.store field.1 field.2) dev) := by
  induction fs generalizing dev with
  | nil => exact stored_same h
  | cons field fs ih =>
    have hfield := stored_store h field.1 field.2
    have hrest := ih hfield.fits
    refine ⟨hrest.fits, ?_, hrest.addr.trans hfield.addr, hrest.rssi.trans hfield.rssi⟩
    rw [List.foldl_cons, hrest.services, hfield.services, List.flatMap_cons, ← List.append_assoc]
    exact take_append_take _ _
where
  take_append_take (l l' : List Uuid) :
      (l.take maxServices ++ l').take maxServices = (l ++ l').take maxServices := by
    rw [List.take_append, List.take_append, List.take_take, Nat.min_self, List.length_take]
    congr 2
    omega

end

lemma stored_device (r : Report) :
    Fits r.device ∧ r.device.services = r.listed ∧ r.device.addr = r.addr ∧ r.device.rssi = r.rssi := by
  have hnew : Fits { BleDevice.new with
      addr := r.addr
      addrType := r.addrType
      rssi := r.rssi
      connectable := r.advType == 0 || r.advType == 1 } :=
    ⟨Nat.zero_le _, Nat.zero_le _, Nat.zero_le _⟩
  rw [Report.device, Report.listed]
  dsimp only
  split_ifs
  · rw [parseAdvData_eq]
    have hstored := stored_fields hnew (fields r.data)
    exact ⟨hstored.fits, hstored.services, hstored.addr, hstored.rssi⟩
  · exact ⟨hnew, rfl, rfl, rfl⟩

end ThistleOS.BleScan
