import ThistleOS.Kernel.ContactManager.Fields
import ThistleOS.Kernel.MsgQueue.Ids

/-!
# The file of the contacts

An address book that is written and read again has the same contacts, exactly if the texts of each
contact are plain, no text is the name of a later member that has something to say, and no contact
has the last id.
-/

namespace ThistleOS.Contacts

open MsgQueue

variable {c c' : Contact} {mgr : ContactManager}

namespace Contact

/-! ### The text of a contact -/

/-- The members of the text of a contact. -/
def members (c : Contact) : List (Text × Value) :=
  [("id".toList, .raw (decimal c.id.toNat)), ("name".toList, .text (jsonEscape c.name)),
    ("callsign".toList, .text (jsonEscape c.callsign)),
    ("device_id".toList, .raw (decimal c.deviceId.toNat)),
    ("phone".toList, .text (jsonEscape c.phone)),
    ("ble_addr".toList, .text (jsonEscape c.bleAddr)),
    ("public_key".toList, .text (jsonEscape (base64Encode c.publicKey.bytes))),
    ("notes".toList, .text (jsonEscape c.notes)),
    ("is_emergency".toList, .raw (boolText c.isEmergency)),
    ("created_at".toList, .raw (decimal c.createdAt.toNat)),
    ("updated_at".toList, .raw (decimal c.updatedAt.toNat))]

lemma toJson_eq (c : Contact) : c.toJson = '{' :: (writeMembers c.members).tail := by
  unfold toJson
  simp only [members, writeMembers, Value.write, jsonEscape_base64Encode, List.tail_cons, String.reduceToList, List.cons_append,
    List.append_assoc, List.nil_append]

lemma findAfter_toJson (key : Text) (c : Contact) :
    findAfter (quoted key) c.toJson = findAfter (quoted key) (writeMembers c.members) := by
  have hbrace : findAfter (quoted key) (['{'] ++ (writeMembers c.members).tail) =
      findAfter (quoted key) (writeMembers c.members).tail := findAfter_skip (by decide) _
  have hcomma : findAfter (quoted key) ([','] ++ (writeMembers c.members).tail) =
      findAfter (quoted key) (writeMembers c.members).tail := findAfter_skip (by decide) _
  rw [toJson_eq]
  exact hbrace.trans hcomma.symm

lemma balanced_decimal (n : Nat) : Balanced (decimal n) := by
  refine balanced_raw (List.all_eq_true.mpr fun c hc => ?_)
  obtain ⟨hquote, hopen, hclose, -⟩ := plain_ne (List.all_eq_true.mp (all_plain_decimal n) c hc)
  simp [hquote, hopen, hclose]

lemma balanced_value {m : Text × Value} (hm : m ∈ c.members) : Balanced m.2.write := by
  have hbool : Balanced (boolText c.isEmergency) := by
    cases c.isEmergency with
    | false => exact balanced_raw (by decide)
    | true => exact balanced_raw (by decide)
  simp only [members, List.mem_cons, List.not_mem_nil, or_false] at hm
  rcases hm with rfl | rfl | rfl | rfl | rfl | rfl | rfl | rfl | rfl | rfl | rfl
  · exact balanced_decimal _
  · exact balanced_text _
  · exact balanced_text _
  · exact balanced_decimal _
  · exact balanced_text _
  · exact balanced_text _
  · exact balanced_text _
  · exact balanced_text _
  · exact hbool
  · exact balanced_decimal _
  · exact balanced_decimal _

/-- The names of the members. -/
def names : List Text :=
  ["id".toList, "name".toList, "callsign".toList, "device_id".toList, "phone".toList,
    "ble_addr".toList, "public_key".toList, "notes".toList, "is_emergency".toList,
    "created_at".toList, "updated_at".toList]

lemma name_mem {m : Text × Value} (hm : m ∈ c.members) : m.1 ∈ names :=
  List.mem_map_of_mem (f := Prod.fst) hm

lemma isKey_of_mem {key : Text} (h : key ∈ names) : IsKey key := by
  have hall : names.all (fun key => !key.contains '"' && !key.contains ':' && !key.contains ',') =
      true := by decide
  have hkey := List.all_eq_true.mp hall key h
  simp only [Bool.and_eq_true, Bool.not_eq_true', List.contains_eq_mem, decide_eq_false_iff_not] at hkey
  exact ⟨hkey.1.1, hkey.1.2, hkey.2⟩

lemma balanced_member {key : Text} (hkey : key ∈ names) {v : Value} (hv : Balanced v.write) {t : Text}
    (ht : Balanced t) : Balanced ('"' :: (key ++ '"' :: ':' :: (v.write ++ t))) := by
  have hplain : names.all (fun key => key.all (!isEscaped ·)) = true := by decide
  have hname := balanced_text key
  rw [Plain.escape_eq (List.all_eq_true.mp hplain key hkey)] at hname
  have hcolon : Balanced [':'] := balanced_raw (by decide)
  have hmember := (hname.append hcolon).append (hv.append ht)
  simpa using hmember

/-- Members with balanced values are balanced up to the brace. -/
lemma balanced_members {ms : List (Text × Value)}
    (hms : ∀ m ∈ ms, m.1 ∈ names ∧ Balanced m.2.write) :
    ∃ t, writeMembers ms = t ++ ['}'] ∧ Balanced t := by
  induction ms with
  | nil => exact ⟨[], rfl, fun _ _ _ _ => rfl⟩
  | cons m ms ih =>
    obtain ⟨t, ht, hbalanced⟩ := ih fun m' hm' => hms m' (List.mem_cons_of_mem m hm')
    obtain ⟨hname, hvalue⟩ := hms m List.mem_cons_self
    have hcomma : Balanced [','] := balanced_raw (by decide)
    refine ⟨_, ?_, hcomma.append (balanced_member hname hvalue hbalanced)⟩
    simp [writeMembers, ht]

lemma isObject_toJson (c : Contact) : IsObject c.toJson := by
  have hms : ∀ m ∈ c.members, m.1 ∈ names ∧ Balanced m.2.write := fun m hm =>
    ⟨name_mem hm, balanced_value hm⟩
  obtain ⟨t, ht, hbalanced⟩ := balanced_members fun m hm => hms m (List.mem_of_mem_tail hm)
  obtain ⟨hname, hvalue⟩ := hms _ List.mem_cons_self
  have hobject := (balanced_member hname hvalue hbalanced).isObject
  have htext : c.toJson = '{' :: ('"' :: ("id".toList ++ '"' :: ':' ::
      (Value.write (.raw (decimal c.id.toNat)) ++ t)) ++ ['}']) := by
    have htail : writeMembers c.members = ',' :: '"' :: ("id".toList ++ '"' :: ':' ::
        (Value.write (.raw (decimal c.id.toNat)) ++ writeMembers c.members.tail)) := rfl
    rw [toJson_eq, htail, ht]
    simp
  rw [htext]
  exact hobject

/-! ### Reading a contact -/

/-- The texts of a contact, as they come in its members. -/
def texts (c : Contact) : List Text :=
  [c.name, c.callsign, c.phone, c.bleAddr, base64Encode c.publicKey.bytes, c.notes]

end Contact

/-- The texts of the members, as they stand between their quotes. -/
def textsOf : List (Text × Value) → List Text
  | [] => []
  | (_, .text s) :: ms => s :: textsOf ms
  | (_, .raw _) :: ms => textsOf ms

lemma mem_textsOf {s : Text} {ms : List (Text × Value)} :
    s ∈ textsOf ms ↔ ∃ m ∈ ms, m.2 = .text s := by
  induction ms with
  | nil => simp [textsOf]
  | cons m ms ih =>
    obtain ⟨k, v⟩ := m
    cases v with
    | text s' =>
      rw [textsOf, List.mem_cons, ih, List.exists_mem_cons_iff, Value.text.injEq, eq_comm]
    | raw s' =>
      rw [textsOf, ih, List.exists_mem_cons_iff]
      simp

namespace Contact

lemma raw_quoteless {m : Text × Value} (hm : m ∈ c.members) {s : Text} (hs : m.2 = .raw s) :
    '"' ∉ s := by
  have hdecimal (n : Nat) : '"' ∉ decimal n := fun hquote =>
    (plain_ne (List.all_eq_true.mp (all_plain_decimal n) _ hquote)).1 rfl
  have hbool : '"' ∉ boolText c.isEmergency := by
    cases c.isEmergency with
    | false => decide
    | true => decide
  simp only [members, List.mem_cons, List.not_mem_nil, or_false] at hm
  rcases hm with rfl | rfl | rfl | rfl | rfl | rfl | rfl | rfl | rfl | rfl | rfl <;> cases hs
  · exact hdecimal _
  · exact hdecimal _
  · exact hbool
  · exact hdecimal _
  · exact hdecimal _

/-- A member can be told apart from those before it, if their texts are plain. -/
theorem at_member {i j : Nat} {key : Text} {v : Value} (hi : c.members[i]? = some (key, v))
    (hnew : key ∉ names.take i)
    (htexts : textsOf (c.members.take i) = (c.texts.take j).map jsonEscape)
    (hplain : ∀ s ∈ c.texts.take j, Plain s) :
    At c.toJson key (c.members.take i) v ∧
      (Hidden key (c.members.take i) ↔ key ∈ c.texts.take j) := by
  have hmap : (c.texts.take j).map jsonEscape = c.texts.take j := by
    conv_rhs => rw [← List.map_id (c.texts.take j)]
    exact List.map_congr_left fun s hs => (hplain s hs).escape_eq
  rw [hmap] at htexts
  obtain ⟨hlt, hget⟩ := List.getElem?_eq_some_iff.mp hi
  refine ⟨⟨isKey_of_mem (name_mem (List.mem_of_getElem hget)), ?_, ?_⟩, ?_⟩
  · intro m hm
    have hmem := List.mem_of_mem_take hm
    refine ⟨?_, (isKey_of_mem (name_mem hmem)).quote, ?_⟩
    · rintro rfl
      have htake := List.mem_map_of_mem (f := Prod.fst) hm
      rw [List.map_take] at htake
      exact hnew htake
    · cases hvalue : m.2 with
      | text s =>
        have hs : s ∈ textsOf (c.members.take i) := mem_textsOf.mpr ⟨m, hm, hvalue⟩
        rw [htexts] at hs
        exact fun hquote => ((hplain s hs).ne hquote).1 rfl
      | raw s => exact raw_quoteless hmem hvalue
  · refine ⟨c.members.drop (i + 1), ?_⟩
    rw [findAfter_toJson, ← hget, ← List.drop_eq_getElem_cons hlt, List.take_append_drop]
  · rw [← htexts, mem_textsOf]
    rfl

/-- A contact whose texts are plain, and whose members have nothing to say where an earlier text is
their name. -/
structure Faithful (c : Contact) : Prop where
  named : c.name ≠ []
  name : Plain c.name
  callsign : Plain c.callsign ∧ ("callsign".toList ∈ [c.name] → c.callsign = [])
  deviceId : "device_id".toList ∈ [c.name, c.callsign] → c.deviceId = 0
  phone : Plain c.phone ∧ ("phone".toList ∈ [c.name, c.callsign] → c.phone = [])
  bleAddr : Plain c.bleAddr ∧ ("ble_addr".toList ∈ [c.name, c.callsign, c.phone] → c.bleAddr = [])
  publicKey : "public_key".toList ∈ [c.name, c.callsign, c.phone, c.bleAddr] → c.publicKey = .zero
  notes : Plain c.notes ∧ ("notes".toList ∈ [c.name, c.callsign, c.phone, c.bleAddr] → c.notes = [])
  isEmergency : "is_emergency".toList ∈ [c.name, c.callsign, c.phone, c.bleAddr, c.notes] →
    c.isEmergency = false
  createdAt : "created_at".toList ∈ [c.name, c.callsign, c.phone, c.bleAddr, c.notes] →
    c.createdAt = 0
  updatedAt : "updated_at".toList ∈ [c.name, c.callsign, c.phone, c.bleAddr, c.notes] →
    c.updatedAt = 0

lemma fromJson_eq_some {json : Text} : fromJson json = some c ↔
    (∃ id, jsonGetInt json "id".toList = some id ∧ asU32 id = c.id) ∧
    jsonGetString json "name".toList = some c.name ∧ c.name ≠ [] ∧
    (jsonGetString json "callsign".toList).getD [] = c.callsign ∧
    asU32 ((jsonGetInt json "device_id".toList).getD 0) = c.deviceId ∧
    (jsonGetString json "phone".toList).getD [] = c.phone ∧
    (jsonGetString json "ble_addr".toList).getD [] = c.bleAddr ∧
    keyOf (jsonGetString json "public_key".toList) = c.publicKey ∧
    (jsonGetString json "notes".toList).getD [] = c.notes ∧
    (jsonGetBool json "is_emergency".toList).getD false = c.isEmergency ∧
    asU32 ((jsonGetInt json "created_at".toList).getD 0) = c.createdAt ∧
    asU32 ((jsonGetInt json "updated_at".toList).getD 0) = c.updatedAt := by
  unfold fromJson
  cases hid : jsonGetInt json "id".toList with
  | none => simp only [Option.bind_eq_bind, Option.bind_none, reduceCtorEq, false_and, exists_false]
  | some id =>
    cases hname : jsonGetString json "name".toList with
    | none => simp only [Option.bind_eq_bind, Option.bind_some, Option.bind_none, reduceCtorEq,
        false_and, and_false]
    | some name =>
      simp only [Option.bind_eq_bind, Option.bind_some]
      by_cases hnil : name = []
      · rw [if_pos hnil]
        refine iff_of_false (by simp) fun h => ?_
        exact h.2.2.1 ((Option.some.inj h.2.1).symm.trans hnil)
      · rw [if_neg hnil]
        generalize (jsonGetString json "callsign".toList).getD [] = callsign
        generalize asU32 ((jsonGetInt json "device_id".toList).getD 0) = deviceId
        generalize (jsonGetString json "phone".toList).getD [] = phone
        generalize (jsonGetString json "ble_addr".toList).getD [] = bleAddr
        generalize keyOf (jsonGetString json "public_key".toList) = publicKey
        generalize (jsonGetString json "notes".toList).getD [] = notes
        generalize (jsonGetBool json "is_emergency".toList).getD false = isEmergency
        generalize asU32 ((jsonGetInt json "created_at".toList).getD 0) = createdAt
        generalize asU32 ((jsonGetInt json "updated_at".toList).getD 0) = updatedAt
        constructor
        · rintro heq
          obtain rfl := Option.some.inj heq
          exact ⟨⟨id, rfl, rfl⟩, rfl, hnil, rfl, rfl, rfl, rfl, rfl, rfl, rfl, rfl, rfl⟩
        · rintro ⟨⟨id', hid', hasU32⟩, hname', -, rfl, rfl, rfl, rfl, rfl, rfl, rfl, rfl, rfl⟩
          obtain rfl := Option.some.inj hid'
          rw [hasU32, Option.some.inj hname']

lemma getInt_id (c : Contact) : jsonGetInt c.toJson "id".toList = some (c.id.toNat : Int) := by
  obtain ⟨hat, hhidden⟩ := at_member (c := c) (i := 0) (j := 0) rfl (by decide) rfl (by simp)
  exact getInt_of_u32 hat fun hh => List.not_mem_nil (hhidden.mp hh)

lemma getString_name (c : Contact) :
    jsonGetString c.toJson "name".toList = some c.name ↔ Plain c.name := by
  obtain ⟨hat, hhidden⟩ := at_member (c := c) (i := 1) (j := 0) rfl (by decide) rfl (by simp)
  obtain ⟨t, hread⟩ := getString_shown hat fun hh => List.not_mem_nil (hhidden.mp hh)
  rw [hread]
  exact untilQuote_eq_some c.name t

/-! ### The members that may be missing -/

lemma plain_succ {j : Nat} (h : ∀ s ∈ c.texts.take j, Plain s) {t : Text} (ht : c.texts[j]? = some t)
    (hplain : Plain t) : ∀ s ∈ c.texts.take (j + 1), Plain s := by
  rw [List.take_add_one, ht]
  intro s hs
  rcases List.mem_append.mp hs with hs | hs
  · exact h s hs
  · obtain rfl := Option.some.inj (Option.mem_toList.mp hs)
    exact hplain

lemma plain_base64Encode (data : List UInt8) : Plain (base64Encode data) := by
  refine List.all_eq_true.mpr fun c hc => ?_
  have hbase := isBase64_of_mem hc
  simp only [isEscaped, Bool.not_eq_true', Bool.or_eq_false_iff, beq_eq_false_iff_ne]
  refine ⟨⟨⟨⟨?_, ?_⟩, ?_⟩, ?_⟩, ?_⟩
  all_goals
    rintro rfl
    exact absurd hbase (by decide)

/-- The text of the key of a contact is not the name of a member. -/
lemma mem_texts_five {key : Text} (h : base64Encode c.publicKey.bytes ≠ key) :
    key ∈ c.texts.take 5 ↔ key ∈ c.texts.take 4 := by
  simp only [texts, List.take_succ_cons, List.take_zero, List.mem_cons, List.not_mem_nil, or_false,
    h.symm]

lemma mem_texts_six {key : Text} (h : base64Encode c.publicKey.bytes ≠ key) :
    key ∈ c.texts.take 6 ↔ key ∈ [c.name, c.callsign, c.phone, c.bleAddr, c.notes] := by
  simp only [texts, List.take_succ_cons, List.take_zero, List.mem_cons, List.not_mem_nil, or_false,
    h.symm, false_or]

lemma base64Encode_ne_emergency (data : List UInt8) : base64Encode data ≠ "is_emergency".toList := by
  intro heq
  have hmem : '_' ∈ base64Encode data := by
    rw [heq]
    decide
  exact absurd (isBase64_of_mem hmem) (by decide)

lemma callsign_kept (h : ∀ s ∈ c.texts.take 1, Plain s) :
    (jsonGetString c.toJson "callsign".toList).getD [] = c.callsign ↔
      Plain c.callsign ∧ ("callsign".toList ∈ c.texts.take 1 → c.callsign = []) := by
  obtain ⟨hat, hhidden⟩ := at_member (i := 2) rfl (by decide) rfl h
  rw [text_kept hat, hhidden]

lemma deviceId_kept (h : ∀ s ∈ c.texts.take 2, Plain s) :
    asU32 ((jsonGetInt c.toJson "device_id".toList).getD 0) = c.deviceId ↔
      ("device_id".toList ∈ c.texts.take 2 → c.deviceId = 0) := by
  obtain ⟨hat, hhidden⟩ := at_member (i := 3) rfl (by decide) rfl h
  rw [int_kept hat, hhidden]

lemma phone_kept (h : ∀ s ∈ c.texts.take 2, Plain s) :
    (jsonGetString c.toJson "phone".toList).getD [] = c.phone ↔
      Plain c.phone ∧ ("phone".toList ∈ c.texts.take 2 → c.phone = []) := by
  obtain ⟨hat, hhidden⟩ := at_member (i := 4) rfl (by decide) rfl h
  rw [text_kept hat, hhidden]

lemma bleAddr_kept (h : ∀ s ∈ c.texts.take 3, Plain s) :
    (jsonGetString c.toJson "ble_addr".toList).getD [] = c.bleAddr ↔
      Plain c.bleAddr ∧ ("ble_addr".toList ∈ c.texts.take 3 → c.bleAddr = []) := by
  obtain ⟨hat, hhidden⟩ := at_member (i := 5) rfl (by decide) rfl h
  rw [text_kept hat, hhidden]

lemma publicKey_kept (h : ∀ s ∈ c.texts.take 4, Plain s) :
    keyOf (jsonGetString c.toJson "public_key".toList) = c.publicKey ↔
      ("public_key".toList ∈ c.texts.take 4 → c.publicKey = .zero) := by
  obtain ⟨hat, hhidden⟩ := at_member (i := 6) rfl (by decide) rfl h
  rw [jsonEscape_base64Encode] at hat
  rw [key_kept hat, hhidden]

lemma notes_kept (h : ∀ s ∈ c.texts.take 5, Plain s) :
    (jsonGetString c.toJson "notes".toList).getD [] = c.notes ↔
      Plain c.notes ∧ ("notes".toList ∈ c.texts.take 4 → c.notes = []) := by
  obtain ⟨hat, hhidden⟩ := at_member (i := 7) rfl (by decide) rfl h
  rw [text_kept hat, hhidden, mem_texts_five (base64Encode_ne (by decide))]

lemma isEmergency_kept (h : ∀ s ∈ c.texts.take 6, Plain s) :
    (jsonGetBool c.toJson "is_emergency".toList).getD false = c.isEmergency ↔
      ("is_emergency".toList ∈ [c.name, c.callsign, c.phone, c.bleAddr, c.notes] →
        c.isEmergency = false) := by
  obtain ⟨hat, hhidden⟩ := at_member (i := 8) rfl (by decide) rfl h
  rw [bool_kept hat, hhidden, mem_texts_six (base64Encode_ne_emergency _)]

lemma createdAt_kept (h : ∀ s ∈ c.texts.take 6, Plain s) :
    asU32 ((jsonGetInt c.toJson "created_at".toList).getD 0) = c.createdAt ↔
      ("created_at".toList ∈ [c.name, c.callsign, c.phone, c.bleAddr, c.notes] →
        c.createdAt = 0) := by
  obtain ⟨hat, hhidden⟩ := at_member (i := 9) rfl (by decide) rfl h
  rw [int_kept hat, hhidden, mem_texts_six (base64Encode_ne (by decide))]

lemma updatedAt_kept (h : ∀ s ∈ c.texts.take 6, Plain s) :
    asU32 ((jsonGetInt c.toJson "updated_at".toList).getD 0) = c.updatedAt ↔
      ("updated_at".toList ∈ [c.name, c.callsign, c.phone, c.bleAddr, c.notes] →
        c.updatedAt = 0) := by
  obtain ⟨hat, hhidden⟩ := at_member (i := 10) rfl (by decide) rfl h
  rw [int_kept hat, hhidden, mem_texts_six (base64Encode_ne (by decide))]

/-- A contact is read back exactly if it is faithful. -/
theorem fromJson_toJson (c : Contact) : fromJson c.toJson = some c ↔ Faithful c := by
  rw [fromJson_eq_some, getInt_id, getString_name]
  have hkey : Plain (base64Encode c.publicKey.bytes) := plain_base64Encode _
  have hnone : ∀ s ∈ c.texts.take 0, Plain s := by simp
  constructor
  · rintro ⟨-, hname, hnamed, hcallsign, hdevice, hphone, hble, hpublic, hnotes, hemergency, hcreated,
      hupdated⟩
    have hone := plain_succ hnone rfl hname
    have hcallsign := (callsign_kept hone).mp hcallsign
    have htwo := plain_succ hone rfl hcallsign.1
    have hphone := (phone_kept htwo).mp hphone
    have hthree := plain_succ htwo rfl hphone.1
    have hble := (bleAddr_kept hthree).mp hble
    have hfour := plain_succ hthree rfl hble.1
    have hfive := plain_succ hfour rfl hkey
    have hnotes := (notes_kept hfive).mp hnotes
    have hsix := plain_succ hfive rfl hnotes.1
    exact {
      named := hnamed
      name := hname
      callsign := hcallsign
      deviceId := (deviceId_kept htwo).mp hdevice
      phone := hphone
      bleAddr := hble
      publicKey := (publicKey_kept hfour).mp hpublic
      notes := hnotes
      isEmergency := (isEmergency_kept hsix).mp hemergency
      createdAt := (createdAt_kept hsix).mp hcreated
      updatedAt := (updatedAt_kept hsix).mp hupdated }
  · intro h
    have hone := plain_succ hnone rfl h.name
    have htwo := plain_succ hone rfl h.callsign.1
    have hthree := plain_succ htwo rfl h.phone.1
    have hfour := plain_succ hthree rfl h.bleAddr.1
    have hfive := plain_succ hfour rfl hkey
    have hsix := plain_succ hfive rfl h.notes.1
    exact ⟨⟨_, rfl, asU32_toNat c.id⟩, h.name, h.named, (callsign_kept hone).mpr h.callsign,
      (deviceId_kept htwo).mpr h.deviceId, (phone_kept htwo).mpr h.phone,
      (bleAddr_kept hthree).mpr h.bleAddr, (publicKey_kept hfour).mpr h.publicKey,
      (notes_kept hfive).mpr h.notes, (isEmergency_kept hsix).mpr h.isEmergency,
      (createdAt_kept hsix).mpr h.createdAt, (updatedAt_kept hsix).mpr h.updatedAt⟩

/-- What is read back has the id of what was written. -/
lemma id_of_fromJson (h : fromJson c.toJson = some c') : c'.id = c.id := by
  obtain ⟨⟨id, hid, hasU32⟩, -⟩ := fromJson_eq_some.mp h
  rw [getInt_id] at hid
  rw [← hasU32, ← Option.some.inj hid, asU32_toNat]

end Contact

namespace ContactManager

/-! ### Loading -/

lemma contacts_load (cs : List Contact) (mgr : ContactManager) :
    (cs.foldl loadContact mgr).contacts = mgr.contacts ++ cs := by
  induction cs generalizing mgr with
  | nil => exact (List.append_nil _).symm
  | cons c cs ih => rw [List.foldl_cons, ih, loadContact, List.append_assoc, List.singleton_append]

lemma nextId_loadContact (mgr : ContactManager) (hc : c.id ≠ idMax) :
    mgr.nextId.toNat ≤ (loadContact mgr c).nextId.toNat ∧
      c.id.toNat < (loadContact mgr c).nextId.toNat := by
  have hsucc := toNat_succ hc
  rw [loadContact]
  simp only
  split_ifs with h
  · rw [UInt32.le_iff_toNat_le] at h
    omega
  · rw [UInt32.le_iff_toNat_le] at h
    omega

lemma nextId_load {cs : List Contact} (hcs : ∀ c ∈ cs, c.id ≠ idMax) (mgr : ContactManager) :
    mgr.nextId.toNat ≤ (cs.foldl loadContact mgr).nextId.toNat ∧
      ∀ c ∈ cs, c.id.toNat < (cs.foldl loadContact mgr).nextId.toNat := by
  induction cs generalizing mgr with
  | nil => exact ⟨le_rfl, fun _ h => absurd h List.not_mem_nil⟩
  | cons c cs ih =>
    obtain ⟨hle, hlt⟩ := nextId_loadContact mgr (hcs c List.mem_cons_self)
    obtain ⟨hle', hlt'⟩ :=
      ih (fun c' hc' => hcs c' (List.mem_cons_of_mem _ hc')) (loadContact mgr c)
    rw [List.foldl_cons]
    refine ⟨hle.trans hle', fun c' hc' => ?_⟩
    rcases List.mem_cons.mp hc' with rfl | hc'
    · exact hlt.trans_le hle'
    · exact hlt' c' hc'

lemma toFile_eq (mgr : ContactManager) :
    mgr.toFile = '[' :: ('\n' :: (objectLines (mgr.contacts.map Contact.toJson) ++ ['\n']) ++ [']']) := by
  rw [toFile, objectLines, List.map_map]
  simp [Function.comp_def]

/-- What is read of the file. -/
theorem parsed_toFile (mgr : ContactManager) :
    parsed mgr.toFile = mgr.contacts.filterMap fun c => Contact.fromJson c.toJson := by
  have hobjects : ∀ t ∈ mgr.contacts.map Contact.toJson, IsObject t := by
    intro t ht
    obtain ⟨c, -, rfl⟩ := List.mem_map.mp ht
    exact c.isObject_toJson
  rw [parsed, toFile_eq, jsonSplitArray_objectLines hobjects, List.filterMap_map]
  rfl

/-! ### Round trip -/

/-- The manager of the next run, which reads the file that this one has written. -/
def cycle (mgr : ContactManager) : ContactManager := init (mgr.saveToDisk true).2.1 .new

/-- What is written is read back into an empty manager, the counter of its ids is past all of them,
and no number of such cycles changes the contacts. -/
structure Restored (mgr : ContactManager) : Prop where
  contacts : mgr.cycle.contacts = mgr.contacts
  below : ∀ c ∈ mgr.cycle.contacts, c.id.toNat < mgr.cycle.nextId.toNat
  cycles : ∀ n, (cycle^[n] mgr).contacts = mgr.contacts

lemma cycle_contacts (h : mgr.initialized = true) :
    mgr.cycle.contacts = mgr.contacts.filterMap fun c => Contact.fromJson c.toJson := by
  have hsave : (mgr.saveToDisk true).2.1 = some mgr.toFile := by
    rw [saveToDisk, h]
    rfl
  rw [cycle, hsave, ← parsed_toFile]
  exact contacts_load (parsed mgr.toFile) .new

lemma cycle_nextId (h : mgr.initialized = true) :
    mgr.cycle.nextId = (mgr.cycle.contacts.foldl loadContact .new).nextId := by
  have hsave : (mgr.saveToDisk true).2.1 = some mgr.toFile := by
    rw [saveToDisk, h]
    rfl
  rw [cycle_contacts h, cycle, hsave, ← parsed_toFile]
  rfl

lemma cycle_initialized (mgr : ContactManager) : mgr.cycle.initialized = true := by
  rw [cycle, init]
  rfl

lemma filterMap_eq_self {α : Type} {f : α → Option α} {l : List α} :
    l.filterMap f = l ↔ ∀ a ∈ l, f a = some a := by
  constructor
  · intro h
    induction l with
    | nil => simp
    | cons a l ih =>
      cases hf : f a with
      | none =>
        rw [List.filterMap_cons_none hf] at h
        have hlength := List.length_filterMap_le f l
        rw [h, List.length_cons] at hlength
        omega
      | some b =>
        rw [List.filterMap_cons_some hf] at h
        obtain ⟨rfl, hrest⟩ := List.cons.inj h
        intro a' ha'
        rcases List.mem_cons.mp ha' with rfl | ha'
        · exact hf
        · exact ih hrest a' ha'
  · intro h
    conv_rhs => rw [← List.filterMap_some (l := l)]
    exact List.filterMap_congr h

lemma below_iff (cs : List Contact) :
    (∀ c ∈ cs, c.id.toNat < (cs.foldl loadContact .new).nextId.toNat) ↔ ∀ c ∈ cs, c.id ≠ idMax := by
  constructor
  · intro h c hc hid
    have hlt := h c hc
    rw [hid] at hlt
    have hnext := (cs.foldl loadContact .new).nextId.toNat_lt
    have hmax : idMax.toNat = 2 ^ 32 - 1 := rfl
    omega
  · intro h
    exact (nextId_load h .new).2

/-- An address book is written and read back exactly if each contact is faithful and none has the last
id. -/
theorem book_restored_iff (mgr : ContactManager) :
    ((mgr.saveToDisk true).1 = espOk → Restored mgr) ↔
      (mgr.initialized = true → ∀ c ∈ mgr.contacts, c.Faithful ∧ c.id ≠ idMax) := by
  have hsaved : (mgr.saveToDisk true).1 = espOk ↔ mgr.initialized = true := by
    rw [saveToDisk]
    cases mgr.initialized with
    | false => exact iff_of_false (show espErrInvalidState ≠ espOk by decide) Bool.false_ne_true
    | true => exact iff_of_true rfl rfl
  rw [hsaved]
  refine imp_congr_right fun hinit => ?_
  have hkept : mgr.cycle.contacts = mgr.contacts ↔ ∀ c ∈ mgr.contacts, c.Faithful := by
    rw [cycle_contacts hinit, filterMap_eq_self]
    exact forall₂_congr fun c _ => c.fromJson_toJson
  constructor
  · intro h c hc
    have hbelow := h.below
    rw [cycle_nextId hinit, h.contacts] at hbelow
    exact ⟨hkept.mp h.contacts c hc, (below_iff mgr.contacts).mp hbelow c hc⟩
  · intro h
    have hsame := hkept.mpr fun c hc => (h c hc).1
    refine ⟨hsame, ?_, fun n => ?_⟩
    · rw [cycle_nextId hinit, hsame]
      exact (below_iff mgr.contacts).mpr fun c hc => (h c hc).2
    · -- Each cycle finds an initialised manager with the contacts of the first one.
      have hcycle : (cycle^[n] mgr).initialized = true ∧ (cycle^[n] mgr).contacts = mgr.contacts := by
        induction n with
        | zero => exact ⟨hinit, rfl⟩
        | succ n ih =>
          rw [Function.iterate_succ_apply']
          refine ⟨cycle_initialized _, ?_⟩
          rw [cycle_contacts ih.1, ih.2, ← cycle_contacts hinit, hsame]
      exact hcycle.2

/-- A name with a quote in it comes back with a backslash. -/
theorem book_not_restored : ¬ ∀ ops : List ContactOp,
    let mgr := (addressBook.run ⟨.new, none⟩ ops).mgr
    (mgr.saveToDisk true).1 = espOk → Restored mgr := by
  intro hall
  have hsame := (hall [.init true, .add ['A', '"', 'B'] [] 0 []] rfl).contacts
  have hname := congrArg (List.map Contact.name) hsame
  revert hname
  decide +kernel

end ContactManager

end ThistleOS.Contacts
