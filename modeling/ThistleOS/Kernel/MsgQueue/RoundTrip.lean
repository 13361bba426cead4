import ThistleOS.Kernel.MsgQueue.Lookup

/-!
# From a message to its text and back

The text of a message is read back as the message, apart from times that do not fit into the reader
and from a priority whose key is hidden by a value.
-/

namespace ThistleOS.MsgQueue

variable {key : Text} {n : Nat} {m : QueuedMessage}

/-! ### The text of a message -/

/-- What stands between the quote after a key and the next quote, for a number. -/
def num (n : Nat) : Text := ':' :: (decimal n ++ [','])

/-- The characters between quotes. -/
def isPlain (c : Char) : Bool := isBase64 c || c.isDigit || c == '_' || c == ':' || c == ','

lemma plain_ne {c : Char} (h : isPlain c = true) : c ≠ '"' ∧ c ≠ '{' ∧ c ≠ '}' ∧ c ≠ '\\' := by
  refine ⟨?_, ?_, ?_, ?_⟩
  · rintro rfl
    exact absurd h (by decide)
  · rintro rfl
    exact absurd h (by decide)
  · rintro rfl
    exact absurd h (by decide)
  · rintro rfl
    exact absurd h (by decide)

@[simp] lemma all_plain_decimal (n : Nat) : (decimal n).all isPlain = true := by
  rw [List.all_eq_true]
  intro c hc
  simp [isPlain, isDigit_of_mem_decimal hc]

@[simp] lemma all_plain_num (n : Nat) : (num n).all isPlain = true := by
  simp [num, isPlain, all_plain_decimal]

@[simp] lemma all_plain_base64Encode (data : List UInt8) :
    (base64Encode data).all isPlain = true := by
  rw [List.all_eq_true]
  intro c hc
  simp [isPlain, isBase64_of_mem hc]

lemma base64Encode_ne {data : List UInt8} (h : key.length % 4 ≠ 0) : base64Encode data ≠ key :=
  fun heq => h (heq ▸ length_base64Encode data)

namespace QueuedMessage

/-- The parts of the text of a message, between its quotes. -/
def parts (m : QueuedMessage) : List Text :=
  ["id".toList, num m.id.toNat, "transport".toList, num m.transport.toNat,
    "dest".toList, [':'], base64Encode m.dest.data, [','],
    "payload".toList, [':'], base64Encode m.payload.data, [','],
    "priority".toList, num m.priority.toU8.toNat, "created_at".toList, num m.createdAt.toNat,
    "next_retry_at".toList, num m.nextRetryAt.toNat, "retry_count".toList, num m.retryCount.toNat,
    "max_retries".toList, num m.maxRetries.toNat, "ttl_ms".toList, num m.ttlMs.toNat,
    "status".toList, ':' :: decimal m.status.toU8.toNat]

lemma toJson_eq (m : QueuedMessage) : m.toJson = ['{'] ++ '"' :: (join m.parts ++ ['}']) := by
  unfold toJson
  simp only [parts, num, jsonEscape_base64Encode, join_cons, join_singleton, String.reduceToList,
    List.cons_append, List.append_assoc, List.nil_append]

lemma plain_of_mem_parts {p : Text} (hp : p ∈ m.parts) {c : Char} (hc : c ∈ p) :
    isPlain c = true := by
  have hall : m.parts.all (·.all isPlain) = true := by
    simp only [parts, List.all_cons, List.all_nil, all_plain_num, all_plain_base64Encode,
      all_plain_decimal]
    decide
  exact List.all_eq_true.mp (List.all_eq_true.mp hall p hp) c hc

lemma findAfter_toJson (hkey : '"' ∉ key) :
    findAfter (quoted key) m.toJson = (afterPart key m.parts).map fun qs => join qs ++ ['}'] := by
  rw [toJson_eq, findAfter_skip (by decide)]
  exact findAfter_join hkey (by decide) fun q hq hquote =>
    (plain_ne (plain_of_mem_parts hq hquote)).1 rfl

end QueuedMessage

open QueuedMessage

/-! ### Reading a value -/

lemma join_cons_append (p : Text) (ps : List Text) (t : Text) :
    ∃ rest, join (p :: ps) ++ t = p ++ rest := by
  cases ps with
  | nil => exact ⟨t, by rw [join_singleton]⟩
  | cons q ps => exact ⟨'"' :: (join (q :: ps) ++ t), by simp⟩

lemma jsonGetInt_of_part (hkey : '"' ∉ key) (h : ∃ ps, afterPart key m.parts = some (num n :: ps)) :
    jsonGetInt m.toJson key = if n < 0x8000000000000000 then some (n : Int) else none := by
  obtain ⟨ps, h⟩ := h
  obtain ⟨rest, hrest⟩ := join_cons_append (num n) ps ['}']
  have hfind := findAfter_toJson (m := m) hkey
  rw [h, Option.map_some, hrest, num, List.cons_append, List.append_assoc] at hfind
  exact jsonGetInt_of_findAfter hfind (by decide) (by decide)

/-- The last value comes before a brace. -/
lemma jsonGetInt_of_last (hkey : '"' ∉ key)
    (h : afterPart key m.parts = some [':' :: decimal n]) :
    jsonGetInt m.toJson key = if n < 0x8000000000000000 then some (n : Int) else none := by
  have hfind := findAfter_toJson (m := m) hkey
  rw [h, Option.map_some, join_singleton, List.cons_append] at hfind
  exact jsonGetInt_of_findAfter hfind (by decide) (by decide)

lemma jsonGetInt_of_hidden (hkey : '"' ∉ key)
    (h : ∃ ps, afterPart key m.parts = some ([','] :: ps)) : jsonGetInt m.toJson key = none := by
  obtain ⟨ps, h⟩ := h
  obtain ⟨rest, hrest⟩ := join_cons_append [','] ps ['}']
  have hfind := findAfter_toJson (m := m) hkey
  rw [h, Option.map_some, hrest] at hfind
  exact jsonGetInt_of_comma hfind

lemma bytesOf_of_part {k : Nat} {b : Bytes k} (hkey : '"' ∉ key)
    (h : ∃ p ps, afterPart key m.parts = some ([':'] :: base64Encode b.data :: p :: ps)) :
    bytesOf k m.toJson key = b := by
  obtain ⟨p, ps, h⟩ := h
  have hfind := findAfter_toJson (m := m) hkey
  rw [h, Option.map_some, join_cons, join_cons, List.append_assoc, List.cons_append,
    List.nil_append, List.cons_append, List.append_assoc, List.cons_append] at hfind
  have hget := jsonGetString_of_findAfter hfind fun c hc => isBase64_of_mem hc
  rw [bytesOf, hget]
  simp only [base64Decode_base64Encode, Bytes.ofList_data]
  split_ifs with hnil
  · rw [base64Encode_eq_nil] at hnil
    cases b with
    | mk data fits =>
      subst hnil
      rfl
  · rfl

/-! ### Reading a message -/

/-- The bytes whose text is the key of the priority. -/
def priorityBytes : List UInt8 := [0xA6, 0xB8, 0xA8, 0xAE, 0x2B, 0x72]

lemma base64Encode_eq_priority {data : List UInt8} :
    base64Encode data = "priority".toList ↔ data = priorityBytes := by
  have hpriority : base64Encode priorityBytes = "priority".toList := by decide
  rw [← hpriority]
  exact base64Encode_injective.eq_iff

/-- The bytes of a message hide its priority. -/
def Hides (m : QueuedMessage) : Prop := m.dest.data = priorityBytes ∨ m.payload.data = priorityBytes

instance (m : QueuedMessage) : Decidable (Hides m) := instDecidableOr

/-- What is read of a time. -/
def reread (time default : UInt64) : UInt64 := if time.toNat < 0x8000000000000000 then time else default

/-- What is read of a message. -/
def reload (m : QueuedMessage) : QueuedMessage :=
  { m with
    priority := if Hides m then .normal else m.priority
    createdAt := reread m.createdAt 0
    nextRetryAt := reread m.nextRetryAt 0
    ttlMs := reread m.ttlMs defaultTtlMs }

lemma asU8_toNat (a : UInt8) : asU8 (a.toNat : Int) = a := by
  have hlt := a.toNat_lt
  have hmod : ((a.toNat : Int) % 0x100).toNat = a.toNat := by omega
  rw [asU8, hmod]
  exact UInt8.ofNat_toNat

lemma asU32_toNat (a : UInt32) : asU32 (a.toNat : Int) = a := by
  have hlt := a.toNat_lt
  have hmod : ((a.toNat : Int) % 0x100000000).toNat = a.toNat := by omega
  rw [asU32, hmod]
  exact UInt32.ofNat_toNat

lemma asU64_toNat (a : UInt64) : asU64 (a.toNat : Int) = a := by
  have hlt := a.toNat_lt
  have hmod : ((a.toNat : Int) % 0x10000000000000000).toNat = a.toNat := by omega
  rw [asU64, hmod]
  exact UInt64.ofNat_toNat

lemma asU64_reread (time default : UInt64) :
    asU64 ((if time.toNat < 0x8000000000000000 then some (time.toNat : Int) else none).getD default.toNat) =
      reread time default := by
  rw [reread]
  split_ifs
  · exact asU64_toNat time
  · exact asU64_toNat default

lemma fromU8_toU8_priority (p : MsgPriority) : MsgPriority.fromU8 p.toU8 = some p := by
  cases p with
  | normal => rfl
  | high => rfl
  | urgent => rfl

lemma fromU8_toU8_status (s : MsgStatus) : MsgStatus.fromU8 s.toU8 = some s := by
  cases s with
  | pending => rfl
  | retrying => rfl
  | sent => rfl
  | expired => rfl
  | failed => rfl
  | cancelled => rfl

lemma jsonGetInt_priority (m : QueuedMessage) :
    jsonGetInt m.toJson "priority".toList =
      if Hides m then none else some (m.priority.toU8.toNat : Int) := by
  have hlt := m.priority.toU8.toNat_lt
  by_cases hdest : m.dest.data = priorityBytes
  · rw [if_pos (.inl hdest)]
    rw [← base64Encode_eq_priority] at hdest
    exact jsonGetInt_of_hidden (by decide) (by simp [parts, afterPart, num, hdest])
  · by_cases hpayload : m.payload.data = priorityBytes
    · rw [if_pos (.inr hpayload)]
      rw [← base64Encode_eq_priority] at hdest hpayload
      exact jsonGetInt_of_hidden (by decide) (by simp_all [parts, afterPart, num])
    · rw [if_neg (show ¬ Hides m from not_or.mpr ⟨hdest, hpayload⟩)]
      rw [← base64Encode_eq_priority] at hdest hpayload
      rw [jsonGetInt_of_part (n := m.priority.toU8.toNat) (by decide)
        (by simp_all [parts, afterPart, num])]
      rw [if_pos (by omega)]

/-- What is read of the text of a message. -/
theorem fromJson_toJson (m : QueuedMessage) : fromJson m.toJson = some (reload m) := by
  have hid : jsonGetInt m.toJson "id".toList = _ :=
    jsonGetInt_of_part (n := m.id.toNat) (by decide) (by simp [parts, afterPart])
  have htransport : jsonGetInt m.toJson "transport".toList = _ :=
    jsonGetInt_of_part (n := m.transport.toNat) (by decide) (by simp [parts, afterPart, num])
  have hdest : bytesOf destMax m.toJson "dest".toList = m.dest :=
    bytesOf_of_part (by decide) (by simp [parts, afterPart, num])
  have hpayload : bytesOf payloadMax m.toJson "payload".toList = m.payload :=
    bytesOf_of_part (by decide) (by simp [parts, afterPart, num, base64Encode_ne])
  have hcreated : jsonGetInt m.toJson "created_at".toList = _ :=
    jsonGetInt_of_part (n := m.createdAt.toNat) (by decide)
      (by simp [parts, afterPart, num, base64Encode_ne])
  have hnext : jsonGetInt m.toJson "next_retry_at".toList = _ :=
    jsonGetInt_of_part (n := m.nextRetryAt.toNat) (by decide)
      (by simp [parts, afterPart, num, base64Encode_ne])
  have hretry : jsonGetInt m.toJson "retry_count".toList = _ :=
    jsonGetInt_of_part (n := m.retryCount.toNat) (by decide)
      (by simp [parts, afterPart, num, base64Encode_ne])
  have hmax : jsonGetInt m.toJson "max_retries".toList = _ :=
    jsonGetInt_of_part (n := m.maxRetries.toNat) (by decide)
      (by simp [parts, afterPart, num, base64Encode_ne])
  have httl : jsonGetInt m.toJson "ttl_ms".toList = _ :=
    jsonGetInt_of_part (n := m.ttlMs.toNat) (by decide)
      (by simp [parts, afterPart, num, base64Encode_ne])
  have hstatus : jsonGetInt m.toJson "status".toList = _ :=
    jsonGetInt_of_last (n := m.status.toU8.toNat) (by decide)
      (by simp [parts, afterPart, num, base64Encode_ne])
  have hlt (a : UInt32) : a.toNat < 0x8000000000000000 := a.toNat_lt.trans (by decide)
  have hlt' (a : UInt8) : a.toNat < 0x8000000000000000 := a.toNat_lt.trans (by decide)
  rw [if_pos (hlt _)] at hid hretry hmax
  rw [if_pos (hlt' _)] at htransport hstatus
  have hpriority : (MsgPriority.fromU8 (asU8 ((jsonGetInt m.toJson "priority".toList).getD 0))).getD
      .normal = (reload m).priority := by
    rw [jsonGetInt_priority, reload]
    split_ifs
    · rfl
    · rw [Option.getD_some, asU8_toNat, fromU8_toU8_priority, Option.getD_some]
  unfold fromJson
  simp only [hid, htransport, hdest, hpayload, hpriority, hcreated, hnext, hretry, hmax, httl, hstatus,
    Option.bind_eq_bind, Option.bind_some, Option.pure_def]
  have hzero (time : UInt64) :
      asU64 ((if time.toNat < 0x8000000000000000 then some (time.toNat : Int) else none).getD 0) =
        reread time 0 := asU64_reread time 0
  simp only [hzero, asU64_reread, Option.getD_some, asU8_toNat, asU32_toNat, fromU8_toU8_status]
  rfl

end ThistleOS.MsgQueue
