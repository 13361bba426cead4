import ThistleOS.JsonText.Documents
import ThistleOS.Kernel.Manifest
import ThistleOS.Kernel.MsgQueue.Lookup
import Mathlib.Data.List.Infix

/-!
# Manifests from JSON

A manifest is read without a parser: a field is looked up at the first place where its key stands in quotes.
-/

open ThistleOS.MsgQueue ThistleOS.JsonText

namespace ThistleOS.Manifests

/-! ### Reading fields -/

/-- The text up to the first mark. -/
def untilMark (mark : Char) (s : Text) : Option Text :=
  if mark ∈ s then some (s.takeWhile (· ≠ mark)) else none

def jsonGetString (json key : Text) : Option Text := do
  match ← jsonValue json key with
  | '"' :: value => untilMark '"' value
  | _ => none

def jsonGetBool (json key : Text) : Option Bool := do
  let trimmed ← jsonValue json key
  if "true".toList.isPrefixOf trimmed then some true
  else if "false".toList.isPrefixOf trimmed then some false
  else none

/-- The pieces between the first quote and the second, the third and the fourth, and so on; the piece that has
begun comes first. -/
def quotedPieces : Option Text → Text → List Text
  | _, [] => []
  | none, c :: s => if c = '"' then quotedPieces (some []) s else quotedPieces none s
  | some piece, c :: s => if c = '"' then piece :: quotedPieces none s else quotedPieces (some (piece ++ [c])) s

def jsonGetStringArray (json key : Text) : List Text :=
  match jsonValue json key with
  | some ('[' :: rest) =>
    match untilMark ']' rest with
    | some content => quotedPieces none content
    | none => []
  | _ => []

/-- The digits of a radix up to 16. -/
def digitValue (radix : ℕ) (c : Char) : Option ℕ :=
  let n := if c.isDigit then c.toNat - '0'.toNat
    else if 'a' ≤ c ∧ c ≤ 'f' then c.toNat - 'a'.toNat + 10
    else if 'A' ≤ c ∧ c ≤ 'F' then c.toNat - 'A'.toNat + 10
    else radix
  if n < radix then some n else none

/-- The numbers that a `u16` can have, perhaps after a plus sign. -/
def parseU16 (radix : ℕ) (s : Text) : Option UInt16 := do
  let digits := (s.dropPrefix? ['+']).getD s
  if digits = [] then none
  else
    let n := (← digits.mapM (digitValue radix)).foldl (fun n d => radix * n + d) 0
    if n < 0x10000 then some (UInt16.ofNat n) else none

/-- The number in a string. -/
def hexOrDecimal (s : Text) : Option UInt16 :=
  match ((trim s).dropPrefix? "0x".toList).orElse fun _ => (trim s).dropPrefix? "0X".toList with
  | some hex => parseU16 16 hex
  | none => parseU16 10 (trim s)

def jsonGetHexOrInt (json key : Text) : Option UInt16 := do
  match ← jsonValue json key with
  | '"' :: inner => (untilMark '"' inner).bind hexOrDecimal
  | trimmed => parseU16 10 (trimmed.takeWhile Char.isDigit)

structure ManifestDetection where
  bus : String
  address : Option UInt16
  chipIdReg : Option UInt16
  chipIdValue : Option UInt16
  deriving DecidableEq

def text (t : Option Text) : String := String.ofList (t.getD [])

/-- The detection in what stands between the braces. -/
def readDetection (inner : Text) : Option ManifestDetection :=
  let bus := (jsonGetString inner "bus".toList).getD []
  if bus = [] then none
  else some {
    bus := String.ofList bus
    address := jsonGetHexOrInt inner "address".toList
    chipIdReg := jsonGetHexOrInt inner "chip_id_reg".toList
    chipIdValue := jsonGetHexOrInt inner "chip_id_value".toList }

def jsonGetDetection (json : Text) : Option ManifestDetection :=
  match jsonValue json "detection".toList with
  | some ('{' :: innerStart) => (untilMark '}' innerStart).bind readDetection
  | _ => none

/-- `str::contains` -/
def contains (s pattern : Text) : Bool := decide (pattern <:+: s)

/-- The names of the permissions with their flags. -/
def permissionFlags : List (String × UInt32) :=
  [("radio", 1), ("gps", 2), ("storage", 4), ("network", 8), ("audio", 16), ("system", 32), ("ipc", 64)]

/-- The flags of the names of which a predicate holds. -/
def permissionsWhere (p : Text → Bool) : UInt32 :=
  permissionFlags.foldl (fun perms flag => if p flag.1.toList then perms ||| flag.2 else perms) 0

def parsePermissions (json : Text) : UInt32 :=
  match jsonValue json "permissions".toList with
  | some ('[' :: rest) =>
    let chunk := ('[' :: rest).takeWhile (· ≠ ']')
    permissionsWhere (contains chunk)
  | some ('"' :: inner) =>
    let chunk := inner.takeWhile (· ≠ '"')
    permissionsWhere (contains chunk)
  | _ => 0

/-! ### Manifests -/

structure FullManifest extends Manifest where
  compatibleBoards : List String
  detection : Option ManifestDetection

inductive ManifestError where
  | parseError (message : String)
  deriving DecidableEq

def ManifestType.ofText (t : Text) : Option ManifestType :=
  if t = "app".toList then some .app
  else if t = "driver".toList then some .driver
  else if t = "firmware".toList then some .firmware
  else if t = "wm".toList then some .wm
  else none

/-- The manifest of a type and an id, with the fields that need not be there. -/
def readFields (json : Text) (manifestType : ManifestType) (id : Text) : FullManifest where
  manifestType := manifestType
  id := String.ofList id
  name := text (jsonGetString json "name".toList)
  version := text (jsonGetString json "version".toList)
  author := text (jsonGetString json "author".toList)
  description := text (jsonGetString json "description".toList)
  minOs := text (jsonGetString json "min_os".toList)
  arch := text (jsonGetString json "arch".toList)
  entry := text (jsonGetString json "entry".toList)
  icon := text (jsonGetString json "icon".toList)
  permissions := parsePermissions json
  background := (jsonGetBool json "background".toList).getD false
  minMemoryKb := asU32 ((jsonGetInt json "min_memory_kb".toList).getD 0)
  halInterface := text (jsonGetString json "hal_interface".toList)
  changelog := text (jsonGetString json "changelog".toList)
  compatibleBoards := (jsonGetStringArray json "compatible_boards".toList).map String.ofList
  detection := jsonGetDetection json

def fromJson (json : Text) : Except ManifestError FullManifest :=
  match jsonGetString json "type".toList with
  | none => .error (.parseError "missing 'type' field")
  | some typeStr =>
    match ManifestType.ofText typeStr with
    | none => .error (.parseError ("unknown type: " ++ String.ofList typeStr))
    | some manifestType =>
      match jsonGetString json "id".toList with
      | none => .error (.parseError "missing 'id' field")
      | some id => .ok (readFields json manifestType id)

/-! ### What a document says -/

/-- The text of a value that is a string. -/
def stringOf : Text → Option Text
  | '"' :: s => some s.dropLast
  | _ => none

def stringAt (ms : List Member) (key : Text) : Option Text := (valueAt ms key).bind stringOf

def boolOf (v : Text) : Option Bool :=
  if v = "true".toList then some true else if v = "false".toList then some false else none

/-- The value is an array of strings. -/
def StringsOf (v : Text) (strings : List Text) : Prop :=
  ∃ items, v = array items ∧ ArrayOf IsString (strings.map quoted) items

/-- The names in an array, or between the commas of a string. -/
inductive NamesOf : Text → List Text → Prop
  | array {v names} (h : StringsOf v names) : NamesOf v names
  | string {parts : List Text} (h : ∀ part ∈ parts, ',' ∉ part) :
    NamesOf (quoted ([','].intercalate parts)) (parts.map trim)

def u16Of (v : Text) : Option UInt16 :=
  match stringOf v with
  | some s => hexOrDecimal s
  | none => parseU16 10 v

def u16At (ms : List Member) (key : Text) : Option UInt16 := (valueAt ms key).bind u16Of

/-- How a device is detected; nothing is detected on no bus. -/
def detectionAt (ms : List Member) : Option ManifestDetection :=
  let bus := (stringAt ms "bus".toList).getD []
  if bus = [] then none
  else some {
    bus := String.ofList bus
    address := u16At ms "address".toList
    chipIdReg := u16At ms "chip_id_reg".toList
    chipIdValue := u16At ms "chip_id_value".toList }

/-- A value, or a default where there is none of the kind. -/
inductive ValueIs {α : Type} (kind : Text → Bool) (spells : Text → α → Prop) (default : α) : Option Text → α → Prop
  | absent : ValueIs kind spells default none default
  | other {v} (h : kind v = false) : ValueIs kind spells default (some v) default
  | value {v a} (hkind : kind v = true) (h : spells v a) : ValueIs kind spells default (some v) a

def isString (v : Text) : Bool := v.head? == some '"'

/-- The fields of a manifest are the values of its keys. -/
structure FieldsOf (ms : List Member) (m : FullManifest) : Prop where
  manifestType : (stringAt ms "type".toList).bind ManifestType.ofText = some m.manifestType
  id : stringAt ms "id".toList = some m.id.toList
  name : m.name = text (stringAt ms "name".toList)
  version : m.version = text (stringAt ms "version".toList)
  author : m.author = text (stringAt ms "author".toList)
  description : m.description = text (stringAt ms "description".toList)
  minOs : m.minOs = text (stringAt ms "min_os".toList)
  arch : m.arch = text (stringAt ms "arch".toList)
  entry : m.entry = text (stringAt ms "entry".toList)
  icon : m.icon = text (stringAt ms "icon".toList)
  permissions : ValueIs (fun v => isArray v || isString v)
    (fun v perms => ∃ names, NamesOf v names ∧ perms = permissionsWhere fun name => decide (name ∈ names)) 0
    (valueAt ms "permissions".toList) m.permissions
  background : m.background = ((valueAt ms "background".toList).bind boolOf).getD false
  minMemoryKb : (m.minMemoryKb.toNat : ℤ) = ((valueAt ms "min_memory_kb".toList).bind parseI64).getD 0
  halInterface : m.halInterface = text (stringAt ms "hal_interface".toList)
  changelog : m.changelog = text (stringAt ms "changelog".toList)
  compatibleBoards : ValueIs isArray (fun v boards => StringsOf v (boards.map String.toList)) []
    (valueAt ms "compatible_boards".toList) m.compatibleBoards
  detection : ValueIs isObject (fun v d => ∃ dms body, v = object body ∧ ObjectOf IsString dms body ∧ d = detectionAt dms)
    none (valueAt ms "detection".toList) m.detection

/-- What reading a manifest comes to. -/
inductive Outcome (ms : List Member) : Except ManifestError FullManifest → Prop
  | read {m} (h : FieldsOf ms m) : Outcome ms (.ok m)
  | missingType (h : stringAt ms "type".toList = none) : Outcome ms (.error (.parseError "missing 'type' field"))
  | unknownType {t} (h : stringAt ms "type".toList = some t) (ht : ManifestType.ofText t = none) :
    Outcome ms (.error (.parseError ("unknown type: " ++ String.ofList t)))
  | missingId (h : stringAt ms "id".toList = none) : Outcome ms (.error (.parseError "missing 'id' field"))

/-! ### What can be read -/

/-- The first place where the key stands in quotes is followed by its value; where there is none, by no value. -/
def Shows (json : Text) (ms : List Member) (key : Text) : Prop :=
  match valueAt ms key with
  | some v => ∃ rest, jsonValue json key = some (v ++ rest) ∧ NoNumber rest
  | none => jsonValue json key = none

/-- The keys of the fields that a manifest need not have. -/
def optionalKeys : List Text :=
  ["name".toList, "version".toList, "author".toList, "description".toList, "min_os".toList, "arch".toList,
    "entry".toList, "icon".toList, "permissions".toList, "background".toList, "min_memory_kb".toList,
    "hal_interface".toList, "changelog".toList, "compatible_boards".toList, "detection".toList]

/-- A number is written with digits alone. -/
def Digits (v : Text) : Prop := (∃ c, v.head? = some c ∧ c.isDigit = true) → ∀ c ∈ v, c.isDigit = true

def numberKeys : List Text := ["address".toList, "chip_id_reg".toList, "chip_id_value".toList]

/-- A detection that can be read, as far as it is read. -/
structure LegibleDetection (v : Text) (dms : List Member) (body : Text) : Prop where
  eq : v = object body
  members : ObjectOf IsString dms body
  brace : '}' ∉ body
  bus : Shows body dms "bus".toList
  numbers : (stringAt dms "bus".toList).getD [] ≠ [] →
    ∀ key ∈ numberKeys, Shows body dms key ∧ ∀ v, valueAt dms key = some v → Digits v

/-- The optional fields can be read. -/
structure LegibleFields (ms : List Member) (json : Text) : Prop where
  shown : ∀ key ∈ optionalKeys, Shows json ms key
  memory : ∀ v, valueAt ms "min_memory_kb".toList = some v → ¬ NoNumber v →
    ∃ n, parseI64 v = some n ∧ 0 ≤ n ∧ n < 0x100000000
  permissions : ∀ v, valueAt ms "permissions".toList = some v → (isArray v || isString v) = true →
    ∃ names, NamesOf v names ∧ (isArray v = true → ∀ name ∈ names, ']' ∉ name) ∧
      ∀ flag ∈ permissionFlags, flag.1.toList <:+: v → flag.1.toList ∈ names
  boards : ∀ v, valueAt ms "compatible_boards".toList = some v → isArray v = true →
    ∃ strings, StringsOf v strings ∧ ∀ s ∈ strings, ']' ∉ s
  detection : ∀ v, valueAt ms "detection".toList = some v → isObject v = true → ∃ dms body, LegibleDetection v dms body

/-- A document that can be read, as far as it is read. -/
structure Legible (ms : List Member) (json : Text) : Prop where
  type : Shows json ms "type".toList
  id : (stringAt ms "type".toList).bind ManifestType.ofText ≠ none → Shows json ms "id".toList
  fields : (stringAt ms "type".toList).bind ManifestType.ofText ≠ none → stringAt ms "id".toList ≠ none →
    LegibleFields ms json

/-! ### Values -/

variable {json key v s rest : Text} {ms : List Member}

lemma takeWhile_mark {mark : Char} (hs : mark ∉ s) (rest : Text) : (s ++ mark :: rest).takeWhile (· ≠ mark) = s := by
  have hne : ∀ c ∈ s, decide (c ≠ mark) = true := fun c hc => by
    rw [decide_eq_true_eq]
    rintro rfl
    exact hs hc
  rw [List.takeWhile_append_of_pos hne]
  simp

lemma untilMark_append {mark : Char} (hs : mark ∉ s) (rest : Text) : untilMark mark (s ++ mark :: rest) = some s := by
  rw [untilMark, if_pos (List.mem_append_right s List.mem_cons_self), takeWhile_mark hs]

lemma number_head (h : IsNumber v) : ∃ c t, v = c :: t ∧ (c.isDigit = true ∨ c = '-') := by
  obtain ⟨sign, whole, fraction, exponent, hsign, ⟨hwhole, -⟩, -, -, rfl⟩ := h
  obtain ⟨d, ds, rfl⟩ := List.exists_cons_of_ne_nil hwhole.1
  have hd := hwhole.2 d List.mem_cons_self
  simp only [List.mem_cons, List.not_mem_nil, or_false] at hsign
  rcases hsign with rfl | rfl
  · exact ⟨d, _, rfl, .inl hd⟩
  · exact ⟨'-', _, rfl, .inr rfl⟩

/-- A value is a string, a literal, or known by its first character. -/
lemma value_cases (h : IsJson IsString v) : (∃ s, v = quoted s ∧ ∀ c ∈ s, Unescaped c) ∨ v = "true".toList ∨
    v = "false".toList ∨ ∃ c t, v = c :: t ∧ c ∉ ['"', 't', 'f', '+'] ∧ isWhiteSpace c = false := by
  cases h with
  | string h =>
    obtain ⟨s, hs, rfl⟩ := h
    exact .inl ⟨s, rfl, hs⟩
  | scalar h =>
    rcases h with h | h
    · simp only [List.mem_cons, List.not_mem_nil, or_false] at h
      rcases h with rfl | rfl | rfl
      · exact .inr (.inl rfl)
      · exact .inr (.inr (.inl rfl))
      · exact .inr (.inr (.inr ⟨'n', _, rfl, by decide⟩))
    · obtain ⟨c, t, rfl, hc⟩ := number_head h
      refine .inr (.inr (.inr ⟨c, t, rfl, fun hmem => ?_, ?_⟩))
      rotate_left
      · rcases hc with hc | rfl
        · exact not_isWhiteSpace_of_isDigit hc
        · decide
      simp only [List.mem_cons, List.not_mem_nil, or_false] at hmem
      rcases hmem with rfl | rfl | rfl | rfl <;> simp [Char.isDigit] at hc
  | array hts h => exact .inr (.inr (.inr ⟨'[', _, rfl, by decide⟩))
  | object hms hvalues h => exact .inr (.inr (.inr ⟨'{', _, rfl, by decide⟩))

lemma string_or_head (h : IsJson IsString v) :
    (∃ s, v = quoted s ∧ ∀ c ∈ s, Unescaped c) ∨ ∃ c t, v = c :: t ∧ c ≠ '"' ∧ c ≠ '+' := by
  rcases value_cases h with hs | rfl | rfl | ⟨c, t, rfl, hc, -⟩
  · exact .inl hs
  · exact .inr ⟨'t', _, rfl, by decide⟩
  · exact .inr ⟨'f', _, rfl, by decide⟩
  · refine .inr ⟨c, t, rfl, ?_, ?_⟩
    · rintro rfl
      exact hc List.mem_cons_self
    · rintro rfl
      exact hc (by simp)

lemma ne_nil_of_isJson (h : IsJson IsString v) : v ≠ [] := by
  rcases string_or_head h with ⟨s, rfl, -⟩ | ⟨c, t, rfl, -⟩
  · exact List.cons_ne_nil _ _
  · exact List.cons_ne_nil c t

/-- What stands between the quotes of a string has no quotes. -/
lemma quote_notMem_of_quoted (h : IsJson IsString (quoted s)) : '"' ∉ s := by
  rcases string_or_head h with ⟨s', heq, hs⟩ | ⟨c, t, heq, hc, -⟩
  · obtain rfl : s = s' := by simpa [quoted] using heq
    exact fun hmem => (hs _ hmem).1 rfl
  · exact absurd (List.cons.inj heq).1 hc.symm

lemma stringOf_quoted (s : Text) : stringOf (quoted s) = some s := by
  simp [stringOf, quoted]

lemma stringOf_head {c : Char} {t : Text} (hc : c ≠ '"') : stringOf (c :: t) = none := by
  rw [stringOf]
  intro s heq
  exact hc (List.cons.inj heq).1

lemma parseI64_of_noNumber (hv : NoNumber v) : parseI64 v = none := by
  refine Option.eq_none_iff_forall_ne_some.mpr fun n hparse => ?_
  cases v with
  | nil => cases hparse
  | cons c t =>
    obtain ⟨hdigit, hminus⟩ := hv c rfl
    have hc := parseI64_chars hparse c List.mem_cons_self
    simp [hdigit, hminus] at hc

section Readers

variable (h : IsJson IsString v) (hjson : jsonValue json key = some (v ++ rest))

include h hjson

lemma jsonGetString_eq : jsonGetString json key = stringOf v := by
  rcases string_or_head h with ⟨s, rfl, hs⟩ | ⟨c, t, rfl, hc, -⟩
  · have hvalue : quoted s ++ rest = '"' :: (s ++ '"' :: rest) := by simp [quoted]
    rw [jsonGetString, hjson, hvalue, stringOf_quoted]
    exact untilMark_append (fun hmem => (hs _ hmem).1 rfl) rest
  · rw [jsonGetString, hjson, stringOf_head hc, Option.bind_eq_bind, Option.bind_some]
    split
    · rename_i heq
      exact absurd (List.cons.inj heq).1 hc
    · rfl

lemma jsonGetBool_eq : jsonGetBool json key = boolOf v := by
  have hother {c : Char} {t : Text} (hv : v = c :: t) (hc : c ∉ ['t', 'f']) : jsonGetBool json key = boolOf v := by
    simp only [List.mem_cons, List.not_mem_nil, or_false, not_or] at hc
    rw [jsonGetBool, hjson, hv, boolOf]
    simp [hc.1, hc.2, Ne.symm hc.1, Ne.symm hc.2]
  rcases value_cases h with ⟨s, hs, -⟩ | hv | hv | ⟨c, t, hv, hc, -⟩
  · exact hother hs (by decide)
  · rw [jsonGetBool, hjson, hv]
    rfl
  · rw [jsonGetBool, hjson, hv]
    rfl
  · exact hother hv fun hmem => hc (List.mem_cons_of_mem _ (List.mem_append_left ['+'] hmem))

omit h

lemma jsonGetInt_eq (hrest : NoNumber rest) (hnumber : ¬ NoNumber v → ∃ n, parseI64 v = some n) :
    jsonGetInt json key = parseI64 v := by
  by_cases hv : NoNumber v
  · have hall : NoNumber (v ++ rest) := by
      cases v with
      | nil => exact hrest
      | cons c t => exact hv
    rw [jsonGetInt, hjson, Option.bind_eq_bind, Option.bind_some, takeWhile_of_noNumber hall,
      parseI64_of_noNumber hv]
    rfl
  · obtain ⟨n, hn⟩ := hnumber hv
    rw [jsonGetInt, hjson, Option.bind_eq_bind, Option.bind_some, List.takeWhile_append_of_pos (parseI64_chars hn),
      takeWhile_of_noNumber hrest, List.append_nil]

end Readers

/-! ### Arrays -/

lemma quotedPieces_skip (hs : '"' ∉ s) (rest : Text) : quotedPieces none (s ++ rest) = quotedPieces none rest := by
  induction s with
  | nil => rfl
  | cons c s ih =>
    rw [List.mem_cons, not_or] at hs
    rw [List.cons_append, quotedPieces, if_neg (Ne.symm hs.1), ih hs.2]

lemma quotedPieces_piece (hs : '"' ∉ s) (piece rest : Text) :
    quotedPieces (some piece) (s ++ '"' :: rest) = (piece ++ s) :: quotedPieces none rest := by
  induction s generalizing piece with
  | nil => rw [List.nil_append, quotedPieces, if_pos rfl, List.append_nil]
  | cons c s ih =>
    rw [List.mem_cons, not_or] at hs
    rw [List.cons_append, quotedPieces, if_neg (Ne.symm hs.1), ih hs.2, List.append_assoc, List.singleton_append]

lemma quotedPieces_quoted (hs : '"' ∉ s) (rest : Text) :
    quotedPieces none (quoted s ++ rest) = s :: quotedPieces none rest := by
  have hvalue : quoted s ++ rest = '"' :: (s ++ '"' :: rest) := by simp [quoted]
  rw [hvalue, quotedPieces, if_pos rfl, quotedPieces_piece hs, List.nil_append]

lemma quote_notMem_white {w : Text} (hw : White w) : '"' ∉ w := hw.not_mem (by simp [Quiet])

/-- The pieces of a list of strings are the strings. -/
lemma quotedPieces_listed {ts : List Text} {items : Text} (h : Listed ts items) {strings : List Text}
    (hts : ts = strings.map quoted) (hstrings : ∀ s ∈ strings, '"' ∉ s) : quotedPieces none items = strings := by
  induction h generalizing strings with
  | nil hw =>
    rw [List.map_eq_nil_iff.mp hts.symm]
    simpa [quotedPieces] using quotedPieces_skip (quote_notMem_white hw) []
  | singleton hw hw' =>
    obtain ⟨s, strings, rfl, rfl, htail⟩ := List.map_eq_cons_iff.mp hts.symm
    obtain rfl := List.map_eq_nil_iff.mp htail
    have hlast := quotedPieces_skip (quote_notMem_white hw') []
    rw [List.append_nil] at hlast
    rw [List.append_assoc, quotedPieces_skip (quote_notMem_white hw), quotedPieces_quoted (hstrings s List.mem_cons_self),
      hlast]
    rfl
  | cons hw hw' hrest ih =>
    obtain ⟨s, strings, rfl, rfl, htail⟩ := List.map_eq_cons_iff.mp hts.symm
    have hcomma (rest : Text) : quotedPieces none (',' :: rest) = quotedPieces none rest :=
      @quotedPieces_skip [','] (by simp) rest
    rw [List.append_assoc, List.append_assoc, quotedPieces_skip (quote_notMem_white hw),
      quotedPieces_quoted (hstrings s List.mem_cons_self), quotedPieces_skip (quote_notMem_white hw'),
      hcomma, ih htail.symm fun s' hs' => hstrings s' (List.mem_cons_of_mem s hs')]

lemma notMem_listed {ts : List Text} {items : Text} {c : Char} (h : Listed ts items) (hc : ¬ Quiet c) (hcomma : c ≠ ',')
    (hts : ∀ t ∈ ts, c ∉ t) : c ∉ items := by
  induction h with
  | nil hw => exact hw.not_mem hc
  | singleton hw hw' =>
    simp only [List.mem_append, not_or]
    exact ⟨⟨hw.not_mem hc, hts _ List.mem_cons_self⟩, hw'.not_mem hc⟩
  | cons hw hw' hrest ih =>
    simp only [List.mem_append, List.mem_cons, not_or]
    exact ⟨⟨⟨hw.not_mem hc, hts _ List.mem_cons_self⟩, hw'.not_mem hc⟩, hcomma,
      ih fun t ht => hts t (List.mem_cons_of_mem _ ht)⟩

lemma within_listed {ts : List Text} {items t : Text} (h : Listed ts items) (ht : t ∈ ts) : t <:+: items := by
  induction h with
  | nil => exact absurd ht List.not_mem_nil
  | singleton hw hw' =>
    rw [List.mem_singleton.mp ht]
    exact ⟨_, _, rfl⟩
  | cons hw hw' hrest ih =>
    rcases List.mem_cons.mp ht with rfl | ht
    · exact ⟨_, _, (List.append_assoc _ _ _).symm⟩
    · exact (ih ht).trans ⟨_, [], by rw [List.append_nil, ← List.append_cons]⟩

section Fields

variable (h : IsJson IsString v) (hjson : jsonValue json key = some (v ++ rest))

include hjson

/-- The strings of an array are read if none of them holds a bracket. -/
lemma jsonGetStringArray_eq {strings : List Text} (hv : StringsOf v strings) (hbracket : ∀ s ∈ strings, ']' ∉ s) :
    jsonGetStringArray json key = strings := by
  obtain ⟨items, rfl, hitems⟩ := hv
  have hclose : ']' ∉ items := by
    refine notMem_listed hitems.listed (by simp [Quiet]) (by decide) fun t ht => ?_
    obtain ⟨s, hs, rfl⟩ := List.mem_map.mp ht
    simpa [quoted] using hbracket s hs
  have hvalue : array items ++ rest = '[' :: (items ++ ']' :: rest) := by simp [array]
  rw [hvalue] at hjson
  rw [jsonGetStringArray, hjson]
  simp only [untilMark_append hclose]
  exact quotedPieces_listed hitems.listed rfl fun s hs => quote_notMem_of_quoted (hitems.items _ (List.mem_map_of_mem hs))

lemma jsonGetStringArray_other (hv : isArray v = false) (hne : v ≠ []) : jsonGetStringArray json key = [] := by
  obtain ⟨c, t, rfl⟩ := List.exists_cons_of_ne_nil hne
  rw [jsonGetStringArray, hjson]
  split
  · rename_i heq
    obtain rfl : c = '[' := (List.cons.inj (Option.some.inj heq)).1
    simp [isArray] at hv
  · rfl

omit hjson

lemma permissionsWhere_congr {p q : Text → Bool} (hpq : ∀ flag ∈ permissionFlags, p flag.1.toList = q flag.1.toList) :
    permissionsWhere p = permissionsWhere q :=
  List.foldl_ext _ _ _ fun perms flag hflag => by rw [hpq flag hflag]

lemma within_trim (s : Text) : trim s <:+: s :=
  (List.rdropWhile_prefix _ _).isInfix.trans (List.dropWhile_suffix _).isInfix

lemma within_intercalate {parts : List Text} {part : Text} (hpart : part ∈ parts) : part <:+: [','].intercalate parts := by
  induction parts with
  | nil => exact absurd hpart List.not_mem_nil
  | cons first parts ih =>
    by_cases hnil : parts = []
    · subst hnil
      rw [List.mem_singleton.mp hpart, List.intercalate_singleton]
    · rw [List.intercalate_cons_of_ne_nil hnil]
      rcases List.mem_cons.mp hpart with rfl | hpart
      · rw [List.append_assoc]
        exact (List.prefix_append _ _).isInfix
      · exact (ih hpart).trans (List.suffix_append _ _).isInfix

/-- The names are read if each stands for itself. -/
lemma parsePermissions_eq (h : IsJson IsString v) {names : List Text} (hpermissions : jsonValue json "permissions".toList = some (v ++ rest))
    (hv : NamesOf v names) (hbracket : isArray v = true → ∀ name ∈ names, ']' ∉ name)
    (hentries : ∀ flag ∈ permissionFlags, flag.1.toList <:+: v → flag.1.toList ∈ names) :
    parsePermissions json = permissionsWhere fun name => decide (name ∈ names) := by
  cases hv with
  | array hv =>
    obtain ⟨items, rfl, hitems⟩ := hv
    have hclose : ']' ∉ '[' :: items := by
      rw [List.mem_cons, not_or]
      refine ⟨by decide, notMem_listed hitems.listed (by simp [Quiet]) (by decide) fun t ht => ?_⟩
      obtain ⟨s, hs, rfl⟩ := List.mem_map.mp ht
      simpa [quoted] using hbracket rfl s hs
    have hvalue : array items ++ rest = '[' :: (items ++ ']' :: rest) := by simp [array]
    have hchunk : ('[' :: (items ++ ']' :: rest)).takeWhile (· ≠ ']') = '[' :: items := by
      rw [← List.cons_append, takeWhile_mark hclose]
    rw [parsePermissions, hpermissions, hvalue]
    simp only [hchunk]
    refine permissionsWhere_congr fun flag hflag => ?_
    rw [contains, decide_eq_decide]
    constructor
    · intro hwithin
      exact hentries flag hflag (hwithin.trans (List.prefix_append _ _).isInfix)
    · intro hmem
      have hquoted : flag.1.toList <:+: quoted flag.1.toList := ⟨['"'], ['"'], rfl⟩
      exact (hquoted.trans (within_listed hitems.listed (List.mem_map_of_mem hmem))).trans (List.suffix_cons _ _).isInfix
  | string hparts =>
    rename_i parts
    have hquote : '"' ∉ [','].intercalate parts := quote_notMem_of_quoted h
    have hvalue : quoted ([','].intercalate parts) ++ rest = '"' :: ([','].intercalate parts ++ '"' :: rest) := by
      simp [quoted]
    rw [parsePermissions, hpermissions, hvalue]
    simp only [takeWhile_mark hquote]
    refine permissionsWhere_congr fun flag hflag => ?_
    rw [contains, decide_eq_decide]
    constructor
    · intro hwithin
      exact hentries flag hflag (hwithin.trans ⟨['"'], ['"'], rfl⟩)
    · intro hmem
      obtain ⟨part, hpart, htrim⟩ := List.mem_map.mp hmem
      rw [← htrim]
      exact (within_trim part).trans (within_intercalate hpart)

lemma parsePermissions_other (hpermissions : jsonValue json "permissions".toList = some (v ++ rest)) (hne : v ≠ [])
    (hv : (isArray v || isString v) = false) : parsePermissions json = 0 := by
  obtain ⟨c, t, rfl⟩ := List.exists_cons_of_ne_nil hne
  rw [parsePermissions, hpermissions]
  split
  · rename_i heq
    obtain rfl : c = '[' := (List.cons.inj (Option.some.inj heq)).1
    simp [isArray] at hv
  · rename_i heq
    obtain rfl : c = '"' := (List.cons.inj (Option.some.inj heq)).1
    simp [isString] at hv
  · rfl

end Fields

/-! ### Detection -/

lemma digitValue_ten {c : Char} (hc : c.isDigit = false) : digitValue 10 c = none := by
  rw [digitValue, hc]
  simp only [Bool.false_eq_true, if_false]
  split_ifs <;> first | rfl | omega

lemma parseU16_head {c : Char} {t : Text} (hc : c.isDigit = false) (hplus : c ≠ '+') : parseU16 10 (c :: t) = none := by
  have hprefix : (c :: t).dropPrefix? ['+'] = none := by
    simp [List.dropPrefix?, hplus]
  rw [parseU16, hprefix, Option.getD_none, if_neg (List.cons_ne_nil c t), List.mapM_cons, digitValue_ten hc]
  rfl

lemma jsonGetHexOrInt_eq (h : IsJson IsString v) (hjson : jsonValue json key = some (v ++ rest)) (hrest : NoNumber rest)
    (hdigits : Digits v) : jsonGetHexOrInt json key = u16Of v := by
  rcases string_or_head h with ⟨s, rfl, -⟩ | ⟨c, t, rfl, hc, hplus⟩
  · have hvalue : quoted s ++ rest = '"' :: (s ++ '"' :: rest) := by simp [quoted]
    rw [jsonGetHexOrInt, hjson, hvalue, u16Of, stringOf_quoted]
    simp only [Option.bind_eq_bind, Option.bind_some, untilMark_append (quote_notMem_of_quoted h)]
  · have htake : parseU16 10 ((c :: t ++ rest).takeWhile Char.isDigit) = parseU16 10 (c :: t) := by
      by_cases hdigit : c.isDigit = true
      · have hnone : rest.takeWhile Char.isDigit = [] := by
          cases rest with
          | nil => rfl
          | cons d rest => exact List.takeWhile_cons_of_neg (by simp [(hrest d rfl).1])
        rw [List.takeWhile_append_of_pos (hdigits ⟨c, rfl, hdigit⟩), hnone, List.append_nil]
      · rw [Bool.not_eq_true] at hdigit
        rw [List.cons_append, List.takeWhile_cons_of_neg (by simp [hdigit]), parseU16_head hdigit hplus]
        rfl
    rw [jsonGetHexOrInt, hjson, u16Of, stringOf_head hc, ← htake, Option.bind_eq_bind, Option.bind_some]
    split
    · rename_i heq
      exact absurd (List.cons.inj heq).1 hc
    · rfl

/-! ### Members -/

lemma isJson_of_valueAt (hvalues : ∀ m ∈ ms, IsJson IsString m.value) (hv : valueAt ms key = some v) :
    IsJson IsString v := by
  obtain ⟨m, hm, rfl⟩ := Option.map_eq_some_iff.mp hv
  exact hvalues m (List.mem_of_find?_eq_some hm)

lemma Shows.cases (hs : Shows json ms key) : valueAt ms key = none ∧ jsonValue json key = none ∨
    ∃ v rest, valueAt ms key = some v ∧ jsonValue json key = some (v ++ rest) ∧ NoNumber rest := by
  rw [Shows] at hs
  cases hv : valueAt ms key with
  | none =>
    rw [hv] at hs
    exact .inl ⟨rfl, hs⟩
  | some v =>
    rw [hv] at hs
    obtain ⟨rest, hjson, hrest⟩ := hs
    exact .inr ⟨v, rest, rfl, hjson, hrest⟩

section Members

variable (hvalues : ∀ m ∈ ms, IsJson IsString m.value) (hs : Shows json ms key)

include hvalues hs

lemma Shows.string : jsonGetString json key = stringAt ms key := by
  rcases hs.cases with ⟨hv, hjson⟩ | ⟨v, rest, hv, hjson, -⟩
  · rw [jsonGetString, hjson, stringAt, hv]
    rfl
  · rw [jsonGetString_eq (isJson_of_valueAt hvalues hv) hjson, stringAt, hv, Option.bind_some]

lemma Shows.bool : jsonGetBool json key = (valueAt ms key).bind boolOf := by
  rcases hs.cases with ⟨hv, hjson⟩ | ⟨v, rest, hv, hjson, -⟩
  · rw [jsonGetBool, hjson, hv]
    rfl
  · rw [jsonGetBool_eq (isJson_of_valueAt hvalues hv) hjson, hv, Option.bind_some]

lemma Shows.u16 (hdigits : ∀ v, valueAt ms key = some v → Digits v) : jsonGetHexOrInt json key = u16At ms key := by
  rcases hs.cases with ⟨hv, hjson⟩ | ⟨v, rest, hv, hjson, hrest⟩
  · rw [jsonGetHexOrInt, hjson, u16At, hv]
    rfl
  · rw [jsonGetHexOrInt_eq (isJson_of_valueAt hvalues hv) hjson hrest (hdigits v hv), u16At, hv, Option.bind_some]

omit hvalues

lemma Shows.memory (hmemory : ∀ v, valueAt ms key = some v → ¬ NoNumber v → ∃ n, parseI64 v = some n ∧ 0 ≤ n ∧ n < 0x100000000) :
    ((asU32 ((jsonGetInt json key).getD 0)).toNat : ℤ) = ((valueAt ms key).bind parseI64).getD 0 := by
  rcases hs.cases with ⟨hv, hjson⟩ | ⟨v, rest, hv, hjson, hrest⟩
  · rw [jsonGetInt, hjson, hv]
    rfl
  · rw [jsonGetInt_eq hjson hrest fun hnumber => (hmemory v hv hnumber).imp fun _ => And.left, hv, Option.bind_some]
    by_cases hnumber : NoNumber v
    · rw [parseI64_of_noNumber hnumber]
      rfl
    · obtain ⟨n, hn, hlow, hhigh⟩ := hmemory v hv hnumber
      rw [hn, Option.getD_some, asU32, UInt32.toNat_ofNat']
      omega

end Members

lemma LegibleDetection.eq_detectionAt {dms : List Member} {body : Text} (h : LegibleDetection v dms body)
    (hjson : jsonValue json "detection".toList = some (v ++ rest)) : jsonGetDetection json = detectionAt dms := by
  have hvalue : v ++ rest = '{' :: (body ++ '}' :: rest) := by simp [h.eq, object]
  rw [jsonGetDetection, hjson, hvalue]
  simp only [untilMark_append h.brace, Option.bind_some, readDetection, h.bus.string h.members.values, detectionAt]
  by_cases hbus : (stringAt dms "bus".toList).getD [] = []
  · rw [if_pos hbus, if_pos hbus]
  · have hu16 (key : Text) (hkey : key ∈ numberKeys) : jsonGetHexOrInt body key = u16At dms key :=
      (h.numbers hbus key hkey).1.u16 h.members.values (h.numbers hbus key hkey).2
    rw [if_neg hbus, if_neg hbus, hu16 _ (by simp [numberKeys]), hu16 _ (by simp [numberKeys]),
      hu16 _ (by simp [numberKeys])]

lemma jsonGetDetection_other (hjson : jsonValue json "detection".toList = some (v ++ rest)) (hne : v ≠ [])
    (hv : isObject v = false) : jsonGetDetection json = none := by
  obtain ⟨c, t, rfl⟩ := List.exists_cons_of_ne_nil hne
  rw [jsonGetDetection, hjson]
  split
  · rename_i heq
    obtain rfl : c = '{' := (List.cons.inj (Option.some.inj heq)).1
    simp [isObject] at hv
  · rfl

/-- The fields that are read are those of the document. -/
lemma LegibleFields.fieldsOf (h : LegibleFields ms json) (hvalues : ∀ m ∈ ms, IsJson IsString m.value)
    {manifestType : ManifestType} {id : Text}
    (htype : (stringAt ms "type".toList).bind ManifestType.ofText = some manifestType)
    (hid : stringAt ms "id".toList = some id) : FieldsOf ms (readFields json manifestType id) := by
  have hstring (key : Text) (hkey : key ∈ optionalKeys) := (h.shown key hkey).string hvalues
  refine {
    manifestType := htype
    id := by rw [hid, readFields, String.toList_ofList]
    name := congrArg text (hstring _ (by simp [optionalKeys]))
    version := congrArg text (hstring _ (by simp [optionalKeys]))
    author := congrArg text (hstring _ (by simp [optionalKeys]))
    description := congrArg text (hstring _ (by simp [optionalKeys]))
    minOs := congrArg text (hstring _ (by simp [optionalKeys]))
    arch := congrArg text (hstring _ (by simp [optionalKeys]))
    entry := congrArg text (hstring _ (by simp [optionalKeys]))
    icon := congrArg text (hstring _ (by simp [optionalKeys]))
    permissions := ?_
    background := congrArg (Option.getD · false) ((h.shown _ (by simp [optionalKeys])).bool hvalues)
    minMemoryKb := (h.shown _ (by simp [optionalKeys])).memory h.memory
    halInterface := congrArg text (hstring _ (by simp [optionalKeys]))
    changelog := congrArg text (hstring _ (by simp [optionalKeys]))
    compatibleBoards := ?_
    detection := ?_ }
  · show ValueIs _ _ 0 _ (parsePermissions json)
    rcases (h.shown "permissions".toList (by simp [optionalKeys])).cases with ⟨hv, hjson⟩ | ⟨v, rest, hv, hjson, -⟩
    · rw [hv, show parsePermissions json = 0 by rw [parsePermissions, hjson]]
      exact .absent
    · have hvalue := isJson_of_valueAt hvalues hv
      rw [hv]
      cases hkind : (isArray v || isString v) with
      | false =>
        rw [parsePermissions_other hjson (ne_nil_of_isJson hvalue) hkind]
        exact .other hkind
      | true =>
        obtain ⟨names, hnames, hbracket, hentries⟩ := h.permissions v hv hkind
        exact .value hkind ⟨names, hnames, parsePermissions_eq hvalue hjson hnames hbracket hentries⟩
  · show ValueIs _ _ [] _ ((jsonGetStringArray json _).map String.ofList)
    rcases (h.shown "compatible_boards".toList (by simp [optionalKeys])).cases with ⟨hv, hjson⟩ | ⟨v, rest, hv, hjson, -⟩
    · rw [hv, show jsonGetStringArray json "compatible_boards".toList = [] by rw [jsonGetStringArray, hjson]]
      exact .absent
    · rw [hv]
      cases hkind : isArray v with
      | false =>
        rw [jsonGetStringArray_other hjson hkind (ne_nil_of_isJson (isJson_of_valueAt hvalues hv))]
        exact .other hkind
      | true =>
        obtain ⟨strings, hstrings, hbracket⟩ := h.boards v hv hkind
        rw [jsonGetStringArray_eq hjson hstrings hbracket]
        refine .value hkind ?_
        simpa [Function.comp_def] using hstrings
  · show ValueIs _ _ none _ (jsonGetDetection json)
    rcases (h.shown "detection".toList (by simp [optionalKeys])).cases with ⟨hv, hjson⟩ | ⟨v, rest, hv, hjson, -⟩
    · rw [hv, show jsonGetDetection json = none by rw [jsonGetDetection, hjson]]
      exact .absent
    · rw [hv]
      cases hkind : isObject v with
      | false =>
        rw [jsonGetDetection_other hjson (ne_nil_of_isJson (isJson_of_valueAt hvalues hv)) hkind]
        exact .other hkind
      | true =>
        obtain ⟨dms, body, hdetection⟩ := h.detection v hv hkind
        exact .value hkind ⟨dms, body, hdetection.eq, hdetection.members, hdetection.eq_detectionAt hjson⟩

/-- A manifest is read as its document says if the first place where a key stands in quotes is the one of the document
itself, and no mark within a value ends it. -/
theorem from_json_reads (ms : List Member) (body : Text) (h : ObjectOf IsString ms body)
    (hl : Legible ms (object body)) : Outcome ms (fromJson (object body)) := by
  rw [fromJson, hl.type.string h.values]
  cases htype : stringAt ms "type".toList with
  | none => exact .missingType htype
  | some typeStr =>
    cases hof : ManifestType.ofText typeStr with
    | none =>
      simp only [hof]
      exact .unknownType htype hof
    | some manifestType =>
      have hbind : (stringAt ms "type".toList).bind ManifestType.ofText = some manifestType := by
        rw [htype, Option.bind_some, hof]
      have hknown : (stringAt ms "type".toList).bind ManifestType.ofText ≠ none := by
        rw [hbind]
        exact Option.some_ne_none _
      simp only [hof, (hl.id hknown).string h.values]
      cases hid : stringAt ms "id".toList with
      | none => exact .missingId hid
      | some id => exact .read ((hl.fields hknown (hid ▸ Option.some_ne_none id)).fieldsOf h.values hbind hid)

lemma isJson_quoted (s : Text) (h : ∀ c ∈ s, Unescaped c) : IsJson IsString (quoted s) := .string (isString_of_unescaped h)

def app : List Member := [compact "type".toList (quoted "app".toList), compact "id".toList (quoted "a".toList)]

def appJson : Text := object "\"type\":\"app\",\"id\":\"a\"".toList

/-- A manifest with a type and an id. -/
theorem from_json_reads_app : Outcome app (fromJson appJson) := by
  have happ := isJson_quoted "app".toList (by simp [Unescaped])
  have ha := isJson_quoted "a".toList (by simp [Unescaped])
  have hobject := objectOf_compact (fun _ => id) [("type".toList, quoted "app".toList), ("id".toList, quoted "a".toList)] (by simp)
    (by simp [Unescaped]) (by simpa using ⟨happ, ha⟩)
  refine from_json_reads _ _ hobject ?_
  have hnone : ∀ key ∈ optionalKeys, valueAt app key = none ∧ jsonValue appJson key = none := by decide
  have habsent {key v : Text} (hkey : key ∈ optionalKeys) (hv : valueAt app key = some v) : False := by
    rw [(hnone key hkey).1] at hv
    cases hv
  refine ⟨⟨",\"id\":\"a\"\x7d".toList, by decide, by simp [NoNumber]⟩, fun _ => ⟨['\x7d'], by decide, by simp [NoNumber]⟩,
    fun _ _ => ?_⟩
  exact {
    shown := fun key hkey => by
      show Shows appJson app key
      rw [Shows, (hnone key hkey).1]
      exact (hnone key hkey).2
    memory := fun v hv => (habsent (by simp [optionalKeys]) hv).elim
    permissions := fun v hv => (habsent (by simp [optionalKeys]) hv).elim
    boards := fun v hv => (habsent (by simp [optionalKeys]) hv).elim
    detection := fun v hv => (habsent (by simp [optionalKeys]) hv).elim }

/-- A name in a nested object is taken for the name of the manifest. -/
theorem nested_name_is_read : ∃ ms body, ObjectOf IsString ms body ∧ valueAt ms "name".toList = none ∧
    (fromJson (object body)).toOption.map (fun m => m.name) = some "n" := by
  have happ := isJson_quoted "app".toList (by simp [Unescaped])
  have ha := isJson_quoted "a".toList (by simp [Unescaped])
  have hn := isJson_quoted "n".toList (by simp [Unescaped])
  have hsub := objectOf_compact (fun _ => id) [("name".toList, quoted "n".toList)] (by simp) (by simp [Unescaped])
    (by simpa using hn)
  have hvalue := IsJson.object hsub.members hsub.values hsub.listed
  have hobject := objectOf_compact (fun _ => id)
    [("type".toList, quoted "app".toList), ("sub".toList, _), ("id".toList, quoted "a".toList)] (by simp) (by simp [Unescaped])
    (by simpa using ⟨happ, hvalue, ha⟩)
  exact ⟨_, _, hobject, rfl, rfl⟩

end ThistleOS.Manifests
