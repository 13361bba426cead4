import ThistleOS.JsonText

/-!
# JSON documents

The grammar of JSON for any notion of a string, with the members of an object and the items of an
array at hand. A key is looked up among the members of the object itself.
-/

namespace ThistleOS.JsonText

/-! ### Strings -/

def hexDigits : List Char := "0123456789abcdefABCDEF".toList

/-- What stands between the quotes of a string. -/
inductive Inside : List Char → Prop
  | nil : Inside []
  | char {c s} (hc : Unescaped c) (hs : Inside s) : Inside (c :: s)
  | escape {c s} (hc : c ∈ ['"', '\\', '/', 'b', 'f', 'n', 'r', 't']) (hs : Inside s) : Inside ('\\' :: c :: s)
  | unicode {ds s} (hlength : ds.length = 4) (hds : ds ⊆ hexDigits) (hs : Inside s) : Inside ('\\' :: 'u' :: ds ++ s)

/-- A string, with or without escape sequences. -/
def IsText (t : List Char) : Prop := ∃ s, Inside s ∧ t = '"' :: s ++ ['"']

lemma inside_of_unescaped {s : List Char} (h : ∀ c ∈ s, Unescaped c) : Inside s := by
  induction s with
  | nil => exact .nil
  | cons c s ih => exact .char (h c List.mem_cons_self) (ih fun c' hc' => h c' (List.mem_cons_of_mem c hc'))

lemma IsString.isText {t : List Char} (h : IsString t) : IsText t := by
  obtain ⟨s, hs, rfl⟩ := h
  exact ⟨s, inside_of_unescaped hs, rfl⟩

/-- The characters that are written with a backslash, by what stands behind it. -/
def escapes : List (Char × Char) :=
  [('"', '"'), ('\\', '\\'), ('/', '/'), ('b', '\x08'), ('f', '\x0c'), ('n', '\n'), ('r', '\r'), ('t', '\t')]

def hexValue (c : Char) : Nat :=
  if c.isDigit then c.toNat - '0'.toNat else if 'a' ≤ c then c.toNat - 'a'.toNat + 10 else c.toNat - 'A'.toNat + 10

/-- The code unit of four hexadecimal digits. -/
def codeUnit (ds : List Char) : Nat := ds.foldl (fun n d => 16 * n + hexValue d) 0

/-- What stands between the quotes of a string spells a text. -/
inductive Spells : List Char → List Char → Prop
  | nil : Spells [] []
  | char {c raw s} (hc : Unescaped c) (h : Spells raw s) : Spells (c :: raw) (c :: s)
  | escape {e c raw s} (hc : (e, c) ∈ escapes) (h : Spells raw s) : Spells ('\\' :: e :: raw) (c :: s)
  | unicode {ds raw s} (hlength : ds.length = 4) (hds : ds ⊆ hexDigits) (hunit : (codeUnit ds).isValidChar)
    (h : Spells raw s) : Spells ('\\' :: 'u' :: ds ++ raw) (Char.ofNat (codeUnit ds) :: s)
  | pair {ds ds' raw s} (hlength : ds.length = 4) (hds : ds ⊆ hexDigits) (hlength' : ds'.length = 4)
    (hds' : ds' ⊆ hexDigits) (hhigh : 0xD800 ≤ codeUnit ds ∧ codeUnit ds < 0xDC00)
    (hlow : 0xDC00 ≤ codeUnit ds' ∧ codeUnit ds' < 0xE000) (h : Spells raw s) :
    Spells ('\\' :: 'u' :: ds ++ '\\' :: 'u' :: ds' ++ raw)
      (Char.ofNat (0x10000 + (codeUnit ds - 0xD800) * 0x400 + (codeUnit ds' - 0xDC00)) :: s)

lemma spells_of_unescaped {s : List Char} (h : ∀ c ∈ s, Unescaped c) : Spells s s := by
  induction s with
  | nil => exact .nil
  | cons c s ih => exact .char (h c List.mem_cons_self) (ih fun c' hc' => h c' (List.mem_cons_of_mem c hc'))

/-! ### Values -/

/-- A member whose key is a string. -/
structure Member.Spelled (str : List Char → Prop) (m : Member) : Prop where
  key : str m.key
  beforeColon : White m.beforeColon
  afterColon : White m.afterColon

inductive IsJson (str : List Char → Prop) : List Char → Prop
  | string {t} (h : str t) : IsJson str t
  | scalar {t} (h : IsScalar t) : IsJson str t
  | array {ts body} (hts : ∀ t ∈ ts, IsJson str t) (h : Listed ts body) : IsJson str ('[' :: body ++ [']'])
  | object {ms : List Member} {body} (hms : ∀ m ∈ ms, m.Spelled str) (hvalues : ∀ m ∈ ms, IsJson str m.value)
    (h : Listed (ms.map Member.text) body) : IsJson str ('{' :: body ++ ['}'])

def object (body : List Char) : List Char := '{' :: body ++ ['}']

def array (items : List Char) : List Char := '[' :: items ++ [']']

/-- The items of an array. -/
structure ArrayOf (str : List Char → Prop) (ts : List (List Char)) (body : List Char) : Prop where
  items : ∀ t ∈ ts, IsJson str t
  listed : Listed ts body

/-- The members of an object. -/
structure ObjectOf (str : List Char → Prop) (ms : List Member) (body : List Char) : Prop where
  members : ∀ m ∈ ms, m.Spelled str
  values : ∀ m ∈ ms, IsJson str m.value
  listed : Listed (ms.map Member.text) body

/-! ### Compact documents -/

/-- A member without white space. -/
def compact (key value : List Char) : Member := ⟨'"' :: key ++ ['"'], [], [], value⟩

lemma white_nil : White [] := fun _ h => absurd h List.not_mem_nil

lemma isString_of_unescaped {s : List Char} (h : ∀ c ∈ s, Unescaped c) : IsString ('"' :: s ++ ['"']) := ⟨s, h, rfl⟩

lemma compact_spelled {str : List Char → Prop} {key : List Char} (h : str ('"' :: key ++ ['"'])) (value : List Char) :
    (compact key value).Spelled str := ⟨h, white_nil, white_nil⟩

lemma listed_singleton (t : List Char) : Listed [t] t := by
  simpa using Listed.singleton (t := t) white_nil white_nil

lemma listed_intercalate {ts : List (List Char)} (h : ts ≠ []) : Listed ts ([','].intercalate ts) := by
  induction ts with
  | nil => exact absurd rfl h
  | cons t ts ih =>
    cases ts with
    | nil => simpa using listed_singleton t
    | cons u ts => simpa using Listed.cons (t := t) white_nil white_nil (ih (List.cons_ne_nil u ts))

lemma objectOf_compact {str : List Char → Prop} (hstr : ∀ t, IsString t → str t) (ms : List (List Char × List Char))
    (hne : ms ≠ []) (hkeys : ∀ m ∈ ms, ∀ c ∈ m.1, Unescaped c) (hvalues : ∀ m ∈ ms, IsJson str m.2) :
    ObjectOf str (ms.map fun m => compact m.1 m.2)
      ([','].intercalate ((ms.map fun m => compact m.1 m.2).map Member.text)) := by
  refine ⟨fun m' hm' => ?_, fun m' hm' => ?_, listed_intercalate (by simpa using hne)⟩
  all_goals obtain ⟨m, hm, rfl⟩ := List.mem_map.mp hm'
  · exact compact_spelled (hstr _ (isString_of_unescaped (hkeys m hm))) m.2
  · exact hvalues m hm

lemma isJson_emptyObject {str : List Char → Prop} : IsJson str (object []) :=
  @IsJson.object str [] [] (by simp) (by simp) (.nil white_nil)

/-! ### Looking up -/

/-- The value of a key among the members. -/
def valueAt (ms : List Member) (key : List Char) : Option (List Char) :=
  (ms.find? fun m => m.key == '"' :: key ++ ['"']).map Member.value

/-- A value that is an object. -/
def isObject (t : List Char) : Bool := t.head? == some '{'

/-- A value that is an array. -/
def isArray (t : List Char) : Bool := t.head? == some '['

end ThistleOS.JsonText
