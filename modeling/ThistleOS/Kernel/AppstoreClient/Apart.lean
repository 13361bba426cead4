import ThistleOS.Kernel.AppstoreClient.Catalog
import Mathlib.Data.List.Forall2

/-!
# Entries are kept apart

The records of a catalog are those of its entries, each read from the entry's own members, if no entry opens an object
behind its first closing brace and each key that is read first stands in quotes where the entry has it.
-/

open ThistleOS.MsgQueue (Text findAfter quoted trim trimStart stripColon jsonValue parseI64 isWhiteSpace findAfter_head
  findAfter_skip_mark findAfter_mark findAfter_no_mark)
open ThistleOS.Manifests (untilMark stringAt stringOf isString takeWhile_mark untilMark_append)
open ThistleOS.JsonText ThistleOS.Catalog

namespace ThistleOS.AppstoreClient

variable {e obj key v rest json : Text} {es : List Text} {ms : List Member} {mss : List (List Member)}

/-! ### What an entry says -/

/-- What the members of an entry say. -/
def ownFields (ms : List Member) : Fields where
  str := stringAt ms
  int key := (valueAt ms key).bind fun v => parseI64 (v.takeWhile isIntChar)
  float key := (valueAt ms key).map fun v => v.takeWhile isFloatChar
  array key := (valueAt ms key).bind fun v => if isArray v then joinStrings v.tail.dropLast else none
  detection := (valueAt ms "detection".toList).bind fun v => if isObject v then some v.tail.dropLast else none

def textKeys : List Text :=
  ["id".toList, "name".toList, "version".toList, "author".toList, "description".toList, "url".toList,
    "sig_url".toList, "sha256".toList, "permissions".toList, "min_os_version".toList, "package_url".toList,
    "package_sig_url".toList, "package_sha256".toList, "publisher_key_id".toList, "type".toList, "category".toList,
    "icon_url".toList, "changelog".toList, "updated".toList, "arch".toList]

def integerKeys : List Text :=
  ["size_bytes".toList, "package_size_bytes".toList, "release_sequence".toList, "rating_count".toList,
    "downloads".toList]

def arrayKeys : List Text := ["compatible_boards".toList, "screenshots".toList]

/-- Two readings that agree on the keys of the records. -/
structure Agree (f g : Fields) : Prop where
  str : ∀ key ∈ textKeys, f.str key = g.str key
  int : ∀ key ∈ integerKeys, f.int key = g.int key
  float : f.float "rating".toList = g.float "rating".toList
  array : ∀ key ∈ arrayKeys, f.array key = g.array key
  detection : f.detection = g.detection

lemma Agree.entry {f g : Fields} (h : Agree f g) (stars : Text → Option UInt16) : f.entry stars = g.entry stars := by
  have hstr (key : String) (hkey : key.toList ∈ textKeys) := h.str key.toList hkey
  have hint (key : String) (hkey : key.toList ∈ integerKeys) := h.int key.toList hkey
  simp only [Fields.entry, hstr "id" (by decide), hstr "name" (by decide), hstr "version" (by decide),
    hstr "author" (by decide), hstr "description" (by decide), hstr "url" (by decide), hstr "sig_url" (by decide),
    hstr "sha256" (by decide), hstr "permissions" (by decide), hstr "min_os_version" (by decide),
    hstr "package_url" (by decide), hstr "package_sig_url" (by decide), hstr "package_sha256" (by decide),
    hstr "publisher_key_id" (by decide), hstr "type" (by decide), hstr "category" (by decide),
    hstr "icon_url" (by decide), hstr "changelog" (by decide), hstr "updated" (by decide),
    hint "size_bytes" (by decide), hint "package_size_bytes" (by decide), hint "release_sequence" (by decide),
    hint "rating_count" (by decide), hint "downloads" (by decide), h.float, h.detection,
    h.array "compatible_boards".toList (by decide), h.array "screenshots".toList (by decide)]

lemma Agree.matchesArch {f g : Fields} (h : Agree f g) (currentArch : Text) :
    f.matchesArch currentArch = g.matchesArch currentArch := by
  rw [Fields.matchesArch, Fields.matchesArch, h.str "arch".toList (by decide)]

/-! ### Entries that can be read -/

/-- What the loop takes of an entry: the text up to the first closing brace. -/
def piece (e : Text) : Text := e.takeWhile (· ≠ '}') ++ ['}']

/-- The first place where the key stands in quotes is the entry's own; it is nowhere if the entry has no such
member. -/
def Stands (obj : Text) (ms : List Member) (key : Text) (reads : Text → Text → Prop) : Prop :=
  match valueAt ms key with
  | some v => ∃ rest, jsonValue obj key = some (v ++ rest) ∧
      (∀ c, rest.head? = some c → c ∈ [',', '}', ' ', '\t', '\n', '\r']) ∧ reads v rest
  | none => findAfter (quoted key) obj = none

/-- A text, or a value with nothing in quotes behind it. -/
def TextReads (v rest : Text) : Prop := isString v = true ∨ '"' ∉ v ++ rest

/-- An array whose strings have no bracket that closes, or a value with no array behind it. -/
def ArrayReads (v rest : Text) : Prop := isArray v = true ∧ ']' ∉ v.dropLast ∨ '[' ∉ v ++ rest

/-- An object without objects in it, or a value with no object behind it. -/
def ObjectReads (v rest : Text) : Prop := isObject v = true ∧ '}' ∉ v.dropLast ∨ '{' ∉ v ++ rest

/-- An entry that can be read, with its members. -/
structure Legible (e : Text) (ms : List Member) : Prop where
  members : ∃ body, e = object body ∧ ObjectOf IsString ms body
  opened : '{' ∉ e.dropWhile (· ≠ '}')
  texts : ∀ key ∈ textKeys, Stands (piece e) ms key TextReads
  integers : ∀ key ∈ integerKeys, Stands (piece e) ms key fun _ _ => True
  rating : Stands (piece e) ms "rating".toList fun _ _ => True
  arrays : ∀ key ∈ arrayKeys, Stands (piece e) ms key ArrayReads
  detection : Stands (piece e) ms "detection".toList ObjectReads

/-- The document has the entries in an array, at its top or behind its first "entries", and no object comes after
the array. -/
inductive EntriesArray (json : Text) (es : List Text) : Prop
  | array (h : IsArrayCatalog json es) (hkey : ¬ EntriesKey json)
  | entries {items after : Text} (hjson : catalogEntriesJson json = items ++ ']' :: after) (h : Listed es items)
    (hafter : '{' ∉ after)

/-! ### Marks -/

lemma takeWhile_ends {p : Char → Bool} (hp : ∀ c, rest.head? = some c → p c = false) (v : Text) :
    (v ++ rest).takeWhile p = v.takeWhile p := by
  induction v with
  | nil =>
    cases rest with
    | nil => rfl
    | cons c rest =>
      have hc := hp c rfl
      simp [hc]
  | cons c v ih => rw [List.cons_append, List.takeWhile_cons, List.takeWhile_cons, ih]

/-! ### Values -/

/-- A value stands behind a colon and white space. -/
lemma jsonValue_cases {x : Text} (h : jsonValue obj key = some x) :
    ∃ w w', (∀ c ∈ w, isWhiteSpace c = true) ∧ (∀ c ∈ w', isWhiteSpace c = true) ∧ trimStart x = x ∧
      findAfter (quoted key) obj = some (w ++ ':' :: (w' ++ x)) := by
  rw [jsonValue, Option.bind_eq_bind, Option.bind_eq_some_iff] at h
  obtain ⟨a, ha, h⟩ := h
  obtain ⟨b, hb, h⟩ := Option.bind_eq_some_iff.mp h
  obtain rfl := Option.some.inj h
  have hcolon : trimStart a = ':' :: b := by
    cases htrim : trimStart a with
    | nil =>
      rw [htrim] at hb
      cases hb
    | cons c t =>
      rw [htrim] at hb
      unfold stripColon at hb
      split at hb
      · rename_i heq
        rw [heq, Option.some.inj hb]
      · cases hb
  refine ⟨a.takeWhile isWhiteSpace, b.takeWhile isWhiteSpace, fun c hc => List.mem_takeWhile_imp hc,
    fun c hc => List.mem_takeWhile_imp hc, ?_, ?_⟩
  · exact List.dropWhile_idempotent isWhiteSpace b
  · rw [trimStart, List.takeWhile_append_dropWhile, ← hcolon, trimStart, List.takeWhile_append_dropWhile, ha]

lemma notMem_white {w : Text} {mark : Char} (hw : ∀ c ∈ w, isWhiteSpace c = true)
    (hmark : isWhiteSpace mark = false) : mark ∉ w := fun h => by
  have hwhite := hw mark h
  rw [hmark] at hwhite
  cases hwhite

/-- A mark that is looked for behind a key is looked for in its value. -/
lemma findAfter_value {x : Text} (h : jsonValue obj key = some x) {mark : Char} (hmark : isWhiteSpace mark = false)
    (hcolon : mark ≠ ':') : (findAfter (quoted key) obj).bind (findAfter [mark]) = findAfter [mark] x := by
  obtain ⟨w, w', hw, hw', -, hkey⟩ := jsonValue_cases h
  rw [hkey, Option.bind_some, findAfter_skip_mark (notMem_white hw hmark)]
  have hskip : mark ∉ ':' :: w' := by
    rw [List.mem_cons, not_or]
    exact ⟨hcolon, notMem_white hw' hmark⟩
  exact findAfter_skip_mark hskip x

lemma numStr_value {p : Char → Bool} {x : Text} (h : jsonValue obj key = some x) :
    numStr p obj key = some (x.takeWhile p) := by
  obtain ⟨w, w', hw, hw', htrim, hkey⟩ := jsonValue_cases h
  have hspace : trimStart (w' ++ x) = x := by
    rw [trimStart, List.dropWhile_append_of_pos hw']
    exact htrim
  have hcolon : ':' ∉ w := notMem_white hw (by decide)
  simp only [numStr, hkey, Option.bind_eq_bind, Option.bind_some, findAfter_mark hcolon, hspace, Option.pure_def]

/-! ### Values of the kinds -/

lemma isJson_of_mem (hvalues : ∀ m ∈ ms, IsJson IsString m.value) (hv : valueAt ms key = some v) :
    IsJson IsString v := by
  rw [valueAt, Option.map_eq_some_iff] at hv
  obtain ⟨m, hm, rfl⟩ := hv
  exact hvalues m (List.mem_of_find?_eq_some hm)

/-- The first character of a value tells its kind. -/
lemma value_kinds (h : IsJson IsString v) : (∃ s, v = quoted s ∧ '"' ∉ s) ∨ (∃ body, v = array body) ∨
    (∃ body, v = object body) ∨ ∃ c t, v = c :: t ∧ c ∉ ['"', '[', '{'] := by
  cases h with
  | string h =>
    obtain ⟨s, hs, rfl⟩ := h
    exact .inl ⟨s, rfl, fun hmem => (hs _ hmem).1 rfl⟩
  | scalar h =>
    obtain ⟨c, t, rfl⟩ := List.exists_cons_of_ne_nil (Manifests.ne_nil_of_isJson (.scalar h))
    have hquiet := h.quiet List.mem_cons_self
    refine .inr (.inr (.inr ⟨c, t, rfl, fun hmem => hquiet ?_⟩))
    simp only [List.mem_cons, List.not_mem_nil, or_false] at hmem
    rcases hmem with rfl | rfl | rfl <;> simp
  | array hts h => exact .inr (.inl ⟨_, rfl⟩)
  | object hms hvalues h => exact .inr (.inr (.inl ⟨_, rfl⟩))

lemma quoted_of_isString (h : IsJson IsString v) (hv : isString v = true) : ∃ s, v = quoted s ∧ '"' ∉ s := by
  rcases value_kinds h with hs | ⟨body, rfl⟩ | ⟨body, rfl⟩ | ⟨c, t, rfl, hc⟩
  · exact hs
  · simp [isString, array] at hv
  · simp [isString, object] at hv
  · simp_all [isString]

lemma array_of_isArray (h : IsJson IsString v) (hv : isArray v = true) : ∃ body, v = array body := by
  rcases value_kinds h with ⟨s, rfl, -⟩ | hbody | ⟨body, rfl⟩ | ⟨c, t, rfl, hc⟩
  · simp [isArray, quoted] at hv
  · exact hbody
  · simp [isArray, object] at hv
  · simp_all [isArray]

lemma object_of_isObject (h : IsJson IsString v) (hv : isObject v = true) : ∃ body, v = object body := by
  rcases value_kinds h with ⟨s, rfl, -⟩ | ⟨body, rfl⟩ | hbody | ⟨c, t, rfl, hc⟩
  · simp [isObject, quoted] at hv
  · simp [isObject, array] at hv
  · exact hbody
  · simp_all [isObject]

/-! ### The readings agree -/

lemma str_agree (hvalues : ∀ m ∈ ms, IsJson IsString m.value) (h : Stands obj ms key TextReads) :
    jsonStrExtract obj key = stringAt ms key := by
  rw [Stands] at h
  rw [jsonStrExtract, stringAt]
  cases hv : valueAt ms key with
  | none =>
    rw [hv] at h
    rw [h]
    rfl
  | some v =>
    rw [hv] at h
    obtain ⟨rest, hvalue, -, hreads⟩ := h
    have hafter := @findAfter_value obj key _ hvalue '"' (by decide) (by decide)
    have hextract : jsonStrExtract obj key = (findAfter ['"'] (v ++ rest)).bind (untilMark '"') := by
      rw [← hafter, jsonStrExtract, Option.bind_assoc]
      rfl
    rw [jsonStrExtract] at hextract
    rw [hextract, Option.bind_some]
    rcases hreads with hstring | hquote
    · obtain ⟨s, rfl, hs⟩ := quoted_of_isString (isJson_of_mem hvalues hv) hstring
      have hsplit : quoted s ++ rest = '"' :: (s ++ '"' :: rest) := by simp [quoted]
      rw [hsplit, findAfter_head, Option.bind_some, untilMark_append hs]
      simp [stringOf, quoted]
    · rw [findAfter_no_mark hquote, Option.bind_none]
      unfold stringOf
      split
      · simp at hquote
      · rfl

/-- The characters of a number are those of the value. -/
lemma numStr_agree {p : Char → Bool} (hp : ∀ c ∈ [',', '}', ' ', '\t', '\n', '\r'], p c = false)
    (h : Stands obj ms key fun _ _ => True) : numStr p obj key = (valueAt ms key).map fun v => v.takeWhile p := by
  rw [Stands] at h
  cases hv : valueAt ms key with
  | none =>
    rw [hv] at h
    rw [numStr, h]
    rfl
  | some v =>
    rw [hv] at h
    obtain ⟨rest, hvalue, hends, -⟩ := h
    rw [numStr_value hvalue, takeWhile_ends fun c hc => hp c (hends c hc), Option.map_some]

lemma int_agree (h : Stands obj ms key fun _ _ => True) : jsonIntExtract obj key = (ownFields ms).int key := by
  rw [jsonIntExtract, numStr_agree (by simp [isIntChar]) h, Option.bind_map]
  rfl

lemma float_agree (h : Stands obj ms key fun _ _ => True) : numStr isFloatChar obj key = (ownFields ms).float key :=
  numStr_agree (by simp [isFloatChar]) h

/-- What stands between two marks is that of the value, or nowhere. -/
lemma between_agree {opening closer : Char} {kind : Text → Bool} (hopening : isWhiteSpace opening = false)
    (hcolon : opening ≠ ':')
    (hkind : ∀ v, IsJson IsString v → kind v = true → ∃ body, v = opening :: body ++ [closer])
    (hother : ∀ v, kind v = true → opening ∈ v) (hvalues : ∀ m ∈ ms, IsJson IsString m.value)
    (h : Stands obj ms key fun v rest => kind v = true ∧ closer ∉ v.dropLast ∨ opening ∉ v ++ rest) :
    ((findAfter (quoted key) obj).bind (findAfter [opening])).bind (untilMark closer) =
      (valueAt ms key).bind fun v => if kind v then some v.tail.dropLast else none := by
  rw [Stands] at h
  cases hv : valueAt ms key with
  | none =>
    rw [hv] at h
    rw [h]
    rfl
  | some v =>
    rw [hv] at h
    obtain ⟨rest, hvalue, -, hreads⟩ := h
    rw [findAfter_value hvalue hopening hcolon, Option.bind_some]
    rcases hreads with ⟨hv', hcloser⟩ | hno
    · obtain ⟨body, rfl⟩ := hkind v (isJson_of_mem hvalues hv) hv'
      rw [List.dropLast_concat] at hcloser
      have hbody : closer ∉ body := fun hmem => hcloser (List.mem_cons_of_mem _ hmem)
      have hsplit : opening :: body ++ [closer] ++ rest = opening :: (body ++ closer :: rest) := by simp
      rw [hsplit, findAfter_head, Option.bind_some, untilMark_append hbody, if_pos hv']
      simp
    · have hv' : ¬ kind v = true := fun hv' => hno (List.mem_append_left rest (hother v hv'))
      rw [findAfter_no_mark hno, if_neg hv']
      rfl

lemma head_mem {mark : Char} (h : (v.head? == some mark) = true) : mark ∈ v := by
  rw [beq_iff_eq] at h
  exact List.mem_of_mem_head? h

lemma array_agree (hvalues : ∀ m ∈ ms, IsJson IsString m.value) (h : Stands obj ms key ArrayReads) :
    jsonArrayExtract obj key = (ownFields ms).array key := by
  have hinner := between_agree (by decide) (by decide) (fun v => array_of_isArray) (fun v => head_mem) hvalues h
  have hextract : jsonArrayExtract obj key =
      (((findAfter (quoted key) obj).bind (findAfter ['['])).bind (untilMark ']')).bind joinStrings := by
    rw [Option.bind_assoc, Option.bind_assoc]
    rfl
  rw [hextract, hinner, Option.bind_assoc]
  refine congrArg _ (funext fun v => ?_)
  split_ifs
  · rfl
  · rfl

lemma detection_agree (hvalues : ∀ m ∈ ms, IsJson IsString m.value)
    (h : Stands obj ms "detection".toList ObjectReads) : detectionInner obj = (ownFields ms).detection := by
  have hinner := between_agree (by decide) (by decide) (fun v => object_of_isObject) (fun v => head_mem) hvalues h
  rw [Option.bind_assoc] at hinner
  exact hinner

lemma Legible.agree (h : Legible e ms) : Agree (extracted (piece e)) (ownFields ms) := by
  obtain ⟨body, -, hmembers⟩ := h.members
  exact {
    str := fun key hkey => str_agree hmembers.values (h.texts key hkey)
    int := fun key hkey => int_agree (h.integers key hkey)
    float := float_agree h.rating
    array := fun key hkey => array_agree hmembers.values (h.arrays key hkey)
    detection := detection_agree hmembers.values h.detection }

/-! ### The loop -/

/-- The loop takes the first piece of an entry and nothing else of it. -/
lemma catalogObjects_entry (h : Legible e ms) (rest : Text) :
    catalogObjects none (e ++ rest) = piece e :: catalogObjects none rest := by
  obtain ⟨body, he, -⟩ := h.members
  have hopened := h.opened
  have hmem : '}' ∈ body ++ ['}'] := List.mem_append_right _ List.mem_cons_self
  obtain ⟨s, w, hsplit, hs⟩ := List.eq_append_cons_of_mem hmem
  have he' : e = ('{' :: s) ++ '}' :: w := by rw [he, object, List.cons_append, hsplit, List.cons_append]
  have hs' : '}' ∉ '{' :: s := by simpa using hs
  have hpiece : piece e = '{' :: s ++ ['}'] := by rw [piece, he', takeWhile_mark hs']
  have hrest : '{' ∉ w := by
    have hdrop : (('{' :: s) ++ '}' :: w).dropWhile (· ≠ '}') = '}' :: w := by
      rw [List.dropWhile_append_of_pos fun c hc => ?_]
      · simp
      · rw [decide_eq_true_eq]
        rintro rfl
        exact hs' hc
    rw [he', hdrop, List.mem_cons, not_or] at hopened
    exact hopened.2
  have hall : e ++ rest = '{' :: s ++ '}' :: (w ++ rest) := by rw [he', List.append_assoc]; rfl
  rw [hpiece, hall, catalogObjects_braces hs, catalogObjects_skip hrest]

lemma catalogObjects_entries {items : Text} (h : Listed es items) (hentries : List.Forall₂ Legible es mss) {tail : Text}
    (htail : catalogObjects none tail = []) : catalogObjects none (items ++ tail) = es.map piece := by
  induction h generalizing mss with
  | nil hw => rw [catalogObjects_white hw, htail, List.map_nil]
  | singleton hw hw' =>
    cases hentries with
    | cons he _ =>
      rw [List.append_assoc, List.append_assoc, catalogObjects_white hw, catalogObjects_entry he,
        catalogObjects_white hw', htail, List.map_singleton]
  | cons hw hw' hrest ih =>
    cases hentries with
    | cons he hes =>
      rename_i w t w' u ts rest ms mss
      have hcomma : catalogObjects none (',' :: (rest ++ tail)) = catalogObjects none (rest ++ tail) :=
        @catalogObjects_skip [','] (by decide) _
      have hsplit : w ++ t ++ w' ++ ',' :: rest ++ tail = w ++ (t ++ (w' ++ ',' :: (rest ++ tail))) := by simp
      rw [hsplit, catalogObjects_white hw, catalogObjects_entry he, catalogObjects_white hw', hcomma, ih hes]
      rfl

lemma catalogEntryObjects_eq (h : EntriesArray json es) (hentries : List.Forall₂ Legible es mss) :
    catalogEntryObjects json = es.map piece := by
  rw [catalogEntryObjects]
  cases h with
  | array h hkey =>
    obtain ⟨w, t, w', hw, hw', ⟨-, items, hitems, rfl⟩, rfl⟩ := h
    rcases catalogEntriesJson_cases (w ++ ('[' :: items ++ [']']) ++ w') with ⟨-, heq⟩ | ⟨hkey', -⟩
    · have hsplit : w ++ ('[' :: items ++ [']']) ++ w' = w ++ (['['] ++ (items ++ ']' :: w')) := by simp
      rw [heq, hsplit, catalogObjects_white hw, catalogObjects_skip (by decide)]
      exact catalogObjects_entries hitems hentries (catalogObjects_bracket hw')
    · exact absurd hkey' hkey
  | entries hjson h hafter =>
    rename_i items after
    have htail : catalogObjects none (']' :: after) = [] := by
      have hskip := @catalogObjects_skip (']' :: after) (by simp [hafter]) []
      rw [List.append_nil] at hskip
      rw [hskip]
      rfl
    rw [hjson]
    exact catalogObjects_entries h hentries htail

/-- The records that are counted. -/
lemma parseEntries_eq (currentArch : Text) (stars : Text → Option UInt16) (room : ℕ) (objs : List Text) :
    parseEntries currentArch stars room objs =
      ((((objs.map extracted).filter fun own => own.matchesArch currentArch).map fun own =>
        own.entry stars).filter fun entry => firstByte entry.id ≠ 0).take room := by
  induction objs generalizing room with
  | nil => cases room <;> simp [parseEntries]
  | cons obj objs ih =>
    cases room with
    | zero => simp [parseEntries]
    | succ room =>
      rw [parseEntries, List.map_cons]
      by_cases harch : (extracted obj).matchesArch currentArch = true
      · rw [if_pos harch, List.filter_cons_of_pos harch, List.map_cons]
        by_cases hid : firstByte ((extracted obj).entry stars).id ≠ 0
        · rw [List.filter_cons_of_pos (by simpa using hid), List.take_succ_cons, ← ih]
          simp only [if_pos hid]
        · rw [List.filter_cons_of_neg (by simpa using hid), ← ih]
          simp only [if_neg hid]
      · rw [if_neg harch, List.filter_cons_of_neg harch, ih]

/-- Readings that agree give the same records. -/
lemma records_congr {fs gs : List Fields} (h : List.Forall₂ Agree fs gs) (currentArch : Text)
    (stars : Text → Option UInt16) :
    (fs.filter fun own => own.matchesArch currentArch).map (fun own => own.entry stars) =
      (gs.filter fun own => own.matchesArch currentArch).map fun own => own.entry stars := by
  induction h with
  | nil => rfl
  | cons hfg _ ih =>
    rw [List.filter_cons, List.filter_cons, hfg.matchesArch currentArch]
    split_ifs
    · rw [List.map_cons, List.map_cons, hfg.entry stars, ih]
    · exact ih

lemma isValue_of_isJson (h : IsJson IsString v) : IsValue v := by
  induction h with
  | string h => exact .string h
  | scalar h => exact .scalar h
  | array hts h ih => exact .array ih h
  | object hms hvalues h ih =>
    exact .object (fun m hm => ⟨(hms m hm).key, (hms m hm).beforeColon, (hms m hm).afterColon⟩) ih h

/-- An entry of compact members. -/
def compactEntry (ms : List (Text × Text)) : Text :=
  object ([','].intercalate ((ms.map fun m => compact m.1 m.2).map Member.text))

lemma objectOf_compactEntry (ms : List (Text × Text)) (hne : ms ≠ []) (hkeys : ∀ m ∈ ms, ∀ c ∈ m.1, Unescaped c)
    (hvalues : ∀ m ∈ ms, IsJson IsString m.2) :
    ∃ body, compactEntry ms = object body ∧ ObjectOf IsString (ms.map fun m => compact m.1 m.2) body :=
  ⟨_, rfl, objectOf_compact (fun _ h => h) ms hne hkeys hvalues⟩

lemma isArrayCatalog_of_members (h : ∃ body, e = object body ∧ ObjectOf IsString ms body) :
    IsArrayCatalog (singleCatalog e) [e] := by
  obtain ⟨body, rfl, hmembers⟩ := h
  refine isArrayCatalog_singleCatalog ⟨ms, body, fun m hm => ?_, fun m hm => isValue_of_isJson (hmembers.values m hm),
    hmembers.listed, rfl⟩
  have hspelled := hmembers.members m hm
  exact ⟨hspelled.key, hspelled.beforeColon, hspelled.afterColon⟩

lemma stands_of_absent {reads : Text → Text → Prop} (h : valueAt ms key = none ∧ findAfter (quoted key) obj = none) :
    Stands obj ms key reads := by
  rw [Stands, h.1]
  exact h.2

lemma stands_of_value {reads : Text → Text → Prop} (hv : valueAt ms key = some v)
    (hvalue : jsonValue obj key = some (v ++ rest))
    (hends : ∀ c, rest.head? = some c → c ∈ [',', '}', ' ', '\t', '\n', '\r']) (hreads : reads v rest) :
    Stands obj ms key reads := by
  rw [Stands, hv]
  exact ⟨rest, hvalue, hends, hreads⟩

/-- The description of a device on a bus. -/
def busObject : Text := compactEntry [("bus".toList, quoted "i2c".toList)]

/-- A driver whose entry ends with how its device is detected. -/
def driverMembers : List (Text × Text) := [("id".toList, quoted "rtc".toList), ("detection".toList, busObject)]

lemma isJson_quoted {s : String} (h : ∀ c ∈ s.toList, Unescaped c) : IsJson IsString (quoted s.toList) :=
  .string (isString_of_unescaped h)

lemma legible_driver : Legible (compactEntry driverMembers) (driverMembers.map fun m => compact m.1 m.2) where
  members := by
    refine objectOf_compactEntry _ (by decide) (by simp [driverMembers, Unescaped]) ?_
    obtain ⟨body, hbody, hmembers⟩ := objectOf_compactEntry [("bus".toList, quoted "i2c".toList)] (by decide)
      (by simp [Unescaped]) (by simpa using @isJson_quoted "i2c" (by simp [Unescaped]))
    have hbus : IsJson IsString busObject := by
      rw [busObject, hbody]
      exact .object hmembers.members hmembers.values hmembers.listed
    simpa [driverMembers, hbus] using @isJson_quoted "rtc" (by simp [Unescaped])
  opened := by decide
  texts key hkey := by
    have habsent : ∀ key ∈ textKeys, key ≠ "id".toList →
        valueAt (driverMembers.map fun m => compact m.1 m.2) key = none ∧
        findAfter (quoted key) (piece (compactEntry driverMembers)) = none := by decide
    by_cases hid : key = "id".toList
    · subst hid
      exact @stands_of_value _ _ (quoted "rtc".toList) (",\"detection\":\x7b\"bus\":\"i2c\"\x7d".toList) _ _
        (by decide) (by decide) (by simp) (.inl rfl)
    · exact stands_of_absent (habsent key hkey hid)
  integers key hkey := by
    have habsent : ∀ key ∈ integerKeys, valueAt (driverMembers.map fun m => compact m.1 m.2) key = none ∧
        findAfter (quoted key) (piece (compactEntry driverMembers)) = none := by decide
    exact stands_of_absent (habsent key hkey)
  rating := stands_of_absent (by decide)
  arrays key hkey := by
    have habsent : ∀ key ∈ arrayKeys, valueAt (driverMembers.map fun m => compact m.1 m.2) key = none ∧
        findAfter (quoted key) (piece (compactEntry driverMembers)) = none := by decide
    exact stands_of_absent (habsent key hkey)
  detection := @stands_of_value _ _ busObject [] _ _ (by decide) (by decide) (by simp) (.inl (by decide))

/-- An entry without a name. -/
def namelessMembers : List (Text × Text) :=
  [("id".toList, quoted "rtc".toList), ("name".toList, "null".toList), ("version".toList, quoted "1".toList)]

end ThistleOS.AppstoreClient
