import ThistleOS.Recovery.Catalog.Objects

/-!
# The entries that the app store reads

The app store takes an object to end at the first brace that closes anything, and looks for the
entries behind the first `"entries"` of the document. It finds what Recovery finds in an array whose
objects have no closing brace inside them and whose text has no such key to be misled by.
-/

open ThistleOS.MsgQueue (Text findAfter quoted)
open ThistleOS.JsonText
open ThistleOS.Catalog

namespace ThistleOS.AppstoreClient

variable {s t w : Text} {es : List Text} {json body : Text}

/-- The document from its entries on. The bracket is searched for from the key on, which has none. -/
def catalogEntriesJson (json : Text) : Text :=
  match findAfter (quoted "entries".toList) json with
  | some rest => (findAfter ['['] rest).getD json
  | none => json

/-- The objects that the loop takes from the text: `obj` is what it has of one so far. -/
def catalogObjects : Option Text → Text → List Text
  | _, [] => []
  | none, c :: cursor =>
    if c = '{' then catalogObjects (some [c]) cursor else catalogObjects none cursor
  | some obj, c :: cursor =>
    if c = '}' then (obj ++ [c]) :: catalogObjects none cursor
    else catalogObjects (some (obj ++ [c])) cursor

/-- The objects of a document, from which the entries are read. -/
def catalogEntryObjects (json : Text) : List Text := catalogObjects none (catalogEntriesJson json)

/-- The entries of a document. What is read from an object depends on nothing but its text; it is
nothing if the object is for another chip, has no id or is of another category. -/
def parseCatalogEntries {α : Type} (entry : Text → Option α) (json : Text) : List α :=
  (catalogEntryObjects json).filterMap entry

/-- Recovery finds the entries of the catalog, and the app store the same ones. -/
def SameEntries (json : Text) (es : List Text) : Prop :=
  iterJsonObjects json = es ∧ catalogEntryObjects json = es

/-- An object that no closing brace ends early. -/
def Flat (e : Text) : Prop := '}' ∉ e.dropLast

/-- A place in a text that looks like the start of the entries. -/
def EntriesKey (json : Text) : Prop :=
  ∃ before between after, json = before ++ quoted "entries".toList ++ between ++ '[' :: after

/-! ### Objects -/

lemma catalogObjects_skip (hs : '{' ∉ s) (rest : Text) :
    catalogObjects none (s ++ rest) = catalogObjects none rest := by
  induction s with
  | nil => rfl
  | cons c s ih =>
    rw [List.mem_cons, not_or] at hs
    rw [List.cons_append, catalogObjects, if_neg (Ne.symm hs.1)]
    exact ih hs.2

lemma catalogObjects_white (h : White w) (rest : Text) :
    catalogObjects none (w ++ rest) = catalogObjects none rest :=
  catalogObjects_skip (h.not_mem (by simp [Quiet])) rest

lemma catalogObjects_close (hs : '}' ∉ s) (obj rest : Text) :
    catalogObjects (some obj) (s ++ '}' :: rest) = (obj ++ s ++ ['}']) :: catalogObjects none rest := by
  induction s generalizing obj with
  | nil => simp [catalogObjects]
  | cons c s ih =>
    rw [List.mem_cons, not_or] at hs
    rw [List.cons_append, catalogObjects, if_neg (Ne.symm hs.1), ih hs.2]
    simp

/-- An object ends where it is first closed. -/
lemma catalogObjects_braces (hs : '}' ∉ s) (rest : Text) :
    catalogObjects none ('{' :: s ++ '}' :: rest) = ('{' :: s ++ ['}']) :: catalogObjects none rest := by
  have hclose := catalogObjects_close hs ['{'] rest
  rwa [List.cons_append, catalogObjects, if_pos rfl]

lemma flat_braces : Flat ('{' :: s ++ ['}']) ↔ '}' ∉ s := by
  simp [Flat, List.dropLast_cons_of_ne_nil]

/-- Of an object that is closed early only the start is taken. -/
lemma catalogObjects_eq_cons_iff {us : List Text} (ht : IsObject t) (rest : Text) :
    catalogObjects none (t ++ rest) = t :: us ↔ Flat t ∧ catalogObjects none rest = us := by
  obtain ⟨_, body, -, -, -, rfl⟩ := ht
  rw [flat_braces, List.append_assoc, List.singleton_append]
  by_cases hmem : '}' ∈ body
  · obtain ⟨s, s', rfl, hs⟩ := List.eq_append_cons_of_mem hmem
    have htake := catalogObjects_braces hs (s' ++ '}' :: rest)
    rw [List.cons_append, List.cons_append] at htake
    rw [List.cons_append, List.append_assoc, List.cons_append, htake]
    refine iff_of_false (fun h => ?_) fun h => h.1 hmem
    have hlen := congrArg List.length (List.cons.inj h).1
    simp at hlen
  · rw [catalogObjects_braces hmem]
    simp [hmem]

/-- The objects of a list of objects are taken whole exactly if none is closed early. -/
lemma catalogObjects_listed_iff (h : Listed es body) (hes : ∀ e ∈ es, IsObject e) {tail : Text}
    (htail : catalogObjects none tail = []) :
    catalogObjects none (body ++ tail) = es ↔ ∀ e ∈ es, Flat e := by
  induction h with
  | nil hw =>
    rw [catalogObjects_white hw, htail]
    simp
  | singleton hw hw' =>
    rw [List.append_assoc, List.append_assoc, catalogObjects_white hw,
      catalogObjects_eq_cons_iff (hes _ List.mem_cons_self), catalogObjects_white hw']
    simp [htail]
  | @cons w t w' u ts body hw hw' hrest ih =>
    have hcomma : catalogObjects none (',' :: (body ++ tail)) = catalogObjects none (body ++ tail) :=
      catalogObjects_skip (s := [',']) (by simp) _
    have hsplit : w ++ t ++ w' ++ ',' :: body ++ tail = w ++ (t ++ (w' ++ ',' :: (body ++ tail))) := by
      simp
    rw [hsplit, catalogObjects_white hw, catalogObjects_eq_cons_iff (hes _ List.mem_cons_self),
      catalogObjects_white hw', hcomma, ih fun e he => hes e (List.mem_cons_of_mem _ he),
      List.forall_mem_cons (a := t)]

/-! ### How much text the objects take -/

/-- The length of all objects together. -/
def taken (obj : Option Text) (cursor : Text) : ℕ := (catalogObjects obj cursor).flatten.length

section

variable {c : Char} (obj cursor : Text)

lemma taken_open : taken none ('{' :: cursor) = taken (some ['{']) cursor := rfl

lemma taken_skip (h : c ≠ '{') : taken none (c :: cursor) = taken none cursor := by
  rw [taken, catalogObjects, if_neg h, taken]

lemma taken_close : taken (some obj) ('}' :: cursor) = obj.length + 1 + taken none cursor := by
  simp [taken, catalogObjects, Nat.add_comm, Nat.add_assoc]

lemma taken_more (h : c ≠ '}') : taken (some obj) (c :: cursor) = taken (some (obj ++ [c])) cursor := by
  rw [taken, catalogObjects, if_neg h, taken]

end

lemma taken_le_of_length_le {obj obj' : Text} (h : obj.length ≤ obj'.length) (cursor : Text) :
    taken (some obj) cursor ≤ taken (some obj') cursor := by
  induction cursor generalizing obj obj' with
  | nil => rfl
  | cons c cursor ih =>
    by_cases hclose : c = '}'
    · rw [hclose, taken_close, taken_close]
      omega
    · rw [taken_more obj cursor hclose, taken_more obj' cursor hclose]
      exact ih (by simpa using h)

lemma taken_none_le (obj cursor : Text) : taken none cursor ≤ taken (some obj) cursor := by
  induction cursor generalizing obj with
  | nil => rfl
  | cons c cursor ih =>
    by_cases hclose : c = '}'
    · rw [hclose, taken_close, taken_skip cursor (by decide)]
      omega
    · rw [taken_more obj cursor hclose]
      by_cases hopen : c = '{'
      · rw [hopen, taken_open]
        exact taken_le_of_length_le (by simp) cursor
      · rw [taken_skip cursor hopen]
        exact ih _

/-- A text has no less to take with more in front of it. -/
lemma taken_le_append (s cursor : Text) : taken none cursor ≤ taken none (s ++ cursor) := by
  induction s with
  | nil => rfl
  | cons c s ih =>
    apply ih.trans
    by_cases hopen : c = '{'
    · rw [hopen, List.cons_append, taken_open]
      exact taken_none_le _ _
    · rw [List.cons_append, taken_skip _ hopen]

/-- What is taken up to a closing brace is not longer than the text. -/
lemma taken_brace_le (s rest : Text) :
    taken none (s ++ '}' :: rest) ≤ s.length + 1 + taken none rest ∧
      ∀ obj, taken (some obj) (s ++ '}' :: rest) ≤ obj.length + s.length + 1 + taken none rest := by
  induction s with
  | nil =>
    refine ⟨?_, fun obj => ?_⟩
    · rw [List.nil_append, taken_skip rest (by decide)]
      omega
    · rw [List.nil_append, taken_close]
      simp
  | cons c s ih =>
    obtain ⟨hnone, hsome⟩ := ih
    rw [List.cons_append, List.length_cons]
    refine ⟨?_, fun obj => ?_⟩
    · by_cases hopen : c = '{'
      · have := hsome ['{']
        rw [hopen, taken_open]
        rw [List.length_singleton] at this
        omega
      · rw [taken_skip _ hopen]
        omega
    · by_cases hclose : c = '}'
      · rw [hclose, taken_close]
        omega
      · have := hsome (obj ++ [c])
        rw [taken_more _ _ hclose]
        rw [List.length_append, List.length_singleton] at this
        omega

lemma taken_object_le (ht : IsObject t) (rest : Text) :
    taken none (t ++ rest) ≤ t.length + taken none rest := by
  obtain ⟨_, body, -, -, -, rfl⟩ := ht
  have hle := (taken_brace_le ('{' :: body) rest).1
  simpa using hle

lemma taken_white (h : White w) (rest : Text) : taken none (w ++ rest) = taken none rest := by
  rw [taken, catalogObjects_white h, taken]

lemma taken_listed_le (h : Listed es body) (hes : ∀ e ∈ es, IsObject e) {tail : Text}
    (htail : catalogObjects none tail = []) : taken none (body ++ tail) ≤ es.flatten.length := by
  have htaken : taken none tail = 0 := by rw [taken, htail]; rfl
  induction h with
  | nil hw => rw [taken_white hw, htaken]; exact Nat.zero_le _
  | singleton hw hw' =>
    rw [List.append_assoc, List.append_assoc, taken_white hw]
    apply (taken_object_le (hes _ List.mem_cons_self) _).trans
    rw [taken_white hw', htaken]
    simp
  | @cons w t w' u ts body hw hw' hrest ih =>
    have hsplit : w ++ t ++ w' ++ ',' :: body ++ tail = w ++ (t ++ (w' ++ ',' :: (body ++ tail))) := by
      simp
    have hle := ih fun e he => hes e (List.mem_cons_of_mem _ he)
    rw [hsplit, taken_white hw]
    apply (taken_object_le (hes _ List.mem_cons_self) _).trans
    rw [taken_white hw', taken_skip _ (by decide), List.flatten_cons, List.length_append]
    omega

/-- Behind the brace that opens the first object there is less to take than all objects. -/
lemma exists_taken_lt (h : Listed (t :: es) body) (hes : ∀ e ∈ t :: es, IsObject e) {tail : Text}
    (htail : catalogObjects none tail = []) :
    ∃ w rest, White w ∧ body = w ++ '{' :: rest ∧
      taken none (rest ++ tail) < (t :: es).flatten.length := by
  obtain ⟨w, after, hw, rfl, hle⟩ : ∃ w after, White w ∧ body = w ++ (t ++ after) ∧
      taken none (after ++ tail) ≤ es.flatten.length := by
    cases h with
    | @singleton w _ w' hw hw' =>
      refine ⟨w, w', hw, List.append_assoc .., ?_⟩
      rw [taken_white hw', taken, htail]
    | @cons w _ w' u ts body hw hw' hrest =>
      refine ⟨w, w' ++ ',' :: body, hw, by simp, ?_⟩
      rw [List.append_assoc, taken_white hw', List.cons_append, taken_skip _ (by decide)]
      exact taken_listed_le hrest (fun e he => hes e (List.mem_cons_of_mem _ he)) htail
  obtain ⟨_, inner, -, -, -, rfl⟩ := hes t List.mem_cons_self
  refine ⟨w, inner ++ '}' :: after, hw, by simp, ?_⟩
  have hinner := (taken_brace_le inner (after ++ tail)).1
  rw [List.append_assoc, List.cons_append]
  simp only [List.flatten_cons, List.length_append, List.length_cons, List.length_nil]
  omega

/-! ### Where the entries are looked for -/

lemma exists_of_findAfter {pattern rest : Text} (h : findAfter pattern s = some rest) :
    ∃ before, s = before ++ pattern ++ rest := by
  induction s with
  | nil =>
    rw [findAfter] at h
    split_ifs at h with hpattern
    exact ⟨[], by simp [hpattern, Option.some.inj h]⟩
  | cons c s ih =>
    rw [findAfter] at h
    split_ifs at h with hprefix
    · have htake := List.prefix_iff_eq_append.mp (List.isPrefixOf_iff_prefix.mp hprefix)
      rw [Option.some.inj h] at htake
      exact ⟨[], htake.symm⟩
    · obtain ⟨before, rfl⟩ := ih h
      exact ⟨c :: before, rfl⟩

/-- A pattern that occurs is found, there or further ahead. -/
lemma exists_findAfter (before pattern after : Text) :
    ∃ more, findAfter pattern (before ++ pattern ++ after) = some (more ++ after) := by
  induction before with
  | nil =>
    rw [List.nil_append]
    refine ⟨[], ?_⟩
    cases hs : pattern ++ after with
    | nil =>
      obtain ⟨rfl, rfl⟩ := List.append_eq_nil_iff.mp hs
      rfl
    | cons c s =>
      have hprefix : pattern.isPrefixOf (c :: s) = true :=
        List.isPrefixOf_iff_prefix.mpr ⟨after, hs⟩
      rw [findAfter, if_pos hprefix, ← hs, List.drop_left, List.nil_append]
  | cons c before ih =>
    rw [List.cons_append, List.cons_append, findAfter]
    split_ifs
    · have hle : pattern.length ≤ (c :: (before ++ pattern)).length := by simp; omega
      rw [← List.cons_append, List.drop_append_of_le_length hle]
      exact ⟨_, rfl⟩
    · exact ih

lemma catalogEntriesJson_cases (json : Text) :
    (¬ EntriesKey json ∧ catalogEntriesJson json = json) ∨
      (EntriesKey json ∧ ∃ before, '"' ∈ before ∧ json = before ++ catalogEntriesJson json) := by
  rw [catalogEntriesJson]
  cases hkey : findAfter (quoted "entries".toList) json with
  | none =>
    refine .inl ⟨?_, rfl⟩
    rintro ⟨before, between, after, rfl⟩
    obtain ⟨more, hmore⟩ := exists_findAfter before (quoted "entries".toList) (between ++ '[' :: after)
    rw [← List.append_assoc, hkey] at hmore
    cases hmore
  | some rest =>
    cases hbracket : findAfter ['['] rest with
    | none =>
      refine .inl ⟨?_, by simp [hbracket]⟩
      rintro ⟨before, between, after, rfl⟩
      obtain ⟨more, hmore⟩ :=
        exists_findAfter before (quoted "entries".toList) (between ++ '[' :: after)
      rw [← List.append_assoc, hkey, Option.some.injEq] at hmore
      obtain ⟨more', hmore'⟩ := exists_findAfter (more ++ between) ['['] after
      have hrest : rest = more ++ between ++ ['['] ++ after := by simp [hmore]
      rw [← hrest, hbracket] at hmore'
      cases hmore'
    | some after =>
      obtain ⟨before, hjson⟩ := exists_of_findAfter hkey
      obtain ⟨between, hrest⟩ := exists_of_findAfter hbracket
      have hall : json = before ++ quoted "entries".toList ++ between ++ ['['] ++ after := by
        rw [hjson, hrest]
        simp
      refine .inr ⟨⟨before, between, after, by simpa using hall⟩,
        before ++ quoted "entries".toList ++ between ++ ['['], by simp [quoted], ?_⟩
      simp only [hbracket, Option.getD_some]
      exact hall

/-! ### Whole catalogs -/

lemma catalogObjects_bracket (h : White w) : catalogObjects none (']' :: w) = [] := by
  have hskip := catalogObjects_skip (s := ']' :: w) (by simp [h.not_mem, Quiet]) []
  simpa [catalogObjects] using hskip

lemma catalogObjects_array (h : IsArrayCatalog json es) :
    catalogObjects none json = es ↔ ∀ e ∈ es, Flat e := by
  obtain ⟨w, t, w', hw, hw', ⟨hes, body, hbody, rfl⟩, rfl⟩ := h
  have hopen : catalogObjects none ('[' :: (body ++ (']' :: w'))) =
      catalogObjects none (body ++ (']' :: w')) :=
    catalogObjects_skip (s := ['[']) (by simp) _
  have hsplit : w ++ ('[' :: body ++ [']']) ++ w' = w ++ '[' :: (body ++ (']' :: w')) := by simp
  rw [hsplit, catalogObjects_white hw, hopen,
    catalogObjects_listed_iff hbody hes (catalogObjects_bracket hw')]

/-- From inside an object on, fewer characters are left than the objects have. -/
lemma catalogObjects_ne_of_quote {before after : Text} (h : IsArrayCatalog (before ++ after) es)
    (hquote : '"' ∈ before) : catalogObjects none after ≠ es := by
  obtain ⟨w, t, w', hw, hw', ⟨hes, body, hbody, rfl⟩, hjson⟩ := h
  have hwhite {w : Text} (h : White w) : '"' ∉ w := h.not_mem (by simp [Quiet])
  cases es with
  | nil =>
    cases hbody with
    | nil hbody =>
      have hmem : '"' ∈ before ++ after := List.mem_append_left after hquote
      rw [hjson] at hmem
      simp [hwhite hw, hwhite hw', hwhite hbody] at hmem
  | cons e es =>
    obtain ⟨w₁, rest, hw₁, rfl, hlt⟩ := exists_taken_lt hbody hes (catalogObjects_bracket hw')
    have hsplit : w ++ ('[' :: (w₁ ++ '{' :: rest) ++ [']']) ++ w' =
        (w ++ '[' :: w₁) ++ '{' :: (rest ++ ']' :: w') := by simp
    have hpre : '"' ∉ w ++ '[' :: w₁ := by simp [hwhite hw, hwhite hw₁]
    rw [hsplit] at hjson
    -- the quote is behind the brace that opens the first object
    rcases List.append_eq_append_iff.mp hjson with ⟨more, heq, -⟩ | ⟨more, rfl, heq⟩
    · exact absurd (heq ▸ List.mem_append_left more hquote) hpre
    · cases more with
      | nil => exact absurd (by simpa using hquote) hpre
      | cons c more =>
        obtain ⟨-, htail⟩ := List.cons.inj heq
        rw [htail] at hlt
        intro hall
        have hle : taken none after < (e :: es).flatten.length :=
          (taken_le_append more after).trans_lt hlt
        rw [taken, hall] at hle
        exact hle.false

theorem sameEntries_iff (h : IsCatalog json es) :
    SameEntries json es ↔ IsArrayCatalog json es ∧ (∀ e ∈ es, Flat e) ∧ ¬ EntriesKey json := by
  rcases h with harray | hwrapped
  · rw [SameEntries, catalogEntryObjects]
    rcases catalogEntriesJson_cases json with ⟨hkey, heq⟩ | ⟨hkey, before, hquote, heq⟩
    · rw [heq, catalogObjects_array harray]
      simp [iterJsonObjects_array harray, harray, hkey]
    · have hne := catalogObjects_ne_of_quote (heq ▸ harray) hquote
      simp [hne, hkey]
  · have hne := iterJsonObjects_wrapped hwrapped
    exact iff_of_false (fun hsame => hne hsame.1) fun hcond => hne (iterJsonObjects_array hcond.1)

/-- Where the readers agree, what the app store lists is read from the entries. -/
lemma SameEntries.parseCatalogEntries {α : Type} (h : SameEntries json es) (entry : Text → Option α) :
    parseCatalogEntries entry json = es.filterMap entry := by
  rw [AppstoreClient.parseCatalogEntries, h.2]

/-! ### Two catalogs -/

lemma isString_quoted (h : ∀ c ∈ s, Unescaped c) : IsString (quoted s) := ⟨s, h, rfl⟩

/-- A member without white space. -/
def plainMember (key : String) (value : Text) : Member := ⟨quoted key.toList, [], [], value⟩

lemma plainMember_wellFormed {key : String} {value : Text} (h : ∀ c ∈ key.toList, Unescaped c) :
    (plainMember key value).WellFormed where
  key := isString_quoted h
  beforeColon := by simp [White, plainMember]
  afterColon := by simp [White, plainMember]

/-- An object with one member. -/
def singleObject (m : Member) : Text := '{' :: m.text ++ ['}']

lemma isObject_singleObject {m : Member} (hm : m.WellFormed) (hvalue : IsValue m.value) :
    IsObject (singleObject m) := by
  have hwhite : White [] := by simp [White]
  refine ⟨[m], m.text, by simpa using hm, by simpa using hvalue, ?_, rfl⟩
  simpa using Listed.singleton (t := m.text) hwhite hwhite

def singleCatalog (e : Text) : Text := '[' :: e ++ [']']

lemma isArrayCatalog_singleCatalog {e : Text} (h : IsObject e) :
    IsArrayCatalog (singleCatalog e) [e] := by
  have hwhite : White [] := by simp [White]
  refine ⟨[], singleCatalog e, [], hwhite, hwhite, ⟨by simpa using h, e, ?_, rfl⟩, by simp⟩
  simpa using Listed.singleton (t := e) hwhite hwhite

/-- An entry with an id. -/
def idEntry : Text := singleObject (plainMember "id" (quoted "kernel".toList))

/-- An entry that says how its device is detected. -/
def detectionEntry : Text :=
  singleObject (plainMember "detection" (singleObject (plainMember "bus" (quoted "i2c".toList))))

lemma isObject_plainMember {key : String} {value : Text} (hkey : ∀ c ∈ key.toList, Unescaped c)
    (hvalue : IsValue value) : IsObject (singleObject (plainMember key value)) :=
  isObject_singleObject (plainMember_wellFormed hkey) hvalue

lemma isValue_quoted (h : ∀ c ∈ s, Unescaped c) : IsValue (quoted s) := .string (isString_quoted h)

lemma not_entriesKey (h : catalogEntriesJson json = json) : ¬ EntriesKey json := by
  intro hkey
  rcases catalogEntriesJson_cases json with ⟨hno, -⟩ | ⟨-, before, hquote, heq⟩
  · exact hno hkey
  · rw [h, List.self_eq_append_left] at heq
    rw [heq] at hquote
    cases hquote

theorem idEntry_sameEntries : SameEntries (singleCatalog idEntry) [idEntry] := by
  have hentry : IsObject idEntry :=
    isObject_plainMember (by simp [Unescaped]) (isValue_quoted (by simp [Unescaped]))
  have harray := isArrayCatalog_singleCatalog hentry
  have hflat : Flat idEntry := by simp [Flat, idEntry, singleObject, plainMember, Member.text, quoted]
  apply (sameEntries_iff (.inl harray)).mpr
  exact ⟨harray, by simpa using hflat, not_entriesKey (by decide)⟩

/-- The app store ends the entry where the description of its device ends. -/
theorem detectionEntry_not_sameEntries :
    IsCatalog (singleCatalog detectionEntry) [detectionEntry] ∧
      ¬ SameEntries (singleCatalog detectionEntry) [detectionEntry] := by
  have hbus : IsObject (singleObject (plainMember "bus" (quoted "i2c".toList))) :=
    isObject_plainMember (by simp [Unescaped]) (isValue_quoted (by simp [Unescaped]))
  have hentry : IsObject detectionEntry := isObject_plainMember (by simp [Unescaped]) hbus.isValue
  refine ⟨.inl (isArrayCatalog_singleCatalog hentry), fun hsame => ?_⟩
  have hobjects : catalogEntryObjects (singleCatalog detectionEntry) ≠ [detectionEntry] := by decide
  exact hobjects hsame.2

end ThistleOS.AppstoreClient
