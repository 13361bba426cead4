import ThistleOS.Kernel.ContactManager
import ThistleOS.Kernel.MsgQueue.RoundTrip
import ThistleOS.Kernel.MsgQueue.Split

/-!
# The members of an object

The reader looks for a key wherever it stands between quotes. It finds the text of an earlier value
before the key itself, and does not undo the escapes in a text.
-/

namespace ThistleOS.Contacts

open MsgQueue

variable {key s t : Text} {n : Nat}

/-! ### Objects -/

/-- A value is a text, as it stands between its quotes, or is written without quotes. -/
inductive Value where
  | text (s : Text)
  | raw (s : Text)

def Value.write : Value → Text
  | .text s => '"' :: (s ++ ['"'])
  | .raw s => s

/-- The members, each after a comma. -/
def writeMembers : List (Text × Value) → Text
  | [] => ['}']
  | (k, v) :: ms => ',' :: '"' :: (k ++ '"' :: ':' :: (v.write ++ writeMembers ms))

/-- The text of a value is the key. -/
def Hidden (key : Text) (ms : List (Text × Value)) : Prop := ∃ m ∈ ms, m.2 = .text key

/-- A key that the quotes and the marks between them do not make up. -/
structure IsKey (key : Text) : Prop where
  quote : '"' ∉ key
  colon : ':' ∉ key
  comma : ',' ∉ key

def Value.chars : Value → Text
  | .text s => s
  | .raw s => s

/-- A member that is not the one of the key, and has no quotes but those around its parts. -/
structure Precedes (key : Text) (m : Text × Value) : Prop where
  ne : m.1 ≠ key
  name : '"' ∉ m.1
  value : '"' ∉ m.2.chars

lemma ne_of_mem {c : Char} (hc : c ∉ key) (hs : c ∈ s) : s ≠ key := by
  rintro rfl
  exact hc hs

section Step

variable {m : Text × Value} {ms : List (Text × Value)}

lemma findAfter_comma (key : Text) (m : Text × Value) (ms : List (Text × Value)) :
    findAfter (quoted key) (writeMembers (m :: ms)) =
      findAfter (quoted key) ('"' :: (m.1 ++ '"' :: ':' :: (m.2.write ++ writeMembers ms))) :=
  findAfter_skip (s := [',']) (by decide) _

/-- A member is passed over up to its value. -/
lemma findAfter_name (hkey : IsKey key) (hm : Precedes key m) :
    findAfter (quoted key) (writeMembers (m :: ms)) =
      findAfter (quoted key) ('"' :: ':' :: (m.2.write ++ writeMembers ms)) := by
  rw [findAfter_comma, findAfter_step hkey.quote hm.name, if_neg hm.ne]

/-- The text of a value, or what follows it. -/
lemma findAfter_text (hkey : IsKey key) {k : Text} (hm : Precedes key (k, .text s)) :
    findAfter (quoted key) (writeMembers ((k, .text s) :: m :: ms)) =
      if s = key then some (writeMembers (m :: ms))
      else findAfter (quoted key) (writeMembers (m :: ms)) := by
  have hs : '"' ∉ s := hm.value
  rw [findAfter_name hkey hm]
  have hcolon := findAfter_step hkey.quote (s := [':']) (by decide)
    (s ++ '"' :: writeMembers (m :: ms))
  rw [if_neg (ne_of_mem hkey.colon List.mem_cons_self), findAfter_step hkey.quote hs] at hcolon
  have hcomma := findAfter_step hkey.quote (s := [',']) (by decide)
    (m.1 ++ '"' :: ':' :: (m.2.write ++ writeMembers ms))
  rw [if_neg (ne_of_mem hkey.comma List.mem_cons_self)] at hcomma
  rw [findAfter_comma, ← hcomma]
  simpa [Value.write, writeMembers] using hcolon

lemma findAfter_raw (hkey : IsKey key) {k : Text} (hm : Precedes key (k, .raw s)) :
    findAfter (quoted key) (writeMembers ((k, .raw s) :: m :: ms)) =
      findAfter (quoted key) (writeMembers (m :: ms)) := by
  have hs : '"' ∉ ':' :: (s ++ [',']) := by
    have hvalue : '"' ∉ s := hm.value
    simp [hvalue]
  rw [findAfter_name hkey hm]
  have hvalue := findAfter_step hkey.quote hs (m.1 ++ '"' :: ':' :: (m.2.write ++ writeMembers ms))
  rw [if_neg (ne_of_mem hkey.colon List.mem_cons_self)] at hvalue
  rw [findAfter_comma, ← hvalue]
  simp [Value.write, writeMembers]

end Step

/-- The member of the key is found, if no earlier text hides it. -/
theorem findAfter_shown (hkey : IsKey key) {ms : List (Text × Value)}
    (hms : ∀ m ∈ ms, Precedes key m) (hshown : ¬ Hidden key ms) (v : Value)
    (rest : List (Text × Value)) :
    findAfter (quoted key) (writeMembers (ms ++ (key, v) :: rest)) =
      some (':' :: (v.write ++ writeMembers rest)) := by
  induction ms with
  | nil =>
    rw [List.nil_append, findAfter_comma, findAfter_step hkey.quote hkey.quote, if_pos rfl]
  | cons m ms ih =>
    have hrest := ih (fun m' hm' => hms m' (List.mem_cons_of_mem m hm')) fun hhidden =>
      hshown (hhidden.imp fun m' hm' => ⟨List.mem_cons_of_mem m hm'.1, hm'.2⟩)
    have hm := hms m List.mem_cons_self
    obtain ⟨m', ms', hcons⟩ : ∃ m' ms', ms ++ (key, v) :: rest = m' :: ms' :=
      List.exists_cons_of_ne_nil (by simp)
    rw [List.cons_append]
    rw [hcons] at hrest ⊢
    obtain ⟨k, w⟩ := m
    cases w with
    | text s =>
      have hne : s ≠ key := by
        rintro rfl
        exact hshown ⟨_, List.mem_cons_self, rfl⟩
      rw [findAfter_text hkey hm, if_neg hne, hrest]
    | raw s => rw [findAfter_raw hkey hm, hrest]

/-- What follows a text that hides the key is no value. -/
theorem findAfter_hidden (hkey : IsKey key) {ms : List (Text × Value)}
    (hms : ∀ m ∈ ms, Precedes key m) (hhidden : Hidden key ms) (m : Text × Value)
    (rest : List (Text × Value)) :
    ∃ t, findAfter (quoted key) (writeMembers (ms ++ m :: rest)) = some (',' :: t) := by
  induction ms with
  | nil =>
    obtain ⟨m, hm, -⟩ := hhidden
    exact absurd hm List.not_mem_nil
  | cons m₀ ms ih =>
    obtain ⟨m₁, ms₁, hcons⟩ : ∃ m₁ ms₁, ms ++ m :: rest = m₁ :: ms₁ :=
      List.exists_cons_of_ne_nil (by simp)
    have hrest := ih fun m' hm' => hms m' (List.mem_cons_of_mem m₀ hm')
    have hm₀ := hms m₀ List.mem_cons_self
    rw [List.cons_append]
    rw [hcons] at hrest ⊢
    obtain ⟨k, w⟩ := m₀
    cases w with
    | text s =>
      rw [findAfter_text hkey hm₀]
      split_ifs with heq
      · exact ⟨_, rfl⟩
      · refine hrest ?_
        obtain ⟨m', hm', htext⟩ := hhidden
        rcases List.mem_cons.mp hm' with rfl | hm'
        · exact absurd (Value.text.inj htext) heq
        · exact ⟨m', hm', htext⟩
    | raw s =>
      rw [findAfter_raw hkey hm₀]
      refine hrest ?_
      obtain ⟨m', hm', htext⟩ := hhidden
      rcases List.mem_cons.mp hm' with rfl | hm'
      · cases htext
      · exact ⟨m', hm', htext⟩

/-! ### Escapes -/

/-- A character that is written with a backslash. -/
def isEscaped (c : Char) : Bool := c == '"' || c == '\\' || c == '\n' || c == '\r' || c == '\t'

/-- A text that is written as it is. -/
def Plain (s : Text) : Prop := s.all (!isEscaped ·) = true

instance (s : Text) : Decidable (Plain s) := instDecidableEqBool _ _

def escapeChar (c : Char) : Text :=
  if c = '"' then ['\\', '"']
  else if c = '\\' then ['\\', '\\']
  else if c = '\n' then ['\\', 'n']
  else if c = '\r' then ['\\', 'r']
  else if c = '\t' then ['\\', 't']
  else [c]

lemma jsonEscape_cons (c : Char) (s : Text) : jsonEscape (c :: s) = escapeChar c ++ jsonEscape s := rfl

lemma escapeChar_cases (c : Char) :
    isEscaped c = true ∧ (∃ d, escapeChar c = ['\\', d]) ∨
      isEscaped c = false ∧ escapeChar c = [c] ∧ c ≠ '"' ∧ c ≠ '\\' := by
  unfold escapeChar isEscaped
  split_ifs with h1 h2 h3 h4 h5
  · exact .inl ⟨by simp [h1], _, rfl⟩
  · exact .inl ⟨by simp [h2], _, rfl⟩
  · exact .inl ⟨by simp [h3], _, rfl⟩
  · exact .inl ⟨by simp [h4], _, rfl⟩
  · exact .inl ⟨by simp [h5], _, rfl⟩
  · exact .inr ⟨by simp [h1, h2, h3, h4, h5], rfl, h1, h2⟩

lemma Plain.nil : Plain [] := rfl

lemma plain_cons {c : Char} : Plain (c :: s) ↔ isEscaped c = false ∧ Plain s := by
  simp [Plain]

lemma Plain.ne (h : Plain s) {c : Char} (hc : c ∈ s) : c ≠ '"' ∧ c ≠ '\\' := by
  have hplain := List.all_eq_true.mp h c hc
  constructor
  · rintro rfl
    exact absurd hplain (by decide)
  · rintro rfl
    exact absurd hplain (by decide)

lemma Plain.escape_eq (h : Plain s) : jsonEscape s = s := by
  induction s with
  | nil => rfl
  | cons c s ih =>
    obtain ⟨hc, hs⟩ := plain_cons.mp h
    rw [jsonEscape_cons, ih hs]
    rcases escapeChar_cases c with ⟨hescaped, -⟩ | ⟨-, hwritten, -⟩
    · rw [hc] at hescaped
      cases hescaped
    · rw [hwritten]
      rfl

/-- An escape makes a text longer. -/
lemma length_jsonEscape (s : Text) :
    s.length ≤ (jsonEscape s).length ∧ ((jsonEscape s).length ≤ s.length → Plain s) := by
  induction s with
  | nil => exact ⟨le_rfl, fun _ => .nil⟩
  | cons c s ih =>
    rw [jsonEscape_cons, List.length_append, List.length_cons, plain_cons]
    rcases escapeChar_cases c with ⟨-, d, hwritten⟩ | ⟨hplain, hwritten, -⟩
    · rw [hwritten, List.length_cons, List.length_singleton]
      exact ⟨by omega, fun hle => absurd hle (by omega)⟩
    · rw [hwritten, List.length_singleton]
      exact ⟨by omega, fun hle => ⟨hplain, ih.2 (by omega)⟩⟩

/-- The reader does not stop within a text that has been written. -/
lemma untilQuote_jsonEscape (s : Text) (prev : Option Char) :
    ∃ prev', ∀ t, untilQuote prev (jsonEscape s ++ t) =
      (untilQuote prev' t).map (jsonEscape s ++ ·) := by
  induction s generalizing prev with
  | nil => exact ⟨prev, fun t => by simp [jsonEscape]⟩
  | cons c s ih =>
    rw [jsonEscape_cons]
    rcases escapeChar_cases c with ⟨-, d, hwritten⟩ | ⟨-, hwritten, hquote, -⟩
    · obtain ⟨prev', hrest⟩ := ih (some d)
      refine ⟨prev', fun t => ?_⟩
      rw [hwritten, List.append_assoc, List.cons_append, List.singleton_append, untilQuote,
        if_neg (by simp), untilQuote, if_neg (by simp), hrest, Option.map_map, Option.map_map]
      rfl
    · obtain ⟨prev', hrest⟩ := ih (some c)
      refine ⟨prev', fun t => ?_⟩
      rw [hwritten, List.append_assoc, List.singleton_append, untilQuote,
        if_neg (fun h => hquote h.1), hrest, Option.map_map]
      rfl

/-- A text is read back exactly if it is plain. -/
theorem untilQuote_eq_some (s t : Text) :
    untilQuote none (jsonEscape s ++ '"' :: t) = some s ↔ Plain s := by
  constructor
  · intro h
    obtain ⟨prev, hread⟩ := untilQuote_jsonEscape s none
    rw [hread] at h
    obtain ⟨w, -, hw⟩ := Option.map_eq_some_iff.mp h
    have hlength := congrArg List.length hw
    rw [List.length_append] at hlength
    exact (length_jsonEscape s).2 (by omega)
  · intro h
    rw [h.escape_eq]
    exact untilQuote_of_ne (fun c hc => h.ne hc) (by simp)

lemma balanced_text (s : Text) : Balanced ('"' :: (jsonEscape s ++ ['"'])) := by
  have hinside (i : Nat) (inner : Text) (start : Option Nat) (result : List Text) :
      scan inner i (jsonEscape s) ⟨1, true, false, start, result⟩ =
        ⟨1, true, false, start, result⟩ := by
    induction s generalizing i with
    | nil => rfl
    | cons c s ih =>
      rw [jsonEscape_cons, scan_append]
      rcases escapeChar_cases c with ⟨-, d, hwritten⟩ | ⟨-, hwritten, hquote, hback⟩
      · rw [hwritten]
        simpa [SplitState.next] using ih _
      · rw [hwritten]
        simpa [SplitState.next, hquote, hback] using ih _
  intro inner i start result
  have hopen : SplitState.next inner ⟨1, false, false, start, result⟩ ('"', i) =
      ⟨1, true, false, start, result⟩ := by
    simp [SplitState.next]
  rw [scan_cons, hopen, scan_append, hinside, scan_cons, scan_nil]
  simp [SplitState.next]

lemma balanced_raw (h : s.all (fun c => c != '"' && c != '{' && c != '}') = true) : Balanced s := by
  intro inner i start result
  induction s generalizing i with
  | nil => rfl
  | cons c s ih =>
    simp only [List.all_cons, Bool.and_eq_true, bne_iff_ne] at h
    obtain ⟨⟨⟨hquote, hopen⟩, hclose⟩, hrest⟩ := h
    have hnext : SplitState.next inner ⟨1, false, false, start, result⟩ (c, i) =
        ⟨1, false, false, start, result⟩ := by
      simp [SplitState.next, hquote, hopen, hclose]
    rw [scan_cons, hnext]
    exact ih (List.all_eq_true.mpr fun c' hc' => by
      simpa using List.all_eq_true.mp hrest c' hc') (i + 1)

/-! ### Reading a value -/

section Reading

variable {json : Text} {ms : List (Text × Value)} {a : UInt32}

lemma jsonValue_of_findAfter {c : Char} (h : findAfter (quoted key) json = some (':' :: c :: t))
    (hc : isWhiteSpace c = false) : jsonValue json key = some (c :: t) := by
  have hcolon : trimStart (':' :: c :: t) = ':' :: c :: t := trimStart_of_not (by decide) _
  simp only [jsonValue, h, hcolon, stripColon, trimStart_of_not hc, Option.bind_eq_bind,
    Option.bind_some, Option.pure_def]

lemma jsonValue_of_comma (h : ∃ t, findAfter (quoted key) json = some (',' :: t)) :
    jsonValue json key = none := by
  obtain ⟨t, h⟩ := h
  have hcomma : trimStart (',' :: t) = ',' :: t := trimStart_of_not (by decide) _
  have hstrip : stripColon (',' :: t) = none := rfl
  simp only [jsonValue, h, hcomma, hstrip, Option.bind_eq_bind, Option.bind_some, Option.bind_none]

/-- The object has a member of the key, after other members that can be told apart from it. -/
structure At (json key : Text) (ms : List (Text × Value)) (v : Value) : Prop where
  isKey : IsKey key
  precedes : ∀ m ∈ ms, Precedes key m
  members : ∃ rest, findAfter (quoted key) json =
    findAfter (quoted key) (writeMembers (ms ++ (key, v) :: rest))

lemma At.shown {v : Value} (h : At json key ms v) (hshown : ¬ Hidden key ms) :
    ∃ rest, findAfter (quoted key) json = some (':' :: (v.write ++ writeMembers rest)) := by
  obtain ⟨rest, hmembers⟩ := h.members
  exact ⟨rest, hmembers.trans (findAfter_shown h.isKey h.precedes hshown v rest)⟩

lemma At.hidden {v : Value} (h : At json key ms v) (hhidden : Hidden key ms) :
    jsonValue json key = none := by
  obtain ⟨rest, hmembers⟩ := h.members
  obtain ⟨t, ht⟩ := findAfter_hidden h.isKey h.precedes hhidden (key, v) rest
  exact jsonValue_of_comma ⟨t, hmembers.trans ht⟩

lemma getString_shown (h : At json key ms (.text s)) (hshown : ¬ Hidden key ms) :
    ∃ t, jsonGetString json key = untilQuote none (s ++ '"' :: t) := by
  obtain ⟨rest, hfind⟩ := h.shown hshown
  have hvalue := jsonValue_of_findAfter (by simpa [Value.write] using hfind) (by decide)
  exact ⟨writeMembers rest, by simp [jsonGetString, hvalue]⟩

lemma getString_hidden {v : Value} (h : At json key ms v) (hhidden : Hidden key ms) :
    jsonGetString json key = none := by
  simp [jsonGetString, h.hidden hhidden]

lemma writeMembers_cons (ms : List (Text × Value)) :
    ∃ c t, writeMembers ms = c :: t ∧ c.isDigit = false ∧ c ≠ '-' := by
  cases ms with
  | nil => exact ⟨_, _, rfl, by decide, by decide⟩
  | cons m ms => exact ⟨_, _, rfl, by decide, by decide⟩

lemma getInt_shown (h : At json key ms (.raw (decimal n))) (hshown : ¬ Hidden key ms) :
    jsonGetInt json key = if n < 0x8000000000000000 then some (n : Int) else none := by
  obtain ⟨rest, hfind⟩ := h.shown hshown
  obtain ⟨c, t, hrest, hdigit, hminus⟩ := writeMembers_cons rest
  rw [hrest] at hfind
  exact jsonGetInt_of_findAfter hfind hdigit hminus

lemma getInt_hidden {v : Value} (h : At json key ms v) (hhidden : Hidden key ms) :
    jsonGetInt json key = none := by
  simp [jsonGetInt, h.hidden hhidden]

/-- A text is read back exactly if it is plain, or empty where its key is hidden. -/
theorem text_kept (h : At json key ms (.text (jsonEscape s))) :
    (jsonGetString json key).getD [] = s ↔ Plain s ∧ (Hidden key ms → s = []) := by
  by_cases hhidden : Hidden key ms
  · rw [getString_hidden h hhidden, Option.getD_none]
    constructor
    · rintro rfl
      exact ⟨.nil, fun _ => rfl⟩
    · exact fun hkept => (hkept.2 hhidden).symm
  · obtain ⟨t, hread⟩ := getString_shown h hhidden
    rw [hread]
    constructor
    · intro hs
      refine ⟨?_, fun h => absurd h hhidden⟩
      cases hvalue : untilQuote none (jsonEscape s ++ '"' :: t) with
      | none =>
        rw [hvalue, Option.getD_none] at hs
        exact hs ▸ .nil
      | some w =>
        rw [hvalue, Option.getD_some] at hs
        exact (untilQuote_eq_some s t).mp (hs ▸ hvalue)
    · intro hkept
      rw [(untilQuote_eq_some s t).mpr hkept.1, Option.getD_some]

lemma getInt_of_u32 (h : At json key ms (.raw (decimal a.toNat))) (hshown : ¬ Hidden key ms) :
    jsonGetInt json key = some (a.toNat : Int) := by
  rw [getInt_shown h hshown, if_pos (a.toNat_lt.trans (by decide))]

theorem int_kept (h : At json key ms (.raw (decimal a.toNat))) :
    asU32 ((jsonGetInt json key).getD 0) = a ↔ (Hidden key ms → a = 0) := by
  by_cases hhidden : Hidden key ms
  · rw [getInt_hidden h hhidden, Option.getD_none]
    exact ⟨fun heq _ => heq.symm, fun heq => (heq hhidden).symm⟩
  · rw [getInt_of_u32 h hhidden, Option.getD_some, asU32_toNat]
    exact ⟨fun _ hh => absurd hh hhidden, fun _ => rfl⟩

theorem bool_kept {b : Bool} (h : At json key ms (.raw (boolText b))) :
    (jsonGetBool json key).getD false = b ↔ (Hidden key ms → b = false) := by
  by_cases hhidden : Hidden key ms
  · have hread : jsonGetBool json key = none := by simp [jsonGetBool, h.hidden hhidden]
    rw [hread, Option.getD_none]
    exact ⟨fun heq _ => heq.symm, fun heq => (heq hhidden).symm⟩
  · obtain ⟨rest, hfind⟩ := h.shown hhidden
    have hread : jsonGetBool json key = some b := by
      cases b with
      | false =>
        have hvalue := jsonValue_of_findAfter (by simpa [Value.write, boolText] using hfind) (by decide)
        simp [jsonGetBool, hvalue]
      | true =>
        have hvalue := jsonValue_of_findAfter (by simpa [Value.write, boolText] using hfind) (by decide)
        simp [jsonGetBool, hvalue]
    rw [hread, Option.getD_some]
    exact ⟨fun _ hh => absurd hh hhidden, fun _ => rfl⟩

lemma keyOf_base64Encode (k : Arr 32) : Contact.keyOf (some (base64Encode k.bytes)) = k := by
  have hnil : base64Encode k.bytes ≠ [] := by
    rw [ne_eq, base64Encode_eq_nil]
    intro heq
    have hlength := k.length_bytes
    rw [heq] at hlength
    cases hlength
  have hslice := Arr.ofSlice_append k []
  have htake : k.bytes.take 32 = k.bytes ++ [] := by
    rw [List.append_nil, List.take_of_length_le (by rw [Arr.length_bytes])]
  rw [Contact.keyOf]
  simp only [if_neg hnil, base64Decode_base64Encode, Arr.length_bytes, le_refl, if_true, htake, hslice]

theorem key_kept {k : Arr 32} (h : At json key ms (.text (base64Encode k.bytes))) :
    Contact.keyOf (jsonGetString json key) = k ↔ (Hidden key ms → k = .zero) := by
  by_cases hhidden : Hidden key ms
  · rw [getString_hidden h hhidden]
    exact ⟨fun heq _ => heq.symm, fun heq => (heq hhidden).symm⟩
  · obtain ⟨t, hread⟩ := getString_shown h hhidden
    rw [hread, untilQuote_of_plain (fun c hc => isBase64_of_mem hc) (by simp), keyOf_base64Encode]
    exact ⟨fun _ hh => absurd hh hhidden, fun _ => rfl⟩

end Reading

end ThistleOS.Contacts
