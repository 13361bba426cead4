import ThistleOS.Apps.Vault

/-!
# The text of the entries, read back

The entries are written as objects, with quotes and backslashes escaped, and read back by a search for braces and
keys. The search for a key finds it where it was written, whatever the fields hold; the search for the end of an
object does not look at quotes, so braces in a field can make the reader find an object that was not written.
-/

namespace ThistleOS.Vault

/-! ### Escaping -/

/-- The escaped text, without a bound on its length. -/
def escape : List UInt8 → List UInt8
  | [] => []
  | c :: s => if c = quote ∨ c = backslash then backslash :: c :: escape s else c :: escape s

@[simp] lemma escape_nil : escape [] = [] := rfl

lemma escape_cons (c : UInt8) (s : List UInt8) : escape (c :: s) =
    if c = quote ∨ c = backslash then backslash :: c :: escape s else c :: escape s := rfl

lemma length_escape (s : List UInt8) : (escape s).length ≤ 2 * s.length := by
  induction s with
  | nil => rfl
  | cons c s ih =>
    rw [escape_cons]
    split_ifs <;> simp only [List.length_cons] <;> omega

lemma jsonEscape_eq (s : List UInt8) {dstMax out : ℕ} (h : out + 2 * s.length + 1 < dstMax) :
    jsonEscape dstMax s out = escape s := by
  induction s generalizing out with
  | nil => rfl
  | cons c s ih =>
    rw [List.length_cons] at h
    rw [jsonEscape, escape_cons, if_pos (by omega), ih (by omega), ih (by omega)]

/-- A value is read up to the quote that ends it. -/
lemma jsonUnescape_escape (s rest : List UInt8) {dstMax out : ℕ} (h : out + s.length < dstMax) :
    jsonUnescape dstMax (escape s ++ quote :: rest) out = s := by
  induction s generalizing out with
  | nil =>
    unfold jsonUnescape
    simp
  | cons c s ih =>
    rw [List.length_cons] at h
    have hout : out + 1 < dstMax := by omega
    rw [escape_cons]
    split_ifs with hc
    · have hne : backslash ≠ quote := by decide
      rw [List.cons_append, List.cons_append]
      unfold jsonUnescape
      simp only [if_pos hout, if_neg hne, if_pos, ih (show out + 1 + s.length < dstMax by omega)]
    · obtain ⟨hquote, hbackslash⟩ := not_or.mp hc
      rw [List.cons_append]
      unfold jsonUnescape
      simp only [if_pos hout, if_neg hquote, if_neg hbackslash, ih (show out + 1 + s.length < dstMax by omega)]

/-! ### Searching for keys -/

def colon : UInt8 := 0x3a
def comma : UInt8 := 0x2c
def opening : UInt8 := 0x7b
def closing : UInt8 := 0x7d

def delimiters : List UInt8 := [quote, backslash, colon, comma, opening, closing]

/-- No delimiter occurs in a key. -/
def PlainKey (key : List UInt8) : Prop := ∀ c ∈ delimiters, c ∉ key

/-- A key in quotes, with the colon and the quote before its value. -/
def quoted (key : List UInt8) : List UInt8 := quote :: (key ++ [quote, colon, quote])

lemma seek_cons {key text : List UInt8} {c : UInt8} (h : ¬ key <+: c :: text) :
    seek key (c :: text) = seek key text := by
  rw [seek, if_neg (by rwa [List.isPrefixOf_iff_prefix])]

lemma seek_self {key : List UInt8} (hkey : key ≠ []) (text : List UInt8) : seek key (key ++ text) = some text := by
  cases key with
  | nil => exact absurd rfl hkey
  | cons c key =>
    rw [List.cons_append, seek, ← List.cons_append, if_pos (by simp), List.drop_left]

/-- What holds no quote holds no key. -/
lemma seek_append_of_notMem {key sep : List UInt8} (hsep : quote ∉ sep) (text : List UInt8) :
    seek (quoted key) (sep ++ text) = seek (quoted key) text := by
  induction sep with
  | nil => rfl
  | cons c sep ih =>
    rw [List.cons_append, seek_cons, ih (fun h => hsep (List.mem_cons_of_mem c h))]
    rw [quoted, List.cons_prefix_cons]
    exact fun h => hsep (h.1 ▸ List.mem_cons_self)

/-- The end of a value is not the end of a key. -/
lemma not_key_prefix_value {key : List UInt8} (hkey : PlainKey key) {c : UInt8} (hc : c ≠ colon)
    (s rest tail : List UInt8) :
    ¬ key ++ quote :: colon :: tail <+: escape s ++ quote :: c :: rest := by
  induction key generalizing s with
  | nil =>
    cases s with
    | nil =>
      intro h
      exact hc (List.cons_prefix_cons.mp (List.cons_prefix_cons.mp h).2).1.symm
    | cons x s =>
      rw [escape_cons]
      intro h
      split_ifs at h with hx
      · exact absurd (List.cons_prefix_cons.mp h).1 (by decide)
      · exact (not_or.mp hx).1 (List.cons_prefix_cons.mp h).1.symm
  | cons a key ih =>
    have hplain : PlainKey key := fun c hc h => hkey c hc (List.mem_cons_of_mem a h)
    cases s with
    | nil =>
      intro h
      exact hkey quote (by decide) ((List.cons_prefix_cons.mp h).1 ▸ List.mem_cons_self)
    | cons x s =>
      rw [escape_cons]
      intro h
      split_ifs at h with hx
      · exact hkey backslash (by decide) ((List.cons_prefix_cons.mp h).1 ▸ List.mem_cons_self)
      · exact ih hplain s (List.cons_prefix_cons.mp h).2

lemma not_quoted_prefix_cons {key : List UInt8} {c : UInt8} (hc : c ∈ delimiters) (hkey : PlainKey key)
    (hne : c ≠ quote) (rest : List UInt8) : ¬ quoted key <+: quote :: c :: rest := by
  intro h
  have h := (List.cons_prefix_cons.mp h).2
  cases key with
  | nil => exact hne (List.cons_prefix_cons.mp h).1.symm
  | cons a key => exact hkey c hc ((List.cons_prefix_cons.mp h).1 ▸ List.mem_cons_self)

lemma seek_cons_ne {key : List UInt8} {c : UInt8} (hc : c ≠ quote) (text : List UInt8) :
    seek (quoted key) (c :: text) = seek (quoted key) text :=
  seek_cons fun h => hc (List.cons_prefix_cons.mp h).1.symm

/-- No value holds a key, and none ends in one. -/
lemma seek_value {key : List UInt8} (hkey : PlainKey key) {c : UInt8} (hc : c = comma ∨ c = closing)
    (s rest : List UInt8) :
    seek (quoted key) (escape s ++ quote :: c :: rest) = seek (quoted key) rest := by
  have hcolon : c ≠ colon := by rcases hc with rfl | rfl <;> decide
  have hquote : c ≠ quote := by rcases hc with rfl | rfl <;> decide
  have hdelimiter : c ∈ delimiters := by rcases hc with rfl | rfl <;> decide
  have hinner : ∀ s, ¬ quoted key <+: quote :: (escape s ++ quote :: c :: rest) := fun s h =>
    not_key_prefix_value hkey hcolon s rest [quote] (by simpa [quoted] using h)
  induction s with
  | nil =>
    rw [escape_nil, List.nil_append, seek_cons (not_quoted_prefix_cons hdelimiter hkey hquote rest),
      seek_cons_ne hquote]
  | cons x s ih =>
    rw [escape_cons]
    split_ifs with hx
    · rw [List.cons_append, List.cons_append, seek_cons_ne (by decide)]
      rcases hx with rfl | rfl
      · rw [seek_cons (hinner s), ih]
      · rw [seek_cons_ne (by decide), ih]
    · rw [List.cons_append, seek_cons_ne (not_or.mp hx).1, ih]

/-- A key with a quote behind it ends there. -/
lemma prefix_quote_inj {key key' a b : List UInt8} (hkey : PlainKey key) (hkey' : PlainKey key')
    (h : key ++ quote :: a <+: key' ++ quote :: b) : key = key' := by
  induction key generalizing key' with
  | nil =>
    cases key' with
    | nil => rfl
    | cons c key' => exact absurd ((List.cons_prefix_cons.mp h).1 ▸ List.mem_cons_self) (hkey' quote (by decide))
  | cons c key ih =>
    cases key' with
    | nil => exact absurd ((List.cons_prefix_cons.mp h).1 ▸ List.mem_cons_self) (hkey quote (by decide))
    | cons c' key' =>
      obtain ⟨rfl, htail⟩ := List.cons_prefix_cons.mp h
      rw [ih (fun c hc h => hkey c hc (List.mem_cons_of_mem _ h))
        (fun c hc h => hkey' c hc (List.mem_cons_of_mem _ h)) htail]

/-- A field of an object. -/
def field (key s rest : List UInt8) : List UInt8 := quoted key ++ (escape s ++ quote :: rest)

lemma seek_field (key s rest : List UInt8) : seek (quoted key) (field key s rest) = some (escape s ++ quote :: rest) :=
  seek_self (List.cons_ne_nil _ _) _

/-- The search for a key passes the field of another one. -/
lemma seek_field_of_ne {key key' : List UInt8} (hkey : PlainKey key) (hkey' : PlainKey key')
    (hne : key ≠ key') {c : UInt8} (hc : c = comma ∨ c = closing) (s rest : List UInt8) :
    seek (quoted key) (field key' s (c :: rest)) = seek (quoted key) rest := by
  have hstart : ¬ quoted key <+: quote :: (key' ++ (quote :: colon :: quote :: (escape s ++ quote :: c :: rest))) :=
    fun h => hne (prefix_quote_inj hkey hkey' (List.cons_prefix_cons.mp h).2)
  have hcne : c ≠ colon := by rcases hc with rfl | rfl <;> decide
  have hinner : ¬ quoted key <+: quote :: (escape s ++ quote :: c :: rest) := fun h =>
    not_key_prefix_value hkey hcne s rest [quote] (by simpa [quoted] using h)
  have hcolon : ¬ quoted key <+: quote :: colon :: quote :: (escape s ++ quote :: c :: rest) :=
    not_quoted_prefix_cons (by decide) hkey (by decide) _
  have hfield : field key' s (c :: rest) =
      quote :: (key' ++ (quote :: colon :: quote :: (escape s ++ quote :: c :: rest))) := by
    simp [field, quoted]
  rw [hfield, seek_cons hstart, seek_append_of_notMem (hkey' quote (by decide)), seek_cons hcolon,
    seek_cons_ne (by decide), seek_cons hinner, seek_value hkey hc]

/-! ### Objects -/

def nameKey : List UInt8 := utf8 "name"
def userKey : List UInt8 := utf8 "user"
def passKey : List UInt8 := utf8 "pass"
def notesKey : List UInt8 := utf8 "notes"

/-- The keys of an object in their order. -/
def keys : List (List UInt8) := [nameKey, userKey, passKey, notesKey]

set_option maxRecDepth 4096 in
lemma plainKey_of_mem {key : List UInt8} (h : key ∈ keys) : PlainKey key := by
  have hkeys : ∀ key ∈ keys, ∀ c ∈ delimiters, c ∉ key := by decide
  exact hkeys key h

lemma needle_eq (key : String) : needle key = quoted (utf8 key) := by
  rw [needle, List.append_assoc]
  rfl

/-- The texts of the fields of an entry. -/
structure EntryTexts where
  name : List UInt8
  user : List UInt8
  pass : List UInt8
  notes : List UInt8
  deriving DecidableEq

namespace EntryTexts

/-- The entry that holds the texts. -/
def entry (t : EntryTexts) : VaultEntry :=
  ⟨.ofSlice t.name, .ofSlice t.user, .ofSlice t.pass, .ofSlice t.notes⟩

/-- Each text has room for its terminating zero, and holds no other. -/
structure Fits (t : EntryTexts) : Prop where
  name : t.name.length < fieldMax ∧ 0 ∉ t.name
  user : t.user.length < fieldMax ∧ 0 ∉ t.user
  pass : t.pass.length < fieldMax ∧ 0 ∉ t.pass
  notes : t.notes.length < fieldMax ∧ 0 ∉ t.notes

/-! An object from each of its fields on. -/

def fromNotes (t : EntryTexts) (rest : List UInt8) : List UInt8 := field notesKey t.notes (closing :: rest)

def fromPass (t : EntryTexts) (rest : List UInt8) : List UInt8 := field passKey t.pass (comma :: t.fromNotes rest)

def fromUser (t : EntryTexts) (rest : List UInt8) : List UInt8 := field userKey t.user (comma :: t.fromPass rest)

def fromName (t : EntryTexts) (rest : List UInt8) : List UInt8 := field nameKey t.name (comma :: t.fromUser rest)

end EntryTexts

lemma parseField_value {s rest : List UInt8} (hs : s.length < fieldMax) :
    parseField (escape s ++ quote :: rest) = .ofSlice s := by
  rw [parseField, jsonUnescape_escape _ _ (by omega)]

/-- The object that the reader finds, if it has all of its keys. -/
def complete (text : List UInt8) : Option VaultEntry := if (parseEntry text).2 then some (parseEntry text).1 else none

/-- Only what is found for the keys matters. -/
lemma complete_congr {text text' : List UInt8} (h : ∀ key ∈ keys, seek (quoted key) text = seek (quoted key) text') :
    complete text = complete text' := by
  have hseek : ∀ key, utf8 key ∈ keys → seekKey text key = seekKey text' key := fun key hkey => by
    rw [seekKey, seekKey, needle_eq, h _ hkey]
  have hparse : parseEntry text = parseEntry text' := by
    rw [parseEntry, parseEntry, hseek "name" (by decide), hseek "user" (by decide), hseek "pass" (by decide),
      hseek "notes" (by decide)]
  rw [complete, complete, hparse]

lemma complete_eq_none {text : List UInt8} (h : seek (quoted nameKey) text = none) : complete text = none := by
  rw [nameKey, ← needle_eq] at h
  simp [complete, parseEntry, seekKey, h]

/-- A key is found with this value behind it. -/
def Reads (key text value : List UInt8) : Prop := ∃ rest, seek (quoted key) text = some (escape value ++ quote :: rest)

section

variable {key key' value s rest : List UInt8} {c : UInt8}

lemma reads_field : Reads key (field key s rest) s := ⟨rest, seek_field key s rest⟩

/-- A field that the search for a key passes, with what stands behind it. -/
def Passed (key key' : List UInt8) (c : UInt8) : Prop :=
  key ∈ keys ∧ key' ∈ keys ∧ key ≠ key' ∧ (c = comma ∨ c = closing)

instance (key key' : List UInt8) (c : UInt8) : Decidable (Passed key key' c) := inferInstanceAs (Decidable (_ ∧ _))

lemma seek_field_of_passed (h : Passed key key' c) :
    seek (quoted key) (field key' s (c :: rest)) = seek (quoted key) rest := by
  obtain ⟨hkey, hkey', hne, hc⟩ := h
  exact seek_field_of_ne (plainKey_of_mem hkey) (plainKey_of_mem hkey') hne hc s rest

lemma Reads.after_field (h : Reads key rest value) (hpassed : Passed key key' c) :
    Reads key (field key' s (c :: rest)) value := by
  obtain ⟨tail, htail⟩ := h
  exact ⟨tail, by rw [seek_field_of_passed hpassed, htail]⟩

lemma Reads.after_cons (h : Reads key rest value) (hc : c ≠ quote) : Reads key (c :: rest) value := by
  obtain ⟨tail, htail⟩ := h
  exact ⟨tail, by rw [seek_cons_ne hc, htail]⟩

end

lemma complete_of_reads {text : List UInt8} {t : EntryTexts} (ht : t.Fits) (hname : Reads nameKey text t.name)
    (huser : Reads userKey text t.user) (hpass : Reads passKey text t.pass) (hnotes : Reads notesKey text t.notes) :
    complete text = some t.entry := by
  obtain ⟨_, hname⟩ := hname
  obtain ⟨_, huser⟩ := huser
  obtain ⟨_, hpass⟩ := hpass
  obtain ⟨_, hnotes⟩ := hnotes
  simp only [nameKey, userKey, passKey, notesKey, ← needle_eq] at hname huser hpass hnotes
  simp [complete, parseEntry, seekKey, hname, huser, hpass, hnotes, parseField_value ht.name.1,
    parseField_value ht.user.1, parseField_value ht.pass.1, parseField_value ht.notes.1, EntryTexts.entry]

/-- What is left of a value where a brace stands in it does not matter. -/
lemma complete_value {c : UInt8} (hc : c = comma ∨ c = closing) (s rest : List UInt8) :
    complete (escape s ++ quote :: c :: rest) = complete rest :=
  complete_congr fun _ hkey => seek_value (plainKey_of_mem hkey) hc s rest

section

variable {t t' : EntryTexts} {rest : List UInt8}

/-- The text between the objects. -/
def between (rest : List UInt8) : List UInt8 := comma :: opening :: rest

lemma Reads.after_between {key value : List UInt8} (h : Reads key rest value) : Reads key (between rest) value :=
  (h.after_cons (by decide)).after_cons (by decide)

/-! What the fields of an object say to the search for a key. -/

lemma reads_name : Reads nameKey (t.fromName rest) t.name := reads_field

lemma reads_user : Reads userKey (t.fromName rest) t.user := reads_field.after_field (by decide)

lemma reads_pass : Reads passKey (t.fromName rest) t.pass :=
  (reads_field.after_field (by decide)).after_field (by decide)

lemma reads_notes : Reads notesKey (t.fromName rest) t.notes :=
  ((reads_field.after_field (by decide)).after_field (by decide)).after_field (by decide)

/-- An object that was written is read as it was. -/
lemma complete_fromName (ht : t.Fits) : complete (t.fromName rest) = some t.entry :=
  complete_of_reads ht reads_name reads_user reads_pass reads_notes

lemma complete_between (ht : t.Fits) : complete (between (t.fromName rest)) = some t.entry :=
  complete_of_reads ht reads_name.after_between reads_user.after_between reads_pass.after_between
    reads_notes.after_between

/-! What the reader makes of an object that begins inside of a value: the fields before are those of the next object. -/

lemma Reads.after_notes {key value : List UInt8} (h : Reads key rest value) (hkey : Passed key notesKey closing) :
    Reads key (t.fromNotes rest) value := h.after_field hkey

lemma Reads.after_pass {key value : List UInt8} (h : Reads key (t.fromNotes rest) value)
    (hkey : Passed key passKey comma) :
    Reads key (t.fromPass rest) value := h.after_field hkey

lemma Reads.after_user {key value : List UInt8} (h : Reads key (t.fromPass rest) value)
    (hkey : Passed key userKey comma) :
    Reads key (t.fromUser rest) value := h.after_field hkey

lemma complete_fromUser (ht : t.Fits) (ht' : t'.Fits) :
    complete (t.fromUser (between (t'.fromName rest))) = some { t with name := t'.name }.entry := by
  refine @complete_of_reads _ { t with name := t'.name } ⟨ht'.name, ht.user, ht.pass, ht.notes⟩ ?_ ?_ ?_ ?_
  · exact ((reads_name.after_between.after_notes (by decide)).after_pass (by decide)).after_user (by decide)
  · exact reads_field
  · exact Reads.after_user reads_field (by decide)
  · exact (Reads.after_pass reads_field (by decide)).after_user (by decide)

lemma complete_fromPass (ht : t.Fits) (ht' : t'.Fits) :
    complete (t.fromPass (between (t'.fromName rest))) = some { t with name := t'.name, user := t'.user }.entry := by
  refine @complete_of_reads _ { t with name := t'.name, user := t'.user }
      ⟨ht'.name, ht'.user, ht.pass, ht.notes⟩ ?_ ?_ ?_ ?_
  · exact (reads_name.after_between.after_notes (by decide)).after_pass (by decide)
  · exact (reads_user.after_between.after_notes (by decide)).after_pass (by decide)
  · exact reads_field
  · exact Reads.after_pass reads_field (by decide)

lemma complete_fromNotes (ht : t.Fits) (ht' : t'.Fits) :
    complete (t.fromNotes (between (t'.fromName rest))) = some { t' with notes := t.notes }.entry := by
  refine @complete_of_reads _ { t' with notes := t.notes } ⟨ht'.name, ht'.user, ht'.pass, ht.notes⟩ ?_ ?_ ?_ ?_
  · exact reads_name.after_between.after_notes (by decide)
  · exact reads_user.after_between.after_notes (by decide)
  · exact reads_pass.after_between.after_notes (by decide)
  · exact reads_field

/-- Behind the last object there is no key left. -/
def last : List UInt8 := utf8 "]"

lemma seek_last (key : List UInt8) : seek (quoted key) last = none := by
  show seek (quoted key) [0x5d] = none
  rw [seek_cons_ne (by decide)]
  rfl

lemma seek_name_after {key s rest : List UInt8} {c : UInt8} (h : seek (quoted nameKey) rest = none)
    (hpassed : Passed nameKey key c) : seek (quoted nameKey) (field key s (c :: rest)) = none := by
  rw [seek_field_of_passed hpassed, h]

lemma seek_fromNotes_last : seek (quoted nameKey) (t.fromNotes last) = none :=
  seek_name_after (seek_last nameKey) (by decide)

lemma seek_fromPass_last : seek (quoted nameKey) (t.fromPass last) = none :=
  seek_name_after seek_fromNotes_last (by decide)

lemma complete_fromUser_last : complete (t.fromUser last) = none :=
  complete_eq_none (seek_name_after seek_fromPass_last (by decide))

lemma complete_fromPass_last : complete (t.fromPass last) = none := complete_eq_none seek_fromPass_last

lemma complete_fromNotes_last : complete (t.fromNotes last) = none := complete_eq_none seek_fromNotes_last

lemma complete_last : complete last = none := complete_eq_none (seek_last nameKey)

end

/-! ### The loop of the reader -/

/-- Whether the reader looks for an opening brace, or for a closing one. -/
def step (opens : Bool) (c : UInt8) : Bool := if opens then c != opening else c == closing

/-- The objects that the reader finds, without a bound on their number. -/
def records : Bool → List UInt8 → List VaultEntry
  | _, [] => []
  | opens, c :: text =>
    (if opens && c == opening then (complete text).toList else []) ++ records (step opens c) text

lemma records_seek_opening (text : List UInt8) : records true text =
    (seek [opening] text).elim [] fun body => (complete body).toList ++ records false body := by
  induction text with
  | nil => rfl
  | cons c text ih =>
    by_cases hc : c = opening
    · subst hc
      rfl
    · have hprefix : ¬ [opening] <+: c :: text := fun h => hc (List.cons_prefix_cons.mp h).1.symm
      have hstep : step true c = true := by simpa [step] using hc
      rw [seek_cons hprefix, ← ih, records, hstep]
      simp [hc]

lemma records_seek_closing (text : List UInt8) : records false text = (seek [closing] text).elim [] (records true) := by
  induction text with
  | nil => rfl
  | cons c text ih =>
    by_cases hc : c = closing
    · subst hc
      rfl
    · have hprefix : ¬ [closing] <+: c :: text := fun h => hc (List.cons_prefix_cons.mp h).1.symm
      have hstep : step false c = false := by simpa [step] using hc
      rw [seek_cons hprefix, ← ih, records, hstep]
      rfl

lemma length_seek {needle text rest : List UInt8} (hne : needle ≠ []) (h : seek needle text = some rest) :
    rest.length < text.length := by
  induction text with
  | nil =>
    rw [seek, if_neg hne] at h
    cases h
  | cons c text ih =>
    rw [seek] at h
    split_ifs at h with hprefix
    · obtain rfl := Option.some.inj h
      have hpos : 0 < needle.length := List.length_pos_of_ne_nil hne
      simp only [List.length_drop, List.length_cons]
      omega
    · exact (ih h).trans (Nat.lt_succ_self _)

/-- The entries of the array that are in use. -/
def used (entries : Entries) (count : ℕ) : List VaultEntry := (List.ofFn entries).take count

lemma used_setEntry (entries : Entries) (count : ℕ) (e : VaultEntry) :
    used (setEntry entries count e) count = used entries count := by
  apply List.ext_getElem?
  intro i
  rw [used, used, List.getElem?_take, List.getElem?_take]
  split_ifs with hi
  · simp only [List.getElem?_ofFn, setEntry]
    split_ifs with hlt hi'
    · exact absurd hi' (by simpa using hi.ne)
    · rfl
    · rfl
  · rfl

lemma used_setEntry_succ (entries : Entries) {count : ℕ} (hcount : count < maxEntries) (e : VaultEntry) :
    used (setEntry entries count e) (count + 1) = used entries count ++ [e] := by
  have hlt : count < (List.ofFn (setEntry entries count e)).length := by simpa using hcount
  rw [used, List.take_succ_eq_append_getElem hlt, ← used, used_setEntry]
  simp [setEntry]

/-- The number of entries after an object. -/
def countAfter (body : List UInt8) (count : ℕ) : ℕ := if (parseEntry body).2 then count + 1 else count

/-- An object is kept if it is complete; one that is not is written over by the next one. -/
lemma used_countAfter (body : List UInt8) (entries : Entries) {count : ℕ} (hcount : count < maxEntries) :
    used (setEntry entries count (parseEntry body).1) (countAfter body count) =
      used entries count ++ (complete body).toList := by
  rw [countAfter, complete]
  split_ifs
  · exact used_setEntry_succ entries hcount _
  · rw [used_setEntry, Option.toList_none, List.append_nil]

lemma countAfter_eq (body : List UInt8) (count : ℕ) :
    countAfter body count = count + (complete body).toList.length := by
  rw [countAfter, complete]
  split_ifs <;> rfl

lemma length_complete (body : List UInt8) : (complete body).toList.length ≤ 1 := by
  cases complete body <;> simp

lemma jsonToEntriesFrom_succ (steps : ℕ) (text : List UInt8) (count : ℕ) (entries : Entries) :
    jsonToEntriesFrom (steps + 1) text count entries =
      if text.length = 0 ∨ maxEntries ≤ count then (entries, count)
      else (seek [opening] text).elim (entries, count) fun body =>
        (seek [closing] body).elim (setEntry entries count (parseEntry body).1, countAfter body count) fun text =>
          jsonToEntriesFrom steps text (countAfter body count) (setEntry entries count (parseEntry body).1) := by
  have hopening : utf8 "\x7b" = [opening] := by decide
  have hclosing : utf8 "\x7d" = [closing] := by decide
  rw [jsonToEntriesFrom, hopening, hclosing]
  split_ifs
  · rfl
  · cases seek [opening] text with
    | none => rfl
    | some body =>
      show _ = (seek [closing] body).elim _ _
      cases hclosed : seek [closing] body <;> simp only [hclosed] <;> rfl

/-- The loop adds what it finds to the entries that it has, as long as there is room. -/
lemma used_jsonToEntriesFrom {steps : ℕ} {text : List UInt8} (hsteps : text.length ≤ steps) {count : ℕ}
    (hcount : count ≤ maxEntries) (entries : Entries) :
    used (jsonToEntriesFrom steps text count entries).1 (jsonToEntriesFrom steps text count entries).2 =
      used entries count ++ (records true text).take (maxEntries - count) := by
  induction steps generalizing text count entries with
  | zero =>
    obtain rfl := List.eq_nil_of_length_eq_zero (Nat.le_zero.mp hsteps)
    simp [jsonToEntriesFrom, records]
  | succ steps ih =>
    rw [jsonToEntriesFrom_succ, records_seek_opening]
    split_ifs with hend
    · rcases hend with hempty | hfull
      · obtain rfl := List.eq_nil_of_length_eq_zero hempty
        simp [seek]
      · rw [Nat.sub_eq_zero_of_le hfull, List.take_zero, List.append_nil]
    · have hroom : count < maxEntries := Nat.lt_of_not_le (not_or.mp hend).2
      cases hopening : seek [opening] text with
      | none => simp
      | some body =>
        have hbody := length_seek (by simp) hopening
        have hone := length_complete body
        have htake : ∀ l : List VaultEntry, ((complete body).toList ++ l).take (maxEntries - count) =
            (complete body).toList ++ l.take (maxEntries - countAfter body count) := by
          intro l
          rw [List.take_append, List.take_of_length_le (by omega), countAfter_eq, Nat.sub_add_eq]
        rw [Option.elim_some, Option.elim_some, records_seek_closing, htake]
        cases hclosing : seek [closing] body with
        | none =>
          rw [Option.elim_none, Option.elim_none, used_countAfter body entries hroom, List.take_nil, List.append_nil]
        | some text' =>
          have htext := length_seek (by simp) hclosing
          have hcount' : countAfter body count ≤ maxEntries := by
            rw [countAfter_eq]
            omega
          rw [Option.elim_some, Option.elim_some, ih (by omega) hcount', used_countAfter body entries hroom,
            List.append_assoc]

end ThistleOS.Vault
