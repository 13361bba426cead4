import ThistleOS.Apps.Vault.EntriesText

/-!
# The entries after a save and a load

The text of the entries fits its buffer, and the reader finds in it every entry that was written, in order; between two
entries it finds what it makes up from a closing brace and an opening one behind it in the fields of the first.
-/

namespace ThistleOS.Vault

/-! ### Braces in the fields -/

/-- The opening braces in a text that the reader takes for the start of an object. -/
def strays : Bool → List UInt8 → ℕ
  | _, [] => 0
  | opens, c :: s => (if opens && c == opening then 1 else 0) + strays (step opens c) s

/-- What the reader looks for behind a text. -/
def stepAll (opens : Bool) (s : List UInt8) : Bool := s.foldl step opens

lemma strays_append (opens : Bool) (a b : List UInt8) :
    strays opens (a ++ b) = strays opens a + strays (stepAll opens a) b := by
  induction a generalizing opens with
  | nil => simp [strays, stepAll]
  | cons c a ih => rw [List.cons_append, strays, strays, ih, Nat.add_assoc, stepAll, stepAll, List.foldl_cons]

lemma strays_true_eq_zero_iff (s : List UInt8) : strays true s = 0 ↔ opening ∉ s := by
  induction s with
  | nil => simp [strays]
  | cons c s ih =>
    by_cases hc : c = opening
    · subst hc
      simp [strays]
    · have hstep : step true c = true := by simpa [step] using hc
      simp [strays, hstep, ih, hc, Ne.symm hc]

/-- There is none exactly if no opening brace stands behind a closing one. -/
lemma strays_false_eq_zero_iff (s : List UInt8) : strays false s = 0 ↔ ¬ [closing, opening].Sublist s := by
  induction s with
  | nil => simp [strays]
  | cons c s ih =>
    by_cases hc : c = closing
    · subst hc
      have hstep : step false closing = true := rfl
      rw [strays, hstep, List.cons_sublist_cons, List.singleton_sublist, ← strays_true_eq_zero_iff]
      simp
    · have hstep : step false c = false := by simpa [step] using hc
      rw [strays, hstep]
      simp only [Bool.false_and, Bool.false_eq_true, if_false, Nat.zero_add, ih]
      rw [not_iff_not]
      constructor
      · exact fun h => h.cons c
      · intro h
        cases h with
        | cons _ h => exact h
        | cons_cons _ h => exact absurd rfl hc

/-! ### What the reader finds -/

/-- Neither brace. -/
def Plain (c : UInt8) : Prop := c ≠ opening ∧ c ≠ closing

lemma step_of_plain {c : UInt8} (hc : Plain c) (opens : Bool) : step opens c = opens := by
  cases opens
  · simpa [step] using hc.2
  · simpa [step] using hc.1

lemma records_cons {c : UInt8} (hc : Plain c) (opens : Bool) (text : List UInt8) :
    records opens (c :: text) = records opens text := by
  rw [records, step_of_plain hc]
  simp [hc.1]

lemma records_append {l : List UInt8} (hl : ∀ c ∈ l, Plain c) (opens : Bool) (text : List UInt8) :
    records opens (l ++ text) = records opens text := by
  induction l with
  | nil => rfl
  | cons c l ih =>
    obtain ⟨hc, hl⟩ := List.forall_mem_cons.mp hl
    rw [List.cons_append, records_cons hc, ih hl]

/-- So many objects, or none if they are not complete. -/
def found (n : ℕ) (object : Option VaultEntry) : List VaultEntry := (List.replicate n object.toList).flatten

lemma found_succ (n : ℕ) (object : Option VaultEntry) : found (n + 1) object = object.toList ++ found n object := by
  rw [found, List.replicate_succ, List.flatten_cons, found]

lemma found_some (n : ℕ) (e : VaultEntry) : found n (some e) = List.replicate n e := by
  induction n with
  | zero => rfl
  | succ n ih =>
    rw [found_succ, ih, List.replicate_succ]
    rfl

lemma found_none (n : ℕ) : found n none = [] := by
  induction n with
  | zero => rfl
  | succ n ih => rw [found_succ, ih]; rfl

/-- Each object that begins in a value is the one that the text behind the value makes. -/
lemma records_value {c : UInt8} (hc : c = comma ∨ c = closing) (opens : Bool) (s rest : List UInt8) :
    records opens (escape s ++ quote :: c :: rest) =
      found (strays opens s) (complete rest) ++ records (stepAll opens s) (c :: rest) := by
  induction s generalizing opens with
  | nil => rw [escape_nil, List.nil_append, records_cons ⟨by decide, by decide⟩, strays]; rfl
  | cons x s ih =>
    rw [escape_cons]
    split_ifs with hx
    · have hplain : Plain x := by rcases hx with rfl | rfl <;> exact ⟨by decide, by decide⟩
      have hstray : (opens && x == opening) = false := by simp [hplain.1]
      rw [List.cons_append, List.cons_append, records_cons ⟨by decide, by decide⟩, records_cons hplain, ih, strays, hstray,
        step_of_plain hplain, stepAll, stepAll, List.foldl_cons, step_of_plain hplain, if_neg (by decide), Nat.zero_add]
    · rw [List.cons_append, records, ih, complete_value hc, strays, stepAll, stepAll, List.foldl_cons]
      split_ifs with hopens
      · rw [Nat.add_comm, found_succ, List.append_assoc]
      · rw [Nat.zero_add, List.nil_append]

set_option maxRecDepth 4096 in
lemma plain_quoted {key : List UInt8} (hkey : key ∈ keys) : ∀ c ∈ quoted key, Plain c := by
  have hkeys : ∀ key ∈ keys, ∀ c ∈ quoted key, c ≠ opening ∧ c ≠ closing := by decide
  exact hkeys key hkey

lemma records_field {key : List UInt8} (hkey : key ∈ keys) {c : UInt8} (hc : c = comma ∨ c = closing) (opens : Bool)
    (s rest : List UInt8) : records opens (field key s (c :: rest)) =
      found (strays opens s) (complete rest) ++ records (stepAll opens s) (c :: rest) := by
  rw [field, records_append (plain_quoted hkey), records_value hc]

/-! ### The stored text as a whole -/

/-- The objects behind one that has been written. -/
def behind : List EntryTexts → List UInt8
  | [] => last
  | t :: ts => between (t.fromName (behind ts))

/-- The text of the entries. -/
def objectsText : List EntryTexts → List UInt8
  | [] => utf8 "[" ++ last
  | t :: ts => utf8 "[\x7b" ++ t.fromName (behind ts)

/-- What the reader makes up between two entries. -/
def madeUp (t t' : EntryTexts) : List EntryTexts :=
  let afterName := stepAll false t.name
  let afterUser := stepAll afterName t.user
  let afterPass := stepAll afterUser t.pass
  List.replicate (strays false t.name) { t with name := t'.name } ++
    (List.replicate (strays afterName t.user) { t with name := t'.name, user := t'.user } ++
      (List.replicate (strays afterUser t.pass) { t' with notes := t.notes } ++
        List.replicate (strays afterPass t.notes) t'))

def rereadBehind : EntryTexts → List EntryTexts → List EntryTexts
  | _, [] => []
  | t, t' :: ts => madeUp t t' ++ t' :: rereadBehind t' ts

/-- What the reader finds where these entries were written. -/
def reread : List EntryTexts → List EntryTexts
  | [] => []
  | t :: ts => t :: rereadBehind t ts

lemma records_between (opens : Bool) (rest : List UInt8) :
    records opens (closing :: between rest) = (complete rest).toList ++ records false rest := by
  cases opens <;> rfl

lemma records_last (opens : Bool) : records opens (closing :: last) = [] := by
  cases opens <;> decide

lemma records_fromName_last (t : EntryTexts) : records false (t.fromName last) = [] := by
  rw [EntryTexts.fromName, records_field (by decide) (.inl rfl), complete_fromUser_last, records_cons ⟨by decide, by decide⟩,
    EntryTexts.fromUser, records_field (by decide) (.inl rfl), complete_fromPass_last, records_cons ⟨by decide, by decide⟩,
    EntryTexts.fromPass, records_field (by decide) (.inl rfl), complete_fromNotes_last, records_cons ⟨by decide, by decide⟩,
    EntryTexts.fromNotes, records_field (by decide) (.inr rfl), complete_last, records_last]
  simp only [found_none, List.append_nil]

lemma records_fromName_between {t t' : EntryTexts} (ht : t.Fits) (ht' : t'.Fits) (rest : List UInt8) :
    records false (t.fromName (between (t'.fromName rest))) =
      (madeUp t t').map EntryTexts.entry ++ t'.entry :: records false (t'.fromName rest) := by
  rw [EntryTexts.fromName, records_field (by decide) (.inl rfl), complete_fromUser ht ht',
    records_cons ⟨by decide, by decide⟩,
    EntryTexts.fromUser, records_field (by decide) (.inl rfl), complete_fromPass ht ht', records_cons ⟨by decide, by decide⟩,
    EntryTexts.fromPass, records_field (by decide) (.inl rfl), complete_fromNotes ht ht', records_cons ⟨by decide, by decide⟩,
    EntryTexts.fromNotes, records_field (by decide) (.inr rfl), complete_between ht', records_between, complete_fromName ht']
  simp [found_some, madeUp]

lemma records_fromName {t : EntryTexts} {ts : List EntryTexts} (ht : t.Fits) (hts : ∀ t' ∈ ts, t'.Fits) :
    records false (t.fromName (behind ts)) = (rereadBehind t ts).map EntryTexts.entry := by
  induction ts generalizing t with
  | nil => exact records_fromName_last t
  | cons t' ts ih =>
    obtain ⟨ht', hts⟩ := List.forall_mem_cons.mp hts
    rw [behind, records_fromName_between ht ht', ih ht' hts, rereadBehind, List.map_append, List.map_cons]

lemma records_objectsText {ts : List EntryTexts} (hts : ∀ t ∈ ts, t.Fits) :
    records true (objectsText ts) = (reread ts).map EntryTexts.entry := by
  cases ts with
  | nil => rfl
  | cons t ts =>
    obtain ⟨ht, hts⟩ := List.forall_mem_cons.mp hts
    show (complete (t.fromName (behind ts))).toList ++ records false (t.fromName (behind ts)) = _
    rw [complete_fromName ht, records_fromName ht hts]
    rfl

/-! ### The entries of a vault -/

/-- The text of a field, up to its terminating zero. -/
def fieldText (value : Arr fieldMax) : List UInt8 := (CStr.ofBuffer value.bytes).bytes

def VaultEntry.texts (e : VaultEntry) : EntryTexts :=
  ⟨fieldText e.name, fieldText e.username, fieldText e.password, fieldText e.notes⟩

/-- The texts of the entries in use. -/
def textsOf (entries : Entries) (count : ℕ) : List EntryTexts := (used entries count).map VaultEntry.texts

lemma fieldText_ofSlice {s : List UInt8} (hs : s.length < fieldMax ∧ 0 ∉ s) : fieldText (.ofSlice s) = s := by
  have hpad : (Arr.ofSlice s : Arr fieldMax) = .ofSlice (s ++ 0 :: List.replicate (fieldMax - s.length - 1) 0) := by
    funext i
    rw [Arr.ofSlice, Arr.ofSlice, List.getD_eq_getElem?_getD, List.getD_eq_getElem?_getD, List.getElem?_append]
    split_ifs with hi
    · rfl
    · rw [List.getElem?_eq_none (Nat.le_of_not_lt hi), ← List.replicate_succ, List.getElem?_replicate]
      split_ifs <;> rfl
  have hlength : (s ++ 0 :: List.replicate (fieldMax - s.length - 1) 0).length = fieldMax := by
    rw [List.length_append, List.length_cons, List.length_replicate]
    omega
  have hall : ∀ c ∈ s, (c != 0) = true := fun c hc => bne_iff_ne.mpr fun h => hs.2 (h ▸ hc)
  rw [fieldText, CStr.ofBuffer, hpad, Arr.bytes_ofSlice hlength]
  show List.takeWhile _ _ = s
  rw [List.takeWhile_append_of_pos hall]
  simp

lemma EntryTexts.texts_entry {t : EntryTexts} (ht : t.Fits) : t.entry.texts = t := by
  rw [VaultEntry.texts, EntryTexts.entry]
  simp only [fieldText_ofSlice ht.name, fieldText_ofSlice ht.user, fieldText_ofSlice ht.pass, fieldText_ofSlice ht.notes]

lemma appendField_eq {value : Arr fieldMax} (h : (fieldText value).length < fieldMax) (key : String) (rest : List UInt8) :
    appendField key value ++ rest = field (utf8 key) (fieldText value) rest := by
  have hroom : 0 + 2 * (fieldText value).length + 1 < fieldMax * 2 + 2 := by omega
  have hquote : utf8 "\"" = [quote] := by decide
  rw [appendField, ← fieldText, jsonEscape_eq _ hroom, needle_eq, hquote, field]
  simp

lemma entryToJson_eq {e : VaultEntry} (he : e.texts.Fits) (rest : List UInt8) :
    entryToJson e ++ rest = opening :: e.texts.fromName rest := by
  have hopening : utf8 "\x7b" = [opening] := by decide
  have hclosing : utf8 "\x7d" = [closing] := by decide
  have hcomma : utf8 "," = [comma] := by decide
  rw [entryToJson, hopening, hclosing, hcomma]
  simp only [List.append_assoc, List.cons_append, List.nil_append]
  rw [appendField_eq he.name.1, appendField_eq he.user.1, appendField_eq he.pass.1, appendField_eq he.notes.1]
  rfl

lemma behind_map {es : List VaultEntry} (hes : ∀ e ∈ es, e.texts.Fits) :
    behind (es.map VaultEntry.texts) = es.flatMap (fun e => comma :: entryToJson e) ++ last := by
  induction es with
  | nil => rfl
  | cons e es ih =>
    obtain ⟨he, hes⟩ := List.forall_mem_cons.mp hes
    rw [List.map_cons, behind, ih hes, between, ← entryToJson_eq he, List.flatMap_cons, List.cons_append, List.cons_append,
      List.append_assoc]

lemma intercalate_comma (e : VaultEntry) (es : List VaultEntry) : (utf8 ",").intercalate ((e :: es).map entryToJson) =
    entryToJson e ++ es.flatMap (fun e => comma :: entryToJson e) := by
  induction es generalizing e with
  | nil => simp
  | cons e' es ih =>
    have hcomma : utf8 "," = [comma] := by decide
    rw [List.map_cons, List.map_cons, List.intercalate_cons_cons, ← List.map_cons, ih e', List.flatMap_cons, hcomma]
    simp

def SVault.texts (vault : SVault) : List EntryTexts := textsOf vault.entries vault.entryCount

lemma entriesToJson_eq {vault : SVault} (h : ∀ t ∈ vault.texts, t.Fits) :
    entriesToJson vault = objectsText vault.texts := by
  have hes : ∀ e ∈ used vault.entries vault.entryCount, e.texts.Fits := fun e he => h _ (List.mem_map_of_mem he)
  rw [entriesToJson, SVault.texts, textsOf]
  show utf8 "[" ++ (utf8 ",").intercalate ((used vault.entries vault.entryCount).map entryToJson) ++ utf8 "]" = _
  cases hused : used vault.entries vault.entryCount with
  | nil => rfl
  | cons e es =>
    rw [hused] at hes
    obtain ⟨he, hes⟩ := List.forall_mem_cons.mp hes
    rw [intercalate_comma, List.map_cons, objectsText, behind_map hes]
    have hopen : utf8 "[\x7b" = utf8 "[" ++ [opening] := by decide
    rw [hopen, List.append_assoc, List.append_assoc, List.append_assoc, entryToJson_eq he]
    rfl

lemma mem_jsonEscape {dstMax : ℕ} {c : UInt8} (s : List UInt8) {out : ℕ} (h : c ∈ jsonEscape dstMax s out) :
    c ∈ s ∨ c = backslash := by
  induction s generalizing out with
  | nil => exact absurd h List.not_mem_nil
  | cons x s ih =>
    rw [jsonEscape] at h
    split_ifs at h
    · rcases List.mem_cons.mp h with rfl | h
      · exact .inr rfl
      · rcases List.mem_cons.mp h with rfl | h
        · exact .inl List.mem_cons_self
        · exact (ih h).imp_left (List.mem_cons_of_mem x)
    · rcases List.mem_cons.mp h with rfl | h
      · exact .inl List.mem_cons_self
      · exact (ih h).imp_left (List.mem_cons_of_mem x)
    · exact absurd h List.not_mem_nil

lemma noNul_appendField {key : String} (hkey : (0 : UInt8) ∉ needle key) (value : Arr fieldMax) :
    (0 : UInt8) ∉ appendField key value := by
  have hvalue : (0 : UInt8) ∉ jsonEscape (fieldMax * 2 + 2) (CStr.ofBuffer value.bytes).bytes 0 := by
    intro h
    rcases mem_jsonEscape _ h with h | h
    · exact (CStr.ofBuffer value.bytes).noNul h
    · cases h
  have hquote : (0 : UInt8) ∉ utf8 "\"" := by decide
  simp only [appendField, List.mem_append, not_or]
  exact ⟨⟨hkey, hvalue⟩, hquote⟩

lemma noNul_entryToJson (e : VaultEntry) : (0 : UInt8) ∉ entryToJson e := by
  have hname : (0 : UInt8) ∉ needle "name" := by decide
  have huser : (0 : UInt8) ∉ needle "user" := by decide
  have hpass : (0 : UInt8) ∉ needle "pass" := by decide
  have hnotes : (0 : UInt8) ∉ needle "notes" := by decide
  have hseps : (0 : UInt8) ∉ utf8 "\x7b" ∧ (0 : UInt8) ∉ utf8 "," ∧ (0 : UInt8) ∉ utf8 "\x7d" := by decide
  simp only [entryToJson, List.mem_append, not_or]
  exact ⟨⟨⟨⟨⟨⟨⟨⟨hseps.1, noNul_appendField hname _⟩, hseps.2.1⟩, noNul_appendField huser _⟩, hseps.2.1⟩,
    noNul_appendField hpass _⟩, hseps.2.1⟩, noNul_appendField hnotes _⟩, hseps.2.2⟩

/-- The text of the entries is a C string, whatever the fields hold. -/
lemma noNul_entriesToJson (vault : SVault) : (0 : UInt8) ∉ entriesToJson vault := by
  have hseps : (0 : UInt8) ∉ utf8 "[" ∧ (0 : UInt8) ∉ utf8 "]" := by decide
  simp only [entriesToJson, List.mem_append, not_or]
  refine ⟨⟨hseps.1, ?_⟩, hseps.2⟩
  cases (List.ofFn vault.entries).take vault.entryCount with
  | nil => exact List.not_mem_nil
  | cons e es =>
    rw [intercalate_comma, List.mem_append, List.mem_flatMap, not_or]
    refine ⟨noNul_entryToJson e, ?_⟩
    rintro ⟨e', -, he'⟩
    rcases List.mem_cons.mp he' with h | h
    · cases h
    · exact noNul_entryToJson e' h

lemma ofBuffer_of_noNul {s : List UInt8} (hs : (0 : UInt8) ∉ s) : (CStr.ofBuffer s).bytes = s := by
  have hall : ∀ c ∈ s, (c != 0) = true := fun c hc => bne_iff_ne.mpr fun h => hs (h ▸ hc)
  exact List.takeWhile_eq_self_iff.mpr hall

/-! ### The buffer of the text -/

/-- What the writer puts behind what it has written: a byte, or the text of a field. -/
inductive Piece
  | byte (c : UInt8)
  | text (t : List UInt8)

def Piece.bytes : Piece → List UInt8
  | .byte c => [c]
  | .text t => t

/-- A byte without room is left out; a text without room is cut, and the position behind it lies outside of the buffer. -/
def Piece.put (cap : ℕ) (buf : List UInt8) : Piece → Option (List UInt8)
  | .byte c => some (if buf.length + 1 < cap then buf ++ [c] else buf)
  | .text t => if buf.length + t.length < cap then some (buf ++ t) else none

def entryPieces (e : VaultEntry) : List Piece :=
  [.byte opening, .text (appendField "name" e.name), .byte comma, .text (appendField "user" e.username), .byte comma,
    .text (appendField "pass" e.password), .byte comma, .text (appendField "notes" e.notes), .byte closing]

/-- The pieces of the text, with a comma before each entry but the first. -/
def entriesPieces : List VaultEntry → List Piece
  | [] => []
  | e :: es => entryPieces e ++ es.flatMap fun e => .byte comma :: entryPieces e

def jsonPieces (vault : SVault) : List Piece :=
  .byte 0x5b :: (entriesPieces (used vault.entries vault.entryCount) ++ [.byte 0x5d])

/-- The size of the buffer. -/
def jsonCap (vault : SVault) : ℕ := vault.entryCount * (fieldMax * 8 + 64) + 16

/-- The text as it is written into its buffer. -/
def writeJson (vault : SVault) : Option (List UInt8) := (jsonPieces vault).foldlM (Piece.put (jsonCap vault)) []

/-- Pieces that all have room are written one behind the other. -/
lemma foldlM_put {cap : ℕ} (pieces : List Piece) {buf : List UInt8}
    (h : buf.length + (pieces.flatMap Piece.bytes).length + 1 < cap) :
    pieces.foldlM (Piece.put cap) buf = some (buf ++ pieces.flatMap Piece.bytes) := by
  induction pieces generalizing buf with
  | nil => simp
  | cons piece pieces ih =>
    rw [List.flatMap_cons, List.length_append] at h
    have hput : piece.put cap buf = some (buf ++ piece.bytes) := by
      cases piece with
      | byte c =>
        rw [Piece.bytes, List.length_singleton] at h
        rw [Piece.put, if_pos (by omega)]
        rfl
      | text t =>
        rw [Piece.bytes] at h
        rw [Piece.put, if_pos (by omega)]
        rfl
    rw [List.foldlM_cons, hput]
    show List.foldlM _ _ _ = _
    rw [ih (by rw [List.length_append]; omega), List.flatMap_cons, List.append_assoc]

lemma flatMap_entryPieces (e : VaultEntry) : (entryPieces e).flatMap Piece.bytes = entryToJson e := by
  have hopening : utf8 "\x7b" = [opening] := by decide
  have hclosing : utf8 "\x7d" = [closing] := by decide
  have hcomma : utf8 "," = [comma] := by decide
  simp [entryPieces, entryToJson, Piece.bytes, hopening, hclosing, hcomma]

lemma flatMap_jsonPieces (vault : SVault) : (jsonPieces vault).flatMap Piece.bytes = entriesToJson vault := by
  have hopen : utf8 "[" = [0x5b] := by decide
  have hclose : utf8 "]" = [0x5d] := by decide
  rw [entriesToJson, jsonPieces, ← used, hopen, hclose]
  cases used vault.entries vault.entryCount with
  | nil => rfl
  | cons e es =>
    rw [intercalate_comma]
    simp [entriesPieces, flatMap_entryPieces, Piece.bytes, List.flatMap_assoc]

lemma length_appendField {value : Arr fieldMax} (h : (fieldText value).length < fieldMax) (key : String) :
    (appendField key value).length ≤ (needle key).length + 127 := by
  have hroom : 0 + 2 * (fieldText value).length + 1 < fieldMax * 2 + 2 := by omega
  have hescape := length_escape (fieldText value)
  have hfield : fieldMax = 64 := rfl
  have hquote : (utf8 "\"").length = 1 := by decide
  rw [appendField, ← fieldText, jsonEscape_eq _ hroom, List.length_append, List.length_append, hquote]
  omega

lemma length_entryToJson {e : VaultEntry} (he : e.texts.Fits) : (entryToJson e).length ≤ 546 := by
  have hname := length_appendField he.name.1 "name"
  have huser := length_appendField he.user.1 "user"
  have hpass := length_appendField he.pass.1 "pass"
  have hnotes := length_appendField he.notes.1 "notes"
  have hneedles : (needle "name").length = 8 ∧ (needle "user").length = 8 ∧ (needle "pass").length = 8 ∧
    (needle "notes").length = 9 := by decide
  have hseps : (utf8 "\x7b").length = 1 ∧ (utf8 ",").length = 1 ∧ (utf8 "\x7d").length = 1 := by decide
  simp only [entryToJson, List.length_append]
  omega

lemma length_flatMap_le {es : List VaultEntry} (hes : ∀ e ∈ es, e.texts.Fits) :
    (es.flatMap fun e => comma :: entryToJson e).length ≤ 547 * es.length := by
  induction es with
  | nil => rfl
  | cons e es ih =>
    obtain ⟨he, hes⟩ := List.forall_mem_cons.mp hes
    have hentry := length_entryToJson he
    have hrest := ih hes
    rw [List.flatMap_cons, List.length_append, List.length_cons, List.length_cons]
    omega

lemma length_entriesToJson {vault : SVault} (h : ∀ t ∈ vault.texts, t.Fits) :
    (entriesToJson vault).length ≤ 547 * vault.entryCount + 2 := by
  have hes : ∀ e ∈ used vault.entries vault.entryCount, e.texts.Fits := fun e he => h _ (List.mem_map_of_mem he)
  have hcount : (used vault.entries vault.entryCount).length ≤ vault.entryCount := List.length_take_le _ _
  have hseps : (utf8 "[").length = 1 ∧ (utf8 "]").length = 1 := by decide
  rw [entriesToJson, ← used, List.length_append, List.length_append]
  cases hused : used vault.entries vault.entryCount with
  | nil =>
    rw [List.map_nil, List.intercalate_nil, List.length_nil]
    omega
  | cons e es =>
    rw [hused] at hes hcount
    obtain ⟨he, hes⟩ := List.forall_mem_cons.mp hes
    have hentry := length_entryToJson he
    have hrest := length_flatMap_le hes
    rw [List.length_cons] at hcount
    rw [intercalate_comma, List.length_append]
    omega

/-- No text is cut off, and the whole fits with its terminating zero. -/
lemma writeJson_eq {vault : SVault} (h : ∀ t ∈ vault.texts, t.Fits) : writeJson vault = some (entriesToJson vault) := by
  have hlength := length_entriesToJson h
  have hcap : jsonCap vault = vault.entryCount * 576 + 16 := rfl
  rw [writeJson, foldlM_put, flatMap_jsonPieces, List.nil_append]
  rw [flatMap_jsonPieces, List.length_nil, hcap]
  omega

/-! ### The entries read back -/

/-- The texts that a load makes of the text of the entries. -/
def rereadTexts (vault : SVault) (entries : Entries) : List EntryTexts :=
  let loaded := jsonToEntries (.ofBuffer (entriesToJson vault)) entries
  textsOf loaded.1 loaded.2

lemma fits_entry_texts {t t' : EntryTexts} (ht : t.Fits) (ht' : t'.Fits) : ∀ x ∈ madeUp t t', x.Fits := by
  intro x hx
  simp only [madeUp, List.mem_append, List.mem_replicate] at hx
  rcases hx with ⟨-, rfl⟩ | ⟨-, rfl⟩ | ⟨-, rfl⟩ | ⟨-, rfl⟩
  · exact ⟨ht'.name, ht.user, ht.pass, ht.notes⟩
  · exact ⟨ht'.name, ht'.user, ht.pass, ht.notes⟩
  · exact ⟨ht'.name, ht'.user, ht'.pass, ht.notes⟩
  · exact ht'

lemma fits_rereadBehind {t : EntryTexts} {ts : List EntryTexts} (ht : t.Fits) (hts : ∀ x ∈ ts, x.Fits) :
    ∀ x ∈ rereadBehind t ts, x.Fits := by
  induction ts generalizing t with
  | nil => exact fun x hx => absurd hx List.not_mem_nil
  | cons t' ts ih =>
    obtain ⟨ht', hts⟩ := List.forall_mem_cons.mp hts
    rw [rereadBehind, List.forall_mem_append]
    exact ⟨fits_entry_texts ht ht', List.forall_mem_cons.mpr ⟨ht', ih ht' hts⟩⟩

lemma fits_reread {ts : List EntryTexts} (hts : ∀ x ∈ ts, x.Fits) : ∀ x ∈ reread ts, x.Fits := by
  cases ts with
  | nil => exact hts
  | cons t ts =>
    obtain ⟨ht, hts⟩ := List.forall_mem_cons.mp hts
    exact List.forall_mem_cons.mpr ⟨ht, fits_rereadBehind ht hts⟩

/-- A load finds the entries and what it makes up between them, up to the size of the array. -/
lemma rereadTexts_eq {vault : SVault} (h : ∀ t ∈ vault.texts, t.Fits) (entries : Entries) :
    rereadTexts vault entries = (reread vault.texts).take maxEntries := by
  have hread := used_jsonToEntriesFrom (Nat.le_refl (CStr.ofBuffer (entriesToJson vault)).bytes.length)
    (Nat.zero_le maxEntries) entries
  have hused : used entries 0 = [] := rfl
  rw [rereadTexts, textsOf]
  simp only [jsonToEntries]
  rw [hread, hused, List.nil_append, Nat.sub_zero, ofBuffer_of_noNul (noNul_entriesToJson vault), entriesToJson_eq h,
    records_objectsText h, List.map_take, List.map_map]
  congr 1
  conv_rhs => rw [← List.map_id (reread vault.texts)]
  exact List.map_congr_left fun t ht => EntryTexts.texts_entry (fits_reread h t ht)

/-- An opening brace stands somewhere behind a closing one in the fields. -/
def EntryTexts.Braced (t : EntryTexts) : Prop := [closing, opening].Sublist (t.name ++ (t.user ++ (t.pass ++ t.notes)))

lemma madeUp_eq_nil_iff (t t' : EntryTexts) : madeUp t t' = [] ↔ ¬ t.Braced := by
  rw [EntryTexts.Braced, ← strays_false_eq_zero_iff, strays_append, strays_append, strays_append]
  simp [madeUp]

/-- Nothing is made up exactly if no entry but the last one is braced. -/
lemma rereadBehind_length (t : EntryTexts) (ts : List EntryTexts) : ts.length ≤ (rereadBehind t ts).length ∧
    ((rereadBehind t ts).length = ts.length ↔ ∀ x ∈ (t :: ts).dropLast, ¬ x.Braced) := by
  induction ts generalizing t with
  | nil => exact ⟨Nat.le_refl _, by simp [rereadBehind]⟩
  | cons t' ts ih =>
    obtain ⟨hle, hiff⟩ := ih t'
    have hmade := madeUp_eq_nil_iff t t'
    rw [rereadBehind, List.length_append, List.length_cons, List.length_cons, List.dropLast_cons_cons, List.forall_mem_cons,
      ← hmade, ← hiff, ← List.length_eq_zero_iff]
    omega

lemma rereadBehind_eq {t : EntryTexts} {ts : List EntryTexts} (h : ∀ x ∈ (t :: ts).dropLast, ¬ x.Braced) :
    rereadBehind t ts = ts := by
  induction ts generalizing t with
  | nil => rfl
  | cons t' ts ih =>
    rw [List.dropLast_cons_cons, List.forall_mem_cons] at h
    rw [rereadBehind, (madeUp_eq_nil_iff t t').mpr h.1, ih h.2, List.nil_append]

lemma reread_eq {ts : List EntryTexts} (h : ∀ x ∈ ts.dropLast, ¬ x.Braced) : reread ts = ts := by
  cases ts with
  | nil => rfl
  | cons t ts => rw [reread, rereadBehind_eq h]

lemma not_braced_of_length {ts : List EntryTexts} (h : (reread ts).length = ts.length) : ∀ x ∈ ts.dropLast, ¬ x.Braced := by
  cases ts with
  | nil => exact fun x hx => absurd hx List.not_mem_nil
  | cons t ts => exact (rereadBehind_length t ts).2.mp (Nat.succ_inj.mp h)

/-- The text fits its buffer, and the entries are read back, exactly if no entry but the last one is braced, or the array is
full and what is made up looks like the entries that it displaces. -/
theorem entries_roundTrip_iff {vault : SVault} (hfits : ∀ t ∈ vault.texts, t.Fits) (entries : Entries) :
    (writeJson vault = some (entriesToJson vault) ∧ rereadTexts vault entries = vault.texts) ↔
      (∀ t ∈ vault.texts.dropLast, ¬ t.Braced) ∨
        vault.texts.length = maxEntries ∧ vault.texts <+: reread vault.texts := by
  have hmax : vault.texts.length ≤ maxEntries := by
    rw [SVault.texts, textsOf, List.length_map, used, List.length_take, List.length_ofFn]
    exact Nat.min_le_right _ _
  rw [writeJson_eq hfits, rereadTexts_eq hfits, eq_self_iff_true, true_and]
  constructor
  · intro h
    rcases Nat.lt_or_eq_of_le hmax with hlt | heq
    · left
      have hlength := congrArg List.length h
      rw [List.length_take] at hlength
      exact not_braced_of_length (by omega)
    · have hwithin := List.take_prefix maxEntries (reread vault.texts)
      rw [h] at hwithin
      exact .inr ⟨heq, hwithin⟩
  · rintro (h | ⟨hfull, hwithin⟩)
    · rw [reread_eq h, List.take_of_length_le hmax]
    · rw [← hfull]
      exact (List.prefix_iff_eq_take.mp hwithin).symm

/-- A vault that holds the entries with these texts. -/
def vaultOf (ts : List EntryTexts) : SVault :=
  { SVault.zero with entries := fun k => (ts[k.val]?.map EntryTexts.entry).getD .zero, entryCount := ts.length }

lemma texts_vaultOf {ts : List EntryTexts} (hlength : ts.length ≤ maxEntries) (hts : ∀ t ∈ ts, t.Fits) :
    (vaultOf ts).texts = ts := by
  apply List.ext_getElem?
  intro i
  rw [SVault.texts, textsOf, List.getElem?_map, used, List.getElem?_take, List.getElem?_ofFn]
  split_ifs with hi hlt
  · have hget : ts[i]? = some ts[i] := List.getElem?_eq_getElem hi
    simp only [vaultOf, hget, Option.map_some, Option.getD_some]
    rw [EntryTexts.texts_entry (hts _ (List.getElem_mem hi))]
  · exact absurd (Nat.lt_of_lt_of_le hi hlength) hlt
  · exact (List.getElem?_eq_none (Nat.le_of_not_lt hi)).symm

def sampleEntries : List EntryTexts :=
  [⟨utf8 "mail", utf8 "me", utf8 "\x7d\x7b", []⟩, ⟨utf8 "bank", utf8 "me", utf8 "pin", []⟩]

lemma fits_sampleEntries : ∀ t ∈ sampleEntries, t.Fits := by
  intro t ht
  simp only [sampleEntries, List.mem_cons, List.not_mem_nil, or_false] at ht
  rcases ht with rfl | rfl
  · exact ⟨by decide, by decide, by decide, by decide⟩
  · exact ⟨by decide, by decide, by decide, by decide⟩

lemma texts_sampleEntries : (vaultOf sampleEntries).texts = sampleEntries := texts_vaultOf (by decide) fits_sampleEntries

theorem entries_roundTrip_iff_sample :
    (writeJson (vaultOf sampleEntries) = some (entriesToJson (vaultOf sampleEntries)) ∧
      rereadTexts (vaultOf sampleEntries) SVault.zero.entries = (vaultOf sampleEntries).texts) ↔
      (∀ t ∈ (vaultOf sampleEntries).texts.dropLast, ¬ t.Braced) ∨
        (vaultOf sampleEntries).texts.length = maxEntries ∧
          (vaultOf sampleEntries).texts <+: reread (vaultOf sampleEntries).texts :=
  entries_roundTrip_iff (by rw [texts_sampleEntries]; exact fits_sampleEntries) _

/-- A third entry comes between the two: the braces of a password make it. -/
theorem sampleEntries_reread :
    rereadTexts (vaultOf sampleEntries) SVault.zero.entries ≠ (vaultOf sampleEntries).texts := by
  rw [rereadTexts_eq (by rw [texts_sampleEntries]; exact fits_sampleEntries), texts_sampleEntries]
  decide

end ThistleOS.Vault
