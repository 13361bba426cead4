import ThistleOS.Text

/-!
# Documents in XML

A reader for documents of tags with the text between them, and what it reads from a document that is written with
references to the five characters of the markup. It knows no comments and no sections.
-/

namespace ThistleOS.Xml

/-- A declaration, the start of an element with its attributes, or its end. -/
inductive Tag
  | decl (text : List Char)
  | start (name : List Char) (attrs : List (List Char × List Char))
  | stop (name : List Char)
  deriving DecidableEq

/-- A tag and the text in front of it. -/
structure Event where
  text : List Char
  tag : Tag
  deriving DecidableEq

/-- The tags and the text behind the last one. -/
structure Document where
  events : List Event
  text : List Char
  deriving DecidableEq

/-! ### Writing -/

def escapeChar (c : Char) : List Char :=
  if c = '&' then "&amp;".toList
  else if c = '<' then "&lt;".toList
  else if c = '>' then "&gt;".toList
  else if c = '"' then "&quot;".toList
  else if c = '\'' then "&apos;".toList
  else [c]

def escape (s : List Char) : List Char := s.flatMap escapeChar

/-- What stands between the quotes of the attributes, in turn with their values. -/
def attrPieces : List (List Char × List Char) → List (List Char)
  | [] => [[]]
  | (key, value) :: attrs => (' ' :: (key ++ ['='])) :: escape value :: attrPieces attrs

def Tag.inside : Tag → List Char
  | .decl text => '?' :: text
  | .start name attrs => name ++ ['"'].intercalate (attrPieces attrs)
  | .stop name => '/' :: name

def Event.piece (e : Event) : List Char := escape e.text ++ '<' :: e.tag.inside

def write (doc : Document) : List Char := doc.events.flatMap (fun e => e.piece ++ ['>']) ++ escape doc.text

/-! ### Reading -/

/-- The characters read so far, and a reference that has begun. -/
structure Unescaper where
  text : List Char
  reference : Option (List Char)

def entity (name : List Char) : Option Char :=
  if name = "amp".toList then some '&'
  else if name = "lt".toList then some '<'
  else if name = "gt".toList then some '>'
  else if name = "quot".toList then some '"'
  else if name = "apos".toList then some '\''
  else none

def Unescaper.step (u : Unescaper) (c : Char) : Option Unescaper :=
  match u.reference with
  | none => some (if c = '&' then { u with reference := some [] } else { u with text := u.text ++ [c] })
  | some name =>
    if c = ';' then (entity name).map fun c => ⟨u.text ++ [c], none⟩
    else some { u with reference := some (name ++ [c]) }

def Unescaper.finish (u : Unescaper) : Option (List Char) := if u.reference = none then some u.text else none

def unescape (s : List Char) : Option (List Char) := (s.foldlM Unescaper.step ⟨[], none⟩).bind Unescaper.finish

/-- A blank, a key and an equals sign. -/
def readKey : List Char → Option (List Char)
  | ' ' :: cs => if cs.getLast? = some '=' then some cs.dropLast else none
  | _ => none

def readAttrs : List (List Char) → Option (List (List Char × List Char))
  | [] => none
  | [last] => if last = [] then some [] else none
  | key :: value :: pieces => do
    let key ← readKey key
    let value ← unescape value
    let attrs ← readAttrs pieces
    return (key, value) :: attrs

def readTag : List Char → Option Tag
  | '?' :: text => some (.decl text)
  | '/' :: name => some (.stop name)
  | cs => do
    let attrs ← readAttrs ((cs.dropWhile (· ≠ ' ')).splitOn '"')
    return .start (cs.takeWhile (· ≠ ' ')) attrs

def readPiece (piece : List Char) : Option Event :=
  match piece.dropWhile (· ≠ '<') with
  | [] => none
  | _ :: inside => do
    let text ← unescape (piece.takeWhile (· ≠ '<'))
    let tag ← readTag inside
    return ⟨text, tag⟩

def readPieces : List (List Char) → Option Document
  | [] => none
  | [last] => if '<' ∈ last then none else (unescape last).map (⟨[], ·⟩)
  | piece :: pieces => do
    let e ← readPiece piece
    let doc ← readPieces pieces
    return { doc with events := e :: doc.events }

def read (s : List Char) : Option Document := readPieces (s.splitOn '>')

/-! ### What is read from what is written -/

/-- A name of letters and digits. -/
def IsName (s : List Char) : Prop := s ≠ [] ∧ ∀ c ∈ s, c.isAlphanum = true

instance (s : List Char) : Decidable (IsName s) :=
  decidable_of_iff (s ≠ [] ∧ s.all Char.isAlphanum = true) (and_congr_right fun _ => List.all_eq_true)

/-- A tag that can be written. -/
def Tag.Plain : Tag → Prop
  | .decl text => '<' ∉ text ∧ '>' ∉ text
  | .start name attrs => IsName name ∧ ∀ attr ∈ attrs, IsName attr.1
  | .stop name => IsName name

lemma IsName.notMem {s : List Char} (h : IsName s) {c : Char} (hc : c.isAlphanum = false) : c ∉ s := fun hmem => by
  rw [h.2 c hmem] at hc
  cases hc

/-- The five characters are written as references. -/
lemma notMem_escape {c : Char} (hc : c ∈ "<>\"'".toList) (s : List Char) : c ∉ escape s := by
  rw [escape, List.mem_flatMap]
  rintro ⟨c', -, hmem⟩
  rw [escapeChar] at hmem
  have hlist : c = '<' ∨ c = '>' ∨ c = '"' ∨ c = '\'' := by simpa using hc
  split_ifs at hmem with h1 h2 h3 h4 h5
  · rcases hlist with rfl | rfl | rfl | rfl <;> exact absurd hmem (by decide)
  · rcases hlist with rfl | rfl | rfl | rfl <;> exact absurd hmem (by decide)
  · rcases hlist with rfl | rfl | rfl | rfl <;> exact absurd hmem (by decide)
  · rcases hlist with rfl | rfl | rfl | rfl <;> exact absurd hmem (by decide)
  · rcases hlist with rfl | rfl | rfl | rfl <;> exact absurd hmem (by decide)
  · obtain rfl := List.mem_singleton.mp hmem
    rcases hlist with rfl | rfl | rfl | rfl <;> contradiction

/-- A text without the five characters is written as it is. -/
lemma escape_plain {s : List Char} (h : ∀ c ∈ s, c ∉ "&<>\"'".toList) : escape s = s := by
  induction s with
  | nil => rfl
  | cons c s ih =>
    have hcons : escape (c :: s) = escapeChar c ++ escape s := rfl
    have hne : ¬(c = '&' ∨ c = '<' ∨ c = '>' ∨ c = '"' ∨ c = '\'') := by simpa using h c List.mem_cons_self
    simp only [not_or] at hne
    rw [hcons, ih fun c' hc' => h c' (List.mem_cons_of_mem c hc')]
    simp [escapeChar, hne]

lemma foldlM_escapeChar (text : List Char) (c : Char) :
    (escapeChar c).foldlM Unescaper.step ⟨text, none⟩ = some ⟨text ++ [c], none⟩ := by
  rw [escapeChar]
  split_ifs with h1 h2 h3 h4 h5
  · subst h1; rfl
  · subst h2; rfl
  · subst h3; rfl
  · subst h4; rfl
  · subst h5; rfl
  · simp [Unescaper.step, h1]

lemma foldlM_escape (text s : List Char) :
    (escape s).foldlM Unescaper.step ⟨text, none⟩ = some ⟨text ++ s, none⟩ := by
  induction s generalizing text with
  | nil => simp [escape]
  | cons c s ih =>
    have hcons : escape (c :: s) = escapeChar c ++ escape s := rfl
    rw [hcons, List.foldlM_append, foldlM_escapeChar, Option.bind_eq_bind, Option.bind_some, ih, List.append_assoc]
    rfl

/-- References are read as the characters they stand for. -/
theorem unescape_escape (s : List Char) : unescape (escape s) = some s := by
  rw [unescape, foldlM_escape]
  rfl

lemma readKey_key (key : List Char) : readKey (' ' :: (key ++ ['='])) = some key := by
  rw [readKey, List.getLast?_concat, if_pos rfl, List.dropLast_concat]

lemma readAttrs_attrPieces (attrs : List (List Char × List Char)) : readAttrs (attrPieces attrs) = some attrs := by
  induction attrs with
  | nil => rfl
  | cons attr attrs ih =>
    obtain ⟨key, value⟩ := attr
    rw [attrPieces, readAttrs, readKey_key, unescape_escape, ih]
    · rfl

lemma notMem_attrPieces {c : Char} (hc : c ∈ "<>\"".toList) {attrs : List (List Char × List Char)}
    (h : ∀ attr ∈ attrs, c ∉ attr.1) : ∀ piece ∈ attrPieces attrs, c ∉ piece := by
  have hlist : c = '<' ∨ c = '>' ∨ c = '"' := by simpa using hc
  induction attrs with
  | nil => simp [attrPieces]
  | cons attr attrs ih =>
    obtain ⟨key, value⟩ := attr
    intro piece hpiece
    have hkey : c ∉ key := h _ List.mem_cons_self
    rcases List.mem_cons.mp hpiece with rfl | hpiece
    · rcases hlist with rfl | rfl | rfl <;> simpa using hkey
    · rcases List.mem_cons.mp hpiece with rfl | hpiece
      · exact notMem_escape (by rcases hlist with rfl | rfl | rfl <;> decide) value
      · exact ih (fun attr hattr => h attr (List.mem_cons_of_mem _ hattr)) piece hpiece

/-- The first of the characters is where the text before it ends. -/
lemma takeWhile_ne {c : Char} {s : List Char} (h : c ∉ s) (s' : List Char) :
    (s ++ c :: s').takeWhile (· ≠ c) = s := by
  have hpos : ∀ c' ∈ s, decide (c' ≠ c) = true := fun c' hc' => decide_eq_true fun he => h (he ▸ hc')
  rw [List.takeWhile_append_of_pos hpos, List.takeWhile_cons_of_neg (by simp), List.append_nil]

lemma dropWhile_ne {c : Char} {s : List Char} (h : c ∉ s) (s' : List Char) :
    (s ++ c :: s').dropWhile (· ≠ c) = c :: s' := by
  have hpos : ∀ c' ∈ s, decide (c' ≠ c) = true := fun c' hc' => decide_eq_true fun he => h (he ▸ hc')
  rw [List.dropWhile_append_of_pos hpos, List.dropWhile_cons_of_neg (by simp)]

lemma attrPieces_ne_nil (attrs : List (List Char × List Char)) : attrPieces attrs ≠ [] := by
  cases attrs <;> simp [attrPieces]

lemma readTag_start {name : List Char} {attrs : List (List Char × List Char)} (hname : IsName name)
    (hattrs : ∀ attr ∈ attrs, IsName attr.1) :
    readTag (Tag.start name attrs).inside = some (.start name attrs) := by
  have hsplit := List.splitOn_intercalate '"'
    (notMem_attrPieces (by decide) fun attr h => (hattrs attr h).notMem (by decide))
     (attrPieces_ne_nil attrs)
  have hblank : ' ' ∉ name := hname.notMem (by decide)
  have hspan : (Tag.start name attrs).inside.takeWhile (· ≠ ' ') = name ∧
      (Tag.start name attrs).inside.dropWhile (· ≠ ' ') = ['"'].intercalate (attrPieces attrs) := by
    rw [Tag.inside]
    cases attrs with
    | nil =>
      have hpos : ∀ c ∈ name, decide (c ≠ ' ') = true := fun c hc => decide_eq_true fun he => hblank (he ▸ hc)
      rw [attrPieces, List.intercalate_singleton, List.append_nil]
      exact ⟨List.takeWhile_eq_self_iff.mpr hpos, List.dropWhile_eq_nil_iff.mpr hpos⟩
    | cons attr attrs =>
      obtain ⟨s', hs'⟩ : ∃ s', ['"'].intercalate (attrPieces (attr :: attrs)) = ' ' :: s' := by
        rw [attrPieces, List.intercalate_cons_cons]
        exact ⟨_, rfl⟩
      rw [hs']
      exact ⟨takeWhile_ne hblank s', dropWhile_ne hblank s'⟩
  obtain ⟨c, cs, hcs⟩ := List.exists_cons_of_ne_nil hname.1
  have hc : c.isAlphanum = true := hname.2 c (by rw [hcs]; exact List.mem_cons_self)
  have hinside : (Tag.start name attrs).inside = c :: (cs ++ ['"'].intercalate (attrPieces attrs)) := by
    rw [Tag.inside, hcs]
    rfl
  rw [hinside] at hspan ⊢
  rw [readTag, hspan.1, hspan.2, hsplit, readAttrs_attrPieces]
  · rfl
  · intro text heq
    rw [(List.cons.inj heq).1] at hc
    cases hc
  · intro text heq
    rw [(List.cons.inj heq).1] at hc
    cases hc

lemma readTag_inside {tag : Tag} (h : tag.Plain) : readTag tag.inside = some tag := by
  cases tag with
  | decl text => rfl
  | start name attrs => exact readTag_start h.1 h.2
  | stop name => rfl

/-- What is inside of a tag has no angle bracket. -/
lemma notMem_inside {tag : Tag} (h : tag.Plain) {c : Char} (hc : c = '<' ∨ c = '>') : c ∉ tag.inside := by
  have hname : ∀ {s}, IsName s → c ∉ s := fun hs => hs.notMem (by rcases hc with rfl | rfl <;> decide)
  cases tag with
  | decl text =>
    rw [Tag.inside, List.mem_cons]
    rcases hc with rfl | rfl
    · simpa using h.1
    · simpa using h.2
  | stop name =>
    rw [Tag.inside, List.mem_cons]
    rcases hc with rfl | rfl <;> simpa using hname h
  | start name attrs =>
    rw [Tag.inside, List.mem_append, not_or]
    refine ⟨hname h.1, fun hmem => ?_⟩
    rcases mem_intercalate hmem with hmem | ⟨piece, hpiece, hmem⟩
    · rcases hc with rfl | rfl <;> exact absurd hmem (by decide)
    · exact notMem_attrPieces (by rcases hc with rfl | rfl <;> decide) (fun attr hattr => hname (h.2 attr hattr)) piece
        hpiece hmem

lemma readPiece_piece {e : Event} (h : e.tag.Plain) : readPiece e.piece = some e := by
  have hopen : '<' ∉ escape e.text := notMem_escape (by decide) e.text
  rw [readPiece, Event.piece, dropWhile_ne hopen, takeWhile_ne hopen]
  dsimp only
  rw [readTag_inside h, unescape_escape]
  rfl

lemma readPieces_cons (piece : List Char) {pieces : List (List Char)} (h : pieces ≠ []) :
    readPieces (piece :: pieces) = (readPiece piece).bind fun e =>
      (readPieces pieces).map fun doc => { doc with events := e :: doc.events } := by
  cases pieces with
  | nil => contradiction
  | cons piece' pieces =>
    rw [readPieces]
    · cases readPiece piece with
      | none => rfl
      | some e => cases readPieces (piece' :: pieces) <;> rfl
    · simp

/-- A document is read as it was written. -/
theorem read_write {doc : Document} (h : ∀ e ∈ doc.events, e.tag.Plain) : read (write doc) = some doc := by
  obtain ⟨events, text⟩ := doc
  rw [read, write]
  dsimp only at h ⊢
  induction events with
  | nil =>
    rw [List.flatMap_nil, List.nil_append, List.splitOn_eq_singleton (notMem_escape (by decide) text), readPieces,
      if_neg (notMem_escape (by decide) text), unescape_escape]
    rfl
  | cons e events ih =>
    have hpiece : '>' ∉ e.piece := by
      rw [Event.piece, List.mem_append, List.mem_cons, not_or, not_or]
      exact ⟨notMem_escape (by decide) e.text, by decide, notMem_inside (h e List.mem_cons_self) (.inr rfl)⟩
    rw [List.flatMap_cons, List.append_assoc, List.append_assoc, List.singleton_append,
      List.splitOn_append_cons_self_of_not_mem hpiece, readPieces_cons _ (List.splitOn_ne_nil _ _),
      readPiece_piece (h e List.mem_cons_self), ih fun e' he' => h e' (List.mem_cons_of_mem e he')]
    rfl

end ThistleOS.Xml
