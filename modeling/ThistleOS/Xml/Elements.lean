import ThistleOS.Xml

/-!
# Elements of documents

Readers of the elements of a document, and the tags of elements that stand on lines of their own.
-/

namespace ThistleOS.Xml

/-! ### Readers -/

/-- A reader of the tags of a document. -/
abbrev TagReader (α : Type) := StateT (List Event) Option α

def nextEvent : TagReader Event
  | [] => none
  | e :: events => some (e, events)

/-- The start of an element with these attributes, after blanks. -/
def opening (name : List Char) (keys : List (List Char)) : TagReader (List (List Char)) := do
  let e ← nextEvent
  match e.tag with
  | .start name' attrs =>
    if name' = name ∧ attrs.map Prod.fst = keys ∧ e.text.all Char.isWhitespace then return attrs.map Prod.snd
    else failure
  | _ => failure

/-- The end of an element, with the text in front of it. -/
def closing (name : List Char) : TagReader (List Char) := do
  let e ← nextEvent
  if e.tag = .stop name then return e.text else failure

/-- The end of an element with elements. -/
def closingBlank (name : List Char) : TagReader Unit := do
  let text ← closing name
  if text.all Char.isWhitespace then return () else failure

/-- An element with a text. -/
def leaf (name : List Char) : TagReader (List Char) := do
  let _ ← opening name []
  closing name

/-- As many items as there are. -/
def many {α : Type} (item : TagReader α) : ℕ → TagReader (List α)
  | 0, events => some ([], events)
  | n + 1, events =>
    match item events with
    | none => some ([], events)
    | some (x, events) => (many item n events).map fun (xs, events) => (x :: xs, events)

def all {α : Type} (item : TagReader α) : TagReader (List α) := fun events => many item events.length events

/-! ### Lines -/

/-- An element with a text, behind a line break and blanks. -/
def leafEvents (indent : ℕ) (name text : List Char) : List Event :=
  [⟨'\n' :: List.replicate indent ' ', .start name []⟩, ⟨text, .stop name⟩]

def openEvent (indent : ℕ) (name : List Char) (attrs : List (List Char × List Char)) : Event :=
  ⟨'\n' :: List.replicate indent ' ', .start name attrs⟩

def closeEvent (indent : ℕ) (name : List Char) : Event := ⟨'\n' :: List.replicate indent ' ', .stop name⟩

/-- The text of some tags, without a text behind them. -/
def text (events : List Event) : List Char := events.flatMap fun e => e.piece ++ ['>']

lemma text_append (events events' : List Event) : text (events ++ events') = text events ++ text events' :=
  List.flatMap_append

lemma text_cons (e : Event) (events : List Event) : text (e :: events) = text [e] ++ text events :=
  text_append [e] events

lemma text_flatMap {α : Type} (f : α → List Event) (l : List α) :
    text (l.flatMap f) = l.flatMap fun x => text (f x) := by
  rw [text, List.flatMap_assoc]
  rfl

lemma escape_indent (n : ℕ) : escape ('\n' :: List.replicate n ' ') = '\n' :: List.replicate n ' ' := by
  refine escape_plain fun c hc => ?_
  rcases List.mem_cons.mp hc with rfl | hc
  · decide
  · rw [List.eq_of_mem_replicate hc]
    decide

/-! ### What can be written -/

section Plain

variable {events events' : List Event}

/-- The tags can be written. -/
def PlainTags (events : List Event) : Prop := ∀ e ∈ events, e.tag.Plain

lemma plainTags_append (h : PlainTags events) (h' : PlainTags events') : PlainTags (events ++ events') := fun e he =>
  (List.mem_append.mp he).elim (h e) (h' e)

lemma plainTags_cons {e : Event} (he : e.tag.Plain) (h : PlainTags events) : PlainTags (e :: events) := fun e' he' =>
  (List.mem_cons.mp he').elim (fun heq => heq ▸ he) (h e')

lemma plainTags_flatMap {α : Type} {f : α → List Event} (h : ∀ x, PlainTags (f x)) (l : List α) :
    PlainTags (l.flatMap f) := fun e he => by
  obtain ⟨x, -, he⟩ := List.mem_flatMap.mp he
  exact h x e he

lemma plainTags_leafEvents {name : List Char} (h : IsName name) (indent : ℕ) (s : List Char) :
    PlainTags (leafEvents indent name s) :=
  plainTags_cons ⟨h, by simp⟩ (plainTags_cons h (fun _ he => nomatch he))

lemma plainTags_leaf {name : List Char} (h : IsName name) {indent : ℕ} {s : List Char} (hevents : PlainTags events) :
    PlainTags (leafEvents indent name s ++ events) :=
  plainTags_append (plainTags_leafEvents h indent s) hevents

end Plain

/-! ### What is read -/

section Readers

variable {α β : Type}

lemma run_bind {reader : TagReader α} {events events' : List Event} {x : α} (h : reader events = some (x, events'))
    (f : α → TagReader β) : (reader >>= f) events = f x events' := by
  change (reader events).bind _ = _
  rw [h]
  rfl

/-- A bind fails with its reader. -/
lemma bind_none {reader : TagReader α} {events : List Event} (h : reader events = none)
    (f : α → TagReader β) : (reader >>= f) events = none := by
  change (reader events).bind _ = none
  rw [h]
  rfl

lemma orElse_some {reader : TagReader α} {events : List Event} {r : α × List Event}
    (h : reader events = some r) (reader' : TagReader α) : (reader <|> reader') events = some r := by
  change Option.orElse (reader events) (fun _ => reader' events) = some r
  rw [h]
  rfl

lemma isWhitespace_indent (n : ℕ) : ('\n' :: List.replicate n ' ').all Char.isWhitespace = true := by
  rw [List.all_eq_true]
  intro c hc
  rcases List.mem_cons.mp hc with rfl | hc
  · rfl
  · rw [List.eq_of_mem_replicate hc]
    rfl

lemma opening_openEvent (name : List Char) (attrs : List (List Char × List Char)) (indent : ℕ) (events : List Event) :
    opening name (attrs.map Prod.fst) (openEvent indent name attrs :: events) = some (attrs.map Prod.snd, events) := by
  rw [opening, run_bind (x := openEvent indent name attrs) rfl, openEvent]
  dsimp only
  rw [if_pos ⟨rfl, rfl, isWhitespace_indent indent⟩]
  rfl

/-- An element has its own name. -/
lemma opening_other {name name' : List Char} (h : name' ≠ name) (keys : List (List Char))
    (attrs : List (List Char × List Char)) (indent : ℕ) (events : List Event) :
    opening name keys (openEvent indent name' attrs :: events) = none := by
  rw [opening, run_bind (x := openEvent indent name' attrs) rfl, openEvent]
  dsimp only
  rw [if_neg fun h' => h h'.1]
  rfl

lemma opening_closeEvent (name : List Char) (keys : List (List Char)) (indent : ℕ) (name' : List Char)
    (events : List Event) : opening name keys (closeEvent indent name' :: events) = none := rfl

lemma closing_stop (name s : List Char) (events : List Event) :
    closing name (⟨s, .stop name⟩ :: events) = some (s, events) := by
  rw [closing, run_bind (x := ⟨s, .stop name⟩) rfl]
  dsimp only
  rw [if_pos rfl]
  rfl

lemma closingBlank_closeEvent (name : List Char) (indent : ℕ) (events : List Event) :
    closingBlank name (closeEvent indent name :: events) = some ((), events) := by
  have hclosing : closing name (closeEvent indent name :: events) = some ('\n' :: List.replicate indent ' ', events) :=
    closing_stop name _ events
  rw [closingBlank, run_bind hclosing, if_pos (isWhitespace_indent indent)]
  rfl

lemma leaf_leafEvents (name s : List Char) (indent : ℕ) (events : List Event) :
    leaf name (leafEvents indent name s ++ events) = some (s, events) := by
  have hopening : opening name [] (leafEvents indent name s ++ events) = some ([], ⟨s, .stop name⟩ :: events) :=
    opening_openEvent name [] indent _
  rw [leaf, run_bind hopening]
  exact closing_stop name s events

lemma many_flatMap {item : TagReader α} {f : α → List Event} {rest : List Event}
    (hitem : ∀ x rest, item (f x ++ rest) = some (x, rest)) (hstop : item rest = none) (l : List α) {n : ℕ}
    (hn : l.length ≤ n) : many item n (l.flatMap f ++ rest) = some (l, rest) := by
  induction l generalizing n with
  | nil =>
    cases n with
    | zero => rfl
    | succ n =>
      rw [List.flatMap_nil, List.nil_append, many, hstop]
  | cons x l ih =>
    cases n with
    | zero => simp at hn
    | succ n =>
      rw [List.flatMap_cons, List.append_assoc, many, hitem]
      dsimp only
      rw [ih (Nat.le_of_succ_le_succ hn)]
      rfl

lemma length_le_flatMap {f : α → List Event} (h : ∀ x, f x ≠ []) (l : List α) (rest : List Event) :
    l.length ≤ (l.flatMap f ++ rest).length := by
  induction l with
  | nil => simp
  | cons x l ih =>
    have hpos : 0 < (f x).length := List.length_pos_of_ne_nil (h x)
    rw [List.flatMap_cons, List.append_assoc, List.length_append, List.length_cons]
    omega


end Readers

end ThistleOS.Xml
