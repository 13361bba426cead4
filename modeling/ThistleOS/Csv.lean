import Mathlib.Data.List.Basic
import Mathlib.Tactic.Common

/-!
# Comma separated values

A reader of the format of RFC 4180, which takes a line feed for a line break as it takes a carriage return with
a line feed, and what it reads from fields that are quoted where they need to be.
-/

namespace ThistleOS.Csv

/-- Where a reader stands: before a field, in one without quotes, in one with quotes, behind a quote of it, or
between the two characters of a line break. -/
inductive Place where
  | start
  | plain
  | quoted
  | closed
  | lineBreak

structure Reader where
  place : Place
  field : List Char
  record : List (List Char)
  records : List (List (List Char))

/-- A comma or a line break, where a field without quotes ends. -/
def endsField (c : Char) : Bool := c == ',' || c == '\n' || c == '\r'

/-- A character that only a field with quotes has. -/
def isSpecial (c : Char) : Bool := c == '"' || endsField c

namespace Reader

def init : Reader := ⟨.start, [], [], []⟩

def push (r : Reader) (place : Place) (c : Char) : Reader := { r with place := place, field := r.field ++ [c] }

def endRecord (r : Reader) : Reader := ⟨.start, [], [], r.records ++ [r.record ++ [r.field]]⟩

/-- The end of a field. -/
def separate (r : Reader) (c : Char) : Reader :=
  if c = ',' then ⟨.start, [], r.record ++ [r.field], r.records⟩
  else if c = '\n' then r.endRecord
  else { r with place := .lineBreak }

def step (r : Reader) (c : Char) : Option Reader :=
  match r.place with
  | .start =>
    if c = '"' then some { r with place := .quoted }
    else if endsField c then some (r.separate c)
    else some (r.push .plain c)
  | .plain =>
    if c = '"' then none
    else if endsField c then some (r.separate c)
    else some (r.push .plain c)
  | .quoted => if c = '"' then some { r with place := .closed } else some (r.push .quoted c)
  | .closed =>
    if c = '"' then some (r.push .quoted c)
    else if endsField c then some (r.separate c)
    else none
  | .lineBreak => if c = '\n' then some r.endRecord else none

/-- The last record needs no line break. -/
def finish (r : Reader) : Option (List (List (List Char))) :=
  match r.place, r.field, r.record with
  | .quoted, _, _ | .lineBreak, _, _ => none
  | .start, [], [] => some r.records
  | _, field, record => some (r.records ++ [record ++ [field]])

end Reader

open Reader

/-- The records of a text. -/
def read (text : List Char) : Option (List (List (List Char))) := (text.foldlM step init).bind finish

/-- Quotes are doubled. -/
def double (c : Char) : List Char := if c = '"' then ['"', '"'] else [c]

/-- A field as it is written: as it stands if nothing in it is special, or in quotes. -/
structure Cell where
  text : List Char
  value : List Char
  written : text = value ∧ (∀ c ∈ value, isSpecial c = false) ∨ text = '"' :: (value.flatMap double ++ ['"'])

/-- A line of one field and others. -/
def line (cells : Cell × List Cell) : List Char :=
  cells.1.text ++ (cells.2.flatMap fun cell => ',' :: cell.text) ++ ['\n']

def values (cells : Cell × List Cell) : List (List Char) := cells.1.value :: cells.2.map Cell.value

/-! ### What the reader does -/

variable (field : List Char) (record : List (List Char)) (records : List (List (List Char)))

lemma foldlM_plain {s : List Char} (h : ∀ c ∈ s, isSpecial c = false) :
    s.foldlM step ⟨.plain, field, record, records⟩ = some ⟨.plain, field ++ s, record, records⟩ := by
  induction s generalizing field with
  | nil => simp
  | cons c s ih =>
    have hc := h c List.mem_cons_self
    rw [isSpecial, Bool.or_eq_false_iff, beq_eq_false_iff_ne] at hc
    have hstep : step ⟨.plain, field, record, records⟩ c = some ⟨.plain, field ++ [c], record, records⟩ := by
      simp only [step, hc, if_false, Bool.false_eq_true]
      rfl
    rw [List.foldlM_cons, hstep, Option.bind_eq_bind, Option.bind_some, ih _ fun c' hc' => h c' (List.mem_cons_of_mem c hc'),
      List.append_assoc]
    rfl

lemma foldlM_quoted (s : List Char) :
    (s.flatMap double).foldlM step ⟨.quoted, field, record, records⟩ =
      some ⟨.quoted, field ++ s, record, records⟩ := by
  induction s generalizing field with
  | nil => simp
  | cons c s ih =>
    have hstep : (double c).foldlM step ⟨.quoted, field, record, records⟩ =
        some ⟨.quoted, field ++ [c], record, records⟩ := by
      by_cases hc : c = '"'
      · subst hc
        rfl
      · have hstep : step ⟨.quoted, field, record, records⟩ c = some ⟨.quoted, field ++ [c], record, records⟩ :=
          if_neg hc
        rw [double, if_neg hc, List.foldlM_cons, hstep]
        rfl
    rw [List.flatMap_cons, List.foldlM_append, hstep, Option.bind_eq_bind, Option.bind_some, ih, List.append_assoc]
    rfl

/-- A field is read up to the character that ends it. -/
lemma foldlM_cell (cell : Cell) {c : Char} (hc : endsField c = true) :
    (cell.text ++ [c]).foldlM step ⟨.start, [], record, records⟩ =
      some (Reader.separate ⟨.plain, cell.value, record, records⟩ c) := by
  have hquote : c ≠ '"' := by
    rintro rfl
    cases hc
  rcases cell.written with ⟨htext, hplain⟩ | htext
  · rw [htext]
    cases hvalue : cell.value with
    | nil =>
      simp only [List.nil_append, List.foldlM_cons, step, hc, hquote, if_false, if_true]
      rfl
    | cons c' s =>
      rw [hvalue] at hplain
      have hstart := foldlM_plain [] record records hplain
      have hfirst : step ⟨.start, [], record, records⟩ c' = step ⟨.plain, [], record, records⟩ c' := by
        have hc' := hplain c' List.mem_cons_self
        rw [isSpecial, Bool.or_eq_false_iff, beq_eq_false_iff_ne] at hc'
        simp only [step, hc', if_false, Bool.false_eq_true]
        rfl
      rw [List.foldlM_cons, ← hfirst, ← List.foldlM_cons] at hstart
      rw [List.foldlM_append, hstart, Option.bind_eq_bind, Option.bind_some, List.nil_append, List.foldlM_cons]
      simp only [step, hc, hquote, if_false, if_true]
      rfl
  · have hinner := foldlM_quoted [] record records cell.value
    have hopen : step ⟨.start, [], record, records⟩ '"' = some ⟨.quoted, [], record, records⟩ := rfl
    have hclose : step ⟨.quoted, cell.value, record, records⟩ '"' = some ⟨.closed, cell.value, record, records⟩ := rfl
    have hend : step ⟨.closed, cell.value, record, records⟩ c =
        some (Reader.separate ⟨.plain, cell.value, record, records⟩ c) := by
      simp only [step, hc, hquote, if_false, if_true]
      rfl
    rw [htext, List.cons_append, List.append_assoc, List.foldlM_cons, hopen, Option.bind_eq_bind, Option.bind_some,
      List.foldlM_append, hinner, Option.bind_eq_bind, Option.bind_some, List.nil_append, List.singleton_append,
      List.foldlM_cons, hclose, Option.bind_eq_bind, Option.bind_some, List.foldlM_cons, hend]
    rfl

/-- The fields after the first one, up to the line break. -/
lemma foldlM_cells (cell : Cell) (cells : List Cell) :
    (cell.text ++ ((cells.flatMap fun cell => ',' :: cell.text) ++ ['\n'])).foldlM step ⟨.start, [], record, records⟩ =
      some ⟨.start, [], [], records ++ [record ++ cell.value :: cells.map Cell.value]⟩ := by
  induction cells generalizing cell record with
  | nil =>
    rw [List.flatMap_nil, List.nil_append, foldlM_cell record records cell rfl]
    rfl
  | cons cell' cells ih =>
    have hcell := foldlM_cell record records cell (c := ',') rfl
    have hcomma : cell.text ++ (((cell' :: cells).flatMap fun cell => ',' :: cell.text) ++ ['\n']) =
        (cell.text ++ [',']) ++ (cell'.text ++ ((cells.flatMap fun cell => ',' :: cell.text) ++ ['\n'])) := by
      simp
    rw [hcomma, List.foldlM_append, hcell, Option.bind_eq_bind, Option.bind_some]
    exact (ih (record ++ [cell.value]) cell').trans (by simp)

/-- A line is a record. -/
lemma foldlM_line (cells : Cell × List Cell) :
    (line cells).foldlM step ⟨.start, [], [], records⟩ = some ⟨.start, [], [], records ++ [values cells]⟩ := by
  rw [line, List.append_assoc, foldlM_cells, List.nil_append]
  rfl

/-- The fields of every line are read back. -/
theorem read_lines (rows : List (Cell × List Cell)) : read (rows.flatMap line) = some (rows.map values) := by
  have hrows (records : List (List (List Char))) : (rows.flatMap line).foldlM step ⟨.start, [], [], records⟩ =
      some ⟨.start, [], [], records ++ rows.map values⟩ := by
    induction rows generalizing records with
    | nil => simp
    | cons cells rows ih =>
      rw [List.flatMap_cons, List.foldlM_append, foldlM_line, Option.bind_eq_bind, Option.bind_some, ih, List.append_assoc]
      rfl
  rw [read, init, hrows]
  rfl

end ThistleOS.Csv
