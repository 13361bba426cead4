import Mathlib.Data.Int.Notation
import Mathlib.Data.List.Basic
import Mathlib.Order.Nat
import ThistleOS.Component

/-!
# Text inputs

The text input with the focus gets characters, backspaces and moves of its cursor, and programs set its text. The
cursor counts characters where the text is changed and bytes where it is drawn, so that the widget is an editor
as long as all before the cursor is ASCII.
-/

namespace ThistleOS.Toolkit.TextInput

/-- The bytes that a text has room for. -/
def capacity : ℕ := 256

/-- The length of a text in bytes. -/
def len : List Char → ℕ
  | [] => 0
  | c :: text => c.utf8Size + len text

/-- `hasOnChange` says whether a callback is set. -/
structure TextInputWidget where
  text : List Char
  cursorPos : ℕ
  hasOnChange : Bool

/-- A character that there is no room for is left out. -/
def push (text : List Char) (c : Char) : List Char :=
  if len text + c.utf8Size ≤ capacity then text ++ [c] else text

def pushStr (text s : List Char) : List Char := if len text + len s ≤ capacity then text ++ s else text

/-- Whether an event was handled, and the text that the callback is called with. -/
structure Handled where
  handled : Bool
  changed : Option (List Char)

/-! ### Events -/

def withCallback (input : TextInputWidget) : Handled × TextInputWidget :=
  (⟨true, if input.hasOnChange then some input.text else none⟩, input)

def dispatchChar (ch : Char) (input : TextInputWidget) : Handled × TextInputWidget :=
  let pos := input.cursorPos
  if pos ≤ len input.text then
    let newText := input.text.zipIdx.foldl
      (fun newText x => push (if x.2 = pos then push newText ch else newText) x.1) []
    let newText := if pos ≥ len input.text then push newText ch else newText
    withCallback { input with text := newText, cursorPos := input.cursorPos + 1 }
  else withCallback input

def handleBackspace (input : TextInputWidget) : Handled × TextInputWidget :=
  if input.cursorPos = 0 then (⟨false, none⟩, input)
  else
    let pos := input.cursorPos - 1
    let newText := input.text.zipIdx.foldl (fun newText x => if x.2 ≠ pos then push newText x.1 else newText) []
    withCallback { input with text := newText, cursorPos := input.cursorPos - 1 }

def handleCursorMove (delta : ℤ) (input : TextInputWidget) : Handled × TextInputWidget :=
  let newPos := (input.cursorPos : ℤ) + delta
  if newPos ≥ 0 ∧ newPos ≤ len input.text then (⟨true, none⟩, { input with cursorPos := newPos.toNat })
  else (⟨false, none⟩, input)

/-- A program sets the text. -/
def setText (s : List Char) (input : TextInputWidget) : Handled × TextInputWidget :=
  (⟨true, none⟩, { input with text := pushStr [] s })

inductive Edit where
  | charInput (ch : Char)
  | backspace
  | left
  | right
  | setText (s : List Char)

def Edit.perform : Edit → TextInputWidget → Handled × TextInputWidget
  | charInput ch => dispatchChar ch
  | backspace => handleBackspace
  | left => handleCursorMove (-1)
  | right => handleCursorMove 1
  | .setText s => TextInput.setText s

/-- A text input that has the focus. -/
def focused : Component Edit (fun _ => Handled) TextInputWidget := ⟨Edit.perform⟩

def new (hasOnChange : Bool) : TextInputWidget := ⟨[], 0, hasOnChange⟩

/-! ### Drawing -/

/-- The first bytes of a text, if they end with a character. -/
def sliceTo : List Char → ℕ → Option (List Char)
  | _, 0 => some []
  | [], _ + 1 => none
  | c :: text, n + 1 => if c.utf8Size ≤ n + 1 then (sliceTo text (n + 1 - c.utf8Size)).map (c :: ·) else none

/-- The text before the cursor, if the cursor is drawn; there is no answer where the drawing panics. -/
def drawTextInput (input : TextInputWidget) : Option (Option (List Char)) :=
  if input.text ≠ [] ∨ input.cursorPos = 0 then (sliceTo input.text input.cursorPos).map some else some none

/-! ### The editor -/

/-- A list of characters with a cursor between them. -/
structure Editor where
  text : List Char
  cursor : ℕ

/-- What an edit may do. An edit that there is no room for changes nothing, and a new text may leave the cursor
anywhere in it. -/
def Editor.Edits (e : Editor) : Edit → Editor → Prop
  | .charInput ch, e' =>
    if len e.text + ch.utf8Size ≤ capacity then
      e' = ⟨e.text.take e.cursor ++ ch :: e.text.drop e.cursor, e.cursor + 1⟩
    else e' = e
  | .backspace, e' =>
    if e.cursor = 0 then e' = e
    else e' = ⟨e.text.take (e.cursor - 1) ++ e.text.drop e.cursor, e.cursor - 1⟩
  | .left, e' => e' = ⟨e.text, e.cursor - 1⟩
  | .right, e' => e' = ⟨e.text, min (e.cursor + 1) e.text.length⟩
  | .setText s, e' => if len s ≤ capacity then e'.text = s ∧ e'.cursor ≤ s.length else e' = e

namespace TextInputWidget

def editor (input : TextInputWidget) : Editor := ⟨input.text, input.cursorPos⟩

/-- The cursor is in the text, and what is drawn before it is the text before it. -/
def CursorValid (input : TextInputWidget) : Prop :=
  input.cursorPos ≤ input.text.length ∧ drawTextInput input = some (some (input.text.take input.cursorPos))

end TextInputWidget

open TextInputWidget

/-- The widget does what the editor does, and its cursor remains valid. -/
def Refines (o : Edit) (input : TextInputWidget) : Prop :=
  input.editor.Edits o (focused.next o input).editor ∧ (focused.next o input).CursorValid

def Ascii (text : List Char) : Prop := ∀ c ∈ text, c.utf8Size = 1

/-- What comes before the cursor is ASCII and finds room, and the cursor remains in the text. -/
def KeepsAscii (input : TextInputWidget) : Edit → Prop
  | .charInput ch => ch.utf8Size = 1 ∧ len input.text + 1 ≤ capacity
  | .backspace => True
  | .left => True
  | .right => Ascii (input.text.take (input.cursorPos + 1))
  | .setText s =>
    if len s ≤ capacity then input.cursorPos ≤ s.length ∧ Ascii (s.take input.cursorPos) else input.text = []

/-! ### ASCII -/

section Ascii

variable {text : List Char} {c : Char} {n : ℕ}

lemma ascii_nil : Ascii [] := nofun

lemma ascii_cons : Ascii (c :: text) ↔ c.utf8Size = 1 ∧ Ascii text := List.forall_mem_cons

lemma ascii_append {text' : List Char} : Ascii (text ++ text') ↔ Ascii text ∧ Ascii text' := List.forall_mem_append

lemma Ascii.take (h : Ascii text) (n : ℕ) : Ascii (text.take n) := fun c hc => h c (List.mem_of_mem_take hc)

lemma len_cons : len (c :: text) = c.utf8Size + len text := rfl

lemma len_append (text text' : List Char) : len (text ++ text') = len text + len text' := by
  induction text with
  | nil => exact (Nat.zero_add _).symm
  | cons c text ih => rw [List.cons_append, len_cons, len_cons, ih, Nat.add_assoc]

lemma length_le_len (text : List Char) : text.length ≤ len text := by
  induction text with
  | nil => exact Nat.le_refl 0
  | cons c text ih =>
    have := c.utf8Size_pos
    rw [len_cons, List.length_cons]
    omega

lemma Ascii.len_eq (h : Ascii text) : len text = text.length := by
  induction text with
  | nil => rfl
  | cons c text ih =>
    obtain ⟨hc, htext⟩ := ascii_cons.mp h
    rw [len_cons, List.length_cons, hc, ih htext, Nat.add_comm]

lemma ascii_of_len_eq (h : len text = text.length) : Ascii text := by
  induction text with
  | nil => exact ascii_nil
  | cons c text ih =>
    have hpos := c.utf8Size_pos
    have hle := length_le_len text
    rw [len_cons, List.length_cons] at h
    exact ascii_cons.mpr ⟨by omega, ih (by omega)⟩

lemma len_sliceTo {s : List Char} (h : sliceTo text n = some s) : len s = n := by
  induction text generalizing n s with
  | nil =>
    cases n with
    | zero =>
      obtain rfl := Option.some.inj h
      rfl
    | succ n => cases h
  | cons c text ih =>
    cases n with
    | zero =>
      obtain rfl := Option.some.inj h
      rfl
    | succ n =>
      rw [sliceTo] at h
      by_cases hc : c.utf8Size ≤ n + 1
      · rw [if_pos hc] at h
        obtain ⟨rest, hrest, rfl⟩ := Option.map_eq_some_iff.mp h
        rw [len_cons, ih hrest]
        omega
      · rw [if_neg hc] at h
        cases h

/-- As many bytes as characters are those characters exactly if they are ASCII. -/
lemma sliceTo_eq_take_iff (h : n ≤ text.length) : sliceTo text n = some (text.take n) ↔ Ascii (text.take n) := by
  constructor
  · intro hslice
    have hlen := len_sliceTo hslice
    have hlength : (text.take n).length = n := List.length_take_of_le h
    exact ascii_of_len_eq (hlen.trans hlength.symm)
  · intro hascii
    induction text generalizing n with
    | nil =>
      obtain rfl : n = 0 := Nat.le_zero.mp h
      rfl
    | cons c text ih =>
      cases n with
      | zero => rfl
      | succ n =>
        rw [List.take_succ_cons, ascii_cons] at hascii
        rw [sliceTo, hascii.1, if_pos (Nat.le_add_left 1 n), Nat.add_sub_cancel, ih (Nat.le_of_succ_le_succ h) hascii.2,
          List.take_succ_cons, Option.map_some]

/-- The cursor is valid exactly if all before it is ASCII. -/
lemma cursorValid_iff {input : TextInputWidget} :
    input.CursorValid ↔ input.cursorPos ≤ input.text.length ∧ Ascii (input.text.take input.cursorPos) := by
  rw [CursorValid]
  refine and_congr_right fun hle => ?_
  have hdrawn : input.text ≠ [] ∨ input.cursorPos = 0 := by
    by_cases htext : input.text = []
    · rw [htext] at hle
      exact .inr (Nat.le_zero.mp hle)
    · exact .inl htext
  rw [drawTextInput, if_pos hdrawn, ← sliceTo_eq_take_iff hle]
  cases sliceTo input.text input.cursorPos <;> simp

end Ascii

/-! ### Writing the text again -/

section Loops

variable {text acc pre post : List Char} {ch c : Char} {n : ℕ} {step : List Char → Char × ℕ → List Char}

lemma len_concat (text : List Char) (c : Char) : len (text ++ [c]) = len text + c.utf8Size := len_append text [c]

lemma push_of_le (h : len text + c.utf8Size ≤ capacity) : push text c = text ++ [c] := if_pos h

/-- Where a loop just copies the characters, and they find room, it appends them. -/
lemma foldl_copy (hstep : ∀ c i, n ≤ i → i < n + text.length → ∀ t, step t (c, i) = push t c)
    (h : len acc + len text ≤ capacity) : (text.zipIdx n).foldl step acc = acc ++ text := by
  induction text generalizing acc n with
  | nil => exact (List.append_nil acc).symm
  | cons c text ih =>
    rw [len_cons] at h
    have hpush : step acc (c, n) = acc ++ [c] := by
      rw [hstep c n (Nat.le_refl n) (by simp), push_of_le (by omega)]
    rw [List.zipIdx_cons, List.foldl_cons, hpush, ih, List.append_assoc, List.singleton_append]
    · exact fun c' i hi hlt => hstep c' i (by omega) (by rw [List.length_cons]; omega)
    · rw [len_concat]
      omega

lemma foldl_insert (h : len (pre ++ c :: post) + ch.utf8Size ≤ capacity) :
    (pre ++ c :: post).zipIdx.foldl
      (fun newText x => push (if x.2 = pre.length then push newText ch else newText) x.1) [] =
        pre ++ ch :: c :: post := by
  rw [len_append, len_cons] at h
  have hpre : pre.zipIdx.foldl
      (fun newText x => push (if x.2 = pre.length then push newText ch else newText) x.1) [] = [] ++ pre :=
    foldl_copy (fun c i _ hi t => by rw [if_neg (by omega)]) (by change 0 + len pre ≤ capacity; omega)
  have hinserted : push (push pre ch) c = pre ++ [ch] ++ [c] := by
    rw [push_of_le (c := ch) (by omega), push_of_le (by rw [len_concat]; omega)]
  rw [List.zipIdx_append, List.foldl_append, hpre, List.nil_append, Nat.zero_add, List.zipIdx_cons, List.foldl_cons,
    if_pos rfl, hinserted, foldl_copy fun c i hi _ t => by rw [if_neg (by omega)]]
  · simp
  · rw [len_concat, len_concat]
    omega

lemma foldl_remove (h : len (pre ++ c :: post) ≤ capacity) :
    (pre ++ c :: post).zipIdx.foldl (fun newText x => if x.2 ≠ pre.length then push newText x.1 else newText) [] =
      pre ++ post := by
  rw [len_append, len_cons] at h
  have hpre : pre.zipIdx.foldl (fun newText x => if x.2 ≠ pre.length then push newText x.1 else newText) [] =
      [] ++ pre :=
    foldl_copy (fun c i _ hi t => by rw [if_pos (by omega)]) (by change 0 + len pre ≤ capacity; omega)
  rw [List.zipIdx_append, List.foldl_append, hpre, List.nil_append, Nat.zero_add, List.zipIdx_cons, List.foldl_cons,
    if_neg (not_not.mpr rfl), foldl_copy fun c i hi _ t => by rw [if_pos (by omega)]]
  omega

end Loops

/-! ### The edits -/

section Edits

variable {input : TextInputWidget} {ch : Char} {s : List Char}

/-- A cursor with nothing but ASCII before it counts bytes, too. -/
lemma cursorPos_le_len (h : input.CursorValid) : input.cursorPos ≤ len input.text :=
  (cursorValid_iff.mp h).1.trans (length_le_len input.text)

/-- At the end of the text all of it is ASCII. -/
lemma len_eq_of_atEnd (h : input.CursorValid) (hend : input.text.length ≤ input.cursorPos) :
    len input.text = input.text.length := by
  have hascii := (cursorValid_iff.mp h).2
  rw [List.take_of_length_le hend] at hascii
  exact hascii.len_eq

lemma exists_split {text : List Char} {k : ℕ} (h : k < text.length) :
    ∃ pre c post, text = pre ++ c :: post ∧ pre.length = k :=
  ⟨text.take k, text[k], text.drop (k + 1), by rw [← List.drop_eq_getElem_cons h, List.take_append_drop],
    List.length_take_of_le h.le⟩

lemma text_dispatchChar (h : input.CursorValid) (hroom : len input.text + ch.utf8Size ≤ capacity) :
    (dispatchChar ch input).2.text =
      input.text.take input.cursorPos ++ ch :: input.text.drop input.cursorPos := by
  have hpos := cursorPos_le_len h
  rw [dispatchChar, if_pos hpos, withCallback]
  dsimp only
  by_cases hend : input.text.length ≤ input.cursorPos
  · have hlen := len_eq_of_atEnd h hend
    have heq : input.cursorPos = input.text.length := Nat.le_antisymm (cursorValid_iff.mp h).1 hend
    have hcopy : input.text.zipIdx.foldl
        (fun newText x => push (if x.2 = input.cursorPos then push newText ch else newText) x.1) [] =
          [] ++ input.text :=
      foldl_copy (fun c i _ hi t => by rw [if_neg (by omega)]) (by change 0 + len input.text ≤ capacity; omega)
    rw [hcopy, List.nil_append, if_pos (by omega), push_of_le hroom, List.take_of_length_le hend,
      List.drop_of_length_le hend]
  · obtain ⟨pre, c, post, htext, hlength⟩ := exists_split (Nat.lt_of_not_le hend)
    have hlt : ¬ pre.length ≥ len (pre ++ c :: post) := by
      have := length_le_len (pre ++ c :: post)
      rw [List.length_append, List.length_cons] at this
      omega
    rw [htext] at hroom
    rw [htext, ← hlength, foldl_insert hroom, if_neg hlt, List.take_left, List.drop_left]

lemma cursorPos_dispatchChar (h : input.CursorValid) (ch : Char) :
    (dispatchChar ch input).2.cursorPos = input.cursorPos + 1 := by
  rw [dispatchChar, if_pos (cursorPos_le_len h)]
  rfl

/-- What the character leaves before the cursor is what was there, and the character. -/
lemma take_insert {text : List Char} {k : ℕ} (hk : k ≤ text.length) (ch : Char) :
    (text.take k ++ ch :: text.drop k).take (k + 1) = text.take k ++ [ch] := by
  have hlength : (text.take k).length = k := List.length_take_of_le hk
  rw [List.take_append, hlength, Nat.add_sub_cancel_left, List.take_of_length_le (by omega)]
  rfl

lemma refines_charInput (h : input.CursorValid) :
    Refines (.charInput ch) input ↔ KeepsAscii input (.charInput ch) := by
  obtain ⟨hle, hascii⟩ := cursorValid_iff.mp h
  have hcursor : (focused.next (.charInput ch) input).cursorPos = input.cursorPos + 1 := cursorPos_dispatchChar h ch
  rw [Refines, KeepsAscii, cursorValid_iff, hcursor]
  by_cases hroom : len input.text + ch.utf8Size ≤ capacity
  · have htext : (focused.next (.charInput ch) input).text =
        input.text.take input.cursorPos ++ ch :: input.text.drop input.cursorPos := text_dispatchChar h hroom
    have hedits : input.editor.Edits (.charInput ch) (focused.next (.charInput ch) input).editor := by
      rw [Editor.Edits, editor, if_pos hroom, editor, hcursor, htext]
    have hlength : input.cursorPos + 1 ≤
        (input.text.take input.cursorPos ++ ch :: input.text.drop input.cursorPos).length := by
      rw [List.length_append, List.length_cons, List.length_take_of_le hle]
      omega
    rw [and_iff_right hedits, htext, and_iff_right hlength, take_insert hle, ascii_append, and_iff_right hascii,
      ascii_cons, and_iff_left ascii_nil]
    constructor
    · exact fun hch => ⟨hch, by omega⟩
    · exact fun hch => hch.1
  · have hchanged : ¬ input.editor.Edits (.charInput ch) (focused.next (.charInput ch) input).editor := by
      rw [Editor.Edits, editor, if_neg hroom, editor, hcursor]
      intro heq
      have := congrArg Editor.cursor heq
      simp at this
    refine iff_of_false (fun hrefines => hchanged hrefines.1) ?_
    rintro ⟨hch, hfits⟩
    omega

lemma refines_backspace (h : input.CursorValid) (hroom : len input.text ≤ capacity) :
    Refines .backspace input := by
  obtain ⟨hle, hascii⟩ := cursorValid_iff.mp h
  by_cases hzero : input.cursorPos = 0
  · have hnext : focused.next .backspace input = input := by
      change (handleBackspace input).2 = input
      rw [handleBackspace, if_pos hzero]
    rw [Refines, hnext, Editor.Edits, editor, if_pos hzero]
    exact ⟨rfl, h⟩
  · have hbefore : input.cursorPos - 1 < input.text.length := by omega
    obtain ⟨pre, c, post, htext, hlength⟩ := exists_split hbefore
    have hcursor : input.cursorPos = pre.length + 1 := by omega
    have hnext : focused.next .backspace input = { input with text := pre ++ post, cursorPos := pre.length } := by
      change (handleBackspace input).2 = _
      rw [htext] at hroom
      rw [handleBackspace, if_neg hzero, htext, ← hlength]
      dsimp only
      rw [foldl_remove hroom]
      rfl
    have hsame : (pre ++ c :: post).drop (pre.length + 1) = post := by
      rw [← List.drop_drop, List.drop_left]
      rfl
    rw [htext, hcursor] at hascii
    have hpre : Ascii pre := by
      have htake := hascii.take pre.length
      rwa [List.take_take, Nat.min_eq_left (Nat.le_succ _), List.take_left] at htake
    rw [Refines, hnext, cursorValid_iff]
    refine ⟨?_, ?_, ?_⟩
    · rw [Editor.Edits, editor, if_neg hzero]
      simp only [editor, htext, hcursor, Nat.add_sub_cancel, List.take_left, hsame]
    · simp
    · rw [List.take_left]
      exact hpre

lemma refines_left (h : input.CursorValid) : Refines .left input := by
  obtain ⟨hle, hascii⟩ := cursorValid_iff.mp h
  have hlen := cursorPos_le_len h
  have hnext : focused.next .left input = { input with cursorPos := input.cursorPos - 1 } := by
    change (handleCursorMove (-1) input).2 = _
    rw [handleCursorMove]
    by_cases hzero : input.cursorPos = 0
    · rw [if_neg (by omega), hzero]
      cases input
      simp_all
    · have hpos : ((input.cursorPos : ℤ) + -1).toNat = input.cursorPos - 1 := by omega
      rw [if_pos (by omega), hpos]
  rw [Refines, hnext, cursorValid_iff]
  refine ⟨rfl, by simp only; omega, ?_⟩
  have htake := hascii.take (input.cursorPos - 1)
  rwa [List.take_take, Nat.min_eq_left (Nat.sub_le _ _)] at htake

lemma refines_right (h : input.CursorValid) : Refines .right input ↔ KeepsAscii input .right := by
  obtain ⟨hle, hascii⟩ := cursorValid_iff.mp h
  have hlen := length_le_len input.text
  have hnext : focused.next .right input = { input with cursorPos := min (input.cursorPos + 1) input.text.length } := by
    change (handleCursorMove 1 input).2 = _
    rw [handleCursorMove]
    by_cases hend : input.text.length ≤ input.cursorPos
    · have hatEnd := len_eq_of_atEnd h hend
      rw [if_neg (by omega), Nat.min_eq_right (by omega)]
      have heq : input.cursorPos = input.text.length := Nat.le_antisymm hle hend
      rw [← heq]
    · rw [if_pos (by omega), Nat.min_eq_left (by omega)]
      congr 1
  rw [Refines, hnext, cursorValid_iff, KeepsAscii]
  have hedits : input.editor.Edits .right
      { input with cursorPos := min (input.cursorPos + 1) input.text.length : TextInputWidget }.editor := rfl
  have hinside : min (input.cursorPos + 1) input.text.length ≤ input.text.length := Nat.min_le_right _ _
  rw [and_iff_right hedits, and_iff_right hinside, ← List.take_eq_take_min]

lemma refines_setText (h : input.CursorValid) : Refines (.setText s) input ↔ KeepsAscii input (.setText s) := by
  have hnext : focused.next (.setText s) input = { input with text := pushStr [] s } := rfl
  rw [Refines, hnext, cursorValid_iff, KeepsAscii, Editor.Edits]
  have hpush : pushStr [] s = if len s ≤ capacity then s else [] := by
    rw [pushStr, len, Nat.zero_add, List.nil_append]
  rw [hpush]
  by_cases hfits : len s ≤ capacity
  · rw [if_pos hfits, if_pos hfits, if_pos hfits]
    exact ⟨fun hrefines => hrefines.2, fun hkeeps => ⟨⟨rfl, hkeeps.1⟩, hkeeps⟩⟩
  · rw [if_neg hfits, if_neg hfits, if_neg hfits]
    constructor
    · exact fun hrefines => (congrArg Editor.text hrefines.1).symm
    · intro hempty
      obtain ⟨hle, -⟩ := cursorValid_iff.mp h
      rw [hempty] at hle
      refine ⟨?_, hle, ?_⟩
      · rw [editor, editor, hempty]
      · rw [List.take_nil]
        exact ascii_nil

end Edits

/-! ### Runs -/

/-- A cursor with only ASCII before it, in a text that there is room for. -/
def Editable (input : TextInputWidget) : Prop := input.CursorValid ∧ len input.text ≤ capacity

lemma refines_iff {input : TextInputWidget} (h : Editable input) (e : Edit) :
    Refines e input ↔ KeepsAscii input e := by
  cases e with
  | charInput ch => exact refines_charInput h.1
  | backspace => exact iff_of_true (refines_backspace h.1 h.2) trivial
  | left => exact iff_of_true (refines_left h.1) trivial
  | right => exact refines_right h.1
  | setText s => exact refines_setText h.1

/-- The editor never has more text than there is room for. -/
lemma Editor.Edits.len_le {e e' : Editor} {o : Edit} (h : e.Edits o e') (hroom : len e.text ≤ capacity) :
    len e'.text ≤ capacity := by
  have hsplit : ∀ k, len (e.text.take k) + len (e.text.drop k) = len e.text := by
    intro k
    rw [← len_append, List.take_append_drop]
  cases o with
  | charInput ch =>
    rw [Editor.Edits] at h
    split_ifs at h with hfits
    · rw [h, len_append, len_cons]
      have := hsplit e.cursor
      omega
    · rw [h]
      exact hroom
  | backspace =>
    rw [Editor.Edits] at h
    split_ifs at h with hzero
    · rw [h]
      exact hroom
    · have htake := hsplit (e.cursor - 1)
      have hdrop : len (e.text.drop e.cursor) ≤ len (e.text.drop (e.cursor - 1)) := by
        rw [show e.cursor = e.cursor - 1 + 1 by omega, ← List.drop_drop, Nat.add_sub_cancel]
        cases e.text.drop (e.cursor - 1) with
        | nil => exact Nat.le_refl 0
        | cons c text => exact Nat.le_add_left _ _
      rw [h, len_append]
      omega
  | left => exact h ▸ hroom
  | right => exact h ▸ hroom
  | setText s =>
    rw [Editor.Edits] at h
    split_ifs at h with hfits
    · rw [h.1]
      exact hfits
    · rw [h]
      exact hroom

lemma editable_next {input : TextInputWidget} (h : Editable input) {e : Edit} (hkeeps : KeepsAscii input e) :
    Editable (focused.next e input) := by
  obtain ⟨hedits, hvalid⟩ := (refines_iff h e).mpr hkeeps
  exact ⟨hvalid, hedits.len_le h.2⟩

/-- Each edit of a run does what the editor does, with the cursor valid, exactly if each keeps what comes before
the cursor ASCII. -/
theorem refines_along_iff (hasOnChange : Bool) (es : List Edit) :
    focused.Along Refines (new hasOnChange) es ↔ focused.Along (fun e input => KeepsAscii input e) (new hasOnChange) es :=
  Component.along_iff (I := Editable) (fun e _ h => refines_iff h e) (fun _ _ h hkeeps => editable_next h hkeeps)
    ⟨cursorValid_iff.mpr ⟨Nat.le_refl 0, ascii_nil⟩, Nat.zero_le _⟩

/-- An accented letter takes two bytes, and the cursor comes to stand inside it. -/
theorem accent_not_refines : ¬ focused.Along Refines (new false) [.charInput (.ofNat 0xE9)] := by
  intro h
  obtain ⟨-, -, hdrawn⟩ := h [] (.charInput (.ofNat 0xE9)) [] rfl
  exact absurd hdrawn (by decide +kernel)

end ThistleOS.Toolkit.TextInput
