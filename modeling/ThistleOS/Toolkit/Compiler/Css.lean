import ThistleOS.Toolkit.Compiler
import Mathlib.Data.List.Sort
import Mathlib.Data.Prod.Lex
import Mathlib.Logic.Function.Basic

/-!
# Style sheets of the compiler

A style sheet is a list of rules, and a rule is a selector with declarations. The declarations of a rule are
merged to a style when the rule is read. The styles of the rules that match a node are merged in the order of
their specificity. Numbers with a fraction are of a type `F`.
-/

namespace ThistleOS.Toolkit.Compiler

open MsgQueue (Text trim isWhiteSpace)

/-- The numbers `f32` of Rust: how they are read, and how a percentage is scaled and clamped. -/
structure Floats (F : Type) where
  parse : String → Except String F
  percent : F → F

/-! ### Styles -/

inductive Direction where
  | row
  | column
  deriving DecidableEq, Repr

inductive Align where
  | start
  | center
  | end
  | spaceBetween
  deriving DecidableEq, Repr

inductive SizeValue (F : Type) where
  | px (px : ℕ)
  | percent (percent : F)
  | auto
  deriving DecidableEq

structure Padding where
  top : ℕ
  right : ℕ
  bottom : ℕ
  left : ℕ
  deriving DecidableEq, Repr

inductive ThemeColor where
  | primary
  | bg
  | surface
  | text
  | textSecondary
  | accent
  | error
  | success
  | warning
  deriving DecidableEq, Repr

inductive ColorValue where
  | theme (color : ThemeColor)
  | hex (hex : ℕ)
  deriving DecidableEq, Repr

inductive FontSizeValue where
  | small
  | normal
  | large
  deriving DecidableEq, Repr

/-- The fields of a style but for its padding. -/
inductive Field where
  | layout
  | align
  | gap
  | flexGrow
  | scrollable
  | width
  | height
  | background
  | color
  | borderColor
  | borderWidth
  | borderBottomWidth
  | radius
  | fontSize
  | maxLines
  | wordWrap
  | visible
  deriving DecidableEq, Repr

def Field.Value (F : Type) : Field → Type
  | .layout => Direction
  | .align => Align × Align
  | .gap | .borderWidth | .borderBottomWidth | .radius | .maxLines => ℕ
  | .flexGrow => F
  | .scrollable | .wordWrap | .visible => Bool
  | .width | .height => SizeValue F
  | .background | .color | .borderColor => ColorValue
  | .fontSize => FontSizeValue

inductive Side where
  | top
  | right
  | bottom
  | left
  deriving DecidableEq, Repr

namespace Padding

def zero : Padding := ⟨0, 0, 0, 0⟩

def side (p : Padding) : Side → ℕ
  | .top => p.top
  | .right => p.right
  | .bottom => p.bottom
  | .left => p.left

def setSide (p : Padding) (px : ℕ) : Side → Padding
  | .top => { p with top := px }
  | .right => { p with right := px }
  | .bottom => { p with bottom := px }
  | .left => { p with left := px }

end Padding

variable {F α β : Type}

structure Style (F : Type) where
  field : (f : Field) → Option (f.Value F)
  padding : Option Padding

def Style.default : Style F := ⟨fun _ => none, none⟩

/-! ### Values -/

def parseDirection (value selector : String) : Except String Direction :=
  match value with
  | "row" => pure .row
  | "column" => pure .column
  | _ => throw s!"unsupported layout value `{value}` in `{selector}`"

def parseAlign (value selector : String) : Except String Align :=
  match value with
  | "start" => pure .start
  | "center" => pure .center
  | "end" => pure .end
  | "space-between" => pure .spaceBetween
  | _ => throw s!"unsupported align value `{value}` in `{selector}`"

def parseAlignPair (value selector : String) : Except String (Align × Align) :=
  match splitWhitespace value with
  | [] => throw s!"missing align value in `{selector}`"
  | main :: parts =>
    let cross := parts.head?.getD "start"
    if parts.length > 1 then throw s!"align expects one or two values in `{selector}`"
    else do
      let main ← parseAlign main selector
      let cross ← parseAlign cross selector
      return (main, cross)

def stripSuffix (suffix value : String) : Option String :=
  if suffix.toList.isSuffixOf value.toList then
    some (String.ofList (value.toList.take (value.length - suffix.length)))
  else none

def stripPrefix (pre value : String) : Option String :=
  if pre.toList.isPrefixOf value.toList then some (String.ofList (value.toList.drop pre.length)) else none

def parsePxU16 (value name selector : String) : Except String ℕ :=
  parseU16 (trimmed ((stripSuffix "px" value).getD value)) name selector

def parseU32 (value name selector : String) : Except String ℕ :=
  let digits := (value.toList.dropPrefix? ['+']).getD value.toList
  let failed (err : String) : Except String ℕ :=
    throw s!"`{name}` expects a non-negative integer in `{selector}`, got `{value}`: {err}"
  if value = "" then failed "cannot parse integer from empty string"
  else if digits.isEmpty || !digits.all Char.isDigit then failed "invalid digit found in string"
  else
    let n := Nat.ofDigitChars 10 digits 0
    if n < 0x100000000 then pure n else failed "number too large to fit in target type"

def parseF32 (floats : Floats F) (value name selector : String) : Except String F :=
  (floats.parse value).mapError fun err =>
    s!"`{name}` expects a number in `{selector}`, got `{value}`: {err}"

def parsePadding (value selector : String) : Except String Padding := do
  let values ← (splitWhitespace value).mapM fun part => parsePxU16 part "padding" selector
  match values with
  | [all] => return ⟨all, all, all, all⟩
  | [vertical, horizontal] => return ⟨vertical, horizontal, vertical, horizontal⟩
  | [top, right, bottom, left] => return ⟨top, right, bottom, left⟩
  | _ => throw s!"padding expects 1, 2, or 4 values in `{selector}`"

def parseSizeValue (floats : Floats F) (value name selector : String) : Except String (SizeValue F) :=
  if value = "auto" then pure .auto
  else match stripSuffix "px" value with
    | some px => do return .px (← parseU32 (trimmed px) name selector)
    | none => match stripSuffix "%" value with
      | some percent => do return .percent (floats.percent (← parseF32 floats (trimmed percent) name selector))
      | none => throw s!"`{name}` expects px, %, or auto value in `{selector}`, got `{value}`"

def parseThemeColor (theme name selector : String) : Except String ThemeColor :=
  match theme with
  | "primary" => pure .primary
  | "bg" | "background" => pure .bg
  | "surface" => pure .surface
  | "text" => pure .text
  | "text-secondary" => pure .textSecondary
  | "accent" => pure .accent
  | "error" => pure .error
  | "success" => pure .success
  | "warning" => pure .warning
  | _ => throw s!"unsupported theme color `{theme}` for `{name}` in `{selector}`"

/-- The value of a hexadecimal digit. -/
def hexDigit (c : Char) : Option ℕ :=
  if '0' ≤ c ∧ c ≤ '9' then some (c.toNat - '0'.toNat)
  else if 'a' ≤ c ∧ c ≤ 'f' then some (c.toNat - 'a'.toNat + 10)
  else if 'A' ≤ c ∧ c ≤ 'F' then some (c.toNat - 'A'.toNat + 10)
  else none

def parseHex (value : String) : Option ℕ := do
  let hex ← stripPrefix "#" value
  if hex.utf8ByteSize = 6 then
    let digits ← hex.toList.mapM hexDigit
    return digits.foldl (fun n digit => 16 * n + digit) 0
  else none

def parseColor (value name selector : String) : Except String ColorValue :=
  match (stripPrefix "theme(" value).bind (stripSuffix ")") with
  | some theme => do return .theme (← parseThemeColor theme name selector)
  | none => match parseHex value with
    | some hex => pure (.hex hex)
    | none => throw s!"`{name}` expects theme(name) or #rrggbb in `{selector}`, got `{value}`"

def parseFontSize (value selector : String) : Except String FontSizeValue :=
  match value with
  | "small" => pure .small
  | "normal" => pure .normal
  | "large" => pure .large
  | _ => throw s!"font-size expects small, normal, or large in `{selector}`, got `{value}`"

def parseBool (value name selector : String) : Except String Bool :=
  match value with
  | "true" => pure true
  | "false" => pure false
  | _ => throw s!"`{name}` expects true or false in `{selector}`, got `{value}`"

/-! ### Declarations -/

/-- What `Style.set` does to a style. -/
inductive Declaration (F : Type) where
  | field (f : Field) (value : f.Value F)
  | padding (padding : Padding)
  | side (side : Side) (px : ℕ)

namespace Declaration

def parse (floats : Floats F) (name value selector : String) : Except String (Declaration F) :=
  match name with
  | "layout" => do return .field .layout (← parseDirection value selector)
  | "align" => do return .field .align (← parseAlignPair value selector)
  | "gap" => do return .field .gap (← parsePxU16 value name selector)
  | "flex-grow" => do return .field .flexGrow (← parseF32 floats value name selector)
  | "scrollable" => do return .field .scrollable (← parseBool value name selector)
  | "width" => do return .field .width (← parseSizeValue floats value name selector)
  | "height" => do return .field .height (← parseSizeValue floats value name selector)
  | "padding" => do return .padding (← parsePadding value selector)
  | "padding-top" => do return .side .top (← parsePxU16 value name selector)
  | "padding-right" => do return .side .right (← parsePxU16 value name selector)
  | "padding-bottom" => do return .side .bottom (← parsePxU16 value name selector)
  | "padding-left" => do return .side .left (← parsePxU16 value name selector)
  | "background" => do return .field .background (← parseColor value name selector)
  | "color" => do return .field .color (← parseColor value name selector)
  | "border-color" => do return .field .borderColor (← parseColor value name selector)
  | "border-width" => do return .field .borderWidth (← parsePxU16 value name selector)
  | "border-bottom-width" => do return .field .borderBottomWidth (← parsePxU16 value name selector)
  | "radius" => do return .field .radius (← parsePxU16 value name selector)
  | "font-size" => do return .field .fontSize (← parseFontSize value selector)
  | "max-lines" => do return .field .maxLines (← parseU16 value name selector)
  | "word-wrap" => do return .field .wordWrap (← parseBool value name selector)
  | "display" =>
    if value = "none" then pure (.field .visible false)
    else throw s!"unsupported display value `{value}` in `{selector}`"
  | _ => throw s!"unsupported CSS property `{name}` in `{selector}`"

/-- A side is set in the padding that the style has, or in one of zeros. -/
def apply (style : Style F) : Declaration F → Style F
  | field f value => { style with field := Function.update style.field f (some value) }
  | padding p => { style with padding := some p }
  | side s px => { style with padding := some ((style.padding.getD .zero).setSide px s) }

end Declaration

namespace Style

def set (floats : Floats F) (style : Style F) (name value selector : String) : Except String (Style F) := do
  return (← Declaration.parse floats name value selector).apply style

/-- The padding is merged as a whole. -/
def mergeFrom (style other : Style F) : Style F where
  field f := (other.field f).or (style.field f)
  padding := other.padding.or style.padding

end Style

/-- A text at the first `c`. -/
def splitOnce (c : Char) : Text → Option (Text × Text)
  | [] => none
  | x :: s => if x = c then some ([], s) else (splitOnce c s).map fun (before, after) => (x :: before, after)

/-- The declarations of a body as they are written, with the empty ones left out. -/
def declarationTexts (body : Text) : List Text := ((body.splitOnP (· == ';')).map trim).filter (· ≠ [])

def nameAndValue (decl : Text) (selector : String) : Except String (String × String) :=
  match splitOnce ':' decl with
  | some (name, value) => pure (String.ofList (trim name), String.ofList (trim value))
  | none =>
    throw s!"expected `property: value` declaration in `{selector}` near `{String.ofList decl}`"

def parseDeclarations (floats : Floats F) (body : Text) (selector : String) : Except String (Style F) :=
  (declarationTexts body).foldlM (fun style decl => do
    let (name, value) ← nameAndValue decl selector
    style.set floats name value selector) .default

/-! ### Rules -/

inductive Selector where
  | tag (tag : String)
  | cls (cls : String)
  | id (id : String)
  | tagClass (tag cls : String)
  deriving DecidableEq, Repr

namespace Selector

def parse (input : Text) : Except String Selector :=
  let text := trim input
  let selector := String.ofList text
  if text = [] then throw "empty CSS selector"
  else if text.any isWhiteSpace || text.contains '>' || text.contains ',' then
    throw s!"unsupported selector `{selector}`; use tag, .class, #id, or tag.class"
  else match text with
    | '#' :: name => do
      validateRustIdent (String.ofList name) "id selector"
      return .id (String.ofList name)
    | '.' :: name => do
      validateCssIdent (String.ofList name) "class selector"
      return .cls (String.ofList name)
    | _ => match splitOnce '.' text with
      | some (t, c) =>
        if t = [] ∨ c = [] then throw s!"invalid selector `{selector}`"
        else match ElementKind.parse (String.ofList t) with
          | none => throw s!"unsupported tag selector `{String.ofList t}` in `{selector}`"
          | some _ => do
            validateCssIdent (String.ofList c) "class selector"
            return .tagClass (String.ofList t) (String.ofList c)
      | none => match ElementKind.parse selector with
        | none => throw s!"unsupported tag selector `{selector}`"
        | some _ => pure (.tag selector)

def matchesNode (node : Head) : Selector → Bool
  | tag t => node.kind.tag == t
  | cls c => node.classes.any (· == c)
  | id i => node.id == some i
  | tagClass t c => node.kind.tag == t && node.classes.any (· == c)

def specificity : Selector → ℕ
  | id _ => 100
  | tagClass _ _ => 11
  | cls _ => 10
  | tag _ => 1

end Selector

/-- A rule with its place in the sheet. -/
structure CssRule (α : Type) where
  selector : Selector
  declarations : α
  order : ℕ

lemma splitOnce_length {c : Char} {s before after : Text} (h : splitOnce c s = some (before, after)) :
    after.length < s.length := by
  induction s generalizing before after with
  | nil => cases h
  | cons x s ih =>
    rw [splitOnce] at h
    by_cases hx : x = c
    · rw [if_pos hx, Option.some.injEq, Prod.mk.injEq] at h
      rw [← h.2, List.length_cons]
      exact Nat.lt_succ_self _
    · rw [if_neg hx] at h
      obtain ⟨⟨before', after'⟩, hsplit, heq⟩ := Option.map_eq_some_iff.mp h
      rw [Prod.mk.injEq] at heq
      have hlt := ih hsplit
      rw [heq.2] at hlt
      exact Nat.lt_succ_of_lt hlt

mutual

def stripCssComments : Text → Text
  | '/' :: '*' :: input => skipComment input
  | c :: input => c :: stripCssComments input
  | [] => []

/-- What follows the end of a comment, without comments. -/
def skipComment : Text → Text
  | '*' :: '/' :: input => stripCssComments input
  | _ :: input => skipComment input
  | [] => []

end

/-- The rules of a sheet; `read` reads the body of one. -/
def parseRules (read : Text → String → Except String α) (rest : Text) (rules : List (CssRule α)) :
    Except String (List (CssRule α)) :=
  if trim rest = [] then pure rules
  else match hopen : splitOnce '{' rest with
    | none => throw s!"expected `\x7b` in CSS near `{String.ofList (trim rest)}`"
    | some (before, afterOpen) =>
      let selectorText := String.ofList (trim before)
      match hclose : splitOnce '}' afterOpen with
      | none => throw s!"expected `\x7d` for CSS rule `{selectorText}`"
      | some (body, after) => do
        have : after.length < rest.length := (splitOnce_length hclose).trans (splitOnce_length hopen)
        let selector ← Selector.parse (trim before)
        let declarations ← read body selectorText
        parseRules read after (rules ++ [⟨selector, declarations, rules.length⟩])
termination_by rest.length

def parseCss (floats : Floats F) (css : Text) : Except String (List (CssRule (Style F))) :=
  parseRules (parseDeclarations floats) (stripCssComments css) []

/-! ### Applying -/

def ElementKind.defaultDirection : ElementKind → Option Direction
  | .screen | .column => some .column
  | .row => some .row
  | _ => none

/-- The style of a node before any rule. -/
def initialStyle (node : Head) : Style F where
  field
    | .layout => node.kind.defaultDirection
    | .visible => if node.attr "visible" = some "false" then some false else none
    | _ => none
  padding := none

/-- The rules for a node, in the order in which they are merged. -/
def matching (rules : List (CssRule α)) (node : Head) : List (CssRule α) :=
  (rules.filter fun rule => rule.selector.matchesNode node).insertionSort fun a b =>
    toLex (a.selector.specificity, a.order) ≤ toLex (b.selector.specificity, b.order)

def applyStylesToNode (rules : List (CssRule (Style F))) (node : Head) : Style F :=
  (matching rules node).foldl (fun style rule => style.mergeFrom rule.declarations) (initialStyle node)

/-- What the compiler gives to the nodes of a tree. -/
def styleSheet (floats : Floats F) (css : Text) : Except String (Head → Style F) :=
  (parseCss floats css).map applyStylesToNode

end ThistleOS.Toolkit.Compiler
