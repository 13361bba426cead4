import ThistleOS.Kernel.MsgQueue.Json
import ThistleOS.Toolkit.Tree

/-!
# The compiler of user interfaces

Markup is parsed, and the tree of its elements is flattened to a list of statements that bind
variables. The statements are run with the scopes of Rust. A style sheet is what it makes of a node;
`σ` is what comes of it.
-/

namespace ThistleOS.Toolkit.Compiler

inductive ElementKind where
  | screen
  | row
  | column
  | label
  | button
  | divider
  | spacer
  | textInput
  | listItem
  | progress
  deriving DecidableEq, Repr

def ElementKind.parse (tag : String) : Option ElementKind :=
  if tag = "screen" then some .screen
  else if tag = "row" then some .row
  else if tag = "column" then some .column
  else if tag = "label" then some .label
  else if tag = "button" then some .button
  else if tag = "divider" then some .divider
  else if tag = "spacer" then some .spacer
  else if tag = "text-input" then some .textInput
  else if tag = "list-item" then some .listItem
  else if tag = "progress" then some .progress
  else none

def ElementKind.tag : ElementKind → String
  | .screen => "screen"
  | .row => "row"
  | .column => "column"
  | .label => "label"
  | .button => "button"
  | .divider => "divider"
  | .spacer => "spacer"
  | .textInput => "text-input"
  | .listItem => "list-item"
  | .progress => "progress"

/-- An element as the XML parser returns it, with its attributes and the elements in it. -/
inductive Element where
  | mk (tag : String) (attributes : List (String × String)) (children : List Element)

/-- What an element says of itself. -/
structure Head where
  kind : ElementKind
  id : Option String
  classes : List String
  attrs : List (String × String)

inductive Node where
  | mk (head : Head) (children : List Node)

def Head.attr (h : Head) (name : String) : Option String := h.attrs.lookup name

/-! ### Names -/

def rustReservedWords : List String :=
  ["Self", "abstract", "as", "async", "await", "become", "box", "break", "const", "continue", "crate",
    "do", "dyn", "else", "enum", "extern", "false", "final", "fn", "for", "gen", "if", "impl", "in",
    "let", "loop", "macro", "match", "mod", "move", "mut", "override", "priv", "pub", "ref", "return",
    "self", "static", "struct", "super", "trait", "true", "try", "type", "typeof", "union", "unsafe",
    "unsized", "use", "virtual", "where", "while", "yield"]

def validateRustIdent (value what : String) : Except String Unit :=
  match value.toList with
  | c :: chars =>
    if c == '_' || c.isAlpha then
      if chars.all fun c => c == '_' || c.isAlphanum then
        if rustReservedWords.contains value then throw s!"{what} `{value}` is a reserved Rust keyword"
        else pure ()
      else throw s!"{what} `{value}` may only contain ASCII letters, digits, and '_'"
    else throw s!"{what} `{value}` must start with '_' or an ASCII letter"
  | [] => throw s!"{what} `{value}` must start with '_' or an ASCII letter"

def validateCssIdent (value what : String) : Except String Unit :=
  match value.toList with
  | c :: chars =>
    if c == '-' || c == '_' || c.isAlpha then
      if chars.all fun c => c == '-' || c == '_' || c.isAlphanum then pure ()
      else throw s!"{what} `{value}` may only contain ASCII letters, digits, '_' and '-'"
    else throw s!"{what} `{value}` must start with '-', '_' or an ASCII letter"
  | [] => throw s!"{what} `{value}` must start with '-', '_' or an ASCII letter"

/-! ### Parsing -/

def trimmed (s : String) : String := String.ofList (MsgQueue.trim s.toList)

def splitWhitespace (s : String) : List String :=
  ((s.toList.splitOnP MsgQueue.isWhiteSpace).filter (· ≠ [])).map String.ofList

/-- Read an attribute; a later one of the same local name takes the place of an earlier one. -/
def parseAttribute (tag : String) (head : Head) (attr : String × String) : Except String Head := do
  let (name, value) := attr
  let value := trimmed value
  let head ←
    if name = "id" then do
      validateRustIdent value "widget id"
      pure { head with id := some value }
    else if name = "class" then do
      let classes := splitWhitespace value
      classes.forM fun c => validateCssIdent c "class"
      pure { head with classes := head.classes ++ classes }
    else if ["text", "placeholder", "value", "on-press", "visible"].contains name then pure head
    else throw s!"unsupported attribute `{name}` on <{tag}>"
  return { head with attrs := (name, value) :: head.attrs }

def ElementKind.isLeaf (kind : ElementKind) : Bool :=
  kind == .label || kind == .button || kind == .textInput || kind == .listItem

mutual

def parseElement : Element → Except String Node
  | .mk tag attributes children =>
    match ElementKind.parse tag with
    | none => throw s!"unsupported UI element <{tag}>"
    | some kind => do
      let head ← attributes.foldlM (parseAttribute tag) ⟨kind, none, [], []⟩
      if kind.isLeaf && !children.isEmpty then throw s!"<{tag}> cannot contain child elements"
      let children ← parseElements children
      return .mk head children

def parseElements : List Element → Except String (List Node)
  | [] => return []
  | element :: elements => do
    let node ← parseElement element
    let nodes ← parseElements elements
    return node :: nodes

end

def Node.head : Node → Head
  | .mk head _ => head

def Node.children : Node → List Node
  | .mk _ children => children

def parseMarkup (markup : Element) : Except String Node := do
  let node ← parseElement markup
  if node.head.kind ≠ .screen then
    throw s!"root element must be <screen>, found <{node.head.kind.tag}>"
  return node

/-! ### Generated programs -/

inductive WidgetKind where
  | container
  | label
  | button
  | divider
  | spacer
  | textInput
  | listItem
  | progressBar
  deriving DecidableEq, Repr

/-- A widget with its text, the value of a progress bar, and what the style sheet gives to it. -/
structure GenWidget (σ : Type) where
  kind : WidgetKind
  text : String
  value : Nat
  style : σ

/-- `let var` is bound to the id of a widget that is added to the one that `parent` names. -/
structure Stmt (σ : Type) where
  var : String
  widget : GenWidget σ
  parent : String

structure Program (σ : Type) where
  structName : String
  fnName : String
  root : GenWidget σ
  stmts : List (Stmt σ)
  handles : List (String × String)

inductive Failure where
  | error (message : String)
  | panic (message : String)

variable {σ : Type}

def pushStr (capacity : Nat) (text : Option String) : String :=
  (text.filter fun text => text.utf8ByteSize ≤ capacity).getD ""

def parseU16 (value name selector : String) : Except String Nat :=
  let digits := (value.toList.dropPrefix? ['+']).getD value.toList
  let failed (err : String) : Except String Nat :=
    throw s!"`{name}` expects a non-negative integer in `{selector}`, got `{value}`: {err}"
  if value = "" then failed "cannot parse integer from empty string"
  else if digits.isEmpty || !digits.all Char.isDigit then failed "invalid digit found in string"
  else
    let n := Nat.ofDigitChars 10 digits 0
    if n < 0x10000 then pure n else failed "number too large to fit in target type"

/-- The widget of a node. -/
def buildWidget (style : Head → σ) (head : Head) : Except Failure (GenWidget σ) :=
  match head.kind with
  | .row | .column => pure ⟨.container, "", 0, style head⟩
  | .label => pure ⟨.label, pushStr 256 (head.attr "text"), 0, style head⟩
  | .button => do
    (head.attr "on-press").forM fun callback =>
      (validateRustIdent callback "on-press callback").mapError .error
    return ⟨.button, pushStr 64 (head.attr "text"), 0, style head⟩
  | .divider => pure ⟨.divider, "", 0, style head⟩
  | .spacer => pure ⟨.spacer, "", 0, style head⟩
  | .textInput => pure ⟨.textInput, pushStr 64 (head.attr "placeholder"), 0, style head⟩
  | .listItem => pure ⟨.listItem, pushStr 64 (head.attr "text"), 0, style head⟩
  | .progress =>
    match head.attr "value" with
    | none => pure ⟨.progressBar, "", 0, style head⟩
    | some value => do
      let value ← (parseU16 value "value" "progress attribute").mapError .error
      return ⟨.progressBar, "", min value 100, style head⟩
  | .screen => throw (.panic "nested screen is not supported")

/-- The number of nodes so far, the statements and the handles of some nodes. -/
structure Emitted (σ : Type) where
  nodeCounter : Nat
  stmts : List (Stmt σ)
  handles : List (String × String)

def variableOf (head : Head) (number : Nat) : String := head.id.getD s!"_node_{number}"

mutual

def writeNode (style : Head → σ) : Node → String → Nat → Except Failure (Emitted σ)
  | .mk head children, parent, nodeCounter => do
    let var := variableOf head (nodeCounter + 1)
    (validateRustIdent var "generated widget variable").mapError .error
    let widget ← buildWidget style head
    let rest ← writeNodes style children var (nodeCounter + 1)
    return {
      nodeCounter := rest.nodeCounter
      stmts := ⟨var, widget, parent⟩ :: rest.stmts
      handles := head.id.toList.map (fun id => (id, var)) ++ rest.handles }

def writeNodes (style : Head → σ) : List Node → String → Nat → Except Failure (Emitted σ)
  | [], _, nodeCounter => return ⟨nodeCounter, [], []⟩
  | node :: nodes, parent, nodeCounter => do
    let first ← writeNode style node parent nodeCounter
    let rest ← writeNodes style nodes parent first.nodeCounter
    return ⟨rest.nodeCounter, first.stmts ++ rest.stmts, first.handles ++ rest.handles⟩

end

structure CompileOptions where
  structName : String
  fnName : String

def generate (options : CompileOptions) (style : Head → σ) (root : Node) :
    Except Failure (Program σ) := do
  let body ← writeNodes style root.children "root" 0
  return {
    structName := options.structName
    fnName := options.fnName
    root := ⟨.container, "", 0, style root.head⟩
    stmts := body.stmts
    handles := ("root", "root") :: body.handles }

/-- `sheet` is what the parser of style sheets returns. -/
def compileToRust (markup : Element) (sheet : Except String (Head → σ)) (options : CompileOptions) :
    Except Failure (Program σ) := do
  (validateRustIdent options.structName "struct name").mapError .error
  (validateRustIdent options.fnName "function name").mapError .error
  let root ← (parseMarkup markup).mapError .error
  let style ← sheet.mapError .error
  generate options style root

/-! ### Running -/

/-- What a variable of the generated function can be. -/
inductive Value where
  | tree
  | widgetId (id : WidgetId)
  | other

abbrev Env := List (String × Value)

/-- Names that stand for constructors, which a pattern does not bind. -/
def constructorNames : List String := ["None", "Some", "Ok", "Err"]

def bindVar (var : String) (value : Value) (env : Env) : Option Env :=
  if var = "_" then some env
  else if constructorNames.contains var then none
  else some ((var, value) :: env)

/-- The widget is a variable of its own while the statement runs. -/
def Stmt.exec (s : Stmt σ) (state : UiTree (GenWidget σ) × Env) :
    Option (UiTree (GenWidget σ) × Env) :=
  let scope := ("widget", Value.other) :: state.2
  match scope.lookup "tree", scope.lookup s.parent with
  | some .tree, some (.widgetId parent) =>
    match state.1.addChild parent ⟨{}, s.widget⟩ with
    | (t, some id) => (bindVar s.var (.widgetId id) state.2).map fun env => (t, env)
    | (_, none) => none
  | _, _ => none

def importedNames : List String :=
  ["Color", "UiTree", "WidgetId", "Align", "Direction", "ButtonWidget", "ContainerWidget",
    "DividerWidget", "FontSize", "LabelWidget", "ListItemWidget", "ProgressBarWidget", "SizeHint",
    "SpacerWidget", "TextInputWidget", "Widget"]

namespace Program

/-- The struct of the handles can be declared. -/
def Declares (p : Program σ) : Prop :=
  p.structName ∉ importedNames ∧ (p.handles.map Prod.fst).Nodup ∧ "_" ∉ p.handles.map Prod.fst

instance (p : Program σ) : Decidable p.Declares := instDecidableAnd

def start (p : Program σ) : UiTree (GenWidget σ) × Env :=
  (.new ⟨{}, p.root⟩, [("root", .widgetId 0), ("tree", .tree), ("root_widget", .other)])

def handle (env : Env) (handle : String × String) : Option (String × WidgetId) :=
  match env.lookup handle.2 with
  | some (.widgetId id) => some (handle.1, id)
  | _ => none

/-- The tree and the handles that the generated function returns, if it can be compiled and run.
`accepted` says whether the lines that come of a style are Rust. -/
def run (accepted : σ → Bool) (p : Program σ) :
    Option (UiTree (GenWidget σ) × List (String × WidgetId)) :=
  if p.Declares ∧ accepted p.root.style = true ∧ p.stmts.all (accepted ·.widget.style) = true then do
    let (t, env) ← p.stmts.foldlM (fun state s => s.exec state) p.start
    match env.lookup "tree" with
    | some .tree => (p.handles.mapM (handle env)).map fun handles => (t, handles)
    | _ => none
  else none

end Program

end ThistleOS.Toolkit.Compiler
