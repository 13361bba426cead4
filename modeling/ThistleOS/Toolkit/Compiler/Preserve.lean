import ThistleOS.Toolkit.Compiler.Build

/-!
# The compiler preserves the document

A document that is accepted becomes a program that builds the tree of its elements and names the
widgets of those that have an id, as long as each name is bound to the right widget where it is used.
-/

namespace ThistleOS.Toolkit.Compiler

open UiTree

variable {σ : Type} {style : Head → σ}

/-! ### Parsing -/

mutual

/-- A node has the kind and the id of an element, and its children are those of the element. -/
inductive Parsed : Element → Node → Prop
  | mk {tag : String} {attributes : List (String × String)} {head : Head} {elements : List Element}
      {nodes : List Node} (hkind : ElementKind.parse tag = some head.kind)
      (hid : head.id = (attributes.reverse.lookup "id").map trimmed)
      (hchildren : ParsedAll elements nodes) : Parsed (.mk tag attributes elements) (.mk head nodes)

inductive ParsedAll : List Element → List Node → Prop
  | nil : ParsedAll [] []
  | cons {element : Element} {elements : List Element} {node : Node} {nodes : List Node}
      (helement : Parsed element node) (helements : ParsedAll elements nodes) :
      ParsedAll (element :: elements) (node :: nodes)

end

lemma parseAttribute_ok {tag name value : String} {head head' : Head}
    (h : parseAttribute tag head (name, value) = .ok head') :
    head'.kind = head.kind ∧ head'.id = if name = "id" then some (trimmed value) else head.id := by
  rw [parseAttribute] at h
  split_ifs at h ⊢ with hid hclass hother
  · obtain ⟨_, -, h⟩ := Except.bind_ok h
    obtain rfl := Except.ok.inj h
    exact ⟨rfl, rfl⟩
  · obtain ⟨_, -, h⟩ := Except.bind_ok h
    obtain rfl := Except.ok.inj h
    exact ⟨rfl, rfl⟩
  · obtain rfl := Except.ok.inj h
    exact ⟨rfl, rfl⟩
  · cases h

lemma parseAttributes_ok {tag : String} {attributes : List (String × String)} {head head' : Head}
    (h : attributes.foldlM (parseAttribute tag) head = .ok head') :
    head'.kind = head.kind ∧
      head'.id = ((attributes.reverse.lookup "id").map trimmed).or head.id := by
  induction attributes generalizing head with
  | nil =>
    obtain rfl := Except.ok.inj h
    exact ⟨rfl, rfl⟩
  | cons attr attributes ih =>
    obtain ⟨name, value⟩ := attr
    rw [List.foldlM_cons] at h
    obtain ⟨head₁, h₁, h⟩ := Except.bind_ok h
    obtain ⟨hkind₁, hid₁⟩ := parseAttribute_ok h₁
    obtain ⟨hkind, hid⟩ := ih h
    refine ⟨hkind.trans hkind₁, ?_⟩
    rw [hid, hid₁, List.reverse_cons, List.lookup_append, Option.map_or, Option.or_assoc]
    congr 1
    by_cases hname : name = "id"
    · rw [if_pos hname, hname, List.lookup_cons_self]
      rfl
    · rw [if_neg hname, List.lookup_cons, beq_false_of_ne (Ne.symm hname)]
      rfl

mutual

lemma parsed_of_parseElement {element : Element} {node : Node} (h : parseElement element = .ok node) :
    Parsed element node := by
  cases element with
  | mk tag attributes children =>
    rw [parseElement] at h
    cases hkind : ElementKind.parse tag with
    | none =>
      rw [hkind] at h
      cases h
    | some kind =>
      rw [hkind] at h
      obtain ⟨head, hhead, h⟩ := Except.bind_ok h
      obtain ⟨-, h⟩ := Except.check_ok h
      obtain ⟨nodes, hnodes, h⟩ := Except.bind_ok h
      obtain rfl := Except.ok.inj h
      obtain ⟨hsame, hid⟩ := parseAttributes_ok hhead
      refine .mk (hsame ▸ hkind) ?_ (parsedAll_of_parseElements hnodes)
      rw [hid]
      cases (attributes.reverse.lookup "id").map trimmed with
      | none => rfl
      | some id => rfl

lemma parsedAll_of_parseElements {elements : List Element} {nodes : List Node}
    (h : parseElements elements = .ok nodes) : ParsedAll elements nodes := by
  cases elements with
  | nil =>
    rw [parseElements] at h
    obtain rfl := Except.ok.inj h
    exact .nil
  | cons element elements =>
    rw [parseElements] at h
    obtain ⟨node, hnode, h⟩ := Except.bind_ok h
    obtain ⟨nodes, hnodes, h⟩ := Except.bind_ok h
    obtain rfl := Except.ok.inj h
    exact .cons (parsed_of_parseElement hnode) (parsedAll_of_parseElements hnodes)

end

/-! ### Panics -/

/-- A computation that does not panic. -/
def Safe {α : Type} (x : Except Failure α) : Prop := ∀ message, x ≠ .error (.panic message)

def named (x : Head × WidgetId × List Node) : Bool :=
  (validateRustIdent (variableOf x.1 x.2.1) "generated widget variable").isOk

/-- The widget of an element can be built. -/
def built (head : Head) : Bool :=
  match head.kind with
  | .screen => false
  | .button => (head.attr "on-press").all fun callback =>
    (validateRustIdent callback "on-press callback").isOk
  | .progress => (head.attr "value").all fun value => (parseU16 value "value" "progress attribute").isOk
  | _ => true

def written (x : Head × WidgetId × List Node) : Bool := named x && built x.1

def panics (x : Head × WidgetId × List Node) : Bool := named x && x.1.kind == .screen

/-- A computation goes through if no element stops it, and panics if the one that stops it does. -/
structure Follows {α : Type} (stop : Option (Head × WidgetId × List Node)) (r : Except Failure α) :
    Prop where
  ok : stop = none → ∃ a, r = .ok a
  error : ∀ x, stop = some x → ∃ f, r = .error f ∧ ((∃ message, f = .panic message) ↔ panics x = true)

lemma Follows.bind {α β : Type} {stop stop' : Option (Head × WidgetId × List Node)}
    {r : Except Failure α} {f : α → Except Failure β} (h : Follows stop r)
    (h' : ∀ a, r = .ok a → Follows stop' (f a)) : Follows (stop.or stop') (r >>= f) := by
  cases stop with
  | none =>
    obtain ⟨a, rfl⟩ := h.ok rfl
    exact h' a rfl
  | some x =>
    obtain ⟨e, rfl, hpanics⟩ := h.error x rfl
    refine ⟨fun hnone => ?_, fun y hy => ?_⟩
    · cases hnone
    · obtain rfl := Option.some.inj hy
      exact ⟨e, rfl, hpanics⟩

lemma follows_ok {α : Type} (a : α) : Follows none (Except.ok a : Except Failure α) :=
  ⟨fun _ => ⟨a, rfl⟩, fun _ h => by cases h⟩

/-- A check with an error of its own. -/
lemma follows_check {α : Type} {x : Head × WidgetId × List Node} {r : Except String α}
    (hpanics : r.isOk = false → panics x = false) :
    Follows (if r.isOk then none else some x) (r.mapError .error) := by
  cases r with
  | ok a => exact follows_ok a
  | error e =>
    refine ⟨fun hnone => ?_, fun y hy => ?_⟩
    · cases hnone
    · obtain rfl := Option.some.inj hy
      refine ⟨.error e, rfl, fun h => ?_, fun h => ?_⟩
      · obtain ⟨message, h⟩ := h
        cases h
      · rw [hpanics rfl] at h
        cases h

lemma Follows.map {α β : Type} {stop : Option (Head × WidgetId × List Node)} {r : Except Failure α}
    {f : α → Except Failure β} (h : Follows stop r) (hf : ∀ a, Follows none (f a)) :
    Follows stop (r >>= f) := by
  have hbind : Follows (stop.or none) (r >>= f) := h.bind fun a _ => hf a
  rwa [Option.or_none] at hbind

lemma follows_named (x : Head × WidgetId × List Node) :
    Follows (if named x then none else some x)
      ((validateRustIdent (variableOf x.1 x.2.1) "generated widget variable").mapError .error) :=
  follows_check fun hnamed => by rw [panics, named, hnamed, Bool.false_and]

lemma named_of_ok {x : Head × WidgetId × List Node} {a : Unit}
    (h : (validateRustIdent (variableOf x.1 x.2.1) "generated widget variable").mapError
      Failure.error = .ok a) : named x = true := by
  rw [named, Except.mapError_ok h]
  rfl

lemma follows_built {x : Head × WidgetId × List Node} (hnamed : named x = true) :
    Follows (if built x.1 then none else some x) (buildWidget style x.1) := by
  have hpanics : panics x = (x.1.kind == .screen) := by rw [panics, hnamed, Bool.true_and]
  rw [buildWidget, built]
  cases hkind : x.1.kind with
  | screen =>
    refine ⟨fun hnone => ?_, fun y hy => ?_⟩
    · cases hnone
    · obtain rfl := Option.some.inj hy
      exact ⟨_, rfl, fun _ => by rw [hpanics, hkind]; rfl, fun _ => ⟨_, rfl⟩⟩
  | row | column | label | divider | spacer | textInput | listItem => exact follows_ok _
  | button =>
    refine Follows.map ?_ fun _ => follows_ok _
    cases head : x.1.attr "on-press" with
    | none => exact follows_ok _
    | some callback => exact follows_check fun _ => by rw [hpanics, hkind]; rfl
  | progress =>
    cases x.1.attr "value" with
    | none => exact follows_ok _
    | some value => exact (follows_check fun _ => (by rw [hpanics, hkind]; rfl)).map fun _ => follows_ok _

/-- The first of the elements that cannot be written. -/
def stopAt (xs : List (Head × WidgetId × List Node)) : Option (Head × WidgetId × List Node) :=
  xs.find? (!written ·)

lemma stopAt_cons (x : Head × WidgetId × List Node) (xs : List (Head × WidgetId × List Node)) :
    stopAt (x :: xs) = (if named x then none else some x).or
      ((if built x.1 then none else some x).or (stopAt xs)) := by
  rw [stopAt, List.find?_cons, written]
  cases named x <;> cases built x.1 <;> rfl

mutual

lemma follows_writeNode (node : Node) (parent : String) (count : Nat) :
    Follows (stopAt (elements node (count + 1))) (writeNode style node parent count) := by
  cases node with
  | mk head children =>
    rw [elements, stopAt_cons, writeNode]
    refine (follows_named (head, count + 1, children)).bind fun _ hcheck => ?_
    refine (follows_built (named_of_ok hcheck)).bind fun widget _ => ?_
    exact (follows_writeNodes children _ (count + 1)).map fun _ => follows_ok _

lemma follows_writeNodes (nodes : List Node) (parent : String) (count : Nat) :
    Follows (stopAt (elementsAll nodes (count + 1))) (writeNodes style nodes parent count) := by
  cases nodes with
  | nil =>
    rw [writeNodes]
    exact follows_ok _
  | cons node nodes =>
    rw [elementsAll, stopAt, List.find?_append, writeNodes]
    refine (follows_writeNode node parent count).bind fun first hfirst => ?_
    have hnext : first.nodeCounter + 1 = count + 1 + node.size := by
      rw [nodeCounter_node hfirst, Nat.add_right_comm]
    rw [← hnext]
    exact (follows_writeNodes nodes parent first.nodeCounter).map fun _ => follows_ok _

end

/-! ### Preservation -/

def Narrow (root : Node) : Prop := ∀ x ∈ elements root 0, x.2.2.length ≤ maxChildren

/-- The compiler does not panic; and the program for an accepted document in which no element has too
many children can be compiled and run, and returns the tree of the elements and their handles. -/
def Preserves (accepted : σ → Bool) (markup : Element) (sheet : Except String (Head → σ))
    (options : CompileOptions) : Prop :=
  Safe (compileToRust markup sheet options) ∧
    ∀ program, compileToRust markup sheet options = .ok program →
      ∃ root, parseMarkup markup = .ok root ∧ Parsed markup root ∧
        (Narrow root → ∃ t handles, program.run accepted = some (t, ("root", 0) :: handles) ∧
          Represents t root 0 handles)

/-- Each name in a document is bound to its own element where it is used, and the number of elements
fits into an id. -/
structure Clean (accepted : σ → Bool) (style : Head → σ) (options : CompileOptions) (root : Node) :
    Prop where
  id : root.head.id = none
  count : root.size ≤ 0x10000
  ids : ((handlesOfAll root.children 1).map Prod.fst).Nodup
  untaken : Untaken (handlesOfAll root.children 1)
  scopes : ∀ x ∈ elementsAll root.children 1, Scoped x
  last : ∀ h ∈ handlesOfAll root.children 1,
    (bindingsAll root.children 1).reverse.lookup h.1 = some h.2
  structName : options.structName ∉ importedNames
  styles : ∀ x ∈ elements root 0, accepted (style x.1) = true

/-- The first element that cannot be written, if there is one, is not a screen; and otherwise the
names of the document are clean. -/
structure Sound (accepted : σ → Bool) (style : Head → σ) (options : CompileOptions) (root : Node) :
    Prop where
  screens : ∀ x, stopAt (elementsAll root.children 1) = some x → panics x = false
  clean : stopAt (elementsAll root.children 1) = none → Narrow root →
    Clean accepted style options root

/-- The document, its style sheet and the names of the program are all accepted by their parsers. -/
structure Readable (markup : Element) (sheet : Except String (Head → σ)) (options : CompileOptions)
    (root : Node) (style : Head → σ) : Prop where
  structName : (validateRustIdent options.structName "struct name").isOk = true
  fnName : (validateRustIdent options.fnName "function name").isOk = true
  markup : parseMarkup markup = .ok root
  sheet : sheet = .ok style

lemma fresh_new (w : Widget (GenWidget σ)) : Fresh (UiTree.new w) 1 where
  free := rfl
  length := rfl
  alive n hn := by
    rw [List.mem_singleton.mp hn]

lemma fields_eq {nodes : List Node} {parent : String} {count : Nat} {body : Emitted σ}
    (hbody : writeNodes style nodes parent count = .ok body) :
    (("root", "root") :: body.handles).map Prod.fst =
      "root" :: (handlesOfAll nodes (count + 1)).map Prod.fst := by
  rw [handles_nodes hbody, List.map_cons, List.map_map]
  rfl

lemma bindingsAll_dropLast_subset (nodes : List Node) (slot : WidgetId) :
    bindingsAll nodes.dropLast slot ⊆ bindingsAll nodes slot := by
  induction nodes generalizing slot with
  | nil => exact List.Subset.refl _
  | cons node nodes ih =>
    rcases eq_or_ne nodes [] with rfl | hne
    · exact List.nil_subset _
    · rw [List.dropLast_cons_of_ne_nil hne, bindingsAll, bindingsAll]
      exact List.append_subset.mpr
        ⟨List.subset_append_left _ _, List.subset_append_of_subset_right _ (ih (slot + node.size))⟩

/-- A program whose statements go through returns the tree and the handles. -/
lemma Program.run_eq {accepted : σ → Bool} {p : Program σ} {t : UiTree (GenWidget σ)} {env : Env}
    {handles : List (String × WidgetId)} (hdeclares : p.Declares)
    (hroot : accepted p.root.style = true) (hstyles : p.stmts.all (accepted ·.widget.style) = true)
    (hrun : p.stmts.foldlM (fun state s => s.exec state) p.start = some (t, env))
    (htree : env.lookup "tree" = some .tree)
    (hhandles : p.handles.mapM (Program.handle env) = some handles) :
    p.run accepted = some (t, handles) := by
  rw [Program.run, if_pos ⟨hdeclares, hroot, hstyles⟩, hrun]
  simp only [Option.bind_eq_bind, Option.bind_some, htree, hhandles, Option.map_some]

/-- The variables before the first statement. -/
def startEnv : Env := [("root", .widgetId 0), ("tree", .tree), ("root_widget", .other)]

lemma represents_built {head : Head} {children : List Node} {body : Emitted σ}
    (hbody : writeNodes style children "root" 0 = .ok body) (hkind : head.kind = .screen)
    (hid : head.id = none) :
    Represents (grow (.new ⟨{}, ⟨.container, "", 0, style head⟩⟩) 0 (slotsFrom 1 children)
      (layAll style children 0 1)) (.mk head children) 0 (handlesOfAll children 1) := by
  have hnodes : (grow (.new (⟨{}, ⟨.container, "", 0, style head⟩⟩ : Widget (GenWidget σ))) 0
      (slotsFrom 1 children) (layAll style children 0 1)).nodes =
      [⟨⟨{}, ⟨.container, "", 0, style head⟩⟩, none, slotsFrom 1 children, 0, true⟩] ++
        (layAll style children 0 1 ++ []) := by
    rw [List.append_nil]
    rfl
  have hbelow := representsAll_lay hbody rfl hnodes
  have hwidget : WidgetKind.container = head.kind.widget := by
    rw [hkind]
    rfl
  have hall : Represents (grow (.new ⟨{}, ⟨.container, "", 0, style head⟩⟩) 0 (slotsFrom 1 children)
      (layAll style children 0 1)) (.mk head children) 0
      (head.id.toList.map (fun name => (name, 0)) ++ handlesOfAll children 1) :=
    .mk rfl hwidget hbelow
  rwa [hid] at hall

/-- A clean document that is accepted becomes a program that builds its tree. -/
lemma run_of_clean {accepted : σ → Bool} {options : CompileOptions} {root : Node} {program : Program σ}
    (hclean : Clean accepted style options root) (hkind : root.head.kind = .screen)
    (hgenerate : generate options style root = .ok program) (hnarrow : Narrow root) :
    ∃ t handles, program.run accepted = some (t, ("root", 0) :: handles) ∧
      Represents t root 0 handles := by
  obtain ⟨body, hbody, hprogram⟩ := Except.bind_ok hgenerate
  obtain rfl := Except.ok.inj hprogram
  cases root with
  | mk head children =>
    have hbody : writeNodes style children "root" 0 = .ok body := hbody
    have huntaken : Untaken (bindingsAll children 1) := untaken_bindingsAll hclean.untaken
    have htaken : ∀ name ∈ takenNames, name ∉ (bindingsAll children 1).map Prod.fst := by
      intro name hname hmem
      obtain ⟨b, hb, rfl⟩ := List.mem_map.mp hmem
      exact huntaken b hb hname
    have hfields : ∀ name ∈ takenNames, name ∉ (handlesOfAll children 1).map Prod.fst :=
      fun name hname hmem => htaken name hname (List.map_subset _ (handlesOfAll_subset children 1) hmem)
    have hcount := hclean.count
    rw [Node.size] at hcount
    have hwide : children.length ≤ maxChildren := hnarrow _ List.mem_cons_self
    have hscope : Scope startEnv "root" 0 := ⟨by decide, rfl, rfl⟩
    have hroot : "root" ∉ (bindingsAll children.dropLast 1).map Prod.fst := fun hmem =>
      htaken "root" (by decide) (List.map_subset _ (bindingsAll_dropLast_subset children 1) hmem)
    have hrun := exec_nodes hbody (fresh_new ⟨{}, ⟨.container, "", 0, style head⟩⟩) (Nat.zero_lt_one)
      (by omega) (by simpa [listed, UiTree.new] using hwide) (fun _ => hscope)
      (allFit_of_elements fun x hx => ⟨hnarrow x (List.mem_cons_of_mem _ hx), hclean.scopes x hx⟩)
      huntaken hroot
    let env : Env := bound (bindingsAll children 1) ++ startEnv
    have hnamed : (("root", "root") :: body.handles).mapM (Program.handle env) =
        some (("root", 0) :: handlesOfAll children 1) := by
      refine mapM_handle.mpr (.cons ⟨rfl, ?_⟩ ?_)
      · exact lookup_bound_of_not_mem (htaken "root" (by decide)) startEnv
      · rw [handles_nodes hbody]
        refine List.forall₂_map_left_iff.mpr (List.forall₂_same.mpr fun h hh => ⟨rfl, ?_⟩)
        have hlast : (bindingsAll children 1).reverse.lookup h.1 = some h.2 := hclean.last h hh
        rw [lookup_bound, hlast]
        rfl
    let t : UiTree (GenWidget σ) := grow (.new ⟨{}, ⟨.container, "", 0, style head⟩⟩) 0
      (slotsFrom 1 children) (layAll style children 0 1)
    refine ⟨t, handlesOfAll children 1, ?_, ?_⟩
    · refine Program.run_eq ⟨hclean.structName, ?_, ?_⟩ (hclean.styles _ List.mem_cons_self) ?_ hrun
        (lookup_bound_of_not_mem (htaken "tree" (by decide)) startEnv) hnamed
      · rw [fields_eq hbody, List.nodup_cons]
        exact ⟨hfields "root" (by decide), hclean.ids⟩
      · rw [fields_eq hbody, List.mem_cons, not_or]
        exact ⟨by decide, hfields "_" (by decide)⟩
      · exact (accepted_nodes hbody).mpr fun x hx => hclean.styles x (List.mem_cons_of_mem _ hx)
    · exact represents_built hbody hkind hclean.id

end ThistleOS.Toolkit.Compiler
