import ThistleOS.Except
import ThistleOS.Slots
import ThistleOS.Toolkit.Compiler

/-!
# The tree that a generated program builds

The statements add the widgets in document order, so that the slot of a widget is the number of its
node. When no name is bound twice or means something else, the program builds the tree of the
elements.
-/

namespace ThistleOS.Toolkit.Compiler

open UiTree

variable {σ : Type} {style : Head → σ}

/-! ### Nodes in document order -/

mutual

def Node.size : Node → Nat
  | .mk _ children => sizes children + 1

def sizes : List Node → Nat
  | [] => 0
  | node :: nodes => node.size + sizes nodes

end

mutual

/-- The variables of a node and of those below it, with their slots. -/
def bindings : Node → WidgetId → List (String × WidgetId)
  | .mk head children, slot => (variableOf head slot, slot) :: bindingsAll children (slot + 1)

def bindingsAll : List Node → WidgetId → List (String × WidgetId)
  | [], _ => []
  | node :: nodes, slot => bindings node slot ++ bindingsAll nodes (slot + node.size)

end

/-- The slots of nodes that follow each other. -/
def slotsFrom : WidgetId → List Node → List WidgetId
  | _, [] => []
  | slot, node :: nodes => slot :: slotsFrom (slot + node.size) nodes

/-- The widget of a node that can be built. -/
def widgetOf (style : Head → σ) (head : Head) : GenWidget σ :=
  match buildWidget style head with
  | .ok widget => widget
  | .error _ => ⟨.container, "", 0, style head⟩

mutual

/-- The slots that a node and those below it take. -/
def lay (style : Head → σ) : Node → WidgetId → WidgetId → List (Toolkit.Node (GenWidget σ))
  | .mk head children, parent, slot =>
    { widget := ⟨{ id := slot }, widgetOf style head⟩
      parent := some parent
      children := slotsFrom (slot + 1) children
      generation := 0
      alive := true } :: layAll style children slot (slot + 1)

def layAll (style : Head → σ) : List Node → WidgetId → WidgetId → List (Toolkit.Node (GenWidget σ))
  | [], _, _ => []
  | node :: nodes, parent, slot =>
    lay style node parent slot ++ layAll style nodes parent (slot + node.size)

end

mutual

lemma length_lay (node : Node) (parent slot : WidgetId) :
    (lay style node parent slot).length = node.size := by
  cases node with
  | mk head children => rw [lay, List.length_cons, length_layAll, Node.size]

lemma length_layAll (nodes : List Node) (parent slot : WidgetId) :
    (layAll style nodes parent slot).length = sizes nodes := by
  cases nodes with
  | nil => rfl
  | cons node nodes => rw [layAll, List.length_append, length_lay, length_layAll, sizes]

end

/-! ### Adding a widget -/

/-- A tree in which nothing has been removed. -/
structure Fresh (t : UiTree (GenWidget σ)) (count : Nat) : Prop where
  free : t.free = []
  length : t.nodes.length = count
  alive : ∀ n ∈ t.nodes, n.alive = true

def addIds (ids : List WidgetId) (n : Toolkit.Node (GenWidget σ)) : Toolkit.Node (GenWidget σ) :=
  { n with children := n.children ++ ids }

/-- The tree with more children of a widget and more slots. -/
def grow (t : UiTree (GenWidget σ)) (parent : WidgetId) (ids : List WidgetId)
    (slots : List (Toolkit.Node (GenWidget σ))) : UiTree (GenWidget σ) :=
  { t with nodes := t.nodes.modify parent (addIds ids) ++ slots }

lemma Fresh.grow {t : UiTree (GenWidget σ)} {count parent : Nat} (h : Fresh t count)
    (ids : List WidgetId) {slots : List (Toolkit.Node (GenWidget σ))}
    (hslots : ∀ n ∈ slots, n.alive = true) : Fresh (grow t parent ids slots) (count + slots.length) where
  free := h.free
  length := by simp [Compiler.grow, h.length]
  alive n hn := by
    rcases List.mem_append.mp hn with hn | hn
    · obtain ⟨i, hi⟩ := List.mem_iff_getElem?.mp hn
      rw [List.getElem?_modify] at hi
      obtain ⟨m, hm, rfl⟩ := Option.map_eq_some_iff.mp hi
      have halive := h.alive m (List.mem_of_getElem? hm)
      split_ifs
      · exact halive
      · exact halive
    · exact hslots n hn

lemma modify_append_of_lt {α : Type} {l l' : List α} {i : Nat} (h : i < l.length) (f : α → α) :
    (l ++ l').modify i f = l.modify i f ++ l' := by
  obtain ⟨pre, a, post, rfl, rfl⟩ : ∃ pre a post, l = pre ++ a :: post ∧ pre.length = i :=
    ⟨l.take i, l[i], l.drop (i + 1), by rw [← List.drop_eq_getElem_cons h, List.take_append_drop],
      by simp [h.le]⟩
  rw [List.append_assoc, List.cons_append, Slots.modify_length_append, Slots.modify_length_append,
    List.append_assoc, List.cons_append]

/-- The tree with one more slot, before it is attached. -/
def withSlot (t : UiTree (GenWidget σ)) (parent : WidgetId) (widget : GenWidget σ) :
    UiTree (GenWidget σ) :=
  { t with
    nodes := t.nodes ++
      [⟨⟨{ id := t.nodes.length % 0x10000 }, widget⟩, some parent, [], 0, true⟩] }

lemma addChild_attach {t : UiTree (GenWidget σ)} {count parent : Nat} (h : Fresh t count)
    (hparent : parent < count) (widget : GenWidget σ) :
    t.addChild parent ⟨{}, widget⟩ = (withSlot t parent widget).attach parent
      (count % 0x10000) := by
  have hlt : parent < t.nodes.length := h.length ▸ hparent
  have hisAlive : t.isAlive parent = true :=
    isAlive_iff.mpr ⟨_, List.getElem?_eq_getElem hlt, h.alive _ (List.getElem_mem hlt)⟩
  have hallocate : t.allocate parent ⟨{}, widget⟩ =
      (withSlot t parent widget, count % 0x10000) := by
    rw [allocate, withSlot, h.free, ← h.length]
    rfl
  rw [addChild, hisAlive, if_pos rfl, hallocate]

lemma children_withSlot {t : UiTree (GenWidget σ)} {count parent : Nat} (h : Fresh t count)
    (hparent : parent < count) (widget : GenWidget σ) :
    (withSlot t parent widget).children parent = t.listed parent := by
  have hlt : parent < t.nodes.length := h.length ▸ hparent
  have hget : t.nodes[parent]? = some t.nodes[parent] := List.getElem?_eq_getElem hlt
  have halive : t.nodes[parent].alive = true := h.alive _ (List.getElem_mem hlt)
  rw [UiTree.children, aliveNode, withSlot, List.getElem?_append_left hlt, listed, hget,
    Option.filter_some, if_pos halive]
  rfl

lemma addChild_fresh {t : UiTree (GenWidget σ)} {count parent : Nat} (h : Fresh t count)
    (hparent : parent < count) (hroom : (t.listed parent).length < maxChildren)
    (widget : GenWidget σ) :
    t.addChild parent ⟨{}, widget⟩ =
      (grow t parent [count % 0x10000]
        [⟨⟨{ id := count % 0x10000 }, widget⟩, some parent, [], 0, true⟩],
        some (count % 0x10000)) := by
  have hlt : parent < t.nodes.length := h.length ▸ hparent
  rw [addChild_attach h hparent, attach, children_withSlot h hparent, if_pos hroom, modifyNode]
  simp only [withSlot, modify_append_of_lt hlt, grow, h.length]
  rfl

lemma addChild_full {t : UiTree (GenWidget σ)} {count parent : Nat} (h : Fresh t count)
    (hparent : parent < count) (hfull : ¬ (t.listed parent).length < maxChildren)
    (widget : GenWidget σ) : (t.addChild parent ⟨{}, widget⟩).2 = none := by
  rw [addChild_attach h hparent, attach, children_withSlot h hparent, if_neg hfull]

/-! ### Running the statements -/

/-- Names that mean something else in the generated function. -/
def takenNames : List String := ["root", "tree", "_", "None", "Some", "Ok", "Err"]

mutual

/-- No element has too many children, and its variable stands for it until the last child has been
added. -/
def Node.Fits : Node → WidgetId → Prop
  | .mk head children, slot =>
    children.length ≤ maxChildren ∧ (children ≠ [] → variableOf head slot ≠ "widget") ∧
      variableOf head slot ∉ (bindingsAll children.dropLast (slot + 1)).map Prod.fst ∧
      AllFit children (slot + 1)

def AllFit : List Node → WidgetId → Prop
  | [], _ => True
  | node :: nodes, slot => node.Fits slot ∧ AllFit nodes (slot + node.size)

end

/-- None of the names is taken. -/
def Untaken (bs : List (String × WidgetId)) : Prop := ∀ b ∈ bs, b.1 ∉ takenNames

lemma Untaken.left {bs bs' : List (String × WidgetId)} (h : Untaken (bs ++ bs')) : Untaken bs :=
  fun b hb => h b (List.mem_append_left bs' hb)

lemma Untaken.right {bs bs' : List (String × WidgetId)} (h : Untaken (bs ++ bs')) : Untaken bs' :=
  fun b hb => h b (List.mem_append_right bs hb)

/-- The variables as the statements leave them, the last one first. -/
def bound (bs : List (String × WidgetId)) : Env := (bs.map fun b => (b.1, Value.widgetId b.2)).reverse

lemma bound_append (bs bs' : List (String × WidgetId)) : bound (bs ++ bs') = bound bs' ++ bound bs := by
  simp [bound]

/-- The last statement that binds a name decides what it stands for. -/
lemma lookup_bound (bs : List (String × WidgetId)) (env : Env) (name : String) :
    (bound bs ++ env).lookup name =
      ((bs.reverse.lookup name).map Value.widgetId).or (env.lookup name) := by
  rw [bound, ← List.map_reverse, List.lookup_append]
  congr 1
  induction bs.reverse with
  | nil => rfl
  | cons b bs ih =>
    rw [List.map_cons, List.lookup_cons, List.lookup_cons, ih]
    cases name == b.1 <;> rfl

lemma lookup_eq_none_of_not_mem {bs : List (String × WidgetId)} {name : String}
    (h : name ∉ bs.map Prod.fst) : bs.reverse.lookup name = none := by
  refine List.lookup_eq_none_iff.mpr fun b hb => bne_iff_ne.mpr fun heq => h ?_
  rw [heq]
  exact List.mem_map_of_mem (List.mem_reverse.mp hb)

lemma lookup_bound_of_not_mem {bs : List (String × WidgetId)} {name : String}
    (h : name ∉ bs.map Prod.fst) (env : Env) : (bound bs ++ env).lookup name = env.lookup name := by
  rw [lookup_bound, lookup_eq_none_of_not_mem h]
  rfl

lemma map_bindingsAll_dropLast {node : Node} {nodes : List Node} (h : nodes ≠ []) (slot : WidgetId) :
    (bindingsAll (node :: nodes).dropLast slot).map Prod.fst =
      (bindings node slot).map Prod.fst ++
        (bindingsAll nodes.dropLast (slot + node.size)).map Prod.fst := by
  rw [List.dropLast_cons_of_ne_nil h, bindingsAll, List.map_append]

/-- What the variables of a statement stand for. -/
structure Scope (env : Env) (parent : String) (slot : WidgetId) : Prop where
  ne : parent ≠ "widget"
  treeThere : env.lookup "tree" = some .tree
  slotThere : env.lookup parent = some (.widgetId slot)

lemma exec_fresh {t : UiTree (GenWidget σ)} {count slot : Nat} {env : Env} {s : Stmt σ}
    (h : Fresh t count) (hslot : slot < count) (hcount : count < 0x10000)
    (hroom : (t.listed slot).length < maxChildren) (hscope : Scope env s.parent slot)
    (hvar : s.var ∉ takenNames) :
    s.exec (t, env) =
      some (grow t slot [count] [⟨⟨{ id := count }, s.widget⟩, some slot, [], 0, true⟩],
        (s.var, .widgetId count) :: env) := by
  have htree : (("widget", Value.other) :: env).lookup "tree" = some .tree := hscope.treeThere
  have hparent : (("widget", Value.other) :: env).lookup s.parent = some (.widgetId slot) := by
    rw [List.lookup_cons, beq_false_of_ne hscope.ne]
    exact hscope.slotThere
  have hbind : bindVar s.var (.widgetId count) env = some ((s.var, .widgetId count) :: env) := by
    simp only [takenNames, List.mem_cons, not_or] at hvar
    have hother : constructorNames.contains s.var = false := by
      simp [constructorNames, hvar]
    rw [bindVar, if_neg hvar.2.2.1, hother, if_neg Bool.false_ne_true]
  have hadd := addChild_fresh h hslot hroom s.widget
  rw [Nat.mod_eq_of_lt hcount] at hadd
  simp only [Stmt.exec, htree, hparent, hadd, hbind, Option.map_some]

/-! ### Growing -/

mutual

lemma alive_lay (node : Node) (parent slot : WidgetId) :
    ∀ n ∈ lay style node parent slot, n.alive = true := by
  cases node with
  | mk head children =>
    intro n hn
    rw [lay] at hn
    rcases List.mem_cons.mp hn with rfl | hn
    · rfl
    · exact alive_layAll children slot (slot + 1) n hn

lemma alive_layAll (nodes : List Node) (parent slot : WidgetId) :
    ∀ n ∈ layAll style nodes parent slot, n.alive = true := by
  cases nodes with
  | nil => exact fun n hn => absurd hn List.not_mem_nil
  | cons node nodes =>
    intro n hn
    rw [layAll] at hn
    rcases List.mem_append.mp hn with hn | hn
    · exact alive_lay node parent slot n hn
    · exact alive_layAll nodes parent (slot + node.size) n hn

end

lemma fresh_lay {t : UiTree (GenWidget σ)} {count : Nat} (h : Fresh t count) (node : Node)
    (slot : WidgetId) : Fresh (grow t slot [count] (lay style node slot count)) (count + node.size) := by
  have hgrown : Fresh (grow t slot [count] (lay style node slot count))
      (count + (lay style node slot count).length) := h.grow [count] (alive_lay node slot count)
  rwa [length_lay] at hgrown

lemma grow_grow {t : UiTree (GenWidget σ)} {slot : Nat} (hslot : slot < t.nodes.length)
    (ids ids' : List WidgetId) (slots slots' : List (Toolkit.Node (GenWidget σ))) :
    grow (grow t slot ids slots) slot ids' slots' = grow t slot (ids ++ ids') (slots ++ slots') := by
  have hlt : slot < (t.nodes.modify slot (addIds ids)).length := by rwa [List.length_modify]
  have hids : (addIds ids' ∘ addIds ids : Toolkit.Node (GenWidget σ) → _) = addIds (ids ++ ids') := by
    funext n
    simp [addIds]
  simp only [grow]
  rw [modify_append_of_lt hlt, List.modify_modify_eq, hids, List.append_assoc]

/-- Children of a slot that has just been added. -/
lemma grow_last {t : UiTree (GenWidget σ)} {count slot : Nat} (h : Fresh t count)
    (n : Toolkit.Node (GenWidget σ)) (ids ids' : List WidgetId)
    (slots : List (Toolkit.Node (GenWidget σ))) :
    grow (grow t slot ids [n]) count ids' slots = grow t slot ids (addIds ids' n :: slots) := by
  have hlength : (t.nodes.modify slot (addIds ids)).length = count := by
    rw [List.length_modify, h.length]
  simp only [grow]
  rw [← hlength, Slots.modify_length_append, List.append_assoc, List.cons_append, List.nil_append]

lemma listed_grow {t : UiTree (GenWidget σ)} {slot : Nat} (hslot : slot < t.nodes.length)
    (ids : List WidgetId) (slots : List (Toolkit.Node (GenWidget σ))) :
    (grow t slot ids slots).listed slot = t.listed slot ++ ids := by
  have hlt : slot < (t.nodes.modify slot (addIds ids)).length := by rwa [List.length_modify]
  simp only [listed, grow]
  rw [List.getElem?_append_left hlt, List.getElem?_modify, List.getElem?_eq_getElem hslot]
  simp [addIds]

lemma listed_last {t : UiTree (GenWidget σ)} {count slot : Nat} (h : Fresh t count) (ids : List WidgetId)
    (n : Toolkit.Node (GenWidget σ)) (slots : List (Toolkit.Node (GenWidget σ))) :
    (grow t slot ids (n :: slots)).listed count = n.children := by
  have hlength : (t.nodes.modify slot (addIds ids)).length = count := by
    rw [List.length_modify, h.length]
  simp only [listed, grow]
  rw [← hlength, List.getElem?_append_right le_rfl, Nat.sub_self]
  rfl

lemma length_slotsFrom (slot : WidgetId) (nodes : List Node) :
    (slotsFrom slot nodes).length = nodes.length := by
  induction nodes generalizing slot with
  | nil => rfl
  | cons node nodes ih => rw [slotsFrom, List.length_cons, ih, List.length_cons]

/-- A statement that is bound to a new name leaves the scope of another one. -/
lemma Scope.bound {env : Env} {parent : String} {slot : WidgetId} (h : Scope env parent slot)
    {bs : List (String × WidgetId)} (hnames : Untaken bs) (hparent : parent ∉ bs.map Prod.fst) :
    Scope (Compiler.bound bs ++ env) parent slot where
  ne := h.ne
  treeThere := by
    rw [lookup_bound_of_not_mem _ env, h.treeThere]
    intro hmem
    obtain ⟨b, hb, heq⟩ := List.mem_map.mp hmem
    refine hnames b hb ?_
    rw [heq]
    decide
  slotThere := by rw [lookup_bound_of_not_mem hparent env, h.slotThere]

/-- A new variable is the scope of the children that follow it. -/
lemma Scope.inner {env : Env} {parent var : String} {slot id : WidgetId} (h : Scope env parent slot)
    (hvar : var ∉ takenNames) (hwidget : var ≠ "widget") :
    Scope ((var, Value.widgetId id) :: env) var id where
  ne := hwidget
  treeThere := by
    have hnot : "tree" ≠ var := by
      intro heq
      rw [← heq] at hvar
      exact hvar (show "tree" ∈ takenNames by decide)
    rw [List.lookup_cons, beq_false_of_ne hnot]
    exact h.treeThere
  slotThere := List.lookup_cons_self

/-! ### Runs -/

/-- What the statements of a node are. -/
lemma writeNode_ok {head : Head} {children : List Node} {parent : String} {count : Nat}
    {e : Emitted σ} (h : writeNode style (.mk head children) parent count = .ok e) :
    ∃ rest, writeNodes style children (variableOf head (count + 1)) (count + 1) = .ok rest ∧
      buildWidget style head = .ok (widgetOf style head) ∧ e.nodeCounter = rest.nodeCounter ∧
      e.stmts = ⟨variableOf head (count + 1), widgetOf style head, parent⟩ :: rest.stmts ∧
      e.handles = head.id.toList.map (fun id => (id, variableOf head (count + 1))) ++ rest.handles := by
  rw [writeNode] at h
  obtain ⟨_, -, h⟩ := Except.bind_ok h
  obtain ⟨widget, hwidget, h⟩ := Except.bind_ok h
  obtain ⟨rest, hrest, h⟩ := Except.bind_ok h
  obtain rfl := Except.ok.inj h
  have hbuilt : widgetOf style head = widget := by rw [widgetOf, hwidget]
  rw [hbuilt]
  exact ⟨rest, hrest, hwidget, rfl, rfl, rfl⟩

lemma writeNodes_ok {node : Node} {nodes : List Node} {parent : String} {count : Nat}
    {e : Emitted σ} (h : writeNodes style (node :: nodes) parent count = .ok e) :
    ∃ first rest, writeNode style node parent count = .ok first ∧
      writeNodes style nodes parent first.nodeCounter = .ok rest ∧
      e = ⟨rest.nodeCounter, first.stmts ++ rest.stmts, first.handles ++ rest.handles⟩ := by
  rw [writeNodes] at h
  obtain ⟨first, hfirst, h⟩ := Except.bind_ok h
  obtain ⟨rest, hrest, h⟩ := Except.bind_ok h
  exact ⟨first, rest, hfirst, hrest, (Except.ok.inj h).symm⟩

mutual

lemma nodeCounter_node {node : Node} {parent : String} {count : Nat} {e : Emitted σ}
    (hnode : writeNode style node parent count = .ok e) : e.nodeCounter = count + node.size := by
  cases node with
  | mk head children =>
    obtain ⟨rest, hrest, -, hcounter, -⟩ := writeNode_ok hnode
    have hchildren := nodeCounter_nodes hrest
    rw [hcounter, hchildren, Node.size]
    omega

lemma nodeCounter_nodes {nodes : List Node} {parent : String} {count : Nat} {e : Emitted σ}
    (hnodes : writeNodes style nodes parent count = .ok e) :
    e.nodeCounter = count + sizes nodes := by
  cases nodes with
  | nil =>
    rw [writeNodes] at hnodes
    obtain rfl := Except.ok.inj hnodes
    rfl
  | cons node nodes =>
    obtain ⟨first, rest, hfirst, hrest, rfl⟩ := writeNodes_ok hnodes
    have hcount := nodeCounter_node hfirst
    have hcount' := nodeCounter_nodes hrest
    change rest.nodeCounter = _
    rw [sizes]
    omega

end

mutual

theorem exec_node {node : Node} {parent : String} {count slot : Nat} {e : Emitted σ}
    {t : UiTree (GenWidget σ)} {env : Env} (hnode : writeNode style node parent count = .ok e)
    (h : Fresh t (count + 1)) (hslot : slot < count + 1) (hcount : count + 1 + node.size ≤ 0x10000)
    (hroom : (t.listed slot).length < maxChildren) (hscope : Scope env parent slot)
    (hfits : node.Fits (count + 1)) (hnames : Untaken (bindings node (count + 1))) :
    e.stmts.foldlM (fun state s => s.exec state) (t, env) =
      some (grow t slot [count + 1] (lay style node slot (count + 1)),
        bound (bindings node (count + 1)) ++ env) := by
  cases node with
  | mk head children =>
    obtain ⟨rest, hrest, -, -, hstmts, -⟩ := writeNode_ok hnode
    rw [Node.size] at hcount
    rw [bindings] at hnames
    obtain ⟨hwide, hwidget, hnew, hbelow⟩ := hfits
    have hvar := hnames _ List.mem_cons_self
    have hfirst := exec_fresh (s := ⟨variableOf head (count + 1), widgetOf style head, parent⟩) h hslot
      (by omega) hroom hscope hvar
    have hfresh : Fresh (grow t slot [count + 1]
        [⟨⟨{ id := count + 1 }, widgetOf style head⟩, some slot, [], 0, true⟩]) (count + 1 + 1) :=
      h.grow [count + 1] (by simp)
    have hinside : Untaken (bindingsAll children (count + 1 + 1)) :=
      fun b hb => hnames b (List.mem_cons_of_mem _ hb)
    have hinner : children ≠ [] →
        Scope ((variableOf head (count + 1), Value.widgetId (count + 1)) :: env)
          (variableOf head (count + 1)) (count + 1) :=
      fun hne => hscope.inner hvar (hwidget hne)
    have hwidth : ((grow t slot [count + 1]
        [⟨⟨{ id := count + 1 }, widgetOf style head⟩, some slot, [], 0, true⟩]).listed
          (count + 1)).length + children.length ≤ maxChildren := by
      rw [listed_last h]
      simpa using hwide
    have hrun := exec_nodes hrest hfresh (Nat.lt_succ_self _) (by omega) hwidth hinner hbelow hinside
      hnew
    rw [hstmts, List.foldlM_cons, hfirst]
    refine hrun.trans ?_
    rw [grow_last h, lay, bindings]
    simp [bound, addIds]

theorem exec_nodes {nodes : List Node} {parent : String} {count slot : Nat} {e : Emitted σ}
    {t : UiTree (GenWidget σ)} {env : Env} (hnodes : writeNodes style nodes parent count = .ok e)
    (h : Fresh t (count + 1)) (hslot : slot < count + 1) (hcount : count + 1 + sizes nodes ≤ 0x10000)
    (hroom : (t.listed slot).length + nodes.length ≤ maxChildren)
    (hscope : nodes ≠ [] → Scope env parent slot)
    (hfits : AllFit nodes (count + 1)) (hnames : Untaken (bindingsAll nodes (count + 1)))
    (hparent : parent ∉ (bindingsAll nodes.dropLast (count + 1)).map Prod.fst) :
    e.stmts.foldlM (fun state s => s.exec state) (t, env) =
      some (grow t slot (slotsFrom (count + 1) nodes) (layAll style nodes slot (count + 1)),
        bound (bindingsAll nodes (count + 1)) ++ env) := by
  cases nodes with
  | nil =>
    rw [writeNodes] at hnodes
    obtain rfl := Except.ok.inj hnodes
    have hsame : t.nodes.modify slot (addIds []) = t.nodes := by
      have hid : (addIds [] : Toolkit.Node (GenWidget σ) → _) = id := by
        funext n
        simp [addIds]
      rw [hid, List.modify_id]
    simp [grow, slotsFrom, layAll, bindingsAll, bound, hsame]
  | cons node nodes =>
    obtain ⟨first, rest, hfirst, hrest, rfl⟩ := writeNodes_ok hnodes
    rw [sizes] at hcount
    rw [bindingsAll] at hnames
    have hscope := hscope (List.cons_ne_nil _ _)
    have hlt : slot < t.nodes.length := h.length ▸ hslot
    rw [List.length_cons] at hroom
    have hcount₁ := nodeCounter_node hfirst
    have hrun₁ := exec_node hfirst h hslot (by omega) (by omega) hscope hfits.1 hnames.left
    have hfresh : Fresh (grow t slot [count + 1] (lay style node slot (count + 1)))
        (first.nodeCounter + 1) := by
      rw [hcount₁, Nat.add_right_comm]
      exact fresh_lay h node slot
    have hnext : first.nodeCounter + 1 = count + 1 + node.size := by omega
    have hwidth : ((grow t slot [count + 1] (lay style node slot (count + 1))).listed slot).length +
        nodes.length ≤ maxChildren := by
      rw [listed_grow hlt, List.length_append, List.length_singleton]
      omega
    have hbetween : nodes ≠ [] →
        Scope (bound (bindings node (count + 1)) ++ env) parent slot := by
      intro hne
      rw [map_bindingsAll_dropLast hne, List.mem_append, not_or] at hparent
      exact hscope.bound hnames.left hparent.1
    have hparent' : parent ∉ (bindingsAll nodes.dropLast (count + 1 + node.size)).map Prod.fst := by
      rcases eq_or_ne nodes [] with rfl | hne
      · exact List.not_mem_nil
      · rw [map_bindingsAll_dropLast hne, List.mem_append, not_or] at hparent
        exact hparent.2
    have hrun₂ := exec_nodes hrest hfresh (by omega) (by omega) hwidth hbetween (hnext ▸ hfits.2)
      (hnext ▸ hnames.right) (hnext ▸ hparent')
    rw [List.foldlM_append, hrun₁]
    refine hrun₂.trans ?_
    rw [grow_grow hlt, hnext, slotsFrom, layAll, bindingsAll, bound_append, List.append_assoc]
    rfl

end

/-! ### The tree of the elements -/

/-- The kind of the widget for an element. -/
def ElementKind.widget : ElementKind → WidgetKind
  | .screen | .row | .column => .container
  | .label => .label
  | .button => .button
  | .divider => .divider
  | .spacer => .spacer
  | .textInput => .textInput
  | .listItem => .listItem
  | .progress => .progressBar

mutual

/-- A widget and those below it are those of a node and of the nodes below it, in their order; the
handles name the widgets of the nodes that have an id. -/
inductive Represents (t : UiTree (GenWidget σ)) :
    Node → WidgetId → List (String × WidgetId) → Prop
  | mk {head : Head} {children : List Node} {id : WidgetId} {widget : Widget (GenWidget σ)}
      {handles : List (String × WidgetId)} (hget : t.get id = some widget)
      (hkind : widget.kind.kind = head.kind.widget)
      (hchildren : RepresentsAll t children (t.children id) handles) :
      Represents t (.mk head children) id (head.id.toList.map (fun name => (name, id)) ++ handles)

inductive RepresentsAll (t : UiTree (GenWidget σ)) :
    List Node → List WidgetId → List (String × WidgetId) → Prop
  | nil : RepresentsAll t [] [] []
  | cons {node : Node} {nodes : List Node} {id : WidgetId} {ids : List WidgetId}
      {handles handles' : List (String × WidgetId)} (hnode : Represents t node id handles)
      (hnodes : RepresentsAll t nodes ids handles') :
      RepresentsAll t (node :: nodes) (id :: ids) (handles ++ handles')

end

mutual

/-- The handles of a node and of those below it. -/
def handlesOf : Node → WidgetId → List (String × WidgetId)
  | .mk head children, slot =>
    head.id.toList.map (fun name => (name, slot)) ++ handlesOfAll children (slot + 1)

def handlesOfAll : List Node → WidgetId → List (String × WidgetId)
  | [], _ => []
  | node :: nodes, slot => handlesOf node slot ++ handlesOfAll nodes (slot + node.size)

end

lemma kind_widgetOf {head : Head} (h : buildWidget style head = .ok (widgetOf style head)) :
    (widgetOf style head).kind = head.kind.widget := by
  generalize widgetOf style head = widget at h
  rw [buildWidget] at h
  cases hkind : head.kind with
  | screen =>
    rw [hkind] at h
    cases h
  | row | column | label | divider | spacer | textInput | listItem =>
    rw [hkind] at h
    obtain rfl := Except.ok.inj h
    rfl
  | button =>
    rw [hkind] at h
    obtain ⟨_, -, h⟩ := Except.bind_ok h
    obtain rfl := Except.ok.inj h
    rfl
  | progress =>
    rw [hkind] at h
    cases hvalue : head.attr "value" with
    | none =>
      rw [hvalue] at h
      obtain rfl := Except.ok.inj h
      rfl
    | some value =>
      rw [hvalue] at h
      obtain ⟨_, -, h⟩ := Except.bind_ok h
      obtain rfl := Except.ok.inj h
      rfl

mutual

theorem represents_lay {node : Node} {parent : String} {count slot : Nat} {e : Emitted σ}
    {t : UiTree (GenWidget σ)} {pre post : List (Toolkit.Node (GenWidget σ))}
    (hnode : writeNode style node parent count = .ok e) (hpre : pre.length = count + 1)
    (ht : t.nodes = pre ++ (lay style node slot (count + 1) ++ post)) :
    Represents t node (count + 1) (handlesOf node (count + 1)) := by
  cases node with
  | mk head children =>
    obtain ⟨rest, hrest, hwidget, -⟩ := writeNode_ok hnode
    rw [lay, List.cons_append] at ht
    have hslot : t.aliveNode (count + 1) = some ⟨⟨{ id := count + 1 }, widgetOf style head⟩, some slot,
        slotsFrom (count + 1 + 1) children, 0, true⟩ := by
      rw [aliveNode, ht, ← hpre, List.getElem?_append_right le_rfl, Nat.sub_self, List.getElem?_cons_zero]
      rfl
    have hchildren : t.children (count + 1) = slotsFrom (count + 1 + 1) children := by
      rw [UiTree.children, hslot]
      rfl
    have hget : t.get (count + 1) = some ⟨{ id := count + 1 }, widgetOf style head⟩ := by
      rw [UiTree.get, hslot]
      rfl
    rw [handlesOf]
    refine .mk hget (kind_widgetOf hwidget) ?_
    rw [hchildren]
    have hsplit : t.nodes = (pre ++ [⟨⟨{ id := count + 1 }, widgetOf style head⟩, some slot,
        slotsFrom (count + 1 + 1) children, 0, true⟩]) ++
          (layAll style children (count + 1) (count + 1 + 1) ++ post) := by
      rw [ht, List.append_assoc, List.singleton_append]
    exact representsAll_lay hrest (by simp [hpre]) hsplit

theorem representsAll_lay {nodes : List Node} {parent : String} {count slot : Nat} {e : Emitted σ}
    {t : UiTree (GenWidget σ)} {pre post : List (Toolkit.Node (GenWidget σ))}
    (hnodes : writeNodes style nodes parent count = .ok e) (hpre : pre.length = count + 1)
    (ht : t.nodes = pre ++ (layAll style nodes slot (count + 1) ++ post)) :
    RepresentsAll t nodes (slotsFrom (count + 1) nodes) (handlesOfAll nodes (count + 1)) := by
  cases nodes with
  | nil => exact .nil
  | cons node nodes =>
    obtain ⟨first, rest, hfirst, hrest, rfl⟩ := writeNodes_ok hnodes
    have hnext : first.nodeCounter + 1 = count + 1 + node.size := by
      rw [nodeCounter_node hfirst, Nat.add_right_comm]
    rw [layAll, List.append_assoc] at ht
    rw [slotsFrom, handlesOfAll]
    refine .cons (represents_lay hfirst hpre ht) ?_
    rw [← hnext] at ht ⊢
    rw [← List.append_assoc] at ht
    refine representsAll_lay hrest ?_ ht
    rw [List.length_append, length_lay, hpre, hnext]

end

/-! ### Handles -/

mutual

lemma handlesOf_subset (node : Node) (slot : WidgetId) : handlesOf node slot ⊆ bindings node slot := by
  cases node with
  | mk head children =>
    rw [handlesOf, bindings]
    have hrest := handlesOfAll_subset children (slot + 1)
    cases hid : head.id with
    | none => exact List.subset_cons_of_subset _ hrest
    | some id =>
      have hvar : variableOf head slot = id := by rw [variableOf, hid, Option.getD_some]
      rw [hvar]
      exact List.cons_subset_cons _ hrest

lemma handlesOfAll_subset (nodes : List Node) (slot : WidgetId) :
    handlesOfAll nodes slot ⊆ bindingsAll nodes slot := by
  cases nodes with
  | nil => exact List.Subset.refl _
  | cons node nodes =>
    rw [handlesOfAll, bindingsAll]
    exact List.append_subset.mpr
      ⟨List.subset_append_of_subset_left _ (handlesOf_subset node slot),
        List.subset_append_of_subset_right _ (handlesOfAll_subset nodes (slot + node.size))⟩

end

/-- The variables that are generated are not taken: they are longer. -/
lemma generated_untaken (number : Nat) : s!"_node_{number}" ∉ takenNames := by
  have hlong : ∀ name ∈ takenNames, name.length < 6 := by decide
  intro hmem
  have hlength := hlong _ hmem
  have hgenerated : s!"_node_{number}" = "_node_" ++ toString number := rfl
  rw [hgenerated, String.length_append] at hlength
  have hprefix : "_node_".length = 6 := rfl
  omega

mutual

lemma untaken_bindings {node : Node} {slot : WidgetId} (h : Untaken (handlesOf node slot)) :
    Untaken (bindings node slot) := by
  cases node with
  | mk head children =>
    rw [handlesOf] at h
    rw [bindings]
    intro b hb
    rcases List.mem_cons.mp hb with rfl | hb
    · cases hid : head.id with
      | none =>
        rw [variableOf, hid]
        exact generated_untaken slot
      | some id =>
        rw [variableOf, hid]
        rw [hid] at h
        exact h (id, slot) List.mem_cons_self
    · exact untaken_bindingsAll h.right b hb

lemma untaken_bindingsAll {nodes : List Node} {slot : WidgetId}
    (h : Untaken (handlesOfAll nodes slot)) : Untaken (bindingsAll nodes slot) := by
  cases nodes with
  | nil => exact fun b hb => absurd hb List.not_mem_nil
  | cons node nodes =>
    rw [handlesOfAll] at h
    rw [bindingsAll]
    intro b hb
    rcases List.mem_append.mp hb with hb | hb
    · exact untaken_bindings h.left b hb
    · exact untaken_bindingsAll h.right b hb

end

mutual

lemma handles_node {node : Node} {parent : String} {count : Nat} {e : Emitted σ}
    (hnode : writeNode style node parent count = .ok e) :
    e.handles = (handlesOf node (count + 1)).map fun h => (h.1, h.1) := by
  cases node with
  | mk head children =>
    obtain ⟨rest, hrest, -, -, -, hhandles⟩ := writeNode_ok hnode
    rw [hhandles, handles_nodes hrest, handlesOf, List.map_append]
    congr 1
    cases hid : head.id with
    | none => rfl
    | some id => simp [variableOf, hid]

lemma handles_nodes {nodes : List Node} {parent : String} {count : Nat} {e : Emitted σ}
    (hnodes : writeNodes style nodes parent count = .ok e) :
    e.handles = (handlesOfAll nodes (count + 1)).map fun h => (h.1, h.1) := by
  cases nodes with
  | nil =>
    rw [writeNodes] at hnodes
    obtain rfl := Except.ok.inj hnodes
    rfl
  | cons node nodes =>
    obtain ⟨first, rest, hfirst, hrest, rfl⟩ := writeNodes_ok hnodes
    have hnext : first.nodeCounter + 1 = count + 1 + node.size := by
      rw [nodeCounter_node hfirst, Nat.add_right_comm]
    change first.handles ++ rest.handles = _
    rw [handles_node hfirst, handles_nodes hrest, handlesOfAll, List.map_append, hnext]

end

lemma handle_eq_some {env : Env} {b : String × String} {h : String × WidgetId} :
    Program.handle env b = some h ↔ b.1 = h.1 ∧ env.lookup b.2 = some (.widgetId h.2) := by
  rw [Program.handle]
  constructor
  · intro hhandle
    split at hhandle
    · next id hid =>
      obtain rfl := Option.some.inj hhandle
      exact ⟨rfl, hid⟩
    · cases hhandle
  · rintro ⟨hname, hid⟩
    rw [hid, hname]

lemma mapM_handle {env : Env} {bs : List (String × String)} {hs : List (String × WidgetId)} :
    bs.mapM (Program.handle env) = some hs ↔
      List.Forall₂ (fun b h => b.1 = h.1 ∧ env.lookup b.2 = some (.widgetId h.2)) bs hs := by
  induction bs generalizing hs with
  | nil => simp [eq_comm]
  | cons b bs ih =>
    rw [List.mapM_cons]
    cases hb : Program.handle env b with
    | none =>
      constructor
      · intro h
        cases h
      · intro h
        cases h with
        | cons hhead htail => rw [handle_eq_some.mpr hhead] at hb; cases hb
    | some h' =>
      constructor
      · intro h
        rw [Option.bind_eq_bind, Option.bind_some] at h
        obtain ⟨hs', htail, h⟩ := Option.bind_eq_some_iff.mp h
        obtain rfl := Option.some.inj h
        exact .cons (handle_eq_some.mp hb) (ih.mp htail)
      · intro h
        cases h with
        | cons hhead htail =>
          obtain rfl := Option.some.inj (hb.symm.trans (handle_eq_some.mpr hhead))
          rw [ih.mpr htail]
          rfl

/-! ### Elements -/

mutual

/-- The elements from a node downwards, with their slots and children. -/
def elements : Node → WidgetId → List (Head × WidgetId × List Node)
  | .mk head children, slot => (head, slot, children) :: elementsAll children (slot + 1)

def elementsAll : List Node → WidgetId → List (Head × WidgetId × List Node)
  | [], _ => []
  | node :: nodes, slot => elements node slot ++ elementsAll nodes (slot + node.size)

end

/-- The variable of an element stands for it until its last child has been added. -/
structure Scoped (x : Head × WidgetId × List Node) : Prop where
  widget : x.2.2 ≠ [] → variableOf x.1 x.2.1 ≠ "widget"
  shadow : variableOf x.1 x.2.1 ∉ (bindingsAll x.2.2.dropLast (x.2.1 + 1)).map Prod.fst

mutual

lemma fits_of_elements {node : Node} {slot : WidgetId}
    (h : ∀ x ∈ elements node slot, x.2.2.length ≤ maxChildren ∧ Scoped x) : node.Fits slot := by
  cases node with
  | mk head children =>
    rw [elements] at h
    have hhead := h _ List.mem_cons_self
    exact ⟨hhead.1, hhead.2.widget, hhead.2.shadow, allFit_of_elements fun x hx => h x (List.mem_cons_of_mem _ hx)⟩

lemma allFit_of_elements {nodes : List Node} {slot : WidgetId}
    (h : ∀ x ∈ elementsAll nodes slot, x.2.2.length ≤ maxChildren ∧ Scoped x) : AllFit nodes slot := by
  cases nodes with
  | nil => exact trivial
  | cons node nodes =>
    rw [elementsAll] at h
    exact ⟨fits_of_elements fun x hx => h x (List.mem_append_left _ hx),
      allFit_of_elements fun x hx => h x (List.mem_append_right _ hx)⟩

end

lemma style_widgetOf (head : Head) : (widgetOf style head).style = style head := by
  rw [widgetOf]
  cases hbuild : buildWidget style head with
  | error e => rfl
  | ok widget =>
    rw [buildWidget] at hbuild
    cases hkind : head.kind with
    | screen =>
      rw [hkind] at hbuild
      cases hbuild
    | row | column | label | divider | spacer | textInput | listItem =>
      rw [hkind] at hbuild
      obtain rfl := Except.ok.inj hbuild
      rfl
    | button =>
      rw [hkind] at hbuild
      obtain ⟨_, -, hbuild⟩ := Except.bind_ok hbuild
      obtain rfl := Except.ok.inj hbuild
      rfl
    | progress =>
      rw [hkind] at hbuild
      cases hvalue : head.attr "value" with
      | none =>
        rw [hvalue] at hbuild
        obtain rfl := Except.ok.inj hbuild
        rfl
      | some value =>
        rw [hvalue] at hbuild
        obtain ⟨_, -, hbuild⟩ := Except.bind_ok hbuild
        obtain rfl := Except.ok.inj hbuild
        rfl

mutual

lemma accepted_node {accepted : σ → Bool} {node : Node} {parent : String} {count : Nat}
    {e : Emitted σ} (hnode : writeNode style node parent count = .ok e) :
    e.stmts.all (accepted ·.widget.style) = true ↔
      ∀ x ∈ elements node (count + 1), accepted (style x.1) = true := by
  cases node with
  | mk head children =>
    obtain ⟨rest, hrest, -, -, hstmts, -⟩ := writeNode_ok hnode
    rw [hstmts, List.all_cons, Bool.and_eq_true, style_widgetOf, accepted_nodes hrest, elements,
      List.forall_mem_cons]

lemma accepted_nodes {accepted : σ → Bool} {nodes : List Node} {parent : String} {count : Nat}
    {e : Emitted σ} (hnodes : writeNodes style nodes parent count = .ok e) :
    e.stmts.all (accepted ·.widget.style) = true ↔
      ∀ x ∈ elementsAll nodes (count + 1), accepted (style x.1) = true := by
  cases nodes with
  | nil =>
    rw [writeNodes] at hnodes
    obtain rfl := Except.ok.inj hnodes
    simp [elementsAll]
  | cons node nodes =>
    obtain ⟨first, rest, hfirst, hrest, rfl⟩ := writeNodes_ok hnodes
    have hnext : first.nodeCounter + 1 = count + 1 + node.size := by
      rw [nodeCounter_node hfirst, Nat.add_right_comm]
    change (first.stmts ++ rest.stmts).all _ = true ↔ _
    rw [List.all_append, Bool.and_eq_true, accepted_node hfirst, accepted_nodes hrest, hnext, elementsAll,
      List.forall_mem_append]

end

end ThistleOS.Toolkit.Compiler
