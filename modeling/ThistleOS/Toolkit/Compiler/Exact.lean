import ThistleOS.Toolkit.Compiler.Preserve

/-!
# When the compiler preserves the document

The other direction. In the run of a generated program the first name that is bound to another element
makes an element have more children than it should, since lists of children only grow.
-/

namespace ThistleOS.Toolkit.Compiler

open UiTree

variable {σ : Type} {style : Head → σ}

/-! ### Any statement -/

/-- Lists of children only grow. -/
def Extends (t t' : UiTree (GenWidget σ)) : Prop := ∀ slot, t.listed slot <+: t'.listed slot

lemma Extends.trans {t t' t'' : UiTree (GenWidget σ)} (h : Extends t t') (h' : Extends t' t'') :
    Extends t t'' := fun slot => (h slot).trans (h' slot)

lemma Fresh.isAlive {t : UiTree (GenWidget σ)} {count slot : Nat} (h : Fresh t count)
    (hslot : slot < count) : t.isAlive slot = true := by
  have hlt : slot < t.nodes.length := h.length ▸ hslot
  exact isAlive_iff.mpr ⟨_, List.getElem?_eq_getElem hlt, h.alive _ (List.getElem_mem hlt)⟩

lemma Fresh.children_eq {t : UiTree (GenWidget σ)} {count : Nat} (h : Fresh t count) (slot : WidgetId) :
    t.children slot = t.listed slot := by
  by_cases hslot : slot < count
  · exact children_of_isAlive (h.isAlive hslot)
  · have hnone : t.nodes[slot]? = none := List.getElem?_eq_none (h.length ▸ not_lt.mp hslot)
    rw [UiTree.children, aliveNode, listed, hnone]
    rfl

lemma extends_grow {t : UiTree (GenWidget σ)} (slot : WidgetId) (ids : List WidgetId)
    (slots : List (Toolkit.Node (GenWidget σ))) : Extends t (grow t slot ids slots) := by
  intro other
  by_cases hother : other < t.nodes.length
  · have hlt : other < (t.nodes.modify slot (addIds ids)).length := by rwa [List.length_modify]
    simp only [listed, grow]
    rw [List.getElem?_append_left hlt, List.getElem?_modify, List.getElem?_eq_getElem hother]
    by_cases heq : slot = other
    · simp [heq, addIds]
    · simp [heq]
  · have hnone : t.nodes[other]? = none := List.getElem?_eq_none (not_lt.mp hother)
    rw [listed, hnone]
    exact List.nil_prefix

/-- What a statement does that goes through. -/
lemma exec_some {s : Stmt σ} {t t' : UiTree (GenWidget σ)} {env env' : Env} {count : Nat}
    (h : Fresh t count) (hexec : s.exec (t, env) = some (t', env')) :
    env.lookup "tree" = some .tree ∧ s.parent ≠ "widget" ∧ ∃ slot < count,
      env.lookup s.parent = some (.widgetId slot) ∧
      t' = grow t slot [count % 0x10000]
        [⟨⟨{ id := count % 0x10000 }, s.widget⟩, some slot, [], 0, true⟩] ∧
      bindVar s.var (.widgetId (count % 0x10000)) env = some env' := by
  rw [Stmt.exec] at hexec
  have htree : (("widget", Value.other) :: env).lookup "tree" = env.lookup "tree" := rfl
  by_cases hwidget : s.parent = "widget"
  · have hparent : (("widget", Value.other) :: env).lookup s.parent = some .other := by
      rw [hwidget, List.lookup_cons_self]
    simp only [hparent] at hexec
    split at hexec
    · next hslot => cases hslot
    · cases hexec
  · have hparent : (("widget", Value.other) :: env).lookup s.parent = env.lookup s.parent := by
      rw [List.lookup_cons, beq_false_of_ne hwidget]
    simp only [htree, hparent] at hexec
    split at hexec
    · next slot htree' hslot =>
      refine ⟨htree', hwidget, slot, ?_⟩
      have hlt : slot < count := by
        by_contra hge
        have hnone : t.isAlive slot = false := by
          have hget : t.nodes[slot]? = none := List.getElem?_eq_none (h.length ▸ not_lt.mp hge)
          rw [UiTree.isAlive, aliveNode, hget]
          rfl
        rw [addChild, hnone] at hexec
        cases hexec
      have hroom : (t.listed slot).length < maxChildren := by
        by_contra hfull
        have hnone := addChild_full h hlt hfull s.widget
        generalize t.addChild slot ⟨{}, s.widget⟩ = added at hexec hnone
        obtain ⟨t₁, id⟩ := added
        obtain rfl : id = none := hnone
        cases hexec
      rw [addChild_fresh h hlt hroom] at hexec
      obtain ⟨env₁, hbind, heq⟩ := Option.map_eq_some_iff.mp hexec
      obtain ⟨rfl, rfl⟩ := Prod.mk.inj heq
      exact ⟨hlt, hslot, rfl, hbind⟩
    · cases hexec

lemma Fresh.exec {s : Stmt σ} {t t' : UiTree (GenWidget σ)} {env env' : Env} {count : Nat}
    (h : Fresh t count) (hexec : s.exec (t, env) = some (t', env')) :
    Fresh t' (count + 1) ∧ Extends t t' := by
  obtain ⟨-, -, slot, -, -, rfl, -⟩ := exec_some h hexec
  exact ⟨h.grow _ (by simp), extends_grow slot _ _⟩

lemma Fresh.run {stmts : List (Stmt σ)} {t t' : UiTree (GenWidget σ)} {env env' : Env} {count : Nat}
    (h : Fresh t count)
    (hrun : stmts.foldlM (fun state s => s.exec state) (t, env) = some (t', env')) :
    Fresh t' (count + stmts.length) ∧ Extends t t' := by
  induction stmts generalizing t env count with
  | nil =>
    obtain ⟨rfl, rfl⟩ := Prod.mk.inj (Option.some.inj hrun)
    exact ⟨h, fun slot => List.prefix_rfl⟩
  | cons s stmts ih =>
    rw [List.foldlM_cons] at hrun
    obtain ⟨⟨t₁, env₁⟩, hexec, hrest⟩ := Option.bind_eq_some_iff.mp hrun
    obtain ⟨hfresh, hextends⟩ := h.exec hexec
    obtain ⟨hfresh', hextends'⟩ := ih hfresh hrest
    rw [List.length_cons, Nat.add_comm stmts.length, ← Nat.add_assoc]
    exact ⟨hfresh', hextends.trans hextends'⟩

lemma bindVar_some {var : String} {value : Value} {env env' : Env}
    (h : bindVar var value env = some env') (hvar : var ≠ "_") :
    var ∉ constructorNames ∧ env' = (var, value) :: env := by
  rw [bindVar, if_neg hvar] at h
  split_ifs at h with hother
  exact ⟨by simpa using hother, (Option.some.inj h).symm⟩

/-- Statements that go through leave the tree its name, and none binds the name of a constructor. -/
lemma run_names {stmts : List (Stmt σ)} {t t' : UiTree (GenWidget σ)} {env env' : Env} {count : Nat}
    (h : Fresh t count)
    (hrun : stmts.foldlM (fun state s => s.exec state) (t, env) = some (t', env'))
    (htree : env'.lookup "tree" = some .tree) :
    ∀ s ∈ stmts, s.var ≠ "tree" ∧ s.var ∉ constructorNames := by
  induction stmts generalizing t env count with
  | nil => exact fun s hs => absurd hs List.not_mem_nil
  | cons s stmts ih =>
    rw [List.foldlM_cons] at hrun
    obtain ⟨⟨t₁, env₁⟩, hexec, hrest⟩ := Option.bind_eq_some_iff.mp hrun
    obtain ⟨hfresh, -⟩ := h.exec hexec
    have hrest' := ih hfresh hrest
    have htree₁ : env₁.lookup "tree" = some .tree := by
      cases stmts with
      | nil =>
        obtain ⟨-, rfl⟩ := Prod.mk.inj (Option.some.inj hrest)
        exact htree
      | cons s' stmts =>
        rw [List.foldlM_cons] at hrest
        obtain ⟨_, hexec', -⟩ := Option.bind_eq_some_iff.mp hrest
        exact (exec_some hfresh hexec').1
    obtain ⟨-, -, slot, -, -, -, hbind⟩ := exec_some h hexec
    refine List.forall_mem_cons.mpr ⟨?_, hrest'⟩
    by_cases hvar : s.var = "_"
    · rw [hvar]
      decide
    · obtain ⟨hother, rfl⟩ := bindVar_some hbind hvar
      refine ⟨fun heq => ?_, hother⟩
      rw [heq, List.lookup_cons_self] at htree₁
      cases htree₁

/-! ### What a program says -/

mutual

lemma vars_node {node : Node} {parent : String} {count : Nat} {e : Emitted σ}
    (hnode : writeNode style node parent count = .ok e) :
    e.stmts.map (·.var) = (bindings node (count + 1)).map Prod.fst := by
  cases node with
  | mk head children =>
    obtain ⟨rest, hrest, -, -, hstmts, -⟩ := writeNode_ok hnode
    rw [hstmts, List.map_cons, vars_nodes hrest, bindings, List.map_cons]

lemma vars_nodes {nodes : List Node} {parent : String} {count : Nat} {e : Emitted σ}
    (hnodes : writeNodes style nodes parent count = .ok e) :
    e.stmts.map (·.var) = (bindingsAll nodes (count + 1)).map Prod.fst := by
  cases nodes with
  | nil =>
    rw [writeNodes] at hnodes
    obtain rfl := Except.ok.inj hnodes
    rfl
  | cons node nodes =>
    obtain ⟨first, rest, hfirst, hrest, rfl⟩ := writeNodes_ok hnodes
    have hnext : first.nodeCounter + 1 = count + 1 + node.size := by
      rw [nodeCounter_node hfirst, Nat.add_right_comm]
    change (first.stmts ++ rest.stmts).map _ = _
    rw [List.map_append, vars_node hfirst, vars_nodes hrest, hnext, bindingsAll, List.map_append]

end

mutual

lemma bindings_eq (node : Node) (slot : WidgetId) :
    bindings node slot = (elements node slot).map fun x => (variableOf x.1 x.2.1, x.2.1) := by
  cases node with
  | mk head children => rw [bindings, elements, List.map_cons, bindingsAll_eq]

lemma bindingsAll_eq (nodes : List Node) (slot : WidgetId) :
    bindingsAll nodes slot =
      (elementsAll nodes slot).map fun x => (variableOf x.1 x.2.1, x.2.1) := by
  cases nodes with
  | nil => rfl
  | cons node nodes => rw [bindingsAll, elementsAll, List.map_append, bindings_eq, bindingsAll_eq]

end

/-- The first statement of some nodes adds a child to what their parent stands for. -/
lemma first_added {nodes : List Node} {parent : String} {count total : Nat} {e : Emitted σ}
    {t t' : UiTree (GenWidget σ)} {env env' : Env}
    (hnodes : writeNodes style nodes parent count = .ok e) (hne : nodes ≠ []) (h : Fresh t total)
    (hrun : e.stmts.foldlM (fun state s => s.exec state) (t, env) = some (t', env')) :
    parent ≠ "widget" ∧ ∃ slot, env.lookup parent = some (.widgetId slot) ∧
      t.listed slot ++ [total % 0x10000] <+: t'.listed slot := by
  cases nodes with
  | nil => exact absurd rfl hne
  | cons node nodes =>
    obtain ⟨first, rest, hfirst, -, rfl⟩ := writeNodes_ok hnodes
    cases node with
    | mk head children =>
      obtain ⟨below, -, -, -, hstmts, -⟩ := writeNode_ok hfirst
      change (first.stmts ++ rest.stmts).foldlM _ _ = _ at hrun
      rw [hstmts, List.cons_append, List.foldlM_cons] at hrun
      obtain ⟨⟨t₁, env₁⟩, hexec, hrest⟩ := Option.bind_eq_some_iff.mp hrun
      obtain ⟨hfresh, -⟩ := h.exec hexec
      obtain ⟨-, hwidget, slot, hslot, hfound, rfl, -⟩ := exec_some h hexec
      refine ⟨hwidget, slot, hfound, ?_⟩
      rw [← listed_grow (h.length ▸ hslot)]
      exact (hfresh.run hrest).2 slot

/-! ### What a tree represents -/

lemma RepresentsAll.length_eq {t : UiTree (GenWidget σ)} {nodes : List Node} {ids : List WidgetId}
    {handles : List (String × WidgetId)} (h : RepresentsAll t nodes ids handles) :
    ids.length = nodes.length := by
  induction nodes generalizing ids handles with
  | nil =>
    cases h
    rfl
  | cons node nodes ih =>
    cases h with
    | cons hnode hnodes => rw [List.length_cons, ih hnodes, List.length_cons]

mutual

lemma Represents.size_eq {t : UiTree (GenWidget σ)} {node node' : Node} {id : WidgetId}
    {handles handles' : List (String × WidgetId)} (h : Represents t node id handles)
    (h' : Represents t node' id handles') : node.size = node'.size := by
  cases node with
  | mk head children =>
    cases h with
    | mk _ _ hchildren =>
      cases h' with
      | mk _ _ hchildren' => rw [Node.size, Node.size, RepresentsAll.sizes_eq hchildren hchildren']

lemma RepresentsAll.sizes_eq {t : UiTree (GenWidget σ)} {nodes nodes' : List Node}
    {ids : List WidgetId} {handles handles' : List (String × WidgetId)}
    (h : RepresentsAll t nodes ids handles) (h' : RepresentsAll t nodes' ids handles') :
    sizes nodes = sizes nodes' := by
  cases nodes with
  | nil =>
    cases h
    cases h'
    rfl
  | cons node nodes =>
    cases h with
    | cons hnode hnodes =>
      cases h' with
      | cons hnode' hnodes' =>
        rw [sizes, sizes, Represents.size_eq hnode hnode', RepresentsAll.sizes_eq hnodes hnodes']

end

mutual

/-- A tree names the widgets of a document in one way. -/
lemma Represents.handles_eq {t : UiTree (GenWidget σ)} {node : Node} {id : WidgetId}
    {handles handles' : List (String × WidgetId)} (h : Represents t node id handles)
    (h' : Represents t node id handles') : handles = handles' := by
  cases node with
  | mk head children =>
    cases h with
    | mk _ _ hchildren =>
      cases h' with
      | mk _ _ hchildren' => rw [RepresentsAll.handles_eq hchildren hchildren']

lemma RepresentsAll.handles_eq {t : UiTree (GenWidget σ)} {nodes : List Node} {ids : List WidgetId}
    {handles handles' : List (String × WidgetId)} (h : RepresentsAll t nodes ids handles)
    (h' : RepresentsAll t nodes ids handles') : handles = handles' := by
  cases nodes with
  | nil =>
    cases h
    cases h'
    rfl
  | cons node nodes =>
    cases h with
    | cons hnode hnodes =>
      cases h' with
      | cons hnode' hnodes' =>
        rw [Represents.handles_eq hnode hnode', RepresentsAll.handles_eq hnodes hnodes']

end

mutual

lemma Represents.names_eq {t : UiTree (GenWidget σ)} {node : Node} {id slot : WidgetId}
    {handles : List (String × WidgetId)} (h : Represents t node id handles) :
    handles.map Prod.fst = (handlesOf node slot).map Prod.fst := by
  cases node with
  | mk head children =>
    cases h with
    | mk _ _ hchildren =>
      rw [handlesOf, List.map_append, List.map_append, List.map_map, List.map_map,
        RepresentsAll.names_eq hchildren]
      rfl

lemma RepresentsAll.names_eq {t : UiTree (GenWidget σ)} {nodes : List Node} {ids : List WidgetId}
    {slot : WidgetId} {handles : List (String × WidgetId)} (h : RepresentsAll t nodes ids handles) :
    handles.map Prod.fst = (handlesOfAll nodes slot).map Prod.fst := by
  cases nodes with
  | nil =>
    cases h
    rfl
  | cons node nodes =>
    cases h with
    | cons hnode hnodes =>
      rw [handlesOfAll, List.map_append, List.map_append, Represents.names_eq hnode,
        RepresentsAll.names_eq hnodes]

end

mutual

/-- When the children of each element are there, no other one is. -/
lemma Represents.length_children {t : UiTree (GenWidget σ)} {node : Node} {slot : WidgetId}
    {handles : List (String × WidgetId)} (h : Represents t node slot handles)
    (hthere : ∀ x ∈ elements node slot, slotsFrom (x.2.1 + 1) x.2.2 <+: t.children x.2.1) :
    ∀ x ∈ elements node slot, (t.children x.2.1).length = x.2.2.length := by
  cases node with
  | mk head children =>
    cases h with
    | mk _ _ hchildren =>
      rw [elements, List.forall_mem_cons] at hthere ⊢
      have hlength := hchildren.length_eq
      have hsame : slotsFrom (slot + 1) children = t.children slot :=
        hthere.1.eq_of_length (by rw [length_slotsFrom]; exact hlength.symm)
      rw [← hsame] at hchildren
      exact ⟨hlength, RepresentsAll.length_children hchildren hthere.2⟩

lemma RepresentsAll.length_children {t : UiTree (GenWidget σ)} {nodes : List Node} {slot : WidgetId}
    {handles : List (String × WidgetId)} (h : RepresentsAll t nodes (slotsFrom slot nodes) handles)
    (hthere : ∀ x ∈ elementsAll nodes slot, slotsFrom (x.2.1 + 1) x.2.2 <+: t.children x.2.1) :
    ∀ x ∈ elementsAll nodes slot, (t.children x.2.1).length = x.2.2.length := by
  cases nodes with
  | nil => exact fun x hx => absurd hx List.not_mem_nil
  | cons node nodes =>
    rw [slotsFrom] at h
    cases h with
    | cons hnode hnodes =>
      rw [elementsAll, List.forall_mem_append] at hthere ⊢
      exact ⟨Represents.length_children hnode hthere.1,
        RepresentsAll.length_children hnodes hthere.2⟩

end

mutual

lemma listed_lay {t : UiTree (GenWidget σ)} {node : Node} {parent slot : WidgetId}
    {pre post : List (Toolkit.Node (GenWidget σ))} (hpre : pre.length = slot)
    (ht : t.nodes = pre ++ (lay style node parent slot ++ post)) :
    ∀ x ∈ elements node slot, t.listed x.2.1 = slotsFrom (x.2.1 + 1) x.2.2 := by
  cases node with
  | mk head children =>
    rw [lay, List.cons_append] at ht
    rw [elements, List.forall_mem_cons]
    constructor
    · rw [listed, ht, ← hpre, List.getElem?_append_right le_rfl, Nat.sub_self]
      rfl
    · rw [← List.singleton_append, ← List.append_assoc] at ht
      exact listed_layAll (by simp [hpre]) ht

lemma listed_layAll {t : UiTree (GenWidget σ)} {nodes : List Node} {parent slot : WidgetId}
    {pre post : List (Toolkit.Node (GenWidget σ))} (hpre : pre.length = slot)
    (ht : t.nodes = pre ++ (layAll style nodes parent slot ++ post)) :
    ∀ x ∈ elementsAll nodes slot, t.listed x.2.1 = slotsFrom (x.2.1 + 1) x.2.2 := by
  cases nodes with
  | nil => exact fun x hx => absurd hx List.not_mem_nil
  | cons node nodes =>
    rw [layAll, List.append_assoc] at ht
    rw [elementsAll, List.forall_mem_append]
    refine ⟨listed_lay hpre ht, ?_⟩
    rw [← List.append_assoc] at ht
    exact listed_layAll (by rw [List.length_append, length_lay, hpre]) ht

end

/-! ### The first name that is bound to another element -/

/-- The tree that a run ends with. -/
structure Final (t : UiTree (GenWidget σ)) (total : Nat) : Prop where
  children : ∀ slot, t.children slot = t.listed slot
  root : ∀ node handles, Represents t node 0 handles → node.size = total

lemma mem_of_lookup {bs : List (String × WidgetId)} {name : String} (h : name ∈ bs.map Prod.fst) :
    ∃ slot, bs.reverse.lookup name = some slot ∧ (name, slot) ∈ bs := by
  cases hlookup : bs.reverse.lookup name with
  | none =>
    obtain ⟨b, hb, rfl⟩ := List.mem_map.mp h
    have hne := List.lookup_eq_none_iff.mp hlookup b (List.mem_reverse.mpr hb)
    exact absurd rfl (bne_iff_ne.mp hne)
  | some slot =>
    obtain ⟨l, l', heq, -⟩ := List.lookup_eq_some_iff.mp hlookup
    refine ⟨slot, rfl, List.mem_reverse.mp ?_⟩
    rw [heq]
    exact List.mem_append_right l List.mem_cons_self

/-- After an element that the final tree represents, its variables hide no name that is still used. -/
lemma not_hidden {node : Node} {nodes : List Node} {parent : String} {count count' slot : Nat}
    {e : Emitted σ} {t t' final : UiTree (GenWidget σ)} {env env' : Env}
    {handles : List (String × WidgetId)} (h : Fresh t count)
    (hnodes : writeNodes style nodes parent count' = .ok e) (hne : nodes ≠ [])
    (hrun : e.stmts.foldlM (fun state s => s.exec state)
      (grow t slot [count] (lay style node slot count), bound (bindings node count) ++ env) =
        some (t', env'))
    (hlater : Extends t' final) (hchildren : ∀ slot, final.children slot = final.listed slot)
    (hrep : Represents final node count handles) :
    parent ∉ (bindings node count).map Prod.fst := by
  intro hmem
  obtain ⟨bad, hlookup, hbad⟩ := mem_of_lookup hmem
  have hfresh : Fresh (grow t slot [count] (lay style node slot count)) (count + node.size) :=
    fresh_lay h node slot
  have hlisted : ∀ x ∈ elements node count,
      (grow t slot [count] (lay style node slot count)).listed x.2.1 =
        slotsFrom (x.2.1 + 1) x.2.2 := by
    have hpre : (t.nodes.modify slot (addIds [count])).length = count := by
      rw [List.length_modify, h.length]
    have hslots : (grow t slot [count] (lay style node slot count)).nodes =
        t.nodes.modify slot (addIds [count]) ++ (lay style node slot count ++ []) := by
      rw [List.append_nil]
      rfl
    exact listed_lay hpre hslots
  have hgrows := (hfresh.run hrun).2.trans hlater
  have hthere : ∀ x ∈ elements node count,
      slotsFrom (x.2.1 + 1) x.2.2 <+: final.children x.2.1 := by
    intro x hx
    rw [hchildren, ← hlisted x hx]
    exact hgrows x.2.1
  rw [bindings_eq] at hbad
  obtain ⟨x, hx, heq⟩ := List.mem_map.mp hbad
  obtain rfl : x.2.1 = bad := (Prod.mk.inj heq).2
  have hlength := hrep.length_children hthere x hx
  obtain ⟨-, slot', hfound, hadded⟩ := first_added hnodes hne hfresh hrun
  rw [lookup_bound, hlookup] at hfound
  obtain rfl : x.2.1 = slot' := by
    have hid := Option.some.inj hfound
    exact Value.widgetId.inj hid
  rw [hlisted x hx] at hadded
  have hle := (hadded.trans (hlater x.2.1)).length_le
  rw [← hchildren, hlength, List.length_append, length_slotsFrom, List.length_singleton] at hle
  omega

mutual

theorem scopes_node {node : Node} {parent : String} {count slot total : Nat} {e : Emitted σ}
    {t t' final : UiTree (GenWidget σ)} {env env' : Env} {handles : List (String × WidgetId)}
    (hnode : writeNode style node parent count = .ok e) (h : Fresh t (count + 1))
    (hslot : slot < count + 1) (hcount : count + 1 < 0x10000)
    (hroom : (t.listed slot).length < maxChildren) (hscope : Scope env parent slot)
    (hnarrow : ∀ x ∈ elements node (count + 1), x.2.2.length ≤ maxChildren)
    (hnames : Untaken (bindings node (count + 1)))
    (hrun : e.stmts.foldlM (fun state s => s.exec state) (t, env) = some (t', env'))
    (hfinal : Final final total) (hlater : Extends t' final)
    (hrep : Represents final node (count + 1) handles) (hsmall : node.size < total) :
    count + 1 + node.size ≤ 0x10000 ∧ ∀ x ∈ elements node (count + 1), Scoped x := by
  cases node with
  | mk head children =>
    obtain ⟨rest, hrest, -, -, hstmts, -⟩ := writeNode_ok hnode
    rw [Node.size] at hsmall ⊢
    rw [bindings] at hnames
    rw [elements, List.forall_mem_cons] at hnarrow ⊢
    have hvar := hnames _ List.mem_cons_self
    have hfirst := exec_fresh (s := ⟨variableOf head (count + 1), widgetOf style head, parent⟩) h hslot
      hcount hroom hscope hvar
    rw [hstmts, List.foldlM_cons, hfirst] at hrun
    have hfresh : Fresh (grow t slot [count + 1]
        [⟨⟨{ id := count + 1 }, widgetOf style head⟩, some slot, [], 0, true⟩]) (count + 1 + 1) :=
      h.grow [count + 1] (by simp)
    have hempty : (grow t slot [count + 1]
        [⟨⟨{ id := count + 1 }, widgetOf style head⟩, some slot, [], 0, true⟩]).listed (count + 1) =
          [] := listed_last h _ _ _
    have hwidget : children ≠ [] → variableOf head (count + 1) ≠ "widget" :=
      fun hne => (first_added hrest hne hfresh hrun).1
    have hinner : children ≠ [] →
        Scope ((variableOf head (count + 1), Value.widgetId (count + 1)) :: env)
          (variableOf head (count + 1)) (count + 1) :=
      fun hne => hscope.inner hvar (hwidget hne)
    cases hrep with
    | mk _ _ hchildren =>
      obtain ⟨hsum, hbelow, hnew⟩ := scopes_nodes hrest hfresh (Nat.lt_succ_self _) hcount
        (by rw [hempty]; simpa using hnarrow.1) hinner hnarrow.2
        (fun b hb => hnames b (List.mem_cons_of_mem _ hb)) hrun hfinal hlater
        (by rw [hempty, hfinal.children, List.nil_append]) hchildren (by omega)
      exact ⟨by omega, ⟨hwidget, hnew⟩, hbelow⟩

theorem scopes_nodes {nodes : List Node} {parent : String} {count slot total : Nat} {e : Emitted σ}
    {t t' final : UiTree (GenWidget σ)} {env env' : Env} {ids : List WidgetId}
    {handles : List (String × WidgetId)}
    (hnodes : writeNodes style nodes parent count = .ok e) (h : Fresh t (count + 1))
    (hslot : slot < count + 1) (hcount : count + 1 ≤ 0x10000)
    (hroom : (t.listed slot).length + nodes.length ≤ maxChildren)
    (hscope : nodes ≠ [] → Scope env parent slot)
    (hnarrow : ∀ x ∈ elementsAll nodes (count + 1), x.2.2.length ≤ maxChildren)
    (hnames : Untaken (bindingsAll nodes (count + 1)))
    (hrun : e.stmts.foldlM (fun state s => s.exec state) (t, env) = some (t', env'))
    (hfinal : Final final total) (hlater : Extends t' final)
    (hlisted : final.listed slot = t.listed slot ++ ids)
    (hrep : RepresentsAll final nodes ids handles) (hsmall : sizes nodes < total) :
    count + 1 + sizes nodes ≤ 0x10000 ∧ (∀ x ∈ elementsAll nodes (count + 1), Scoped x) ∧
      parent ∉ (bindingsAll nodes.dropLast (count + 1)).map Prod.fst := by
  cases nodes with
  | nil => exact ⟨hcount, fun x hx => absurd hx List.not_mem_nil, List.not_mem_nil⟩
  | cons node nodes =>
    have hscope := hscope (List.cons_ne_nil _ _)
    obtain ⟨-, slot', hfound, hadded⟩ := first_added hnodes (List.cons_ne_nil _ _) h hrun
    obtain rfl : slot = slot' :=
      Value.widgetId.inj (Option.some.inj (hscope.slotThere.symm.trans hfound))
    obtain ⟨first, rest, hfirst, hrest, rfl⟩ := writeNodes_ok hnodes
    change (first.stmts ++ rest.stmts).foldlM _ _ = _ at hrun
    rw [List.foldlM_append] at hrun
    obtain ⟨⟨t₁, env₁⟩, hrun₁, hrun₂⟩ := Option.bind_eq_some_iff.mp hrun
    rw [sizes] at hsmall ⊢
    rw [bindingsAll] at hnames
    rw [elementsAll, List.forall_mem_append] at hnarrow ⊢
    rw [List.length_cons] at hroom
    cases hrep with
    | @cons _ _ id ids' handles₁ handles₂ hnode hnodes' =>
      have hid : (count + 1) % 0x10000 = id := by
        have hprefix := hadded.trans (hlater slot)
        rw [hlisted, List.prefix_append_right_inj] at hprefix
        exact (List.cons_prefix_cons.mp hprefix).1
      -- the first id that is too large is that of the root again
      have hlt : count + 1 < 0x10000 := by
        by_contra hge
        have hzero : (count + 1) % 0x10000 = 0 := by
          rw [le_antisymm hcount (not_lt.mp hge)]
        rw [← hid, hzero] at hnode
        have hsize := hfinal.root _ _ hnode
        omega
      rw [Nat.mod_eq_of_lt hlt] at hid
      subst hid
      have hfresh₁ := h.run hrun₁
      have hlater₁ : Extends t₁ final := (hfresh₁.1.run hrun₂).2.trans hlater
      obtain ⟨hcount₁, hscopes₁⟩ := scopes_node hfirst h hslot hlt (by omega) hscope hnarrow.1
        hnames.left hrun₁ hfinal hlater₁ hnode (by omega)
      have hforward := exec_node hfirst h hslot hcount₁ (by omega) hscope
        (fits_of_elements fun x hx => ⟨hnarrow.1 x hx, hscopes₁ x hx⟩) hnames.left
      obtain ⟨rfl, rfl⟩ := Prod.mk.inj (Option.some.inj (hrun₁.symm.trans hforward))
      have hnext : first.nodeCounter + 1 = count + 1 + node.size := by
        rw [nodeCounter_node hfirst, Nat.add_right_comm]
      have hfresh : Fresh (grow t slot [count + 1] (lay style node slot (count + 1)))
          (first.nodeCounter + 1) := hnext ▸ fresh_lay h node slot
      have hlt' : slot < t.nodes.length := h.length ▸ hslot
      have hhidden : nodes ≠ [] → parent ∉ (bindings node (count + 1)).map Prod.fst :=
        fun hne => not_hidden h hrest hne hrun₂ hlater hfinal.children hnode
      have hwidth : ((grow t slot [count + 1] (lay style node slot (count + 1))).listed slot).length +
          nodes.length ≤ maxChildren := by
        rw [listed_grow hlt', List.length_append, List.length_singleton]
        omega
      have hlisted' : final.listed slot =
          (grow t slot [count + 1] (lay style node slot (count + 1))).listed slot ++ ids' := by
        rw [hlisted, listed_grow hlt', List.append_assoc, List.singleton_append]
      obtain ⟨hsum, hscopes₂, hparent⟩ := scopes_nodes hrest hfresh (by omega) (by omega) hwidth
        (fun hne => hscope.bound hnames.left (hhidden hne)) (hnext ▸ hnarrow.2)
        (hnext ▸ hnames.right) hrun₂ hfinal hlater hlisted' hnodes' (by omega)
      rw [hnext] at hsum hscopes₂ hparent
      refine ⟨by omega, ⟨hscopes₁, hscopes₂⟩, ?_⟩
      rcases eq_or_ne nodes [] with rfl | hne
      · exact List.not_mem_nil
      · rw [map_bindingsAll_dropLast hne, List.mem_append, not_or]
        exact ⟨hhidden hne, hparent⟩

end

/-! ### Programs that return the tree -/

lemma Program.run_some {accepted : σ → Bool} {p : Program σ} {t : UiTree (GenWidget σ)}
    {handles : List (String × WidgetId)} (h : p.run accepted = some (t, handles)) :
    p.Declares ∧ accepted p.root.style = true ∧ p.stmts.all (accepted ·.widget.style) = true ∧
      ∃ env, p.stmts.foldlM (fun state s => s.exec state) p.start = some (t, env) ∧
        env.lookup "tree" = some .tree ∧ p.handles.mapM (Program.handle env) = some handles := by
  rw [Program.run] at h
  split_ifs at h with hchecks
  obtain ⟨hdeclares, hroot, hstyles⟩ := hchecks
  obtain ⟨⟨t', env⟩, hrun, h⟩ := Option.bind_eq_some_iff.mp h
  dsimp only at h
  split at h
  · next htree =>
    obtain ⟨handles', hhandles, heq⟩ := Option.map_eq_some_iff.mp h
    obtain ⟨rfl, rfl⟩ := Prod.mk.inj heq
    exact ⟨hdeclares, hroot, hstyles, env, hrun, htree, hhandles⟩
  · cases h

/-- A program that returns the tree of a document is that of a clean one. -/
lemma clean_of_run {accepted : σ → Bool} {options : CompileOptions} {root : Node} {program : Program σ}
    {t : UiTree (GenWidget σ)} {handles : List (String × WidgetId)}
    (hkind : root.head.kind = .screen) (hgenerate : generate options style root = .ok program)
    (hnarrow : Narrow root) (hreturns : program.run accepted = some (t, ("root", 0) :: handles))
    (hrep : Represents t root 0 handles) : Clean accepted style options root := by
  obtain ⟨body, hbody, hprogram⟩ := Except.bind_ok hgenerate
  obtain rfl := Except.ok.inj hprogram
  obtain ⟨hdeclares, hroot, hstyles, env, hrun, htree, hhandles⟩ := Program.run_some hreturns
  cases root with
  | mk head children =>
    have hbody : writeNodes style children "root" 0 = .ok body := hbody
    obtain ⟨hstruct, hnodup, hunderscore⟩ := hdeclares
    rw [fields_eq hbody] at hnodup hunderscore
    obtain ⟨hnotRoot, hids⟩ := List.nodup_cons.mp hnodup
    have hnew : Fresh (UiTree.new (⟨{}, ⟨.container, "", 0, style head⟩⟩ : Widget (GenWidget σ))) 1 :=
      fresh_new _
    have hnames := run_names hnew hrun htree
    have huntaken : Untaken (handlesOfAll children 1) := by
      intro h hh htaken
      have hname : h.1 ∈ body.stmts.map (·.var) := by
        rw [vars_nodes hbody]
        exact List.mem_map_of_mem (handlesOfAll_subset children 1 hh)
      obtain ⟨s, hs, hvar⟩ := List.mem_map.mp hname
      obtain ⟨hnotTree, hother⟩ := hnames s hs
      rw [hvar] at hnotTree hother
      have hfield := List.mem_map_of_mem (f := Prod.fst) hh
      have hneRoot : h.1 ≠ "root" := fun heq => hnotRoot (heq ▸ hfield)
      have hneUnderscore : h.1 ≠ "_" := fun heq => hunderscore (heq ▸ List.mem_cons_of_mem _ hfield)
      simp only [takenNames, constructorNames, List.mem_cons, List.not_mem_nil, or_false] at htaken hother
      tauto
    have hbound := untaken_bindingsAll huntaken
    have hfinal : Final t (sizes children + 1) :=
      ⟨(hnew.run hrun).1.children_eq, fun node handles' hnode => hnode.size_eq hrep⟩
    obtain ⟨-, hnamed⟩ := List.forall₂_cons.mp (mapM_handle.mp hhandles)
    rw [handles_nodes hbody, List.forall₂_map_left_iff] at hnamed
    have hhead : head.id = none := by
      have hfields : handles.map Prod.fst = (handlesOf (.mk head children) 0).map Prod.fst :=
        hrep.names_eq
      have hlength := congrArg List.length hfields
      rw [handlesOf, List.length_map, List.length_map, ← hnamed.length_eq, List.length_append,
        List.length_map] at hlength
      cases hid : head.id with
      | none => rfl
      | some id =>
        rw [hid, Option.toList_some, List.length_singleton] at hlength
        omega
    have hwide : children.length ≤ maxChildren := hnarrow _ List.mem_cons_self
    have hbelow : ∀ x ∈ elementsAll children 1, x.2.2.length ≤ maxChildren :=
      fun x hx => hnarrow x (List.mem_cons_of_mem _ hx)
    have hscope : Scope startEnv "root" 0 := ⟨by decide, rfl, rfl⟩
    have hscopes : 1 + sizes children ≤ 0x10000 ∧ (∀ x ∈ elementsAll children 1, Scoped x) ∧
        "root" ∉ (bindingsAll children.dropLast 1).map Prod.fst := by
      cases hrep with
      | mk _ _ hchildren =>
        exact scopes_nodes hbody hnew Nat.zero_lt_one (by decide)
          (by simpa [listed, UiTree.new] using hwide) (fun _ => hscope) hbelow hbound hrun hfinal
          (fun slot => List.prefix_rfl) (hfinal.children 0).symm hchildren (Nat.lt_succ_self _)
    obtain ⟨hcount, hscopes, hparent⟩ := hscopes
    have hforward := exec_nodes hbody hnew Nat.zero_lt_one hcount
      (by simpa [listed, UiTree.new] using hwide) (fun _ => hscope)
      (allFit_of_elements fun x hx => ⟨hbelow x hx, hscopes x hx⟩) hbound hparent
    obtain ⟨rfl, rfl⟩ := Prod.mk.inj (Option.some.inj (hrun.symm.trans hforward))
    obtain rfl := hrep.handles_eq (represents_built hbody hkind hhead)
    exact {
      id := hhead
      count := by rw [Node.size, Nat.add_comm]; exact hcount
      ids := hids
      untaken := huntaken
      scopes := hscopes
      last := by
        intro h hh
        obtain ⟨-, hfound⟩ := List.forall₂_same.mp hnamed h hh
        obtain ⟨slot, hlookup, -⟩ := mem_of_lookup (List.mem_map_of_mem (f := Prod.fst)
          (handlesOfAll_subset children 1 hh))
        rw [lookup_bound, hlookup] at hfound
        rw [Node.children, hlookup, Value.widgetId.inj (Option.some.inj hfound)]
      structName := hstruct
      styles := List.forall_mem_cons.mpr ⟨hroot, (accepted_nodes hbody).mp hstyles⟩ }

/-! ### Documents that are preserved -/

/-- The compiler generates a program when everything is read, and otherwise it returns an error. -/
lemma compile_cases (markup : Element) (sheet : Except String (Head → σ)) (options : CompileOptions) :
    (∃ root style, Readable markup sheet options root style ∧
      compileToRust markup sheet options = generate options style root) ∨
      ∃ message, compileToRust markup sheet options = .error (.error message) := by
  rw [compileToRust]
  cases hstruct : validateRustIdent options.structName "struct name" with
  | error message => exact .inr ⟨message, rfl⟩
  | ok _ =>
    cases hfn : validateRustIdent options.fnName "function name" with
    | error message => exact .inr ⟨message, rfl⟩
    | ok _ =>
      cases hmarkup : parseMarkup markup with
      | error message => exact .inr ⟨message, rfl⟩
      | ok root =>
        cases hsheet : sheet with
        | error message => exact .inr ⟨message, rfl⟩
        | ok style =>
          refine .inl ⟨root, style, ⟨?_, ?_, hmarkup, rfl⟩, rfl⟩
          · rw [hstruct]
            rfl
          · rw [hfn]
            rfl

lemma Readable.compile_eq {markup : Element} {sheet : Except String (Head → σ)}
    {options : CompileOptions} {root : Node} (h : Readable markup sheet options root style) :
    compileToRust markup sheet options = generate options style root := by
  obtain ⟨hstruct, hfn, hmarkup, rfl⟩ := h
  rw [compileToRust, hmarkup]
  cases hcheck : validateRustIdent options.structName "struct name" with
  | error message =>
    rw [hcheck] at hstruct
    cases hstruct
  | ok _ =>
    cases hcheck' : validateRustIdent options.fnName "function name" with
    | error message =>
      rw [hcheck'] at hfn
      cases hfn
    | ok _ => rfl

lemma follows_generate (options : CompileOptions) (style : Head → σ) (root : Node) :
    Follows (stopAt (elementsAll root.children 1)) (generate options style root) :=
  (follows_writeNodes root.children "root" 0).map fun _ => follows_ok _

lemma safe_iff_of_follows {α : Type} {stop : Option (Head × WidgetId × List Node)}
    {r : Except Failure α} (h : Follows stop r) :
    Safe r ↔ ∀ x, stop = some x → panics x = false := by
  constructor
  · intro hsafe x hx
    obtain ⟨f, rfl, hpanics⟩ := h.error x hx
    refine Bool.eq_false_of_not_eq_true fun hpanic => ?_
    obtain ⟨message, rfl⟩ := hpanics.mpr hpanic
    exact hsafe message rfl
  · intro hstop message heq
    cases stop with
    | none =>
      obtain ⟨a, rfl⟩ := h.ok rfl
      cases heq
    | some x =>
      obtain ⟨f, rfl, hpanics⟩ := h.error x rfl
      have hpanic := hpanics.mp ⟨message, Except.error.inj heq⟩
      rw [hstop x rfl] at hpanic
      cases hpanic

lemma Follows.stop_eq_none {α : Type} {stop : Option (Head × WidgetId × List Node)}
    {r : Except Failure α} {a : α} (h : Follows stop r) (hr : r = .ok a) : stop = none := by
  cases stop with
  | none => rfl
  | some x =>
    obtain ⟨f, hf, -⟩ := h.error x rfl
    rw [hr] at hf
    cases hf

lemma parseMarkup_ok {markup : Element} {root : Node} (h : parseMarkup markup = .ok root) :
    Parsed markup root ∧ root.head.kind = .screen := by
  obtain ⟨node, hnode, hkind⟩ := Except.bind_ok h
  obtain ⟨hscreen, hsame⟩ := Except.check_ok hkind
  obtain rfl := Except.ok.inj hsame
  exact ⟨parsed_of_parseElement hnode, not_not.mp hscreen⟩

end ThistleOS.Toolkit.Compiler
