import ThistleOS.Toolkit.Tree

/-!
# The arena is a tree

Whatever is added and removed, the occupied slots form one tree below the root, and the list of free
slots holds the others.
-/

namespace ThistleOS.Toolkit

namespace UiTree

variable {κ : Type} {t t' : UiTree κ} {id p c x y : WidgetId}

/-! ### Well-formed arenas -/

/-- Every edge joins two occupied slots, the lower of which names the upper one; every occupied slot
but the root hangs on an edge; and the edges lead away from the root. -/
structure WellFormed (t : UiTree κ) : Prop where
  root_eq : t.root = 0
  root_alive : t.isAlive 0 = true
  edge : ∀ p c, c ∈ t.listed p →
    t.isAlive p = true ∧ t.isAlive c = true ∧ t.parent c = some p ∧ c ≠ 0
  nodup : ∀ p, (t.listed p).Nodup
  hangs : ∀ id, t.isAlive id = true → id ≠ 0 → ∃ p, t.parent id = some p ∧ id ∈ t.listed p
  free_nodup : t.free.Nodup
  free_iff : ∀ id, id ∈ t.free ↔ id < t.nodes.length ∧ t.isAlive id = false
  acyclic : ∃ depth : WidgetId → Nat, ∀ p c, c ∈ t.listed p → depth p < depth c
  room : ∀ p, (t.listed p).length ≤ maxChildren
  ids : t.nodes.length ≤ 0x10000

/-- `x` is the widget `top` or one of its descendants. -/
def Below (t : UiTree κ) (top x : WidgetId) : Prop :=
  Relation.ReflTransGen (fun c p => c ∈ t.listed p) x top

lemma wellFormed_new (w : Widget κ) : (new w).WellFormed := by
  have hlisted : ∀ p, (new w).listed p = [] := by
    rintro (_ | p) <;> rfl
  have halive : ∀ id, (new w).isAlive id = true ↔ id = 0 := by
    rintro (_ | id) <;> simp [new, isAlive, aliveNode]
  refine ⟨rfl, (halive 0).mpr rfl, ?_, ?_, ?_, List.nodup_nil, ?_, ⟨id, ?_⟩, ?_, ?_⟩
  · intro p c hc
    rw [hlisted] at hc
    cases hc
  · intro p
    rw [hlisted]
    exact List.nodup_nil
  · exact fun id h hne => absurd ((halive id).mp h) hne
  · intro id
    refine ⟨fun h => absurd h List.not_mem_nil, ?_⟩
    rintro ⟨hlt, hdead⟩
    have hzero : id = 0 := Nat.lt_one_iff.mp hlt
    rw [hzero, (halive 0).mpr rfl] at hdead
    cases hdead
  · intro p c hc
    rw [hlisted] at hc
    cases hc
  · intro p
    rw [hlisted]
    exact Nat.zero_le _
  · simp [new]

namespace WellFormed

lemma listed_eq_nil (h : t.WellFormed) (hdead : t.isAlive p = false) : t.listed p = [] := by
  rw [List.eq_nil_iff_forall_not_mem]
  intro c hc
  rw [(h.edge p c hc).1] at hdead
  cases hdead

lemma children_eq (h : t.WellFormed) (p : WidgetId) : t.children p = t.listed p := by
  cases halive : t.isAlive p with
  | true => exact children_of_isAlive halive
  | false => rw [children_eq_nil halive, h.listed_eq_nil halive]

lemma parent_unique (h : t.WellFormed) (hp : c ∈ t.listed p) {q : WidgetId} (hq : c ∈ t.listed q) :
    p = q :=
  Option.some.inj ((h.edge p c hp).2.2.1.symm.trans (h.edge q c hq).2.2.1)

/-- Every widget is below the root. -/
lemma below_root (h : t.WellFormed) (halive : t.isAlive id = true) : t.Below 0 id := by
  obtain ⟨depth, hdepth⟩ := h.acyclic
  induction hn : depth id using Nat.strong_induction_on generalizing id with
  | h n ih =>
    by_cases hid : id = 0
    · exact hid ▸ .refl
    · obtain ⟨p, -, hp⟩ := h.hangs id halive hid
      exact .head hp (ih (depth p) (hn ▸ hdepth p id hp) (h.edge p id hp).1 rfl)

lemma depth_le_of_below {depth : WidgetId → Nat} (hdepth : ∀ p c, c ∈ t.listed p → depth p < depth c)
    (hx : t.Below id x) : depth id ≤ depth x := by
  induction hx with
  | refl => exact Nat.le_refl _
  | tail _ hstep ih => exact (hdepth _ _ hstep).le.trans ih

lemma isAlive_of_below (h : t.WellFormed) (halive : t.isAlive id = true) (hx : t.Below id x) :
    t.isAlive x = true := by
  cases Relation.ReflTransGen.cases_head hx with
  | inl heq => exact heq ▸ halive
  | inr hstep =>
    obtain ⟨p, hp, -⟩ := hstep
    exact (h.edge p x hp).2.1

/-! ### Collecting a subtree -/

/-- The number of slots that are deeper than `id`. -/
def deeper (t : UiTree κ) (depth : WidgetId → Nat) (id : WidgetId) : Nat :=
  ((Finset.range t.nodes.length).filter fun x => depth id < depth x).card

lemma deeper_lt_of_edge (h : t.WellFormed) {depth : WidgetId → Nat}
    (hdepth : ∀ p c, c ∈ t.listed p → depth p < depth c) (hc : c ∈ t.listed p) :
    deeper t depth c < deeper t depth p := by
  refine Finset.card_lt_card (Finset.ssubset_iff_subset_ne.mpr ⟨?_, ?_⟩)
  · intro x hx
    rw [Finset.mem_filter] at hx ⊢
    exact ⟨hx.1, (hdepth p c hc).trans hx.2⟩
  · intro heq
    have hmem : c ∈ (Finset.range t.nodes.length).filter fun x => depth p < depth x :=
      Finset.mem_filter.mpr ⟨Finset.mem_range.mpr (lt_of_isAlive (h.edge p c hc).2.1), hdepth p c hc⟩
    rw [← heq, Finset.mem_filter] at hmem
    exact absurd hmem.2 (Nat.lt_irrefl _)

lemma deeper_lt_length (depth : WidgetId → Nat) (hid : id < t.nodes.length) :
    deeper t depth id < t.nodes.length := by
  have hss : (Finset.range t.nodes.length).filter (fun x => depth id < depth x) ⊂
      Finset.range t.nodes.length := by
    refine Finset.ssubset_iff_subset_ne.mpr ⟨Finset.filter_subset _ _, fun heq => ?_⟩
    have hmem := Finset.mem_range.mpr hid
    rw [← heq, Finset.mem_filter] at hmem
    exact absurd hmem.2 (Nat.lt_irrefl _)
  simpa [deeper] using Finset.card_lt_card hss

/-- With enough fuel the collected ids are those of the subtree. -/
lemma mem_collectSubtree (h : t.WellFormed) {depth : WidgetId → Nat}
    (hdepth : ∀ p c, c ∈ t.listed p → depth p < depth c) (fuel : Nat)
    (hfuel : deeper t depth id < fuel) : x ∈ t.collectSubtree fuel id ↔ t.Below id x := by
  induction fuel generalizing id with
  | zero => exact absurd hfuel (Nat.not_lt_zero _)
  | succ fuel ih =>
    have hchild : ∀ c ∈ t.listed id, x ∈ t.collectSubtree fuel c ↔ t.Below c x := fun c hc =>
      ih (Nat.lt_of_lt_of_le (h.deeper_lt_of_edge hdepth hc) (Nat.le_of_lt_succ hfuel))
    rw [collectSubtree, List.mem_cons, List.mem_flatMap, h.children_eq]
    constructor
    · rintro (rfl | ⟨c, hc, hx⟩)
      · exact .refl
      · exact ((hchild c hc).mp hx).tail hc
    · intro hx
      cases hx with
      | refl => exact .inl rfl
      | tail hbelow hc => exact .inr ⟨_, hc, (hchild _ hc).mpr hbelow⟩

/-- Nothing is below two children of a widget. -/
lemma below_disjoint (h : t.WellFormed) {d : WidgetId} (hc : c ∈ t.listed p) (hd : d ∈ t.listed p)
    (hne : c ≠ d) (hcx : t.Below c x) : ¬ t.Below d x := by
  intro hdx
  obtain ⟨depth, hdepth⟩ := h.acyclic
  have hunique : Relator.RightUnique fun c p => c ∈ t.listed p :=
    fun _ _ _ hp hq => h.parent_unique hp hq
  -- one of the two would be below the other, hence below its own parent's child
  have hno : ∀ a b, a ∈ t.listed p → b ∈ t.listed p → a ≠ b →
      ¬ Relation.ReflTransGen (fun c p => c ∈ t.listed p) a b := by
    intro a b ha hb hab hle
    cases Relation.ReflTransGen.cases_head hle with
    | inl heq => exact hab heq
    | inr hstep =>
      obtain ⟨q, hq, hqb⟩ := hstep
      obtain rfl := h.parent_unique ha hq
      exact absurd (depth_le_of_below hdepth hqb) (Nat.not_le.mpr (hdepth p b hb))
  rcases Relation.ReflTransGen.total_of_right_unique hunique hcx hdx with hcd | hdc
  · exact hno c d hc hd hne hcd
  · exact hno d c hd hc hne.symm hdc

lemma nodup_collectSubtree (h : t.WellFormed) {depth : WidgetId → Nat}
    (hdepth : ∀ p c, c ∈ t.listed p → depth p < depth c) (fuel : Nat)
    (hfuel : deeper t depth id < fuel) : (t.collectSubtree fuel id).Nodup := by
  induction fuel generalizing id with
  | zero => exact absurd hfuel (Nat.not_lt_zero _)
  | succ fuel ih =>
    have hless : ∀ c ∈ t.listed id, deeper t depth c < fuel := fun c hc =>
      Nat.lt_of_lt_of_le (h.deeper_lt_of_edge hdepth hc) (Nat.le_of_lt_succ hfuel)
    rw [collectSubtree, h.children_eq, List.nodup_cons, List.nodup_flatMap]
    refine ⟨?_, fun c hc => ih (hless c hc), ?_⟩
    · rw [List.mem_flatMap]
      rintro ⟨c, hc, hmem⟩
      have hbelow := (h.mem_collectSubtree hdepth fuel (hless c hc)).mp hmem
      exact absurd (depth_le_of_below hdepth hbelow) (Nat.not_le.mpr (hdepth id c hc))
    · refine (h.nodup id).imp_of_mem fun {c d} hc hd hne => ?_
      change List.Disjoint _ _
      rw [List.disjoint_iff_ne]
      rintro x hx y hy rfl
      exact h.below_disjoint hc hd hne ((h.mem_collectSubtree hdepth fuel (hless c hc)).mp hx)
        ((h.mem_collectSubtree hdepth fuel (hless d hd)).mp hy)

lemma mem_toRemove (h : t.WellFormed) (halive : t.isAlive id = true) :
    x ∈ t.toRemove id ↔ t.Below id x := by
  obtain ⟨depth, hdepth⟩ := h.acyclic
  exact h.mem_collectSubtree hdepth _ (deeper_lt_length depth (lt_of_isAlive halive))

lemma nodup_toRemove (h : t.WellFormed) (halive : t.isAlive id = true) : (t.toRemove id).Nodup := by
  obtain ⟨depth, hdepth⟩ := h.acyclic
  exact h.nodup_collectSubtree hdepth _ (deeper_lt_length depth (lt_of_isAlive halive))

/-- The bound on the depth is never met: the collected ids are the widget and what its children's
collections have. -/
lemma toRemove_eq (h : t.WellFormed) (halive : t.isAlive id = true) (x : WidgetId) :
    x ∈ t.toRemove id ↔ x = id ∨ ∃ c ∈ t.children id, x ∈ t.toRemove c := by
  rw [h.mem_toRemove halive, h.children_eq]
  constructor
  · intro hx
    cases hx with
    | refl => exact .inl rfl
    | tail hbelow hc => exact .inr ⟨_, hc, (h.mem_toRemove (h.edge _ _ hc).2.1).mpr hbelow⟩
  · rintro (rfl | ⟨c, hc, hx⟩)
    · exact .refl
    · exact ((h.mem_toRemove (h.edge _ _ hc).2.1).mp hx).tail hc

end WellFormed

/-! ### Adding -/

/-- A removed slot is there to be used again, or an id is left for a new one. -/
def HasId (t : UiTree κ) : Prop := t.free = [] → t.nodes.length < 0x10000

/-- The widget has got a slot that was not occupied. -/
structure Allocated (t t₁ : UiTree κ) (id : WidgetId) (node : Node κ) : Prop where
  root : t₁.root = t.root
  focus : t₁.focus = t.focus
  slot : ∀ i, t₁.nodes[i]? = if i = id then some node else t.nodes[i]?
  dead : t.isAlive id = false
  free : ∀ i, i ∈ t₁.free ↔ i ∈ t.free ∧ i ≠ id
  free_nodup : t₁.free.Nodup
  length : ∀ i, i < t₁.nodes.length ↔ i < t.nodes.length ∨ i = id
  ids : t₁.nodes.length ≤ 0x10000

lemma getElem?_modify_eq (l : List (Node κ)) (i j : Nat) (f : Node κ → Node κ) :
    (l.modify i f)[j]? = if j = i then (l[j]?).map f else l[j]? := by
  rw [List.getElem?_modify]
  by_cases h : i = j
  · simp [h]
  · simp [h, Ne.symm h]

/-- The node that an allocation makes. -/
structure FreshNode (parent : WidgetId) (widget : Widget κ) (node : Node κ) : Prop where
  alive : node.alive = true
  children : node.children = []
  parent : node.parent = some parent
  focused : node.widget.common.focused = widget.common.focused

lemma allocated (h : t.WellFormed) (hid : t.HasId) (parent : WidgetId) (widget : Widget κ) :
    ∃ node, FreshNode parent widget node ∧
      Allocated t (t.allocate parent widget).1 (t.allocate parent widget).2 node := by
  cases hfree : t.free with
  | nil =>
    have hlt := hid hfree
    have hmod : t.nodes.length % 0x10000 = t.nodes.length := Nat.mod_eq_of_lt hlt
    refine ⟨⟨widget.mapCommon fun c => { c with id := t.nodes.length }, some parent, [], 0, true⟩,
      ⟨rfl, rfl, rfl, rfl⟩, ?_⟩
    rw [allocate, hfree]
    dsimp only
    rw [hmod]
    refine ⟨rfl, rfl, fun i => ?_, ?_, fun i => ?_, hfree ▸ List.nodup_nil, fun i => ?_, ?_⟩
    · rcases Nat.lt_trichotomy i t.nodes.length with hi | hi | hi
      · rw [if_neg hi.ne, List.getElem?_append_left hi]
      · rw [if_pos hi, hi, List.getElem?_concat_length]
      · rw [if_neg hi.ne', List.getElem?_eq_none (by simpa using Nat.succ_le_of_lt hi),
          List.getElem?_eq_none hi.le]
    · simp [isAlive, aliveNode]
    · simp [hfree]
    · simp only [List.length_append, List.length_singleton]
      omega
    · simp only [List.length_append, List.length_singleton]
      omega
  | cons freeId free =>
    obtain ⟨hlt, hdead⟩ := (h.free_iff freeId).mp (hfree ▸ List.mem_cons_self)
    have hnodup := h.free_nodup
    rw [hfree, List.nodup_cons] at hnodup
    obtain ⟨slot, hslot⟩ : ∃ slot, t.nodes[freeId]? = some slot :=
      ⟨_, List.getElem?_eq_some_iff.mpr ⟨hlt, rfl⟩⟩
    refine ⟨⟨widget.mapCommon fun c => { c with id := freeId }, some parent, [], slot.generation + 1,
      true⟩, ⟨rfl, rfl, rfl, rfl⟩, ?_⟩
    rw [allocate, hfree]
    dsimp only
    refine ⟨rfl, rfl, fun i => ?_, hdead, fun i => ?_, hnodup.2, fun i => ?_, ?_⟩
    · rw [getElem?_modify_eq]
      by_cases hi : i = freeId
      · rw [if_pos hi, if_pos hi, hi, hslot]
        rfl
      · rw [if_neg hi, if_neg hi]
    · rw [hfree, List.mem_cons]
      constructor
      · intro hmem
        refine ⟨.inr hmem, ?_⟩
        rintro rfl
        exact hnodup.1 hmem
      · rintro ⟨rfl | hmem, hne⟩
        · exact absurd rfl hne
        · exact hmem
    · simp only [List.length_modify]
      refine ⟨.inl, ?_⟩
      rintro (hi | rfl)
      · exact hi
      · exact hlt
    · simpa using h.ids

/-- The tree has one more leaf, `id` below `p`. -/
structure Grown (t t' : UiTree κ) (p id : WidgetId) : Prop where
  alive : ∀ i, t'.isAlive i = if i = id then true else t.isAlive i
  listed : ∀ q, t'.listed q = if q = p then t.listed p ++ [id] else t.listed q
  parent : ∀ c, t'.parent c = if c = id then some p else t.parent c
  get : ∀ i, i ≠ id → t'.get i = t.get i

/-- The occupied slots and their edges are the same. -/
structure SameShape (t t' : UiTree κ) : Prop where
  alive : ∀ i, t'.isAlive i = t.isAlive i
  listed : ∀ q, t'.listed q = t.listed q
  parent : ∀ c, t'.parent c = t.parent c

/-- Nothing that is occupied has changed. -/
structure Alike (t t' : UiTree κ) : Prop extends SameShape t t' where
  get : ∀ i, t'.get i = t.get i

section Attach

variable {t₁ : UiTree κ} {node : Node κ} {widget : Widget κ}

lemma isAlive_eq (t : UiTree κ) (i : WidgetId) : t.isAlive i = (t.nodes[i]?).any (·.alive) := by
  cases hi : t.nodes[i]? <;> simp [isAlive, aliveNode, hi]

lemma parent_eq (t : UiTree κ) (i : WidgetId) :
    t.parent i = ((t.nodes[i]?).filter (·.alive)).bind (·.parent) := rfl

lemma get_eq (t : UiTree κ) (i : WidgetId) :
    t.get i = ((t.nodes[i]?).filter (·.alive)).map (·.widget) := rfl

/-- The parent had room. -/
lemma grown (h : t.WellFormed) (hp : t.isAlive p = true) (hnode : FreshNode p widget node)
    (ha : Allocated t t₁ id node) :
    Grown t (t₁.modifyNode p fun n => { n with children := n.children ++ [id] }) p id := by
  have hne : p ≠ id := by
    rintro rfl
    rw [ha.dead] at hp
    cases hp
  have hslots : ∀ i, (t₁.modifyNode p fun n => { n with children := n.children ++ [id] }).nodes[i]? =
      if i = p then (t.nodes[i]?).map fun n => { n with children := n.children ++ [id] }
      else if i = id then some node else t.nodes[i]? := by
    intro i
    rw [nodes_modifyNode, getElem?_modify_eq, ha.slot]
    by_cases hi : i = p
    · rw [if_pos hi, if_pos hi, if_neg (hi ▸ hne)]
    · rw [if_neg hi, if_neg hi]
  refine ⟨fun i => ?_, fun q => ?_, fun c => ?_, fun i hi => ?_⟩
  · rw [isAlive_eq, isAlive_eq, hslots]
    by_cases hi : i = p
    · rw [if_pos hi, if_neg (hi ▸ hne), Option.any_map]
    · rw [if_neg hi]
      split_ifs
      · exact hnode.alive
      · rfl
  · simp only [UiTree.listed, hslots]
    by_cases hq : q = p
    · subst hq
      obtain ⟨n, hn, -⟩ := isAlive_iff.mp hp
      simp [hn]
    · rw [if_neg hq, if_neg hq]
      split_ifs with hid
      · have hnil : t.listed q = [] := h.listed_eq_nil (hid ▸ ha.dead)
        rw [UiTree.listed] at hnil
        rw [hnil]
        exact hnode.children
      · rfl
  · rw [parent_eq, parent_eq, hslots]
    by_cases hc : c = p
    · rw [if_pos hc, if_neg (hc ▸ hne)]
      cases t.nodes[c]? with
      | none => rfl
      | some n => cases hn : n.alive <;> simp [Option.filter, hn]
    · rw [if_neg hc]
      split_ifs
      · simp [Option.filter, hnode.alive, hnode.parent]
      · rfl
  · rw [get_eq, get_eq, hslots, if_neg hi]
    split_ifs
    · cases t.nodes[i]? with
      | none => rfl
      | some n => cases hn : n.alive <;> simp [Option.filter, hn]
    · rfl

/-- The parent was full, and the slot is given back. -/
lemma alike (h : t.WellFormed) (hnode : FreshNode p widget node) (ha : Allocated t t₁ id node) :
    Alike t { t₁.modifyNode id fun n => { n with alive := false } with free := id :: t₁.free } := by
  have hslots : ∀ i, (t₁.nodes.modify id fun n => { n with alive := false })[i]? =
      if i = id then some { node with alive := false } else t.nodes[i]? := by
    intro i
    rw [getElem?_modify_eq, ha.slot]
    split_ifs <;> rfl
  refine ⟨⟨fun i => ?_, fun q => ?_, fun c => ?_⟩, fun i => ?_⟩
  · rw [isAlive_eq, modifyNode, hslots]
    split_ifs with hi
    · rw [hi, ha.dead]
      rfl
    · rw [isAlive_eq]
  · simp only [UiTree.listed, modifyNode, hslots]
    split_ifs with hq
    · have hnil : t.listed q = [] := h.listed_eq_nil (hq ▸ ha.dead)
      rw [UiTree.listed] at hnil
      rw [hnil]
      exact hnode.children
    · rfl
  · rw [parent_eq, modifyNode, hslots]
    split_ifs with hc
    · rw [hc, parent, aliveNode_eq_none ha.dead]
      simp [Option.filter]
    · rw [parent_eq]
  · rw [get_eq, modifyNode, hslots]
    split_ifs with hi
    · rw [hi, get, aliveNode_eq_none ha.dead]
      simp [Option.filter]
    · rw [get_eq]

/-- A leaf more. -/
lemma WellFormed.of_grown (h : t.WellFormed) (hp : t.isAlive p = true) (hdead : t.isAlive id = false)
    (hroom : (t.listed p).length < maxChildren) (hg : Grown t t' p id) (hroot : t'.root = t.root)
    (hnodup : t'.free.Nodup)
    (hfree : ∀ i, i ∈ t'.free ↔ i < t'.nodes.length ∧ t'.isAlive i = false)
    (hids : t'.nodes.length ≤ 0x10000) : t'.WellFormed := by
  have hpid : p ≠ id := by
    rintro rfl
    rw [hdead] at hp
    cases hp
  have hzero : id ≠ 0 := by
    rintro rfl
    rw [h.root_alive] at hdead
    cases hdead
  have hfresh : ∀ q, id ∉ t.listed q := by
    intro q hq
    rw [(h.edge q id hq).2.1] at hdead
    cases hdead
  have hkept : ∀ i, t.isAlive i = true → t'.isAlive i = true := by
    intro i hi
    rw [hg.alive]
    split_ifs
    · rfl
    · exact hi
  -- an edge is an old one or the new one
  have hedge : ∀ q c, c ∈ t'.listed q → (c ∈ t.listed q ∧ c ≠ id) ∨ (q = p ∧ c = id) := by
    intro q c hc
    rw [hg.listed] at hc
    split_ifs at hc with hq
    · rw [List.mem_append, List.mem_singleton] at hc
      rcases hc with hc | hc
      · exact .inl ⟨hq ▸ hc, fun heq => hfresh p (heq ▸ hc)⟩
      · exact .inr ⟨hq, hc⟩
    · exact .inl ⟨hc, fun heq => hfresh q (heq ▸ hc)⟩
  have hold : ∀ q c, c ∈ t.listed q → c ∈ t'.listed q := by
    intro q c hc
    rw [hg.listed]
    split_ifs with hq
    · exact List.mem_append_left _ (hq ▸ hc)
    · exact hc
  refine ⟨hroot.trans h.root_eq, hkept 0 h.root_alive, ?_, ?_, ?_, hnodup, hfree, ?_, ?_, hids⟩
  · intro q c hc
    rw [hg.parent]
    rcases hedge q c hc with ⟨hc, hne⟩ | ⟨rfl, rfl⟩
    · obtain ⟨hq, halive, hparent, hcz⟩ := h.edge q c hc
      exact ⟨hkept q hq, hkept c halive, by rw [if_neg hne, hparent], hcz⟩
    · exact ⟨hkept q hp, by rw [hg.alive, if_pos rfl], if_pos rfl, hzero⟩
  · intro q
    rw [hg.listed]
    split_ifs
    · exact List.nodup_append.mpr ⟨h.nodup p, List.nodup_singleton id, by
        rintro a ha b hb rfl
        exact hfresh p (List.mem_singleton.mp hb ▸ ha)⟩
    · exact h.nodup q
  · intro i hi hiz
    rw [hg.parent]
    by_cases hid : i = id
    · refine ⟨p, if_pos hid, ?_⟩
      rw [hg.listed, if_pos rfl, hid]
      exact List.mem_append_right _ List.mem_cons_self
    · rw [hg.alive, if_neg hid] at hi
      obtain ⟨q, hq, hmem⟩ := h.hangs i hi hiz
      exact ⟨q, by rw [if_neg hid, hq], hold q i hmem⟩
  · obtain ⟨depth, hdepth⟩ := h.acyclic
    refine ⟨fun i => if i = id then depth p + 1 else depth i, fun q c hc => ?_⟩
    rcases hedge q c hc with ⟨hc, hne⟩ | ⟨rfl, rfl⟩
    · have hq : q ≠ id := by
        rintro rfl
        rw [(h.edge q c hc).1] at hdead
        cases hdead
      simp only [if_neg hne, if_neg hq]
      exact hdepth q c hc
    · simp only [if_neg hpid, if_true]
      exact Nat.lt_succ_self _
  · intro q
    rw [hg.listed]
    split_ifs
    · rw [List.length_append, List.length_singleton]
      exact hroom
    · exact h.room q

lemma WellFormed.of_sameShape (h : t.WellFormed) (ha : SameShape t t') (hroot : t'.root = t.root)
    (hnodup : t'.free.Nodup)
    (hfree : ∀ i, i ∈ t'.free ↔ i < t'.nodes.length ∧ t'.isAlive i = false)
    (hids : t'.nodes.length ≤ 0x10000) : t'.WellFormed where
  root_eq := hroot.trans h.root_eq
  root_alive := (ha.alive 0).trans h.root_alive
  edge p c hc := by
    rw [ha.listed] at hc
    rw [ha.alive, ha.alive, ha.parent]
    exact h.edge p c hc
  nodup p := by
    rw [ha.listed]
    exact h.nodup p
  hangs id hid hne := by
    rw [ha.alive] at hid
    obtain ⟨p, hp, hmem⟩ := h.hangs id hid hne
    exact ⟨p, by rw [ha.parent, hp], by rwa [ha.listed]⟩
  free_nodup := hnodup
  free_iff := hfree
  acyclic := by
    obtain ⟨depth, hdepth⟩ := h.acyclic
    exact ⟨depth, fun p c hc => hdepth p c (ha.listed p ▸ hc)⟩
  room p := by
    rw [ha.listed]
    exact h.room p
  ids := hids

/-- What adding a child comes to. -/
structure AddResult (t : UiTree κ) (p : WidgetId) (widget : Widget κ)
    (r : UiTree κ × Option WidgetId) : Prop where
  wellFormed : r.1.WellFormed
  focus : r.1.focus = t.focus
  length : t.nodes.length ≤ r.1.nodes.length
  added : ∀ id, r.2 = some id → t.isAlive p = true ∧ (t.listed p).length < maxChildren ∧
    t.isAlive id = false ∧ Grown t r.1 p id ∧
    ∀ w, r.1.get id = some w → w.common.focused = widget.common.focused
  refused : r.2 = none →
    (t.isAlive p = false ∨ (t.listed p).length = maxChildren) ∧ Alike t r.1

lemma addResult (h : t.WellFormed) (hid : t.HasId) (p : WidgetId) (widget : Widget κ) :
    AddResult t p widget (t.addChild p widget) := by
  rw [addChild]
  split
  · rename_i hp
    obtain ⟨node, hnode, ha⟩ := allocated h hid p widget
    generalize t.allocate p widget = r at ha
    obtain ⟨t₁, id⟩ := r
    dsimp only at ha ⊢
    have hne : p ≠ id := by
      rintro rfl
      rw [ha.dead] at hp
      cases hp
    have hslot : t₁.nodes[p]? = t.nodes[p]? := by rw [ha.slot, if_neg hne]
    have hlisted : t₁.children p = t.listed p := by
      rw [children_of_isAlive ((isAlive_congr hslot).trans hp), listed_congr hslot]
    have hlength : t.nodes.length ≤ t₁.nodes.length := by
      by_contra hlt
      have := (ha.length t₁.nodes.length).mpr (.inl (Nat.not_le.mp hlt))
      exact absurd this (Nat.lt_irrefl _)
    rw [attach]
    split
    · rename_i hroom
      rw [hlisted] at hroom
      have hg := grown h hp hnode ha
      refine ⟨h.of_grown hp ha.dead hroom hg ha.root ha.free_nodup (fun i => ?_) ?_, ha.focus, ?_,
        ?_, ?_⟩
      · rw [hg.alive]
        simp only [modifyNode, List.length_modify]
        rw [ha.free, ha.length, h.free_iff]
        split_ifs with hi
        · simp [hi]
        · simp [hi]
      · simpa [modifyNode] using ha.ids
      · simpa [modifyNode] using hlength
      · intro i hi
        obtain rfl := Option.some.inj hi
        refine ⟨hp, hroom, ha.dead, hg, fun w hw => ?_⟩
        rw [get_eq, nodes_modifyNode, getElem?_modify_eq, if_neg hne.symm, ha.slot, if_pos rfl] at hw
        simp only [Option.filter, hnode.alive, if_true, Option.map_some, Option.some.injEq] at hw
        rw [← hw, hnode.focused]
      · intro hnone
        cases hnone
    · rename_i hfull
      rw [hlisted] at hfull
      have halike := alike h hnode ha
      refine ⟨h.of_sameShape halike.toSameShape ha.root ?_ (fun i => ?_) ?_, ha.focus, ?_, ?_, ?_⟩
      · refine List.nodup_cons.mpr ⟨fun hmem => ?_, ha.free_nodup⟩
        exact ((ha.free id).mp hmem).2 rfl
      · rw [halike.alive]
        simp only [modifyNode, List.length_modify]
        rw [List.mem_cons, ha.free, ha.length, h.free_iff]
        by_cases hi : i = id
        · simp [hi, ha.dead]
        · simp [hi]
      · simpa [modifyNode] using ha.ids
      · simpa [modifyNode] using hlength
      · intro i hi
        cases hi
      · exact fun _ => ⟨.inr (Nat.le_antisymm (h.room p) (Nat.not_lt.mp hfull)), halike⟩
  · rename_i hp
    refine ⟨h, rfl, Nat.le_refl _, ?_, ?_⟩
    · intro i hi
      cases hi
    · exact fun _ => ⟨.inl (Bool.not_eq_true _ ▸ hp),
        ⟨⟨fun _ => rfl, fun _ => rfl, fun _ => rfl⟩, fun _ => rfl⟩⟩

end Attach

/-! ### Removing -/

/-- Swapping the last element into a gap leaves the other elements. -/
lemma swapRemove_perm {l : List WidgetId} {pos : Nat} (hpos : pos < l.length) :
    (swapRemove l pos).Perm (l.eraseIdx pos) := by
  obtain ⟨a, x, b, rfl, rfl⟩ : ∃ a x b, l = a ++ x :: b ∧ a.length = pos := by
    refine ⟨l.take pos, l[pos], l.drop (pos + 1), ?_, ?_⟩
    · rw [List.cons_getElem_drop_succ, List.take_append_drop]
    · exact List.length_take_of_le hpos.le
  have herase : (a ++ x :: b).eraseIdx a.length = a ++ b := by simp [List.eraseIdx_append_of_length_le]
  rw [herase]
  induction b using List.reverseRecOn with
  | nil => simp [swapRemove]
  | append_singleton b y _ =>
    have hlast : (a ++ x :: (b ++ [y])).getLast? = some y := by
      rw [← List.cons_append, ← List.append_assoc, List.getLast?_concat]
    have hset : (a ++ x :: (b ++ [y])).set a.length y = (a ++ y :: b) ++ [y] := by
      simp
    rw [swapRemove, hlast]
    dsimp only
    rw [hset, List.dropLast_concat, ← List.append_assoc]
    calc (a ++ y :: b).Perm (y :: (a ++ b)) := List.perm_middle
      _ |>.Perm ((a ++ b) ++ [y]) := (List.perm_append_singleton y (a ++ b)).symm

/-- Unlinking takes one element out of the list. -/
lemma unlinkFrom_children {n : Node κ} (hnodup : n.children.Nodup) :
    (unlinkFrom id n).children.Nodup ∧
      (unlinkFrom id n).children.length ≤ n.children.length ∧
      ∀ x, x ∈ (unlinkFrom id n).children ↔ x ∈ n.children ∧ x ≠ id := by
  rw [unlinkFrom]
  cases hpos : n.children.idxOf? id with
  | none =>
    rw [List.idxOf?_eq_none_iff] at hpos
    refine ⟨hnodup, Nat.le_refl _, fun x => ⟨fun hx => ⟨hx, ?_⟩, And.left⟩⟩
    rintro rfl
    exact hpos hx
  | some pos =>
    obtain ⟨hlt, hget⟩ : ∃ h : pos < n.children.length, n.children[pos] = id := by
      rw [List.idxOf?, List.findIdx?_eq_some_iff_getElem] at hpos
      obtain ⟨hlt, heq, -⟩ := hpos
      exact ⟨hlt, by simpa using heq⟩
    have hperm := swapRemove_perm hlt
    have herase : n.children.eraseIdx pos = n.children.erase id := by
      rw [← hget, hnodup.erase_getElem]
    rw [herase] at hperm
    refine ⟨hperm.nodup_iff.mpr (hnodup.erase id), ?_, fun x => ?_⟩
    · exact hperm.length_eq.trans_le (List.erase_sublist).length_le
    · rw [hperm.mem_iff, hnodup.mem_erase_iff, and_comm]

lemma foldl_kill (l : List WidgetId) (t : UiTree κ) :
    (l.foldl kill t).root = t.root ∧ (l.foldl kill t).free = l.reverse ++ t.free ∧
      (l.foldl kill t).nodes.length = t.nodes.length ∧
      (l.foldl kill t).focus = (if t.focus.any (l.contains ·) then none else t.focus) ∧
      ∀ i, (l.foldl kill t).nodes[i]? = if i ∈ l then
        (t.nodes[i]?).map fun n => { n with alive := false, children := [] } else t.nodes[i]? := by
  induction l generalizing t with
  | nil => cases h : t.focus <;> simp [h]
  | cons rid l ih =>
    obtain ⟨hroot, hfree, hlength, hfocus, hslot⟩ := ih (t.kill rid)
    rw [List.foldl_cons]
    refine ⟨hroot, ?_, ?_, ?_, fun i => ?_⟩
    · rw [hfree, kill, List.reverse_cons, List.append_assoc, List.singleton_append]
    · rw [hlength, kill, List.length_modify]
    · rw [hfocus]
      cases hf : t.focus with
      | none => simp [kill, hf]
      | some f =>
        by_cases heq : f = rid
        · simp [kill, hf, heq]
        · simp [kill, hf, heq]
    · rw [hslot, kill, getElem?_modify_eq]
      by_cases hi : i = rid
      · subst hi
        cases t.nodes[i]? <;> simp
      · simp [hi]

/-- The tree without the subtree of `top`. -/
structure Pruned (t t' : UiTree κ) (top : WidgetId) : Prop where
  alive : ∀ i, t'.isAlive i = true ↔ t.isAlive i = true ∧ ¬ t.Below top i
  listed : ∀ q c, c ∈ t'.listed q ↔ c ∈ t.listed q ∧ ¬ t.Below top q ∧ c ≠ top
  parent : ∀ c, ¬ t.Below top c → t'.parent c = t.parent c
  get : ∀ i, ¬ t.Below top i → t'.get i = t.get i

/-- What removing a widget comes to. -/
structure RemoveResult (t : UiTree κ) (id : WidgetId) (t' : UiTree κ) : Prop where
  wellFormed : t'.WellFormed
  focus : t'.focus = if t.focus.any ((t.toRemove id).contains ·) then none else t.focus
  length : t'.nodes.length = t.nodes.length
  pruned : Pruned t t' id

lemma removeResult (h : t.WellFormed) (halive : t.isAlive id = true) (hne : id ≠ 0) :
    RemoveResult t id ((t.toRemove id).foldl kill (t.unlink id)) := by
  obtain ⟨p, hp, hmem⟩ := h.hangs id halive hne
  obtain ⟨depth, hdepth⟩ := h.acyclic
  have hout : ¬ t.Below id p := fun hbelow =>
    absurd (WellFormed.depth_le_of_below hdepth hbelow) (Nat.not_le.mpr (hdepth p id hmem))
  have hzero : ¬ t.Below id 0 := by
    intro hbelow
    cases Relation.ReflTransGen.cases_head hbelow with
    | inl heq => exact hne heq.symm
    | inr hstep =>
      obtain ⟨q, hq, -⟩ := hstep
      exact (h.edge q 0 hq).2.2.2 rfl
  have hunlink : t.unlink id = t.modifyNode p (unlinkFrom id) := by rw [unlink, hp]
  obtain ⟨hroot, hfree, hlength, hfocus, hslot⟩ := foldl_kill (t.toRemove id) (t.unlink id)
  generalize (t.toRemove id).foldl kill (t.unlink id) = t' at *
  rw [hunlink] at hroot hfree hlength hfocus hslot
  simp only [modifyNode, List.length_modify] at hroot hfree hlength hfocus hslot
  have hS : ∀ i, i ∈ t.toRemove id ↔ t.Below id i := fun i => h.mem_toRemove halive
  -- what each slot is afterwards
  have hslot : ∀ i, t'.nodes[i]? = if i ∈ t.toRemove id then
      (t.nodes[i]?).map fun n => { n with alive := false, children := [] }
      else if i = p then (t.nodes[i]?).map (unlinkFrom id) else t.nodes[i]? := by
    intro i
    rw [hslot, getElem?_modify_eq]
    split_ifs with hi heq
    · exact absurd ((hS p).mp (heq ▸ hi)) hout
    · rfl
    · rfl
    · rfl
  have hkeep : ∀ n : Node κ, (unlinkFrom id n).alive = n.alive ∧
      (unlinkFrom id n).parent = n.parent ∧ (unlinkFrom id n).widget = n.widget := by
    intro n
    rw [unlinkFrom]
    split <;> exact ⟨rfl, rfl, rfl⟩
  have hpruned : Pruned t t' id := by
    refine ⟨fun i => ?_, fun q c => ?_, fun c hc => ?_, fun i hi => ?_⟩
    · rw [isAlive_eq, isAlive_eq, hslot, ← hS]
      split_ifs with hi heq
      · cases t.nodes[i]? <;> simp [hi]
      · cases t.nodes[i]? <;> simp [hi, hkeep]
      · simp [hi]
    · simp only [UiTree.listed, hslot, ← hS]
      split_ifs with hq heq
      · cases t.nodes[q]? <;> simp [hq]
      · cases hn : t.nodes[q]? with
        | none => simp
        | some n =>
          have hnodup := h.nodup q
          rw [UiTree.listed, hn] at hnodup
          simp [(unlinkFrom_children hnodup).2.2, hq]
      · refine ⟨fun hc => ⟨hc, hq, ?_⟩, And.left⟩
        rintro rfl
        exact heq (h.parent_unique hc hmem)
    · rw [parent_eq, parent_eq, hslot, if_neg (mt (hS c).mp hc)]
      split_ifs
      · cases t.nodes[c]? with
        | none => rfl
        | some n => cases hn : n.alive <;> simp [Option.filter, hn, hkeep]
      · rfl
    · rw [get_eq, get_eq, hslot, if_neg (mt (hS i).mp hi)]
      split_ifs
      · cases t.nodes[i]? with
        | none => rfl
        | some n => cases hn : n.alive <;> simp [Option.filter, hn, hkeep]
      · rfl
  have hedge : ∀ q c, c ∈ t'.listed q → c ∈ t.listed q ∧ ¬ t.Below id q ∧ ¬ t.Below id c := by
    intro q c hc
    obtain ⟨hc, hq, hcne⟩ := (hpruned.listed q c).mp hc
    refine ⟨hc, hq, fun hbelow => ?_⟩
    cases Relation.ReflTransGen.cases_head hbelow with
    | inl heq => exact hcne heq
    | inr hstep =>
      obtain ⟨q', hq', hbelow'⟩ := hstep
      exact hq (h.parent_unique hc hq' ▸ hbelow')
  refine ⟨⟨hroot.trans h.root_eq, ?_, ?_, ?_, ?_, ?_, ?_, ?_, ?_, ?_⟩, hfocus, hlength, hpruned⟩
  · exact (hpruned.alive 0).mpr ⟨h.root_alive, hzero⟩
  · intro q c hc
    obtain ⟨hc, hq, hcout⟩ := hedge q c hc
    obtain ⟨hqa, hca, hparent, hcz⟩ := h.edge q c hc
    exact ⟨(hpruned.alive q).mpr ⟨hqa, hq⟩, (hpruned.alive c).mpr ⟨hca, hcout⟩,
      (hpruned.parent c hcout).trans hparent, hcz⟩
  · intro q
    simp only [UiTree.listed, hslot]
    have hnodup := h.nodup q
    split_ifs
    · cases t.nodes[q]? <;> simp
    · cases hn : t.nodes[q]? with
      | none => simp
      | some n =>
        rw [UiTree.listed, hn] at hnodup
        exact (unlinkFrom_children hnodup).1
    · exact hnodup
  · intro i hi hiz
    obtain ⟨hi, hiout⟩ := (hpruned.alive i).mp hi
    obtain ⟨q, hq, hiq⟩ := h.hangs i hi hiz
    refine ⟨q, (hpruned.parent i hiout).trans hq, (hpruned.listed q i).mpr ⟨hiq, ?_, ?_⟩⟩
    · exact fun hbelow => hiout (hbelow.head hiq)
    · rintro rfl
      exact hiout .refl
  · rw [hfree]
    refine List.nodup_append.mpr ⟨List.nodup_reverse.mpr (h.nodup_toRemove halive), h.free_nodup, ?_⟩
    rintro a ha b hb rfl
    have hdead := ((h.free_iff a).mp hb).2
    rw [h.isAlive_of_below halive ((hS a).mp (List.mem_reverse.mp ha))] at hdead
    cases hdead
  · intro i
    rw [hfree, List.mem_append, List.mem_reverse, h.free_iff, hlength, hS, ← Bool.not_eq_true,
      ← Bool.not_eq_true, hpruned.alive]
    constructor
    · rintro (hbelow | ⟨hlt, hdead⟩)
      · exact ⟨lt_of_isAlive (h.isAlive_of_below halive hbelow), fun hi => hi.2 hbelow⟩
      · exact ⟨hlt, fun hi => hdead hi.1⟩
    · rintro ⟨hlt, hi⟩
      by_cases hbelow : t.Below id i
      · exact .inl hbelow
      · exact .inr ⟨hlt, fun ha => hi ⟨ha, hbelow⟩⟩
  · exact ⟨depth, fun q c hc => hdepth q c (hedge q c hc).1⟩
  · intro q
    simp only [UiTree.listed, hslot]
    have hnodup := h.nodup q
    have hroom := h.room q
    split_ifs
    · cases t.nodes[q]? <;> simp
    · cases hn : t.nodes[q]? with
      | none => simp
      | some n =>
        rw [UiTree.listed, hn] at hnodup hroom
        exact (unlinkFrom_children hnodup).2.1.trans hroom
    · exact hroom
  · rw [hlength]
    exact h.ids

lemma remove_eq (h : t.WellFormed) (id : WidgetId) :
    (id ≠ 0 ∧ t.isAlive id = true ∧
      t.remove id = ((t.toRemove id).foldl kill (t.unlink id), true)) ∨
    ((id = 0 ∨ t.isAlive id = false) ∧ t.remove id = (t, false)) := by
  rw [remove, h.root_eq]
  by_cases hid : id = 0
  · exact .inr ⟨.inl hid, if_pos hid⟩
  · cases halive : t.isAlive id with
    | true => exact .inl ⟨hid, rfl, by simp [hid]⟩
    | false => exact .inr ⟨.inr rfl, by simp [hid]⟩

lemma WellFormed.remove (h : t.WellFormed) (id : WidgetId) : (t.remove id).1.WellFormed := by
  rcases remove_eq h id with ⟨hne, halive, heq⟩ | ⟨-, heq⟩
  · rw [heq]
    exact (removeResult h halive hne).wellFormed
  · rw [heq]
    exact h

/-! ### Runs -/

def aliveCount (t : UiTree κ) : Nat := t.nodes.countP (·.alive)

lemma WellFormed.hasId (h : t.WellFormed) (hcount : t.aliveCount ≤ 0xFFFF) : t.HasId := by
  intro hfree
  have hall : t.nodes.countP (·.alive) = t.nodes.length := by
    rw [List.countP_eq_length]
    intro n hn
    obtain ⟨i, hi, hget⟩ := List.mem_iff_getElem.mp hn
    by_contra hdead
    have hmem : i ∈ t.free := by
      refine (h.free_iff i).mpr ⟨hi, ?_⟩
      rw [isAlive_eq, List.getElem?_eq_getElem hi, hget]
      simpa using hdead
    rw [hfree] at hmem
    cases hmem
  rw [aliveCount, hall] at hcount
  omega

/-- The trees that additions and removals lead to, when no more than 65,535 widgets are alive at an
addition. -/
inductive Reachable : UiTree κ → Prop
  | new (rootWidget : Widget κ) : Reachable (.new rootWidget)
  | addChild {t : UiTree κ} (parent : WidgetId) (widget : Widget κ) (h : Reachable t)
      (hcount : t.aliveCount ≤ 0xFFFF) : Reachable (t.addChild parent widget).1
  | remove {t : UiTree κ} (id : WidgetId) (h : Reachable t) : Reachable (t.remove id).1

lemma Reachable.wellFormed (h : Reachable t) : t.WellFormed := by
  induction h with
  | new w => exact wellFormed_new w
  | addChild p w _ hcount ih => exact (addResult ih (ih.hasId hcount) p w).wellFormed
  | remove id _ ih => exact ih.remove id

/-- The occupied slots are one tree below slot 0, and the free list has each of the others once. -/
structure IsTree (t : UiTree κ) : Prop where
  root : t.isAlive 0 = true ∧ ∀ p, 0 ∉ t.listed p
  once : ∀ id, t.isAlive id = true → id ≠ 0 → ∃ p, t.isAlive p = true ∧ t.parent id = some p ∧
    (t.listed p).count id = 1 ∧ ∀ q, id ∈ t.listed q → q = p
  noDead : ∀ p c, c ∈ t.listed p → t.isAlive p = true ∧ t.isAlive c = true
  connected : ∀ id, t.isAlive id = true → t.Below 0 id
  free : ∀ id, t.free.count id = if id < t.nodes.length ∧ t.isAlive id = false then 1 else 0

lemma WellFormed.isTree (h : t.WellFormed) : t.IsTree where
  root := ⟨h.root_alive, fun p hp => (h.edge p 0 hp).2.2.2 rfl⟩
  once id halive hne := by
    obtain ⟨p, hp, hmem⟩ := h.hangs id halive hne
    exact ⟨p, (h.edge p id hmem).1, hp, List.count_eq_one_of_mem (h.nodup p) hmem,
      fun q hq => h.parent_unique hq hmem⟩
  noDead p c hc := ⟨(h.edge p c hc).1, (h.edge p c hc).2.1⟩
  connected id halive := h.below_root halive
  free id := by
    rw [h.free_nodup.count]
    simp only [h.free_iff]

/-- What the two operations do to a tree: an addition that fails changes nothing, and a removal takes
away the subtree of its argument. -/
structure Stepwise (t : UiTree κ) : Prop where
  refused : t.aliveCount ≤ 0xFFFF → ∀ parent widget, (t.addChild parent widget).2 = none →
    (t.isAlive parent = false ∨ (t.listed parent).length = maxChildren) ∧
      ∀ i, (t.addChild parent widget).1.isAlive i = t.isAlive i ∧
        (t.addChild parent widget).1.listed i = t.listed i
  removed : ∀ id, (t.remove id).2 = true → id ≠ 0 ∧ t.isAlive id = true ∧
    ∀ i, (t.remove id).1.isAlive i = true ↔ t.isAlive i = true ∧ ¬ t.Below id i
  kept : ∀ id, (t.remove id).2 = false →
    (id = 0 ∨ t.isAlive id = false) ∧ (t.remove id).1 = t

lemma WellFormed.stepwise (h : t.WellFormed) : t.Stepwise where
  refused hcount p w hnone := by
    obtain ⟨hwhy, halike⟩ := (addResult h (h.hasId hcount) p w).refused hnone
    exact ⟨hwhy, fun i => ⟨halike.alive i, halike.listed i⟩⟩
  removed id htrue := by
    rcases remove_eq h id with ⟨hne, halive, heq⟩ | ⟨-, heq⟩
    · rw [heq]
      exact ⟨hne, halive, (removeResult h halive hne).pruned.alive⟩
    · rw [heq] at htrue
      cases htrue
  kept id hfalse := by
    rcases remove_eq h id with ⟨-, -, heq⟩ | ⟨hwhy, heq⟩
    · rw [heq] at hfalse
      cases hfalse
    · rw [heq]
      exact ⟨hwhy, rfl⟩

/-- Every tree that is reached is a tree, and stays one stepwise. -/
theorem arena_tree (h : Reachable t) : t.IsTree ∧ t.Stepwise :=
  ⟨h.wellFormed.isTree, h.wellFormed.stepwise⟩

/-- A removed slot is used again. -/
theorem arena_tree_sample :
    let w : Widget Unit := ⟨{}, ()⟩
    let t := ((((UiTree.new w).addChild 0 w).1.remove 1).1.addChild 0 w).1
    t.IsTree ∧ t.Stepwise := by
  intro w t
  exact arena_tree (.addChild 0 w (.remove 1 (.addChild 0 w (.new w) (by decide))) (by decide))

end UiTree

end ThistleOS.Toolkit
