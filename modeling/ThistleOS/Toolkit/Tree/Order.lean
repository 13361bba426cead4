import ThistleOS.Component
import ThistleOS.Toolkit.Tree.Arena

/-!
# The order of siblings

A record of the additions whose widgets survive, in their order, next to the arena. The children of every
widget are to be those of the record. A removal puts the last child in the gap, so they are only as long as
each removal is of one of the last two children.
-/

namespace ThistleOS.Toolkit

namespace UiTree

variable {κ : Type}

inductive Edit (κ : Type)
  | addChild (parent : WidgetId) (widget : Widget κ)
  | remove (id : WidgetId)

def EditReply : Edit κ → Type
  | .addChild _ _ => Option WidgetId
  | .remove _ => Bool

def edit : (e : Edit κ) → UiTree κ → EditReply e × UiTree κ
  | .addChild parent widget, t => ((t.addChild parent widget).2, (t.addChild parent widget).1)
  | .remove id, t => ((t.remove id).2, (t.remove id).1)

def edits : Component (Edit κ) EditReply (UiTree κ) := ⟨edit⟩

/-- The parents and the children that were added to them, the oldest first. -/
abbrev Additions := List (WidgetId × WidgetId)

/-- The new widget, if there is one, is the last of its siblings. -/
def added : (e : Edit κ) → EditReply e → Additions → Additions
  | .addChild parent _, some id, l => l ++ [(parent, id)]
  | .addChild _ _, none, l => l
  | .remove _, _, l => l

def surviving (t : UiTree κ) (l : Additions) : Additions := l.filter fun a => t.isAlive a.2

/-- The arena next to the record. -/
def recorded : Component (Edit κ) EditReply (UiTree κ × Additions) where
  step e w :=
    let answer := edit e w.1
    (answer.1, (answer.2, answer.2.surviving (added e answer.1 w.2)))

def childrenOf (l : Additions) (p : WidgetId) : List WidgetId := (l.filter fun a => a.1 == p).map Prod.snd

/-- Every widget has its surviving children, in the order in which they were added. -/
structure Ordered (t : UiTree κ) (l : Additions) : Prop where
  children : ∀ p, t.children p = childrenOf l p
  parent : ∀ p, ∀ c ∈ t.children p, t.parent c = some p

/-- A widget that is removed is one of the last two children of its parent, and there is an id for a widget that is
added. -/
def KeepsOrder : Edit κ → UiTree κ → Prop
  | .addChild parent _, t => t.isAlive parent = true → t.HasId
  | .remove id, t =>
    ∀ p, t.parent id = some p → id ≠ t.root → (t.children p).length ≤ (t.children p).idxOf id + 2

/-! ### Lists -/

lemma swapRemove_append (a b : List WidgetId) (x y : WidgetId) :
    swapRemove (a ++ x :: (b ++ [y])) a.length = a ++ y :: b := by
  have hlast : (a ++ x :: (b ++ [y])).getLast? = some y := by
    rw [← List.cons_append, ← List.append_assoc, List.getLast?_concat]
  have hset : (a ++ x :: (b ++ [y])).set a.length y = (a ++ y :: b) ++ [y] := by simp
  rw [swapRemove, hlast]
  dsimp only
  rw [hset, List.dropLast_concat]

/-- The others stay in their order exactly if at most one of them comes later. -/
lemma swapRemove_eq_iff {a b : List WidgetId} {x : WidgetId} (hnodup : (a ++ x :: b).Nodup) :
    swapRemove (a ++ x :: b) a.length = a ++ b ↔ b.length ≤ 1 := by
  induction b using List.reverseRecOn with
  | nil => simp [swapRemove]
  | append_singleton b y _ =>
    rw [swapRemove_append, List.append_cancel_left_eq, List.length_append, List.length_singleton]
    cases b with
    | nil => simp
    | cons z b =>
      have hne : y ≠ z := by
        rintro rfl
        simp [List.nodup_append] at hnodup
      simp [hne]

section

variable {t : UiTree κ} {l : Additions} {p id c : WidgetId}

lemma mem_childrenOf : c ∈ childrenOf l p ↔ (p, c) ∈ l := by
  simp [childrenOf]

lemma childrenOf_append (l l' : Additions) (p : WidgetId) :
    childrenOf (l ++ l') p = childrenOf l p ++ childrenOf l' p := by
  rw [childrenOf, List.filter_append, List.map_append]
  rfl

lemma childrenOf_surviving (t : UiTree κ) (l : Additions) (p : WidgetId) :
    childrenOf (t.surviving l) p = (childrenOf l p).filter t.isAlive := by
  rw [childrenOf, surviving, childrenOf, List.filter_map, List.filter_filter, List.filter_filter]
  simp only [Function.comp_apply, Bool.and_comm]

/-! ### What an edit keeps -/

/-- What holds in a run as long as the order is kept. -/
structure Sorted (t : UiTree κ) (l : Additions) : Prop where
  wellFormed : t.WellFormed
  root : t.parent 0 = none
  ordered : Ordered t l

namespace Sorted

lemma ordered_of_children (h : t.WellFormed) (hchildren : ∀ p, t.children p = childrenOf l p) : Ordered t l where
  children := hchildren
  parent p c hc := by
    rw [h.children_eq] at hc
    exact (h.edge p c hc).2.2.1

lemma listed_eq (h : Sorted t l) (p : WidgetId) : t.listed p = childrenOf l p := by
  rw [← h.wellFormed.children_eq, h.ordered.children]

/-- All the additions of the record survive. -/
lemma surviving_eq (h : Sorted t l) : t.surviving l = l := by
  refine List.filter_eq_self.mpr ?_
  rintro ⟨p, c⟩ hmem
  have hc : c ∈ t.listed p := by rwa [h.listed_eq, mem_childrenOf]
  exact (h.wellFormed.edge p c hc).2.1

lemma start (rootWidget : Widget κ) : Sorted (.new rootWidget) [] where
  wellFormed := wellFormed_new rootWidget
  root := rfl
  ordered := by
    refine ordered_of_children (wellFormed_new rootWidget) fun p => ?_
    cases p <;> rfl

/-- A widget is added, or there is no room for it. -/
lemma addChild (h : Sorted t l) (hid : t.HasId) (p : WidgetId) (widget : Widget κ) :
    Sorted (recorded.next (.addChild p widget) (t, l)).1 (recorded.next (.addChild p widget) (t, l)).2 := by
  have hnext : recorded.next (.addChild p widget) (t, l) = ((t.addChild p widget).1,
      (t.addChild p widget).1.surviving (added (.addChild p widget) (t.addChild p widget).2 l)) := rfl
  have hr := addResult h.wellFormed hid p widget
  rw [hnext]
  cases hnew : (t.addChild p widget).2 with
  | none =>
    obtain ⟨-, halike⟩ := hr.refused hnew
    refine ⟨hr.wellFormed, (halike.parent 0).trans h.root, ordered_of_children hr.wellFormed fun q => ?_⟩
    have halive : (t.addChild p widget).1.isAlive = t.isAlive := funext halike.alive
    rw [childrenOf_surviving, halive, ← childrenOf_surviving]
    change _ = childrenOf (t.surviving l) q
    rw [h.surviving_eq, hr.wellFormed.children_eq, halike.listed, h.listed_eq]
  | some id =>
    obtain ⟨hp, -, hdead, hgrown, -⟩ := hr.added id hnew
    have hzero : 0 ≠ id := by
      rintro rfl
      rw [h.wellFormed.root_alive] at hdead
      cases hdead
    refine ⟨hr.wellFormed, ?_, ordered_of_children hr.wellFormed fun q => ?_⟩
    · rw [hgrown.parent, if_neg hzero, h.root]
    · have hall : ∀ c ∈ childrenOf (l ++ [(p, id)]) q, (t.addChild p widget).1.isAlive c = true := by
        intro c hc
        rw [mem_childrenOf, List.mem_append, List.mem_singleton] at hc
        rw [hgrown.alive]
        split_ifs with hcid
        · rfl
        · rcases hc with hc | hc
          · rw [← mem_childrenOf, ← h.listed_eq] at hc
            exact (h.wellFormed.edge q c hc).2.1
          · exact absurd (Prod.mk.inj hc).2 hcid
      rw [hr.wellFormed.children_eq, hgrown.listed, childrenOf_surviving]
      change _ = (childrenOf (l ++ [(p, id)]) q).filter _
      rw [List.filter_eq_self.mpr hall, childrenOf_append, ← h.listed_eq]
      by_cases hq : q = p
      · rw [if_pos hq, hq]
        simp [childrenOf]
      · rw [if_neg hq]
        simp [childrenOf, Ne.symm hq]

/-- The root has a child where another widget has one. -/
lemma exists_listed_root (h : Sorted t l) (hp : t.isAlive p = true) (hc : c ∈ t.listed p) : ∃ d, d ∈ t.listed 0 := by
  rcases Relation.ReflTransGen.cases_tail (h.wellFormed.below_root hp) with heq | ⟨d, -, hd⟩
  · exact ⟨c, heq ▸ hc⟩
  · exact ⟨d, hd⟩

/-- With no id left a new widget gets the id of the root, and takes its place or kills it. -/
lemma addChild_noId (h : Sorted t l) (hid : ¬ t.HasId) (hp : t.isAlive p = true) (widget : Widget κ) :
    ¬ Ordered (recorded.next (.addChild p widget) (t, l)).1 (recorded.next (.addChild p widget) (t, l)).2 := by
  rw [HasId, Classical.not_imp] at hid
  obtain ⟨hfree, hlen⟩ := hid
  have hlen : t.nodes.length = 0x10000 := Nat.le_antisymm h.wellFormed.ids (Nat.not_lt.mp hlen)
  have hnext : recorded.next (.addChild p widget) (t, l) = ((t.addChild p widget).1,
      (t.addChild p widget).1.surviving (added (.addChild p widget) (t.addChild p widget).2 l)) := rfl
  obtain ⟨node, hallocate⟩ : ∃ node, t.allocate p widget = ({ t with nodes := t.nodes ++ [node] }, 0) := by
    rw [allocate, hfree]
    dsimp only
    rw [hlen]
    exact ⟨_, rfl⟩
  have hplt := hlen ▸ lt_of_isAlive hp
  have hslot : ∀ i, i < 0x10000 → (t.nodes ++ [node])[i]? = t.nodes[i]? := fun i hi =>
    List.getElem?_append_left (hlen ▸ hi)
  rw [hnext, UiTree.addChild, if_pos hp, hallocate]
  dsimp only
  rw [attach]
  split_ifs with hroom
  · -- the root is a child, but names no parent
    intro hordered
    obtain ⟨n, hn, halive⟩ := isAlive_iff.mp hp
    have hmem : 0 ∈ (modifyNode { t with nodes := t.nodes ++ [node] } p fun n =>
        { n with children := n.children ++ [0] }).children p := by
      rw [children, aliveNode, nodes_modifyNode, getElem?_modify_eq, if_pos rfl, hslot p hplt, hn, Option.map_some,
        Option.filter_some, if_pos halive]
      exact List.mem_concat_self
    have hparent := hordered.parent p 0 hmem
    rw [parent_eq, nodes_modifyNode, getElem?_modify_eq, hslot 0 (by decide)] at hparent
    have hroot := h.root
    rw [parent_eq] at hroot
    split_ifs at hparent
    · cases hzero : t.nodes[0]? with
      | none => simp [hzero] at hparent
      | some n =>
        cases halive : n.alive
        · simp [hzero, halive, Option.filter] at hparent
        · simp [hzero, halive, Option.filter] at hparent hroot
          simp [hroot] at hparent
    · rw [hroot] at hparent
      cases hparent
  · -- the root is dead, but its children survive
    intro hordered
    have hchildren : (children { t with nodes := t.nodes ++ [node] } p) = t.listed p := by
      rw [← children_of_isAlive hp, children, children, aliveNode, aliveNode, hslot p hplt]
    rw [hchildren] at hroom
    obtain ⟨c, hc⟩ : ∃ c, c ∈ t.listed p := by
      rw [← List.length_pos_iff_exists_mem]
      exact Nat.lt_of_lt_of_le (by decide) (Nat.not_lt.mp hroom)
    obtain ⟨d, hd⟩ := h.exists_listed_root hp hc
    obtain ⟨-, hdalive, -, hdne⟩ := h.wellFormed.edge 0 d hd
    have hall := hordered.children 0
    have hdead : (children { modifyNode { t with nodes := t.nodes ++ [node] } 0 fun n =>
        { n with alive := false } with free := 0 :: t.free } 0) = [] := by
      refine children_eq_nil ?_
      rw [isAlive_eq]
      simp
    rw [hdead, childrenOf_surviving] at hall
    have hmem := List.filter_eq_nil_iff.mp hall.symm d (h.listed_eq 0 ▸ hd)
    refine hmem ?_
    rw [isAlive_eq] at hdalive ⊢
    change (((t.nodes ++ [node]).modify 0 _)[d]?).any _ = true
    rw [getElem?_modify_eq, if_neg hdne, hslot d (hlen ▸ lt_of_isAlive (h.wellFormed.edge 0 d hd).2.1)]
    exact hdalive

/-! A removal. -/

lemma idxOf?_of_mem {children : List WidgetId} (h : id ∈ children) :
    children.idxOf? id = some (children.idxOf id) := by
  obtain ⟨a, b, rfl, hnotMem⟩ := List.eq_append_cons_of_mem h
  rw [List.idxOf?_eq_some_iff, List.idxOf_append, if_neg hnotMem, List.idxOf_cons_self, Nat.zero_add]
  refine ⟨by simp, by simp, fun j hj hget => hnotMem ?_⟩
  rw [List.getElem_append_left hj] at hget
  exact hget ▸ List.getElem_mem hj

lemma listed_remove (h : t.WellFormed) (halive : t.isAlive id = true) (hne : id ≠ 0) (hp : t.parent id = some p)
    (q : WidgetId) : (t.remove id).1.listed q =
      if q ∈ t.toRemove id then []
      else if q = p then swapRemove (t.listed p) ((t.listed p).idxOf id) else t.listed q := by
  rcases remove_eq h id with ⟨-, -, heq⟩ | ⟨hwhy, -⟩
  · obtain ⟨p', hp', hmem⟩ := h.hangs id halive hne
    obtain rfl : p = p' := Option.some.inj (hp.symm.trans hp')
    have hunlink : t.unlink id = t.modifyNode p (unlinkFrom id) := by rw [unlink, hp]
    have hslot := (foldl_kill (t.toRemove id) (t.unlink id)).2.2.2.2 q
    rw [heq, listed, hslot, hunlink, nodes_modifyNode, getElem?_modify_eq]
    by_cases hq : q ∈ t.toRemove id
    · rw [if_pos hq, if_pos hq]
      cases (if q = p then (t.nodes[q]?).map (unlinkFrom id) else t.nodes[q]?) <;> rfl
    · rw [if_neg hq, if_neg hq]
      by_cases hqp : q = p
      · subst hqp
        rw [if_pos rfl, if_pos rfl]
        rw [listed] at hmem ⊢
        cases hn : t.nodes[q]? with
        | none => simp [hn] at hmem
        | some n =>
          simp only [hn, Option.elim_some] at hmem
          simp only [Option.map_some, Option.elim_some]
          rw [unlinkFrom, idxOf?_of_mem hmem]
      · rw [if_neg hqp, if_neg hqp]
        rfl
  · rcases hwhy with rfl | hdead
    · exact absurd rfl hne
    · rw [halive] at hdead
      cases hdead

lemma parent_remove_root (h : Sorted t l) (id : WidgetId) : (t.remove id).1.parent 0 = none := by
  rcases remove_eq h.wellFormed id with ⟨hne, halive, heq⟩ | ⟨-, heq⟩
  · have hr := removeResult h.wellFormed halive hne
    rw [heq, hr.pruned.parent, h.root]
    intro hbelow
    rcases Relation.ReflTransGen.cases_head hbelow with hzero | ⟨q, hq, -⟩
    · exact hne hzero.symm
    · exact (h.wellFormed.edge q 0 hq).2.2.2 rfl
  · rw [heq, h.root]

/-- The children of the record that a removal leaves. -/
lemma filter_alive_remove (h : Sorted t l) (halive : t.isAlive id = true) (hne : id ≠ 0) (q : WidgetId) :
    (t.listed q).filter (t.remove id).1.isAlive =
      if q ∈ t.toRemove id then [] else (t.listed q).filter fun c => c ≠ id := by
  rcases remove_eq h.wellFormed id with ⟨-, -, heq⟩ | ⟨hwhy, -⟩
  · have hr := removeResult h.wellFormed halive hne
    rw [heq]
    split_ifs with hq
    · rw [h.wellFormed.mem_toRemove halive] at hq
      refine List.filter_eq_nil_iff.mpr fun c hc hc' => ?_
      exact ((hr.pruned.alive c).mp hc').2 (hq.head hc)
    · rw [h.wellFormed.mem_toRemove halive] at hq
      refine List.filter_congr fun c hc => ?_
      rw [Bool.eq_iff_iff, hr.pruned.alive, decide_eq_true_iff]
      constructor
      · rintro ⟨-, hout⟩ rfl
        exact hout .refl
      · intro hcne
        refine ⟨(h.wellFormed.edge q c hc).2.1, fun hbelow => ?_⟩
        rcases Relation.ReflTransGen.cases_head hbelow with hid | ⟨q', hq', hbelow'⟩
        · exact hcne hid
        · exact hq (h.wellFormed.parent_unique hc hq' ▸ hbelow')
  · rcases hwhy with rfl | hdead
    · exact absurd rfl hne
    · rw [halive] at hdead
      cases hdead

lemma remove_iff (h : Sorted t l) (id : WidgetId) :
    (Ordered (recorded.next (.remove id) (t, l)).1 (recorded.next (.remove id) (t, l)).2 ↔
      KeepsOrder (.remove id) t) ∧
    (Ordered (recorded.next (.remove id) (t, l)).1 (recorded.next (.remove id) (t, l)).2 →
      Sorted (recorded.next (.remove id) (t, l)).1 (recorded.next (.remove id) (t, l)).2) := by
  have hnext : recorded.next (.remove id) (t, l) = ((t.remove id).1, (t.remove id).1.surviving l) := rfl
  have hwf := h.wellFormed.remove id
  rw [hnext]
  refine ⟨?_, fun hordered => ⟨hwf, h.parent_remove_root id, hordered⟩⟩
  rcases remove_eq h.wellFormed id with ⟨hne, halive, -⟩ | ⟨hwhy, heq⟩
  · obtain ⟨p, hp, hmem⟩ := h.wellFormed.hangs id halive hne
    have hout : p ∉ t.toRemove id := by
      rw [h.wellFormed.mem_toRemove halive]
      intro hbelow
      obtain ⟨depth, hdepth⟩ := h.wellFormed.acyclic
      exact absurd (WellFormed.depth_le_of_below hdepth hbelow) (Nat.not_le.mpr (hdepth p id hmem))
    obtain ⟨a, b, hsplit, hnotMem⟩ := List.eq_append_cons_of_mem hmem
    have hidx : (t.listed p).idxOf id = a.length := by
      rw [hsplit, List.idxOf_append, if_neg hnotMem, List.idxOf_cons_self, Nat.zero_add]
    have hnodup := h.wellFormed.nodup p
    rw [hsplit] at hnodup
    have hfilter : (a ++ id :: b).filter (fun c => c ≠ id) = a ++ b := by
      have hb := (List.nodup_cons.mp (List.nodup_append.mp hnodup).2.1).1
      rw [List.filter_append, List.filter_cons_of_neg (by simp), ← List.filter_append, List.filter_eq_self]
      intro c hc
      rw [decide_eq_true_iff]
      rintro rfl
      exact (List.mem_append.mp hc).elim hnotMem hb
    have hkeeps : KeepsOrder (.remove id) t ↔ b.length ≤ 1 := by
      rw [KeepsOrder, h.wellFormed.root_eq]
      constructor
      · intro hall
        have hle := hall p hp hne
        rw [h.wellFormed.children_eq, hidx, hsplit, List.length_append, List.length_cons] at hle
        omega
      · intro hle q hq _
        obtain rfl := Option.some.inj (hp.symm.trans hq)
        rw [h.wellFormed.children_eq, hidx, hsplit, List.length_append, List.length_cons]
        omega
    have hlisted := listed_remove h.wellFormed halive hne hp
    have hrecord : ∀ q, childrenOf ((t.remove id).1.surviving l) q =
        if q ∈ t.toRemove id then [] else (t.listed q).filter fun c => c ≠ id := fun q => by
      rw [childrenOf_surviving, ← h.listed_eq, h.filter_alive_remove halive hne]
    rw [hkeeps, ← swapRemove_eq_iff hnodup, ← hidx, ← hsplit]
    constructor
    · intro hordered
      have hchildren := hordered.children p
      rwa [hwf.children_eq, hlisted, if_neg hout, if_pos rfl, hrecord, if_neg hout, hsplit, hfilter, ← hsplit]
        at hchildren
    · intro hswap
      refine ordered_of_children hwf fun q => ?_
      rw [hwf.children_eq, hlisted, hrecord]
      split_ifs with hq hqp
      · rfl
      · rw [hqp, hswap, hsplit, hfilter]
      · refine (List.filter_eq_self.mpr fun c hc => ?_).symm
        rw [decide_eq_true_iff]
        rintro rfl
        exact hqp (h.wellFormed.parent_unique hc hmem)
  · rw [heq, h.surviving_eq]
    refine iff_of_true h.ordered fun p hp hroot => ?_
    rcases hwhy with rfl | hdead
    · exact absurd h.wellFormed.root_eq.symm hroot
    · rw [parent, aliveNode_eq_none hdead] at hp
      cases hp

lemma next_iff (h : Sorted t l) (e : Edit κ) :
    (Ordered (recorded.next e (t, l)).1 (recorded.next e (t, l)).2 ↔ KeepsOrder e t) ∧
    (Ordered (recorded.next e (t, l)).1 (recorded.next e (t, l)).2 →
      Sorted (recorded.next e (t, l)).1 (recorded.next e (t, l)).2) := by
  cases e with
  | addChild p widget =>
    by_cases hp : t.isAlive p = true
    · by_cases hid : t.HasId
      · have hsorted := h.addChild hid p widget
        exact ⟨iff_of_true hsorted.ordered fun _ => hid, fun _ => hsorted⟩
      · have hnot := h.addChild_noId hid hp widget
        exact ⟨iff_of_false hnot fun hkeep => hid (hkeep hp), fun hordered => absurd hordered hnot⟩
    · have hrefused : t.addChild p widget = (t, none) := by rw [UiTree.addChild, if_neg hp]
      have hnext : recorded.next (.addChild p widget) (t, l) = ((t.addChild p widget).1,
          (t.addChild p widget).1.surviving (added (.addChild p widget) (t.addChild p widget).2 l)) := rfl
      rw [hnext, hrefused]
      change (Ordered t (t.surviving l) ↔ _) ∧ (Ordered t (t.surviving l) → Sorted t (t.surviving l))
      rw [h.surviving_eq]
      exact ⟨iff_of_true h.ordered fun halive => absurd halive hp, fun _ => h⟩
  | remove id => exact h.remove_iff id

end Sorted

end

/-! ### Runs -/

/-- In a run of additions and removals the children of every widget are always the surviving ones in the order
of their addition exactly if every removal is of one of the last two children and no addition is without an id. -/
theorem ordered_along_iff (rootWidget : Widget κ) (es : List (Edit κ)) :
    recorded.Along (fun e w => Ordered (recorded.next e w).1 (recorded.next e w).2) (new rootWidget, []) es ↔
      edits.Along KeepsOrder (new rootWidget) es := by
  have hiff : recorded.Along (fun e w => Ordered (recorded.next e w).1 (recorded.next e w).2)
      (new rootWidget, []) es ↔ recorded.Along (fun e w => KeepsOrder e w.1) (new rootWidget, []) es :=
    Component.along_iff (I := fun w : UiTree κ × Additions => Sorted w.1 w.2)
      (fun e w h => (h.next_iff e).1)
      (fun e w h hkeep => (h.next_iff e).2 ((h.next_iff e).1.mpr hkeep)) (Sorted.start rootWidget)
  exact hiff.trans (Component.along_map (f := Prod.fst) fun _ _ => rfl)

/-- The first of three widgets is removed. -/
theorem first_of_three_not_ordered :
    let w : Widget Unit := ⟨{}, ()⟩
    ¬ recorded.Along (fun e w => Ordered (recorded.next e w).1 (recorded.next e w).2) (new w, [])
      [.addChild 0 w, .addChild 0 w, .addChild 0 w, .remove 1] := by
  intro w h
  have hordered := h [.addChild 0 w, .addChild 0 w, .addChild 0 w] (.remove 1) [] rfl
  exact absurd (hordered.children 0) (by decide)

end UiTree

end ThistleOS.Toolkit
