import ThistleOS.Toolkit.Tree.Arena

/-!
# Handles

A handle is the number of a slot. What a handle that has been removed is good for depends on whether
its slot is used again; the focus is one more handle.
-/

namespace ThistleOS.Toolkit

namespace UiTree

variable {κ : Type} {t t' : UiTree κ} {id i : WidgetId} {focused : Bool}

/-! ### The focus -/

/-- The focus is on an occupied slot, and the flags of the widgets say which. -/
structure FocusOk (t : UiTree κ) : Prop where
  alive : ∀ id, t.focus = some id → t.isAlive id = true
  flag : ∀ id w, t.get id = some w → (w.common.focused = true ↔ t.focus = some id)

/-- One widget's flag has been set. -/
structure Flagged (t t' : UiTree κ) (id : WidgetId) (focused : Bool) : Prop
    extends SameShape t t' where
  root : t'.root = t.root
  free : t'.free = t.free
  length : t'.nodes.length = t.nodes.length
  get : ∀ i w', t'.get i = some w' → ∃ w, t.get i = some w ∧
    w'.common.focused = if i = id then focused else w.common.focused

lemma flagged_setFocused (t : UiTree κ) (id : WidgetId) (focused : Bool) :
    Flagged t (t.setFocused id focused) id focused := by
  rw [setFocused, getMut]
  split
  · rw [Option.getD_some, modifyNode]
    have hslot : ∀ i, (t.nodes.modify id fun n => { n with widget := n.widget.mapCommon fun c =>
        { c with focused := focused, dirty := true } })[i]? =
        if i = id then (t.nodes[i]?).map fun n => { n with widget := n.widget.mapCommon fun c =>
          { c with focused := focused, dirty := true } } else t.nodes[i]? :=
      fun i => getElem?_modify_eq _ _ _ _
    refine ⟨⟨fun i => ?_, fun q => ?_, fun c => ?_⟩, rfl, rfl, List.length_modify _ _ _, ?_⟩
    · rw [isAlive_eq, isAlive_eq, hslot]
      split_ifs
      · rw [Option.any_map]
      · rfl
    · simp only [listed, hslot]
      split_ifs
      · cases t.nodes[q]? <;> rfl
      · rfl
    · rw [parent_eq, parent_eq, hslot]
      split_ifs
      · cases t.nodes[c]? with
        | none => rfl
        | some n => cases hn : n.alive <;> simp [Option.filter, hn]
      · rfl
    · intro i w' hw'
      rw [get_eq, hslot] at hw'
      rw [get_eq]
      split_ifs at hw' ⊢ with hi
      · cases hn : t.nodes[i]? with
        | none => simp [hn] at hw'
        | some n =>
          cases halive : n.alive with
          | false => simp [hn, Option.filter, halive] at hw'
          | true =>
            simp only [hn, Option.map_some, Option.filter, halive, if_true, Option.some.injEq] at hw' ⊢
            exact ⟨n.widget, rfl, by rw [← hw']; rfl⟩
      · exact ⟨w', hw', rfl⟩
  · rename_i hdead
    refine ⟨⟨fun _ => rfl, fun _ => rfl, fun _ => rfl⟩, rfl, rfl, rfl, fun i w' hw' => ⟨w', hw', ?_⟩⟩
    have hi : i ≠ id := by
      rintro rfl
      rw [get, Option.getD_none, aliveNode_eq_none (by simpa using hdead)] at hw'
      cases hw'
    rw [if_neg hi]

lemma SameShape.trans {t'' : UiTree κ} (h : SameShape t t') (h' : SameShape t' t'') :
    SameShape t t'' where
  alive i := (h'.alive i).trans (h.alive i)
  listed q := (h'.listed q).trans (h.listed q)
  parent c := (h'.parent c).trans (h.parent c)

/-- What setting the focus comes to. -/
structure FocusResult (t t' : UiTree κ) (id : Option WidgetId) : Prop extends SameShape t t' where
  root : t'.root = t.root
  free : t'.free = t.free
  length : t'.nodes.length = t.nodes.length
  focus : t'.focus = id
  get : ∀ i w', t'.get i = some w' → ∃ w, t.get i = some w ∧
    w'.common.focused = if id = some i then true else if t.focus = some i then false
      else w.common.focused

/-- The flag of the old widget is cleared. -/
structure Blurred (t t' : UiTree κ) : Prop extends SameShape t t' where
  root : t'.root = t.root
  free : t'.free = t.free
  length : t'.nodes.length = t.nodes.length
  get : ∀ i w', t'.get i = some w' → ∃ w, t.get i = some w ∧
    w'.common.focused = if t.focus = some i then false else w.common.focused

lemma blurred (t : UiTree κ) : Blurred t t.blur := by
  rw [blur]
  cases hfocus : t.focus with
  | none =>
    exact ⟨⟨fun _ => rfl, fun _ => rfl, fun _ => rfl⟩, rfl, rfl, rfl,
      fun i w' hw' => ⟨w', hw', by simp [hfocus]⟩⟩
  | some old =>
    have hf := flagged_setFocused t old false
    refine ⟨hf.toSameShape, hf.root, hf.free, hf.length, fun i w' hw' => ?_⟩
    obtain ⟨w, hw, hflag⟩ := hf.get i w' hw'
    exact ⟨w, hw, by rw [hflag]; simp [hfocus, eq_comm]⟩

lemma focusResult (t : UiTree κ) (id : Option WidgetId) : FocusResult t (t.setFocus id) id := by
  have hb := blurred t
  cases id with
  | none =>
    refine ⟨⟨hb.alive, hb.listed, hb.parent⟩, hb.root, hb.free, hb.length, rfl, ?_⟩
    intro i w' hw'
    obtain ⟨w, hw, hflag⟩ := hb.get i w' hw'
    exact ⟨w, hw, by simpa using hflag⟩
  | some new =>
    have hf := flagged_setFocused t.blur new true
    have hshape := hb.toSameShape.trans hf.toSameShape
    refine ⟨⟨hshape.alive, hshape.listed, hshape.parent⟩, hf.root.trans hb.root,
      hf.free.trans hb.free, hf.length.trans hb.length, rfl, ?_⟩
    intro i w' hw'
    obtain ⟨w₁, hw₁, hflag₁⟩ := hf.get i w' hw'
    obtain ⟨w, hw, hflag⟩ := hb.get i w₁ hw₁
    exact ⟨w, hw, by rw [hflag₁, hflag]; simp [eq_comm]⟩

lemma WellFormed.setFocus (h : t.WellFormed) (id : Option WidgetId) :
    (t.setFocus id).WellFormed := by
  have hr := focusResult t id
  refine h.of_sameShape hr.toSameShape hr.root ?_ (fun i => ?_) ?_
  · rw [hr.free]
    exact h.free_nodup
  · rw [hr.free, hr.length, hr.alive]
    exact h.free_iff i
  · rw [hr.length]
    exact h.ids

lemma isAlive_of_get {w : Widget κ} (h : t.get id = some w) : t.isAlive id = true := by
  rw [get] at h
  cases hn : t.aliveNode id with
  | none =>
    rw [hn] at h
    cases h
  | some n => rw [isAlive, hn, Option.isSome_some]

/-! ### Sessions -/

inductive Op (κ : Type)
  | addChild (parent : WidgetId) (widget : Widget κ)
  | remove (id : WidgetId)
  | setFocus (id : Option WidgetId)

/-- A tree with the handles whose widgets have been removed. -/
structure Session (κ : Type) where
  tree : UiTree κ
  gone : List WidgetId

namespace Session

variable {s : Session κ}

def start (rootWidget : Widget κ) : Session κ := ⟨.new rootWidget, []⟩

def step (s : Session κ) : Op κ → Session κ
  | .addChild parent widget => { s with tree := (s.tree.addChild parent widget).1 }
  | .remove id =>
    { tree := (s.tree.remove id).1
      gone := if (s.tree.remove id).2 then s.tree.toRemove id ++ s.gone else s.gone }
  | .setFocus id => { s with tree := s.tree.setFocus id }

def run (s : Session κ) (ops : List (Op κ)) : Session κ := ops.foldl step s

/-- No accessor and no operation takes the handle. -/
structure Rejected (t : UiTree κ) (id : WidgetId) : Prop where
  get : t.get id = none
  getMut : ∀ f, t.getMut id f = none
  children : t.children id = []
  addChild : ∀ widget, t.addChild id widget = (t, none)
  remove : t.remove id = (t, false)

/-- The handles that are gone are of no use, and the focus is right. -/
structure Safe (s : Session κ) : Prop where
  stale : ∀ id ∈ s.gone, Rejected s.tree id
  focus : s.tree.FocusOk

/-- Widgets are added without the flag. -/
def Unfocused : Op κ → Prop
  | .addChild _ widget => widget.common.focused = false
  | _ => True

/-- The step does not use the slot of a removed widget again, and a focus that it sets is on an
occupied slot. There is an id left for a new slot. -/
def Careful (s : Session κ) : Op κ → Prop
  | .addChild parent _ => s.tree.HasId ∧
    (s.tree.isAlive parent = true → (s.tree.children parent).length < maxChildren →
      ∀ id, s.tree.free.head? = some id → id ∉ s.gone)
  | .remove _ => True
  | .setFocus id => ∀ new, id = some new → s.tree.isAlive new = true

def AllCareful : Session κ → List (Op κ) → Prop
  | _, [] => True
  | s, op :: ops => Unfocused op ∧ Careful s op ∧ AllCareful (s.step op) ops

lemma rejected_iff : Rejected t id ↔ t.isAlive id = false := by
  constructor
  · intro h
    have hget := h.get
    rw [get] at hget
    rw [isAlive, Option.isSome_eq_false_iff, Option.isNone_iff_eq_none]
    exact Option.map_eq_none_iff.mp hget
  · intro h
    refine ⟨?_, fun f => ?_, children_eq_nil h, fun w => ?_, ?_⟩
    · rw [get, aliveNode_eq_none h, Option.map_none]
    · rw [getMut, h, if_neg Bool.false_ne_true]
    · rw [UiTree.addChild, h, if_neg Bool.false_ne_true]
    · rw [UiTree.remove, h]
      simp

/-- What every step keeps. -/
structure Inv (s : Session κ) : Prop where
  wellFormed : s.tree.WellFormed
  gone : ∀ id ∈ s.gone, id < s.tree.nodes.length ∧ s.tree.isAlive id = false
  focus : s.tree.FocusOk

lemma Inv.safe (h : Inv s) : Safe s where
  stale id hid := rejected_iff.mpr (h.gone id hid).2
  focus := h.focus

lemma inv_start {rootWidget : Widget κ} (h : rootWidget.common.focused = false) :
    Inv (start rootWidget) where
  wellFormed := wellFormed_new rootWidget
  gone id hid := absurd hid List.not_mem_nil
  focus := by
    refine ⟨fun id hid => ?_, fun id w hw => ?_⟩
    · cases hid
    · have hzero : w = rootWidget := by
        rcases id with _ | id
        · exact (Option.some.inj hw).symm
        · cases hw
      rw [hzero, h]
      simp [start, UiTree.new]

/-- A new widget is in the slot that was removed last, or in a new one. -/
lemma added_slot {parent new : WidgetId} {widget : Widget κ} (hid : t.HasId)
    (hnew : (t.addChild parent widget).2 = some new) :
    t.free.head? = some new ∨ t.free = [] ∧ new = t.nodes.length := by
  rw [UiTree.addChild] at hnew
  split at hnew
  · rw [allocate] at hnew
    cases hfree : t.free with
    | nil =>
      rw [hfree] at hnew
      dsimp only at hnew
      rw [attach, Nat.mod_eq_of_lt (hid hfree)] at hnew
      split at hnew
      · exact .inr ⟨rfl, (Option.some.inj hnew).symm⟩
      · cases hnew
    | cons freeId free =>
      rw [hfree] at hnew
      dsimp only at hnew
      rw [attach] at hnew
      split at hnew
      · exact .inl hnew
      · cases hnew
  · cases hnew

lemma Inv.addChild (h : Inv s) {parent : WidgetId} {widget : Widget κ}
    (hunf : widget.common.focused = false) (hcare : Careful s (.addChild parent widget)) :
    Inv (s.step (.addChild parent widget)) := by
  obtain ⟨hid, hfresh⟩ := hcare
  have hr := addResult h.wellFormed hid parent widget
  refine ⟨hr.wellFormed, fun id hgone => ?_, ?_⟩
  · obtain ⟨hlt, hdead⟩ := h.gone id hgone
    refine ⟨hlt.trans_le hr.length, ?_⟩
    change (s.tree.addChild parent widget).1.isAlive id = false
    cases hnew : (s.tree.addChild parent widget).2 with
    | none => rw [(hr.refused hnew).2.alive, hdead]
    | some new =>
      obtain ⟨hp, hroom, -, hg, -⟩ := hr.added new hnew
      have hne : id ≠ new := by
        rintro rfl
        rw [← h.wellFormed.children_eq] at hroom
        rcases added_slot hid hnew with hfree | ⟨-, hlen⟩
        · exact hfresh hp hroom id hfree hgone
        · exact absurd hlt (hlen ▸ Nat.lt_irrefl _)
      rw [hg.alive, if_neg hne, hdead]
  · cases hnew : (s.tree.addChild parent widget).2 with
    | none =>
      obtain ⟨-, halike⟩ := hr.refused hnew
      refine ⟨fun id hfocus => ?_, fun id w hw => ?_⟩
      · change (s.tree.addChild parent widget).1.isAlive id = true
        rw [halike.alive]
        exact h.focus.alive id (hr.focus ▸ hfocus)
      · change (s.tree.addChild parent widget).1.get id = some w at hw
        rw [halike.get] at hw
        exact (h.focus.flag id w hw).trans (by rw [← hr.focus]; rfl)
    | some new =>
      obtain ⟨-, -, hdead, hg, hflag⟩ := hr.added new hnew
      have hnofocus : s.tree.focus ≠ some new := by
        intro hfocus
        rw [h.focus.alive new hfocus] at hdead
        cases hdead
      refine ⟨fun id hfocus => ?_, fun id w hw => ?_⟩
      · change (s.tree.addChild parent widget).1.isAlive id = true
        rw [hg.alive]
        split_ifs
        · rfl
        · exact h.focus.alive id (hr.focus ▸ hfocus)
      · change (s.tree.addChild parent widget).1.get id = some w at hw
        change _ ↔ (s.tree.addChild parent widget).1.focus = some id
        rw [hr.focus]
        by_cases heq : id = new
        · subst heq
          rw [hflag w hw, hunf]
          simp [hnofocus]
        · rw [hg.get id heq] at hw
          exact h.focus.flag id w hw

lemma Inv.remove (h : Inv s) (id : WidgetId) : Inv (s.step (.remove id)) := by
  rcases remove_eq h.wellFormed id with ⟨hne, halive, heq⟩ | ⟨-, heq⟩
  · have hr := removeResult h.wellFormed halive hne
    have hmem : ∀ i, i ∈ s.tree.toRemove id ↔ s.tree.Below id i := fun i =>
      h.wellFormed.mem_toRemove halive
    rw [step, heq]
    dsimp only
    rw [if_pos rfl]
    refine ⟨hr.wellFormed, fun i hi => ?_, fun i hfocus => ?_, fun i w hw => ?_⟩
    · rw [hr.length]
      rw [List.mem_append] at hi
      rcases hi with hi | hi
      · have hbelow := (hmem i).mp hi
        refine ⟨lt_of_isAlive (h.wellFormed.isAlive_of_below halive hbelow), ?_⟩
        rw [← Bool.not_eq_true, hr.pruned.alive]
        exact fun hi' => hi'.2 hbelow
      · obtain ⟨hlt, hdead⟩ := h.gone i hi
        refine ⟨hlt, ?_⟩
        rw [← Bool.not_eq_true, hr.pruned.alive, hdead]
        simp
    · rw [hr.focus] at hfocus
      split_ifs at hfocus with hin
      rw [hfocus, Option.any_some, List.contains_iff_mem, hmem] at hin
      exact (hr.pruned.alive i).mpr ⟨h.focus.alive i hfocus, hin⟩
    · have halive' := (hr.pruned.alive i).mp (isAlive_of_get hw)
      rw [hr.pruned.get i halive'.2] at hw
      rw [h.focus.flag i w hw, hr.focus]
      constructor
      · intro hfocus
        have hout : ¬ (s.tree.toRemove id).contains i = true := by
          rw [List.contains_iff_mem, hmem]
          exact halive'.2
        rw [hfocus, Option.any_some, if_neg hout]
      · intro hfocus
        split_ifs at hfocus
        exact hfocus
  · rw [step, heq]
    exact h

lemma Inv.setFocus (h : Inv s) {id : Option WidgetId} (hcare : Careful s (.setFocus id)) :
    Inv (s.step (.setFocus id)) := by
  have hr := focusResult s.tree id
  refine ⟨h.wellFormed.setFocus id, fun i hi => ?_, fun i hfocus => ?_, fun i w' hw' => ?_⟩
  · obtain ⟨hlt, hdead⟩ := h.gone i hi
    exact ⟨hr.length ▸ hlt, (hr.alive i).trans hdead⟩
  · rw [step, hr.focus] at hfocus
    exact (hr.alive i).trans (hcare i hfocus)
  · obtain ⟨w, hw, hflag⟩ := hr.get i w' hw'
    change _ ↔ (s.tree.setFocus id).focus = some i
    rw [hr.focus, hflag]
    by_cases hid : id = some i
    · simp [hid]
    · by_cases hold : s.tree.focus = some i
      · simp [hid, hold]
      · rw [if_neg hid, if_neg hold, h.focus.flag i w hw]
        simp [hid, hold]

lemma Inv.step (h : Inv s) {op : Op κ} (hunf : Unfocused op) (hcare : Careful s op) :
    Inv (s.step op) := by
  cases op with
  | addChild parent widget => exact h.addChild hunf hcare
  | remove id => exact h.remove id
  | setFocus id => exact h.setFocus hcare

lemma Inv.run (h : Inv s) {ops : List (Op κ)} (hall : AllCareful s ops) : Inv (s.run ops) := by
  induction ops generalizing s with
  | nil => exact h
  | cons op ops ih =>
    obtain ⟨hunf, hcare, hrest⟩ := hall
    exact ih (h.step hunf hcare) hrest

lemma AllCareful.of_append {ops ops' : List (Op κ)} (hall : AllCareful s (ops ++ ops')) :
    AllCareful s ops := by
  induction ops generalizing s with
  | nil => trivial
  | cons op ops ih => exact ⟨hall.1, hall.2.1, ih hall.2.2⟩

/-- A step after which the session is safe was a careful one. -/
lemma careful_of_safe (h : Inv s) {op : Op κ} (hid : s.tree.HasId) (hsafe : Safe (s.step op)) :
    Careful s op := by
  cases op with
  | addChild parent widget =>
    refine ⟨hid, fun hp hroom id hfree hgone => ?_⟩
    have hr := addResult h.wellFormed hid parent widget
    cases hnew : (s.tree.addChild parent widget).2 with
    | none =>
      rcases (hr.refused hnew).1 with hdead | hfull
      · rw [hp] at hdead
        cases hdead
      · rw [h.wellFormed.children_eq, hfull] at hroom
        exact absurd hroom (Nat.lt_irrefl _)
    | some new =>
      have hsame : new = id := by
        rcases added_slot hid hnew with hfree' | ⟨hnil, -⟩
        · exact Option.some.inj (hfree'.symm.trans hfree)
        · rw [hnil] at hfree
          cases hfree
      obtain ⟨-, -, -, hg, -⟩ := hr.added new hnew
      have hdead := rejected_iff.mp (hsafe.stale id hgone)
      change (s.tree.addChild parent widget).1.isAlive id = false at hdead
      rw [hg.alive, if_pos hsame.symm] at hdead
      cases hdead
  | remove id => trivial
  | setFocus id =>
    intro new hnew
    have hr := focusResult s.tree id
    rw [← hr.alive]
    exact hsafe.focus.alive new (hr.focus.trans hnew)

/-- In a run of careful steps the handles of removed widgets stay rejected and the focus stays right;
and only a careful step leaves such a state so. -/
theorem handles_safe {rootWidget : Widget κ} (hroot : rootWidget.common.focused = false)
    {ops : List (Op κ)} (hall : AllCareful (start rootWidget) ops) :
    (∀ pre, pre <+: ops → Safe ((start rootWidget).run pre)) ∧
      ∀ op, ((start rootWidget).run ops).tree.HasId → Unfocused op →
        (Safe (((start rootWidget).run ops).step op) ↔ Careful ((start rootWidget).run ops) op) := by
  refine ⟨?_, fun op hid hunf => ⟨careful_of_safe ((inv_start hroot).run hall) hid, fun hcare =>
    (((inv_start hroot).run hall).step hunf hcare).safe⟩⟩
  rintro pre ⟨post, rfl⟩
  exact ((inv_start hroot).run hall.of_append).safe

/-- A focus on a widget that is there. -/
theorem handles_safe_sample :
    Safe ((start (⟨{}, ()⟩ : Widget Unit)).run [.addChild 0 ⟨{}, ()⟩, .setFocus (some 1)]) := by
  refine (@handles_safe Unit ⟨{}, ()⟩ rfl [.addChild 0 ⟨{}, ()⟩, .setFocus (some 1)] ?_).1 _
    List.prefix_rfl
  refine ⟨rfl, ⟨fun _ => by decide, fun _ _ id hid => ?_⟩, trivial, fun new hnew => ?_, trivial⟩
  · cases hid
  · obtain rfl := Option.some.inj hnew
    decide

/-- A handle is good again after its slot has been used again. -/
theorem handle_aliases :
    ¬ ∀ (rootWidget : Widget Unit) (ops : List (Op Unit)),
      rootWidget.common.focused = false → (∀ op ∈ ops, Unfocused op) →
      Safe ((start rootWidget).run ops) := by
  intro hall
  have hsafe := hall ⟨{}, ()⟩ [.addChild 0 ⟨{}, ()⟩, .remove 1, .addChild 0 ⟨{}, ()⟩] rfl (by
    intro op hop
    simp only [List.mem_cons, List.not_mem_nil, or_false] at hop
    rcases hop with rfl | rfl | rfl
    · rfl
    · trivial
    · rfl)
  have hdead := rejected_iff.mp (hsafe.stale 1 (by decide))
  revert hdead
  decide

end Session

end UiTree

end ThistleOS.Toolkit
