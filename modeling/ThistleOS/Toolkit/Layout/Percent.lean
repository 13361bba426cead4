import ThistleOS.Toolkit.Layout
import Mathlib.Algebra.Order.Floor.Ring
import Mathlib.Tactic.Linarith
import Mathlib.Tactic.Positivity

/-!
# Percentages of the layout

The size of a child is resolved by its parent and once more by itself, so that a percentage is taken of the
percentage. That makes no difference if it is the whole of the parent, or nothing.
-/

namespace ThistleOS.Toolkit.Layout

/-- A size is the percentage of the parent's that the hint asks for, rounded down. -/
def Honours (hint : SizeHint) (parent size : UInt32) : Prop :=
  ∀ pct, hint = .percent pct → (size.toNat : ℤ) = ⌊pct * parent.toNat⌋

/-- A widget is shown in another one if all below that are visible. -/
inductive Shows : UiNode → UiNode → Prop
  | self (t : UiNode) : Shows t t
  | inside {w : Widget} {children : List UiNode} {child t : UiNode} (hmem : child ∈ children)
      (hvisible : child.widget.visible = true) (h : Shows child t) : Shows (.node w children) t

/-- The visible children of a container have the percentages of its content that they ask for. -/
def HonoursChildren : UiNode → Prop
  | .node w children => w.container.isSome → ∀ child ∈ children, child.widget.visible = true →
      Honours child.widget.widthHint w.content.w child.widget.size.w ∧
        Honours child.widget.heightHint w.content.h child.widget.size.h

def HonoursPercents (t : UiNode) : Prop := ∀ u, Shows t u → HonoursChildren u

/-- A percentage comes to nothing, or to all of the parent. -/
def Trivial (hint : SizeHint) (parent : UInt32) : Prop :=
  ∀ pct, hint = .percent pct →
    (0 ≤ pct * parent.toNat ∧ pct * parent.toNat < 1) ∨ (1 ≤ pct ∧ (pct - 1) * parent.toNat < 1)

/-- The rectangle inside the padding of a widget in a rectangle. -/
def Widget.contentIn (w : Widget) (rect : Rect) : Rect := paddedRect rect.x rect.y rect.w rect.h w.padding

mutual

/-- In a widget that is given a rectangle all percentages are trivial. Where nothing is laid out, because the
parent is not a container, the sizes that are there honour them. -/
def TrivialPercents : UiNode → Rect → Prop
  | .node w children, rect =>
    match w.container with
    | none => ∀ child ∈ children, child.widget.visible = true → HonoursPercents child
    | some c =>
      (∀ child ∈ children, child.widget.visible = true →
        Trivial child.widget.widthHint (w.contentIn rect).w ∧
          Trivial child.widget.heightHint (w.contentIn rect).h) ∧
      TrivialEach (childRects c (w.contentIn rect) (children.map UiNode.widget)) children

def TrivialEach : List (Option Rect) → List UiNode → Prop
  | some rect :: rects, child :: children => TrivialPercents child rect ∧ TrivialEach rects children
  | none :: rects, _ :: children => TrivialEach rects children
  | [], _ => True
  | _, [] => True

end

/-! ### Resolving twice -/

lemma toNat_toU32 {q : ℚ} (h0 : 0 ≤ q) (h : q < 4294967296) : ((toU32 q).toNat : ℤ) = ⌊q⌋ := by
  have hfloor : 0 ≤ ⌊q⌋ := Int.floor_nonneg.mpr h0
  have hlt : ⌊q⌋ < 4294967296 := Int.floor_lt.mpr (by exact_mod_cast h)
  rw [toU32, UInt32.toNat_ofNat']
  omega

lemma clamp_mem (pct : ℚ) : 0 ≤ clamp pct ∧ clamp pct ≤ 1 :=
  ⟨le_max_left _ _, max_le zero_le_one (min_le_left _ _)⟩

lemma toNat_resolve_percent (pct : ℚ) (parent : UInt32) :
    ((resolveHint (.percent pct) parent).toNat : ℤ) = ⌊parent.toNat * clamp pct⌋ := by
  obtain ⟨h0, h1⟩ := clamp_mem pct
  have hparent : (parent.toNat : ℚ) < 4294967296 := by exact_mod_cast parent.toNat_lt
  have hnonneg : (0 : ℚ) ≤ parent.toNat := Nat.cast_nonneg _
  refine toNat_toU32 (mul_nonneg hnonneg h0) (lt_of_le_of_lt ?_ hparent)
  exact mul_le_of_le_one_right hnonneg h1

/-- A percentage that is taken twice is the one that is asked for exactly if it is trivial. -/
lemma honours_percent_iff (pct : ℚ) (parent : UInt32) :
    ((resolveHint (.percent pct) (resolveHint (.percent pct) parent)).toNat : ℤ) = ⌊pct * parent.toNat⌋ ↔
      (0 ≤ pct * parent.toNat ∧ pct * parent.toNat < 1) ∨ (1 ≤ pct ∧ (pct - 1) * parent.toNat < 1) := by
  have hfirst := toNat_resolve_percent pct parent
  have hsecond := toNat_resolve_percent pct (resolveHint (.percent pct) parent)
  have hnonneg : (0 : ℚ) ≤ parent.toNat := Nat.cast_nonneg _
  set first := (resolveHint (.percent pct) parent)
  rw [hsecond]
  by_cases hone : 1 ≤ pct
  · -- the whole of the parent
    have hclamp : clamp pct = 1 := by rw [clamp, min_eq_left hone, max_eq_right zero_le_one]
    rw [hclamp, mul_one] at hfirst ⊢
    rw [Int.floor_natCast] at hfirst ⊢
    rw [hfirst, eq_comm, Int.floor_eq_iff]
    push_cast
    constructor
    · rintro ⟨-, hlt⟩
      exact .inr ⟨hone, by linarith⟩
    · rintro (⟨-, hlt⟩ | ⟨-, hlt⟩)
      · exact ⟨by nlinarith, by linarith⟩
      · exact ⟨by nlinarith, by linarith⟩
  · rw [not_le] at hone
    have hright : ¬ (1 ≤ pct ∧ (pct - 1) * parent.toNat < 1) := fun h => absurd h.1 (not_le.mpr hone)
    rw [or_iff_left hright, ← Set.mem_Ico, ← Int.floor_eq_zero_iff]
    by_cases hneg : pct < 0
    · have hclamp : clamp pct = 0 := by rw [clamp, min_eq_right hone.le, max_eq_left hneg.le]
      rw [hclamp, mul_zero, Int.floor_zero, eq_comm]
    · rw [not_lt] at hneg
      have hclamp : clamp pct = pct := by rw [clamp, min_eq_right hone.le, max_eq_right hneg]
      rw [hclamp] at hfirst ⊢
      rw [mul_comm pct]
      rw [← hfirst]
      constructor
      · intro heq
        -- what is left of a positive number is less than the number
        by_contra hpos
        have hpos : (0 : ℚ) < first.toNat := by
          have : 0 < first.toNat := by omega
          exact_mod_cast this
        have hle := Int.floor_le ((first.toNat : ℚ) * pct)
        rw [heq] at hle
        push_cast at hle
        nlinarith
      · intro hzero
        have hzero : first.toNat = 0 := by omega
        rw [hzero]
        simp

/-! ### What a child is given -/

/-- A size that was resolved once against the parent's. -/
def Given (hint : SizeHint) (parent given : UInt32) : Prop :=
  (∀ px, hint = .fixed px → given = px) ∧ ∀ pct, hint = .percent pct → given = resolveHint hint parent

def GivenRect (content : Rect) (child : Widget) (rect : Rect) : Prop :=
  Given child.widthHint content.w rect.w ∧ Given child.heightHint content.h rect.h

lemma given_resolveHint (hint : SizeHint) (parent : UInt32) : Given hint parent (resolveHint hint parent) :=
  ⟨fun _ heq => heq ▸ rfl, fun _ _ => rfl⟩

/-- A size that was resolved once honours the hint when it is resolved again exactly if the hint is trivial. -/
lemma Given.honours_iff {hint : SizeHint} {parent given : UInt32} (h : Given hint parent given) :
    Honours hint parent (resolveHint hint given) ↔ Trivial hint parent := by
  refine forall_congr' fun pct => forall_congr' fun heq => ?_
  rw [h.2 pct heq, heq]
  exact honours_percent_iff pct parent

lemma resolve_percent_eq_zero {pct : ℚ} {parent : UInt32}
    (h : 0 ≤ pct * parent.toNat ∧ pct * parent.toNat < 1) : resolveHint (.percent pct) parent = 0 := by
  have hnonneg : (0 : ℚ) ≤ parent.toNat := Nat.cast_nonneg _
  obtain ⟨h0, -⟩ := clamp_mem pct
  have hle : parent.toNat * clamp pct < 1 := by
    rcases le_total pct 0 with hneg | hpos
    · have hclamp : clamp pct = 0 := by
        rw [clamp, max_eq_left]
        exact (min_le_right _ _).trans hneg
      rw [hclamp, mul_zero]
      exact zero_lt_one
    · have hclamp : clamp pct ≤ pct := max_le hpos (min_le_right _ _)
      exact lt_of_le_of_lt (mul_le_mul_of_nonneg_left hclamp hnonneg) (by rw [mul_comm]; exact h.2)
  have hfloor : ⌊parent.toNat * clamp pct⌋ = 0 := Int.floor_eq_zero_iff.mpr ⟨mul_nonneg hnonneg h0, hle⟩
  have hresolve := toNat_resolve_percent pct parent
  rw [hfloor] at hresolve
  exact UInt32.toNat_inj.mp (by simpa using hresolve)

/-- Where the hint is trivial, resolving again changes nothing. -/
lemma Given.resolveHint_eq {hint : SizeHint} {parent given : UInt32} (h : Given hint parent given)
    (htrivial : Trivial hint parent) : resolveHint hint given = given := by
  cases hint with
  | fixed px => exact (h.1 px rfl).symm
  | flex weight => rfl
  | auto => rfl
  | percent pct =>
    rcases htrivial pct rfl with hzero | ⟨hone, -⟩
    · rw [h.2 pct rfl, resolve_percent_eq_zero hzero]
      refine resolve_percent_eq_zero ⟨?_, ?_⟩ <;> simp
    · have hclamp : clamp pct = 1 := by rw [clamp, min_eq_left hone, max_eq_right zero_le_one]
      have hresolve := toNat_resolve_percent pct given
      rw [hclamp, mul_one, Int.floor_natCast] at hresolve
      exact UInt32.toNat_inj.mp (Int.ofNat_inj.mp hresolve)

lemma given_grow (direction : Direction) (mainTotal crossTotal remaining : UInt32) (flexTotal : ℚ)
    (child : Widget) :
    Given (child.mainHint direction) mainTotal
        (grow remaining flexTotal (measure direction mainTotal crossTotal child)).main ∧
      Given (child.crossHint direction) crossTotal
        (grow remaining flexTotal (measure direction mainTotal crossTotal child)).cross := by
  have hcross : (grow remaining flexTotal (measure direction mainTotal crossTotal child)).cross =
      resolveHint (child.crossHint direction) crossTotal := by
    rw [grow, measure]
    split_ifs <;> cases child.mainHint direction <;> rfl
  refine ⟨?_, hcross ▸ given_resolveHint _ _⟩
  rw [grow, measure]
  cases child.mainHint direction with
  | fixed px =>
    rw [if_neg fun h => lt_irrefl _ h.2]
    exact given_resolveHint (.fixed px) mainTotal
  | percent pct =>
    rw [if_neg fun h => lt_irrefl _ h.2]
    exact given_resolveHint (.percent pct) mainTotal
  | flex weight => exact ⟨nofun, nofun⟩
  | auto => exact ⟨nofun, nofun⟩

lemma givenRect_place (c : ContainerWidget) (content : Rect) (spaceBetween : UInt32) (info : Widget → ChildInfo)
    (hinfo : ∀ child, Given (child.mainHint c.direction) (mainSize c.direction content.w content.h) (info child).main ∧
      Given (child.crossHint c.direction) (crossSize c.direction content.w content.h) (info child).cross)
    (mainCursor : Int32) (children : List Widget) :
    List.Forall₂ (GivenRect content) children
      (place c content spaceBetween mainCursor (children.map info)) := by
  induction children generalizing mainCursor with
  | nil => exact .nil
  | cons child children ih =>
    refine .cons ?_ (ih _)
    have hchild := hinfo child
    rw [childRect]
    cases hdirection : c.direction with
    | row =>
      rw [hdirection] at hchild
      exact hchild
    | column =>
      rw [hdirection] at hchild
      exact ⟨hchild.2, hchild.1⟩

lemma childInfos_eq (c : ContainerWidget) (content : Rect) (children : List Widget) :
    ∃ remaining flexTotal, childInfos c content children = children.map fun child =>
      grow remaining flexTotal (measure c.direction (mainSize c.direction content.w content.h)
        (crossSize c.direction content.w content.h) child) :=
  ⟨_, _, List.map_map⟩

lemma givenRect_layoutChildren (c : ContainerWidget) (content : Rect) (children : List Widget) :
    List.Forall₂ (GivenRect content) children (layoutChildren c content children) := by
  obtain ⟨remaining, flexTotal, hinfos⟩ := childInfos_eq c content children
  rw [layoutChildren, hinfos]
  exact givenRect_place c content _ _
    (fun child => given_grow c.direction _ _ remaining flexTotal child) _ children

/-- A child that is shown is given a rectangle, and a hidden one none. -/
def Assigned (content : Rect) (child : Widget) (rect : Option Rect) : Prop :=
  if child.visible then ∃ r, rect = some r ∧ GivenRect content child r else rect = none

lemma assigned_assign {content : Rect} {rects : List Rect} {children : List Widget}
    (h : List.Forall₂ (GivenRect content) (children.filter Widget.inFlow) rects) :
    List.Forall₂ (Assigned content) children (assign content rects children) := by
  induction children generalizing rects with
  | nil => exact .nil
  | cons child children ih =>
    rw [assign]
    by_cases hvisible : child.visible = true
    · rw [if_pos hvisible]
      cases hpos : child.absolutePos with
      | some offset =>
        have hflow : child.inFlow = false := by simp [Widget.inFlow, hpos]
        rw [List.filter_cons_of_neg (by simp [hflow])] at h
        refine .cons ?_ (ih h)
        rw [Assigned, if_pos hvisible]
        exact ⟨_, rfl, given_resolveHint _ _, given_resolveHint _ _⟩
      | none =>
        have hflow : child.inFlow = true := by simp [Widget.inFlow, hpos, hvisible]
        rw [List.filter_cons_of_pos hflow] at h
        obtain ⟨rect, rest, hgiven, hrest, rfl⟩ := List.forall₂_cons_left_iff.mp h
        refine .cons ?_ (ih hrest)
        rw [Assigned, if_pos hvisible]
        exact ⟨rect, rfl, hgiven⟩
    · have hflow : child.inFlow = false := by simp [Widget.inFlow, hvisible]
      rw [if_neg hvisible]
      rw [List.filter_cons_of_neg (by simp [hflow])] at h
      refine .cons ?_ (ih h)
      rw [Assigned, if_neg hvisible]

lemma assigned_childRects (c : ContainerWidget) (content : Rect) (children : List Widget) :
    List.Forall₂ (Assigned content) children (childRects c content children) :=
  assigned_assign (givenRect_layoutChildren c content _)

/-! ### The tree -/

lemma honoursPercents_node {w : Widget} {children : List UiNode} :
    HonoursPercents (.node w children) ↔ HonoursChildren (.node w children) ∧
      ∀ child ∈ children, child.widget.visible = true → HonoursPercents child := by
  constructor
  · exact fun h => ⟨h _ (.self _), fun child hmem hvisible u hu => h u (.inside hmem hvisible hu)⟩
  · rintro ⟨hself, hchildren⟩ u (_ | ⟨hmem, hvisible, hu⟩)
    · exact hself
    · exact hchildren _ hmem hvisible u hu

lemma widget_layoutNode (t : UiNode) (rect : Rect) : (layoutNode t rect).widget = t.widget.placed rect := by
  obtain ⟨w, children⟩ := t
  rw [layoutNode]
  cases (w.placed rect).container <;> rfl

/-- Where a widget lies that is given a rectangle. -/
def Widget.rectIn (w : Widget) (available : Rect) : Rect :=
  ⟨available.x, available.y, resolveHint w.widthHint available.w, resolveHint w.heightHint available.h⟩

/-- Where the hints are trivial, a child lies in just the rectangle that it is given. -/
lemma GivenRect.rectIn_eq {content : Rect} {child : Widget} {rect : Rect} (h : GivenRect content child rect)
    (hw : Trivial child.widthHint content.w) (hh : Trivial child.heightHint content.h) :
    child.rectIn rect = rect := by
  rw [Widget.rectIn, h.1.resolveHint_eq hw, h.2.resolveHint_eq hh]

section

variable {w : Widget} {children : List UiNode} {available rect : Rect} {c : ContainerWidget}

lemma layoutNode_none (hc : w.container = none) :
    layoutNode (.node w children) available = .node (w.placed available) children := by
  rw [layoutNode, show (w.placed available).container = none from hc]

lemma layoutNode_some (hc : w.container = some c) :
    layoutNode (.node w children) available = .node (w.placed available)
      (layoutEach (childRects c (w.contentIn (w.rectIn available)) (children.map UiNode.widget)) children) := by
  rw [layoutNode, show (w.placed available).container = some c from hc]
  rfl

lemma trivialPercents_none (hc : w.container = none) :
    TrivialPercents (.node w children) rect ↔
      ∀ child ∈ children, child.widget.visible = true → HonoursPercents child := by
  rw [TrivialPercents, hc]

lemma trivialPercents_some (hc : w.container = some c) :
    TrivialPercents (.node w children) rect ↔
      (∀ child ∈ children, child.widget.visible = true →
        Trivial child.widget.widthHint (w.contentIn rect).w ∧
          Trivial child.widget.heightHint (w.contentIn rect).h) ∧
      TrivialEach (childRects c (w.contentIn rect) (children.map UiNode.widget)) children := by
  rw [TrivialPercents, hc]

end

mutual

theorem honours_layoutNode_iff : (t : UiNode) → (available : Rect) →
    (HonoursPercents (layoutNode t available) ↔ TrivialPercents t (t.widget.rectIn available))
  | .node w children, available => by
    cases hc : w.container with
    | none =>
      have hcontainer : (w.placed available).container = none := hc
      rw [layoutNode_none hc, trivialPercents_none hc, honoursPercents_node]
      exact and_iff_right fun h => by simp [hcontainer] at h
    | some c =>
      have hcontainer : (w.placed available).container.isSome = true := Option.isSome_of_eq_some hc
      rw [layoutNode_some hc, UiNode.widget, trivialPercents_some hc, honoursPercents_node,
        ← honours_layoutEach_iff _ children _ (assigned_childRects c _ _)]
      constructor
      · exact fun ⟨hhonours, hbelow⟩ child hmem hvisible =>
          ⟨hhonours hcontainer child hmem hvisible, hbelow child hmem hvisible⟩
      · exact fun h => ⟨fun _ child hmem hvisible => (h child hmem hvisible).1,
          fun child hmem hvisible => (h child hmem hvisible).2⟩

theorem honours_layoutEach_iff (content : Rect) : (children : List UiNode) → (rects : List (Option Rect)) →
    List.Forall₂ (Assigned content) (children.map UiNode.widget) rects →
    ((∀ child ∈ layoutEach rects children, child.widget.visible = true →
      (Honours child.widget.widthHint content.w child.widget.size.w ∧
        Honours child.widget.heightHint content.h child.widget.size.h) ∧ HonoursPercents child) ↔
      (∀ child ∈ children, child.widget.visible = true →
        Trivial child.widget.widthHint content.w ∧ Trivial child.widget.heightHint content.h) ∧
      TrivialEach rects children)
  | [], [], _ => by simp [layoutEach, TrivialEach]
  | child :: children, none :: rects, h => by
    obtain ⟨hassigned, h⟩ := List.forall₂_cons.mp h
    have hhidden : ¬ child.widget.visible = true := by
      intro hvisible
      rw [Assigned, if_pos hvisible] at hassigned
      obtain ⟨r, hr, -⟩ := hassigned
      cases hr
    rw [layoutEach, TrivialEach, List.forall_mem_cons, List.forall_mem_cons,
      and_iff_right fun hvisible => absurd hvisible hhidden, and_iff_right fun hvisible => absurd hvisible hhidden]
    exact honours_layoutEach_iff content children rects h
  | child :: children, some rect :: rects, h => by
    obtain ⟨hassigned, h⟩ := List.forall₂_cons.mp h
    have hvisible : child.widget.visible = true := by
      by_contra hhidden
      rw [Assigned, if_neg hhidden] at hassigned
      cases hassigned
    rw [Assigned, if_pos hvisible] at hassigned
    obtain ⟨_, ⟨rfl⟩, hgiven⟩ := hassigned
    have hchild : (((Honours child.widget.widthHint content.w (resolveHint child.widget.widthHint rect.w) ∧
        Honours child.widget.heightHint content.h (resolveHint child.widget.heightHint rect.h)) ∧
          HonoursPercents (layoutNode child rect)) ↔
        (Trivial child.widget.widthHint content.w ∧ Trivial child.widget.heightHint content.h) ∧
          TrivialPercents child rect) := by
      rw [hgiven.1.honours_iff, hgiven.2.honours_iff, honours_layoutNode_iff child rect]
      exact and_congr_right fun ⟨hw, hh⟩ => by rw [hgiven.rectIn_eq hw hh]
    have hbelow := honours_layoutEach_iff content children rects h
    rw [layoutEach, TrivialEach, List.forall_mem_cons, List.forall_mem_cons, widget_layoutNode]
    constructor
    · rintro ⟨hhead, htail⟩
      obtain ⟨htrivial, hpercents⟩ := hchild.mp (hhead hvisible)
      obtain ⟨hrest, heach⟩ := hbelow.mp htail
      exact ⟨⟨fun _ => htrivial, hrest⟩, hpercents, heach⟩
    · rintro ⟨⟨htrivial, hrest⟩, hpercents, heach⟩
      exact ⟨fun _ => hchild.mpr ⟨htrivial hvisible, hpercents⟩, hbelow.mpr ⟨hrest, heach⟩⟩

end

/-- After the layout all that is shown has the percentages it asks for exactly if the percentages are trivial. -/
theorem layout_honours_iff (root : UiNode) (viewport : Rect) :
    HonoursPercents (layout root viewport) ↔ TrivialPercents root (root.widget.rectIn viewport) :=
  honours_layoutNode_iff root viewport

def emptyBox (heightHint : SizeHint) : Widget where
  pos := ⟨0, 0⟩
  size := ⟨0, 0⟩
  absolutePos := none
  widthHint := .auto
  heightHint := heightHint
  padding := ⟨0, 0, 0, 0⟩
  visible := true
  container := some ⟨.column, 0, .start, .start⟩

def halfScreen : UiNode := .node (emptyBox .auto) [.node (emptyBox (.percent (1 / 2))) []]

/-- The half of two hundred pixels comes out as fifty. -/
theorem half_not_honoured : ¬ HonoursPercents (layout halfScreen ⟨0, 0, 100, 200⟩) := by
  intro h
  have hroot := h _ (.self _)
  have hparent : (layout halfScreen ⟨0, 0, 100, 200⟩).widget.container.isSome = true ∧
      (layout halfScreen ⟨0, 0, 100, 200⟩).widget.content.h = 200 := by decide +kernel
  have hchildren : (layout halfScreen ⟨0, 0, 100, 200⟩).children.map
      (fun child => (child.widget.visible, child.widget.heightHint, child.widget.size.h)) =
        [(true, .percent (1 / 2), 50)] := by decide +kernel
  generalize layout halfScreen ⟨0, 0, 100, 200⟩ = t at hroot hparent hchildren
  obtain ⟨w, children⟩ := t
  obtain ⟨child, rfl, hchild⟩ := List.map_eq_singleton_iff.mp hchildren
  obtain ⟨hvisible, hhint, hsize⟩ : child.widget.visible = true ∧ child.widget.heightHint = .percent (1 / 2) ∧
      child.widget.size.h = 50 := by simpa using hchild
  have hhalf := (hroot hparent.1 child (List.mem_singleton_self child) hvisible).2 (1 / 2) hhint
  have hcontent : w.content.h = 200 := hparent.2
  rw [hsize, hcontent] at hhalf
  revert hhalf
  decide +kernel

end ThistleOS.Toolkit.Layout
