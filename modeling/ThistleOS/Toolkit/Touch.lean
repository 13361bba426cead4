import ThistleOS.Toolkit.Tree.Arena

/-!
# Touching and drawing

A touch looks for a widget where the layout has put it; drawing moves what is in a container by the
distance that the container has been scrolled. The two agree exactly if no scroll offset changes which
child is under the point.
-/

namespace ThistleOS.Toolkit

/-- What matters here of the kinds of widgets. -/
inductive Kind where
  | container (scrollOffset : Int)
  | other

def Kind.scroll : Kind → Int
  | .container scrollOffset => scrollOffset
  | .other => 0

structure Rect where
  x : Int
  y : Int
  w : Nat
  h : Nat
  deriving DecidableEq

def Rect.contains (r : Rect) (x y : Int) : Bool :=
  r.x ≤ x && r.y ≤ y && x < r.x + r.w && y < r.y + r.h

lemma Rect.contains_iff {r : Rect} {x y : Int} :
    r.contains x y = true ↔ (r.x ≤ x ∧ r.y ≤ y) ∧ x < r.x + r.w ∧ y < r.y + r.h := by
  simp [Rect.contains, and_assoc]

def widgetRectScrolled (c : CommonProps) (scrollY : Int) : Rect :=
  ⟨c.pos.x, c.pos.y - scrollY, c.size.w, c.size.h⟩

/-- A widget that is drawn, with the rectangles of its ancestors around it. -/
structure Drawing where
  id : WidgetId
  rect : Rect
  within : List Rect

namespace UiTree

/-! ### Touching -/

def inside (c : CommonProps) (x y : Int) : Bool :=
  x ≥ c.pos.x && y ≥ c.pos.y && x < c.pos.x + c.size.w && y < c.pos.y + c.size.h

/-- The positions of a layout are small, so that no sum of them overflows; `fuel` bounds the depth. -/
def findAtPointRec (t : UiTree Kind) : Nat → WidgetId → Int → Int → Option WidgetId
  | 0, _, _, _ => none
  | fuel + 1, id, x, y =>
    match t.aliveNode id with
    | none => none
    | some node =>
      if !node.widget.common.visible then none
      else if !inside node.widget.common x y then none
      else
        some ((node.children.reverse.findSome? fun child => t.findAtPointRec fuel child x y).getD id)

def findAtPoint (t : UiTree Kind) (x y : Int) : Option WidgetId :=
  t.findAtPointRec t.nodes.length t.root x y

/-! ### Drawing -/

/-- A child that is not drawn because it is above or below a container that has been scrolled. -/
def culled (t : UiTree Kind) (c : CommonProps) (scrollY childScroll : Int) (child : WidgetId) : Bool :=
  childScroll != scrollY &&
    match t.get child with
    | none => false
    | some childW =>
      let clipTop := c.pos.y - scrollY
      let childTop := childW.common.pos.y - childScroll
      childTop + childW.common.size.h ≤ clipTop || childTop ≥ clipTop + c.size.h

/-- What is drawn, in this order. -/
def renderNode (t : UiTree Kind) : Nat → WidgetId → Int → List Rect → List Drawing
  | 0, _, _, _ => []
  | fuel + 1, id, scrollY, within =>
    match t.get id with
    | none => []
    | some widget =>
      if !widget.common.visible then []
      else
        let rect := widgetRectScrolled widget.common scrollY
        let childScroll := scrollY + widget.kind.scroll
        ⟨id, rect, within⟩ :: (t.children id).flatMap fun child =>
          if t.culled widget.common scrollY childScroll child then []
          else t.renderNode fuel child childScroll (rect :: within)

def render (t : UiTree Kind) : List Drawing := t.renderNode t.nodes.length t.root 0 []

/-! ### Scrolling -/

def contentHeight (t : UiTree Kind) (id : WidgetId) (containerY : Int) : Int :=
  (((t.children id).filterMap fun child =>
    (t.get child).map fun w => w.common.pos.y - containerY + w.common.size.h).max?).getD 0

/-- How far a container can be scrolled, if its content is larger than it. -/
def maxScroll (t : UiTree Kind) (id : WidgetId) : Option (Int × Int) :=
  match t.get id with
  | some ⟨c, .container scrollOffset⟩ =>
    let contentH := t.contentHeight id c.pos.y
    if contentH > c.size.h then some (scrollOffset, max (contentH - c.size.h) 0) else none
  | _ => none

/-- Scroll the first container that can be, from a widget upwards. -/
def applyScroll (t : UiTree Kind) : Nat → WidgetId → Int → UiTree Kind × Bool
  | 0, _, _ => (t, false)
  | fuel + 1, id, delta =>
    match t.maxScroll id with
    | some (scrollOffset, most) =>
      ((t.getMut id fun w =>
        { w with kind := .container (max 0 (min (scrollOffset + delta) most)) }).getD t, true)
    | none =>
      match t.parent id with
      | some parent => t.applyScroll fuel parent delta
      | none => (t, false)

/-! ### Agreement -/

/-- The drawing is over the point, and so are those of its ancestors. -/
def touched (x y : Int) (d : Drawing) : Bool :=
  d.rect.contains x y && d.within.all (·.contains x y)

/-- A touch finds the last widget to be drawn whose rectangle and whose ancestors' are over the point. -/
def Agrees (t : UiTree Kind) (x y : Int) : Prop :=
  t.findAtPoint x y = ((t.render.filter (touched x y)).getLast?).map (·.id)

/-- The widget is visible, and its rectangle is over the point if it is moved up by `scrollY`. -/
def under (t : UiTree Kind) (scrollY x y : Int) (id : WidgetId) : Bool :=
  match t.get id with
  | none => false
  | some widget => widget.common.visible && (widgetRectScrolled widget.common scrollY).contains x y

/-- The last child that is under the point. -/
def childAt (t : UiTree Kind) (scrollY x y : Int) (id : WidgetId) : Option WidgetId :=
  (t.children id).reverse.find? (t.under scrollY x y)

def scrollOf (t : UiTree Kind) (id : WidgetId) : Int := (t.get id).elim 0 (·.kind.scroll)

/-- From a widget downwards, the offsets so far do not change which child is under the point. -/
def Steady (t : UiTree Kind) (x y : Int) : Nat → WidgetId → Int → Prop
  | 0, _, _ => True
  | fuel + 1, id, scrollY =>
    t.childAt 0 x y id = t.childAt (scrollY + t.scrollOf id) x y id ∧
      ∀ child, t.childAt (scrollY + t.scrollOf id) x y id = some child →
        Steady t x y fuel child (scrollY + t.scrollOf id)

variable {t : UiTree Kind} {x y : Int} {id : WidgetId} {depth : WidgetId → Nat}

lemma findSome?_eq_bind {α β : Type} {f : α → Option β} {p : α → Bool} {l : List α}
    (h : ∀ a ∈ l, (f a).isSome = p a) : l.findSome? f = (l.find? p).bind f := by
  induction l with
  | nil => rfl
  | cons a l ih =>
    have ha := h a List.mem_cons_self
    have hrest := ih fun b hb => h b (List.mem_cons_of_mem a hb)
    cases hf : f a with
    | none =>
      rw [hf] at ha
      rw [List.findSome?_cons_of_isNone (by simp [hf]), List.find?_cons_of_neg (by simp [← ha]), hrest]
    | some b =>
      rw [hf] at ha
      rw [List.findSome?_cons_of_isSome (by simp [hf]), List.find?_cons_of_pos (by simp [← ha])]
      rfl

lemma inside_eq (c : CommonProps) (x y : Int) :
    inside c x y = (widgetRectScrolled c 0).contains x y := by
  simp [inside, widgetRectScrolled, Rect.contains]

lemma get_of_aliveNode {node : Node Kind} (h : t.aliveNode id = some node) :
    t.get id = some node.widget ∧ t.children id = node.children := by
  simp [get, children, h]

lemma under_of_get {widget : Widget Kind} (h : t.get id = some widget) (scrollY : Int) :
    t.under scrollY x y id =
      (widget.common.visible && (widgetRectScrolled widget.common scrollY).contains x y) := by
  rw [under, h]

lemma mem_of_childAt {scrollY : Int} {child : WidgetId} (h : t.childAt scrollY x y id = some child) :
    child ∈ t.children id ∧ t.under scrollY x y child = true :=
  ⟨List.mem_reverse.mp (List.mem_of_find?_eq_some h), List.find?_some h⟩

/-! ### What a touch finds -/

lemma isSome_findAtPointRec (fuel : Nat) (id : WidgetId) :
    (t.findAtPointRec (fuel + 1) id x y).isSome = t.under 0 x y id := by
  rw [findAtPointRec]
  cases hnode : t.aliveNode id with
  | none => simp [under, get, hnode]
  | some node =>
    rw [under_of_get (get_of_aliveNode hnode).1, ← inside_eq]
    cases hvisible : node.widget.common.visible with
    | false => simp [hvisible]
    | true =>
      cases hinside : inside node.widget.common x y with
      | false => simp [hvisible, hinside]
      | true => simp [hvisible, hinside]

/-- A touch goes down to the last child under the point. -/
lemma findAtPointRec_eq {fuel : Nat} (hfuel : ∀ c ∈ t.children id, 0 < fuel)
    (hunder : t.under 0 x y id = true) :
    t.findAtPointRec (fuel + 1) id x y =
      some (((t.childAt 0 x y id).bind fun child => t.findAtPointRec fuel child x y).getD id) := by
  rw [findAtPointRec]
  cases hnode : t.aliveNode id with
  | none => simp [under, get, hnode] at hunder
  | some node =>
    obtain ⟨hget, hchildren⟩ := get_of_aliveNode hnode
    rw [under_of_get hget, Bool.and_eq_true, ← inside_eq] at hunder
    have hfind : (node.children.reverse.findSome? fun child => t.findAtPointRec fuel child x y) =
        (t.childAt 0 x y id).bind fun child => t.findAtPointRec fuel child x y := by
      rw [childAt, hchildren]
      refine findSome?_eq_bind fun c hc => ?_
      obtain ⟨fuel', rfl⟩ := Nat.exists_eq_succ_of_ne_zero
        (Nat.pos_iff_ne_zero.mp (hfuel c (hchildren ▸ List.mem_reverse.mp hc)))
      exact isSome_findAtPointRec fuel' c
    simp only [hunder.1, hunder.2, hfind, Bool.not_true, Bool.false_eq_true, if_false]

lemma findAtPointRec_below (h : t.WellFormed) {fuel : Nat} {z : WidgetId}
    (hz : t.findAtPointRec fuel id x y = some z) : t.Below id z := by
  induction fuel generalizing id z with
  | zero => cases hz
  | succ fuel ih =>
    rw [findAtPointRec] at hz
    cases hnode : t.aliveNode id with
    | none =>
      rw [hnode] at hz
      cases hz
    | some node =>
      rw [hnode] at hz
      simp only at hz
      split_ifs at hz
      obtain rfl := Option.some.inj hz
      cases hfind : node.children.reverse.findSome? fun child => t.findAtPointRec fuel child x y with
      | none => exact .refl
      | some z =>
        obtain ⟨c, hc, hcz⟩ := List.exists_of_findSome?_eq_some hfind
        have hlisted : c ∈ t.listed id := by
          rw [← h.children_eq, (get_of_aliveNode hnode).2]
          exact List.mem_reverse.mp hc
        exact (ih hcz).tail hlisted

/-! ### What is drawn last -/

/-- The last drawing over the point, of a widget and what is below it. -/
def lastTouched (t : UiTree Kind) (fuel : Nat) (id : WidgetId) (scrollY : Int) (within : List Rect)
    (x y : Int) : Option WidgetId :=
  (((t.renderNode fuel id scrollY within).filter (touched x y)).getLast?).map (·.id)

variable {within : List Rect} {scrollY : Int}

/-- A drawing is within all that its ancestors are within. -/
lemma within_subset {fuel : Nat} {d : Drawing} (hd : d ∈ t.renderNode fuel id scrollY within) {r : Rect}
    (hr : r ∈ within) : r ∈ d.within := by
  induction fuel generalizing id scrollY within with
  | zero => cases hd
  | succ fuel ih =>
    rw [renderNode] at hd
    cases hget : t.get id with
    | none =>
      rw [hget] at hd
      cases hd
    | some widget =>
      rw [hget] at hd
      simp only at hd
      split_ifs at hd
      · cases hd
      · rcases List.mem_cons.mp hd with rfl | hd
        · exact hr
        · obtain ⟨child, -, hchild⟩ := List.mem_flatMap.mp hd
          split_ifs at hchild
          · cases hchild
          · exact ih hchild (List.mem_cons_of_mem _ hr)

lemma lastTouched_outside {fuel : Nat} {r : Rect} (hr : r ∈ within) (hout : r.contains x y = false) :
    t.lastTouched fuel id scrollY within x y = none := by
  have hnone : (t.renderNode fuel id scrollY within).filter (touched x y) = [] := by
    refine List.filter_eq_nil_iff.mpr fun d hd htouched => ?_
    rw [touched, Bool.and_eq_true] at htouched
    have hinside := List.all_eq_true.mp htouched.2 r (within_subset hd hr)
    rw [hout] at hinside
    cases hinside
  rw [lastTouched, hnone]
  rfl

lemma getLast?_map_cons {d : Drawing} {ds : List Drawing} :
    ((d :: ds).getLast?).map (·.id) = some (((ds.getLast?).map (·.id)).getD d.id) := by
  rw [List.getLast?_cons, Option.map_some]
  cases ds.getLast? with
  | none => rfl
  | some d' => rfl

/-- A child that is not drawn is not under a point that its parent is under. -/
lemma under_of_culled {widget : Widget Kind} {childScroll : Int} {child : WidgetId}
    (hrect : (widgetRectScrolled widget.common scrollY).contains x y = true)
    (hculled : t.culled widget.common scrollY childScroll child = true) :
    t.under childScroll x y child = false := by
  rw [culled, Bool.and_eq_true] at hculled
  cases hget : t.get child with
  | none => rw [under, hget]
  | some childW =>
    rw [hget] at hculled
    rw [under_of_get hget]
    have hgone := hculled.2
    rw [Rect.contains_iff] at hrect
    simp only [widgetRectScrolled, Bool.or_eq_true, decide_eq_true_eq] at hrect hgone
    by_contra hunder
    rw [Bool.not_eq_false, Bool.and_eq_true, Rect.contains_iff] at hunder
    have hinside := hunder.2
    simp only [widgetRectScrolled] at hinside
    omega

/-- The child of a widget is not drawn. -/
def skips (t : UiTree Kind) (id : WidgetId) (scrollY : Int) (child : WidgetId) : Bool :=
  (t.get id).elim false fun w => t.culled w.common scrollY (scrollY + t.scrollOf id) child

/-- The rectangles within which the children of a widget are drawn. -/
def innerRects (t : UiTree Kind) (id : WidgetId) (scrollY : Int) (within : List Rect) : List Rect :=
  (t.get id).elim within fun w => widgetRectScrolled w.common scrollY :: within

lemma under_of_skips {child : WidgetId} (hunder : t.under scrollY x y id = true)
    (hskips : t.skips id scrollY child = true) :
    t.under (scrollY + t.scrollOf id) x y child = false := by
  cases hget : t.get id with
  | none => simp [skips, hget] at hskips
  | some widget =>
    rw [under_of_get hget, Bool.and_eq_true] at hunder
    rw [skips, hget] at hskips
    exact under_of_culled hunder.2 hskips

/-- What is drawn last is below the last child that is drawn under the point. -/
lemma lastTouched_succ {fuel : Nat} (hwithin : ∀ r ∈ within, r.contains x y = true) :
    t.lastTouched (fuel + 1) id scrollY within x y =
      if t.under scrollY x y id then
        some (((t.children id).reverse.findSome? fun child =>
          if t.skips id scrollY child then none
          else t.lastTouched fuel child (scrollY + t.scrollOf id) (t.innerRects id scrollY within)
            x y).getD id)
      else none := by
  rw [lastTouched, renderNode]
  cases hget : t.get id with
  | none =>
    have hunder : t.under scrollY x y id = false := by rw [under, hget]
    rw [hunder]
    rfl
  | some widget =>
    have hscroll : t.scrollOf id = widget.kind.scroll := by
      rw [scrollOf, hget]
      rfl
    have hskips : ∀ child, t.skips id scrollY child =
        t.culled widget.common scrollY (scrollY + widget.kind.scroll) child := by
      intro child
      rw [skips, hget, hscroll]
      rfl
    have hinner : t.innerRects id scrollY within =
        widgetRectScrolled widget.common scrollY :: within := by
      rw [innerRects, hget]
      rfl
    rw [under_of_get hget]
    simp only [hscroll, hskips, hinner]
    cases hvisible : widget.common.visible with
    | false => simp
    | true =>
      have hrest : ((((t.children id).flatMap fun child =>
          if t.culled widget.common scrollY (scrollY + widget.kind.scroll) child then []
          else t.renderNode fuel child (scrollY + widget.kind.scroll)
            (widgetRectScrolled widget.common scrollY :: within)).filter
              (touched x y)).getLast?).map (·.id) =
          (t.children id).reverse.findSome? fun child =>
            if t.culled widget.common scrollY (scrollY + widget.kind.scroll) child then none
            else t.lastTouched fuel child (scrollY + widget.kind.scroll)
              (widgetRectScrolled widget.common scrollY :: within) x y := by
        rw [List.filter_flatMap, List.getLast?_flatMap, List.map_findSome?]
        congr 1
        funext child
        simp only [Function.comp_apply]
        split_ifs
        · rfl
        · rfl
      simp only [Bool.not_true, Bool.false_eq_true, if_false, Bool.true_and]
      cases hrect : (widgetRectScrolled widget.common scrollY).contains x y with
      | false =>
        have hhead : touched x y ⟨id, widgetRectScrolled widget.common scrollY, within⟩ = false := by
          rw [touched, hrect]
          rfl
        rw [List.filter_cons_of_neg (by simp [hhead]), hrest]
        simp only [Bool.false_eq_true, if_false]
        refine List.findSome?_eq_none_iff.mpr fun child _ => ?_
        split_ifs
        · rfl
        · exact lastTouched_outside List.mem_cons_self hrect
      | true =>
        have hhead : touched x y ⟨id, widgetRectScrolled widget.common scrollY, within⟩ = true := by
          rw [touched, hrect, List.all_eq_true.mpr hwithin]
          rfl
        rw [List.filter_cons_of_pos hhead, getLast?_map_cons, hrest]
        rfl

lemma isSome_lastTouched (hwithin : ∀ r ∈ within, r.contains x y = true) (fuel : Nat) (id : WidgetId) :
    (t.lastTouched (fuel + 1) id scrollY within x y).isSome = t.under scrollY x y id := by
  rw [lastTouched_succ hwithin]
  cases t.under scrollY x y id with
  | false => rfl
  | true => rfl

lemma innerRects_contain (hwithin : ∀ r ∈ within, r.contains x y = true)
    (hunder : t.under scrollY x y id = true) :
    ∀ r ∈ t.innerRects id scrollY within, r.contains x y = true := by
  rw [innerRects]
  cases hget : t.get id with
  | none => exact hwithin
  | some widget =>
    rw [under_of_get hget, Bool.and_eq_true] at hunder
    intro r hr
    rcases List.mem_cons.mp hr with rfl | hr
    · exact hunder.2
    · exact hwithin r hr

lemma lastTouched_eq {fuel : Nat} (hfuel : ∀ c ∈ t.children id, 0 < fuel)
    (hwithin : ∀ r ∈ within, r.contains x y = true) (hunder : t.under scrollY x y id = true) :
    t.lastTouched (fuel + 1) id scrollY within x y =
      some (((t.childAt (scrollY + t.scrollOf id) x y id).bind fun child =>
        t.lastTouched fuel child (scrollY + t.scrollOf id) (t.innerRects id scrollY within) x y).getD
          id) := by
  have hinner := innerRects_contain hwithin hunder
  rw [lastTouched_succ hwithin, if_pos hunder, childAt]
  rw [findSome?_eq_bind (p := t.under (scrollY + t.scrollOf id) x y)]
  · cases hchild : (t.children id).reverse.find? (t.under (scrollY + t.scrollOf id) x y) with
    | none => rfl
    | some child =>
      have hdrawn : t.skips id scrollY child = false := by
        by_contra hskips
        rw [Bool.not_eq_false] at hskips
        have hnot := under_of_skips hunder hskips
        rw [List.find?_some hchild] at hnot
        cases hnot
      simp only [Option.bind_some, hdrawn, Bool.false_eq_true, if_false]
  · intro child hchild
    obtain ⟨fuel', rfl⟩ := Nat.exists_eq_succ_of_ne_zero
      (Nat.pos_iff_ne_zero.mp (hfuel child (List.mem_reverse.mp hchild)))
    split_ifs with hskips
    · exact (under_of_skips hunder hskips).symm
    · exact isSome_lastTouched hinner fuel' child

lemma lastTouched_below (h : t.WellFormed) {fuel : Nat} {z : WidgetId}
    (hwithin : ∀ r ∈ within, r.contains x y = true)
    (hz : t.lastTouched fuel id scrollY within x y = some z) : t.Below id z := by
  induction fuel generalizing id scrollY within z with
  | zero => cases hz
  | succ fuel ih =>
    have hunder : t.under scrollY x y id = true := by
      rw [← isSome_lastTouched hwithin fuel id, hz]
      rfl
    have hinner := innerRects_contain hwithin hunder
    rw [lastTouched_succ hwithin, if_pos hunder] at hz
    obtain rfl := Option.some.inj hz
    cases hfind : (t.children id).reverse.findSome? fun child =>
        if t.skips id scrollY child then none
        else t.lastTouched fuel child (scrollY + t.scrollOf id) (t.innerRects id scrollY within)
          x y with
    | none => exact .refl
    | some z =>
      obtain ⟨c, hc, hcz⟩ := List.exists_of_findSome?_eq_some hfind
      have hlisted : c ∈ t.listed id := by
        rw [← h.children_eq]
        exact List.mem_reverse.mp hc
      split_ifs at hcz
      · exact (ih hinner hcz).tail hlisted

/-! ### Touching and drawing -/

/-- Below a widget under the point, the two agree exactly if the way down is the same. -/
theorem agree_iff_steady (h : t.WellFormed)
    (hdepth : ∀ p c, c ∈ t.listed p → depth p < depth c) {fuel : Nat}
    (hfuel : WellFormed.deeper t depth id < fuel) (hunder₀ : t.under 0 x y id = true)
    (hunder : t.under scrollY x y id = true) (hwithin : ∀ r ∈ within, r.contains x y = true) :
    t.findAtPointRec fuel id x y = t.lastTouched fuel id scrollY within x y ↔
      Steady t x y fuel id scrollY := by
  induction fuel generalizing id scrollY within with
  | zero => exact absurd hfuel (Nat.not_lt_zero _)
  | succ fuel ih =>
    have hless : ∀ c ∈ t.children id, WellFormed.deeper t depth c < fuel := fun c hc =>
      Nat.lt_of_lt_of_le (h.deeper_lt_of_edge hdepth (h.children_eq id ▸ hc)) (Nat.le_of_lt_succ hfuel)
    have hpos : ∀ c ∈ t.children id, 0 < fuel := fun c hc => Nat.zero_lt_of_lt (hless c hc)
    have hinner := innerRects_contain hwithin hunder
    -- What is found below a child is not the widget itself.
    have hne : ∀ c ∈ t.children id, ∀ z, t.Below c z → z ≠ id := by
      rintro c hc z hz rfl
      have hlisted : c ∈ t.listed z := h.children_eq z ▸ hc
      exact absurd (WellFormed.depth_le_of_below hdepth hz) (Nat.not_le.mpr (hdepth z c hlisted))
    rw [findAtPointRec_eq hpos hunder₀, lastTouched_eq hpos hwithin hunder, Option.some.injEq, Steady]
    cases hfind : t.childAt 0 x y id with
    | none =>
      cases hdraw : t.childAt (scrollY + t.scrollOf id) x y id with
      | none => exact iff_of_true rfl ⟨rfl, fun child hchild => by cases hchild⟩
      | some d =>
        obtain ⟨hd, hdunder⟩ := mem_of_childAt hdraw
        obtain ⟨fuel', rfl⟩ := Nat.exists_eq_succ_of_ne_zero (Nat.pos_iff_ne_zero.mp (hpos d hd))
        obtain ⟨z, hz⟩ := Option.isSome_iff_exists.mp ((isSome_lastTouched hinner fuel' d).trans hdunder)
        refine iff_of_false (fun heq => ?_) fun hsame => by cases hsame.1
        simp only [Option.bind_none, Option.getD_none, Option.bind_some, hz, Option.getD_some] at heq
        exact hne d hd z (lastTouched_below h hinner hz) heq.symm
    | some c =>
      obtain ⟨hc, hcunder⟩ := mem_of_childAt hfind
      obtain ⟨fuel', rfl⟩ := Nat.exists_eq_succ_of_ne_zero (Nat.pos_iff_ne_zero.mp (hpos c hc))
      obtain ⟨z, hz⟩ := Option.isSome_iff_exists.mp ((isSome_findAtPointRec fuel' c).trans hcunder)
      cases hdraw : t.childAt (scrollY + t.scrollOf id) x y id with
      | none =>
        refine iff_of_false (fun heq => ?_) fun hsame => by cases hsame.1
        simp only [Option.bind_none, Option.getD_none, Option.bind_some, hz, Option.getD_some] at heq
        exact hne c hc z (findAtPointRec_below h hz) heq
      | some d =>
        obtain ⟨hd, hdunder⟩ := mem_of_childAt hdraw
        obtain ⟨z', hz'⟩ :=
          Option.isSome_iff_exists.mp ((isSome_lastTouched hinner fuel' d).trans hdunder)
        simp only [Option.bind_some]
        by_cases hcd : c = d
        · subst hcd
          have hbelow := ih (hless c hc) hcunder hdunder hinner
          rw [hz, hz', Option.some.injEq] at hbelow
          rw [hz, hz', Option.getD_some, Option.getD_some, hbelow]
          constructor
          · intro hsteady
            refine ⟨rfl, fun child hchild => ?_⟩
            obtain rfl := Option.some.inj hchild
            exact hsteady
          · exact fun hsteady => hsteady.2 c rfl
        · refine iff_of_false (fun heq => ?_) fun hsame => hcd (Option.some.inj hsame.1)
          rw [hz, hz', Option.getD_some, Option.getD_some] at heq
          have hcz := findAtPointRec_below h hz
          have hdz := lastTouched_below h hinner hz'
          rw [← heq] at hdz
          exact h.below_disjoint (h.children_eq id ▸ hc) (h.children_eq id ▸ hd) hcd hcz hdz

/-! ### Laid-out trees -/

/-- The trees that additions and removals build, when their widgets are placed, scrolled and changed in
any way. -/
inductive LaidOut : UiTree Kind → Prop
  | built {t : UiTree Kind} (h : Reachable t) : LaidOut t
  | changed {t t' : UiTree Kind} (id : WidgetId) (f : Widget Kind → Widget Kind) (h : LaidOut t)
      (hmut : t.getMut id f = some t') : LaidOut t'

lemma sameShape_widget (t : UiTree Kind) (id : WidgetId) (f : Widget Kind → Widget Kind) :
    SameShape t (t.modifyNode id fun n => { n with widget := f n.widget }) where
  alive i := by
    rw [isAlive_eq, isAlive_eq, nodes_modifyNode, List.getElem?_modify]
    cases t.nodes[i]? with
    | none => rfl
    | some n =>
      simp only [Option.map_eq_map, Option.map_some, Option.any_some]
      split_ifs
      · rfl
      · rfl
  listed i := by
    rw [listed, listed, nodes_modifyNode, List.getElem?_modify]
    cases t.nodes[i]? with
    | none => rfl
    | some n =>
      simp only [Option.map_eq_map, Option.map_some, Option.elim_some]
      split_ifs
      · rfl
      · rfl
  parent i := by
    rw [parent_eq, parent_eq, nodes_modifyNode, List.getElem?_modify]
    cases t.nodes[i]? with
    | none => rfl
    | some n =>
      simp only [Option.map_eq_map, Option.map_some]
      split_ifs
      · rw [Option.filter_some, Option.filter_some]
        cases n.alive with
        | false => rfl
        | true => rfl
      · rfl

lemma LaidOut.wellFormed (h : LaidOut t) : t.WellFormed := by
  induction h with
  | built h => exact h.wellFormed
  | @changed t t' id f _ hmut ih =>
    rw [getMut] at hmut
    split_ifs at hmut
    obtain rfl := Option.some.inj hmut
    have hshape := sameShape_widget t id f
    have hlength : (t.modifyNode id fun n => { n with widget := f n.widget }).nodes.length =
        t.nodes.length := List.length_modify ..
    refine ih.of_sameShape hshape rfl ih.free_nodup (fun i => ?_) ?_
    · rw [hlength, hshape.alive]
      exact ih.free_iff i
    · rw [hlength]
      exact ih.ids

/-- A touch finds what is drawn last over the point exactly if, from the root downwards, the scroll
offsets do not change which visible child is the last one under the point. -/
theorem touch_agrees_iff (h : LaidOut t) (x y : Int) :
    t.Agrees x y ↔ (t.under 0 x y t.root = true → t.Steady x y t.nodes.length t.root 0) := by
  have hwell := h.wellFormed
  obtain ⟨depth, hdepth⟩ := hwell.acyclic
  have hlt : t.root < t.nodes.length := lt_of_isAlive (hwell.root_eq ▸ hwell.root_alive)
  have hwithin : ∀ r ∈ ([] : List Rect), r.contains x y = true := fun r hr =>
    absurd hr List.not_mem_nil
  change t.findAtPointRec t.nodes.length t.root x y = t.lastTouched t.nodes.length t.root 0 [] x y ↔ _
  cases hunder : t.under 0 x y t.root with
  | false =>
    obtain ⟨n, hn⟩ := Nat.exists_eq_succ_of_ne_zero (Nat.ne_of_gt (Nat.zero_lt_of_lt hlt))
    have hfind : (t.findAtPointRec (n + 1) t.root x y).isSome = t.under 0 x y t.root :=
      isSome_findAtPointRec n t.root
    have hdraw : (t.lastTouched (n + 1) t.root 0 [] x y).isSome = t.under 0 x y t.root :=
      isSome_lastTouched hwithin n t.root
    rw [hunder, Option.isSome_eq_false_iff, Option.isNone_iff_eq_none] at hfind hdraw
    rw [hn, hfind, hdraw]
    exact iff_of_true rfl fun hnot => by cases hnot
  | true =>
    rw [agree_iff_steady hwell hdepth (WellFormed.deeper_lt_length depth hlt) hunder hunder hwithin]
    exact ⟨fun hsteady _ => hsteady, fun hsteady => hsteady rfl⟩

/-- A list of two items, in a container that has room for one. -/
def sampleList : UiTree Kind :=
  ((((UiTree.new ⟨{ size := ⟨100, 100⟩ }, .container 0⟩).addChild 0
      ⟨{ size := ⟨100, 100⟩ }, .other⟩).1).addChild 0
    ⟨{ pos := ⟨0, 100⟩, size := ⟨100, 50⟩ }, .other⟩).1

lemma laidOut_sampleList : LaidOut sampleList :=
  .built (.addChild 0 _ (.addChild 0 _ (.new _) (by decide)) (by decide))

/-- A tree in which nothing has been scrolled is steady. -/
lemma steady_of_unscrolled (h : ∀ id, t.scrollOf id = 0) (x y : Int) (fuel : Nat) (id : WidgetId) :
    t.Steady x y fuel id 0 := by
  induction fuel generalizing id with
  | zero => exact trivial
  | succ fuel ih =>
    rw [Steady, h id, Int.add_zero]
    exact ⟨rfl, fun child _ => ih child⟩

theorem touch_agrees_iff_sampleList : sampleList.Agrees 10 60 := by
  have hunscrolled : ∀ id, sampleList.scrollOf id = 0 := by
    rintro (_ | _ | _ | id)
    · rfl
    · rfl
    · rfl
    · rfl
  exact (touch_agrees_iff laidOut_sampleList 10 60).mpr fun _ =>
    steady_of_unscrolled hunscrolled 10 60 _ _

/-- When the list has been scrolled, a touch on the second item finds the first. -/
theorem not_touch_agrees : ¬ ∀ (t : UiTree Kind), LaidOut t → ∀ x y : Int, t.Agrees x y := by
  intro hall
  have hscrolled : LaidOut (sampleList.applyScroll 3 1 50).1 :=
    .changed 0 (fun w => { w with kind := .container 50 }) laidOut_sampleList rfl
  have hagrees := hall _ hscrolled 10 60
  revert hagrees
  rw [Agrees]
  decide

end UiTree

end ThistleOS.Toolkit
