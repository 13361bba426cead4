import ThistleOS.Component
import ThistleOS.Toolkit.Touch

/-!
# Controls under a touch

What a touch does to buttons, switches, checkboxes, sliders and dropdowns. An open dropdown draws its
options in rows below its rectangle, where a touch never finds it: no touch chooses an option.
-/

namespace ThistleOS.Toolkit

/-- A function of an app, by its address. -/
abbrev Handler := Nat

structure ButtonWidget where
  onPress : Option Handler

structure SwitchWidget where
  isOn : Bool
  onChange : Option Handler

structure CheckboxWidget where
  checked : Bool
  onChange : Option Handler

structure SliderWidget where
  min : UInt8
  max : UInt8
  value : UInt8
  onChange : Option Handler

structure DropdownWidget where
  options : List String
  selected : UInt8
  isOpen : Bool
  onChange : Option Handler
  deriving DecidableEq

/-- What a touch does depends on the kind of the widget. -/
inductive Role where
  | container (scrollOffset : Int)
  | button (b : ButtonWidget)
  | switch (sw : SwitchWidget)
  | checkbox (cb : CheckboxWidget)
  | slider (sl : SliderWidget)
  | dropdown (dd : DropdownWidget)
  | textInput
  | other

structure Control where
  pressed : Bool := false
  role : Role

def Control.kind (c : Control) : Kind :=
  match c.role with
  | .container scrollOffset => .container scrollOffset
  | _ => .other

def Role.isFocusable : Role → Bool
  | .textInput | .button _ | .switch _ | .checkbox _ | .slider _ | .dropdown _ => true
  | .container _ | .other => false

def Role.dropdown? : Role → Option DropdownWidget
  | .dropdown dd => some dd
  | _ => none

def Role.mapDropdown (f : DropdownWidget → DropdownWidget) : Role → Role
  | .dropdown dd => .dropdown (f dd)
  | role => role

/-- A call of an app's function; a press has no value. -/
structure HandlerCall where
  handler : Handler
  id : WidgetId
  value : Option String
  deriving DecidableEq

def call (handler : Option Handler) (id : WidgetId) (value : Option String) : List HandlerCall :=
  handler.toList.map fun h => ⟨h, id, value⟩

/-- The tree after an event, the calls that were made, and whether a widget handled it. -/
structure Dispatched where
  tree : UiTree Control
  calls : List HandlerCall
  handled : Bool

def Widget.setRole (w : Widget Control) (role : Role) : Widget Control :=
  { w with kind := { w.kind with role := role } }

def Widget.setPressed (w : Widget Control) (pressed : Bool) : Widget Control :=
  { w with kind := { w.kind with pressed := pressed } }

/-! ### Drawing -/

/-- The rectangles of an open dropdown's options, from its own rectangle downwards. -/
def drawDropdownOptions (rect : Rect) (dd : DropdownWidget) : List (String × Rect) :=
  if dd.isOpen then
    dd.options.mapIdx fun i option => (option, ⟨rect.x, rect.y + rect.h + i * rect.h, rect.w, rect.h⟩)
  else []

def Node.mapKind {κ κ' : Type} (g : κ → κ') (n : Node κ) : Node κ' where
  widget := ⟨n.widget.common, g n.widget.kind⟩
  parent := n.parent
  children := n.children
  generation := n.generation
  alive := n.alive

namespace UiTree

section

variable {κ κ' : Type}

def mapKind (t : UiTree κ) (g : κ → κ') : UiTree κ' where
  nodes := t.nodes.map (Node.mapKind g)
  root := t.root
  free := t.free
  focus := t.focus

def change (t : UiTree κ) (id : WidgetId) (f : Widget κ → Widget κ) : UiTree κ := (t.getMut id f).getD t

/-- Mark a widget and its ancestors; `fuel` bounds their number. -/
def markDirtyRec (t : UiTree κ) : Nat → WidgetId → UiTree κ
  | 0, _ => t
  | fuel + 1, id =>
    match t.aliveNode id with
    | none => t
    | some node =>
      let t := t.change id fun w => w.mapCommon fun c => { c with dirty := true }
      match node.parent with
      | some parent => t.markDirtyRec fuel parent
      | none => t

def markDirty (t : UiTree κ) (id : WidgetId) : UiTree κ := t.markDirtyRec t.nodes.length id

/-- The visible widgets from `id` down, each before its children. -/
def walk (t : UiTree κ) : Nat → WidgetId → List (WidgetId × Widget κ)
  | 0, _ => []
  | fuel + 1, id =>
    match t.aliveNode id with
    | none => []
    | some node =>
      if !node.widget.common.visible then []
      else (id, node.widget) :: node.children.flatMap (t.walk fuel)

def walkAll (t : UiTree κ) : List (WidgetId × Widget κ) := t.walk t.nodes.length t.root

end

/-! ### Touching a control -/

def roleOf (t : UiTree Control) (id : WidgetId) : Option Role := (t.get id).map (·.kind.role)

def controlAt (t : UiTree Control) (x y : Int) : Option WidgetId :=
  (t.mapKind Control.kind).findAtPoint x y

def mapDropdown (t : UiTree Control) (id : WidgetId) (f : DropdownWidget → DropdownWidget) :
    UiTree Control :=
  t.change id fun w => w.setRole (w.kind.role.mapDropdown f)

/-- The rectangle of an open dropdown and of its options. -/
def insideOpen (c : CommonProps) (dd : DropdownWidget) (x y : Int) : Bool :=
  let totalH : Int := c.size.h + c.size.h * dd.options.length
  x ≥ c.pos.x && x < c.pos.x + c.size.w && y ≥ c.pos.y && y < c.pos.y + totalH

def closeIfOutside (x y : Int) (t : UiTree Control) (id : WidgetId) : UiTree Control :=
  match t.get id with
  | none => t
  | some w =>
    match w.kind.role.dropdown? with
    | none => t
    | some dd =>
      if insideOpen w.common dd x y then t
      else (t.mapDropdown id fun dd => { dd with isOpen := false }).markDirty id

def openDropdowns (t : UiTree Control) : List WidgetId :=
  (t.walkAll.filter fun p => p.2.kind.role.dropdown?.any (·.isOpen)).map (·.1)

def closeOpenDropdownsIfOutside (t : UiTree Control) (x y : Int) : UiTree Control :=
  t.openDropdowns.foldl (closeIfOutside x y) t

/-- The value of a slider at a point: its range is spread over its width. -/
def sliderValue (c : CommonProps) (sl : SliderWidget) (x : Int) : UInt8 :=
  let relX := max 0 (min (x - c.pos.x) c.size.w)
  let range : Int := (sl.max - sl.min).toNat
  let val : Int := sl.min.toNat + relX * range / c.size.w
  UInt8.ofNat (max (sl.min.toNat : Int) (min val sl.max.toNat)).toNat

def updateSliderValue (t : UiTree Control) (id : WidgetId) (x : Int) : UiTree Control × List HandlerCall :=
  match t.get id with
  | some ⟨c, ⟨_, .slider sl⟩⟩ =>
    if c.size.w = 0 then (t, [])
    else
      let newVal := sliderValue c sl x
      ((t.change id fun w => w.setRole (.slider { sl with value := newVal })).markDirty id,
        call sl.onChange c.id (some (toString newVal)))
  | _ => (t, [])

def dispatchTouchDown (t : UiTree Control) (x y : Int) : Dispatched :=
  let t := t.closeOpenDropdownsIfOutside x y
  match t.controlAt x y with
  | none => ⟨t, [], false⟩
  | some hit =>
    let t := if (t.roleOf hit).any Role.isFocusable then t.setFocus (some hit) else t
    match t.roleOf hit with
    | some (.slider _) =>
      let (t, calls) := t.updateSliderValue hit x
      ⟨t, calls, true⟩
    | _ => ⟨(t.change hit (·.setPressed true)).markDirty hit, [], true⟩

def clearPressed (t : UiTree Control) (id : WidgetId) : UiTree Control :=
  (t.change id (·.setPressed false)).markDirty id

def clearAllPressed (t : UiTree Control) : UiTree Control :=
  ((t.walkAll.filter (·.2.kind.pressed)).map (·.1)).foldl clearPressed t

/-- A tap on a dropdown opens it, or chooses the option in whose row it is, or closes the dropdown. -/
def handleDropdownTap (t : UiTree Control) (id : WidgetId) (y : Int) : UiTree Control × List HandlerCall :=
  match t.get id with
  | some ⟨c, ⟨_, .dropdown dd⟩⟩ =>
    if !dd.isOpen then ((t.mapDropdown id fun dd => { dd with isOpen := true }).markDirty id, [])
    else
      let listTop := c.pos.y + c.size.h
      let optionIdx := ((y - listTop) / c.size.h).toNat
      if y ≥ listTop ∧ dd.options.length > 0 ∧ optionIdx < dd.options.length then
        ((t.mapDropdown id fun dd =>
            { dd with selected := UInt8.ofNat optionIdx, isOpen := false }).markDirty id,
          (dd.options[optionIdx]?).elim [] fun text => call dd.onChange c.id (some text))
      else ((t.mapDropdown id fun dd => { dd with isOpen := false }).markDirty id, [])
  | _ => (t, [])

def dispatchTouchUp (t : UiTree Control) (x y : Int) : Dispatched :=
  let t := t.clearAllPressed
  match t.controlAt x y with
  | none => ⟨t, [], false⟩
  | some hit =>
    match t.get hit with
    | some ⟨c, ⟨_, .button ⟨some cb⟩⟩⟩ => ⟨t.markDirty hit, call (some cb) c.id none, true⟩
    | some ⟨c, ⟨_, .switch sw⟩⟩ =>
      ⟨(t.change hit (·.setRole (.switch { sw with isOn := !sw.isOn }))).markDirty hit,
        call sw.onChange c.id (some (if !sw.isOn then "on" else "off")), true⟩
    | some ⟨c, ⟨_, .checkbox cb⟩⟩ =>
      ⟨(t.change hit (·.setRole (.checkbox { cb with checked := !cb.checked }))).markDirty hit,
        call cb.onChange c.id (some (if !cb.checked then "checked" else "unchecked")), true⟩
    | some ⟨_, ⟨_, .dropdown _⟩⟩ =>
      let (t, calls) := t.handleDropdownTap hit y
      ⟨t, calls, true⟩
    | _ => ⟨t, [], false⟩

/-! ### What a touch leaves alone -/

section

variable {κ κ' : Type} {t : UiTree κ}

lemma aliveNode_mapKind (t : UiTree κ) (g : κ → κ') (id : WidgetId) :
    (t.mapKind g).aliveNode id = (t.aliveNode id).map (Node.mapKind g) := by
  rw [aliveNode, aliveNode, mapKind, List.getElem?_map, Option.filter_map]
  rfl

lemma get_mapKind (t : UiTree κ) (g : κ → κ') (id : WidgetId) :
    (t.mapKind g).get id = (t.get id).map fun w => ⟨w.common, g w.kind⟩ := by
  rw [get, get, aliveNode_mapKind, Option.map_map, Option.map_map]
  rfl

lemma get_change (t : UiTree κ) (id : WidgetId) (f : Widget κ → Widget κ) (j : WidgetId) :
    (t.change id f).get j = if j = id then (t.get j).map f else t.get j := by
  rw [change, getMut]
  cases halive : t.isAlive id with
  | false =>
    have hnone : t.get id = none := by rw [get, aliveNode_eq_none halive]; rfl
    rw [if_neg Bool.false_ne_true, Option.getD_none]
    split_ifs with hj
    · rw [hj, hnone]
      rfl
    · rfl
  | true =>
    rw [if_pos rfl, Option.getD_some, get_eq, get_eq, nodes_modifyNode, getElem?_modify_eq]
    split_ifs with hj
    · cases hnode : t.nodes[j]? with
      | none => rfl
      | some n =>
        rw [Option.map_some, Option.filter_some, Option.filter_some]
        cases n.alive with
        | false => rfl
        | true => rfl
    · rfl

end

/-- What a touch at a point can do to a widget: a dropdown keeps its options and its choice, and is opened
or closed only if the point is in its own rectangle, or outside of that and of its options. -/
structure Alters (x y : Int) (w w' : Widget Control) : Prop where
  pos : w'.common.pos = w.common.pos
  size : w'.common.size = w.common.size
  dropdown : w'.kind.role.dropdown? = w.kind.role.dropdown? ∨
    ∃ dd isOpen, w.kind.role.dropdown? = some dd ∧
      w'.kind.role.dropdown? = some { dd with isOpen := isOpen } ∧
      (inside w.common x y = true ∨ insideOpen w.common dd x y = false)

def Altered (x y : Int) (t t' : UiTree Control) : Prop :=
  ∀ id w, t.get id = some w → ∃ w', t'.get id = some w' ∧ Alters x y w w'

variable {t t' t'' : UiTree Control} {x y : Int} {id : WidgetId}

lemma Alters.refl (w : Widget Control) : Alters x y w w := ⟨rfl, rfl, .inl rfl⟩

lemma inside_congr {c c' : CommonProps} (hpos : c'.pos = c.pos) (hsize : c'.size = c.size) (x y : Int) :
    inside c' x y = inside c x y := by
  rw [inside, inside, hpos, hsize]

lemma insideOpen_congr {c c' : CommonProps} {dd dd' : DropdownWidget} (hpos : c'.pos = c.pos)
    (hsize : c'.size = c.size) (hoptions : dd'.options = dd.options) (x y : Int) :
    insideOpen c' dd' x y = insideOpen c dd x y := by
  rw [insideOpen, insideOpen, hpos, hsize, hoptions]

lemma Alters.trans {w w' w'' : Widget Control} (h : Alters x y w w') (h' : Alters x y w' w'') :
    Alters x y w w'' := by
  refine ⟨h'.pos.trans h.pos, h'.size.trans h.size, ?_⟩
  have hinside := inside_congr h.pos h.size x y
  rcases h.dropdown with hsame | ⟨dd, isOpen, hdd, hdd', hpoint⟩
  · rcases h'.dropdown with hsame' | ⟨dd, isOpen, hdd, hdd', hpoint⟩
    · exact .inl (hsame'.trans hsame)
    · refine .inr ⟨dd, isOpen, hsame ▸ hdd, hdd', ?_⟩
      rwa [hinside, insideOpen_congr h.pos h.size rfl x y] at hpoint
  · rcases h'.dropdown with hsame' | ⟨dd', isOpen', hdd₂, hdd₂', -⟩
    · exact .inr ⟨dd, isOpen, hdd, hsame'.trans hdd', hpoint⟩
    · obtain rfl := Option.some.inj (hdd'.symm.trans hdd₂)
      exact .inr ⟨dd, isOpen', hdd, hdd₂', hpoint⟩

lemma Altered.refl (t : UiTree Control) : Altered x y t t := fun _ w h => ⟨w, h, .refl w⟩

lemma Altered.trans (h : Altered x y t t') (h' : Altered x y t' t'') : Altered x y t t'' := by
  intro id w hw
  obtain ⟨w', hw', halters⟩ := h id w hw
  obtain ⟨w'', hw'', halters'⟩ := h' id w' hw'
  exact ⟨w'', hw'', halters.trans halters'⟩

lemma altered_change {f : Widget Control → Widget Control}
    (h : ∀ w, t.get id = some w → Alters x y w (f w)) : Altered x y t (t.change id f) := by
  intro j w hw
  rw [get_change]
  split_ifs with hj
  · subst hj
    exact ⟨f w, by rw [hw]; rfl, h w hw⟩
  · exact ⟨w, hw, .refl w⟩

/-- The flags of a widget do not matter. -/
lemma altered_mapCommon (t : UiTree Control) (id : WidgetId) {f : CommonProps → CommonProps}
    (hpos : ∀ c, (f c).pos = c.pos) (hsize : ∀ c, (f c).size = c.size) :
    Altered x y t (t.change id (·.mapCommon f)) :=
  altered_change fun w _ => ⟨hpos w.common, hsize w.common, .inl rfl⟩

lemma altered_setPressed (t : UiTree Control) (id : WidgetId) (pressed : Bool) :
    Altered x y t (t.change id (·.setPressed pressed)) :=
  altered_change fun _ _ => ⟨rfl, rfl, .inl rfl⟩

lemma altered_setRole {role : Role} (hrole : role.dropdown? = none)
    (h : ∀ w, t.get id = some w → w.kind.role.dropdown? = none) :
    Altered x y t (t.change id (·.setRole role)) :=
  altered_change fun w hw => ⟨rfl, rfl, .inl (hrole.trans (h w hw).symm)⟩

lemma role_eq_of_dropdown? {role : Role} {dd : DropdownWidget} (h : role.dropdown? = some dd) :
    role = .dropdown dd := by
  cases role with
  | dropdown dd' => exact congrArg Role.dropdown (Option.some.inj h)
  | _ => cases h

lemma dropdown?_mapDropdown (role : Role) (f : DropdownWidget → DropdownWidget) :
    (role.mapDropdown f).dropdown? = role.dropdown?.map f := by
  cases role <;> rfl

/-- To open or close a dropdown where the point allows it. -/
lemma altered_setOpen {isOpen : Bool} (h : ∀ w dd, t.get id = some w → w.kind.role.dropdown? = some dd →
      inside w.common x y = true ∨ insideOpen w.common dd x y = false) :
    Altered x y t (t.mapDropdown id fun dd => { dd with isOpen := isOpen }) := by
  refine altered_change fun w hw => ⟨rfl, rfl, ?_⟩
  change (w.kind.role.mapDropdown _).dropdown? = _ ∨
    ∃ dd isOpen, _ ∧ (w.kind.role.mapDropdown _).dropdown? = _ ∧ _
  rw [dropdown?_mapDropdown]
  cases hdd : w.kind.role.dropdown? with
  | none => exact .inl rfl
  | some dd => exact .inr ⟨dd, isOpen, rfl, rfl, h w dd hw hdd⟩

lemma altered_markDirtyRec (fuel : Nat) (t : UiTree Control) (id : WidgetId) :
    Altered x y t (t.markDirtyRec fuel id) := by
  induction fuel generalizing t id with
  | zero => exact .refl t
  | succ fuel ih =>
    rw [markDirtyRec]
    cases t.aliveNode id with
    | none => exact .refl t
    | some node =>
      have hmark : Altered x y t (t.change id (·.mapCommon fun c => { c with dirty := true })) :=
        altered_mapCommon t id (fun _ => rfl) fun _ => rfl
      cases hparent : node.parent with
      | none => simpa only [hparent] using hmark
      | some parent => simpa only [hparent] using hmark.trans (ih _ parent)

lemma Altered.markDirty (h : Altered x y t t') (id : WidgetId) : Altered x y t (t'.markDirty id) :=
  h.trans (altered_markDirtyRec _ t' id)

lemma altered_setFocused (t : UiTree Control) (id : WidgetId) (focused : Bool) :
    Altered x y t (t.setFocused id focused) :=
  altered_mapCommon t id (fun _ => rfl) fun _ => rfl

lemma altered_setFocus (t : UiTree Control) (id : WidgetId) : Altered x y t (t.setFocus (some id)) := by
  have hblur : Altered x y t t.blur := by
    rw [blur]
    cases t.focus with
    | none => exact .refl t
    | some old => exact altered_setFocused t old false
  exact hblur.trans (altered_setFocused t.blur id true)

lemma altered_foldl {f : UiTree Control → WidgetId → UiTree Control}
    (h : ∀ t id, Altered x y t (f t id)) (ids : List WidgetId) (t : UiTree Control) :
    Altered x y t (ids.foldl f t) := by
  induction ids generalizing t with
  | nil => exact .refl t
  | cons id ids ih => exact (h t id).trans (ih (f t id))

/-! ### What a touch does -/

lemma inside_of_findAtPointRec {t : UiTree Kind} {fuel : Nat} {z : WidgetId}
    (h : t.findAtPointRec fuel id x y = some z) : ∃ w, t.get z = some w ∧ inside w.common x y = true := by
  induction fuel generalizing id z with
  | zero => cases h
  | succ fuel ih =>
    rw [findAtPointRec] at h
    cases hnode : t.aliveNode id with
    | none =>
      rw [hnode] at h
      cases h
    | some node =>
      rw [hnode] at h
      simp only at h
      split_ifs at h with hvisible hinside
      obtain rfl := Option.some.inj h
      cases hfind : node.children.reverse.findSome? fun child => t.findAtPointRec fuel child x y with
      | none => exact ⟨node.widget, (get_of_aliveNode hnode).1, by simpa using hinside⟩
      | some z =>
        obtain ⟨c, -, hcz⟩ := List.exists_of_findSome?_eq_some hfind
        exact ih hcz

/-- A touch only finds a widget whose own rectangle is around the point. -/
lemma inside_of_controlAt (h : t.controlAt x y = some id) {w : Widget Control} (hw : t.get id = some w) :
    inside w.common x y = true := by
  obtain ⟨w', hw', hinside⟩ := inside_of_findAtPointRec h
  rw [get_mapKind, hw] at hw'
  obtain rfl := Option.some.inj hw'
  exact hinside

lemma altered_closeIfOutside (t : UiTree Control) (id : WidgetId) :
    Altered x y t (closeIfOutside x y t id) := by
  rw [closeIfOutside]
  cases hget : t.get id with
  | none => exact .refl t
  | some w =>
    cases hdd : w.kind.role.dropdown? with
    | none => simpa only [hdd] using Altered.refl t
    | some dd =>
      simp only [hdd]
      split_ifs with hinside
      · exact .refl t
      · refine (altered_setOpen fun w' dd' hw' hdd' => .inr ?_).markDirty id
        obtain rfl := Option.some.inj (hget.symm.trans hw')
        obtain rfl := Option.some.inj (hdd.symm.trans hdd')
        exact Bool.eq_false_iff.mpr hinside

lemma altered_updateSliderValue (t : UiTree Control) (id : WidgetId) :
    Altered x y t (t.updateSliderValue id x).1 := by
  rw [updateSliderValue]
  split
  · next c pressed sl hget =>
    split_ifs
    · exact .refl t
    · refine (altered_setRole rfl fun w hw => ?_).markDirty id
      obtain rfl := Option.some.inj (hget.symm.trans hw)
      rfl
  · exact .refl t

lemma altered_dispatchTouchDown (t : UiTree Control) (x y : Int) :
    Altered x y t (t.dispatchTouchDown x y).tree := by
  have hclose : Altered x y t (t.closeOpenDropdownsIfOutside x y) :=
    altered_foldl altered_closeIfOutside _ t
  rw [dispatchTouchDown]
  generalize t.closeOpenDropdownsIfOutside x y = closed at hclose ⊢
  cases closed.controlAt x y with
  | none => exact hclose
  | some hit =>
    simp only
    generalize hfocused : (if (closed.roleOf hit).any Role.isFocusable then closed.setFocus (some hit)
      else closed) = focused
    have hfocus : Altered x y closed focused := by
      rw [← hfocused]
      split_ifs
      · exact altered_setFocus closed hit
      · exact .refl closed
    refine hclose.trans (hfocus.trans ?_)
    split
    · exact altered_updateSliderValue focused hit
    · exact (altered_setPressed focused hit true).markDirty hit

lemma altered_clearAllPressed (t : UiTree Control) : Altered x y t t.clearAllPressed :=
  altered_foldl (fun t id => (altered_setPressed t id false).markDirty id) _ t

/-- In its own rectangle, a tap only opens or closes a dropdown. -/
lemma handleDropdownTap_of_inside {w : Widget Control} {dd : DropdownWidget} (hget : t.get id = some w)
    (hrole : w.kind.role = .dropdown dd) (hinside : inside w.common x y = true) :
    t.handleDropdownTap id y =
      ((t.mapDropdown id fun dd' => { dd' with isOpen := !dd.isOpen }).markDirty id, []) := by
  obtain ⟨c, ⟨pressed, role⟩⟩ := w
  cases hrole
  have hbelow : ¬ y ≥ c.pos.y + c.size.h := by
    simp only [inside, Bool.and_eq_true, decide_eq_true_eq] at hinside
    omega
  simp only [handleDropdownTap, hget]
  cases hopen : dd.isOpen with
  | false => rfl
  | true => simp only [Bool.not_true, Bool.false_eq_true, if_false, hbelow, false_and]

lemma altered_dispatchTouchUp (t : UiTree Control) (x y : Int) :
    Altered x y t (t.dispatchTouchUp x y).tree := by
  refine (altered_clearAllPressed t).trans ?_
  rw [dispatchTouchUp]
  generalize t.clearAllPressed = cleared
  cases hhit : cleared.controlAt x y with
  | none => exact .refl cleared
  | some hit =>
    simp only
    split
    · exact (Altered.refl cleared).markDirty hit
    · next c pressed sw hget =>
      refine (altered_setRole rfl fun w hw => ?_).markDirty hit
      obtain rfl := Option.some.inj (hget.symm.trans hw)
      rfl
    · next c pressed cb hget =>
      refine (altered_setRole rfl fun w hw => ?_).markDirty hit
      obtain rfl := Option.some.inj (hget.symm.trans hw)
      rfl
    · next c pressed dd hget =>
      rw [handleDropdownTap_of_inside hget rfl (inside_of_controlAt hhit hget)]
      exact (altered_setOpen fun w _ hw _ => .inl (inside_of_controlAt hhit hw)).markDirty hit
    · exact .refl cleared

/-! ### No touch chooses an option -/

def dropdownAt (t : UiTree Control) (id : WidgetId) : Option DropdownWidget :=
  (t.get id).bind (·.kind.role.dropdown?)

/-- Something a finger does at a point. -/
inductive Touch where
  | down (x y : Int)
  | up (x y : Int)

def Touch.point : Touch → Int × Int
  | .down x y | .up x y => (x, y)

def dispatchTouch (t : UiTree Control) : Touch → Dispatched
  | .down x y => t.dispatchTouchDown x y
  | .up x y => t.dispatchTouchUp x y

def touching : Component Touch (fun _ => List HandlerCall × Bool) (UiTree Control) where
  step touch t :=
    let d := t.dispatchTouch touch
    ((d.calls, d.handled), d.tree)

lemma altered_dispatchTouch (t : UiTree Control) (touch : Touch) :
    Altered touch.point.1 touch.point.2 t (t.dispatchTouch touch).tree := by
  cases touch with
  | down x y => exact altered_dispatchTouchDown t x y
  | up x y => exact altered_dispatchTouchUp t x y

lemma Altered.dropdownAt (h : Altered x y t t') {dd : DropdownWidget} (hdd : t.dropdownAt id = some dd) :
    ∃ isOpen, t'.dropdownAt id = some { dd with isOpen := isOpen } := by
  obtain ⟨w, hw, hrole⟩ := Option.bind_eq_some_iff.mp hdd
  obtain ⟨w', hw', halters⟩ := h id w hw
  have hat : t'.dropdownAt id = w'.kind.role.dropdown? := by rw [UiTree.dropdownAt, hw']; rfl
  rcases halters.dropdown with hsame | ⟨dd', isOpen, hdd', hdd'', -⟩
  · exact ⟨dd.isOpen, hat.trans (hsame.trans hrole)⟩
  · obtain rfl := Option.some.inj (hrole.symm.trans hdd')
    exact ⟨isOpen, hat.trans hdd''⟩

/-- Whatever is touched, every dropdown keeps the choice it had. -/
theorem selected_run (t : UiTree Control) (touches : List Touch) (id : WidgetId) {dd : DropdownWidget}
    (hdd : t.dropdownAt id = some dd) :
    ∃ isOpen, (touching.run t touches).dropdownAt id = some { dd with isOpen := isOpen } := by
  induction touches generalizing t dd with
  | nil => exact ⟨dd.isOpen, hdd⟩
  | cons touch touches ih =>
    obtain ⟨isOpen, hnext⟩ := (altered_dispatchTouch t touch).dropdownAt hdd
    obtain ⟨isOpen', hrun⟩ := ih _ hnext
    exact ⟨isOpen', hrun⟩

/-! ### The rows of an open dropdown -/

/-- Over the point there is the row in which an open dropdown draws its option `i`. -/
def OverOption (rect : Rect) (dd : DropdownWidget) (i : Nat) (text : String) (x y : Int) : Prop :=
  ∃ row, (drawDropdownOptions rect dd)[i]? = some (text, row) ∧ row.contains x y = true

variable {c : CommonProps} {dd : DropdownWidget} {i : Nat} {text : String}

lemma overOption_iff : OverOption (widgetRectScrolled c 0) dd i text x y ↔
    dd.isOpen = true ∧ dd.options[i]? = some text ∧ c.pos.x ≤ x ∧ x < c.pos.x + c.size.w ∧
      c.pos.y + c.size.h + i * c.size.h ≤ y ∧ y < c.pos.y + c.size.h + i * c.size.h + c.size.h := by
  rw [OverOption, drawDropdownOptions]
  cases dd.isOpen with
  | false => simp
  | true =>
    rw [if_pos rfl, List.getElem?_mapIdx]
    cases dd.options[i]? with
    | none => simp
    | some option =>
      simp [Rect.contains_iff, widgetRectScrolled]
      tauto

/-- The rows belong to the area in which an open dropdown stays open. -/
lemma insideOpen_of_overOption (h : OverOption (widgetRectScrolled c 0) dd i text x y) :
    insideOpen c dd x y = true := by
  obtain ⟨-, hi, hleft, hright, htop, hbottom⟩ := overOption_iff.mp h
  have hlt : i < dd.options.length := (List.getElem?_eq_some_iff.mp hi).1
  have hrows : (i : Int) * c.size.h + c.size.h ≤ c.size.h * dd.options.length := by
    have hle : (i + 1) * c.size.h ≤ c.size.h * dd.options.length := by
      rw [Nat.mul_comm]
      exact Nat.mul_le_mul_left _ hlt
    have hcast := Int.ofNat_le.mpr hle
    rwa [Int.natCast_mul, Int.natCast_mul, Int.natCast_succ, Int.add_mul, Int.one_mul] at hcast
  have hpos : 0 ≤ (i : Int) * c.size.h := Int.mul_nonneg (Int.natCast_nonneg i) (Int.natCast_nonneg _)
  simp only [insideOpen, Bool.and_eq_true, decide_eq_true_eq]
  refine ⟨⟨⟨hleft, hright⟩, ?_⟩, ?_⟩
  · omega
  · omega

/-- The rows are not in the rectangle in which a touch looks for the dropdown. -/
lemma not_inside_of_overOption (h : OverOption (widgetRectScrolled c 0) dd i text x y) :
    inside c x y = false := by
  obtain ⟨-, -, -, -, htop, -⟩ := overOption_iff.mp h
  have hpos : 0 ≤ (i : Int) * c.size.h := Int.mul_nonneg (Int.natCast_nonneg i) (Int.natCast_nonneg _)
  rw [Bool.eq_false_iff]
  intro hinside
  simp only [inside, Bool.and_eq_true, decide_eq_true_eq] at hinside
  omega

/-- If a tap on an option reached its dropdown, it would choose the option. -/
theorem handleDropdownTap_of_overOption {w : Widget Control} (hget : t.get id = some w)
    (hrole : w.kind.role = .dropdown dd) (h : OverOption (widgetRectScrolled w.common 0) dd i text x y) :
    t.handleDropdownTap id y =
      ((t.mapDropdown id fun dd => { dd with selected := UInt8.ofNat i, isOpen := false }).markDirty id,
        call dd.onChange w.common.id (some text)) := by
  obtain ⟨c, ⟨pressed, role⟩⟩ := w
  cases hrole
  obtain ⟨hopen, hi, -, -, htop, hbottom⟩ := overOption_iff.mp h
  have hlt : i < dd.options.length := (List.getElem?_eq_some_iff.mp hi).1
  have hheight : 0 < (c.size.h : Int) := by
    simp only at htop hbottom
    omega
  have hidx : ((y - (c.pos.y + c.size.h)) / (c.size.h : Int)).toNat = i := by
    have hle : (i : Int) ≤ (y - (c.pos.y + c.size.h)) / (c.size.h : Int) :=
      (Int.le_ediv_iff_mul_le hheight).mpr (by simp only at htop; omega)
    have hlt' : (y - (c.pos.y + c.size.h)) / (c.size.h : Int) < i + 1 := by
      rw [Int.ediv_lt_iff_lt_mul hheight, Int.add_mul, Int.one_mul]
      simp only at hbottom
      omega
    omega
  have hreach : y ≥ c.pos.y + c.size.h ∧ dd.options.length > 0 ∧ i < dd.options.length := by
    have hpos : 0 ≤ (i : Int) * c.size.h := Int.mul_nonneg (Int.natCast_nonneg i) (Int.natCast_nonneg _)
    simp only at htop
    exact ⟨by omega, by omega, hlt⟩
  simp only [handleDropdownTap, hget, hopen, hidx, Bool.not_true, Bool.false_eq_true, if_false]
  rw [if_pos hreach, hi]
  rfl

/-- A touch on a row leaves the dropdown as it is. -/
lemma Altered.get_of_overOption (h : Altered x y t t') {w : Widget Control} (hget : t.get id = some w)
    (hrole : w.kind.role = .dropdown dd) (hover : OverOption (widgetRectScrolled w.common 0) dd i text x y) :
    ∃ w', t'.get id = some w' ∧ w'.kind.role = .dropdown dd ∧
      widgetRectScrolled w'.common 0 = widgetRectScrolled w.common 0 := by
  obtain ⟨w', hw', halters⟩ := h id w hget
  have hdd : w.kind.role.dropdown? = some dd := by rw [hrole]; rfl
  refine ⟨w', hw', ?_, by rw [widgetRectScrolled, widgetRectScrolled, halters.pos, halters.size]⟩
  have hsame : w'.kind.role.dropdown? = some dd := by
    rcases halters.dropdown with hsame | ⟨dd', isOpen, hdd', -, hpoint⟩
    · exact hsame.trans hdd
    · obtain rfl := Option.some.inj (hdd.symm.trans hdd')
      rw [not_inside_of_overOption hover, insideOpen_of_overOption hover] at hpoint
      simp at hpoint
  exact role_eq_of_dropdown? hsame

/-! ### Choosing an option -/

/-- An open dropdown shows its option `i` at the point: it has not been scrolled, and what is drawn after
it is elsewhere. -/
structure Offered (t : UiTree Control) (id : WidgetId) (w : Widget Control) (dd : DropdownWidget) (i : Nat)
    (text : String) (x y : Int) : Prop where
  laidOut : LaidOut (t.mapKind Control.kind)
  get_eq : t.get id = some w
  role_eq : w.kind.role = .dropdown dd
  row : OverOption (widgetRectScrolled w.common 0) dd i text x y
  drawn : ∃ before d after, (t.mapKind Control.kind).render = before ++ d :: after ∧ d.id = id ∧
    d.rect = widgetRectScrolled w.common 0 ∧ ∀ e ∈ after, e.rect.contains x y = false

/-- The touch chooses the option, closes the dropdown and calls the app once, with the option's text. -/
def Chosen (t : UiTree Control) (id : WidgetId) (w : Widget Control) (dd : DropdownWidget) (i : Nat)
    (text : String) (x y : Int) : Prop :=
  let down := t.dispatchTouchDown x y
  let up := down.tree.dispatchTouchUp x y
  up.tree.dropdownAt id = some { dd with selected := UInt8.ofNat i, isOpen := false } ∧
    down.calls ++ up.calls = call dd.onChange w.common.id (some text)

/-- A touch on an option that a dropdown offers never chooses it: the dropdown stays open. -/
theorem option_not_chosen {w : Widget Control} (h : t.Offered id w dd i text x y) :
    ¬ t.Chosen id w dd i text x y := by
  rintro ⟨hchosen, -⟩
  obtain ⟨w', hw', hrole', hrect⟩ :=
    (altered_dispatchTouchDown t x y).get_of_overOption h.get_eq h.role_eq h.row
  have hover : OverOption (widgetRectScrolled w'.common 0) dd i text x y := hrect ▸ h.row
  obtain ⟨w'', hw'', hrole'', -⟩ :=
    (altered_dispatchTouchUp (t.dispatchTouchDown x y).tree x y).get_of_overOption hw' hrole' hover
  have hstays : ((t.dispatchTouchDown x y).tree.dispatchTouchUp x y).tree.dropdownAt id = some dd := by
    rw [dropdownAt, hw'', Option.bind_some, hrole'']
    rfl
  have hopen : dd.isOpen = true := (overOption_iff.mp h.row).1
  rw [hstays] at hchosen
  rw [Option.some.inj hchosen] at hopen
  cases hopen

/-- A panel with a dropdown of two levels, which has been opened. -/
def levels : DropdownWidget := ⟨["Low", "High"], 0, true, some 7⟩

def levelWidget : Widget Control :=
  ⟨{ id := 1, pos := ⟨10, 10⟩, size := ⟨50, 20⟩ }, { role := .dropdown levels }⟩

def levelPanel : UiTree Control :=
  ((UiTree.new ⟨{ size := ⟨100, 100⟩ }, { role := .container 0 }⟩).addChild 0 levelWidget).1

lemma offered_levelPanel : levelPanel.Offered 1 levelWidget levels 1 "High" 20 55 where
  laidOut := by
    have hpanel : levelPanel.mapKind Control.kind =
        ((UiTree.new ⟨{ size := ⟨100, 100⟩ }, .container 0⟩).addChild 0 ⟨levelWidget.common, .other⟩).1 :=
      rfl
    rw [hpanel]
    exact .built (.addChild 0 _ (.new _) (by decide))
  get_eq := rfl
  role_eq := rfl
  row := overOption_iff.mpr (by decide)
  drawn := ⟨[⟨0, ⟨0, 0, 100, 100⟩, []⟩], ⟨1, ⟨10, 10, 50, 20⟩, [⟨0, 0, 100, 100⟩]⟩, [], rfl, rfl, rfl,
    fun _ he => absurd he List.not_mem_nil⟩

theorem option_not_chosen_levelPanel : ¬ levelPanel.Chosen 1 levelWidget levels 1 "High" 20 55 :=
  option_not_chosen offered_levelPanel

/-- A touch on the second level leaves the first one chosen and the dropdown open. -/
theorem not_offered_chosen : ¬ ∀ (t : UiTree Control) (id : WidgetId) (w : Widget Control)
    (dd : DropdownWidget) (i : Nat) (text : String) (x y : Int),
      t.Offered id w dd i text x y → t.Chosen id w dd i text x y := by
  intro hall
  have hchosen := (hall _ _ _ _ _ _ _ _ offered_levelPanel).1
  revert hchosen
  decide

end UiTree

end ThistleOS.Toolkit
