import Mathlib.Data.Rat.Floor
import Mathlib.Tactic.Common

/-!
# The layout engine

A container gives rectangles to its visible children: those without a position of their own follow one another
along an axis, the others lie over them. A widget is laid out with what is below it, so that the widgets are the
nodes of a tree here. The numbers `f32` are rationals.
-/

namespace ThistleOS.Toolkit.Layout

structure Pos where
  x : Int32
  y : Int32
  deriving DecidableEq

structure Size where
  w : UInt32
  h : UInt32
  deriving DecidableEq

inductive SizeHint where
  | fixed (px : UInt32)
  | percent (pct : ℚ)
  | flex (weight : ℚ)
  | auto
  deriving DecidableEq

inductive Direction where
  | row
  | column
  deriving DecidableEq, Repr

inductive Align where
  | start
  | center
  | end
  | spaceBetween
  deriving DecidableEq, Repr

structure Rect where
  x : Int32
  y : Int32
  w : UInt32
  h : UInt32
  deriving DecidableEq

structure Padding where
  left : UInt16
  top : UInt16
  right : UInt16
  bottom : UInt16
  deriving DecidableEq

structure ContainerWidget where
  direction : Direction
  gap : UInt16
  align : Align
  crossAlign : Align
  deriving DecidableEq

/-- What the layout reads and writes of a widget; `container` is there if the widget is one. -/
structure Widget where
  pos : Pos
  size : Size
  absolutePos : Option Pos
  widthHint : SizeHint
  heightHint : SizeHint
  padding : Padding
  visible : Bool
  container : Option ContainerWidget
  deriving DecidableEq

inductive UiNode where
  | node (widget : Widget) (children : List UiNode)

namespace UiNode

def widget : UiNode → Widget
  | node widget _ => widget

def children : UiNode → List UiNode
  | node _ children => children

end UiNode

/-! ### Sizes -/

/-- A cast `as u32`. -/
def toU32 (q : ℚ) : UInt32 := .ofNat (min ⌊q⌋.toNat 0xFFFFFFFF)

def clamp (pct : ℚ) : ℚ := max 0 (min 1 pct)

def saturatingSub (a b : UInt32) : UInt32 := if b ≤ a then a - b else 0

def resolveHint (hint : SizeHint) (parent : UInt32) : UInt32 :=
  match hint with
  | .fixed px => px
  | .percent pct => toU32 (parent.toNat * clamp pct)
  | .flex _ => parent
  | .auto => parent

def mainSize (direction : Direction) (w h : UInt32) : UInt32 :=
  match direction with
  | .row => w
  | .column => h

def crossSize (direction : Direction) (w h : UInt32) : UInt32 :=
  match direction with
  | .row => h
  | .column => w

def paddedRect (x y : Int32) (w h : UInt32) (padding : Padding) : Rect where
  x := x + padding.left.toUInt32.toInt32
  y := y + padding.top.toUInt32.toInt32
  w := saturatingSub w (padding.left.toUInt32 + padding.right.toUInt32)
  h := saturatingSub h (padding.top.toUInt32 + padding.bottom.toUInt32)

/-! ### Children in the flow -/

structure ChildInfo where
  main : UInt32
  cross : UInt32
  flex : ℚ

def Widget.mainHint (direction : Direction) (w : Widget) : SizeHint :=
  match direction with
  | .row => w.widthHint
  | .column => w.heightHint

def Widget.crossHint (direction : Direction) (w : Widget) : SizeHint :=
  match direction with
  | .row => w.heightHint
  | .column => w.widthHint

/-- The first pass, where a child that grows has no size yet. -/
def measure (direction : Direction) (mainTotal crossTotal : UInt32) (child : Widget) : ChildInfo :=
  let cross := resolveHint (child.crossHint direction) crossTotal
  match child.mainHint direction with
  | .fixed px => ⟨px, cross, 0⟩
  | .percent pct => ⟨toU32 (mainTotal.toNat * clamp pct), cross, 0⟩
  | .flex weight => ⟨0, cross, weight⟩
  | .auto => ⟨0, cross, 0⟩

def totalGap (c : ContainerWidget) (childCount : ℕ) : UInt32 :=
  if 1 < childCount then c.gap.toUInt32 * (.ofNat childCount - 1) else 0

/-- A child that grows gets its share of what remains. -/
def grow (remaining : UInt32) (flexTotal : ℚ) (info : ChildInfo) : ChildInfo :=
  if 0 < flexTotal ∧ 0 < info.flex then
    { info with main := toU32 (remaining.toNat * (info.flex / flexTotal)) }
  else info

def sumMain (infos : List ChildInfo) : UInt32 := infos.foldl (fun sum info => sum + info.main) 0

def sumFlex (infos : List ChildInfo) : ℚ := infos.foldl (fun sum info => sum + info.flex) 0

def childInfos (c : ContainerWidget) (content : Rect) (children : List Widget) : List ChildInfo :=
  let mainTotal := mainSize c.direction content.w content.h
  let crossTotal := crossSize c.direction content.w content.h
  let infos := children.map (measure c.direction mainTotal crossTotal)
  let remaining := saturatingSub mainTotal (sumMain infos + totalGap c children.length)
  infos.map (grow remaining (sumFlex infos))

/-- Where the first child begins, and what is put between two of them besides the gap. -/
def startAndSpace (align : Align) (extra : UInt32) (childCount : ℕ) : Int32 × UInt32 :=
  match align with
  | .start => (0, 0)
  | .center => (extra.toInt32 / 2, 0)
  | .end => (extra.toInt32, 0)
  | .spaceBetween => if 1 < childCount then (0, extra / (.ofNat childCount - 1)) else (0, 0)

def crossOffset (crossAlign : Align) (crossTotal cross : UInt32) : Int32 :=
  match crossAlign with
  | .start => 0
  | .center => (saturatingSub crossTotal cross / 2).toInt32
  | .end => (saturatingSub crossTotal cross).toInt32
  | .spaceBetween => 0

def childRect (c : ContainerWidget) (content : Rect) (mainCursor : Int32) (info : ChildInfo) : Rect :=
  let offset := crossOffset c.crossAlign (crossSize c.direction content.w content.h) info.cross
  match c.direction with
  | .row => ⟨content.x + mainCursor, content.y + offset, info.main, info.cross⟩
  | .column => ⟨content.x + offset, content.y + mainCursor, info.cross, info.main⟩

def place (c : ContainerWidget) (content : Rect) (spaceBetween : UInt32) : Int32 → List ChildInfo → List Rect
  | _, [] => []
  | mainCursor, info :: infos =>
    childRect c content mainCursor info :: place c content spaceBetween
      (mainCursor + (info.main.toInt32 + c.gap.toUInt32.toInt32 + spaceBetween.toInt32)) infos

/-- The rectangles of the children in the flow. -/
def layoutChildren (c : ContainerWidget) (content : Rect) (children : List Widget) : List Rect :=
  let infos := childInfos c content children
  let used := sumMain infos + totalGap c children.length
  let extra := saturatingSub (mainSize c.direction content.w content.h) used
  let start := startAndSpace c.align extra children.length
  place c content start.2 start.1 infos

/-! ### The tree -/

def Widget.inFlow (w : Widget) : Bool := w.visible && w.absolutePos.isNone

/-- The rectangle of a child with a position of its own. -/
def overlayRect (content : Rect) (offset : Pos) (child : Widget) : Rect where
  x := content.x + offset.x
  y := content.y + offset.y
  w := resolveHint child.widthHint content.w
  h := resolveHint child.heightHint content.h

def Widget.placed (w : Widget) (available : Rect) : Widget :=
  { w with
    pos := ⟨available.x, available.y⟩
    size := ⟨resolveHint w.widthHint available.w, resolveHint w.heightHint available.h⟩ }

/-- The rectangle inside the padding. -/
def Widget.content (w : Widget) : Rect := paddedRect w.pos.x w.pos.y w.size.w w.size.h w.padding

/-- The rectangles of the children that are shown. Those in the flow take the rectangles of the list one after
another. -/
def assign (content : Rect) : List Rect → List Widget → List (Option Rect)
  | _, [] => []
  | rects, child :: children =>
    if child.visible then
      match child.absolutePos with
      | some offset => some (overlayRect content offset child) :: assign content rects children
      | none => rects.head? :: assign content rects.tail children
    else none :: assign content rects children

def childRects (c : ContainerWidget) (content : Rect) (children : List Widget) : List (Option Rect) :=
  assign content (layoutChildren c content (children.filter Widget.inFlow)) children

mutual

def layoutNode : UiNode → Rect → UiNode
  | .node w children, available =>
    let w := w.placed available
    match w.container with
    | none => .node w children
    | some c => .node w (layoutEach (childRects c w.content (children.map UiNode.widget)) children)

def layoutEach : List (Option Rect) → List UiNode → List UiNode
  | some rect :: rects, child :: children => layoutNode child rect :: layoutEach rects children
  | none :: rects, child :: children => child :: layoutEach rects children
  | [], children => children
  | _, [] => []

end

def layout (root : UiNode) (viewport : Rect) : UiNode := layoutNode root viewport

end ThistleOS.Toolkit.Layout
