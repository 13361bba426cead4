import Mathlib.Data.Finset.Card
import Mathlib.Data.List.Perm.Basic
import Mathlib.Data.List.Nodup
import Mathlib.Logic.Relation
import Mathlib.Tactic.Common

/-!
# The arena of widgets

The widgets of an app lie in the slots of an arena, and each slot names its parent and its children.
Removed slots are kept in a list and are used again. `κ` is what the kinds of widgets have of their
own.
-/

namespace ThistleOS.Toolkit

abbrev WidgetId := Nat

structure Pos where
  x : Int
  y : Int
  deriving DecidableEq, Repr

structure Size where
  w : Nat
  h : Nat
  deriving DecidableEq, Repr

structure CommonProps where
  id : WidgetId := 0
  pos : Pos := ⟨0, 0⟩
  size : Size := ⟨0, 0⟩
  visible : Bool := true
  dirty : Bool := true
  focused : Bool := false
  deriving DecidableEq, Repr

structure Widget (κ : Type) where
  common : CommonProps
  kind : κ

structure Node (κ : Type) where
  widget : Widget κ
  parent : Option WidgetId
  children : List WidgetId
  generation : UInt16
  alive : Bool

/-- The slots, the removed ones with the last one first, and the widget that has the focus. -/
structure UiTree (κ : Type) where
  nodes : List (Node κ)
  root : WidgetId
  free : List WidgetId
  focus : Option WidgetId

variable {κ : Type}

def maxChildren : Nat := 32

def Widget.mapCommon (w : Widget κ) (f : CommonProps → CommonProps) : Widget κ :=
  { w with common := f w.common }

namespace UiTree

def new (rootWidget : Widget κ) : UiTree κ where
  nodes := [⟨rootWidget, none, [], 0, true⟩]
  root := 0
  free := []
  focus := none

/-! ### Accessors -/

/-- The slot, if it is occupied. -/
def aliveNode (t : UiTree κ) (id : WidgetId) : Option (Node κ) :=
  (t.nodes[id]?).filter (·.alive)

def isAlive (t : UiTree κ) (id : WidgetId) : Bool := (t.aliveNode id).isSome

def get (t : UiTree κ) (id : WidgetId) : Option (Widget κ) := (t.aliveNode id).map (·.widget)

def children (t : UiTree κ) (id : WidgetId) : List WidgetId :=
  ((t.aliveNode id).map (·.children)).getD []

def parent (t : UiTree κ) (id : WidgetId) : Option WidgetId := (t.aliveNode id).bind (·.parent)

def modifyNode (t : UiTree κ) (id : WidgetId) (f : Node κ → Node κ) : UiTree κ :=
  { t with nodes := t.nodes.modify id f }

/-- What a caller does to a widget that it may change. -/
def getMut (t : UiTree κ) (id : WidgetId) (f : Widget κ → Widget κ) : Option (UiTree κ) :=
  if t.isAlive id then some (t.modifyNode id fun n => { n with widget := f n.widget }) else none

/-! ### Focus -/

def setFocused (t : UiTree κ) (id : WidgetId) (focused : Bool) : UiTree κ :=
  (t.getMut id fun w => w.mapCommon fun c => { c with focused := focused, dirty := true }).getD t

/-- Clear the flag of the widget that has the focus. -/
def blur (t : UiTree κ) : UiTree κ :=
  match t.focus with
  | some old => t.setFocused old false
  | none => t

def setFocus (t : UiTree κ) (id : Option WidgetId) : UiTree κ :=
  match id with
  | some new => { t.blur.setFocused new true with focus := id }
  | none => { t.blur with focus := id }

/-! ### Adding -/

/-- A slot for the widget: the last one that was removed, or a new one. Ids have 16 bits. -/
def allocate (t : UiTree κ) (parent : WidgetId) (widget : Widget κ) : UiTree κ × WidgetId :=
  match t.free with
  | freeId :: free =>
    ({ t with
        nodes := t.nodes.modify freeId fun slot =>
          { widget := widget.mapCommon fun c => { c with id := freeId }
            parent := some parent
            children := []
            generation := slot.generation + 1
            alive := true }
        free := free }, freeId)
  | [] =>
    let id := t.nodes.length % 0x10000
    ({ t with
        nodes := t.nodes ++
          [{ widget := widget.mapCommon fun c => { c with id := id }
             parent := some parent
             children := []
             generation := 0
             alive := true }] }, id)

/-- Add the widget to its parent's children, or roll back when there is no room for it. -/
def attach (t : UiTree κ) (parent id : WidgetId) : UiTree κ × Option WidgetId :=
  if (t.children parent).length < maxChildren then
    (t.modifyNode parent fun n => { n with children := n.children ++ [id] }, some id)
  else
    ({ t.modifyNode id fun n => { n with alive := false } with free := id :: t.free }, none)

def addChild (t : UiTree κ) (parent : WidgetId) (widget : Widget κ) :
    UiTree κ × Option WidgetId :=
  if t.isAlive parent then
    let (t, id) := t.allocate parent widget
    t.attach parent id
  else (t, none)

/-! ### Removing -/

/-- The ids from `id` down, depth first; `fuel` bounds the depth. -/
def collectSubtree (t : UiTree κ) : Nat → WidgetId → List WidgetId
  | 0, _ => []
  | fuel + 1, id => id :: (t.children id).flatMap (t.collectSubtree fuel)

/-- Put the last element in the place of the one at `pos`. -/
def swapRemove (l : List WidgetId) (pos : Nat) : List WidgetId :=
  match l.getLast? with
  | some last => (l.set pos last).dropLast
  | none => l

def unlinkFrom (id : WidgetId) (n : Node κ) : Node κ :=
  match n.children.idxOf? id with
  | some pos => { n with children := swapRemove n.children pos }
  | none => n

def unlink (t : UiTree κ) (id : WidgetId) : UiTree κ :=
  match t.parent id with
  | some parentId => t.modifyNode parentId (unlinkFrom id)
  | none => t

def kill (t : UiTree κ) (rid : WidgetId) : UiTree κ where
  nodes := t.nodes.modify rid fun n => { n with alive := false, children := [] }
  root := t.root
  free := rid :: t.free
  focus := if t.focus = some rid then none else t.focus

/-- No chain of children is longer than the number of slots. -/
def toRemove (t : UiTree κ) (id : WidgetId) : List WidgetId := t.collectSubtree t.nodes.length id

def remove (t : UiTree κ) (id : WidgetId) : UiTree κ × Bool :=
  if id = t.root then (t, false)
  else if !t.isAlive id then (t, false)
  else ((t.toRemove id).foldl kill (t.unlink id), true)

/-! ### Slots after an operation -/

variable {t : UiTree κ} {id p c : WidgetId}

/-- The children that a slot lists, occupied or not. -/
def listed (t : UiTree κ) (id : WidgetId) : List WidgetId := (t.nodes[id]?).elim [] (·.children)

lemma isAlive_iff : t.isAlive id = true ↔ ∃ n, t.nodes[id]? = some n ∧ n.alive = true := by
  cases h : t.nodes[id]? <;> simp [isAlive, aliveNode, h]

lemma lt_of_isAlive (h : t.isAlive id = true) : id < t.nodes.length := by
  obtain ⟨n, hn, -⟩ := isAlive_iff.mp h
  exact (List.getElem?_eq_some_iff.mp hn).1

lemma aliveNode_of_isAlive (h : t.isAlive id = true) : t.aliveNode id = t.nodes[id]? := by
  obtain ⟨n, hn, halive⟩ := isAlive_iff.mp h
  simp [aliveNode, hn, halive]

lemma aliveNode_eq_none (h : t.isAlive id = false) : t.aliveNode id = none := by
  simpa [isAlive] using h

lemma children_of_isAlive (h : t.isAlive id = true) : t.children id = t.listed id := by
  rw [children, aliveNode_of_isAlive h, listed]
  cases t.nodes[id]? <;> rfl

lemma children_eq_nil (h : t.isAlive id = false) : t.children id = [] := by
  simp [children, aliveNode_eq_none h]

/-- Two trees whose slots are alike have the same widgets alive. -/
lemma isAlive_congr {t' : UiTree κ} (h : t'.nodes[id]? = t.nodes[id]?) :
    t'.isAlive id = t.isAlive id := by
  simp only [isAlive, aliveNode, h]

lemma listed_congr {t' : UiTree κ} (h : t'.nodes[id]? = t.nodes[id]?) :
    t'.listed id = t.listed id := by
  simp only [listed, h]

@[simp] lemma nodes_modifyNode (id : WidgetId) (f : Node κ → Node κ) :
    (t.modifyNode id f).nodes = t.nodes.modify id f := rfl

end UiTree

end ThistleOS.Toolkit
