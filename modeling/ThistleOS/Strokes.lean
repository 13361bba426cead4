import Mathlib.Tactic.Common

/-!
# Strokes of a finger

A finger that touches a panel is told about as strokes: it goes down, moves any number of times, and goes up where it
has been last.
-/

/-- What is told about a finger. -/
inductive Touch (α : Type)
  | down (p : α)
  | move (p : α)
  | up (p : α)
  deriving DecidableEq

/-- The touches lead from one state of the finger to another one. A finger is at a point or it is lifted. -/
inductive Strokes {α : Type} : Option α → List (Touch α) → Option α → Prop
  | nil (f : Option α) : Strokes f [] f
  | down {p : α} {l : List (Touch α)} {f : Option α} (h : Strokes (some p) l f) : Strokes none (.down p :: l) f
  | move {p q : α} {l : List (Touch α)} {f : Option α} (h : Strokes (some p) l f) : Strokes (some q) (.move p :: l) f
  | up {p : α} {l : List (Touch α)} {f : Option α} (h : Strokes none l f) : Strokes (some p) (.up p :: l) f

/-- What a look at the panel can find. -/
inductive Sight (α : Type)
  | unchanged
  | touched (p : α)
  | lifted

variable {α : Type}

namespace Touch

def point : Touch α → α
  | .down p | .move p | .up p => p

end Touch

namespace Strokes

lemma append {f f' f'' : Option α} {l l' : List (Touch α)} (h : Strokes f l f') (h' : Strokes f' l' f'') :
    Strokes f (l ++ l') f'' := by
  induction h with
  | nil f => exact h'
  | down _ ih => exact .down (ih h')
  | move _ ih => exact .move (ih h')
  | up _ ih => exact .up (ih h')

end Strokes

namespace Sight

/-- What is to be told after a look, and where the finger is then. -/
def track : Sight α → Option α → List (Touch α) × Option α
  | .unchanged, f => ([], f)
  | .touched p, none => ([.down p], some p)
  | .touched p, some _ => ([.move p], some p)
  | .lifted, none => ([], none)
  | .lifted, some p => ([.up p], none)

lemma strokes_track (sight : Sight α) (f : Option α) : Strokes f (sight.track f).1 (sight.track f).2 := by
  cases sight with
  | unchanged => exact .nil f
  | touched p =>
    cases f with
    | none => exact .down (.nil _)
    | some q => exact .move (.nil _)
  | lifted =>
    cases f with
    | none => exact .nil none
    | some p => exact .up (.nil none)

/-- What holds of the points that are seen holds of the finger and of all that is told. -/
lemma forall_track {P : α → Prop} {sight : Sight α} {f : Option α} (hf : ∀ p ∈ f, P p)
    (hsight : ∀ p, sight = .touched p → P p) :
    (∀ t ∈ (sight.track f).1, P t.point) ∧ ∀ p ∈ (sight.track f).2, P p := by
  cases sight with
  | unchanged => exact ⟨by simp [track], hf⟩
  | touched p =>
    have hp : P p := hsight p rfl
    cases f <;> exact ⟨by simpa [track, Touch.point] using hp, by simpa [track] using hp⟩
  | lifted =>
    cases f with
    | none => exact ⟨by simp [track], by simp [track]⟩
    | some q => exact ⟨by simpa [track, Touch.point] using hf q rfl, by simp [track]⟩

end Sight
