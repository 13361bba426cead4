import Mathlib.Tactic.Common

/-!
# Computations that may fail

What follows from the value of a computation for the steps that it is made of.
-/

namespace Except

variable {ε ε' α β : Type} {x : Except ε α} {f : α → Except ε β} {a : α} {b : β}

lemma ok_bind (a : α) (f : α → Except ε β) : (Except.ok a >>= f) = f a := rfl

lemma bind_ok (h : (x >>= f) = .ok b) : ∃ a, x = .ok a ∧ f a = .ok b := by
  cases x with
  | error e => cases h
  | ok a => exact ⟨a, rfl, h⟩

lemma exists_bind (hx : x = .ok a) (h : ∃ b, f a = .ok b) : ∃ b, (x >>= f) = .ok b := by
  rw [hx]
  exact h

/-- A check that has not thrown. -/
lemma check_ok {c : Prop} [Decidable c] {e : ε} {f : Unit → Except ε β}
    (h : (if c then throw e >>= f else f ()) = .ok b) : ¬ c ∧ f () = .ok b := by
  by_cases hc : c
  · rw [if_pos hc] at h
    cases h
  · rw [if_neg hc] at h
    exact ⟨hc, h⟩

lemma mapError_ok {g : ε → ε'} (h : x.mapError g = .ok a) : x = .ok a := by
  cases x with
  | error e => cases h
  | ok b => exact congrArg Except.ok (Except.ok.inj h)

lemma mapError_of_ok {g : ε → ε'} (h : x = .ok a) : x.mapError g = .ok a := by
  rw [h]
  rfl

end Except
