import Mathlib.Tactic.Common

/-!
# Logs with keys

A log of events of several subjects, each event with the key of its subject. The events of one
subject may have to follow an automaton.
-/

namespace Keyed

variable {κ α β : Type*} [DecidableEq κ]

/-- The events of one subject. -/
def eventsOf (k : κ) (log : List (κ × α)) : List α :=
  log.filterMap fun x => if x.1 = k then some x.2 else none

/-- Where the events of one subject lead, as long as each of them is allowed where it comes. -/
def runOf (next : β → α → Option β) (start : β) (k : κ) (log : List (κ × α)) : Option β :=
  (eventsOf k log).foldlM next start

variable {next : β → α → Option β} {start : β} {k k' : κ}

@[simp] lemma eventsOf_append (log log' : List (κ × α)) :
    eventsOf k (log ++ log') = eventsOf k log ++ eventsOf k log' := List.filterMap_append

@[simp] lemma eventsOf_self (xs : List α) : eventsOf k (xs.map (k, ·)) = xs := by
  induction xs with
  | nil => rfl
  | cons x xs ih =>
    have hx : eventsOf k ((k, x) :: xs.map (k, ·)) = x :: eventsOf k (xs.map (k, ·)) := by
      simp [eventsOf]
    rw [List.map_cons, hx, ih]

lemma eventsOf_of_ne (h : k' ≠ k) (xs : List α) : eventsOf k' (xs.map (k, ·)) = [] := by
  rw [eventsOf, List.filterMap_map, List.filterMap_eq_nil_iff]
  intro x _
  exact if_neg (Ne.symm h)

@[simp] lemma runOf_nil : runOf next start k [] = some start := rfl

lemma runOf_append (log : List (κ × α)) (xs : List α) :
    runOf next start k (log ++ xs.map (k, ·)) =
      (runOf next start k log).bind fun b => xs.foldlM next b := by
  rw [runOf, eventsOf_append, eventsOf_self, List.foldlM_append]
  rfl

lemma runOf_append_of_ne (h : k' ≠ k) (log : List (κ × α)) (xs : List α) :
    runOf next start k' (log ++ xs.map (k, ·)) = runOf next start k' log := by
  rw [runOf, eventsOf_append, eventsOf_of_ne h, List.append_nil, runOf]

end Keyed
