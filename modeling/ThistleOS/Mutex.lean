import Mathlib.Tactic.Common

/-!
# A mutex that its holder cannot take again

What one thread does to data behind a mutex. The mutex is not reentrant: a thread that takes it while it holds it waits
forever. A thread that panicked while it held the mutex has left it poisoned.
-/

/-- Data behind a mutex, as its own thread sees it. -/
structure Mutex (σ : Type) where
  data : σ
  held : Bool
  poisoned : Bool

/-- What a thread does with the data of a mutex; `none` is a thread that waits for itself. -/
abbrev LockM (σ α : Type) := StateT (Mutex σ) Option α

namespace Mutex

variable {σ α : Type}

/-- A mutex that the thread does not hold. -/
def free (data : σ) (poisoned : Bool) : Mutex σ := ⟨data, false, poisoned⟩

/-- Take the mutex; the reply says whether the data can be used. -/
def lock : LockM σ Bool := fun m => if m.held then none else some (!m.poisoned, { m with held := true })

def unlock : LockM σ Unit := fun m => some ((), { m with held := false })

/-- Work on the data for the time of one expression; `poisoned` is the value where the data cannot be used. -/
def locked (f : σ → α × σ) (poisoned : α) : LockM σ α := fun m =>
  if m.held then none
  else if m.poisoned then some (poisoned, m)
  else some ((f m.data).1, { m with data := (f m.data).2 })

/-- Change the data under the mutex that is held. -/
def change (f : σ → σ) : LockM σ Unit := fun m => some ((), { m with data := f m.data })

section

variable {β : Type}

lemma bind_apply (x : LockM σ α) (f : α → LockM σ β) (m : Mutex σ) : (x >>= f) m = (x m).bind fun r => f r.1 r.2 := rfl

/-- A computation that goes through, and what follows it. -/
lemma bind_of_some {x : LockM σ α} {f : α → LockM σ β} {m m' : Mutex σ} {a : α} (h : x m = some (a, m')) :
    (x >>= f) m = f a m' := by
  rw [bind_apply, h]
  rfl

/-- A computation that waits forever, and what would follow it. -/
lemma bind_of_none {x : LockM σ α} {f : α → LockM σ β} {m : Mutex σ} (h : x m = none) : (x >>= f) m = none := by
  rw [bind_apply, h]
  rfl

end

section

variable {f : σ → α × σ} {g : σ → σ} {a : α} {s : σ} {b : Bool}

@[simp] lemma lock_free : lock (free s b) = some (!b, ⟨s, true, b⟩) := rfl

@[simp] lemma unlock_apply {h : Bool} : unlock ⟨s, h, b⟩ = some ((), free s b) := rfl

@[simp] lemma locked_free : locked f a (free s b) =
    some (if b then a else (f s).1, free (if b then s else (f s).2) b) := by
  cases b <;> rfl

/-- The holder of the mutex waits for itself. -/
@[simp] lemma locked_held : locked f a ⟨s, true, b⟩ = none := rfl

@[simp] lemma change_apply {h : Bool} : change g ⟨s, h, b⟩ = some ((), ⟨g s, h, b⟩) := rfl

end

end Mutex
