import Mathlib.Tactic.Common

/-!
# Components

A component answers calls one after the other and keeps a state between them. A property of its
runs is a property of each call and the state that the call finds.
-/

/-- A state machine that answers each call. -/
structure Component (Op : Type) (Reply : Op → Type) (σ : Type) where
  step : (o : Op) → σ → Reply o × σ

namespace Component

variable {Op : Type} {Reply : Op → Type} {σ τ : Type} (C : Component Op Reply σ)

def reply (o : Op) (s : σ) : Reply o := (C.step o s).1

def next (o : Op) (s : σ) : σ := (C.step o s).2

/-- The state after a list of calls. -/
def run (s : σ) (ops : List Op) : σ := ops.foldl (fun s o => C.next o s) s

/-- `P` holds of every call of a run, with the state the call finds. -/
def Along (P : Op → σ → Prop) (s : σ) (ops : List Op) : Prop :=
  ∀ pre o post, ops = pre ++ o :: post → P o (C.run s pre)

variable {C} {P Q : Op → σ → Prop} {I : σ → Prop} {s : σ}

@[simp] lemma run_nil : C.run s [] = s := rfl

@[simp] lemma run_cons (o : Op) (ops : List Op) : C.run s (o :: ops) = C.run (C.next o s) ops := rfl

@[simp] lemma run_append (ops ops' : List Op) :
    C.run s (ops ++ ops') = C.run (C.run s ops) ops' := List.foldl_append

@[simp] lemma along_nil : C.Along P s [] :=
  fun pre o post h => absurd h (by simp)

lemma along_cons {o : Op} {ops : List Op} :
    C.Along P s (o :: ops) ↔ P o s ∧ C.Along P (C.next o s) ops := by
  constructor
  · intro h
    refine ⟨h [] o ops rfl, fun pre o' post hops => ?_⟩
    have hpre := h (o :: pre) o' post (by simp [hops])
    exact hpre
  · rintro ⟨ho, h⟩ pre o' post hops
    cases pre with
    | nil =>
      obtain ⟨rfl, rfl⟩ := List.cons.inj hops
      exact ho
    | cons o'' pre =>
      obtain ⟨rfl, rfl⟩ := List.cons.inj hops
      exact h pre o' post rfl

/-- The invariant rule: what each call that satisfies `P` preserves is found by every call of a
run whose calls all satisfy `P`, and is left behind by the run. -/
theorem along_of_preserved (hstep : ∀ o s, I s → P o s → I (C.next o s)) {ops : List Op}
    (hs : I s) (h : C.Along P s ops) :
    C.Along (fun o s => I s ∧ P o s) s ops ∧ I (C.run s ops) := by
  induction ops generalizing s with
  | nil => exact ⟨along_nil, hs⟩
  | cons o ops ih =>
    rw [along_cons] at h ⊢
    obtain ⟨hrest, hrun⟩ := ih (hstep o s hs h.1) h.2
    exact ⟨⟨⟨hs, h.1⟩, hrest⟩, hrun⟩

lemma Along.mono {ops : List Op} (h : C.Along P s ops) (hPQ : ∀ o s, P o s → Q o s) : C.Along Q s ops :=
  fun pre o post hops => hPQ o _ (h pre o post hops)

/-- What every state of a run satisfies is there after each call, too. -/
lemma along_next {D : σ → Prop} {ops : List Op} (h : C.Along (fun _ => D) s ops)
    (hlast : D (C.run s ops)) : C.Along (fun o s => D (C.next o s)) s ops := by
  induction ops generalizing s with
  | nil => exact along_nil
  | cons o ops ih =>
    rw [along_cons] at h ⊢
    refine ⟨?_, ih h.2 hlast⟩
    cases ops with
    | nil => exact hlast
    | cons o' ops => exact (along_cons.mp h.2).1

/-- Where the invariant makes `Q` and `P` the same and `P` keeps it, every call of a run satisfies `Q`
exactly if every call of the run satisfies `P`. -/
theorem along_iff (hstep : ∀ o s, I s → (Q o s ↔ P o s))
    (hkeep : ∀ o s, I s → P o s → I (C.next o s)) {ops : List Op} (hs : I s) :
    C.Along Q s ops ↔ C.Along P s ops := by
  induction ops generalizing s with
  | nil => exact iff_of_true along_nil along_nil
  | cons o ops ih =>
    rw [along_cons, along_cons, hstep o s hs]
    exact and_congr_right fun ho => ih (hkeep o s hs ho)

/-- Where a call keeps the invariant exactly if it satisfies `P`, the invariant holds in every state of
a run exactly if every call of the run satisfies `P`. -/
theorem along_next_iff (hstep : ∀ o s, I s → (I (C.next o s) ↔ P o s)) {ops : List Op} (hs : I s) :
    C.Along (fun o s => I (C.next o s)) s ops ↔ C.Along P s ops :=
  along_iff hstep (fun o s hs => (hstep o s hs).mpr) hs

/-! A component with more in its states than another one, which `f` leaves out. -/

section Map

variable {Reply' : Op → Type} {ρ : Type} {D : Component Op Reply' ρ} {f : ρ → σ}

lemma run_map (h : ∀ o r, f (D.next o r) = C.next o (f r)) (ops : List Op) (r : ρ) :
    f (D.run r ops) = C.run (f r) ops := by
  induction ops generalizing r with
  | nil => rfl
  | cons o ops ih => rw [run_cons, run_cons, ih, h]

/-- A property that looks at nothing that is left out holds along the runs of both. -/
lemma along_map (h : ∀ o r, f (D.next o r) = C.next o (f r)) {ops : List Op} {r : ρ} :
    D.Along (fun o r => P o (f r)) r ops ↔ C.Along P (f r) ops := by
  induction ops generalizing r with
  | nil => exact iff_of_true along_nil along_nil
  | cons o ops ih => rw [along_cons, along_cons, ih, h]

end Map

/-- The component together with a record that an observer keeps of its calls and replies. -/
def watch (C : Component Op Reply σ) (record : (o : Op) → Reply o → τ → τ) :
    Component Op Reply (σ × τ) where
  step o s := (C.reply o s.1, (C.next o s.1, record o (C.reply o s.1) s.2))

@[simp] lemma watch_next (record : (o : Op) → Reply o → τ → τ) (o : Op) (s : σ × τ) :
    (C.watch record).next o s = (C.next o s.1, record o (C.reply o s.1) s.2) := rfl

/-- The component together with a record that an observer keeps of its calls and of the states they
find. -/
def observe (C : Component Op Reply σ) (record : (o : Op) → σ → τ → τ) :
    Component Op Reply (σ × τ) where
  step o s := (C.reply o s.1, (C.next o s.1, record o s.1 s.2))

@[simp] lemma observe_next (record : (o : Op) → σ → τ → τ) (o : Op) (s : σ × τ) :
    (C.observe record).next o s = (C.next o s.1, record o s.1 s.2) := rfl

end Component
