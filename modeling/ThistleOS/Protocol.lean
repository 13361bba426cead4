import ThistleOS.Component

/-!
# Protocols

A protocol says which calls may be made in each of its states, and what its state is afterwards. A component keeps to
a protocol if the calls that it makes while it answers an operation are a run of it, from what the state of the
component stands for to what its next state stands for.
-/

/-- The calls that may be made, with their answers, and the states that they lead to. -/
structure Protocol (Q Call : Type) where
  Step : Q → Call → Q → Prop

namespace Protocol

variable {Q Call : Type} {P : Protocol Q Call} {q q' q'' : Q} {c : Call} {calls calls' : List Call}

inductive Run (P : Protocol Q Call) : Q → List Call → Q → Prop
  | nil (q : Q) : Run P q [] q
  | cons {q q' q'' : Q} {c : Call} {calls : List Call} (h : P.Step q c q') (hrest : Run P q' calls q'') :
    Run P q (c :: calls) q''

lemma run_append : P.Run q (calls ++ calls') q'' ↔ ∃ q', P.Run q calls q' ∧ P.Run q' calls' q'' := by
  constructor
  · intro h
    induction calls generalizing q with
    | nil => exact ⟨q, .nil q, h⟩
    | cons c calls ih =>
      cases h with
      | cons hc hrest =>
        obtain ⟨q', hcalls, hcalls'⟩ := ih hrest
        exact ⟨q', .cons hc hcalls, hcalls'⟩
  · rintro ⟨q', hcalls, hcalls'⟩
    induction hcalls with
    | nil => exact hcalls'
    | cons hc _ ih => exact .cons hc (ih hcalls')

lemma run_singleton : P.Run q [c] q' ↔ P.Step q c q' := by
  constructor
  · intro h
    cases h with
    | cons hc hrest =>
      cases hrest
      exact hc
  · exact fun h => .cons h (.nil q')

/-- A call after a run. -/
lemma Run.snoc (h : P.Run q calls q') (hc : P.Step q' c q'') : P.Run q (calls ++ [c]) q'' :=
  run_append.mpr ⟨q', h, run_singleton.mpr hc⟩

/-- What holds of the calls made so far and of the state of the protocol, if each step keeps it. -/
theorem Run.invariant {I : List Call → Q → Prop}
    (hstep : ∀ {before q c q'}, I before q → P.Step q c q' → I (before ++ [c]) q') {before : List Call}
    (h : P.Run q calls q') (hq : I before q) : I (before ++ calls) q' := by
  induction h generalizing before with
  | nil => rwa [List.append_nil]
  | cons hc _ ih =>
    rw [List.append_cons]
    exact ih (hstep hq hc)

section Component

variable {Op : Type} {Reply : Op → Type} {σ : Type} {C : Component Op Reply σ}

/-- A record of the calls that the answers come with. -/
def record (made : (o : Op) → Reply o → List Call) (o : Op) (r : Reply o) (log : List Call) : List Call :=
  log ++ made o r

/-- The calls of a run of a component that keeps to the protocol are a run of the protocol. -/
theorem run_watch {made : (o : Op) → Reply o → List Call} {standsFor : σ → Q}
    (hstep : ∀ o s, P.Run (standsFor s) (made o (C.reply o s)) (standsFor (C.next o s))) {w : σ × List Call}
    (hw : P.Run q w.2 (standsFor w.1)) (ops : List Op) :
    P.Run q ((C.watch (record made)).run w ops).2 (standsFor ((C.watch (record made)).run w ops).1) := by
  induction ops generalizing w with
  | nil => exact hw
  | cons o ops ih =>
    rw [Component.run_cons]
    exact ih (run_append.mpr ⟨standsFor w.1, hw, hstep o w.1⟩)

end Component

end Protocol
