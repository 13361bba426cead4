import Mathlib.Logic.Function.Basic
import ThistleOS.PowerLoss.Prog

/-!
# Threads that share a state

Each thread answers one request after the other, each by a program. The calls of the programs are atomic and act on a state
that all threads share, in any order of the threads.

The logic gives every thread a resource of its own, which only its own calls change: the calls of a
program are checked against the resource, and an invariant relates the shared state to the resources of
all threads.
-/

namespace Threads

open PowerLoss

variable {S : Sig} {ι κ σ ρ α β : Type}

/-- What a call of a thread may reply, and the state it leaves. -/
structure Shared (S : Sig) (ι σ : Type) where
  Perform : ι → (o : S.Op) → σ → S.Reply o → σ → Prop

/-- The shared state, and what each thread still has to run of the request that it has begun. -/
structure Config (S : Sig) (ι κ σ : Type) where
  state : σ
  running : ι → Option (κ × Prog S Unit)

def Config.idle (s : σ) : Config S ι κ σ := ⟨s, fun _ => none⟩

section

variable [DecidableEq ι]

/-- The steps of a system whose threads may begin any request. -/
inductive Step (M : Shared S ι σ) (body : ι → κ → Prog S Unit) : ι → Config S ι κ σ → Config S ι κ σ → Prop
  | start (c : Config S ι κ σ) (i : ι) (q : κ) (hidle : c.running i = none) :
    Step M body i c ⟨c.state, Function.update c.running i (some (q, body i q))⟩
  | call (c : Config S ι κ σ) (i : ι) (q : κ) (o : S.Op) (k : S.Reply o → Prog S Unit) (r : S.Reply o)
    (s' : σ) (hrun : c.running i = some (q, .call o k)) (hperform : M.Perform i o c.state r s') :
    Step M body i c ⟨s', Function.update c.running i (some (q, k r))⟩
  | finish (c : Config S ι κ σ) (i : ι) (q : κ) (hrun : c.running i = some (q, .pure ())) :
    Step M body i c ⟨c.state, Function.update c.running i none⟩

/-- The configurations that threads reach from a state, in any order of their steps. -/
inductive Reachable (M : Shared S ι σ) (body : ι → κ → Prog S Unit) (s : σ) : Config S ι κ σ → Prop
  | init : Reachable M body s (.idle s)
  | step {i : ι} {c c' : Config S ι κ σ} (hc : Reachable M body s c) (h : Step M body i c c') :
    Reachable M body s c'

end

/-! ### Resources -/

/-- What a call needs of the resource of its thread, and what it makes of it. -/
structure Logic (S : Sig) (ι κ σ ρ : Type) where
  Inv : σ → (ι → ρ) → Prop
  Pre : ι → (o : S.Op) → ρ → Prop
  after : (o : S.Op) → S.Reply o → ρ → ρ
  /-- The resource of an idle thread. -/
  empty : ρ
  /-- What a request ends with. -/
  Fin : κ → ρ → Prop

/-- The calls respect the resources. -/
structure Logic.Sound [DecidableEq ι] (L : Logic S ι κ σ ρ) (M : Shared S ι σ) : Prop where
  call : ∀ i o s R r s', L.Inv s R → L.Pre i o (R i) → M.Perform i o s r s' →
    L.Inv s' (Function.update R i (L.after o r (R i)))
  finish : ∀ i q s R, L.Inv s R → L.Fin q (R i) → L.Inv s (Function.update R i L.empty)

/-- The calls of a program have what they need, and it ends in `Q`. -/
def Logic.Safe (L : Logic S ι κ σ ρ) (i : ι) (Q : α → ρ → Prop) : Prog S α → ρ → Prop
  | .pure a, x => Q a x
  | .call o k, x => L.Pre i o x ∧ ∀ r, L.Safe i Q (k r) (L.after o r x)

namespace Logic

variable {L : Logic S ι κ σ ρ} {i : ι}

@[simp] lemma safe_pure {Q : α → ρ → Prop} {a : α} {x : ρ} :
    L.Safe i Q (.pure a) x ↔ Q a x := Iff.rfl

@[simp] lemma safe_call {Q : α → ρ → Prop} {o : S.Op} {k : S.Reply o → Prog S α} {x : ρ} :
    L.Safe i Q (.call o k) x ↔ L.Pre i o x ∧ ∀ r, L.Safe i Q (k r) (L.after o r x) := Iff.rfl

lemma safe_bind {Q : β → ρ → Prop} (p : Prog S α) (f : α → Prog S β) (x : ρ) :
    L.Safe i Q (p >>= f) x ↔ L.Safe i (fun a y => L.Safe i Q (f a) y) p x := by
  induction p generalizing x with
  | pure a => exact Iff.rfl
  | call o k ih =>
    rw [Prog.call_bind, safe_call, safe_call]
    exact and_congr_right fun _ => forall_congr' fun r => ih r _

/-- The rule of consequence. -/
lemma Safe.mono {Q Q' : α → ρ → Prop} (hQ : ∀ a y, Q a y → Q' a y) {p : Prog S α} {x : ρ}
    (h : L.Safe i Q p x) : L.Safe i Q' p x := by
  induction p generalizing x with
  | pure a => exact hQ a x h
  | call o k ih => exact ⟨h.1, fun r => ih r (h.2 r)⟩

/-- Every thread has the resource for what it still has to run. -/
structure Holds (L : Logic S ι κ σ ρ) (c : Config S ι κ σ) (R : ι → ρ) : Prop where
  inv : L.Inv c.state R
  idle : ∀ i, c.running i = none → R i = L.empty
  safe : ∀ i q p, c.running i = some (q, p) → L.Safe i (fun _ => L.Fin q) p (R i)

section

variable [DecidableEq ι] {M : Shared S ι σ} {body : ι → κ → Prog S Unit}

/-- A step of one thread, as far as the others are concerned. -/
lemma Holds.update {c : Config S ι κ σ} {R : ι → ρ} (h : L.Holds c R) {s' : σ} {run : Option (κ × Prog S Unit)}
    {x : ρ} (hinv : L.Inv s' (Function.update R i x)) (hidle : run = none → x = L.empty)
    (hsafe : ∀ q p, run = some (q, p) → L.Safe i (fun _ => L.Fin q) p x) :
    L.Holds ⟨s', Function.update c.running i run⟩ (Function.update R i x) := by
  refine ⟨hinv, fun j hj => ?_, fun j q p hj => ?_⟩
  · by_cases hij : j = i
    · subst hij
      rw [Function.update_self]
      exact hidle (by simpa using hj)
    · rw [Function.update_of_ne hij]
      exact h.idle j (by simpa [hij] using hj)
  · by_cases hij : j = i
    · subst hij
      rw [Function.update_self]
      exact hsafe q p (by simpa using hj)
    · rw [Function.update_of_ne hij]
      exact h.safe j q p (by simpa [hij] using hj)

lemma Holds.step (hsound : L.Sound M)
    (hbody : ∀ i q, L.Safe i (fun _ => L.Fin q) (body i q) L.empty) {c c' : Config S ι κ σ} {R : ι → ρ}
    (h : L.Holds c R) (hstep : Step M body i c c') : ∃ R', L.Holds c' R' := by
  cases hstep with
  | start _ _ q hidle =>
    have hempty := h.idle i hidle
    refine ⟨Function.update R i L.empty, h.update ?_ (fun _ => rfl) ?_⟩
    · rw [← hempty, Function.update_eq_self]
      exact h.inv
    · intro q' p hp
      cases hp
      exact hbody i q
  | call _ _ q o k r s' hrun hperform =>
    have hsafe := h.safe i q _ hrun
    refine ⟨_, h.update (hsound.call i o c.state R r s' h.inv hsafe.1 hperform) ?_ ?_⟩
    · intro hnone
      cases hnone
    · intro q' p hp
      cases hp
      exact hsafe.2 r
  | finish _ _ q hrun =>
    refine ⟨_, h.update (hsound.finish i q c.state R h.inv (h.safe i q _ hrun)) (fun _ => rfl) ?_⟩
    intro q' p hp
    cases hp

/-- In every order of the threads, the invariant holds and every thread has what it needs. -/
theorem holds_of_reachable (hsound : L.Sound M)
    (hbody : ∀ i q, L.Safe i (fun _ => L.Fin q) (body i q) L.empty) {s : σ}
    (hs : L.Inv s fun _ => L.empty) {c : Config S ι κ σ} (hc : Reachable M body s c) :
    ∃ R, L.Holds c R := by
  induction hc with
  | init => exact ⟨fun _ => L.empty, hs, fun _ _ => rfl, fun i q p hp => by cases hp⟩
  | step _ hstep ih =>
    obtain ⟨R, hR⟩ := ih
    exact hR.step hsound hbody hstep

end

end Logic

end Threads
