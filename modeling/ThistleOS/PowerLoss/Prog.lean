import Mathlib.Logic.Relation
import Mathlib.Tactic.Common

/-!
# Programs in an environment that fails

A program is a tree of calls to the operations of a signature. A machine answers the calls: it
performs an operation undisturbed, or under a fault of the environment, and a fault may leave the
operation without an answer, because the power was lost while it ran.

A run is driven by the list of what the environment does at each call; when the list is exhausted
the power is lost before the next call.
-/

namespace PowerLoss

/-- The operations a program may call, with the type of the reply to each. -/
structure Sig where
  Op : Type
  Reply : Op → Type

/-- The signature without operations. -/
def Sig.none : Sig where
  Op := Empty
  Reply := Empty.elim

instance : IsEmpty Sig.none.Op := inferInstanceAs (IsEmpty Empty)

/-- Two signatures side by side. -/
def Sig.sum (S T : Sig) : Sig where
  Op := S.Op ⊕ T.Op
  Reply := Sum.elim S.Reply T.Reply

inductive Prog (S : Sig) (α : Type)
  | pure (a : α)
  | call (o : S.Op) (k : S.Reply o → Prog S α)

namespace Prog

variable {S : Sig} {α β γ : Type}

def bind : Prog S α → (α → Prog S β) → Prog S β
  | .pure a, f => f a
  | .call o k, f => .call o fun r => (k r).bind f

instance : Monad (Prog S) where
  pure := .pure
  bind := Prog.bind

@[simp] lemma pure_eq (a : α) : (Pure.pure a : Prog S α) = .pure a := rfl

@[simp] lemma pure_bind (a : α) (f : α → Prog S β) : (Prog.pure a >>= f) = f a := rfl

@[simp] lemma call_bind (o : S.Op) (k : S.Reply o → Prog S α) (f : α → Prog S β) :
    (Prog.call o k >>= f) = .call o fun r => k r >>= f := rfl

lemma bind_pure (p : Prog S α) : (p >>= Prog.pure) = p := by
  induction p with
  | pure a => rfl
  | call o k ih => simp only [call_bind, ih]

lemma bind_assoc (p : Prog S α) (f : α → Prog S β) (g : β → Prog S γ) :
    (p >>= f >>= g) = (p >>= fun a => f a >>= g) := by
  induction p with
  | pure a => rfl
  | call o k ih => simp only [call_bind, ih]

instance : LawfulMonad (Prog S) := LawfulMonad.mk' _ bind_pure (fun _ _ => rfl) bind_assoc

/-- Call one operation and return its reply. -/
def op (o : S.Op) : Prog S (S.Reply o) := .call o .pure

/-- No program of a signature without operations calls one. -/
def value [IsEmpty S.Op] : Prog S α → α
  | .pure a => a
  | .call o _ => isEmptyElim o

end Prog

/-! ### Machines -/

/-- How states of type `σ` answer the operations of `S`: undisturbed, and under each fault of the
environment. A reply `none` to a fault is a loss of power while the operation ran. -/
structure Machine (S : Sig) (σ : Type) where
  Fault : Type
  perform : (o : S.Op) → σ → S.Reply o × σ
  disturb : (o : S.Op) → Fault → σ → Option (S.Reply o) × σ

namespace Machine

variable {S T : Sig} {σ τ : Type}

/-- One operation, with what the environment does to it. -/
def exec (M : Machine S σ) (o : S.Op) (c : Option M.Fault) (s : σ) : Option (S.Reply o) × σ :=
  match c with
  | none => (some (M.perform o s).1, (M.perform o s).2)
  | some f => M.disturb o f s

/-- Two machines side by side; a fault of one of them leaves the other undisturbed. -/
def sum (M : Machine S σ) (N : Machine T τ) : Machine (S.sum T) (σ × τ) where
  Fault := M.Fault ⊕ N.Fault
  perform
    | .inl o, (s, t) => let (r, s') := M.perform o s; (r, (s', t))
    | .inr o, (s, t) => let (r, t') := N.perform o t; (r, (s, t'))
  disturb
    | .inl o, .inl f, (s, t) => let (r, s') := M.disturb o f s; (r, (s', t))
    | .inr o, .inr f, (s, t) => let (r, t') := N.disturb o f t; (r, (s, t'))
    | .inl o, .inr _, (s, t) => let (r, s') := M.perform o s; (some r, (s', t))
    | .inr o, .inl _, (s, t) => let (r, t') := N.perform o t; (some r, (s, t'))

/-- The replies that report a failure, for two signatures side by side. -/
def sumFailed (fS : (o : S.Op) → S.Reply o → Bool)
    (fT : (o : T.Op) → T.Reply o → Bool) (o : (S.sum T).Op) (r : (S.sum T).Reply o) : Bool :=
  match o, r with
  | .inl o, r => fS o r
  | .inr o, r => fT o r

/-- The machine `M` in an environment that makes at most one operation fail. The flag of a state
says that an operation may still fail: it is cleared by the first reply that reports a failure, and
from then on the environment can only cut the power. -/
def oneFault (M : Machine S σ) (failed : (o : S.Op) → S.Reply o → Bool) :
    Machine S (σ × Bool) where
  Fault := M.Fault
  perform o s :=
    let (r, s') := M.perform o s.1
    (r, (s', s.2 && !failed o r))
  disturb o f s :=
    match M.disturb o f s.1 with
    | (none, s') => (none, (s', s.2))
    | (some r, s') =>
      if s.2 then (some r, (s', !failed o r))
      else
        let (r, s') := M.perform o s.1
        (some r, (s', false))

lemma oneFault_disturb (M : Machine S σ) (failed : (o : S.Op) → S.Reply o → Bool) (o : S.Op)
    (f : M.Fault) (s : σ) (b : Bool) :
    (M.oneFault failed).disturb o f (s, b) =
      match M.disturb o f s with
      | (none, s') => (none, (s', b))
      | (some r, s') =>
        if b then (some r, (s', !failed o r))
        else (some (M.perform o s).1, ((M.perform o s).2, false)) := rfl

end Machine

/-! ### Runs -/

/-- A run ends with an answer, what is left of the environment's list, or with the power lost. -/
inductive Outcome (α C : Type)
  | done (a : α) (rest : List C)
  | lost
  deriving DecidableEq

namespace Prog

variable {S : Sig} {σ α β : Type} (M : Machine S σ)

def run : Prog S α → List (Option M.Fault) → σ → Outcome α (Option M.Fault) × σ
  | .pure a, cs, s => (.done a cs, s)
  | .call _ _, [], s => (.lost, s)
  | .call o k, c :: cs, s =>
    match M.exec o c s with
    | (some r, s') => run (k r) cs s'
    | (none, s') => (.lost, s')

/-- The number of calls that are answered in a run. -/
def answered : Prog S α → List (Option M.Fault) → σ → Nat
  | .pure _, _, _ => 0
  | .call _ _, [], _ => 0
  | .call o k, c :: cs, s =>
    match M.exec o c s with
    | (some r, s') => answered (k r) cs s' + 1
    | (none, _) => 0

/-- The run that nothing disturbs. -/
def perform : Prog S α → σ → α × σ
  | .pure a, s => (a, s)
  | .call o k, s => perform (k (M.perform o s).1) (M.perform o s).2

/-- Restarts of `p`, each of them ended by a loss of power. -/
def Interrupted (p : Prog S α) : σ → σ → Prop :=
  Relation.ReflTransGen fun s s' => ∃ cs, p.run M cs s = (.lost, s')

variable {M}

@[simp] lemma run_pure (a : α) (cs : List (Option M.Fault)) (s : σ) :
    (Prog.pure a : Prog S α).run M cs s = (.done a cs, s) := by cases cs <;> rfl

lemma run_call {o : S.Op} {k : S.Reply o → Prog S α} {c : Option M.Fault}
    {cs : List (Option M.Fault)} {s s' : σ} {r : S.Reply o} (h : M.exec o c s = (some r, s')) :
    (Prog.call o k).run M (c :: cs) s = (k r).run M cs s' := by
  simp only [run, h]

lemma run_call_lost {o : S.Op} {k : S.Reply o → Prog S α} {c : Option M.Fault}
    {cs : List (Option M.Fault)} {s s' : σ} (h : M.exec o c s = (none, s')) :
    (Prog.call o k).run M (c :: cs) s = (.lost, s') := by
  simp only [run, h]

@[simp] lemma perform_pure (a : α) (s : σ) : (Prog.pure a : Prog S α).perform M s = (a, s) := rfl

@[simp] lemma perform_call (o : S.Op) (k : S.Reply o → Prog S α) (s : σ) :
    (Prog.call o k).perform M s = (k (M.perform o s).1).perform M (M.perform o s).2 := rfl

/-- A sequence runs its first part, then the second on what is left of the environment's list. -/
lemma run_bind (p : Prog S α) (f : α → Prog S β) (cs : List (Option M.Fault)) (s : σ) :
    (p >>= f).run M cs s =
      match p.run M cs s with
      | (.done a rest, s') => (f a).run M rest s'
      | (.lost, s') => (.lost, s') := by
  induction p generalizing cs s with
  | pure a => simp
  | call o k ih =>
    cases cs with
    | nil => rfl
    | cons c cs =>
      simp only [call_bind, run]
      split
      · exact ih _ _ _
      · rfl

@[simp] lemma perform_bind (p : Prog S α) (f : α → Prog S β) (s : σ) :
    (p >>= f).perform M s = (f (p.perform M s).1).perform M (p.perform M s).2 := by
  induction p generalizing s with
  | pure a => rfl
  | call o k ih => simp only [call_bind, perform_call, ih]

/-- A run that is answered to the end leaves what is added to the environment's list. -/
lemma run_append_of_done {p : Prog S α} {cs rest : List (Option M.Fault)} {s s' : σ} {a : α}
    (h : p.run M cs s = (.done a rest, s')) (more : List (Option M.Fault)) :
    p.run M (cs ++ more) s = (.done a (rest ++ more), s') := by
  induction p generalizing cs s with
  | pure b =>
    rw [run_pure] at h ⊢
    obtain ⟨hdone, rfl⟩ := Prod.mk.inj h
    obtain ⟨rfl, rfl⟩ := Outcome.done.inj hdone
    rfl
  | call o k ih =>
    cases cs with
    | nil => cases congrArg Prod.fst h
    | cons c cs =>
      rw [List.cons_append]
      simp only [run] at h ⊢
      split at h
      · exact ih _ h
      · cases congrArg Prod.fst h

/-- An undisturbed list that is long enough gives the undisturbed run. -/
lemma exists_run_eq_perform (p : Prog S α) (s : σ) :
    ∃ n, p.run M (List.replicate n none) s = (.done (p.perform M s).1 [], (p.perform M s).2) := by
  induction p generalizing s with
  | pure a => exact ⟨0, rfl⟩
  | call o k ih =>
    obtain ⟨n, hn⟩ := ih (M.perform o s).1 (M.perform o s).2
    exact ⟨n + 1, by simpa [List.replicate_succ, run, Machine.exec] using hn⟩

end Prog

end PowerLoss
