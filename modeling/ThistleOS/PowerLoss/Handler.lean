import ThistleOS.PowerLoss.Logic

/-!
# Handlers

A handler answers each operation of one signature by a program of another one. A handled program
runs the handler's programs in place of its operations, and a machine that answers an operation by
running the handler's program shows what that comes to.

A program that calls only some of the operations keeps what these operations keep.
-/

namespace PowerLoss

variable {S T : Sig} {σ τ : Type} {α β γ ε : Type} {M : Machine S σ} {N : Machine T τ}

/-! ### The operations that a program calls -/

namespace Prog

/-- Every operation that the program may call satisfies `P`. -/
def Only (P : S.Op → Prop) : Prog S α → Prop
  | .pure _ => True
  | .call o k => P o ∧ ∀ r, (k r).Only P

variable {P : S.Op → Prop} {Q : α → σ → Prop} {C I : σ → Prop}

lemma only_bind {p : Prog S α} {f : α → Prog S β} (hp : p.Only P) (hf : ∀ a, (f a).Only P) :
    (p >>= f).Only P := by
  induction p with
  | pure a => exact hf a
  | call o k ih => exact ⟨hp.1, fun r => ih r (hp.2 r)⟩

/-- The frame rule: what the operations keep, the program keeps. -/
lemma Only.wp {p : Prog S α} (h : p.Only P) (hkeep : ∀ o, P o → ∀ c s, I s → I (M.exec o c s).2)
    {s : σ} (hs : I s) : p.wp M (fun _ => I) I s := by
  induction p generalizing s with
  | pure a => exact hs
  | call o k ih =>
    refine (wp_call o k s).mpr ⟨hs, fun c => ?_⟩
    have hstep := hkeep o h.1 c s hs
    split
    · rename_i r s' heq
      exact ih r (h.2 r) (by rwa [heq] at hstep)
    · rename_i s' heq
      rwa [heq] at hstep

/-! ### Handled programs -/

/-- Replace every operation by a program. -/
def handle (h : (o : S.Op) → Prog T (S.Reply o)) : Prog S α → Prog T α
  | .pure a => .pure a
  | .call o k => h o >>= fun r => (k r).handle h

lemma handle_bind (h : (o : S.Op) → Prog T (S.Reply o)) (p : Prog S α) (f : α → Prog S β) :
    (p >>= f).handle h = p.handle h >>= fun a => (f a).handle h := by
  induction p with
  | pure a => rfl
  | call o k ih => simp only [call_bind, handle, ih, bind_assoc]

lemma only_handle {P : S.Op → Prop} {Q : T.Op → Prop} {h : (o : S.Op) → Prog T (S.Reply o)}
    (hh : ∀ o, P o → (h o).Only Q) {p : Prog S α} (hp : p.Only P) : (p.handle h).Only Q := by
  induction p with
  | pure a => trivial
  | call o k ih => exact only_bind (hh o hp.1) fun r => ih r (hp.2 r)

end Prog

namespace Machine

/-- The machine that answers an operation by running a program on another machine. -/
def via (N : Machine T τ) (h : (o : S.Op) → Prog T (S.Reply o)) : Machine S τ where
  Fault := List (Option N.Fault)
  perform o := (h o).perform N
  disturb o cs t :=
    match (h o).run N cs t with
    | (.done r _, t') => (some r, t')
    | (.lost, t') => (none, t')

end Machine

namespace Prog

variable {Q : α → τ → Prop} {C : τ → Prop}

/-- A program meets what all of its runs meet. -/
lemma wp_of_run {p : Prog T α} {t : τ}
    (hdone : ∀ cs a rest t', p.run N cs t = (.done a rest, t') → Q a t')
    (hlost : ∀ cs t', p.run N cs t = (.lost, t') → C t') : p.wp N Q C t := by
  induction p generalizing t with
  | pure a => exact hdone [] a [] t rfl
  | call o k ih =>
    refine (wp_call o k t).mpr ⟨hlost [] t rfl, fun c => ?_⟩
    split
    · rename_i r t' heq
      apply ih r
      · intro cs a rest t'' hrun
        refine hdone (c :: cs) a rest t'' ?_
        rw [run, heq]
        exact hrun
      · intro cs t'' hrun
        refine hlost (c :: cs) t'' ?_
        rw [run, heq]
        exact hrun
    · rename_i t' heq
      refine hlost [c] t' ?_
      rw [run, heq]

variable {h : (o : S.Op) → Prog T (S.Reply o)}

lemma exec_via_done {o : S.Op} {cs rest : List (Option N.Fault)} {r : S.Reply o} {t t' : τ}
    (hrun : (h o).run N cs t = (.done r rest, t')) :
    (N.via h).exec o (some cs) t = (some r, t') := by
  simp only [Machine.exec, Machine.via, hrun]

lemma exec_via_lost {o : S.Op} {cs : List (Option N.Fault)} {t t' : τ}
    (hrun : (h o).run N cs t = (.lost, t')) : (N.via h).exec o (some cs) t = (none, t') := by
  simp only [Machine.exec, Machine.via, hrun]

/-- A handled program does what the program does on the handler's machine. -/
lemma wp_handle {p : Prog S α} {t : τ} (hp : p.wp (N.via h) Q C t) : (p.handle h).wp N Q C t := by
  induction p generalizing t with
  | pure a => exact hp
  | call o k ih =>
    rw [handle, wp_bind]
    have hstep := ((wp_call o k t).mp hp).2
    apply wp_of_run
    · intro cs r rest t' hrun
      have hc := hstep (some cs)
      rw [exec_via_done hrun] at hc
      exact ih r hc
    · intro cs t' hrun
      have hc := hstep (some cs)
      rwa [exec_via_lost hrun] at hc

/-! ### Side by side -/

/-- A program of the first of two signatures. -/
def inl (p : Prog S α) : Prog (S.sum T) α := p.handle fun o => Prog.op (S := S.sum T) (.inl o)

/-- A program of the second of two signatures. -/
def inr (p : Prog T α) : Prog (S.sum T) α := p.handle fun o => Prog.op (S := S.sum T) (.inr o)

/-- A program of the second machine does beside the first machine what it does alone. -/
lemma wp_inr {Q : α → τ → Prop} {C : τ → Prop} {p : Prog T α} {s : σ} {t : τ}
    (hp : p.wp N Q C t) :
    (inr p : Prog (S.sum T) α).wp (M.sum N) (fun a st => Q a st.2) (fun st => C st.2) (s, t) := by
  induction p generalizing t with
  | pure a => exact hp
  | call o k ih =>
    obtain ⟨hC, hstep⟩ := (wp_call o k t).mp hp
    have hperform : (k (N.perform o t).1).wp N Q C (N.perform o t).2 := hstep none
    refine ⟨hC, fun c => ?_⟩
    rcases c with _ | f | f
    · exact ih _ hperform
    · exact ih _ hperform
    · have hc := hstep (some f)
      have hexec : (M.sum N).exec (.inr o) (some (.inr f)) (s, t) =
          ((N.disturb o f t).1, (s, (N.disturb o f t).2)) := rfl
      rw [Machine.exec] at hc
      rw [hexec]
      rcases hd : N.disturb o f t with ⟨_ | r, t'⟩
      · rw [hd] at hc
        exact hc
      · rw [hd] at hc
        exact ih r hc

/-- The operations of the first of two signatures. -/
def IsLeft (o : (S.sum T).Op) : Prop := o.isLeft = true

end Prog

/-! ### Actions -/

namespace Act

/-- Every operation that the action may call satisfies `P`. -/
def Only (P : S.Op → Prop) (x : Act ε S α) : Prop := Prog.Only P (ExceptT.run x)

variable {P : S.Op → Prop} {x : Act ε S α}

lemma only_pure (a : α) : Act.Only P (pure a : Act ε S α) := trivial

lemma only_bind {f : α → Act ε S β} (hx : Act.Only P x) (hf : ∀ a, Act.Only P (f a)) :
    Act.Only P (x >>= f) := by
  rw [Act.Only, ExceptT.run_bind]
  refine Prog.only_bind hx fun r => ?_
  cases r with
  | error e => trivial
  | ok a => exact hf a

lemma only_attempt (hx : Act.Only P x) : Act.Only P x.attempt :=
  Prog.only_bind hx fun _ => trivial

lemma Only.wp {I : σ → Prop} (h : Act.Only P x)
    (hkeep : ∀ o, P o → ∀ c s, I s → I (M.exec o c s).2) {s : σ} (hs : I s) :
    Act.wp M x (fun _ => I) (fun _ => I) I s := by
  refine Prog.wp_mono ?_ (fun _ h => h) (Prog.Only.wp h hkeep hs)
  rintro (e | a) s' hs'
  · exact hs'
  · exact hs'

/-- Run an action with a handler for its operations. -/
def handle (h : (o : S.Op) → Prog T (S.Reply o)) (x : Act ε S α) : Act ε T α :=
  ExceptT.mk (Prog.handle h (ExceptT.run x))

/-- An action of the second of two signatures. -/
def inr (x : Act ε T α) : Act ε (S.sum T) α := ExceptT.mk (Prog.inr (ExceptT.run x))

/-- Run an action and translate its error. -/
def mapError {ε' : Type} (f : ε → ε') (x : Act ε S α) : Act ε' S α :=
  ExceptT.mk (ExceptT.run x >>= fun r => Prog.pure (r.mapError f))

variable {ok : α → τ → Prop} {err : ε → τ → Prop} {cut : τ → Prop}

lemma wp_handle {h : (o : S.Op) → Prog T (S.Reply o)} {t : τ}
    (hx : Act.wp (N.via h) x ok err cut t) : Act.wp N (x.handle h) ok err cut t :=
  Prog.wp_handle hx

lemma wp_inr {x : Act ε T α} {s : σ} {t : τ} (hx : Act.wp N x ok err cut t) :
    Act.wp (M.sum N) (inr x : Act ε (S.sum T) α) (fun a st => ok a st.2) (fun e st => err e st.2)
      (fun st => cut st.2) (s, t) := by
  refine Prog.wp_mono ?_ (fun _ h => h) (Prog.wp_inr hx)
  rintro (e | a) st hst
  · exact hst
  · exact hst

lemma wp_mapError {ε' : Type} {f : ε → ε'} {x : Act ε T α} {err : ε' → τ → Prop} {t : τ} :
    Act.wp N (x.mapError f) ok err cut t ↔ Act.wp N x ok (fun e => err (f e)) cut t := by
  rw [Act.wp, Act.wp, mapError]
  simp only [ExceptT.run_mk, Prog.wp_bind]
  refine Prog.wp_congr fun r t' => ?_
  cases r <;> rfl

end Act

/-! ### Logs -/

/-- The machine `M` with a log of what its operations find. -/
def Machine.logged {E : Type} (M : Machine S σ) (event : S.Op → σ → List E) :
    Machine S (σ × List E) where
  Fault := M.Fault
  perform o s := ((M.perform o s.1).1, ((M.perform o s.1).2, s.2 ++ event o s.1))
  disturb o f s := ((M.disturb o f s.1).1, ((M.disturb o f s.1).2, s.2 ++ event o s.1))

end PowerLoss
