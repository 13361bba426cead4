import ThistleOS.PowerLoss.Prog

/-!
# Weakest preconditions that account for power losses

`p.wp M Q C` is what a state must satisfy for `p` to end in `Q`, if it is answered to the end, and
to leave `C` behind wherever the power is lost. Actions are programs that may throw; their
preconditions have a postcondition for each way to return.
-/

namespace PowerLoss

variable {S T : Sig} {σ τ : Type} {α β γ ε : Type} {M : Machine S σ}

namespace Prog

def wp (M : Machine S σ) (Q : α → σ → Prop) (C : σ → Prop) : Prog S α → σ → Prop
  | .pure a, s => Q a s
  | .call o k, s => C s ∧ ∀ c,
    match M.exec o c s with
    | (some r, s') => wp M Q C (k r) s'
    | (none, s') => C s'

variable {Q : α → σ → Prop} {C : σ → Prop}

@[simp] lemma wp_pure (a : α) (s : σ) : (Prog.pure a).wp M Q C s ↔ Q a s := Iff.rfl

lemma wp_call (o : S.Op) (k : S.Reply o → Prog S α) (s : σ) :
    (Prog.call o k).wp M Q C s ↔ C s ∧ ∀ c,
      match M.exec o c s with
      | (some r, s') => (k r).wp M Q C s'
      | (none, s') => C s' := Iff.rfl

lemma wp_bind (p : Prog S α) (f : α → Prog S β) {Q : β → σ → Prop} (s : σ) :
    (p >>= f).wp M Q C s ↔ p.wp M (fun a s' => (f a).wp M Q C s') C s := by
  induction p generalizing s with
  | pure a => simp
  | call o k ih =>
    simp only [call_bind, wp_call]
    refine and_congr_right fun _ => forall_congr' fun c => ?_
    split
    · exact ih _ _
    · rfl

/-- The rule of consequence. -/
lemma wp_mono {Q' : α → σ → Prop} {C' : σ → Prop} (hQ : ∀ a s, Q a s → Q' a s)
    (hC : ∀ s, C s → C' s) {p : Prog S α} {s : σ} (h : p.wp M Q C s) : p.wp M Q' C' s := by
  induction p generalizing s with
  | pure a => exact hQ a s h
  | call o k ih =>
    rw [wp_call] at h ⊢
    refine ⟨hC s h.1, fun c => ?_⟩
    have hc := h.2 c
    split
    · rename_i r s' heq
      rw [heq] at hc
      exact ih r hc
    · rename_i s' heq
      rw [heq] at hc
      exact hC s' hc

lemma wp_trivial {p : Prog S α} {s : σ} : p.wp M (fun _ _ => True) (fun _ => True) s := by
  induction p generalizing s with
  | pure a => trivial
  | call o k ih =>
    refine (wp_call o k s).mpr ⟨trivial, fun c => ?_⟩
    split
    · exact ih _
    · trivial

lemma wp_congr {Q' : α → σ → Prop} (hQ : ∀ a s, Q a s ↔ Q' a s) {p : Prog S α} {s : σ} :
    p.wp M Q C s ↔ p.wp M Q' C s :=
  ⟨wp_mono (fun a s => (hQ a s).mp) fun _ h => h, wp_mono (fun a s => (hQ a s).mpr) fun _ h => h⟩

/-- Soundness for a run that is answered to the end. -/
lemma wp_run_done {p : Prog S α} {cs rest : List (Option M.Fault)} {s s' : σ} {a : α}
    (h : p.wp M Q C s) (hr : p.run M cs s = (.done a rest, s')) : Q a s' := by
  induction p generalizing cs s with
  | pure a =>
    simp only [run_pure, Prod.mk.injEq, Outcome.done.injEq] at hr
    obtain ⟨⟨rfl, rfl⟩, rfl⟩ := hr
    exact h
  | call o k ih =>
    cases cs with
    | nil => simp [run] at hr
    | cons c cs =>
      have hc := ((wp_call o k s).mp h).2 c
      rw [run] at hr
      split at hr
      · rename_i r s'' heq
        rw [heq] at hc
        exact ih r hc hr
      · simp at hr

/-- Soundness for a run that ends with a loss of power. -/
lemma wp_run_lost {p : Prog S α} {cs : List (Option M.Fault)} {s s' : σ}
    (h : p.wp M Q C s) (hr : p.run M cs s = (.lost, s')) : C s' := by
  induction p generalizing cs s with
  | pure a => simp at hr
  | call o k ih =>
    cases cs with
    | nil =>
      simp only [run, Prod.mk.injEq, true_and] at hr
      exact hr ▸ ((wp_call o k s).mp h).1
    | cons c cs =>
      have hc := ((wp_call o k s).mp h).2 c
      rw [run] at hr
      split at hr
      · rename_i r s'' heq
        rw [heq] at hc
        exact ih r hc hr
      · rename_i s'' heq
        rw [heq] at hc
        simp only [Prod.mk.injEq, true_and] at hr
        exact hr ▸ hc

/-- Nothing has been answered when a program that ends after its first call loses the power. -/
lemma answered_eq_zero_of_lost {o : S.Op} {k : S.Reply o → Prog S α} {cs : List (Option M.Fault)}
    {s s' : σ} (h : (Prog.op o).wp M (fun r _ => ∃ a, k r = .pure a) (fun _ => True) s)
    (hr : (Prog.call o k).run M cs s = (.lost, s')) : (Prog.call o k).answered M cs s = 0 := by
  cases cs with
  | nil => rfl
  | cons c cs =>
    have hc := ((wp_call _ _ s).mp h).2 c
    simp only [run, answered] at hr ⊢
    split
    · rename_i r s'' heq
      rw [heq] at hc hr
      obtain ⟨a, ha⟩ := hc
      simp [ha] at hr
    · rfl

/-- A call, by what the environment does. -/
lemma wp_call_of {o : S.Op} {k : S.Reply o → Prog S α} {s : σ} (hC : C s)
    (hperform : (k (M.perform o s).1).wp M Q C (M.perform o s).2)
    (hlost : ∀ f s', M.disturb o f s = (none, s') → C s')
    (hdisturb : ∀ f r s', M.disturb o f s = (some r, s') → (k r).wp M Q C s') :
    (Prog.call o k).wp M Q C s := by
  refine (wp_call o k s).mpr ⟨hC, fun c => ?_⟩
  cases c with
  | none => exact hperform
  | some f =>
    rw [Machine.exec]
    rcases hd : M.disturb o f s with ⟨_ | r, s'⟩
    · exact hlost f s' hd
    · exact hdisturb f r s' hd

/-- A call in an environment that makes at most one operation fail. -/
lemma wp_call_oneFault {failed : (o : S.Op) → S.Reply o → Bool} {Q : α → σ × Bool → Prop}
    {C : σ × Bool → Prop} {o : S.Op} {k : S.Reply o → Prog S α} {s : σ} {b : Bool} (hC : C (s, b))
    (hperform : (k (M.perform o s).1).wp (M.oneFault failed) Q C
      ((M.perform o s).2, b && !failed o (M.perform o s).1))
    (hlost : ∀ f s', M.disturb o f s = (none, s') → C (s', b))
    (hdisturb : b = true → ∀ f r s', M.disturb o f s = (some r, s') →
      (k r).wp (M.oneFault failed) Q C (s', !failed o r)) :
    (Prog.call o k).wp (M.oneFault failed) Q C (s, b) := by
  refine (wp_call o k (s, b)).mpr ⟨hC, fun c => ?_⟩
  cases c with
  | none => exact hperform
  | some f =>
    have hstep := M.oneFault_disturb failed o f s b
    rw [Machine.exec, show (M.oneFault failed).disturb o f (s, b) = _ from hstep]
    rcases hd : M.disturb o f s with ⟨_ | r, s'⟩
    · exact hlost f s' hd
    · cases b with
      | false => exact hperform
      | true => exact hdisturb rfl f r s' hd

section Sum

variable {N : Machine T τ} {fS : (o : S.Op) → S.Reply o → Bool} {fT : (o : T.Op) → T.Reply o → Bool}
  {Q : α → (σ × τ) × Bool → Prop} {C : (σ × τ) × Bool → Prop} {s : σ} {t : τ} {b : Bool}

/-- A call that the first of two machines answers. -/
lemma wp_call_inl {o : S.Op} {k : S.Reply o → Prog (S.sum T) α} (hC : C ((s, t), b))
    (hperform : (k (M.perform o s).1).wp ((M.sum N).oneFault (Machine.sumFailed fS fT)) Q C
      (((M.perform o s).2, t), b && !fS o (M.perform o s).1))
    (hlost : ∀ f s', M.disturb o f s = (none, s') → C ((s', t), b))
    (hdisturb : b = true → ∀ f r s', M.disturb o f s = (some r, s') →
      (k r).wp ((M.sum N).oneFault (Machine.sumFailed fS fT)) Q C ((s', t), !fS o r)) :
    (Prog.call (S := S.sum T) (.inl o) k).wp ((M.sum N).oneFault (Machine.sumFailed fS fT)) Q C
      ((s, t), b) := by
  refine wp_call_oneFault hC hperform ?_ ?_
  · rintro (f | f) ⟨s', t'⟩ hd
    · have hd : ((M.disturb o f s).1, ((M.disturb o f s).2, t)) = (none, (s', t')) := hd
      obtain ⟨hr, hd⟩ := Prod.mk.inj hd
      obtain ⟨rfl, rfl⟩ := Prod.mk.inj hd
      exact hlost f _ (Prod.ext hr rfl)
    · cases congrArg Prod.fst hd
  · rintro rfl (f | f) r ⟨s', t'⟩ hd
    · have hd : ((M.disturb o f s).1, ((M.disturb o f s).2, t)) = (some r, (s', t')) := hd
      obtain ⟨hr, hd⟩ := Prod.mk.inj hd
      obtain ⟨rfl, rfl⟩ := Prod.mk.inj hd
      exact hdisturb rfl f r _ (Prod.ext hr rfl)
    · have hd : (some (M.perform o s).1, ((M.perform o s).2, t)) = (some r, (s', t')) := hd
      obtain ⟨hr, hd⟩ := Prod.mk.inj hd
      obtain ⟨rfl, rfl⟩ := Prod.mk.inj hd
      obtain rfl := Option.some.inj hr
      exact hperform

/-- A call that the second of two machines answers. -/
lemma wp_call_inr {o : T.Op} {k : T.Reply o → Prog (S.sum T) α} (hC : C ((s, t), b))
    (hperform : (k (N.perform o t).1).wp ((M.sum N).oneFault (Machine.sumFailed fS fT)) Q C
      ((s, (N.perform o t).2), b && !fT o (N.perform o t).1))
    (hlost : ∀ f t', N.disturb o f t = (none, t') → C ((s, t'), b))
    (hdisturb : b = true → ∀ f r t', N.disturb o f t = (some r, t') →
      (k r).wp ((M.sum N).oneFault (Machine.sumFailed fS fT)) Q C ((s, t'), !fT o r)) :
    (Prog.call (S := S.sum T) (.inr o) k).wp ((M.sum N).oneFault (Machine.sumFailed fS fT)) Q C
      ((s, t), b) := by
  refine wp_call_oneFault hC hperform ?_ ?_
  · rintro (f | f) ⟨s', t'⟩ hd
    · cases congrArg Prod.fst hd
    · have hd : ((N.disturb o f t).1, (s, (N.disturb o f t).2)) = (none, (s', t')) := hd
      obtain ⟨hr, hd⟩ := Prod.mk.inj hd
      obtain ⟨rfl, rfl⟩ := Prod.mk.inj hd
      exact hlost f _ (Prod.ext hr rfl)
  · rintro rfl (f | f) r ⟨s', t'⟩ hd
    · have hd : (some (N.perform o t).1, (s, (N.perform o t).2)) = (some r, (s', t')) := hd
      obtain ⟨hr, hd⟩ := Prod.mk.inj hd
      obtain ⟨rfl, rfl⟩ := Prod.mk.inj hd
      obtain rfl := Option.some.inj hr
      exact hperform
    · have hd : ((N.disturb o f t).1, (s, (N.disturb o f t).2)) = (some r, (s', t')) := hd
      obtain ⟨hr, hd⟩ := Prod.mk.inj hd
      obtain ⟨rfl, rfl⟩ := Prod.mk.inj hd
      exact hdisturb rfl f r _ (Prod.ext hr rfl)

end Sum

lemma wp_perform {p : Prog S α} {s : σ} (h : p.wp M Q C s) :
    Q (p.perform M s).1 (p.perform M s).2 := by
  obtain ⟨n, hn⟩ := exists_run_eq_perform (M := M) p s
  exact wp_run_done h hn

/-- The recovery rule: what every interrupted run of `p` leaves behind, when it is enough to start
`p` again, is still there after any number of interrupted runs. -/
lemma Interrupted.keeps {p : Prog S α} {s s' : σ} (h : p.Interrupted M s s')
    (hC : ∀ s, C s → p.wp M Q C s) (hs : C s) : C s' := by
  induction h with
  | refl => exact hs
  | tail _ hstep ih =>
    obtain ⟨cs, hcs⟩ := hstep
    exact wp_run_lost (hC _ ih) hcs

end Prog

/-! ### Actions -/

/-- A program that may throw an error. -/
abbrev Act (ε : Type) (S : Sig) (α : Type) := ExceptT ε (Prog S) α

namespace Act

/-- The postcondition of an action's program, from one for its value and one for its error. -/
def post (ok : α → σ → Prop) (err : ε → σ → Prop) : Except ε α → σ → Prop
  | .ok a => ok a
  | .error e => err e

/-- The precondition of an action, with a postcondition for its value, one for its error, and one
for every state in which the power may be lost. -/
def wp (M : Machine S σ) (x : Act ε S α) (ok : α → σ → Prop) (err : ε → σ → Prop) (cut : σ → Prop) :
    σ → Prop :=
  Prog.wp M (post ok err) cut (ExceptT.run x)

def run (M : Machine S σ) (x : Act ε S α) (cs : List (Option M.Fault)) (s : σ) :
    Outcome (Except ε α) (Option M.Fault) × σ :=
  Prog.run M (ExceptT.run x) cs s

/-- The run of an action that nothing disturbs. -/
def perform (M : Machine S σ) (x : Act ε S α) (s : σ) : Except ε α × σ :=
  Prog.perform M (ExceptT.run x) s

/-- Run an action and hand its error to the caller as a value. -/
def attempt (x : Act ε S α) : Act ε S (Except ε α) := ExceptT.lift (ExceptT.run x)

variable {ok : α → σ → Prop} {err : ε → σ → Prop} {cut : σ → Prop}

@[simp] lemma wp_pure (a : α) (s : σ) :
    Act.wp M (pure a : Act ε S α) ok err cut s ↔ ok a s := Iff.rfl

@[simp] lemma wp_throw (e : ε) (s : σ) :
    Act.wp M (throw e : Act ε S α) ok err cut s ↔ err e s := Iff.rfl

@[simp] lemma wp_lift_ok (a : α) (s : σ) :
    Act.wp M (liftM (Except.ok a : Except ε α) : Act ε S α) ok err cut s ↔ ok a s := Iff.rfl

lemma wp_bind (x : Act ε S α) (f : α → Act ε S β) {ok : β → σ → Prop} (s : σ) :
    Act.wp M (x >>= f) ok err cut s ↔
      Act.wp M x (fun a s' => Act.wp M (f a) ok err cut s') err cut s := by
  unfold Act.wp
  rw [ExceptT.run_bind, Prog.wp_bind]
  refine Prog.wp_congr fun r s' => ?_
  cases r <;> rfl

lemma wp_attempt (x : Act ε S α) {ok : Except ε α → σ → Prop} (s : σ) :
    Act.wp M x.attempt ok err cut s ↔
      Act.wp M x (fun a => ok (.ok a)) (fun e => ok (.error e)) cut s := by
  have hrun : ExceptT.run x.attempt = ExceptT.run x >>= fun r => Prog.pure (.ok r) := rfl
  unfold Act.wp
  rw [hrun, Prog.wp_bind]
  refine Prog.wp_congr fun r s' => ?_
  cases r <;> rfl

lemma wp_mono {ok' : α → σ → Prop} {err' : ε → σ → Prop} {cut' : σ → Prop}
    (hok : ∀ a s, ok a s → ok' a s) (herr : ∀ e s, err e s → err' e s)
    (hcut : ∀ s, cut s → cut' s) {x : Act ε S α} {s : σ} (h : Act.wp M x ok err cut s) :
    Act.wp M x ok' err' cut' s := by
  refine Prog.wp_mono ?_ hcut h
  rintro (e | a) s' h'
  · exact herr e s' h'
  · exact hok a s' h'

/-- A sequence of actions runs the second one if the first has a value. -/
lemma run_bind (x : Act ε S α) (f : α → Act ε S β) (cs : List (Option M.Fault)) (s : σ) :
    Act.run M (x >>= f) cs s =
      match Act.run M x cs s with
      | (.done (.ok a) rest, s') => Act.run M (f a) rest s'
      | (.done (.error e) rest, s') => (.done (.error e) rest, s')
      | (.lost, s') => (.lost, s') := by
  simp only [Act.run, ExceptT.run_bind, Prog.run_bind]
  rcases Prog.run M (ExceptT.run x) cs s with ⟨⟨_ | a, rest⟩ | _, s'⟩ <;> simp

lemma run_bind_ok {x : Act ε S α} {f : α → Act ε S β} {cs rest : List (Option M.Fault)} {s s' : σ}
    {a : α} (h : Act.run M x cs s = (.done (.ok a) rest, s')) :
    Act.run M (x >>= f) cs s = Act.run M (f a) rest s' := by
  rw [run_bind, h]

lemma run_attempt (x : Act ε S α) (cs : List (Option M.Fault)) (s : σ) :
    Act.run M x.attempt cs s =
      match Act.run M x cs s with
      | (.done r rest, s') => (.done (.ok r) rest, s')
      | (.lost, s') => (.lost, s') := by
  have hrun : ExceptT.run x.attempt = ExceptT.run x >>= fun r => Prog.pure (.ok r) := rfl
  simp only [Act.run, hrun, Prog.run_bind]
  rcases Prog.run M (ExceptT.run x) cs s with ⟨⟨_ | a, rest⟩ | _, s'⟩ <;> simp

@[simp] lemma run_pure (a : α) (cs : List (Option M.Fault)) (s : σ) :
    Act.run M (pure a : Act ε S α) cs s = (.done (.ok a) cs, s) := Prog.run_pure _ _ _

@[simp] lemma perform_pure (a : α) (s : σ) :
    Act.perform M (pure a : Act ε S α) s = (.ok a, s) := rfl

@[simp] lemma perform_throw (e : ε) (s : σ) :
    Act.perform M (throw e : Act ε S α) s = (.error e, s) := rfl

@[simp] lemma perform_lift_ok (a : α) (s : σ) :
    Act.perform M (liftM (Except.ok a : Except ε α) : Act ε S α) s = (.ok a, s) := rfl

@[simp] lemma perform_lift_error (e : ε) (s : σ) :
    Act.perform M (liftM (Except.error e : Except ε α) : Act ε S α) s = (.error e, s) := rfl

lemma perform_bind_ok {x : Act ε S α} {f : α → Act ε S β} {s s' : σ} {a : α}
    (h : Act.perform M x s = (.ok a, s')) :
    Act.perform M (x >>= f) s = Act.perform M (f a) s' := by
  unfold Act.perform at h ⊢
  rw [ExceptT.run_bind, Prog.perform_bind, h]

lemma perform_attempt {x : Act ε S α} {s s' : σ} {r : Except ε α}
    (h : Act.perform M x s = (r, s')) : Act.perform M x.attempt s = (.ok r, s') := by
  have hrun : ExceptT.run x.attempt = ExceptT.run x >>= fun r => Prog.pure (.ok r) := rfl
  unfold Act.perform at h ⊢
  rw [hrun, Prog.perform_bind, h]
  rfl

lemma wp_run_ok {x : Act ε S α} {cs rest : List (Option M.Fault)} {s s' : σ} {a : α}
    (h : Act.wp M x ok err cut s) (hr : Act.run M x cs s = (.done (.ok a) rest, s')) : ok a s' := by
  have hpost : post ok err (.ok a) s' := Prog.wp_run_done h hr
  exact hpost

lemma wp_run_error {x : Act ε S α} {cs rest : List (Option M.Fault)} {s s' : σ} {e : ε}
    (h : Act.wp M x ok err cut s) (hr : Act.run M x cs s = (.done (.error e) rest, s')) :
    err e s' := by
  have hpost : post ok err (.error e) s' := Prog.wp_run_done h hr
  exact hpost

lemma wp_run_lost {x : Act ε S α} {cs : List (Option M.Fault)} {s s' : σ}
    (h : Act.wp M x ok err cut s) (hr : Act.run M x cs s = (.lost, s')) : cut s' :=
  Prog.wp_run_lost h hr

lemma wp_perform_ok {x : Act ε S α} {s s' : σ} {a : α} (h : Act.wp M x ok err cut s)
    (hr : Act.perform M x s = (.ok a, s')) : ok a s' := by
  have hpost : post ok err (Act.perform M x s).1 (Act.perform M x s).2 := Prog.wp_perform h
  rw [hr] at hpost
  exact hpost

/-- A run that nothing disturbs. -/
lemma exists_run_of_perform {x : Act ε S α} {s s' : σ} {a : Except ε α}
    (h : Act.perform M x s = (a, s')) :
    ∃ n, Act.run M x (List.replicate n none) s = (.done a [], s') := by
  obtain ⟨n, hn⟩ := Prog.exists_run_eq_perform (M := M) (show Prog S (Except ε α) from x) s
  have hperform : Prog.perform M x s = (a, s') := h
  rw [hperform] at hn
  exact ⟨n, hn⟩

/-- What holds however a run ends. -/
lemma run_state {P : σ → Prop} {x : Act ε S α} {s : σ}
    (h : Act.wp M x (fun _ => P) (fun _ => P) P s) (cs : List (Option M.Fault)) :
    P (Act.run M x cs s).2 := by
  cases hr : Act.run M x cs s with
  | mk r s' =>
    rcases r with ⟨_ | a, rest⟩ | _
    · exact wp_run_error h hr
    · exact wp_run_ok h hr
    · exact wp_run_lost h hr

/-- The rule for a fold whose steps may throw: `I` relates the part of the list that is done and
the accumulator to the state. -/
lemma wp_foldlM {f : γ → β → Act ε S γ} {I : List β → γ → σ → Prop} (l : List β)
    (step : ∀ pre b post, l = pre ++ b :: post → ∀ g s, I pre g s →
      Act.wp M (f g b) (I (pre ++ [b])) err cut s)
    {g : γ} {s : σ} (h : I [] g s) : Act.wp M (l.foldlM f g) (I l) err cut s := by
  suffices hsuf : ∀ (pre post : List β), l = pre ++ post → ∀ g s, I pre g s →
      Act.wp M (post.foldlM f g) (I l) err cut s from hsuf [] l rfl g s h
  intro pre post
  induction post generalizing pre with
  | nil =>
    intro hl g s hI
    rw [List.append_nil] at hl
    subst hl
    exact hI
  | cons b post ih =>
    intro hl g s hI
    rw [List.foldlM_cons, wp_bind]
    refine wp_mono (fun g' s' hI' => ?_) (fun _ _ h => h) (fun _ h => h) (step pre b post hl g s hI)
    exact ih (pre ++ [b]) (by simp [hl]) g' s' hI'

/-- The rule for a loop whose body may throw. -/
lemma wp_forM {f : β → Act ε S PUnit} {I : List β → σ → Prop} (l : List β)
    (step : ∀ pre b post, l = pre ++ b :: post → ∀ s, I pre s →
      Act.wp M (f b) (fun _ => I (pre ++ [b])) err cut s)
    {s : σ} (h : I [] s) : Act.wp M (l.forM f) (fun _ => I l) err cut s := by
  suffices hsuf : ∀ (pre post : List β), l = pre ++ post → ∀ s, I pre s →
      Act.wp M (post.forM f) (fun _ => I l) err cut s from hsuf [] l rfl s h
  intro pre post
  induction post generalizing pre with
  | nil =>
    intro hl s hI
    rw [List.append_nil] at hl
    subst hl
    exact hI
  | cons b post ih =>
    intro hl s hI
    change Act.wp M (f b >>= fun _ => post.forM f) _ _ _ _
    rw [wp_bind]
    refine wp_mono (fun _ s' hI' => ?_) (fun _ _ h => h) (fun _ h => h) (step pre b post hl s hI)
    exact ih (pre ++ [b]) (by simp [hl]) s' hI'

/-- A loop that nothing disturbs, whose body has a value in every state that the loop comes to. -/
lemma perform_forM {f : β → Act ε S PUnit} {I : List β → σ → Prop} (l : List β)
    (step : ∀ pre b post, l = pre ++ b :: post → ∀ s, I pre s →
      ∃ s', Act.perform M (f b) s = (.ok ⟨⟩, s') ∧ I (pre ++ [b]) s')
    {s : σ} (h : I [] s) : ∃ s', Act.perform M (l.forM f) s = (.ok ⟨⟩, s') ∧ I l s' := by
  suffices hsuf : ∀ (pre post : List β), l = pre ++ post → ∀ s, I pre s →
      ∃ s', Act.perform M (post.forM f) s = (.ok ⟨⟩, s') ∧ I l s' from hsuf [] l rfl s h
  intro pre post
  induction post generalizing pre with
  | nil =>
    intro hl s hI
    rw [List.append_nil] at hl
    subst hl
    exact ⟨s, rfl, hI⟩
  | cons b post ih =>
    intro hl s hI
    obtain ⟨s₁, hbody, hI₁⟩ := step pre b post hl s hI
    obtain ⟨s', hrest, hI'⟩ := ih (pre ++ [b]) (by simp [hl]) s₁ hI₁
    refine ⟨s', ?_, hI'⟩
    change Act.perform M (f b >>= fun _ => post.forM f) s = _
    rw [perform_bind_ok hbody]
    exact hrest

end Act

end PowerLoss
