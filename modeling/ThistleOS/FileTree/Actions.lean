import ThistleOS.FileTree.Frame

/-!
# Actions on files

The file operations as actions, beside the operations of a second signature `T` that a second
machine answers, in an environment that makes at most one operation fail and may cut the power.
-/

open PowerLoss

namespace FileTree

variable {ν β ε α : Type} [DecidableEq ν] {T : Sig}

abbrev FileAct (ν β : Type) (T : Sig) (α : Type) := Act IoError ((fsSig ν β).sum T) α

def update (u : FsUpdate ν β) : FileAct ν β T Unit :=
  ExceptT.mk (Prog.op (S := (fsSig ν β).sum T) (.inl (.update u)))

def fileExists (p : List ν) : FileAct ν β T Bool :=
  ExceptT.mk (.call (S := (fsSig ν β).sum T) (.inl (.exists? p)) fun r => .pure (.ok r))

def read (p : List ν) : FileAct ν β T (List β) :=
  ExceptT.mk (Prog.op (S := (fsSig ν β).sum T) (.inl (.read p)))

/-- A call of the second machine, whose replies may be errors too. -/
def callback (o : T.Op) (h : T.Reply o = Except IoError α) : FileAct ν β T α :=
  ExceptT.mk (.call (S := (fsSig ν β).sum T) (.inr o) fun r => .pure (cast h r))

/-- The file machine beside the machine `K`, with at most one failing operation. -/
def world (ν β : Type) [DecidableEq ν] (K : Machine T ε) (failed : (o : T.Op) → T.Reply o → Bool) :
    Machine ((fsSig ν β).sum T) ((FileTree ν β × ε) × Bool) :=
  ((machine ν β).sum K).oneFault (Machine.sumFailed fsFailed failed)

/-- No machine beside the file machine. -/
def alone : Machine Sig.none Unit where
  Fault := Unit
  perform o _ := isEmptyElim o
  disturb o _ _ := isEmptyElim o

/-- The file machine alone, with at most one failing operation. -/
abbrev aloneWorld (ν β : Type) [DecidableEq ν] :
    Machine ((fsSig ν β).sum Sig.none) ((FileTree ν β × Unit) × Bool) :=
  world ν β alone fun o _ => isEmptyElim o

section Rules

variable {K : Machine T ε} {failed : (o : T.Op) → T.Reply o → Bool}
  {err : IoError → (FileTree ν β × ε) × Bool → Prop} {cut : (FileTree ν β × ε) × Bool → Prop}
  {t : FileTree ν β} {x : ε} {b : Bool}

/-- An operation that changes the tree does all of its work, or reports the error that the tree
itself gives, or fails for the one time that the environment allows, or is cut short. -/
lemma wp_update {u : FsUpdate ν β} {ok : Unit → (FileTree ν β × ε) × Bool → Prop}
    (hcut : ∀ t', t.Left u t' → cut ((t', x), b))
    (hok : ∀ t', t.effect u = .ok t' → ok () ((t', x), b))
    (herr : ∀ kind, t.effect u = .error kind → err (.ofKind kind) ((t, x), false))
    (hfault : b = true → ∀ t', t.Left u t' → err (.ofKind .other) ((t', x), false)) :
    Act.wp (world ν β K failed) (update u) ok err cut ((t, x), b) := by
  refine Prog.wp_call_inl (hcut t (.refl t u)) ?_ ?_ ?_
  · cases heff : t.effect u with
    | ok t' =>
      rw [perform_update_ok heff]
      exact (Bool.and_true b).symm ▸ hok t' heff
    | error kind =>
      rw [perform_update_error heff]
      exact (Bool.and_false b).symm ▸ herr kind heff
  · intro f t' hd
    exact hcut t' (.inr ⟨f, (congrArg Prod.snd hd).symm⟩)
  · intro hb f r t' hd
    obtain ⟨hr, rfl⟩ := Prod.mk.inj hd
    split at hr <;> cases hr
    exact hfault hb _ (.inr ⟨f, rfl⟩)

/-- An operation of a program that works below the paths of `R` only. -/
lemma wp_update_within {R : Set (List ν)} {t₀ : FileTree ν β} {u : FsUpdate ν β}
    {ok : Unit → (FileTree ν β × ε) × Bool → Prop} (ht : ChangesBelow R t₀ t) (hu : u.Within R)
    (hcut : ∀ t', ChangesBelow R t₀ t' → cut ((t', x), b))
    (herr : ∀ e t', ChangesBelow R t₀ t' → err e ((t', x), false))
    (hok : ∀ t', t.effect u = .ok t' → ChangesBelow R t₀ t' → ok () ((t', x), b)) :
    Act.wp (world ν β K failed) (update u) ok err cut ((t, x), b) := by
  refine wp_update ?_ ?_ ?_ ?_
  · exact fun t' hl => hcut t' (ht.trans (hl.changesBelow hu))
  · exact fun t' heff => hok t' heff (ht.trans (effect_changesBelow heff hu))
  · exact fun kind _ => herr _ t ht
  · exact fun _ t' hl => herr _ t' (ht.trans (hl.changesBelow hu))

/-- An operation that succeeds on this tree, but for the failure that the environment allows. -/
lemma wp_update_succeeds {t'' : FileTree ν β} {u : FsUpdate ν β}
    {ok : Unit → (FileTree ν β × ε) × Bool → Prop} (heff : t.effect u = .ok t'')
    (hcut : ∀ t', t.Left u t' → cut ((t', x), b)) (hok : ok () ((t'', x), b))
    (hfault : b = true → ∀ t', t.Left u t' → err (.ofKind .other) ((t', x), false)) :
    Act.wp (world ν β K failed) (update u) ok err cut ((t, x), b) := by
  refine wp_update hcut ?_ ?_ hfault
  · intro t' ht'
    obtain rfl := Except.ok.inj (heff.symm.trans ht')
    exact hok
  · intro kind hkind
    rw [heff] at hkind
    cases hkind

/-- An operation that succeeds on this tree, once nothing is left to fail. -/
lemma wp_update_sure {t'' : FileTree ν β} {u : FsUpdate ν β}
    {ok : Unit → (FileTree ν β × ε) × Bool → Prop} (heff : t.effect u = .ok t'')
    (hcut : ∀ t', t.Left u t' → cut ((t', x), false)) (hok : ok () ((t'', x), false)) :
    Act.wp (world ν β K failed) (update u) ok err cut ((t, x), false) := by
  refine wp_update_succeeds heff hcut hok ?_
  intro hb
  cases hb

lemma wp_fileExists {p : List ν} {ok : Bool → (FileTree ν β × ε) × Bool → Prop}
    (hcut : cut ((t, x), b)) (hok : ok (t.exists? p) ((t, x), b)) :
    Act.wp (world ν β K failed) (fileExists p) ok err cut ((t, x), b) := by
  refine Prog.wp_call_inl hcut ?_ ?_ ?_
  · exact (Bool.and_true b).symm ▸ hok
  · intro f t' hd
    obtain rfl := congrArg Prod.snd hd
    exact hcut
  · rintro rfl f r t' hd
    obtain ⟨hr, rfl⟩ := Prod.mk.inj hd
    split at hr <;> cases hr
    exact hok

lemma wp_read {p : List ν} {ok : List β → (FileTree ν β × ε) × Bool → Prop}
    (hcut : cut ((t, x), b)) (hok : ∀ d, t.readFile p = .ok d → ok d ((t, x), b))
    (herr : ∀ kind, t.readFile p = .error kind → err (.ofKind kind) ((t, x), false))
    (hfault : b = true → err (.ofKind .other) ((t, x), false)) :
    Act.wp (world ν β K failed) (read p) ok err cut ((t, x), b) := by
  refine Prog.wp_call_inl hcut ?_ ?_ ?_
  · cases hr : t.readFile p with
    | ok d =>
      rw [perform_read_ok hr]
      exact (Bool.and_true b).symm ▸ hok d hr
    | error kind =>
      rw [perform_read_error hr]
      exact (Bool.and_false b).symm ▸ herr kind hr
  · intro f t' hd
    obtain rfl := congrArg Prod.snd hd
    exact hcut
  · intro hb f r t' hd
    obtain ⟨hr, rfl⟩ := Prod.mk.inj hd
    split at hr <;> cases hr
    exact hfault hb

/-- A call of the second machine does not change the tree. -/
lemma wp_callback {o : T.Op} (ho : T.Reply o = Except IoError α)
    {ok : α → (FileTree ν β × ε) × Bool → Prop}
    (hfailed : ∀ r, failed o r = match cast ho r with | .ok _ => false | .error _ => true)
    (h : (Prog.op o).wp K (fun r x' => match cast ho r with
      | .ok a => ok a ((t, x'), b)
      | .error e => err e ((t, x'), false)) (fun x' => cut ((t, x'), b)) x) :
    Act.wp (world ν β K failed) (callback o ho) ok err cut ((t, x), b) := by
  obtain ⟨hcut, hreply⟩ := (Prog.wp_call o _ x).mp h
  have hreturn : ∀ r x' b', (match cast ho r with
        | .ok a => ok a ((t, x'), b)
        | .error e => err e ((t, x'), false)) → (b' = true → b = true) → (b = true → b' = true) →
      Act.post ok err (cast ho r) ((t, x'), b' && !failed o r) := by
    intro r x' b' hr hbb' hb'b
    rw [hfailed r]
    cases hc : cast ho r with
    | ok a =>
      rw [hc] at hr
      have : b' = b := Bool.eq_iff_iff.mpr ⟨hbb', hb'b⟩
      simpa [Act.post, this] using hr
    | error e =>
      rw [hc] at hr
      simpa [Act.post] using hr
  refine Prog.wp_call_inr hcut ?_ ?_ ?_
  · exact hreturn _ _ b (hreply none) id id
  · intro f x' hd
    have := hreply (some f)
    rw [Machine.exec, hd] at this
    exact this
  · intro hb f r x' hd
    have := hreply (some f)
    rw [Machine.exec, hd] at this
    exact hreturn r x' true this (fun _ => hb) fun _ => rfl

end Rules

/-! ### Runs -/

section Runs

variable {K : Machine T ε} {failed : (o : T.Op) → T.Reply o → Bool} {t t' : FileTree ν β} {x : ε}
  {b : Bool} {cs : List (Option (world ν β K failed).Fault)} {p : List ν} {u : FsUpdate ν β}

lemma run_update (u : FsUpdate ν β) :
    Act.run (world ν β K failed) (update u) (none :: cs) ((t, x), b) =
      (.done ((machine ν β).perform (.update u) t).1 cs,
        ((((machine ν β).perform (.update u) t).2, x),
          b && !fsFailed (.update u) ((machine ν β).perform (.update u) t).1)) :=
  Prog.run_pure _ _ _

lemma run_update_ok (h : t.effect u = .ok t') :
    Act.run (world ν β K failed) (update u) (none :: cs) ((t, x), b) =
      (.done (.ok ()) cs, ((t', x), b)) := by
  rw [run_update, perform_update_ok h]
  simp [fsFailed]

lemma run_update_error {kind : ErrorKind} (h : t.effect u = .error kind) :
    Act.run (world ν β K failed) (update u) (none :: cs) ((t, x), b) =
      (.done (.error (.ofKind kind)) cs, ((t, x), false)) := by
  rw [run_update, perform_update_error h]
  simp [fsFailed]

/-- The one failure that the environment allows. -/
lemma run_update_fault {f : Fault ν} (hf : f.cutsPower = false) :
    Act.run (world ν β K failed) (update u) (some (.inl f) :: cs) ((t, x), true) =
      (.done (.error (.ofKind .other)) cs, ((t.part u f, x), false)) := by
  have hdisturb : (machine ν β).disturb (.update u) f t =
      (some (.error (.ofKind .other)), t.part u f) := by
    simp [machine, hf]
  have hexec : (world ν β K failed).exec (.inl (.update u)) (some (.inl f)) ((t, x), true) =
      (some (.error (.ofKind .other)), ((t.part u f, x), false)) := by
    have hsum : ((machine ν β).sum K).disturb (.inl (.update u)) (.inl f) (t, x) =
        (((machine ν β).disturb (.update u) f t).1,
          (((machine ν β).disturb (.update u) f t).2, x)) := rfl
    rw [hdisturb] at hsum
    refine (Machine.oneFault_disturb _ _ _ _ _ _).trans ?_
    rw [hsum]
    rfl
  exact (Prog.run_call hexec).trans (Prog.run_pure _ _ _)

lemma run_fileExists :
    Act.run (world ν β K failed) (fileExists p) (none :: cs) ((t, x), b) =
      (.done (.ok (t.exists? p)) cs, ((t, x), b)) := by
  have hrun : Act.run (world ν β K failed) (fileExists p) (none :: cs) ((t, x), b) =
      (.done (.ok (t.exists? p)) cs, ((t, x), b && true)) := Prog.run_pure _ _ _
  rw [hrun, Bool.and_true]

lemma run_read {d : List β} (h : t.readFile p = .ok d) :
    Act.run (world ν β K failed) (read p) (none :: cs) ((t, x), b) =
      (.done (.ok d) cs, ((t, x), b)) := by
  have hrun : Act.run (world ν β K failed) (read p) (none :: cs) ((t, x), b) =
      (.done ((machine ν β).perform (.read p) t).1 cs, ((((machine ν β).perform (.read p) t).2, x),
        b && !fsFailed (.read p) ((machine ν β).perform (.read p) t).1)) := Prog.run_pure _ _ _
  rw [hrun, perform_read_ok h]
  simp [fsFailed]

end Runs

end FileTree
