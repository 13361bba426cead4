import ThistleOS.Apps.Vault
import ThistleOS.Component

/-!
# What is left of a vault

Between the two renamings of a save the vault waits under its backup's name. It is safe there until
something takes the empty vault path for that of a new device: a save, which then deletes the
backup, or a load that cannot rename it back.
-/

open PowerLoss FileTree

namespace ThistleOS.Vault

inductive Call
  | load (env : Env) (masterPw : CStr) (vault : SVault)
  | save (env : Env) (vault : SVault)

def Call.prog : Call → VaultProg Unit
  | .load env masterPw vault => vaultLoad env masterPw vault >>= fun _ => pure ()
  | .save env vault => vaultSave env vault >>= fun _ => pure ()

/-- A call, and what the environment does to its operations, up to the loss of the power. -/
structure Turn where
  call : Call
  choices : List (Option device.Fault)

def vaultDevice : Component Turn (fun _ => Unit) State where
  step turn s := ((), (turn.call.prog.run device turn.choices s).2)

/-- The states that a call goes through are those it leaves when the power is lost. -/
def AtEveryMoment (P : State → Prop) (turn : Turn) (s : State) : Prop :=
  ∀ n, P (turn.call.prog.run device (turn.choices.take n) s).2

/-- A vault that has been saved is still under one of its two names, as the last save that reported
success or a later one has written it, and no load has taken the device for a new one. -/
structure Safe (s : State) : Prop where
  remembered : s.2.forgotten = false
  held : ∀ d, s.2.saved = some d → ∃ c ∈ d :: s.2.started,
    s.1.node vaultPath = some (.file c) ∨ s.1.node vaultBackupPath = some (.file c)

/-- A vault has been saved, and nothing is under its name. -/
def Stranded (s : State) : Prop := s.2.saved ≠ none ∧ s.1.node vaultPath = none

/-- A load begins with the repair of what has been left behind. -/
def repair (env : Env) : VaultProg EspErr := do
  ensureConfigDir
  recoverInterruptedVaultWrite env

/-- A save begins with the new file. -/
def prepare (filebuf : List UInt8) : VaultProg EspErr := do
  ensureConfigDir
  note (.began filebuf)
  writeTemp filebuf

/-- A load that finds the vault under its backup's name only does not fail to rename it back, and a
save that finds it there does not delete it, the second operation after its own file is written. -/
def Sound (turn : Turn) (s : State) : Prop :=
  Stranded s →
    match turn.call with
    | .load env _ _ => ∀ rc rest s',
        (repair env).run device turn.choices s = (.done rc rest, s') → rc = espOk
    | .save env vault => ∀ filebuf rest s', sealVault env vault = .ok filebuf →
        (prepare filebuf).run device turn.choices s = (.done espOk rest, s') → rest[1]? ≠ some none

variable {env : Env} {vault : SVault} {masterPw : CStr} {t t' : Tree} {h : History}
  {c filebuf : List UInt8} {α : Type} {C : State → Prop}

/-! ### The operations -/

section Operations

variable {u : FsUpdate String UInt8} {src dst q : Path}

lemma wp_perform {Q : Bool → State → Prop} (hcut : ∀ t', t.Left u t' → C (t', h))
    (hok : ∀ t', t.effect u = .ok t' → Q true (t', h))
    (hfail : ∀ t', t.Left u t' → Q false (t', h)) : (perform u).wp device Q C (t, h) := by
  apply Prog.wp_call_of (hcut t (.refl t u))
  · have hperform : device.perform (.inl (.update u)) (t, h) =
        (((machine String UInt8).perform (.update u) t).1,
          (((machine String UInt8).perform (.update u) t).2, h)) := rfl
    rw [hperform]
    cases heff : t.effect u with
    | ok t' =>
      rw [perform_update_ok heff]
      exact hok t' heff
    | error kind =>
      rw [perform_update_error heff]
      exact hfail t (.refl t u)
  · rintro (f | f) s' hd
    · obtain ⟨-, rfl⟩ := Prod.mk.inj hd
      exact hcut _ (.inr ⟨f, rfl⟩)
    · exact f.elim
  · rintro (f | f) r s' hd
    · obtain ⟨hr, rfl⟩ := Prod.mk.inj hd
      change (if f.cutsPower then none else some (Except.error (IoError.ofKind .other))) = some r at hr
      split at hr <;> cases hr
      exact hfail _ (.inr ⟨f, rfl⟩)
    · exact f.elim

lemma wp_stat {p : Path} {Q : Bool → State → Prop} (hC : C (t, h)) (hQ : Q (t.exists? p) (t, h)) :
    (stat p).wp device Q C (t, h) := by
  apply Prog.wp_call_of hC
  · exact hQ
  · rintro (f | f) s' hd
    · obtain ⟨-, rfl⟩ := Prod.mk.inj hd
      exact hC
    · exact f.elim
  · rintro (f | f) r s' hd
    · obtain ⟨hr, rfl⟩ := Prod.mk.inj hd
      change (if f.cutsPower then none else some (t.exists? p)) = some r at hr
      split at hr <;> cases hr
      exact hQ
    · exact f.elim

lemma wp_fread {p : Path} {Q : Option (List UInt8) → State → Prop} (hC : C (t, h))
    (hQ : ∀ r, Q r (t, h)) : (fread p).wp device Q C (t, h) := by
  apply Prog.wp_call_of hC
  · exact hQ _
  · rintro (f | f) s' hd
    · obtain ⟨-, rfl⟩ := Prod.mk.inj hd
      exact hC
    · exact f.elim
  · rintro (f | f) r s' hd
    · obtain ⟨-, rfl⟩ := Prod.mk.inj hd
      exact hQ _
    · exact f.elim

lemma wp_note {mark : Mark} {Q : Unit → State → Prop} (hC : C (t, h)) (hQ : Q () (t, h.record mark)) :
    (note mark).wp device Q C (t, h) := by
  apply Prog.wp_call_of hC
  · exact hQ
  · rintro (f | f) s' hd
    · cases congrArg Prod.fst hd
    · exact f.elim
  · rintro (f | f) r s' hd
    · obtain ⟨-, rfl⟩ := Prod.mk.inj hd
      exact hQ
    · exact f.elim

/-- Renaming happens at once or not at all. -/
lemma left_rename (hl : t.Left (rename env src dst) t') : t' = t := by
  rcases hl with rfl | ⟨f, rfl⟩
  · rfl
  · rw [rename]
    split <;> rfl

lemma left_removeFile {p : Path} (hl : t.Left (.removeFile p) t') : t' = t := by
  rcases hl with rfl | ⟨f, rfl⟩ <;> rfl

lemma rename_ok_node (heff : t.effect (rename env src dst) = .ok t')
    (hsrc : t.node src = some (.file c)) (q : Path) :
    t'.node q = if q = dst then some (.file c) else if q = src then none else t.node q := by
  rw [rename] at heff
  split at heff
  · exact replace_ok heff hsrc q
  · exact rename_file_ok heff hsrc q

lemma rename_frame (heff : t.effect (rename env src dst) = .ok t') (hsrc : ¬ src <+: q)
    (hdst : ¬ dst <+: q) : t'.node q = t.node q := by
  apply effect_frame heff
  rw [rename]
  split
  · exact not_or.mpr ⟨hsrc, hdst⟩
  · exact not_or.mpr ⟨hsrc, hdst⟩

end Operations

/-! ### The vault and its backup -/

/-- The operations beside the vault leave it and its backup alone. -/
def Aside (t t' : Tree) : Prop :=
  t'.node vaultPath = t.node vaultPath ∧ t'.node vaultBackupPath = t.node vaultBackupPath

lemma Aside.refl (t : Tree) : Aside t t := ⟨rfl, rfl⟩

lemma Aside.trans {t'' : Tree} (h : Aside t t') (h' : Aside t' t'') : Aside t t'' :=
  ⟨h'.1.trans h.1, h'.2.trans h.2⟩

def Apart (u : FsUpdate String UInt8) : Prop := ¬ u.Touches vaultPath ∧ ¬ u.Touches vaultBackupPath

section Apart

variable {u : FsUpdate String UInt8}

lemma apart_createDir : Apart (.createDir vaultConfigDir) :=
  ⟨(by decide : ¬ vaultPath = vaultConfigDir), (by decide : ¬ vaultBackupPath = vaultConfigDir)⟩

lemma apart_create : Apart (.create vaultTempPath none) :=
  ⟨(by decide : ¬ vaultPath = vaultTempPath), (by decide : ¬ vaultBackupPath = vaultTempPath)⟩

lemma apart_writeAll (d : List UInt8) : Apart (.writeAll vaultTempPath d) :=
  ⟨(by decide : ¬ vaultPath = vaultTempPath), (by decide : ¬ vaultBackupPath = vaultTempPath)⟩

lemma apart_syncAll : Apart (.syncAll vaultTempPath) := ⟨id, id⟩

lemma apart_removeFile : Apart (.removeFile vaultTempPath) :=
  ⟨(by decide : ¬ vaultTempPath <+: vaultPath), (by decide : ¬ vaultTempPath <+: vaultBackupPath)⟩

lemma Apart.left (hu : Apart u) (hl : t.Left u t') : Aside t t' := ⟨hl.frame hu.1, hl.frame hu.2⟩

lemma Apart.effect (hu : Apart u) (heff : t.effect u = .ok t') : Aside t t' :=
  ⟨effect_frame heff hu.1, effect_frame heff hu.2⟩

lemma wp_perform_aside {Q : Bool → State → Prop} (hu : Apart u) (hC : ∀ t', Aside t t' → C (t', h))
    (hQ : ∀ b t', Aside t t' → Q b (t', h)) : (perform u).wp device Q C (t, h) := by
  apply wp_perform
  · exact fun t' hl => hC t' (hu.left hl)
  · exact fun t' heff => hQ true t' (hu.effect heff)
  · exact fun t' hl => hQ false t' (hu.left hl)

end Apart

/-- The backup lies beside the vault and its new file. -/
lemma removeBackup_frame {q : Path} (heff : t.effect (.removeFile vaultBackupPath) = .ok t')
    (hq : ¬ vaultBackupPath <+: q) : t'.node q = t.node q :=
  effect_frame heff hq

/-- The vault is under its name, or waits under its backup's while nothing is. -/
def Copy (c : List UInt8) (t : Tree) : Prop :=
  t.node vaultPath = some (.file c) ∨
    (t.node vaultPath = none ∧ t.node vaultBackupPath = some (.file c))

structure Kept (s : State) : Prop where
  remembered : s.2.forgotten = false
  copied : ∀ d, s.2.saved = some d → ∃ c ∈ d :: s.2.started, Copy c s.1

structure Installed (s : State) : Prop where
  remembered : s.2.forgotten = false
  installed : ∀ d, s.2.saved = some d → ∃ c ∈ d :: s.2.started, s.1.node vaultPath = some (.file c)

lemma Kept.safe {s : State} (hs : Kept s) : Safe s := by
  refine ⟨hs.remembered, fun d hd => ?_⟩
  obtain ⟨c, hc, hcopy⟩ := hs.copied d hd
  exact ⟨c, hc, hcopy.imp_right And.right⟩

lemma Installed.kept {s : State} (hs : Installed s) : Kept s := by
  refine ⟨hs.remembered, fun d hd => ?_⟩
  obtain ⟨c, hc, hnode⟩ := hs.installed d hd
  exact ⟨c, hc, .inl hnode⟩

lemma Kept.installed {s : State} (hs : Kept s) (hvault : s.1.node vaultPath ≠ none) : Installed s := by
  refine ⟨hs.remembered, fun d hd => ?_⟩
  obtain ⟨c, hc, hnode | ⟨hnone, -⟩⟩ := hs.copied d hd
  · exact ⟨c, hc, hnode⟩
  · exact absurd hnone hvault

lemma installed_of_unsaved (hremembered : h.forgotten = false) (hsaved : h.saved = none) (t : Tree) :
    Installed (t, h) := by
  refine ⟨hremembered, fun d hd => ?_⟩
  rw [hsaved] at hd
  cases hd

lemma Kept.installed_of_not_stranded {s : State} (hs : Kept s) (hfree : ¬ Stranded s) :
    Installed s := by
  by_cases hsaved : s.2.saved = none
  · exact installed_of_unsaved hs.remembered hsaved s.1
  · exact hs.installed fun hnone => hfree ⟨hsaved, hnone⟩

lemma Kept.aside (hs : Kept (t, h)) (ha : Aside t t') : Kept (t', h) := by
  refine ⟨hs.remembered, fun d hd => ?_⟩
  obtain ⟨c, hc, hcopy⟩ := hs.copied d hd
  refine ⟨c, hc, ?_⟩
  rw [Copy, ha.1, ha.2]
  exact hcopy

lemma Installed.aside (hs : Installed (t, h)) (ha : Aside t t') : Installed (t', h) := by
  refine ⟨hs.remembered, fun d hd => ?_⟩
  obtain ⟨c, hc, hnode⟩ := hs.installed d hd
  exact ⟨c, hc, ha.1.trans hnode⟩

/-- A save that begins gives the vault one more content. -/
lemma Kept.began (hs : Kept (t, h)) (filebuf : List UInt8) : Kept (t, h.record (.began filebuf)) := by
  refine ⟨hs.remembered, fun d hd => ?_⟩
  obtain ⟨c, hc, hcopy⟩ := hs.copied d hd
  refine ⟨c, ?_, hcopy⟩
  rcases List.mem_cons.mp hc with rfl | hc
  · exact List.mem_cons_self
  · exact List.mem_cons_of_mem _ (List.mem_cons_of_mem _ hc)

lemma kept_began_of_new (hremembered : h.forgotten = false)
    (hnode : t.node vaultPath = some (.file filebuf)) : Kept (t, h.record (.began filebuf)) :=
  ⟨hremembered, fun _ _ => ⟨filebuf, List.mem_cons_of_mem _ List.mem_cons_self, .inl hnode⟩⟩

/-! ### A save -/

/-- What a save has done when it comes to its report: the vault is the new file, or the vault and
its history are as safe as they were. -/
def Stored (h : History) (filebuf : List UInt8) (rc : EspErr) (s : State) : Prop :=
  s.2 = h.record (.began filebuf) ∧
    if rc = espOk then s.1.node vaultPath = some (.file filebuf) else Kept (s.1, h)

lemma Stored.kept {rc : EspErr} {s : State} (hremembered : h.forgotten = false)
    (hs : Stored h filebuf rc s) : Kept s := by
  obtain ⟨t, h'⟩ := s
  obtain ⟨rfl, hs⟩ := hs
  split at hs
  · exact kept_began_of_new hremembered hs
  · exact hs.began filebuf

lemma wp_ensureConfigDir {Q : Unit → State → Prop} (hC : ∀ t', Aside t t' → C (t', h))
    (hQ : ∀ t', Aside t t' → Q () (t', h)) : ensureConfigDir.wp device Q C (t, h) := by
  rw [ensureConfigDir, Prog.wp_bind]
  apply wp_stat (hC t (.refl t))
  split
  · rw [Prog.wp_bind]
    exact wp_perform_aside apart_createDir hC fun _ => hQ
  · exact hQ t (.refl t)

lemma wp_writeTemp {Q : EspErr → State → Prop} (hC : ∀ t', Aside t t' → C (t', h))
    (hfail : ∀ rc t', rc ≠ espOk → Aside t t' → Q rc (t', h))
    (hok : ∀ t', Aside t t' → t'.node vaultTempPath = some (.file filebuf) → Q espOk (t', h)) :
    (writeTemp filebuf).wp device Q C (t, h) := by
  rw [writeTemp, Prog.wp_bind]
  apply wp_perform
  · exact fun t₁ hl => hC t₁ (apart_create.left hl)
  · intro t₁ heff
    have ha := apart_create.effect heff
    have hcreate : t.create vaultTempPath none = .ok t₁ := heff
    have hempty : t₁.node vaultTempPath = some (.file []) := by
      rw [(create_ok hcreate).2.2, if_pos rfl]
    rw [if_pos rfl, Prog.wp_bind]
    apply wp_perform
    · exact fun t₂ hl => hC t₂ (ha.trans ((apart_writeAll filebuf).left hl))
    · intro t₂ heff₂
      have ha₂ := ha.trans ((apart_writeAll filebuf).effect heff₂)
      have happend : t₁.append vaultTempPath filebuf = .ok t₂ := heff₂
      obtain ⟨old, hold, hnode⟩ := append_ok happend
      obtain rfl : old = [] := by
        have hboth := hold.symm.trans hempty
        cases hboth
        rfl
      rw [Prog.wp_bind]
      apply wp_perform
      · exact fun t₃ hl => hC t₃ (ha₂.trans (apart_syncAll.left hl))
      · intro t₃ heff₃
        obtain rfl : t₂ = t₃ := Except.ok.inj heff₃
        exact hok t₂ ha₂ (by rw [hnode, if_pos rfl]; rfl)
      · exact fun t₃ hl => hfail espFail t₃ (by decide) (ha₂.trans (apart_syncAll.left hl))
    · intro t₂ hl
      have ha₂ := ha.trans ((apart_writeAll filebuf).left hl)
      rw [Prog.wp_bind]
      apply wp_perform_aside apart_syncAll
      · exact fun t₃ ha₃ => hC t₃ (ha₂.trans ha₃)
      · exact fun _ t₃ ha₃ => hfail espFail t₃ (by decide) (ha₂.trans ha₃)
  · exact fun t₁ hl => hfail espErrNotFound t₁ (by decide) (apart_create.left hl)

/-- The new file is dropped, and the old one is where it was. -/
lemma wp_discardTemp (hs : Kept (t, h)) :
    discardTemp.wp device (Stored h filebuf) Kept (t, h.record (.began filebuf)) := by
  rw [discardTemp, Prog.wp_bind]
  apply wp_perform_aside apart_removeFile
  · exact fun t' ha => (hs.aside ha).began filebuf
  · exact fun _ t' ha => ⟨rfl, by rw [if_neg (by decide)]; exact hs.aside ha⟩

/-- The vault is out of the way, if there is one. -/
lemma wp_installVaultFile {hadOriginal : Bool} (hs : Kept (t, h))
    (hvault : h.saved ≠ none → t.node vaultPath = none)
    (htemp : t.node vaultTempPath = some (.file filebuf)) :
    (installVaultFile env hadOriginal).wp device (Stored h filebuf) Kept
      (t, h.record (.began filebuf)) := by
  rw [installVaultFile, Prog.wp_bind]
  apply wp_perform
  · exact fun t' hl => left_rename hl ▸ hs.began filebuf
  · intro t₁ heff
    have hnode : t₁.node vaultPath = some (.file filebuf) := by
      rw [rename_ok_node heff htemp, if_pos rfl]
    have hstored : ∀ t', t'.node vaultPath = t₁.node vaultPath →
        Stored h filebuf espOk (t', h.record (.began filebuf)) := fun t' heq =>
      ⟨rfl, by rw [if_pos rfl]; exact heq.trans hnode⟩
    rw [if_pos rfl]
    split
    · rw [Prog.wp_bind]
      apply wp_perform
      · exact fun t' hl => left_removeFile hl ▸ kept_began_of_new hs.remembered hnode
      · exact fun t' heff' => hstored t' (removeBackup_frame heff' (by decide))
      · exact fun t' hl => hstored t' (left_removeFile hl ▸ rfl)
    · exact hstored t₁ rfl
  · intro t₁ hl
    obtain rfl := left_rename hl
    rw [if_neg Bool.false_ne_true]
    split
    · rw [Prog.wp_bind]
      apply wp_perform
      · exact fun t' hl => left_rename hl ▸ hs.began filebuf
      · intro t₂ heff
        apply wp_discardTemp
        refine ⟨hs.remembered, fun d hd => ?_⟩
        obtain ⟨c, hc, hnode | ⟨-, hnode⟩⟩ := hs.copied d hd
        · have hsaved : h.saved ≠ none := by
            rw [show h.saved = some d from hd]
            exact Option.some_ne_none d
          rw [hvault hsaved] at hnode
          cases hnode
        · exact ⟨c, hc, .inl (by rw [rename_ok_node heff hnode, if_pos rfl])⟩
      · exact fun t₂ hl => left_rename hl ▸ wp_discardTemp hs
    · exact wp_discardTemp hs

lemma wp_moveAside {hadOriginal : Bool} (hs : Installed (t, h)) (hhad : hadOriginal = t.exists? vaultPath)
    (htemp : t.node vaultTempPath = some (.file filebuf)) :
    (moveAside env hadOriginal).wp device (Stored h filebuf) Kept (t, h.record (.began filebuf)) := by
  rw [moveAside]
  split
  · rw [Prog.wp_bind]
    apply wp_perform
    · exact fun t' hl => left_rename hl ▸ hs.kept.began filebuf
    · intro t₁ heff
      have htemp₁ : t₁.node vaultTempPath = some (.file filebuf) :=
        (rename_frame heff (by decide) (by decide)).trans htemp
      have hmoved (d : List UInt8) (hd : h.saved = some d) : ∃ c ∈ d :: h.started,
          t₁.node vaultPath = none ∧ t₁.node vaultBackupPath = some (.file c) := by
        obtain ⟨c, hc, hnode⟩ := hs.installed d hd
        have hnode₁ := rename_ok_node heff hnode
        exact ⟨c, hc, by rw [hnode₁, if_neg (by decide), if_pos rfl], by rw [hnode₁, if_pos rfl]⟩
      rw [if_pos rfl]
      apply wp_installVaultFile _ _ htemp₁
      · refine ⟨hs.remembered, fun d hd => ?_⟩
        obtain ⟨c, hc, hcopy⟩ := hmoved d hd
        exact ⟨c, hc, .inr hcopy⟩
      · intro hsaved
        obtain ⟨d, hd⟩ := Option.ne_none_iff_exists'.mp hsaved
        obtain ⟨-, -, hnone, -⟩ := hmoved d hd
        exact hnone
    · intro t₁ hl
      obtain rfl := left_rename hl
      exact wp_discardTemp hs.kept
  · rename_i hgone
    apply wp_installVaultFile hs.kept _ htemp
    intro _
    rw [hhad] at hgone
    simpa [exists?] using hgone

lemma wp_replaceVaultFile (hs : Installed (t, h))
    (htemp : t.node vaultTempPath = some (.file filebuf)) :
    (replaceVaultFile env).wp device (Stored h filebuf) Kept (t, h.record (.began filebuf)) := by
  rw [replaceVaultFile, Prog.wp_bind]
  apply wp_stat (hs.kept.began filebuf)
  rw [Prog.wp_bind]
  apply wp_perform
  · exact fun t' hl => left_removeFile hl ▸ hs.kept.began filebuf
  · intro t₁ heff
    have hvault : t₁.node vaultPath = t.node vaultPath := removeBackup_frame heff (by decide)
    have htemp₁ : t₁.node vaultTempPath = some (.file filebuf) :=
      (removeBackup_frame heff (by decide)).trans htemp
    apply wp_moveAside _ (by rw [exists?, exists?, hvault]) htemp₁
    refine ⟨hs.remembered, fun d hd => ?_⟩
    obtain ⟨c, hc, hnode⟩ := hs.installed d hd
    exact ⟨c, hc, hvault.trans hnode⟩
  · intro t₁ hl
    obtain rfl := left_removeFile hl
    exact wp_moveAside hs rfl htemp

lemma wp_orDiscard {x : VaultProg EspErr} {s : State} (hx : x.wp device (Stored h filebuf) Kept s) :
    (orDiscard x).wp device (Stored h filebuf) Kept s := by
  rw [orDiscard, Prog.wp_bind]
  apply Prog.wp_mono _ (fun _ hs => hs) hx
  rintro rc ⟨t', h'⟩ ⟨rfl, hs⟩
  split
  · rename_i hok
    rw [if_pos hok] at hs
    exact ⟨rfl, by rwa [if_pos rfl]⟩
  · rename_i hfail
    rw [if_neg hfail] at hs
    exact wp_discardTemp hs

lemma wp_storeTemp_failed {rc : EspErr} (hs : Kept (t, h)) (hrc : rc ≠ espOk) :
    (storeTemp env rc).wp device (Stored h filebuf) Kept (t, h.record (.began filebuf)) := by
  rw [storeTemp, if_neg hrc]
  split
  · exact ⟨rfl, by rwa [if_neg hrc]⟩
  · exact wp_discardTemp hs

lemma wp_storeTemp (hs : Installed (t, h)) (htemp : t.node vaultTempPath = some (.file filebuf)) :
    (storeTemp env espOk).wp device (Stored h filebuf) Kept (t, h.record (.began filebuf)) := by
  rw [storeTemp, if_neg (by decide), if_pos rfl]
  exact wp_orDiscard (wp_replaceVaultFile hs htemp)

/-- A save that fails leaves no trace in the history. -/
lemma record_failed {rc : EspErr} (hrc : rc ≠ espOk) :
    (h.record (.began filebuf)).record (.reported filebuf rc) = h := by
  simp [History.record, hrc]

/-- The report of a save. -/
def report (filebuf : List UInt8) (rc : EspErr) : VaultProg EspErr := do
  note (.reported filebuf rc)
  pure rc

/-- The history after a report is that of the file, or what it was before the save. -/
lemma wp_report {rc : EspErr} {s : State} (hremembered : h.forgotten = false)
    (hs : Stored h filebuf rc s) :
    (report filebuf rc).wp device (fun _ => Kept) Kept s := by
  have hkept := hs.kept hremembered
  obtain ⟨t, h'⟩ := s
  obtain ⟨rfl, hs⟩ := hs
  rw [report, Prog.wp_bind]
  apply wp_note hkept
  change Kept (t, (h.record (.began filebuf)).record (.reported filebuf rc))
  split at hs
  · rename_i hok
    rw [hok]
    refine ⟨hremembered, fun d hd => ?_⟩
    obtain rfl := Option.some.inj hd
    exact ⟨filebuf, List.mem_cons_self, .inl hs⟩
  · rename_i hfail
    rw [record_failed hfail]
    exact hs

lemma wp_report_of {x : VaultProg EspErr} {s : State} (hremembered : h.forgotten = false)
    (hx : x.wp device (Stored h filebuf) Kept s) :
    (x >>= report filebuf).wp device (fun _ => Kept) Kept s := by
  rw [Prog.wp_bind]
  exact Prog.wp_mono (fun _ _ hs => wp_report hremembered hs) (fun _ hs => hs) hx

lemma vaultSave_eq (hseal : sealVault env vault = .ok filebuf) :
    vaultSave env vault = prepare filebuf >>= fun rc => storeTemp env rc >>= report filebuf := by
  simp only [vaultSave, hseal, prepare, bind_assoc]
  rfl

lemma wp_prepare {Q : EspErr → State → Prop} (hC : ∀ t', Aside t t' → C (t', h))
    (hC' : ∀ t', Aside t t' → C (t', h.record (.began filebuf)))
    (hfail : ∀ rc t', rc ≠ espOk → Aside t t' → Q rc (t', h.record (.began filebuf)))
    (hok : ∀ t', Aside t t' → t'.node vaultTempPath = some (.file filebuf) →
      Q espOk (t', h.record (.began filebuf))) :
    (prepare filebuf).wp device Q C (t, h) := by
  rw [prepare, Prog.wp_bind]
  apply wp_ensureConfigDir hC
  intro t₁ ha
  rw [Prog.wp_bind]
  apply wp_note (hC t₁ ha)
  apply wp_writeTemp
  · exact fun t' ha' => hC' t' (ha.trans ha')
  · exact fun rc t' hrc ha' => hfail rc t' hrc (ha.trans ha')
  · exact fun t' ha' htemp => hok t' (ha.trans ha') htemp

lemma wp_vaultSave (hs : Installed (t, h)) :
    (vaultSave env vault).wp device (fun _ => Kept) Kept (t, h) := by
  cases hseal : sealVault env vault with
  | error rc =>
    rw [vaultSave, Prog.wp_bind]
    apply wp_ensureConfigDir (fun t' ha => (hs.aside ha).kept)
    intro t' ha
    rw [hseal]
    exact (hs.aside ha).kept
  | ok filebuf =>
    rw [vaultSave_eq hseal, Prog.wp_bind]
    apply wp_prepare (fun t' ha => (hs.aside ha).kept) (fun t' ha => (hs.aside ha).kept.began filebuf)
    · intro rc t' hrc ha
      exact wp_report_of hs.remembered (wp_storeTemp_failed (hs.aside ha).kept hrc)
    · intro t' ha htemp
      exact wp_report_of hs.remembered (wp_storeTemp (hs.aside ha) htemp)

/-! ### A load -/

/-- What the repair at the start of a load has done: the vault is under its name, or nothing has
changed. -/
def Mended (t : Tree) (h : History) (rc : EspErr) (s : State) : Prop :=
  if rc = espOk then Installed s else Aside t s.1 ∧ s.2 = h

lemma Mended.installed {rc : EspErr} {s : State} (hm : Mended t h rc s) (hs : Kept (t, h))
    (hrc : Stranded (t, h) → rc = espOk) : Installed s := by
  rw [Mended] at hm
  split at hm
  · exact hm
  · rename_i hfail
    obtain ⟨t', h'⟩ := s
    obtain ⟨ha, rfl⟩ := hm
    exact (hs.installed_of_not_stranded fun hstranded => hfail (hrc hstranded)).aside ha

lemma wp_recover (hs : Kept (t, h)) :
    (recoverInterruptedVaultWrite env).wp device (Mended t h) Kept (t, h) := by
  have hmissing : Mended t h espErrNotFound (t, h) := by
    rw [Mended, if_neg (by decide)]
    exact ⟨.refl t, rfl⟩
  rw [recoverInterruptedVaultWrite, Prog.wp_bind]
  apply wp_stat hs
  split
  · rename_i hthere
    exact hs.installed (by simpa [exists?, Option.isSome_iff_ne_none] using hthere)
  · rename_i hgone
    have hnone : t.node vaultPath = none := by simpa [exists?] using hgone
    rw [Prog.wp_bind]
    apply wp_stat hs
    split
    · rw [Prog.wp_bind]
      apply wp_perform
      · exact fun t' hl => left_rename hl ▸ hs
      · intro t₁ heff
        refine ⟨hs.remembered, fun d hd => ?_⟩
        obtain ⟨c, hc, hnode | ⟨-, hnode⟩⟩ := hs.copied d hd
        · rw [hnone] at hnode
          cases hnode
        · exact ⟨c, hc, by rw [rename_ok_node heff hnode, if_pos rfl]⟩
      · exact fun t' hl => left_rename hl ▸ hmissing
    · exact hmissing

lemma wp_repair (hs : Kept (t, h)) : (repair env).wp device (Mended t h) Kept (t, h) := by
  rw [repair, Prog.wp_bind]
  apply wp_ensureConfigDir (fun t' ha => hs.aside ha)
  intro t' ha
  apply Prog.wp_mono _ (fun _ hs => hs) (wp_recover (hs.aside ha))
  intro rc s hm
  rw [Mended] at hm ⊢
  split at hm
  · rwa [if_pos ‹_›]
  · rw [if_neg ‹_›]
    exact ⟨ha.trans hm.1, hm.2⟩

lemma wp_migrate (hs : Installed (t, h)) :
    (migrate env masterPw vault).wp device (fun _ => Kept) Kept (t, h) := by
  rw [migrate]
  split
  · exact hs.kept
  · split
    · exact hs.kept
    · rw [Prog.wp_bind]
      apply Prog.wp_mono _ (fun _ hs => hs) (wp_vaultSave hs)
      intro rc s hs
      split
      · exact hs
      · exact hs

/-- Reading changes nothing. -/
lemma wp_readFile {Q : Except EspErr Opened → State → Prop} (hC : C (t, h)) (hQ : ∀ r, Q r (t, h)) :
    (readFile env masterPw).wp device Q C (t, h) := by
  rw [readFile, Prog.wp_bind]
  apply wp_fread hC
  rintro (_ | sized)
  · exact hQ _
  · dsimp only
    split
    · exact hQ _
    · split
      · exact hQ _
      · rw [Prog.wp_bind]
        apply wp_fread hC
        rintro (_ | filebuf)
        · exact hQ _
        · exact hQ _

lemma wp_loadFile (hs : Installed (t, h)) :
    (loadFile env masterPw vault).wp device (fun _ => Kept) Kept (t, h) := by
  rw [loadFile, Prog.wp_bind]
  apply wp_readFile hs.kept
  rintro (rc | opened)
  · exact hs.kept
  · dsimp only
    split
    · exact hs.kept
    · exact wp_migrate hs

/-- A new device has nothing to lose. -/
lemma wp_firstUse (hremembered : h.forgotten = false) (hsaved : h.saved = none) :
    (firstUse env masterPw vault).wp device (fun _ => Kept) Kept (t, h) := by
  have hin := installed_of_unsaved hremembered hsaved t
  have hrecord : h.record .firstUse = h := by
    rw [History.record, hsaved, Option.isSome_none, Bool.or_false, ← hsaved]
  rw [firstUse, Prog.wp_bind]
  apply wp_note hin.kept
  rw [hrecord]
  split
  · exact hin.kept
  · dsimp only
    split
    · exact hin.kept
    · rw [Prog.wp_bind]
      apply Prog.wp_mono _ (fun _ hs => hs) (wp_vaultSave hin)
      intro rc s hs
      split
      · exact hs
      · exact hs

lemma wp_loadOrCreate (hs : Installed (t, h)) :
    (loadOrCreate env masterPw vault).wp device (fun _ => Kept) Kept (t, h) := by
  rw [loadOrCreate, Prog.wp_bind]
  apply wp_stat hs.kept
  split
  · exact wp_loadFile hs
  · rename_i hgone
    apply wp_firstUse hs.remembered
    by_contra hsaved
    obtain ⟨d, hd⟩ := Option.ne_none_iff_exists'.mp hsaved
    obtain ⟨c, -, hnode⟩ := hs.installed d hd
    have hthere : t.exists? vaultPath = true := by
      rw [exists?, show t.node vaultPath = some (.file c) from hnode]
      rfl
    exact hgone hthere

/-! ### Runs -/

section Runs

variable {β : Type} {p : VaultProg α} {s : State} {cs : List (Option device.Fault)}

lemma kept_of_wp (hp : p.wp device (fun _ => Kept) Kept s) : Kept (p.run device cs s).2 := by
  rcases hrun : p.run device cs s with ⟨⟨a, rest⟩ | _, s'⟩
  · exact Prog.wp_run_done hp hrun
  · exact Prog.wp_run_lost hp hrun

/-- The second part of a program goes on with what is left of the environment's list. -/
lemma kept_bind {f : α → VaultProg β} {Q : α → State → Prop} (hp : p.wp device Q Kept s)
    (hf : ∀ a rest s', p.run device cs s = (.done a rest, s') → Q a s' →
      Kept ((f a).run device rest s').2) : Kept ((p >>= f).run device cs s).2 := by
  rw [Prog.run_bind]
  rcases hrun : p.run device cs s with ⟨⟨a, rest⟩ | _, s'⟩
  · exact hf a rest s' hrun (Prog.wp_run_done hp hrun)
  · exact Prog.wp_run_lost hp hrun

lemma kept_load (hs : Kept s) (hsound : Sound ⟨.load env masterPw vault, cs⟩ s) :
    Kept ((vaultLoad env masterPw vault).run device cs s).2 := by
  have heq : vaultLoad env masterPw vault = repair env >>= fun _ => loadOrCreate env masterPw vault := by
    simp only [vaultLoad, repair, bind_assoc]
  rw [heq]
  apply kept_bind (wp_repair hs)
  intro rc rest s' hrun hm
  exact kept_of_wp (wp_loadOrCreate (hm.installed hs fun hstranded => hsound hstranded rc rest s' hrun))

lemma exec_stat_fault (q : Path) (f : Fault String) :
    device.exec (.inl (.exists? q)) (some (.inl f)) s =
      (if f.cutsPower then none else some (s.1.exists? q), s) := rfl

lemma exec_removeFile_fault (q : Path) (f : Fault String) :
    device.exec (.inl (.update (.removeFile q))) (some (.inl f)) s =
      (if f.cutsPower then none else some (.error (.ofKind .other)), s) := rfl

/-- A removal that is disturbed: the rest runs from the same state, if at all. -/
lemma kept_removeFile {q : Path} {p : VaultProg α} (hne : cs[0]? ≠ some none) (hs : Kept s)
    (hp : ∀ rest, Kept (p.run device rest s).2) :
    Kept ((perform (.removeFile q) >>= fun _ => p).run device cs s).2 := by
  rcases cs with _ | ⟨_ | f | f, rest⟩
  · exact hs
  · exact absurd rfl hne
  · have hexec := exec_removeFile_fault (s := s) q f
    split at hexec
    · have hrun : (perform (.removeFile q) >>= fun _ => p).run device (some (.inl f) :: rest) s =
          (.lost, s) := Prog.run_call_lost hexec
      rw [hrun]
      exact hs
    · have hrun : (perform (.removeFile q) >>= fun _ => p).run device (some (.inl f) :: rest) s =
          p.run device rest s := Prog.run_call hexec
      rw [hrun]
      exact hp rest
  · exact f.elim

lemma kept_stat {q : Path} {p : Bool → VaultProg α} (hs : Kept s)
    (hp : ∀ c rest, cs = c :: rest → Kept ((p (s.1.exists? q)).run device rest s).2) :
    Kept ((stat q >>= p).run device cs s).2 := by
  rcases cs with _ | ⟨_ | f | f, rest⟩
  · exact hs
  · exact hp _ rest rfl
  · have hexec := exec_stat_fault (s := s) q f
    split at hexec
    · have hrun : (stat q >>= p).run device (some (.inl f) :: rest) s = (.lost, s) :=
        Prog.run_call_lost hexec
      rw [hrun]
      exact hs
    · have hrun : (stat q >>= p).run device (some (.inl f) :: rest) s =
          (p (s.1.exists? q)).run device rest s := Prog.run_call hexec
      rw [hrun]
      exact hp _ rest rfl
  · exact f.elim

/-- A save spares the backup if its removal is disturbed. -/
lemma kept_storeTemp (hs : Kept (t, h)) (hnone : t.node vaultPath = none)
    (htemp : t.node vaultTempPath = some (.file filebuf)) (hne : cs[1]? ≠ some none) :
    Kept ((storeTemp env espOk >>= report filebuf).run device cs (t, h.record (.began filebuf))).2 := by
  have heq : storeTemp env espOk >>= report filebuf = stat vaultPath >>= fun hadOriginal =>
      perform (.removeFile vaultBackupPath) >>= fun _ =>
        orDiscard (moveAside env hadOriginal) >>= report filebuf := by
    rw [storeTemp, if_neg (by decide), if_pos rfl]
    simp only [orDiscard, replaceVaultFile, bind_assoc]
  rw [heq]
  apply kept_stat (hs.began filebuf)
  rintro c rest rfl
  apply kept_removeFile (by simpa using hne) (hs.began filebuf)
  intro rest
  have hgone : t.exists? vaultPath = false := by simp [exists?, hnone]
  rw [hgone]
  apply kept_of_wp
  apply wp_report_of hs.remembered
  apply wp_orDiscard
  rw [moveAside, if_neg Bool.false_ne_true]
  exact wp_installVaultFile hs (fun _ => hnone) htemp

lemma kept_save (hs : Kept s) (hsound : Sound ⟨.save env vault, cs⟩ s) :
    Kept ((vaultSave env vault).run device cs s).2 := by
  obtain ⟨t, h⟩ := s
  by_cases hstranded : Stranded (t, h)
  · cases hseal : sealVault env vault with
    | error rc =>
      apply kept_of_wp
      rw [vaultSave, Prog.wp_bind]
      apply wp_ensureConfigDir (fun t' ha => hs.aside ha)
      intro t' ha
      rw [hseal]
      exact hs.aside ha
    | ok filebuf =>
      rw [vaultSave_eq hseal]
      have hprepare : (prepare filebuf).wp device
          (fun rc s => s.2 = h.record (.began filebuf) ∧ Aside t s.1 ∧
            (rc = espOk → s.1.node vaultTempPath = some (.file filebuf))) Kept (t, h) := by
        apply wp_prepare (fun t' ha => hs.aside ha) (fun t' ha => (hs.aside ha).began filebuf)
        · exact fun rc t' hrc ha => ⟨rfl, ha, fun hok => absurd hok hrc⟩
        · exact fun t' ha htemp => ⟨rfl, ha, fun _ => htemp⟩
      apply kept_bind hprepare
      rintro rc rest ⟨t', h'⟩ hrun ⟨rfl, ha, htemp⟩
      by_cases hrc : rc = espOk
      · subst hrc
        exact kept_storeTemp (hs.aside ha) (ha.1.trans hstranded.2) (htemp rfl)
          (hsound hstranded filebuf rest _ hseal hrun)
      · exact kept_of_wp (wp_report_of hs.remembered (wp_storeTemp_failed (hs.aside ha) hrc))
  · exact kept_of_wp (wp_vaultSave (hs.installed_of_not_stranded hstranded))

lemma run_ignore : ((p >>= fun _ => pure ()).run device cs s).2 = (p.run device cs s).2 := by
  rw [Prog.run_bind]
  rcases p.run device cs s with ⟨⟨a, rest⟩ | _, s'⟩
  · exact congrArg Prod.snd (Prog.run_pure () rest s')
  · rfl

lemma kept_turn {turn : Turn} (hs : Kept s) (hsound : Sound turn s) : Kept (vaultDevice.next turn s) := by
  obtain ⟨call, cs⟩ := turn
  change Kept (call.prog.run device cs s).2
  cases call with
  | load env masterPw vault =>
    rw [Call.prog, run_ignore]
    exact kept_load hs hsound
  | save env vault =>
    rw [Call.prog, run_ignore]
    exact kept_save hs hsound

/-- What a program has done with the first part of the environment's list it has done with the whole
of it. -/
lemma run_take {n : ℕ} {a : α} {rest : List (Option device.Fault)} {s' : State}
    (hrun : p.run device (cs.take n) s = (.done a rest, s')) :
    p.run device cs s = (.done a (rest ++ cs.drop n), s') := by
  have happend := Prog.run_append_of_done hrun (cs.drop n)
  rwa [List.take_append_drop] at happend

/-- The power may be lost earlier. -/
lemma Sound.take {turn : Turn} (hsound : Sound turn s) (n : ℕ) :
    Sound { turn with choices := turn.choices.take n } s := by
  obtain ⟨call, cs⟩ := turn
  intro hstranded
  have hall := hsound hstranded
  cases call with
  | load env masterPw vault =>
    intro rc rest s' hrun
    exact hall rc _ s' (run_take hrun)
  | save env vault =>
    intro filebuf rest s' hseal hrun hundisturbed
    apply hall filebuf _ s' hseal (run_take hrun)
    obtain ⟨hlt, -⟩ := List.getElem?_eq_some_iff.mp hundisturbed
    rw [List.getElem?_append_left hlt]
    exact hundisturbed

end Runs

/-- The vault is safe at every moment of a run in which no call takes a vault under its backup's name
for none: no load fails to rename it back, and no save deletes it. -/
theorem safe_at_every_moment {turns : List Turn} {t₀ : Tree}
    (hsound : vaultDevice.Along Sound (t₀, .empty) turns) :
    vaultDevice.Along (AtEveryMoment Safe) (t₀, .empty) turns := by
  have hempty : Kept (t₀, .empty) := ⟨rfl, fun d hd => by cases hd⟩
  obtain ⟨hall, -⟩ := Component.along_of_preserved (I := Kept)
    (fun turn s hs hsound => kept_turn hs hsound) hempty hsound
  exact hall.mono fun turn s hs n => (kept_turn hs.1 (hs.2.take n)).safe

/-! ### A vault that is lost -/

/-- A kernel that denies nothing. -/
def sampleEnv : Env where
  argon2id _ _ := some .zero
  pbkdf2Sha256 _ _ _ := some .zero
  hmacSha256 _ _ := some .zero
  aes256CbcEncrypt _ _ plaintext := some plaintext
  aes256CbcDecrypt _ _ ciphertext := some ciphertext
  randomSalt := some .zero
  randomIv := some .zero
  malloc _ := true
  overwrites := false

def sampleCard : Tree := (FileTree.empty.createDirAll vaultConfigDir).toOption.getD FileTree.empty

def samplePw : CStr := ⟨utf8 "pw", by decide⟩

/-- An operation that fails and does nothing. -/
def plainFault : Option device.Fault := some (.inl { cutsPower := false, amount := 0, keep := fun _ => true })

/-- A save that nothing disturbs. -/
def savedTurn : Turn := ⟨.save sampleEnv .zero, List.replicate 16 none⟩

/-- A save whose new file cannot be renamed, and the old one not back. -/
def strandedTurn : Turn :=
  ⟨.save sampleEnv .zero, List.replicate 8 none ++ [plainFault, plainFault] ++ List.replicate 8 none⟩

/-- A load that cannot rename the old file back either. -/
def forgettingTurn : Turn := ⟨.load sampleEnv samplePw .zero, List.replicate 3 none ++ [plainFault, none, none]⟩

/-- A saved vault is loaded. -/
theorem saved_safe_at_every_moment :
    vaultDevice.Along (AtEveryMoment Safe) (sampleCard, .empty)
      [savedTurn, ⟨.load sampleEnv samplePw .zero, List.replicate 16 none⟩] := by
  apply safe_at_every_moment
  rw [Component.along_cons, Component.along_cons]
  refine ⟨fun hstranded => absurd rfl hstranded.1, fun hstranded => ?_, Component.along_nil⟩
  have hthere : (vaultDevice.next savedTurn (sampleCard, .empty)).1.exists? vaultPath = true := by
    decide +kernel
  rw [exists?, hstranded.2] at hthere
  cases hthere

/-- The vault waits under its backup's name, and a load takes the device for a new one. -/
theorem vault_forgotten :
    ¬ ∀ (turns : List Turn) (t₀ : Tree),
      vaultDevice.Along (AtEveryMoment Safe) (t₀, .empty) turns := by
  intro hall
  have hlast := hall [savedTurn, strandedTurn, forgettingTurn] sampleCard [savedTurn, strandedTurn]
    forgettingTurn [] rfl forgettingTurn.choices.length
  rw [List.take_length] at hlast
  have hforgotten : (vaultDevice.run (sampleCard, .empty)
      [savedTurn, strandedTurn, forgettingTurn]).2.forgotten = true := by decide +kernel
  have hremembered := hlast.remembered
  exact Bool.false_ne_true (hremembered.symm.trans hforgotten)

end ThistleOS.Vault
