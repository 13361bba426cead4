import ThistleOS.Recovery.BundleTransaction.Install

/-!
# Finalisation

The kernel deletes the transaction directory when the new firmware is confirmed. A deletion that is
cut short leaves some of the records, and the next boot of Recovery decides by those that are left.
-/

open PowerLoss FileTree

namespace ThistleOS.BundleTransaction

/-- How the kernel takes a directory of the card away. -/
def finalizeBundleTransactionAt (path : Path) : BundleAct Unit := do
  match ← (update (.removeDirAll path) : BundleAct Unit).attempt with
  | .ok () => pure ()
  | .error e => if e.kind = .notFound then pure () else throw e

/-- What a boot of Recovery does with a transaction that it finds. -/
def resolve (otaImageIsSelected otaImageIsValid : Bool) : BundleAct Unit := do
  match ← recoveryAction otaImageIsSelected otaImageIsValid with
  | .none => pure ()
  | .rollback => rollback
  | .finalize => finalize

section Rules

variable {κ : Type} {K : Machine callbackSig κ} {err : IoError → (Tree × κ) × Bool → Prop}
  {cut : (Tree × κ) × Bool → Prop} {base t t' : Tree} {x : κ} {b selected valid : Bool}
  {entries : List JournalEntry} {goal : JournalEntry → Path → Option (Node UInt8)}

lemma markedPhase_eq_firmwareWritten :
    markedPhase t = .firmwareWritten ↔ t.node firmwareWrittenMarker ≠ none := by
  rw [← Option.isSome_iff_ne_none, ← FileTree.exists?]
  unfold markedPhase
  split_ifs with hfw hfa
  · simp [hfw]
  · simp [hfw]
  · simp [hfw]

/-- What Recovery decides about a tree with a journal. -/
def decision (t : Tree) (selected valid : Bool) : RecoveryAction :=
  if markedPhase t = .firmwareWritten && selected && valid then .finalize else .rollback

lemma wp_recoveryAction {ok : RecoveryAction → (Tree × κ) × Bool → Prop} (hv : ValidEntries entries)
    (hj : t.node journalPath = some (.file (journalBytes entries))) (hcut : cut ((t, x), false))
    (hok : ok (decision t selected valid) ((t, x), false)) :
    Act.wp (world String UInt8 K callbackFailed) (recoveryAction selected valid) ok err cut
      ((t, x), false) := by
  have hexists : t.exists? journalPath = true := by
    rw [FileTree.exists?, hj]
    rfl
  unfold recoveryAction transactionExists
  rw [Act.wp_bind]
  apply wp_fileExists hcut
  simp only [hexists, Bool.not_true, Bool.false_eq_true, if_false]
  rw [Act.wp_bind]
  apply wp_readJournal hj hv hcut
  · unfold decision at hok
    split_ifs at hok ⊢
    · exact hok
    · exact hok
  · intro hb
    cases hb

lemma wp_recoveryAction_of_no_journal {ok : RecoveryAction → (Tree × κ) × Bool → Prop}
    (hj : t.node journalPath = none) (hcut : cut ((t, x), b)) (hok : ok .none ((t, x), b)) :
    Act.wp (world String UInt8 K callbackFailed) (recoveryAction selected valid) ok err cut
      ((t, x), b) := by
  have hexists : t.exists? journalPath = false := by
    rw [FileTree.exists?, hj]
    rfl
  unfold recoveryAction transactionExists
  rw [Act.wp_bind]
  apply wp_fileExists hcut
  simp only [hexists, Bool.not_false, if_true]
  exact hok

lemma wp_finalize {ok : Unit → (Tree × κ) × Bool → Prop}
    (hroot : t.node transactionRoot = some .dir)
    (hcut : ∀ t', t.Left (.removeDirAll transactionRoot) t' → cut ((t', x), false))
    (hok : ∀ t' : Tree, (∀ q, t'.node q = if transactionRoot <+: q then none else t.node q) →
      ok () ((t', x), false)) :
    Act.wp (world String UInt8 K callbackFailed) finalize ok err cut ((t, x), false) := by
  have hexists : t.exists? transactionRoot = true := by
    rw [FileTree.exists?, hroot]
    rfl
  obtain ⟨t', hrem⟩ := removeDirAll_succeeds (by decide) hroot
  unfold finalize
  rw [Act.wp_bind]
  apply wp_fileExists (hcut t (.refl _ _))
  simp only [hexists, if_true]
  exact wp_update_sure hrem hcut (hok t' (removeDirAll_ok hrem))

/-- A boot either keeps what is at the destinations or puts back what rollback restores. -/
lemma Pending.wp_resolve (h : Planned entries) (hp : Pending entries base goal t) :
    Act.wp (world String UInt8 K callbackFailed) (resolve selected valid)
      (fun _ s => s.1.2 = x ∧ ∀ e ∈ entries, ∀ r, s.1.1.node (destination e.relativePath ++ r) =
        if decision t selected valid = .finalize then t.node (destination e.relativePath ++ r)
        else goal e r)
      (fun _ _ => False) (fun _ => True) ((t, x), false) := by
  unfold resolve
  rw [Act.wp_bind]
  apply wp_recoveryAction h.toValidEntries hp.journal trivial
  by_cases hd : decision t selected valid = .finalize
  · simp only [hd, if_true]
    have hroot : t.node transactionRoot = some .dir :=
      dir_above (q := journalPath) ⟨["journal"], rfl⟩ (by decide) (by simp [hp.journal])
    apply wp_finalize hroot
    · exact fun _ _ => trivial
    · intro t' hnode
      refine ⟨rfl, fun e he r => ?_⟩
      rw [hnode, if_neg ((h.outside e he).append_right r).1]
  · have hroll : decision t selected valid = .rollback := by
      unfold decision at hd ⊢
      split_ifs at hd ⊢
      · exact absurd rfl hd
      · rfl
    simp only [hroll, reduceCtorEq, if_false]
    refine Act.wp_mono ?_ (fun _ _ h => h) (fun _ _ => trivial) (hp.wp_rollback h)
    rintro ⟨⟩ s ⟨t', rfl, hs, -⟩
    exact ⟨rfl, hs.node_eq⟩

lemma wp_resolve_of_no_journal (hj : t.node journalPath = none) :
    Act.wp (world String UInt8 K callbackFailed) (resolve selected valid)
      (fun _ s => s.1 = (t, x)) (fun _ _ => False) (fun _ => True) ((t, x), b) := by
  unfold resolve
  rw [Act.wp_bind]
  exact wp_recoveryAction_of_no_journal hj trivial rfl

lemma wp_finalizeBundleTransactionAt (hroot : t.node transactionRoot = some .dir) :
    Act.wp (world String UInt8 K callbackFailed) (finalizeBundleTransactionAt transactionRoot)
      (fun _ _ => True) (fun _ _ => False)
      (fun s => s.1.2 = x ∧ t.Left (.removeDirAll transactionRoot) s.1.1) ((t, x), false) := by
  obtain ⟨t', hrem⟩ := removeDirAll_succeeds (by decide) hroot
  unfold finalizeBundleTransactionAt
  rw [Act.wp_bind, Act.wp_attempt]
  exact wp_update_sure hrem (fun t' hl => ⟨rfl, hl⟩) trivial

end Rules

/-! ### Interrupted finalisation -/

section Interrupted

variable {κ : Type} {K : Machine callbackSig κ} {files : List BundleFile}
  {t₀ t₁ t₂ t₃ : Tree} {e : JournalEntry}

lemma Installed.root (h : Installed t₀ files t₁) : t₁.node transactionRoot = some .dir :=
  dir_above (q := journalPath) ⟨["journal"], rfl⟩ (by decide) (by simp [h.pending.journal])

/-- Outside the transaction directory nothing has been deleted. -/
lemma node_of_left_removeDirAll (h : t₁.Left (.removeDirAll transactionRoot) t₂) {p : Path}
    (hp : Apart transactionRoot p) : t₂.node p = t₁.node p := by
  have hbelow : ChangesBelow {transactionRoot} t₁ t₂ :=
    h.changesBelow ⟨transactionRoot, rfl, List.prefix_rfl⟩
  refine hbelow.node_eq ?_
  rintro a rfl
  exact hp

lemma journal_eq_none_of_install {x : κ} {b : Bool} {s : (Tree × κ) × Bool}
    {cs rest : List (Option (world String UInt8 K callbackFailed).Fault)}
    (hrun : Act.run (world String UInt8 K callbackFailed) (install files) cs ((t₀, x), b) =
      (.done (.ok ()) rest, s)) : t₀.node journalPath = none := by
  by_contra hj
  have hwp : Act.wp (world String UInt8 K callbackFailed) (install files) (fun _ _ => False)
      (fun _ _ => True) (fun _ => True) ((t₀, x), b) := by
    rw [install, Act.wp_bind]
    exact wp_openTransaction_of_journal hj trivial trivial
  exact Act.wp_run_ok hwp hrun

/-- While the journal is there, rollback can still put back the backups that are left. -/
lemma Installed.pending_of_left (hfiles : Installable files) (h : Installed t₀ files t₁)
    (hl : t₁.Left (.removeDirAll transactionRoot) t₂) (hj : t₂.node journalPath ≠ none) :
    Pending (entriesOf t₀ files) t₂ (restored t₂) t₂ where
  journal := by
    rcases hl.node_removeDirAll journalPath with heq | hnone
    · exact heq.trans h.pending.journal
    · exact absurd hnone hj
  frame := .refl _ _
  restorable e he := by
    have hplan := hfiles.planned t₀
    obtain ⟨c, -, hc⟩ := (h.active e he).content
    have hdest : t₂.node (destination e.relativePath) = some (.file c) :=
      (node_of_left_removeDirAll hl (hplan.outside e he)).trans hc
    have hstaged : t₂.node (staged e.relativePath) = none :=
      (hl.node_removeDirAll _).elim (·.trans (h.active e he).no_staged) id
    constructor
    · simp [hdest]
    · intro _ _ q d hq hne
      rw [dir_above hq hne (by simp [hdest])]
      simp
    · simp [hdest]
    · exact fun _ hne => absurd hstaged hne
  restored_eq _ _ _ := rfl

/-- What is left of the transaction directory does not make Recovery undo the new generation. -/
def Harmless (t₀ t₁ t₂ : Tree) (files : List BundleFile) : Prop :=
  t₂.node journalPath = none ∨ t₂.node firmwareWrittenMarker ≠ none ∨
    ∀ f ∈ files, t₀.node (destination f.relativePath) ≠ none ∧
      (t₂.node (backup f.relativePath) = none ∨
        t₂.node (backup f.relativePath) = t₁.node (destination f.relativePath))

/-- What rollback restores in place of an active file. -/
lemma Installed.restored_eq_iff (hfiles : Installable files) (h : Installed t₀ files t₁)
    (hl : t₁.Left (.removeDirAll transactionRoot) t₂) {f : BundleFile} (hf : f ∈ files) :
    restored t₂ (entryOf t₀ f) [] = t₁.node (destination f.relativePath) ↔
      t₀.node (destination f.relativePath) ≠ none ∧
        (t₂.node (backup f.relativePath) = none ∨
          t₂.node (backup f.relativePath) = t₁.node (destination f.relativePath)) := by
  have hplan := hfiles.planned t₀
  have he : entryOf t₀ f ∈ entriesOf t₀ files := List.mem_map_of_mem hf
  obtain ⟨c, -, hc⟩ := (h.active _ he).content
  have hc : t₁.node (destination f.relativePath) = some (.file c) := hc
  have hdest : t₂.node (destination f.relativePath) = t₁.node (destination f.relativePath) :=
    node_of_left_removeDirAll hl (hplan.outside _ he)
  simp only [restored, entryOf, FileTree.exists?, List.append_nil]
  cases hold : t₀.node (destination f.relativePath) with
  | none => simp [hc]
  | some n =>
    cases hb : t₂.node (backup f.relativePath) with
    | none => simp [hdest]
    | some m => simp

lemma kept_of_left (hfiles : Installable files)
    (hl : t₁.Left (.removeDirAll transactionRoot) t₂) :
    ∀ f ∈ files, t₂.node (destination f.relativePath) = t₁.node (destination f.relativePath) := by
  intro f hf
  exact node_of_left_removeDirAll hl
    ((hfiles.planned t₁).outside (entryOf t₁ f) (List.mem_map_of_mem hf))

/-- A finalisation that lost the power has deleted a part of the transaction directory. -/
lemma left_of_lost {x x' : κ} {b : Bool} {fin : BundleAct Unit}
    {cs : List (Option (world String UInt8 K callbackFailed).Fault)}
    (hfin : fin = finalize ∨ fin = finalizeBundleTransactionAt transactionRoot)
    (hroot : t₁.node transactionRoot = some .dir)
    (hlost : Act.run (world String UInt8 K callbackFailed) fin cs ((t₁, x), false) =
      (.lost, ((t₂, x'), b))) : t₁.Left (.removeDirAll transactionRoot) t₂ := by
  rcases hfin with rfl | rfl
  · have hwp : Act.wp (world String UInt8 K callbackFailed) finalize (fun _ _ => True)
        (fun _ _ => False) (fun s => t₁.Left (.removeDirAll transactionRoot) s.1.1)
        ((t₁, x), false) := wp_finalize hroot (fun _ hl => hl) fun _ _ => trivial
    have hleft := Act.wp_run_lost hwp hlost
    exact hleft
  · exact (Act.wp_run_lost (wp_finalizeBundleTransactionAt hroot) hlost).2

/-- What the resolution of the next boot makes of the files, when the journal is there. -/
lemma Installed.node_of_resolve (hfiles : Installable files) (h : Installed t₀ files t₁)
    (hl : t₁.Left (.removeDirAll transactionRoot) t₂) (hj : t₂.node journalPath ≠ none) {x x' : κ}
    {b : Bool} {r : Except IoError Unit}
    {cs rest : List (Option (world String UInt8 K callbackFailed).Fault)}
    (hboot : Act.run (world String UInt8 K callbackFailed) (resolve true true) cs ((t₂, x), false) =
      (.done r rest, ((t₃, x'), b))) :
    ∀ f ∈ files, t₃.node (destination f.relativePath) =
      if decision t₂ true true = .finalize then t₂.node (destination f.relativePath)
      else restored t₂ (entryOf t₀ f) [] := by
  intro f hf
  have hend := Prog.wp_run_done ((h.pending_of_left hfiles hl hj).wp_resolve (hfiles.planned t₀)) hboot
  rcases r with e | ⟨⟩
  · exact hend.elim
  · have hroot := hend.2 (entryOf t₀ f) (List.mem_map_of_mem hf) []
    simp only [List.append_nil] at hroot
    exact hroot

/-- After a finalisation that lost the power, the next boot keeps the new generation exactly when the
journal has gone, or the marker of the written firmware has not, or nothing else is left that rollback
would put back. -/
theorem finalize_interrupted (hfiles : Installable files) {x₀ : κ} {b₀ : Bool}
    {cs rest : List (Option (world String UInt8 K callbackFailed).Fault)}
    {cs₁ cs₂ rest₂ : List (Option (world String UInt8 K callbackFailed).Fault)}
    {s₁ s₂ s₃ : (Tree × κ) × Bool} {fin : BundleAct Unit} {r : Except IoError Unit}
    (hinstall : Act.run (world String UInt8 K callbackFailed) (install files) cs ((t₀, x₀), b₀) =
      (.done (.ok ()) rest, s₁))
    (hfin : fin = finalize ∨ fin = finalizeBundleTransactionAt transactionRoot)
    (hlost : Act.run (world String UInt8 K callbackFailed) fin cs₁ (s₁.1, false) = (.lost, s₂))
    (hboot : Act.run (world String UInt8 K callbackFailed) (resolve true true) cs₂ (s₂.1, false) =
      (.done r rest₂, s₃)) :
    (∀ f ∈ files, s₃.1.1.node (destination f.relativePath) =
      s₁.1.1.node (destination f.relativePath)) ↔ Harmless t₀ s₁.1.1 s₂.1.1 files := by
  obtain ⟨hin, -⟩ := Act.wp_run_ok (wp_install hfiles (callbackLaws_true K) trivial
    (journal_eq_none_of_install hinstall)) hinstall
  obtain ⟨⟨t₁, x₁⟩, b₁⟩ := s₁
  obtain ⟨⟨t₂, x₂⟩, b₂⟩ := s₂
  obtain ⟨⟨t₃, x₃⟩, b₃⟩ := s₃
  have hl : t₁.Left (.removeDirAll transactionRoot) t₂ := left_of_lost hfin hin.root hlost
  have hdest := kept_of_left hfiles hl
  by_cases hj : t₂.node journalPath = none
  · -- there is nothing to resolve
    have hsame : (t₃, x₃) = (t₂, x₂) := by
      have hend := Prog.wp_run_done (wp_resolve_of_no_journal hj) hboot
      rcases r with e | ⟨⟩
      · exact hend.elim
      · exact hend
    cases hsame
    exact iff_of_true hdest (.inl hj)
  · have hnode := hin.node_of_resolve hfiles hl hj hboot
    by_cases hm : t₂.node firmwareWrittenMarker = none
    · have hd : decision t₂ true true ≠ .finalize := by
        have hphase : markedPhase t₂ ≠ .firmwareWritten :=
          fun hphase => markedPhase_eq_firmwareWritten.mp hphase hm
        simp [decision, hphase]
      constructor
      · refine fun hall => .inr (.inr fun f hf => ?_)
        rw [← hin.restored_eq_iff hfiles hl hf, ← hall f hf, hnode f hf, if_neg hd]
      · rintro (hgone | hmarked | hall) f hf
        · exact absurd hgone hj
        · exact absurd hm hmarked
        · rw [hnode f hf, if_neg hd, hin.restored_eq_iff hfiles hl hf]
          exact hall f hf
    · have hd : decision t₂ true true = .finalize := by
        simp [decision, markedPhase_eq_firmwareWritten.mpr hm]
      refine iff_of_true (fun f hf => ?_) (.inr (.inl hm))
      rw [hnode f hf, if_pos hd, hdest f hf]

/-- The sample file is installed, and the deletion of the transaction directory has got to the
marker of the written firmware only. -/
def markerFirst : Option quietWorld.Fault := some (.inl ⟨true, 0, fun q => q != firmwareWrittenMarker⟩)

/-- The deletion has got to the journal only. -/
def journalFirst : Option quietWorld.Fault := some (.inl ⟨true, 0, fun q => q != journalPath⟩)

theorem finalize_interrupted_sample : ∃ s₁ s₂ s₃ r rest,
    Act.run quietWorld (install [sampleFile]) (List.replicate 42 none) ((sampleCard, ()), false) =
      (.done (.ok ()) [], s₁) ∧
    Act.run quietWorld finalize [none, journalFirst] (s₁.1, false) = (.lost, s₂) ∧
    Act.run quietWorld (resolve true true) (List.replicate 9 none) (s₂.1, false) =
      (.done r rest, s₃) ∧ s₃.1.1.node ["a"] = s₁.1.1.node ["a"] := by
  have hrun : ∃ s₁ s₂ s₃ r rest,
      Act.run quietWorld (install [sampleFile]) (List.replicate 42 none) ((sampleCard, ()), false) =
        (.done (.ok ()) [], s₁) ∧
      Act.run quietWorld finalize [none, journalFirst] (s₁.1, false) = (.lost, s₂) ∧
      Act.run quietWorld (resolve true true) (List.replicate 9 none) (s₂.1, false) =
        (.done r rest, s₃) ∧ s₂.1.1.node journalPath = none := by
    refine ⟨_, _, _, _, _, rfl, rfl, rfl, ?_⟩
    rfl
  obtain ⟨s₁, s₂, s₃, r, rest, h₁, h₂, h₃, hj⟩ := hrun
  have hkept := (finalize_interrupted installable_sample h₁ (.inl rfl) h₂ h₃).mpr (.inl hj)
  exact ⟨s₁, s₂, s₃, r, rest, h₁, h₂, h₃, hkept sampleFile List.mem_cons_self⟩

set_option maxRecDepth 2000 in
/-- When the marker goes first, the next boot puts the old file back. -/
theorem finalize_interrupted_undone : ¬ ∀ (files : List BundleFile) (t₀ : Tree)
    (cs rest cs₁ cs₂ rest₂ : List (Option quietWorld.Fault)) (s₁ s₂ s₃ : (Tree × Unit) × Bool)
    (r : Except IoError Unit), Installable files →
    Act.run quietWorld (install files) cs ((t₀, ()), false) = (.done (.ok ()) rest, s₁) →
    Act.run quietWorld finalize cs₁ (s₁.1, false) = (.lost, s₂) →
    Act.run quietWorld (resolve true true) cs₂ (s₂.1, false) = (.done r rest₂, s₃) →
    ∀ f ∈ files, s₃.1.1.node (destination f.relativePath) =
      s₁.1.1.node (destination f.relativePath) := by
  intro hkept
  have hrun : ∃ s₁ s₂ s₃ r rest,
      Act.run quietWorld (install [sampleFile]) (List.replicate 42 none) ((sampleCard, ()), false) =
        (.done (.ok ()) [], s₁) ∧
      Act.run quietWorld finalize [none, markerFirst] (s₁.1, false) = (.lost, s₂) ∧
      Act.run quietWorld (resolve true true) (List.replicate 20 none) (s₂.1, false) =
        (.done r rest, s₃) ∧
      s₁.1.1.node ["a"] = some (.file [1]) ∧ s₃.1.1.node ["a"] = some (.file [0]) := by
    refine ⟨_, _, _, _, _, rfl, rfl, rfl, ?_, ?_⟩
    · rfl
    · rfl
  obtain ⟨s₁, s₂, s₃, r, rest, h₁, h₂, h₃, hnew, hold⟩ := hrun
  have hsame := hkept _ _ _ _ _ _ _ _ _ _ _ installable_sample h₁ h₂ h₃ sampleFile List.mem_cons_self
  have hdest : destination sampleFile.relativePath = ["a"] := by decide
  rw [hdest, hnew, hold] at hsame
  cases hsame

end Interrupted

end ThistleOS.BundleTransaction
