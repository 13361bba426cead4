import ThistleOS.Recovery.BundleTransaction.Install

/-!
# Reading the journal back

What an install writes into its journal is what it reads from it: the same entries in the same order. The journal holds
paths that the install has checked, and is written into a directory that the install has emptied.
-/

open PowerLoss FileTree

namespace ThistleOS.BundleTransaction

section Reread

variable {κ : Type} {K : Machine callbackSig κ} {t t' : Tree} {x : κ} {b : Bool} {files : List BundleFile}
  {entries : List JournalEntry}

/-! ### Checked destinations -/

/-- What the loop has accepted. -/
structure Accepted (done : List BundleFile) (acc : List JournalEntry × List (List Component)) : Prop where
  paths : acc.1.map JournalEntry.relativePath = done.map BundleFile.relativePath
  seen : acc.2 = (done.map fun f => components f.relativePath).reverse
  nodup : acc.2.Nodup

lemma Accepted.validEntries {acc : List JournalEntry × List (List Component)} (h : Accepted files acc)
    (hne : files ≠ []) :
    ValidEntries acc.1 where
  ne_nil heq := by
    have hpaths := h.paths
    rw [heq, List.map_nil, eq_comm, List.map_eq_nil_iff] at hpaths
    exact hne hpaths
  valid e he := by
    have hmem : e.relativePath ∈ files.map BundleFile.relativePath := h.paths ▸ List.mem_map_of_mem he
    obtain ⟨f, -, heq⟩ := List.mem_map.mp hmem
    exact heq ▸ f.valid
  nodup := by
    have hcomponents : acc.1.map (fun e => components e.relativePath) =
        files.map fun f => components f.relativePath := by
      have hmap := congrArg (List.map components) h.paths
      rwa [List.map_map, List.map_map] at hmap
    rw [hcomponents, ← List.nodup_reverse, ← h.seen]
    exact h.nodup

/-- A file is staged only if its destination is new. -/
lemma wp_stageFile_accepted {done : List BundleFile} {acc : List JournalEntry × List (List Component)}
    (hacc : Accepted done acc) (f : BundleFile) (i : ℕ) (s : (Tree × κ) × Bool) :
    Act.wp (world String UInt8 K callbackFailed) (stageFile acc (f, i)) (fun acc' _ => Accepted (done ++ [f]) acc')
      (fun _ _ => True) (fun _ => True) s := by
  have hany : ∀ {α : Type} (act : BundleAct α) (s : (Tree × κ) × Bool), Act.wp (world String UInt8 K callbackFailed) act
      (fun _ _ => True) (fun _ _ => True) (fun _ => True) s := by
    intro α act s
    refine Prog.wp_mono ?_ (fun _ h => h) Prog.wp_trivial
    rintro (e | a) s' -
    · trivial
    · trivial
  by_cases hmem : components f.relativePath ∈ acc.2
  · simp only [stageFile, hmem, if_true]
    trivial
  · simp only [stageFile, hmem, if_false]
    rw [Act.wp_bind]
    refine Act.wp_mono (fun _ s₁ _ => ?_) (fun _ _ h => h) (fun _ h => h) (hany _ s)
    rw [Act.wp_bind]
    refine Act.wp_mono (fun _ s₂ _ => ?_) (fun _ _ h => h) (fun _ h => h) (hany _ s₁)
    rw [Act.wp_bind]
    refine Act.wp_mono (fun hadOriginal s₃ _ => ?_) (fun _ _ h => h) (fun _ h => h) (hany _ s₂)
    rw [Act.wp_pure]
    constructor
    · simp [hacc.paths]
    · simp [hacc.seen]
    · exact List.nodup_cons.mpr ⟨hmem, hacc.nodup⟩

/-- Whatever the files are, the entries that come to the journal are valid ones. -/
theorem wp_stageFiles_valid (hne : files ≠ []) (s : (Tree × κ) × Bool) :
    Act.wp (world String UInt8 K callbackFailed) (files.zipIdx.foldlM stageFile ([], []))
      (fun acc _ => ValidEntries acc.1) (fun _ _ => True) (fun _ => True) s := by
  refine Act.wp_mono ?_ (fun _ _ h => h) (fun _ h => h)
    (Act.wp_foldlM (I := fun done acc _ => Accepted (done.map Prod.fst) acc) files.zipIdx ?_ ?_)
  · intro acc s' hacc
    rw [List.zipIdx_map_fst] at hacc
    exact hacc.validEntries hne
  · rintro pre ⟨f, i⟩ post - acc s' hacc
    rw [List.map_append]
    exact wp_stageFile_accepted hacc f i s'
  · exact ⟨rfl, rfl, List.nodup_nil⟩

/-! ### A directory without a journal -/

/-- The trees in which a journal can be written, and no transaction has got on. -/
structure Writable (t : Tree) : Prop where
  root : ∀ d, t.node transactionRoot ≠ some (.file d)
  tmp : t.node journalTmp ≠ some .dir
  journal : t.node journalPath = none
  filesActive : t.node filesActiveMarker = none
  firmwareWritten : t.node firmwareWrittenMarker = none

/-- An install has come to such a tree when it writes its journal. -/
lemma Staging.writable {t₀ : Tree} {done : List BundleFile} (h : Staging t₀ done t) : Writable t where
  root d := by
    have hdir : t.node transactionRoot = some .dir :=
      dir_above (q := stageDir) (by decide) (by decide) (by simp [h.stage_dir])
    simp [hdir]
  tmp := by
    have htmp : IsRecord journalTmp := by
      refine ⟨?_, ?_, ?_⟩ <;> decide
    simp [h.no_record _ htmp]
  journal := h.no_record _ isRecord_journalPath
  filesActive := h.no_record _ isRecord_filesActiveMarker
  firmwareWritten := h.no_record _ isRecord_firmwareWrittenMarker

/-! ### Written and read -/

/-- An operation that succeeds on this tree: only the environment can make it fail. -/
lemma wp_step {t'' : Tree} {u : FsUpdate String UInt8} {ok : Unit → (Tree × κ) × Bool → Prop}
    (heff : t.effect u = .ok t'') (hok : ok () ((t'', x), b)) :
    Act.wp (world String UInt8 K callbackFailed) (update u) ok (fun _ _ => b = true) (fun _ => True) ((t, x), b) :=
  wp_update_succeeds heff (fun _ _ => trivial) hok fun hb _ _ => hb

/-- A tree with a journal that is being written. -/
structure Drafted (draft : List UInt8) (t : Tree) : Prop where
  root : t.node transactionRoot = some .dir
  tmp : t.node journalTmp = some (.file draft)
  journal : t.node journalPath = none
  filesActive : t.node filesActiveMarker = none
  firmwareWritten : t.node firmwareWrittenMarker = none

lemma wp_writeln_drafted {draft : List UInt8} {line : String} {ok : Unit → (Tree × κ) × Bool → Prop}
    (h : Drafted draft t) (hok : ∀ t', Drafted (draft ++ utf8 (line ++ "\n")) t' → ok () ((t', x), b)) :
    Act.wp (world String UInt8 K callbackFailed) (writeln journalTmp line) ok (fun _ _ => b = true) (fun _ => True)
      ((t, x), b) := by
  obtain ⟨t', happend⟩ := append_succeeds (by decide) h.tmp (utf8 (line ++ "\n"))
  obtain ⟨old, hold, hnode⟩ := append_ok happend
  obtain rfl : draft = old := by simpa [h.tmp] using hold
  refine wp_step (u := .writeAll journalTmp (utf8 (line ++ "\n"))) happend (hok t' ⟨?_, ?_, ?_, ?_, ?_⟩)
  · rw [hnode, if_neg (by decide), h.root]
  · rw [hnode, if_pos rfl]
  · rw [hnode, if_neg (by decide), h.journal]
  · rw [hnode, if_neg (by decide), h.filesActive]
  · rw [hnode, if_neg (by decide), h.firmwareWritten]

/-- The directory is there, and the file is opened empty. -/
lemma wp_open_drafted {ok : Unit → (Tree × κ) × Bool → Prop} (ht : Writable t)
    (hok : ∀ t', Drafted [] t' → ok () ((t', x), b)) :
    Act.wp (world String UInt8 K callbackFailed) (do
      update (.createDirAll transactionRoot)
      update (.create journalTmp none)) ok (fun _ _ => b = true) (fun _ => True) ((t, x), b) := by
  obtain ⟨t₁, hmkdir⟩ : ∃ t₁, t.createDirAll transactionRoot = .ok t₁ := by
    refine createDirAll_succeeds fun q d hq => ?_
    rcases List.prefix_cons_iff.mp hq with rfl | ⟨r, rfl, hr⟩
    · simp [t.node_nil]
    · rw [List.prefix_nil.mp hr]
      exact ht.root d
  have hroot : t₁.node transactionRoot = some .dir := createDirAll_dir hmkdir List.prefix_rfl
  have hsame : ∀ q, ¬ q <+: transactionRoot → t₁.node q = t.node q := by
    intro q hq
    rw [createDirAll_ok hmkdir q, if_neg fun h => hq h.1]
  have htmp : t₁.node journalTmp ≠ some .dir := hsame journalTmp (by decide) ▸ ht.tmp
  obtain ⟨t₂, hcreate⟩ := writeFile_succeeds (by decide) hroot htmp []
  have hnode := (writeFile_ok hcreate).2
  rw [Act.wp_bind]
  refine wp_step (u := .createDirAll transactionRoot) hmkdir ?_
  refine wp_step (u := .create journalTmp none) hcreate (hok t₂ ⟨?_, ?_, ?_, ?_, ?_⟩)
  · rw [hnode, if_neg (by decide), hroot]
  · rw [hnode, if_pos rfl]
  · rw [hnode, if_neg (by decide), hsame _ (by decide), ht.journal]
  · rw [hnode, if_neg (by decide), hsame _ (by decide), ht.filesActive]
  · rw [hnode, if_neg (by decide), hsame _ (by decide), ht.firmwareWritten]

/-- The journal is written, if no operation is made to fail. -/
lemma wp_writeJournal_succeeds {ok : Unit → (Tree × κ) × Bool → Prop} (ht : Writable t)
    (hok : ∀ t', t'.node journalPath = some (.file (journalBytes entries)) → markedPhase t' = .prepared →
        ok () ((t', x), b)) :
    Act.wp (world String UInt8 K callbackFailed) (writeJournal ⟨.prepared, entries⟩) ok (fun _ _ => b = true)
      (fun _ => True) ((t, x), b) := by
  have hexists : t.exists? journalPath = false := by simp [FileTree.exists?, ht.journal]
  unfold writeJournal
  simp only [ne_eq, not_true_eq_false, if_false]
  rw [Act.wp_bind]
  refine wp_fileExists trivial ?_
  simp only [hexists, Bool.false_eq_true, if_false]
  rw [← bind_assoc, Act.wp_bind]
  refine wp_open_drafted ht fun t₁ h₁ => ?_
  rw [Act.wp_bind]
  refine wp_writeln_drafted h₁ fun t₂ h₂ => ?_
  rw [Act.wp_bind]
  refine wp_writeln_drafted h₂ fun t₃ h₃ => ?_
  -- the loop: the draft holds the lines of the entries that are done
  rw [Act.wp_bind]
  refine Act.wp_mono ?_ (fun _ _ h => h) (fun _ h => h)
    (Act.wp_forM (I := fun done s => ∃ t', s = ((t', x), b) ∧ Drafted (journalBytes done) t') entries ?_ ?_)
  · rintro ⟨⟩ s ⟨t₄, rfl, h₄⟩
    rw [Act.wp_bind]
    refine wp_step (u := .syncAll journalTmp) rfl ?_
    obtain ⟨t₅, hrename⟩ : ∃ t₅, t₄.rename journalTmp journalPath = .ok t₅ :=
      rename_succeeds (by simp [h₄.tmp]) h₄.journal h₄.root (by decide)
    have hnode := rename_file_ok hrename h₄.tmp
    refine wp_step (u := .rename journalTmp journalPath) hrename (hok t₅ ?_ ?_)
    · rw [hnode, if_pos rfl]
    · have hactive : t₅.node filesActiveMarker = none := by
        rw [hnode, if_neg (by decide), if_neg (by decide), h₄.filesActive]
      have hwritten : t₅.node firmwareWrittenMarker = none := by
        rw [hnode, if_neg (by decide), if_neg (by decide), h₄.firmwareWritten]
      simp [markedPhase, FileTree.exists?, hactive, hwritten]
  · rintro pre e post - s ⟨t₄, rfl, h₄⟩
    refine wp_writeln_drafted h₄ fun t₅ h₅ => ⟨t₅, rfl, ?_⟩
    rwa [journalBytes_concat]
  · exact ⟨t₃, rfl, h₃⟩

/-- Write the journal, and read it as the activation and the recovery do. -/
def writeAndRead (entries : List JournalEntry) : BundleAct Journal := do
  writeJournal ⟨.prepared, entries⟩
  readJournal

lemma wp_writeAndRead (hv : ValidEntries entries) (ht : Writable t) :
    Act.wp (world String UInt8 K callbackFailed) (writeAndRead entries)
      (fun journal _ => journal = ⟨.prepared, entries⟩) (fun _ _ => b = true) (fun _ => True) ((t, x), b) := by
  rw [writeAndRead, Act.wp_bind]
  refine wp_writeJournal_succeeds ht fun t' hjournal hphase => ?_
  refine wp_readJournal hjournal hv trivial ?_ fun hb _ => hb
  rw [hphase]

/-- The journal is read back as it was written, with its entries in their order and with its phase. Where no operation
is made to fail, both end; where one is, there is an error or the same journal. -/
theorem readJournal_writeJournal (hv : ValidEntries entries) (ht : Writable t) :
    (Act.perform (world String UInt8 K callbackFailed) (writeAndRead entries) ((t, x), false)).1 =
        .ok ⟨.prepared, entries⟩ ∧
      ∀ cs r rest s, Act.run (world String UInt8 K callbackFailed) (writeAndRead entries) cs ((t, x), b) =
          (.done r rest, s) → r = .ok ⟨.prepared, entries⟩ ∨ b = true ∧ ∃ e, r = .error e := by
  constructor
  · have hpost : Act.post (fun journal _ => journal = ⟨.prepared, entries⟩) (fun _ _ => false = true)
        (Act.perform (world String UInt8 K callbackFailed) (writeAndRead entries) ((t, x), false)).1
        (Act.perform (world String UInt8 K callbackFailed) (writeAndRead entries) ((t, x), false)).2 :=
      Prog.wp_perform (wp_writeAndRead hv ht)
    cases hr : (Act.perform (world String UInt8 K callbackFailed) (writeAndRead entries) ((t, x), false)).1 with
    | error e =>
      rw [hr] at hpost
      exact absurd hpost Bool.false_ne_true
    | ok journal =>
      rw [hr] at hpost
      exact congrArg Except.ok hpost
  · intro cs r rest s hrun
    have hwp : Act.wp (world String UInt8 K callbackFailed) (writeAndRead entries)
        (fun journal _ => journal = ⟨.prepared, entries⟩) (fun _ _ => b = true) (fun _ => True) ((t, x), b) :=
      wp_writeAndRead hv ht
    cases r with
    | error e =>
      have hpost : Act.post _ _ (.error e) s := Prog.wp_run_done hwp hrun
      exact .inr ⟨hpost, e, rfl⟩
    | ok journal =>
      have hpost : Act.post _ _ (.ok journal) s := Prog.wp_run_done hwp hrun
      exact .inl (congrArg Except.ok hpost)

end Reread

/-! ### A journal with names of several alphabets -/

def sampleEntries : List JournalEntry := [⟨true, "apps/Дистель.elf"⟩, ⟨false, "themes/夜 1.json"⟩]

lemma validEntries_sample : ValidEntries sampleEntries where
  ne_nil := by decide
  valid := by decide
  nodup := by decide

lemma writable_empty : Writable (FileTree.empty : Tree) where
  root := by simp [FileTree.empty, transactionRoot]
  tmp := by simp [FileTree.empty, transactionRoot, journalTmp]
  journal := rfl
  filesActive := rfl
  firmwareWritten := rfl

theorem readJournal_writeJournal_sample :
    (Act.perform quietWorld (writeAndRead sampleEntries) (((FileTree.empty : Tree), ()), false)).1 =
      .ok ⟨.prepared, sampleEntries⟩ :=
  (readJournal_writeJournal validEntries_sample writable_empty (b := true)).1

end ThistleOS.BundleTransaction
