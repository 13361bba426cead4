import ThistleOS.Recovery.BundleTransaction.Rollback

/-!
# The preparation of an install

Until the journal is there, an install works in the transaction directory only.
-/

open PowerLoss FileTree

namespace ThistleOS.BundleTransaction

/-! ### Installable bundles -/

/-- The bundles that `install` is meant for: no destination is a directory of another one, and none
lies in the transaction directory. -/
structure Installable (files : List BundleFile) : Prop where
  ne_nil : files ≠ []
  apart : files.Pairwise fun f f' => Apart (destination f.relativePath) (destination f'.relativePath)
  outside : ∀ f ∈ files, ¬ transactionRoot <+: destination f.relativePath

/-- The journal entry of a file that is installed over the tree `t`. -/
def entryOf (t : Tree) (f : BundleFile) : JournalEntry :=
  ⟨t.exists? (destination f.relativePath), f.relativePath⟩

def entriesOf (t : Tree) (files : List BundleFile) : List JournalEntry := files.map (entryOf t)

lemma Installable.planned {files : List BundleFile} (h : Installable files) (t : Tree) :
    Planned (entriesOf t files) where
  ne_nil := by
    rw [entriesOf, ne_eq, List.map_eq_nil_iff]
    exact h.ne_nil
  valid e he := by
    obtain ⟨f, -, rfl⟩ := List.mem_map.mp he
    exact f.valid
  nodup := by
    rw [entriesOf, List.map_map, List.Nodup, List.pairwise_map]
    refine h.apart.imp fun {f f'} hapart heq => ?_
    have hnames := (components_eq_iff f.valid f'.valid).mp heq
    have hdest : destination f.relativePath = destination f'.relativePath := hnames
    exact Apart.irrefl (hdest ▸ hapart)
  apart := by
    rw [entriesOf, List.pairwise_map]
    exact h.apart
  outside e he := by
    obtain ⟨f, hf, rfl⟩ := List.mem_map.mp he
    refine ⟨h.outside f hf, fun hle => ?_⟩
    -- a path that leads to the transaction directory is the root or that directory itself
    rcases List.prefix_cons_iff.mp hle with hnil | ⟨t, ht, hle⟩
    · exact names_ne_nil f.valid hnil
    · rw [List.prefix_nil] at hle
      exact h.outside f hf (by rw [show destination f.relativePath = _ from ht, hle]; exact List.prefix_rfl)

/-- `c` is what the file `f` brings. A source in the transaction directory, which `install` clears,
may hold anything by the time it is copied. -/
def Provides (t : Tree) (f : BundleFile) (c : List UInt8) : Prop :=
  match f.contents with
  | .bytes data => c = data
  | .file source => transactionRoot <+: source ∨ t.node source = some (.file c)

section Prepare

variable {κ : Type} {K : Machine callbackSig κ} {err : IoError → (Tree × κ) × Bool → Prop}
  {cut : (Tree × κ) × Bool → Prop} {t₀ t t' : Tree} {x : κ} {b : Bool} {files : List BundleFile}

/-! ### The transaction directory -/

/-- A tree that differs from `t₀` in the transaction directory only, and holds no journal. -/
structure Cleared (t₀ t : Tree) : Prop where
  outside : ∀ q, ¬ transactionRoot <+: q → t.node q = t₀.node q
  journal : t.node journalPath = none

/-- What `install` has prepared when `done` are staged. -/
structure Staging (t₀ : Tree) (done : List BundleFile) (t : Tree) : Prop where
  outside : ∀ q, ¬ transactionRoot <+: q → t.node q = t₀.node q
  stage_dir : t.node stageDir = some .dir
  no_backup : ∀ r, r ≠ [] → t.node (backupDir ++ r) = none
  no_record : ∀ q, IsRecord q → t.node q = none
  content : ∀ f ∈ done, ∃ c, Provides t₀ f c ∧ t.node (staged f.relativePath) = some (.file c)

lemma Staging.cleared {done : List BundleFile} (h : Staging t₀ done t) : Cleared t₀ t :=
  ⟨h.outside, h.no_record _ isRecord_journalPath⟩

lemma Cleared.changes (h : Cleared t₀ t) (ht : ChangesBelow {transactionRoot} t t')
    (hj : t'.node journalPath = none) : Cleared t₀ t' := by
  refine ⟨fun q hq => ?_, hj⟩
  rcases ht q (by simpa using hq) with heq | ⟨hnone, -, a, ha, hqa⟩
  · exact heq.trans (h.outside q hq)
  · obtain rfl : a = transactionRoot := ha
    rcases List.prefix_cons_iff.mp hqa with rfl | ⟨r, rfl, hr⟩
    · simp [t.node_nil] at hnone
    · rw [List.prefix_nil] at hr
      subst hr
      exact absurd List.prefix_rfl hq

/-- An operation in the transaction directory that makes no journal. -/
lemma wp_update_cleared {u : FsUpdate String UInt8} {ok : Unit → (Tree × κ) × Bool → Prop}
    (ht : Cleared t₀ t) (hu : u.Within {transactionRoot})
    (hj : ¬ u.Touches journalPath ∨ u = .removeDirAll transactionRoot)
    (hcut : ∀ t', Cleared t₀ t' → cut ((t', x), b))
    (herr : ∀ e t', Cleared t₀ t' → err e ((t', x), false))
    (hok : ∀ t', t.effect u = .ok t' → Cleared t₀ t' → ok () ((t', x), b)) :
    Act.wp (world String UInt8 K callbackFailed) (update u) ok err cut ((t, x), b) := by
  have hleft : ∀ t', t.Left u t' → Cleared t₀ t' := by
    intro t' hl
    refine ht.changes (hl.changesBelow hu) ?_
    rcases hj with hj | rfl
    · rw [hl.frame hj, ht.journal]
    · exact (hl.node_removeDirAll _).elim (·.trans ht.journal) id
  have heffect : ∀ t', t.effect u = .ok t' → Cleared t₀ t' := by
    intro t' heff
    refine ht.changes (effect_changesBelow heff hu) ?_
    rcases hj with hj | rfl
    · rw [effect_frame heff hj, ht.journal]
    · exact (removeDirAll_ok heff _).trans (if_pos ⟨["journal"], rfl⟩)
  apply wp_update
  · exact fun t' hl => hcut t' (hleft t' hl)
  · exact fun t' heff => hok t' heff (heffect t' heff)
  · exact fun kind _ => herr _ t ht
  · exact fun _ t' hl => herr _ t' (hleft t' hl)

lemma wp_makeDirs {ok : Unit → (Tree × κ) × Bool → Prop} (ht : Cleared t₀ t)
    (hempty : ∀ q, transactionRoot <+: q → t.node q = none)
    (hcut : ∀ t', Cleared t₀ t' → cut ((t', x), b))
    (herr : ∀ e t', Cleared t₀ t' → err e ((t', x), false))
    (hok : ∀ t', Staging t₀ [] t' → ok () ((t', x), b)) :
    Act.wp (world String UInt8 K callbackFailed) (do
      update (.createDirAll stageDir)
      update (.createDirAll backupDir)) ok err cut ((t, x), b) := by
  have hstage : (FsUpdate.createDirAll stageDir : FsUpdate String UInt8).Within {transactionRoot} :=
    ⟨transactionRoot, rfl, .inr (by decide)⟩
  have hbackup : (FsUpdate.createDirAll backupDir : FsUpdate String UInt8).Within {transactionRoot} :=
    ⟨transactionRoot, rfl, .inr (by decide)⟩
  have hnot : ¬ journalPath <+: stageDir ∧ ¬ journalPath <+: backupDir := by decide
  rw [Act.wp_bind]
  apply wp_update_cleared ht hstage (.inl hnot.1) hcut herr
  intro t₁ hmk₁ ht₁
  apply wp_update_cleared ht₁ hbackup (.inl hnot.2) hcut herr
  intro t₂ hmk₂ ht₂
  have hnode₁ := createDirAll_ok hmk₁
  have hnode₂ := createDirAll_ok hmk₂
  have hnone : ∀ q, transactionRoot <+: q → ¬ q <+: stageDir → ¬ q <+: backupDir →
      t₂.node q = none := by
    intro q hq hs hb
    rw [hnode₂, if_neg fun h => hb h.1, hnode₁, if_neg fun h => hs h.1, hempty q hq]
  apply hok
  constructor
  · exact ht₂.outside
  · rw [hnode₂, if_neg fun h => absurd h.1 (by decide)]
    exact createDirAll_dir hmk₁ List.prefix_rfl
  · intro r hr
    apply hnone
    · exact List.IsPrefix.trans (by decide) (List.prefix_append backupDir r)
    · intro hle
      have hapart : Apart stageDir backupDir := by decide
      exact (hapart.append_right r).2 hle
    · intro hle
      have hlen := hle.length_le
      rw [List.length_append] at hlen
      exact hr (List.length_eq_zero_iff.mp (by omega))
  · intro q hq
    exact hnone q hq.1 hq.2.1.2 hq.2.2.2
  · simp

/-- An unfinished transaction is not touched. -/
lemma wp_openTransaction_of_journal {ok : Unit → (Tree × κ) × Bool → Prop}
    (hj : t₀.node journalPath ≠ none) (hcut : cut ((t₀, x), b))
    (herr : err ⟨.alreadyExists, "an unfinished bundle transaction already exists"⟩ ((t₀, x), b)) :
    Act.wp (world String UInt8 K callbackFailed) openTransaction ok err cut ((t₀, x), b) := by
  have hexists : t₀.exists? journalPath = true := by
    rwa [FileTree.exists?, Option.isSome_iff_ne_none]
  unfold openTransaction transactionExists
  rw [Act.wp_bind]
  apply wp_fileExists hcut
  simp only [hexists, if_true]
  exact herr

lemma wp_openTransaction {ok : Unit → (Tree × κ) × Bool → Prop} (hj : t₀.node journalPath = none)
    (hcut : ∀ t', Cleared t₀ t' → cut ((t', x), b))
    (herr : ∀ e t', Cleared t₀ t' → err e ((t', x), false))
    (hok : ∀ t', Staging t₀ [] t' → ok () ((t', x), b)) :
    Act.wp (world String UInt8 K callbackFailed) openTransaction ok err cut ((t₀, x), b) := by
  have ht₀ : Cleared t₀ t₀ := ⟨fun _ _ => rfl, hj⟩
  unfold openTransaction transactionExists
  rw [Act.wp_bind]
  apply wp_fileExists (hcut t₀ ht₀)
  simp only [FileTree.exists?, hj, Option.isSome_none, Bool.false_eq_true, if_false]
  rw [Act.wp_bind]
  apply wp_fileExists (hcut t₀ ht₀)
  cases hroot : t₀.node transactionRoot with
  | some n =>
    simp only [FileTree.exists?, hroot, Option.isSome_some, if_true]
    rw [Act.wp_bind]
    refine wp_update_cleared ht₀ ?_ (.inr rfl) hcut herr fun t₁ hrem ht₁ => ?_
    · exact ⟨transactionRoot, rfl, List.prefix_rfl⟩
    apply wp_makeDirs ht₁ _ hcut herr hok
    intro q hq
    exact (removeDirAll_ok hrem q).trans (if_pos hq)
  | none =>
    simp only [FileTree.exists?, hroot, Option.isSome_none, Bool.false_eq_true, if_false]
    apply wp_makeDirs ht₀ _ hcut herr hok
    rintro q ⟨r, rfl⟩
    exact node_append_eq_none hroot r

/-! ### Staging -/

lemma wp_writeSynced {ok : Unit → (Tree × κ) × Bool → Prop} {path : Path}
    {refused : Option ErrorKind} {data : List UInt8}
    (hcut : ∀ t', ChangesBelow {path} t t' → cut ((t', x), b))
    (herr : ∀ e t', ChangesBelow {path} t t' → err e ((t', x), false))
    (hok : ∀ t', ChangesBelow {path} t t' → t'.node path = some (.file data) → ok () ((t', x), b)) :
    Act.wp (world String UInt8 K callbackFailed) (writeSynced path refused data) ok err cut
      ((t, x), b) := by
  have hself : path ∈ ({path} : Set Path) := rfl
  unfold writeSynced ensureParent
  rw [Act.wp_bind]
  refine wp_update_within (.refl {path} t) ?_ hcut herr fun t₁ _ h₁ => ?_
  · exact ⟨path, hself, .inl (List.dropLast_prefix path)⟩
  rw [Act.wp_bind]
  refine wp_update_within h₁ ⟨path, hself, List.prefix_rfl⟩ hcut herr ?_
  intro t₂ (hcreate : t₁.create path refused = .ok t₂) h₂
  have hd₂ : t₂.node path = some (.file []) := by simpa using (create_ok hcreate).2.2 path
  rw [Act.wp_bind]
  refine wp_update_within h₂ ⟨path, hself, List.prefix_rfl⟩ hcut herr ?_
  intro t₃ (happend : t₂.append path data = .ok t₃) h₃
  obtain ⟨old, hold, hnode⟩ := append_ok happend
  obtain rfl : [] = old := by simpa [hd₂] using hold
  refine wp_update_within h₃ trivial hcut herr fun t₄ hsync h₄ => ?_
  obtain rfl : t₃ = t₄ := Except.ok.inj hsync
  exact hok t₃ h₃ (by simpa using hnode path)

lemma wp_stageContents {ok : Unit → (Tree × κ) × Bool → Prop} {f : BundleFile} {path : Path}
    {refused : Option ErrorKind} (houtside : ∀ q, ¬ transactionRoot <+: q → t.node q = t₀.node q)
    (hpath : transactionRoot <+: path)
    (hcut : ∀ t', ChangesBelow {path} t t' → cut ((t', x), b))
    (herr : ∀ e t', ChangesBelow {path} t t' → err e ((t', x), false))
    (hok : ∀ t', ChangesBelow {path} t t' →
      (∃ c, Provides t₀ f c ∧ t'.node path = some (.file c)) → ok () ((t', x), b)) :
    Act.wp (world String UInt8 K callbackFailed) (stageContents path refused f.contents) ok err cut
      ((t, x), b) := by
  have hself : path ∈ ({path} : Set Path) := rfl
  cases hf : f.contents with
  | bytes data =>
    apply wp_writeSynced hcut herr
    intro t' h' hd
    exact hok t' h' ⟨data, by simp only [Provides, hf], hd⟩
  | file source =>
    simp only [stageContents, ensureParent]
    rw [Act.wp_bind]
    refine wp_update_within (.refl {path} t) ?_ hcut herr fun t₁ _ h₁ => ?_
    · exact ⟨path, hself, .inl (List.dropLast_prefix path)⟩
    rw [Act.wp_bind]
    refine wp_update_within h₁ ⟨path, hself, List.prefix_rfl⟩ hcut herr ?_
    intro t₂ (hcopy : t₁.copy source path refused = .ok t₂) h₂
    obtain ⟨-, c, hsource, -, hnode⟩ := copy_ok hcopy
    have hprovides : Provides t₀ f c := by
      simp only [Provides, hf]
      by_cases hin : transactionRoot <+: source
      · exact .inl hin
      · refine .inr ?_
        rw [← houtside source hin]
        refine (h₁.node_eq_file ?_).mp hsource
        rintro a rfl hle
        exact hin (hpath.trans hle)
    rw [Act.wp_bind]
    refine wp_update_within h₂ trivial hcut herr fun t₃ hopen h₃ => ?_
    have hd₂ : t₂.readFile path = .ok c := by simp [readFile, hnode path]
    obtain rfl : t₂ = t₃ := by simpa [effect, hd₂, Except.map] using hopen
    refine wp_update_within h₂ trivial hcut herr fun t₄ hsync h₄ => ?_
    obtain rfl : t₂ = t₄ := Except.ok.inj hsync
    exact hok t₂ h₂ ⟨c, hprovides, by simpa using hnode path⟩

lemma staged_not_prefix_stageDir (f : BundleFile) : ¬ staged f.relativePath <+: stageDir := by
  intro hle
  have hlen := hle.length_le
  rw [staged, List.length_append] at hlen
  exact names_ne_nil f.valid (List.length_eq_zero_iff.mp (by omega))

/-- Staging a file does not touch the files that are staged already. -/
lemma Staging.changes {done : List BundleFile} {f : BundleFile} (h : Staging t₀ done t)
    (hapart : ∀ f' ∈ done, Apart (destination f.relativePath) (destination f'.relativePath))
    (ht : ChangesBelow {staged f.relativePath} t t') : Staging t₀ done t' := by
  have hnode : ∀ q, Apart (staged f.relativePath) q → t'.node q = t.node q := by
    intro q hq
    refine ht.node_eq ?_
    rintro a rfl
    exact hq
  have hrecord : ∀ q, IsRecord q → t'.node q = none := by
    intro q hq
    rw [hnode q (hq.2.1.mono (List.prefix_append _ _) List.prefix_rfl), h.no_record q hq]
  constructor
  · refine (h.cleared.changes (ht.mono ?_) (hrecord _ isRecord_journalPath)).outside
    rintro a rfl
    exact ⟨_, rfl, transactionRoot_prefix_staged _⟩
  · refine ht.dir ?_ h.stage_dir
    rintro a rfl
    exact staged_not_prefix_stageDir f
  · intro r hr
    have hsb : Apart stageDir backupDir := by decide
    rw [hnode _ (hsb.mono (List.prefix_append _ _) (List.prefix_append _ _)), h.no_backup r hr]
  · exact hrecord
  · intro f' hf'
    obtain ⟨c, hc, hnode'⟩ := h.content f' hf'
    have hsame := hnode (staged f'.relativePath) ((apart_append_left_iff stageDir).mpr (hapart f' hf'))
    exact ⟨c, hc, hsame.trans hnode'⟩

/-- The accumulator of the loop when `done` are staged. -/
def stagedAcc (t₀ : Tree) (done : List BundleFile) : List JournalEntry × List (List Component) :=
  (entriesOf t₀ done, (done.map fun f => components f.relativePath).reverse)

lemma stagedAcc_concat (done : List BundleFile) (f : BundleFile) : stagedAcc t₀ (done ++ [f]) =
    ((stagedAcc t₀ done).1 ++ [entryOf t₀ f], components f.relativePath :: (stagedAcc t₀ done).2) := by
  simp [stagedAcc, entriesOf]

lemma Staging.exists_destination {done : List BundleFile} (h : Staging t₀ done t) {f : BundleFile}
    (hf : ¬ transactionRoot <+: destination f.relativePath) :
    t.exists? (destination f.relativePath) = t₀.exists? (destination f.relativePath) := by
  rw [FileTree.exists?, FileTree.exists?, h.outside _ hf]

/-- A property of the state behind the callbacks that no boundary changes. -/
def BoundaryKeeps (K : Machine callbackSig κ) (P : κ → Prop) : Prop :=
  ∀ d x, P x → (Prog.op (S := callbackSig) (.boundary d)).wp K (fun _ => P) P x

lemma wp_boundary {P : κ → Prop} {d : Boundary} {ok : Unit → (Tree × κ) × Bool → Prop}
    (hK : BoundaryKeeps K P) (hx : P x) (hcut : ∀ x', P x' → cut ((t, x'), b))
    (herr : ∀ e x', P x' → err e ((t, x'), false)) (hok : ∀ x', P x' → ok () ((t, x'), b)) :
    Act.wp (world String UInt8 K callbackFailed) (boundary d) ok err cut ((t, x), b) := by
  apply wp_callback rfl
  · intro r
    cases r <;> rfl
  · refine Prog.wp_mono ?_ hcut (hK d x hx)
    rintro (e | ⟨⟩) x' hx'
    · exact herr e x' hx'
    · exact hok x' hx'

lemma wp_stageFile {P : κ → Prop} {done : List BundleFile} {f : BundleFile} {i : Nat}
    {ok : List JournalEntry × List (List Component) → (Tree × κ) × Bool → Prop}
    (hK : BoundaryKeeps K P) (hx : P x) (ht : Staging t₀ done t)
    (hapart : ∀ f' ∈ done, Apart (destination f.relativePath) (destination f'.relativePath))
    (houtside : ¬ transactionRoot <+: destination f.relativePath)
    (hcut : ∀ t' x', Staging t₀ done t' → P x' → cut ((t', x'), b))
    (herr : ∀ e t' x', Staging t₀ done t' → P x' → err e ((t', x'), false))
    (hok : ∀ t' x', Staging t₀ (done ++ [f]) t' → P x' →
      ok (stagedAcc t₀ (done ++ [f])) ((t', x'), b)) :
    Act.wp (world String UInt8 K callbackFailed) (stageFile (stagedAcc t₀ done) (f, i)) ok err cut
      ((t, x), b) := by
  have hnew : components f.relativePath ∉ (stagedAcc t₀ done).2 := by
    intro hmem
    simp only [stagedAcc, List.mem_reverse, List.mem_map] at hmem
    obtain ⟨f', hf', heq⟩ := hmem
    have hdest : destination f'.relativePath = destination f.relativePath :=
      (components_eq_iff f'.valid f.valid).mp heq
    exact Apart.irrefl (hdest ▸ hapart f' hf')
  simp only [stageFile, hnew, if_false]
  rw [Act.wp_bind]
  apply wp_boundary hK hx (fun x' => hcut t x' ht) (fun e x' => herr e t x' ht)
  intro x₁ hx₁
  rw [Act.wp_bind]
  apply wp_stageContents ht.outside (transactionRoot_prefix_staged _)
  · exact fun t' h' => hcut t' x₁ (ht.changes hapart h') hx₁
  · exact fun e t' h' => herr e t' x₁ (ht.changes hapart h') hx₁
  · rintro t₂ h₂ ⟨c, hc, hnode⟩
    have ht₂ := ht.changes hapart h₂
    have hdone : Staging t₀ (done ++ [f]) t₂ := by
      refine ⟨ht₂.outside, ht₂.stage_dir, ht₂.no_backup, ht₂.no_record, fun f' hf' => ?_⟩
      rcases List.mem_append.mp hf' with hf' | hf'
      · exact ht₂.content f' hf'
      · obtain rfl := List.mem_singleton.mp hf'
        exact ⟨c, hc, hnode⟩
    rw [Act.wp_bind]
    apply wp_fileExists (hcut t₂ x₁ ht₂ hx₁)
    have := hok t₂ x₁ hdone hx₁
    rw [stagedAcc_concat] at this
    rw [hdone.exists_destination houtside]
    exact this

/-- The preparation stages every file and then makes the journal. -/
lemma wp_prepare {P : κ → Prop} {ok : Unit → (Tree × κ) × Bool → Prop} (hK : BoundaryKeeps K P)
    (hx : P x) (hfiles : Installable files) (ht : Staging t₀ [] t)
    (hcut : ∀ t' x', Cleared t₀ t' → P x' → cut ((t', x'), b))
    (herr : ∀ e t' x', Cleared t₀ t' → t'.node transactionRoot = some .dir → P x' →
      err e ((t', x'), false))
    (hok : ∀ t' t'' x', Staging t₀ files t' → ChangesBelow {journalTmp, journalPath} t' t'' →
      t''.node journalPath = some (.file (journalBytes (entriesOf t₀ files))) → P x' →
      ok () ((t'', x'), b)) :
    Act.wp (world String UInt8 K callbackFailed) (prepare files) ok err cut ((t, x), b) := by
  have hroot : ∀ {done t'}, Staging t₀ done t' → t'.node transactionRoot = some .dir := by
    intro done t' h
    exact dir_above (q := stageDir) (by decide) (by decide) (by simp [h.stage_dir])
  unfold prepare
  rw [Act.wp_bind]
  refine Act.wp_mono ?_ (fun _ _ h => h) (fun _ h => h)
    (Act.wp_foldlM (I := fun done acc s => ∃ t' x', s = ((t', x'), b) ∧ P x' ∧
      Staging t₀ (done.map Prod.fst) t' ∧ acc = stagedAcc t₀ (done.map Prod.fst))
      files.zipIdx ?_ ?_)
  · rintro acc s ⟨t₁, x₁, rfl, hx₁, ht₁, rfl⟩
    rw [List.zipIdx_map_fst] at ht₁ ⊢
    rw [Act.wp_bind]
    apply wp_boundary hK hx₁ (fun x' => hcut t₁ x' ht₁.cleared)
      (fun e x' => herr e t₁ x' ht₁.cleared (hroot ht₁))
    intro x₂ hx₂
    have htmp : ∀ t', ChangesBelow {journalTmp} t₁ t' →
        Cleared t₀ t' ∧ t'.node transactionRoot = some .dir := by
      intro t' h'
      constructor
      · refine ht₁.cleared.changes (h'.mono ?_) ?_
        · rintro a rfl
          exact ⟨transactionRoot, rfl, by decide⟩
        · rw [h'.node_eq, ht₁.cleared.journal]
          rintro a rfl
          decide
      · refine h'.dir ?_ (hroot ht₁)
        rintro a rfl
        decide
    apply wp_writeJournal ht₁.cleared.journal
    · exact fun t' h' => hcut t' x₂ (htmp t' h').1 hx₂
    · exact fun e t' h' => herr e t' x₂ (htmp t' h').1 (htmp t' h').2 hx₂
    · exact fun t' h' hj => hok t₁ t' x₂ ht₁ h' hj hx₂
  · rintro pre ⟨f, i⟩ post hsplit acc s ⟨t₁, x₁, rfl, hx₁, ht₁, rfl⟩
    have hlist : files = pre.map Prod.fst ++ f :: post.map Prod.fst := by
      rw [← List.zipIdx_map_fst 0 files, hsplit]
      simp
    have hpair := hfiles.apart
    rw [hlist, List.pairwise_append] at hpair
    have hf : f ∈ files := by simp [hlist]
    apply wp_stageFile hK hx₁ ht₁
    · intro f' hf'
      exact (hpair.2.2 f' hf' f List.mem_cons_self).symm
    · exact hfiles.outside f hf
    · exact fun t' x' h' => hcut t' x' h'.cleared
    · exact fun e t' x' h' => herr e t' x' h'.cleared (hroot h')
    · intro t' x' h' hx'
      rw [List.map_append, List.map_cons, List.map_nil]
      exact ⟨t', x', rfl, hx', h', rfl⟩
  · exact ⟨t, x, rfl, hx, ht, rfl⟩

end Prepare

end ThistleOS.BundleTransaction
