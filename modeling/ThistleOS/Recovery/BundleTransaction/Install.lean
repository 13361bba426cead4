import ThistleOS.Recovery.BundleTransaction.Activate

/-!
# Installing a bundle

An install that fails or loses the power leaves a tree from which rollback restores the old files.
-/

open PowerLoss FileTree

namespace ThistleOS.BundleTransaction

/-! ### The firmware beside the files -/

/-- How far an install has come with the firmware. -/
inductive FirmwareStage
  | idle
  | writing
  | written
  | selecting
  | selected

/-- What the callbacks do to the state behind them, stage by stage. -/
structure CallbackLaws {κ : Type} (K : Machine callbackSig κ) (X : FirmwareStage → κ → Prop) :
    Prop where
  boundary : ∀ st, BoundaryKeeps K (X st)
  write : ∀ x, X .idle x → (Prog.op (S := callbackSig) .writeFirmware).wp K (fun r =>
    match r with
    | .ok () => X .written
    | .error _ => X .writing) (X .writing) x
  select : ∀ x, X .written x → (Prog.op (S := callbackSig) .selectBootPartition).wp K (fun r =>
    match r with
    | .ok () => X .selected
    | .error _ => X .selecting) (X .selecting) x

section Install

variable {κ : Type} {K : Machine callbackSig κ} {err : IoError → (Tree × κ) × Bool → Prop}
  {cut : (Tree × κ) × Bool → Prop} {t₀ t t' : Tree} {x : κ} {b : Bool} {files : List BundleFile}
  {entries : List JournalEntry} {X : FirmwareStage → κ → Prop}

/-- The marker of the written firmware tells the truth. -/
def Marked (X : FirmwareStage → κ → Prop) (t : Tree) (x : κ) : Prop :=
  (t.node firmwareWrittenMarker = none ∧ X .writing x) ∨ X .written x ∨ X .selecting x

lemma CallbackLaws.writing_of_idle (h : CallbackLaws K X) (hx : X .idle x) : X .writing x :=
  ((Prog.wp_call _ _ x).mp (h.write x hx)).1

lemma Marked.keeps (h : Marked X t x) (hk : KeepsRecords t t') : Marked X t' x := by
  refine h.imp (fun hm => ⟨?_, hm.2⟩) id
  rcases hk _ isRecord_firmwareWrittenMarker with heq | hnone
  · exact heq.trans hm.1
  · exact hnone

lemma Marked.stage (h : Marked X t x) : ∃ st, X st x := by
  rcases h with ⟨-, hx⟩ | hx | hx
  · exact ⟨_, hx⟩
  · exact ⟨_, hx⟩
  · exact ⟨_, hx⟩

/-- The tree of an install that has returned without an error. -/
structure Installed (t₀ : Tree) (files : List BundleFile) (t : Tree) : Prop where
  pending : Pending (entriesOf t₀ files) t₀ (old t₀) t
  active : ∀ e ∈ entriesOf t₀ files, Active t₀ files t e
  marker : t.node firmwareWrittenMarker ≠ none

/-- When the files are active, the firmware is written and selected. -/
lemma wp_finishFirmware {ok : Unit → (Tree × κ) × Bool → Prop} (h : Planned entries)
    (hX : CallbackLaws K X) (hx : X .idle x) (hp : Pending entries t₀ (old t₀) t)
    (hm : t.node firmwareWrittenMarker = none) (ha : ∀ e ∈ entries, Active t₀ files t e)
    (hcut : ∀ t' x', Pending entries t₀ (old t₀) t' → Marked X t' x' → cut ((t', x'), b))
    (herr : ∀ e t' x', Pending entries t₀ (old t₀) t' → Marked X t' x' → err e ((t', x'), false))
    (hok : ∀ t' x', Pending entries t₀ (old t₀) t' → (∀ e ∈ entries, Active t₀ files t' e) →
      t'.node firmwareWrittenMarker ≠ none → X .selected x' → ok () ((t', x'), b)) :
    Act.wp (world String UInt8 K callbackFailed) (do
      boundary .writeFilesActiveJournal
      writePhase .filesActive
      boundary .writeFirmware
      writeFirmware
      boundary .writeFirmwareJournal
      writePhase .firmwareWritten
      boundary .selectBootPartition
      selectBootPartition) ok err cut ((t, x), b) := by
  have hidle : ∀ {t'} x', t'.node firmwareWrittenMarker = none → X .idle x' → Marked X t' x' :=
    fun x' hm' hx' => .inl ⟨hm', hX.writing_of_idle hx'⟩
  rw [Act.wp_bind]
  apply wp_boundary (hX.boundary .idle) hx (fun x' hx' => hcut t x' hp (hidle x' hm hx'))
    (fun e x' hx' => herr e t x' hp (hidle x' hm hx'))
  intro x₁ hx₁
  -- the first marker
  have hfa : ∀ t', ChangesBelow {filesActiveMarker} t t' → Pending entries t₀ (old t₀) t' ∧
      t'.node firmwareWrittenMarker = none ∧ ∀ e ∈ entries, Active t₀ files t' e := by
    intro t' ht'
    refine ⟨hp.record h isRecord_filesActiveMarker (by decide) ht', ?_, fun e he => ?_⟩
    · rw [ht'.node_eq, hm]
      rintro a rfl
      decide
    · exact (sameArea_of_record h he isRecord_filesActiveMarker ht').active (ha e he)
  rw [Act.wp_bind]
  apply wp_writeSynced
  · exact fun t' ht' => hcut t' x₁ (hfa t' ht').1 (hidle x₁ (hfa t' ht').2.1 hx₁)
  · exact fun e t' ht' => herr e t' x₁ (hfa t' ht').1 (hidle x₁ (hfa t' ht').2.1 hx₁)
  intro t₂ ht₂ _
  obtain ⟨hp₂, hm₂, ha₂⟩ := hfa t₂ ht₂
  rw [Act.wp_bind]
  apply wp_boundary (hX.boundary .idle) hx₁ (fun x' hx' => hcut t₂ x' hp₂ (hidle x' hm₂ hx'))
    (fun e x' hx' => herr e t₂ x' hp₂ (hidle x' hm₂ hx'))
  intro x₃ hx₃
  -- the firmware
  rw [Act.wp_bind]
  apply wp_callback rfl
  · intro r
    cases r <;> rfl
  refine Prog.wp_mono ?_ (fun x' hx' => hcut t₂ x' hp₂ (.inl ⟨hm₂, hx'⟩)) (hX.write x₃ hx₃)
  rintro (e | ⟨⟩) x₄ hx₄
  · exact herr e t₂ x₄ hp₂ (.inl ⟨hm₂, hx₄⟩)
  rw [cast_eq, Act.wp_bind]
  apply wp_boundary (hX.boundary .written) hx₄ (fun x' hx' => hcut t₂ x' hp₂ (.inr (.inl hx')))
    (fun e x' hx' => herr e t₂ x' hp₂ (.inr (.inl hx')))
  intro x₅ hx₅
  -- the second marker
  have hfw : ∀ t', ChangesBelow {firmwareWrittenMarker} t₂ t' → Pending entries t₀ (old t₀) t' :=
    fun t' => hp₂.record h isRecord_firmwareWrittenMarker (by decide)
  rw [Act.wp_bind]
  apply wp_writeSynced
  · exact fun t' ht' => hcut t' x₅ (hfw t' ht') (.inr (.inl hx₅))
  · exact fun e t' ht' => herr e t' x₅ (hfw t' ht') (.inr (.inl hx₅))
  intro t₆ ht₆ hd₆
  rw [Act.wp_bind]
  apply wp_boundary (hX.boundary .written) hx₅
    (fun x' hx' => hcut t₆ x' (hfw t₆ ht₆) (.inr (.inl hx')))
    (fun e x' hx' => herr e t₆ x' (hfw t₆ ht₆) (.inr (.inl hx')))
  intro x₇ hx₇
  -- the selection
  apply wp_callback rfl
  · intro r
    cases r <;> rfl
  refine Prog.wp_mono ?_ (fun x' hx' => hcut t₆ x' (hfw t₆ ht₆) (.inr (.inr hx'))) (hX.select x₇ hx₇)
  rintro (e | ⟨⟩) x₈ hx₈
  · exact herr e t₆ x₈ (hfw t₆ ht₆) (.inr (.inr hx₈))
  · refine hok t₆ x₈ (hfw t₆ ht₆) (fun e he => ?_) (by simp [hd₆]) hx₈
    exact (sameArea_of_record h he isRecord_firmwareWrittenMarker ht₆).active (ha₂ e he)

/-! ### The whole install -/

/-- What an interrupted install leaves behind: no journal and the old files, or a journal from
which they can be restored. -/
def Interruptible (X : FirmwareStage → κ → Prop) (t₀ : Tree) (entries : List JournalEntry)
    (t : Tree) (x : κ) : Prop :=
  Settled entries t₀ (old t₀) t ∧ (∃ st, X st x) ∨
    Pending entries t₀ (old t₀) t ∧ Marked X t x

lemma Interruptible.recoverable (h : Interruptible X t₀ entries t x) :
    Recoverable entries t₀ (old t₀) t :=
  h.elim (fun hs => .inr hs.1) fun hp => .inl hp.1

lemma Cleared.settled (h : Planned entries) (hc : Cleared t₀ t) :
    Settled entries t₀ (old t₀) t where
  journal := hc.journal
  frame q hq := .inl (hc.outside q (hq _ (.inl rfl)))
  node_eq e he r := hc.outside _ ((h.outside e he).append_right r).1

/-- What the preparation has made is a pending transaction with untouched files. -/
lemma Staging.pending (hfiles : Installable files) (ht : Staging t₀ files t)
    (hc : ChangesBelow {journalTmp, journalPath} t t')
    (hj : t'.node journalPath = some (.file (journalBytes (entriesOf t₀ files)))) :
    Pending (entriesOf t₀ files) t₀ (old t₀) t' ∧ t'.node firmwareWrittenMarker = none ∧
      ∀ e ∈ entriesOf t₀ files, Untouched t₀ files t' e := by
  have h := hfiles.planned t₀
  have hrec := recorded_entriesOf t₀ files
  have hnode : ∀ q, Apart journalTmp q → Apart journalPath q → t'.node q = t.node q := by
    intro q htmp hjournal
    refine hc.node_eq ?_
    rintro a (rfl | rfl)
    · exact htmp
    · exact hjournal
  have harea : ∀ e ∈ entriesOf t₀ files, ∀ a ∈ area e.relativePath, ∀ r,
      t'.node (a ++ r) = t.node (a ++ r) := by
    intro e he a ha r
    have htmp : IsRecord journalTmp := by
      refine ⟨?_, ?_, ?_⟩ <;> decide
    exact hnode _ ((h.area_apart_record he htmp a ha).symm.append_right r)
      ((h.area_apart_record he isRecord_journalPath a ha).symm.append_right r)
  have huntouched : ∀ e ∈ entriesOf t₀ files, Untouched t₀ files t' e := by
    intro e he
    constructor
    · intro r
      rw [harea e he _ (.inl rfl), ht.outside _ ((h.outside e he).append_right r).1, old]
    · have hb := harea e he _ (.inr (.inr rfl)) []
      rw [List.append_nil] at hb
      rw [hb]
      exact ht.no_backup _ (h.destination_ne_nil he)
    · obtain ⟨f, hf, rfl⟩ := List.mem_map.mp he
      obtain ⟨c, hprovides, hnode'⟩ := ht.content f hf
      have hs := harea _ he _ (.inr (.inl rfl)) []
      rw [List.append_nil] at hs
      exact ⟨c, ⟨f, hf, rfl, hprovides⟩, hs.trans hnode'⟩
  have hundone : ∀ e ∈ entriesOf t₀ files, Undone t' e := by
    intro e he
    cases hhad : e.hadOriginal with
    | true => exact (undone_of_had hhad).mpr (huntouched e he).no_backup
    | false =>
      have hnone := (huntouched e he).unchanged []
      rw [old, List.append_nil, hrec.new he hhad] at hnone
      exact (undone_of_new hhad).mpr hnone
  refine ⟨⟨hj, ?_, fun e he => (hundone e he).restorable, fun e he r => ?_⟩, ?_, huntouched⟩
  · have hframe : ChangesBelow (transactionArea (entriesOf t₀ files)) t₀ t :=
      fun q hq => .inl (ht.outside q (hq _ (.inl rfl)))
    refine hframe.trans (hc.mono ?_)
    rintro a (rfl | rfl)
    · exact ⟨transactionRoot, .inl rfl, by decide⟩
    · exact ⟨transactionRoot, .inl rfl, by decide⟩
  · rw [(hundone e he).restored_eq, (huntouched e he).unchanged]
  · rw [hnode _ (by decide) (by decide), ht.no_record _ isRecord_firmwareWrittenMarker]

lemma wp_activate {ok : Unit → (Tree × κ) × Bool → Prop} (hfiles : Installable files)
    (hX : CallbackLaws K X) (hx : X .idle x) (hp : Pending (entriesOf t₀ files) t₀ (old t₀) t)
    (hm : t.node firmwareWrittenMarker = none)
    (hu : ∀ e ∈ entriesOf t₀ files, Untouched t₀ files t e)
    (hcut : ∀ t' x', Pending (entriesOf t₀ files) t₀ (old t₀) t' → Marked X t' x' →
      cut ((t', x'), b))
    (herr : ∀ e t' x', Pending (entriesOf t₀ files) t₀ (old t₀) t' → Marked X t' x' →
      err e ((t', x'), false))
    (hok : ∀ t' x', Installed t₀ files t' → X .selected x' → ok () ((t', x'), b)) :
    Act.wp (world String UInt8 K callbackFailed) activate ok err cut ((t, x), b) := by
  have h := hfiles.planned t₀
  have hmarked : ∀ t' x', KeepsRecords t t' → X .idle x' → Marked X t' x' :=
    fun t' x' hk hx' => Marked.keeps (.inl ⟨hm, hX.writing_of_idle hx'⟩) hk
  unfold activate
  rw [Act.wp_bind]
  apply wp_readJournal hp.journal h.toValidEntries (hcut t x hp (hmarked t x (fun _ _ => .inl rfl) hx))
  · rw [Act.wp_bind]
    apply wp_activateEntries h (recorded_entriesOf t₀ files) (hX.boundary .idle) hx hp hu
    · exact fun t' x' hp' hk' hx' => hcut t' x' hp' (hmarked t' x' hk' hx')
    · exact fun e t' x' hp' hk' hx' => herr e t' x' hp' (hmarked t' x' hk' hx')
    · intro t' x' hp' hk' ha' hx'
      have hm' : t'.node firmwareWrittenMarker = none :=
        (hk' _ isRecord_firmwareWrittenMarker).elim (·.trans hm) id
      apply wp_finishFirmware h hX hx' hp' hm' ha' hcut herr
      exact fun t'' x'' hp'' ha'' hm'' hx'' => hok t'' x'' ⟨hp'', ha'', hm''⟩ hx''
  · exact fun _ e => herr e t x hp (hmarked t x (fun _ _ => .inl rfl) hx)

/-- An install that has opened its transaction directory succeeds as a whole, or restores the old
files and takes the directory away, or is cut short at a tree that can be recovered. -/
lemma wp_transact (hfiles : Installable files) (hX : CallbackLaws K X) (hx : X .idle x)
    (ht : Staging t₀ [] t) :
    Act.wp (world String UInt8 K callbackFailed) (transact files)
      (fun _ s => Installed t₀ files s.1.1 ∧ X .selected s.1.2)
      (fun _ s => Settled (entriesOf t₀ files) t₀ (old t₀) s.1.1 ∧
        s.1.1.node transactionRoot = none)
      (fun s => Interruptible X t₀ (entriesOf t₀ files) s.1.1 s.1.2) ((t, x), b) := by
  have h := hfiles.planned t₀
  unfold transact
  rw [Act.wp_bind, Act.wp_attempt]
  apply wp_prepare (hX.boundary .idle) hx hfiles ht
  · exact fun t' x' hc' hx' => .inl ⟨hc'.settled h, _, hx'⟩
  · intro e t' x' hc' hroot hx'
    -- the preparation has failed: the directory is taken away
    obtain ⟨t'', hrem⟩ := removeDirAll_succeeds (by decide) hroot
    have hbelow : ChangesBelow {transactionRoot} t' t'' :=
      effect_changesBelow (u := .removeDirAll _) hrem ⟨transactionRoot, rfl, List.prefix_rfl⟩
    have hj : t''.node journalPath = none := (removeDirAll_ok hrem _).trans (if_pos ⟨["journal"], rfl⟩)
    rw [Act.wp_bind, Act.wp_attempt]
    refine wp_update_sure hrem ?_ ?_
    · intro t₁ hl
      have hj₁ : t₁.node journalPath = none :=
        (hl.node_removeDirAll _).elim (·.trans hc'.journal) id
      have hc₁ := hc'.changes (hl.changesBelow ⟨transactionRoot, rfl, List.prefix_rfl⟩) hj₁
      exact .inl ⟨hc₁.settled h, _, hx'⟩
    · exact ⟨(hc'.changes hbelow hj).settled h, (removeDirAll_ok hrem _).trans (if_pos List.prefix_rfl)⟩
  · intro t₁ t₂ x₂ hst hc hj hx₂
    obtain ⟨hp, hm, hu⟩ := hst.pending hfiles hc hj
    rw [Act.wp_bind, Act.wp_attempt]
    apply wp_activate hfiles hX hx₂ hp hm hu
    · exact fun t' x' hp' hm' => .inr ⟨hp', hm'⟩
    · intro e t' x' hp' hm'
      -- the activation has failed: it is rolled back, and nothing is left to fail
      rw [Act.wp_bind, Act.wp_attempt]
      refine Act.wp_mono ?_ (fun _ _ h => h.elim) ?_ (hp'.wp_rollback h)
      · rintro ⟨⟩ s ⟨t'', rfl, hs, hroot⟩
        exact ⟨hs, hroot⟩
      · rintro s ⟨t'', rfl, hr | hr, hk⟩
        · exact .inr ⟨hr, hm'.keeps hk⟩
        · exact .inl ⟨hr, hm'.stage⟩
    · exact fun t' x' hi hx' => ⟨hi, hx'⟩

lemma wp_install (hfiles : Installable files) (hX : CallbackLaws K X) (hx : X .idle x)
    (hj : t₀.node journalPath = none) :
    Act.wp (world String UInt8 K callbackFailed) (install files)
      (fun _ s => Installed t₀ files s.1.1 ∧ X .selected s.1.2)
      (fun _ s => Settled (entriesOf t₀ files) t₀ (old t₀) s.1.1)
      (fun s => Interruptible X t₀ (entriesOf t₀ files) s.1.1 s.1.2) ((t₀, x), b) := by
  have h := hfiles.planned t₀
  have hcleared : ∀ t', Cleared t₀ t' → Interruptible X t₀ (entriesOf t₀ files) t' x :=
    fun t' hc => .inl ⟨hc.settled h, _, hx⟩
  unfold install
  rw [Act.wp_bind]
  apply wp_openTransaction hj
  · exact hcleared
  · exact fun e t' hc => hc.settled h
  · intro t' ht'
    refine Act.wp_mono (fun _ _ h => h) (fun _ _ h => h.1) (fun _ h => h)
      (wp_transact hfiles hX hx ht')

end Install

/-! ### Errors and power losses -/

/-- Callbacks that do nothing. -/
def quiet : Machine callbackSig Unit where
  Fault := Unit
  perform _ _ := (.ok (), ())
  disturb _ _ _ := (none, ())

abbrev quietWorld := world String UInt8 quiet callbackFailed

/-- A device error without any effect. -/
def deviceError : Option quietWorld.Fault := some (.inl ⟨false, 0, fun _ => false⟩)

def sampleFile : BundleFile := ⟨"a", .bytes [1], by decide⟩

/-- A card with an old version of the sample file. -/
def sampleCard : Tree := (FileTree.empty : Tree).putFile ["a"] [0] (by decide) rfl rfl

lemma installable_sample : Installable [sampleFile] where
  ne_nil := by simp
  apart := List.pairwise_singleton _ _
  outside f hf := by
    rw [List.mem_singleton.mp hf]
    decide

section Runs

variable {κ : Type} {K : Machine callbackSig κ} {files : List BundleFile} {t t' : Tree} {x x' : κ}
  {b b' : Bool} {cs rest : List (Option (world String UInt8 K callbackFailed).Fault)}

/-- No assumption on the callbacks. -/
lemma callbackLaws_true (K : Machine callbackSig κ) : CallbackLaws K fun _ _ => True := by
  have hop : ∀ (o : callbackSig.Op) (Q : Except IoError Unit → κ → Prop) (x : κ), (∀ r x, Q r x) →
      (Prog.op o).wp K Q (fun _ => True) x := by
    intro o Q x hQ
    refine (Prog.wp_call _ _ x).mpr ⟨trivial, fun c => ?_⟩
    rcases K.exec o c x with ⟨_ | r, x'⟩
    · trivial
    · exact hQ r x'
  constructor
  · exact fun st d x _ => hop _ _ x fun _ _ => trivial
  · intro x _
    apply hop
    rintro (e | ⟨⟩) x
    · trivial
    · trivial
  · intro x _
    apply hop
    rintro (e | ⟨⟩) x
    · trivial
    · trivial

lemma Settled.destination_eq (h : Settled (entriesOf t files) t (old t) t') {f : BundleFile}
    (hf : f ∈ files) (r : Path) :
    t'.node (destination f.relativePath ++ r) = t.node (destination f.relativePath ++ r) :=
  h.node_eq (entryOf t f) (List.mem_map_of_mem hf) r

lemma mem_transactionArea {a : Path} : a ∈ transactionArea (entriesOf t files) ↔
    a = transactionRoot ∨ ∃ f ∈ files, a = destination f.relativePath := by
  simp [transactionArea, entriesOf, entryOf]

/-- Outside the transaction directory, a failed install leaves at most new directories on the way to
the destinations. -/
lemma Settled.outside (h : Settled (entriesOf t files) t (old t) t') {q : Path} (hq : ¬ transactionRoot <+: q) : t'.node q = t.node q ∨
      t.node q = none ∧ t'.node q = some .dir ∧ ∃ f ∈ files, q <+: destination f.relativePath := by
  by_cases hin : ∃ f ∈ files, destination f.relativePath <+: q
  · obtain ⟨f, hf, r, rfl⟩ := hin
    exact .inl (h.destination_eq hf r)
  · have hnot : ∀ a ∈ transactionArea (entriesOf t files), ¬ a <+: q := by
      intro a ha hle
      rcases mem_transactionArea.mp ha with rfl | ⟨f, hf, rfl⟩
      · exact hq hle
      · exact hin ⟨f, hf, hle⟩
    rcases h.frame q hnot with heq | ⟨hnone, hdir, a, ha, hqa⟩
    · exact .inl heq
    · rcases mem_transactionArea.mp ha with rfl | ⟨f, hf, rfl⟩
      · rcases List.prefix_cons_iff.mp hqa with rfl | ⟨l, rfl, hl⟩
        · simp [t.node_nil] at hnone
        · rw [List.prefix_nil] at hl
          subst hl
          exact absurd List.prefix_rfl hq
      · exact .inr ⟨hnone, hdir, f, hf, hqa⟩

/-- An install at which one operation fails restores the old files. An unfinished transaction is left
alone; otherwise the transaction directory is gone, unless the very making of it failed. -/
theorem install_error (hfiles : Installable files) {e : IoError}
    (hrun : Act.run (world String UInt8 K callbackFailed) (install files) cs ((t, x), true) =
      (.done (.error e) rest, ((t', x'), b'))) :
    if t.node journalPath = none then
      (∀ f ∈ files, ∀ r, t'.node (destination f.relativePath ++ r) =
        t.node (destination f.relativePath ++ r)) ∧
      (∀ q, ¬ transactionRoot <+: q → t'.node q = t.node q ∨ t.node q = none ∧
        t'.node q = some .dir ∧ ∃ f ∈ files, q <+: destination f.relativePath) ∧
      (t'.node transactionRoot = none ∨ ∃ e' rest' s,
        Act.run (world String UInt8 K callbackFailed) openTransaction cs ((t, x), true) =
          (.done (.error e') rest', s))
    else t' = t := by
  have hX := callbackLaws_true K
  rw [install, Act.run_bind] at hrun
  split
  · rename_i hj
    have hopen : Act.wp (world String UInt8 K callbackFailed) openTransaction
        (fun _ s => Staging t [] s.1.1) (fun _ s => Settled (entriesOf t files) t (old t) s.1.1)
        (fun _ => True) ((t, x), true) := by
      apply wp_openTransaction hj
      · exact fun _ _ => trivial
      · exact fun e t' hc => hc.settled (hfiles.planned t)
      · exact fun t' ht' => ht'
    have hsettled : Settled (entriesOf t files) t (old t) t' ∧
        (t'.node transactionRoot = none ∨ ∃ e' rest' s,
          Act.run (world String UInt8 K callbackFailed) openTransaction cs ((t, x), true) =
            (.done (.error e') rest', s)) := by
      split at hrun
      · rename_i rest' s' hrun'
        have ht' := Act.wp_run_ok hopen hrun'
        have htransact := Act.wp_run_error
          (wp_transact (x := s'.1.2) (b := s'.2) hfiles hX trivial ht') hrun
        exact ⟨htransact.1, .inl htransact.2⟩
      · rename_i e' rest' s' hrun'
        obtain ⟨-, rfl⟩ := Prod.mk.inj hrun
        have hs := Act.wp_run_error hopen hrun'
        exact ⟨hs, .inr ⟨e', rest', _, hrun'⟩⟩
      · cases (Prod.mk.inj hrun).1
    exact ⟨fun f hf r => hsettled.1.destination_eq hf r, fun q hq => hsettled.1.outside hq, hsettled.2⟩
  · rename_i hj
    have hopen : Act.wp (world String UInt8 K callbackFailed) openTransaction (fun _ _ => False)
        (fun _ s => s.1.1 = t) (fun _ => True) ((t, x), true) :=
      wp_openTransaction_of_journal hj trivial rfl
    split at hrun
    · rename_i rest' s' hrun'
      exact (Act.wp_run_ok hopen hrun').elim
    · rename_i e' rest' s' hrun'
      obtain ⟨-, rfl⟩ := Prod.mk.inj hrun
      have hs := Act.wp_run_error hopen hrun'
      exact hs
    · cases (Prod.mk.inj hrun).1

/-- The renaming of the new file to its destination fails. -/
theorem install_error_sample : ∃ e s, Act.run quietWorld (install [sampleFile])
    (List.replicate 27 none ++ deviceError :: List.replicate 9 none) ((sampleCard, ()), true) =
      (.done (.error e) [], s) ∧ s.1.1.node ["a"] = some (.file [0]) := by
  have hrun : ∃ e s, Act.run quietWorld (install [sampleFile])
      (List.replicate 27 none ++ deviceError :: List.replicate 9 none) ((sampleCard, ()), true) =
        (.done (.error e) [], s) := ⟨_, _, rfl⟩
  obtain ⟨e, ⟨⟨t', x'⟩, b'⟩, hrun⟩ := hrun
  have hrestored := install_error installable_sample hrun
  rw [if_pos (show sampleCard.node journalPath = none from rfl)] at hrestored
  exact ⟨e, _, hrun, hrestored.1 sampleFile List.mem_cons_self []⟩

/-- An install that cannot make its backup directory leaves the staging directory behind. -/
theorem install_error_not_clean : ¬ ∀ (files : List BundleFile) (t t' : Tree) (e : IoError)
    (cs rest : List (Option quietWorld.Fault)) (b : Bool), Installable files →
    Act.run quietWorld (install files) cs ((t, ()), true) = (.done (.error e) rest, ((t', ()), b)) →
    (∀ f ∈ files, ∀ r, t'.node (destination f.relativePath ++ r) =
      t.node (destination f.relativePath ++ r)) ∧
    (∀ q, ¬ transactionRoot <+: q → (∀ f ∈ files, ¬ destination f.relativePath <+: q) →
      t'.node q = t.node q) ∧ t'.node transactionRoot = none := by
  intro hclean
  have hrun : ∃ e s, Act.run quietWorld (install [sampleFile]) [none, none, none, deviceError]
      ((sampleCard, ()), true) = (.done (.error e) [], s) ∧ s.1.1.node transactionRoot = some .dir :=
    ⟨_, _, rfl, rfl⟩
  obtain ⟨e, ⟨⟨t', x'⟩, b'⟩, hrun, hthere⟩ := hrun
  have hgone := (hclean _ _ _ _ _ _ _ installable_sample hrun).2.2
  exact Option.some_ne_none _ (hthere.symm.trans hgone)

/-- An install that finds a journal loses the power before its first question is answered, or not at
all. -/
lemma answered_install_of_journal {s : (Tree × κ) × Bool} (hexists : t.exists? journalPath = true)
    (hlost : Act.run (world String UInt8 K callbackFailed) (install files) cs ((t, x), b) =
      (.lost, s)) :
    Prog.answered (world String UInt8 K callbackFailed) (ExceptT.run (install files)) cs
      ((t, x), b) = 0 := by
  have hform : ∃ k, ExceptT.run (install files) =
      Prog.call (S := (fsSig String UInt8).sum callbackSig) (.inl (.exists? journalPath)) k ∧
      ∃ a, k true = .pure a := ⟨_, rfl, _, rfl⟩
  obtain ⟨k, hk, hend⟩ := hform
  rw [Act.run, hk] at hlost
  rw [hk]
  refine Prog.answered_eq_zero_of_lost ?_ hlost
  have hreply : ∀ r, r = t.exists? journalPath → ∃ a, k r = .pure a := by
    rintro r rfl
    rwa [hexists]
  refine Prog.wp_call_inl trivial (hreply _ rfl) (fun _ _ _ => trivial) ?_
  rintro rfl f r t' hd
  obtain ⟨hr, rfl⟩ := Prod.mk.inj hd
  split at hr <;> cases hr
  exact hreply _ rfl

/-- Once the journal question has been answered, an install may be cut short anywhere, and rollback
as often as one likes: the rollback that is answered to the end restores the old files. -/
theorem install_crash_safe (hfiles : Installable files)
    {cs' rest' : List (Option (world String UInt8 K callbackFailed).Fault)}
    {s₁ s₂ : (Tree × κ) × Bool} {r : Except IoError Unit}
    (hlost : Act.run (world String UInt8 K callbackFailed) (install files) cs ((t, x), b) =
      (.lost, s₁))
    (hbegun : 0 < Prog.answered (world String UInt8 K callbackFailed) (ExceptT.run (install files))
      cs ((t, x), b))
    (hcuts : Prog.Interrupted (world String UInt8 K callbackFailed) (ExceptT.run rollback)
      (s₁.1, false) s₂)
    (hdone : Act.run (world String UInt8 K callbackFailed) rollback cs' s₂ =
      (.done r rest', ((t', x'), b'))) :
    r = .ok () ∧ ∀ f ∈ files, ∀ q, t'.node (destination f.relativePath ++ q) =
      t.node (destination f.relativePath ++ q) := by
  have h := hfiles.planned t
  -- an install that has begun has found no journal
  have hj : t.node journalPath = none := by
    by_contra hj
    have hexists : t.exists? journalPath = true := by
      rwa [FileTree.exists?, Option.isSome_iff_ne_none]
    exact hbegun.ne' (answered_install_of_journal hexists hlost)
  have hcut := Act.wp_run_lost (wp_install (b := b) hfiles (callbackLaws_true K) trivial hj) hlost
  have hrec : Recoverable (entriesOf t files) t (old t) s₁.1.1 := hcut.recoverable
  have hkeep : ∀ s : (Tree × κ) × Bool,
      (∃ t₁, s = ((t₁, s.1.2), false) ∧ Recoverable (entriesOf t files) t (old t) t₁) →
      Act.wp (world String UInt8 K callbackFailed) rollback
        (fun _ s => Settled (entriesOf t files) t (old t) s.1.1) (fun _ _ => False)
        (fun s => ∃ t₁, s = ((t₁, s.1.2), false) ∧ Recoverable (entriesOf t files) t (old t) t₁) s := by
    rintro ⟨⟨t₁, x₁⟩, b₁⟩ ⟨t₁', hs, hr⟩
    cases hs
    refine Act.wp_mono ?_ (fun _ _ h => h) ?_ (hr.wp_rollback h)
    · rintro ⟨⟩ s ⟨t₂, rfl, hs⟩
      exact hs
    · rintro s ⟨t₂, rfl, hr₂, -⟩
      exact ⟨t₂, rfl, hr₂⟩
  have hs₂ := hcuts.keeps hkeep ⟨s₁.1.1, rfl, hrec⟩
  have hend := Prog.wp_run_done (hkeep s₂ hs₂) hdone
  rcases r with e | ⟨⟩
  · exact hend.elim
  · exact ⟨rfl, fun f hf q => Settled.destination_eq hend hf q⟩

/-- The power is lost after the new file has been moved in, and again during the rollback. -/
theorem install_crash_safe_sample : ∃ s₁ s₂ s₃,
    Act.run quietWorld (install [sampleFile]) (List.replicate 28 none) ((sampleCard, ()), false) =
      (.lost, s₁) ∧
    Act.run quietWorld rollback (List.replicate 6 none) (s₁.1, false) = (.lost, s₂) ∧
    Act.run quietWorld rollback (List.replicate 9 none) s₂ = (.done (.ok ()) [], s₃) ∧
    s₃.1.1.node ["a"] = some (.file [0]) := by
  have hrun : ∃ s₁ s₂ s₃,
      Act.run quietWorld (install [sampleFile]) (List.replicate 28 none) ((sampleCard, ()), false) =
        (.lost, s₁) ∧
      Act.run quietWorld rollback (List.replicate 6 none) (s₁.1, false) = (.lost, s₂) ∧
      Act.run quietWorld rollback (List.replicate 9 none) s₂ = (.done (.ok ()) [], s₃) :=
    ⟨_, _, _, rfl, rfl, rfl⟩
  have hbegun : 0 < Prog.answered quietWorld (ExceptT.run (install [sampleFile]))
      (List.replicate 28 none) ((sampleCard, ()), false) := by decide
  obtain ⟨s₁, s₂, ⟨⟨t', x'⟩, b'⟩, h₁, h₂, h₃⟩ := hrun
  have hsafe := install_crash_safe installable_sample h₁ hbegun (.single ⟨_, h₂⟩) h₃
  exact ⟨s₁, s₂, _, h₁, h₂, h₃, hsafe.2 sampleFile List.mem_cons_self []⟩

end Runs

end ThistleOS.BundleTransaction
