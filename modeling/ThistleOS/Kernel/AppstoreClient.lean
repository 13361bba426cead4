import ThistleOS.FileTree.Actions

/-!
# The app store's files

A download is staged beside its destination and then takes the destination's place. FAT does not
rename over an existing path, so the old file is moved away first and is put back when the new one
cannot be installed. A payload and its signature are replaced together.
-/

open PowerLoss FileTree

namespace ThistleOS.AppstoreClient

abbrev Path := List String

abbrev Tree := FileTree String UInt8

abbrev StoreAct (α : Type) := FileAct String UInt8 Sig.none α

abbrev storeWorld := aloneWorld String UInt8

/-! ### Backups -/

def backupPath (destination : Path) (sequence : UInt32) : Path :=
  let name := destination.getLast?.getD "artifact"
  destination.dropLast ++ [s!".{name}.thistle-backup-{sequence}"]

/-- The loop over the values of the shared counter, which gives up after `tries` of them, with the
next value of the counter. -/
def unusedBackupPath (destination : Path) : Nat → UInt32 → StoreAct (Path × UInt32)
  | 0, _ => throw (.ofKind .other)
  | tries + 1, sequence => do
    let candidate := backupPath destination sequence
    if ← fileExists candidate then unusedBackupPath destination tries (sequence + 1)
    else pure (candidate, sequence + 1)

/-! ### Replacing a pair -/

structure PairPaths where
  stagedPayload : Path
  payloadDestination : Path
  stagedSignature : Path
  signatureDestination : Path

/-- What the closure has done when it ends. -/
structure Progress where
  payloadBackedUp : Bool := false
  signatureBackedUp : Bool := false
  payloadInstalled : Bool := false
  signatureInstalled : Bool := false

/-- Undo what has been done, whatever comes of it. -/
def restorePair (P : PairPaths) (payloadBackup signatureBackup : Path) (progress : Progress) :
    StoreAct Unit := do
  if progress.payloadInstalled then
    let _ ← (update (.removeFile P.payloadDestination) : StoreAct Unit).attempt
  if progress.signatureInstalled then
    let _ ← (update (.removeFile P.signatureDestination) : StoreAct Unit).attempt
  if progress.signatureBackedUp then
    let _ ← (update (.rename signatureBackup P.signatureDestination) : StoreAct Unit).attempt
  if progress.payloadBackedUp then
    let _ ← (update (.rename payloadBackup P.payloadDestination) : StoreAct Unit).attempt

/-- A renaming of the closure: when it fails, what has been done so far is undone. -/
def orRestore (restore : StoreAct Unit) (src dst : Path) : StoreAct Unit := do
  match ← (update (.rename src dst) : StoreAct Unit).attempt with
  | .ok () => pure ()
  | .error commitError => do
    restore
    throw commitError

def backUp (restore : StoreAct Unit) (had : Bool) (destination backup : Path) : StoreAct Unit :=
  if had then orRestore restore destination backup else pure ()

def commitPair (P : PairPaths) (payloadBackup signatureBackup : Path)
    (hadPayload hadSignature : Bool) : StoreAct Unit := do
  let restore := restorePair P payloadBackup signatureBackup
  backUp (restore {}) hadPayload P.payloadDestination payloadBackup
  backUp (restore { payloadBackedUp := hadPayload }) hadSignature P.signatureDestination
    signatureBackup
  orRestore (restore { payloadBackedUp := hadPayload, signatureBackedUp := hadSignature })
    P.stagedSignature P.signatureDestination
  orRestore (restore { payloadBackedUp := hadPayload, signatureBackedUp := hadSignature,
                       signatureInstalled := true })
    P.stagedPayload P.payloadDestination

def atomicReplacePairWith (P : PairPaths) (tries : Nat) (sequence : UInt32) : StoreAct Unit := do
  let (payloadBackup, sequence) ← unusedBackupPath P.payloadDestination tries sequence
  let (signatureBackup, _) ← unusedBackupPath P.signatureDestination tries sequence
  let hadPayload ← fileExists P.payloadDestination
  let hadSignature ← fileExists P.signatureDestination
  commitPair P payloadBackup signatureBackup hadPayload hadSignature
  if hadPayload then
    let _ ← (update (.removeFile payloadBackup) : StoreAct Unit).attempt
  if hadSignature then
    let _ ← (update (.removeFile signatureBackup) : StoreAct Unit).attempt

/-! ### What the callers give -/

/-- A destination holds a file or nothing. -/
def Vacant (t : Tree) (p : Path) : Prop := t.node p = none ∨ ∃ d, t.node p = some (.file d)

/-- Two staged files for two destinations, neither of them called like a backup of the other: in the
app store the signature's name is the payload's with `.sig`. -/
structure Pair (t : Tree) (P : PairPaths) : Prop where
  stagedPayload : ∃ d, t.node P.stagedPayload = some (.file d)
  stagedSignature : ∃ d, t.node P.stagedSignature = some (.file d)
  payload : Vacant t P.payloadDestination
  signature : Vacant t P.signatureDestination
  staged_ne : P.stagedPayload ≠ P.stagedSignature
  destination_ne : P.payloadDestination ≠ P.signatureDestination
  stagedPayload_ne : P.stagedPayload ≠ P.payloadDestination ∧
    P.stagedPayload ≠ P.signatureDestination
  stagedSignature_ne : P.stagedSignature ≠ P.payloadDestination ∧
    P.stagedSignature ≠ P.signatureDestination
  payload_ne_backup : ∀ sequence,
    P.payloadDestination ≠ backupPath P.signatureDestination sequence
  signature_ne_backup : ∀ sequence,
    P.signatureDestination ≠ backupPath P.payloadDestination sequence

/-- Both destinations hold what they held before. -/
def Old (t₀ : Tree) (P : PairPaths) (t : Tree) : Prop :=
  t.node P.payloadDestination = t₀.node P.payloadDestination ∧
    t.node P.signatureDestination = t₀.node P.signatureDestination

/-- Both destinations hold what was staged for them. -/
def New (t₀ : Tree) (P : PairPaths) (t : Tree) : Prop :=
  t.node P.payloadDestination = t₀.node P.stagedPayload ∧
    t.node P.signatureDestination = t₀.node P.stagedSignature

/-- Where there is a payload, the two destinations belong together. -/
def Matched (t₀ : Tree) (P : PairPaths) (t : Tree) : Prop :=
  t.node P.payloadDestination = none ∨ Old t₀ P t ∨ New t₀ P t

/-- What is true of the tree however the replacement ends. -/
def Replaced (t₀ : Tree) (P : PairPaths) :
    PowerLoss.Outcome (Except IoError Unit) (Option storeWorld.Fault) → Tree → Prop
  | .done (.ok ()) _, t => New t₀ P t
  | .done (.error _) _, t => Old t₀ P t
  | .lost, t => Matched t₀ P t

/-! ### One renaming -/

section Rules

variable {P : PairPaths} {t₀ t t' : Tree} {src dst payloadBackup signatureBackup : Path}
  {d : List UInt8} {b hadPayload hadSignature : Bool}

/-- The file at `src` has moved to `dst`, where nothing was. -/
structure Moved (src dst : Path) (t t' : Tree) : Prop where
  file : ∃ d, t.node src = some (.file d)
  free : t.node dst = none
  node : ∀ q, t'.node q = if q = dst then t.node src else if q = src then none else t.node q

lemma Moved.ne (h : Moved src dst t t') : src ≠ dst := by
  obtain ⟨d, hd⟩ := h.file
  rintro rfl
  rw [h.free] at hd
  cases hd

lemma Moved.at_dst (h : Moved src dst t t') : t'.node dst = t.node src := by
  rw [h.node, if_pos rfl]

lemma Moved.at_src (h : Moved src dst t t') : t'.node src = none := by
  rw [h.node, if_neg h.ne, if_pos rfl]

lemma Moved.off (h : Moved src dst t t') {q : Path} (hsrc : q ≠ src) (hdst : q ≠ dst) :
    t'.node q = t.node q := by
  rw [h.node, if_neg hdst, if_neg hsrc]

/-- What is in the tree stays, the file at `src` apart. -/
lemma Moved.keeps (h : Moved src dst t t') {q : Path} (hsrc : q ≠ src) (hq : t.node q ≠ none) :
    t'.node q = t.node q := by
  refine h.off hsrc ?_
  rintro rfl
  exact hq h.free

lemma Moved.dir (h : Moved src dst t t') {q : Path} (hq : t.node q = some .dir) :
    t'.node q = some .dir := by
  obtain ⟨d, hd⟩ := h.file
  rw [h.keeps ?_ (by simp [hq]), hq]
  rintro rfl
  rw [hd] at hq
  cases hq

lemma moved_of_rename (h : t.rename src dst = .ok t') (hfile : t.node src = some (.file d)) :
    Moved src dst t t' where
  file := ⟨d, hfile⟩
  free := (rename_ok h).2.1
  node q := by rw [rename_file_ok h hfile, hfile]

/-- A file may be moved to a free name in a directory. -/
lemma exists_moved (hfile : t.node src = some (.file d)) (hfree : t.node dst = none)
    (hdir : t.node dst.dropLast = some .dir) : ∃ t', t.rename src dst = .ok t' := by
  refine rename_succeeds (by simp [hfile]) hfree hdir fun hle => ?_
  have hne : src ≠ dst := by
    rintro rfl
    rw [hfree] at hfile
    cases hfile
  have hle := prefix_dropLast_of_ne hle hne
  by_cases heq : src = dst.dropLast
  · rw [← heq, hfile] at hdir
    cases hdir
  · have hsrc := t.dir_above hle heq (by simp [hdir])
    rw [hfile] at hsrc
    cases hsrc

/-- Moving a backup back, once nothing is left to fail. -/
lemma wp_moveBack {ok : Except IoError Unit → (Tree × Unit) × Bool → Prop}
    {err : IoError → (Tree × Unit) × Bool → Prop} {cut : (Tree × Unit) × Bool → Prop}
    (hfile : ∃ d, t.node src = some (.file d)) (hfree : t.node dst = none)
    (hdir : t.node dst.dropLast = some .dir) (hcut : cut ((t, ()), false))
    (hok : ∀ t', Moved src dst t t' → ok (.ok ()) ((t', ()), false)) :
    Act.wp storeWorld (Act.attempt (update (.rename src dst))) ok err cut ((t, ()), false) := by
  obtain ⟨d, hfile⟩ := hfile
  obtain ⟨t', ht'⟩ := exists_moved hfile hfree hdir
  rw [Act.wp_attempt]
  refine wp_update_sure ht' ?_ (hok t' (moved_of_rename ht' hfile))
  intro t'' hl
  rw [hl.eq_of_rename]
  exact hcut

/-- A renaming of the closure moves its file, or nothing has happened and what came before it is
undone. -/
lemma wp_orRestore {restore : StoreAct Unit} {ok : Unit → (Tree × Unit) × Bool → Prop}
    {err : IoError → (Tree × Unit) × Bool → Prop} {cut : (Tree × Unit) × Bool → Prop}
    (hfile : ∃ d, t.node src = some (.file d)) (hcut : cut ((t, ()), b))
    (hrestore : ∀ e, Act.wp storeWorld restore (fun _ => err e) err cut ((t, ()), false))
    (hok : ∀ t', Moved src dst t t' → ok () ((t', ()), b)) :
    Act.wp storeWorld (orRestore restore src dst) ok err cut ((t, ()), b) := by
  obtain ⟨d, hfile⟩ := hfile
  rw [orRestore, Act.wp_bind, Act.wp_attempt]
  refine wp_update ?_ ?_ ?_ ?_
  · intro t' hl
    rw [hl.eq_of_rename]
    exact hcut
  · exact fun t' ht' => hok t' (moved_of_rename ht' hfile)
  · exact fun kind _ => (Act.wp_bind _ _ _).mpr (hrestore _)
  · intro _ t' hl
    rw [hl.eq_of_rename]
    exact (Act.wp_bind _ _ _).mpr (hrestore _)

/-! ### What can be undone -/

/-- The payload's destination is free, and a payload that was there is in its backup. The directories
are still there. -/
structure PayloadAway (t₀ : Tree) (P : PairPaths) (payloadBackup : Path) (hadPayload : Bool)
    (t : Tree) : Prop where
  free : t.node P.payloadDestination = none
  backup : hadPayload = true → ∃ d, t₀.node P.payloadDestination = some (.file d) ∧
    t.node payloadBackup = some (.file d)
  absent : hadPayload = false → t₀.node P.payloadDestination = none
  dirs : ∀ q, t₀.node q = some .dir → t.node q = some .dir

/-- The same of the signature, which may be back in place. -/
structure SignatureAway (t₀ : Tree) (P : PairPaths) (signatureBackup : Path) (hadSignature : Bool)
    (t : Tree) : Prop where
  backup : hadSignature = true → ∃ d, t₀.node P.signatureDestination = some (.file d) ∧
    t.node signatureBackup = some (.file d)
  absent : hadSignature = false → t₀.node P.signatureDestination = none

lemma dir_dropLast_of_file (h : ∃ d, t.node src = some (.file d)) :
    t.node src.dropLast = some .dir := by
  obtain ⟨d, hd⟩ := h
  exact t.dir_dropLast (by simp [hd])

variable {err : IoError → (Tree × Unit) × Bool → Prop}

/-- The last step of undoing. -/
lemma wp_restorePayload (h : PayloadAway t₀ P payloadBackup hadPayload t)
    (hpair : P.payloadDestination ≠ P.signatureDestination)
    (hbackup : hadPayload = true → payloadBackup ≠ P.signatureDestination)
    (hold : t.node P.signatureDestination = t₀.node P.signatureDestination) :
    Act.wp storeWorld (restorePair P payloadBackup signatureBackup { payloadBackedUp := hadPayload })
      (fun _ s => Old t₀ P s.1.1) err (fun s => Matched t₀ P s.1.1) ((t, ()), false) := by
  cases hadPayload with
  | false => exact ⟨h.free.trans (h.absent rfl).symm, hold⟩
  | true =>
    obtain ⟨d, hd, hb⟩ := h.backup rfl
    refine (Act.wp_bind _ _ _).mpr (wp_moveBack ⟨d, hb⟩ h.free
      (h.dirs _ (dir_dropLast_of_file ⟨d, hd⟩)) (.inl h.free) fun t' ht' => ⟨?_, ?_⟩)
    · rw [ht'.at_dst, hb, hd]
    · rw [ht'.off (hbackup rfl).symm hpair.symm, hold]

lemma PayloadAway.moved (h : PayloadAway t₀ P payloadBackup hadPayload t) (hm : Moved src dst t t')
    (hsrc : hadPayload = true → payloadBackup ≠ src) (hdst : P.payloadDestination ≠ dst) :
    PayloadAway t₀ P payloadBackup hadPayload t' where
  free := by
    by_cases heq : P.payloadDestination = src
    · rw [heq, hm.at_src]
    · rw [hm.off heq hdst, h.free]
  backup hhad := by
    obtain ⟨d, hd, hb⟩ := h.backup hhad
    exact ⟨d, hd, by rw [hm.keeps (hsrc hhad) (by simp [hb]), hb]⟩
  absent := h.absent
  dirs q hq := hm.dir (h.dirs q hq)

lemma SignatureAway.moved (h : SignatureAway t₀ P signatureBackup hadSignature t)
    (hm : Moved src dst t t') (hsrc : hadSignature = true → signatureBackup ≠ src) :
    SignatureAway t₀ P signatureBackup hadSignature t' where
  backup hhad := by
    obtain ⟨d, hd, hb⟩ := h.backup hhad
    exact ⟨d, hd, by rw [hm.keeps (hsrc hhad) (by simp [hb]), hb]⟩
  absent := h.absent

/-- The names are as they should be: no two of the paths that are in use are the same. -/
structure Separate (P : PairPaths) (payloadBackup signatureBackup : Path)
    (hadPayload hadSignature : Bool) : Prop where
  destination_ne : P.payloadDestination ≠ P.signatureDestination
  payload_ne : P.payloadDestination ≠ signatureBackup
  signature_ne : P.signatureDestination ≠ payloadBackup
  backup_ne : hadPayload = true → hadSignature = true → payloadBackup ≠ signatureBackup

/-- Undoing when the signature's destination is free. -/
lemma wp_restoreBoth (hsep : Separate P payloadBackup signatureBackup hadPayload hadSignature)
    (h : PayloadAway t₀ P payloadBackup hadPayload t)
    (hs : SignatureAway t₀ P signatureBackup hadSignature t)
    (hfree : t.node P.signatureDestination = none) :
    Act.wp storeWorld (restorePair P payloadBackup signatureBackup
        { payloadBackedUp := hadPayload, signatureBackedUp := hadSignature })
      (fun _ s => Old t₀ P s.1.1) err (fun s => Matched t₀ P s.1.1) ((t, ()), false) := by
  cases hadSignature with
  | false =>
    exact wp_restorePayload h hsep.destination_ne (fun _ => hsep.signature_ne.symm)
      (hfree.trans (hs.absent rfl).symm)
  | true =>
    obtain ⟨d, hd, hb⟩ := hs.backup rfl
    refine (Act.wp_bind _ _ _).mpr (wp_moveBack ⟨d, hb⟩ hfree
      (h.dirs _ (dir_dropLast_of_file ⟨d, hd⟩)) (.inl h.free) fun t' ht' => ?_)
    have hold : t'.node P.signatureDestination = t₀.node P.signatureDestination := by
      rw [ht'.at_dst, hb, hd]
    have haway := h.moved ht' (fun hhad => hsep.backup_ne hhad rfl) hsep.destination_ne
    exact @wp_restorePayload P t₀ t' payloadBackup signatureBackup hadPayload err haway
      hsep.destination_ne (fun _ => hsep.signature_ne.symm) hold

/-- Undoing when the new signature is in place. -/
lemma wp_restoreInstalled (hsep : Separate P payloadBackup signatureBackup hadPayload hadSignature)
    (h : PayloadAway t₀ P payloadBackup hadPayload t)
    (hs : SignatureAway t₀ P signatureBackup hadSignature t)
    (hfile : ∃ d, t.node P.signatureDestination = some (.file d))
    (hne : hadSignature = true → signatureBackup ≠ P.signatureDestination) :
    Act.wp storeWorld (restorePair P payloadBackup signatureBackup
        { payloadBackedUp := hadPayload, signatureBackedUp := hadSignature,
          signatureInstalled := true })
      (fun _ s => Old t₀ P s.1.1) err (fun s => Matched t₀ P s.1.1) ((t, ()), false) := by
  obtain ⟨d, hd⟩ := hfile
  have hroot : P.signatureDestination ≠ [] := by
    intro hnil
    rw [hnil, t.node_nil] at hd
    cases hd
  obtain ⟨t', ht'⟩ := removeFile_succeeds hroot hd
  have hnode : ∀ q, t'.node q = if q = P.signatureDestination then none else t.node q :=
    fun q => (removeFile_file_ok ht' q).2
  refine (Act.wp_bind _ _ _).mpr ?_
  rw [Act.wp_attempt]
  refine wp_update_sure ht' ?_ ?_
  · intro t'' hl
    rw [hl.eq_of_removeFile]
    exact .inl h.free
  · refine wp_restoreBoth hsep ?_ ?_ (by rw [hnode, if_pos rfl])
    · refine ⟨?_, fun hhad => ?_, h.absent, fun q hq => ?_⟩
      · rw [hnode, if_neg hsep.destination_ne, h.free]
      · obtain ⟨d', hd', hb⟩ := h.backup hhad
        exact ⟨d', hd', by rw [hnode, if_neg hsep.signature_ne.symm, hb]⟩
      · have hq' := h.dirs q hq
        have hne' : q ≠ P.signatureDestination := by
          rintro rfl
          rw [hd] at hq'
          cases hq'
        rw [hnode, if_neg hne', hq']
    · refine ⟨fun hhad => ?_, hs.absent⟩
      obtain ⟨d', hd', hb⟩ := hs.backup hhad
      exact ⟨d', hd', by rw [hnode, if_neg (hne hhad), hb]⟩

/-! ### The whole replacement -/

lemma wp_unusedBackupPath {destination : Path} {ok : Path × UInt32 → (Tree × Unit) × Bool → Prop}
    {cut : (Tree × Unit) × Bool → Prop} (tries : Nat) (sequence : UInt32)
    (hcut : cut ((t, ()), b)) (herr : ∀ e, err e ((t, ()), b))
    (hok : ∀ k next, t.node (backupPath destination k) = none →
      ok (backupPath destination k, next) ((t, ()), b)) :
    Act.wp storeWorld (unusedBackupPath destination tries sequence) ok err cut ((t, ()), b) := by
  induction tries generalizing sequence with
  | zero => exact herr _
  | succ tries ih =>
    refine (Act.wp_bind _ _ _).mpr (wp_fileExists hcut ?_)
    split
    · exact ih _
    · rename_i hfree
      refine hok _ _ ?_
      simpa [exists?] using hfree

lemma wp_backUp {restore : StoreAct Unit} {had : Bool} {ok : Unit → (Tree × Unit) × Bool → Prop}
    {cut : (Tree × Unit) × Bool → Prop}
    (hfile : had = true → ∃ d, t.node src = some (.file d)) (hcut : cut ((t, ()), b))
    (hrestore : ∀ e, Act.wp storeWorld restore (fun _ => err e) err cut ((t, ()), false))
    (hmoved : had = true → ∀ t', Moved src dst t t' → ok () ((t', ()), b))
    (hsame : had = false → ok () ((t, ()), b)) :
    Act.wp storeWorld (backUp restore had src dst) ok err cut ((t, ()), b) := by
  cases had with
  | false => exact hsame rfl
  | true => exact wp_orRestore (hfile rfl) hcut hrestore (hmoved rfl)

/-- The two installations, when both destinations are free. -/
lemma wp_install (h : Pair t₀ P)
    (hsep : Separate P payloadBackup signatureBackup hadPayload hadSignature)
    (hp : PayloadAway t₀ P payloadBackup hadPayload t)
    (hs : SignatureAway t₀ P signatureBackup hadSignature t)
    (hpb : t₀.node payloadBackup = none) (hsb : t₀.node signatureBackup = none)
    (hfree : t.node P.signatureDestination = none)
    (hpayload : t.node P.stagedPayload = t₀.node P.stagedPayload)
    (hsignature : t.node P.stagedSignature = t₀.node P.stagedSignature) :
    Act.wp storeWorld (do
        orRestore (restorePair P payloadBackup signatureBackup
            { payloadBackedUp := hadPayload, signatureBackedUp := hadSignature })
          P.stagedSignature P.signatureDestination
        orRestore (restorePair P payloadBackup signatureBackup
            { payloadBackedUp := hadPayload, signatureBackedUp := hadSignature,
              signatureInstalled := true })
          P.stagedPayload P.payloadDestination)
      (fun _ s => New t₀ P s.1.1) (fun _ s => Old t₀ P s.1.1) (fun s => Matched t₀ P s.1.1)
      ((t, ()), b) := by
  obtain ⟨d, hd⟩ := h.stagedPayload
  obtain ⟨d', hd'⟩ := h.stagedSignature
  rw [Act.wp_bind]
  refine wp_orRestore ⟨d', hsignature.trans hd'⟩ (.inl hp.free)
    (fun e => wp_restoreBoth hsep hp hs hfree) fun t₁ hm => ?_
  have hpb' : payloadBackup ≠ P.stagedSignature := by
    rintro rfl
    rw [hpb] at hd'
    cases hd'
  have hsb' : signatureBackup ≠ P.stagedSignature := by
    rintro rfl
    rw [hsb] at hd'
    cases hd'
  have hsb'' : hadSignature = true → signatureBackup ≠ P.signatureDestination := by
    rintro hhad rfl
    obtain ⟨d'', hd'', -⟩ := hs.backup hhad
    rw [hsb] at hd''
    cases hd''
  have hp₁ := hp.moved hm (fun _ => hpb') h.destination_ne
  have hs₁ := hs.moved hm fun _ => hsb'
  have hpayload₁ : t₁.node P.stagedPayload = t₀.node P.stagedPayload := by
    rw [hm.off h.staged_ne h.stagedPayload_ne.2, hpayload]
  have hsignature₁ : t₁.node P.signatureDestination = t₀.node P.stagedSignature := by
    rw [hm.at_dst, hsignature]
  refine wp_orRestore ⟨d, hpayload₁.trans hd⟩ (.inl hp₁.free)
    (fun e => wp_restoreInstalled hsep hp₁ hs₁ ⟨d', hsignature₁.trans hd'⟩ hsb'') fun t₂ hm₂ => ?_
  refine ⟨?_, ?_⟩
  · rw [hm₂.at_dst, hpayload₁]
  · rw [hm₂.off h.stagedPayload_ne.2.symm h.destination_ne.symm, hsignature₁]

/-- The closure, once the payload is away. -/
lemma wp_commitSignature (h : Pair t₀ P) (hadPayload : Bool)
    (hp : PayloadAway t₀ P payloadBackup hadPayload t)
    (hpb : t₀.node payloadBackup = none) (hsb : t₀.node signatureBackup = none)
    (hne : P.payloadDestination ≠ signatureBackup) (hne' : P.signatureDestination ≠ payloadBackup)
    (hsame : ∀ q, q ≠ P.payloadDestination → t₀.node q ≠ none → t.node q = t₀.node q)
    (hfree : t₀.node P.signatureDestination = none → t.node P.signatureDestination = none) :
    Act.wp storeWorld (do
        backUp (restorePair P payloadBackup signatureBackup { payloadBackedUp := hadPayload })
          (t₀.exists? P.signatureDestination) P.signatureDestination signatureBackup
        orRestore (restorePair P payloadBackup signatureBackup
            { payloadBackedUp := hadPayload,
              signatureBackedUp := t₀.exists? P.signatureDestination })
          P.stagedSignature P.signatureDestination
        orRestore (restorePair P payloadBackup signatureBackup
            { payloadBackedUp := hadPayload,
              signatureBackedUp := t₀.exists? P.signatureDestination, signatureInstalled := true })
          P.stagedPayload P.payloadDestination)
      (fun _ s => New t₀ P s.1.1) (fun _ s => Old t₀ P s.1.1) (fun s => Matched t₀ P s.1.1)
      ((t, ()), b) := by
  obtain ⟨d, hd⟩ := h.stagedPayload
  obtain ⟨d', hd'⟩ := h.stagedSignature
  have hpayload := hsame _ h.stagedPayload_ne.1 (by simp [hd])
  have hsignature := hsame _ h.stagedSignature_ne.1 (by simp [hd'])
  have hold : t.node P.signatureDestination = t₀.node P.signatureDestination := by
    by_cases hnone : t₀.node P.signatureDestination = none
    · rw [hfree hnone, hnone]
    · exact hsame _ h.destination_ne.symm hnone
  rw [Act.wp_bind]
  refine wp_backUp ?_ (.inl hp.free)
    (fun e => wp_restorePayload hp h.destination_ne (fun _ => hne'.symm) hold) ?_ ?_
  · intro hhad
    rw [hold]
    exact h.signature.resolve_left (Option.isSome_iff_ne_none.mp hhad)
  · intro hhad t₁ hm
    obtain ⟨d₀, hd₀⟩ := h.signature.resolve_left (Option.isSome_iff_ne_none.mp hhad)
    have hbackups : hadPayload = true → payloadBackup ≠ signatureBackup := by
      rintro hhad' rfl
      obtain ⟨e, -, he⟩ := hp.backup hhad'
      rw [hm.free] at he
      cases he
    refine wp_install h ⟨h.destination_ne, hne, hne', fun hhad' _ => hbackups hhad'⟩
      (hp.moved hm (fun _ => hne'.symm) hne) ⟨fun _ => ⟨d₀, hd₀, ?_⟩, ?_⟩ hpb hsb hm.at_src ?_ ?_
    · rw [hm.at_dst, hold, hd₀]
    · intro hhad'
      rw [hhad] at hhad'
      cases hhad'
    · rw [hm.keeps h.stagedPayload_ne.2 (by simp [hpayload, hd]), hpayload]
    · rw [hm.keeps h.stagedSignature_ne.2 (by simp [hsignature, hd']), hsignature]
  · intro hhad
    have hnone : t₀.node P.signatureDestination = none := by
      simpa [exists?] using hhad
    refine wp_install h ⟨h.destination_ne, hne, hne', ?_⟩ hp ⟨?_, fun _ => hnone⟩ hpb hsb
      (hfree hnone) hpayload hsignature
    · intro _ hhad'
      rw [hhad] at hhad'
      cases hhad'
    · intro hhad'
      rw [hhad] at hhad'
      cases hhad'

lemma wp_commitPair (h : Pair t₀ P) (hpb : t₀.node payloadBackup = none)
    (hsb : t₀.node signatureBackup = none) (hne : P.payloadDestination ≠ signatureBackup)
    (hne' : P.signatureDestination ≠ payloadBackup) :
    Act.wp storeWorld (commitPair P payloadBackup signatureBackup
        (t₀.exists? P.payloadDestination) (t₀.exists? P.signatureDestination))
      (fun _ s => New t₀ P s.1.1) (fun _ s => Old t₀ P s.1.1) (fun s => Matched t₀ P s.1.1)
      ((t₀, ()), b) := by
  unfold commitPair
  rw [Act.wp_bind]
  refine wp_backUp ?_ (.inr (.inl ⟨rfl, rfl⟩)) (fun e => ⟨rfl, rfl⟩) ?_ ?_
  · exact fun hhad => h.payload.resolve_left (Option.isSome_iff_ne_none.mp hhad)
  · intro hhad t₁ hm
    obtain ⟨d, hd⟩ := hm.file
    refine wp_commitSignature h _ ⟨hm.at_src, fun _ => ⟨d, hd, ?_⟩, ?_, fun q => hm.dir⟩ hpb hsb
      hne hne' (fun q => hm.keeps) ?_
    · rw [hm.at_dst, hd]
    · intro hhad'
      rw [hhad] at hhad'
      cases hhad'
    · intro hnone
      rw [hm.off h.destination_ne.symm hne', hnone]
  · intro hhad
    have hnone : t₀.node P.payloadDestination = none := by
      simpa [exists?] using hhad
    refine wp_commitSignature h _ ⟨hnone, ?_, fun _ => hnone, fun _ hq => hq⟩ hpb hsb hne hne'
      (fun _ _ _ => rfl) id
    intro hhad'
    rw [hhad] at hhad'
    cases hhad'

/-- Removing an obsolete backup, whether or not it succeeds. -/
lemma wp_removeBackup {Q : Tree → Prop} {ok : Except IoError Unit → (Tree × Unit) × Bool → Prop}
    {cut : (Tree × Unit) × Bool → Prop} {backup : Path} (hQ : Q t)
    (hstep : ∀ t', t.removeFile backup = .ok t' → Q t') (hcut : ∀ t', Q t' → cut ((t', ()), b))
    (hok : ∀ r t' b', Q t' → ok r ((t', ()), b')) :
    Act.wp storeWorld (Act.attempt (update (.removeFile backup))) ok err cut ((t, ()), b) := by
  rw [Act.wp_attempt]
  refine wp_update ?_ ?_ ?_ ?_
  · intro t' hl
    rw [hl.eq_of_removeFile]
    exact hcut t hQ
  · exact fun t' ht' => hok _ _ _ (hstep t' ht')
  · exact fun kind _ => hok _ _ _ hQ
  · intro _ t' hl
    rw [hl.eq_of_removeFile]
    exact hok _ _ _ hQ

lemma New.removeFile {backup : Path} (h : New t₀ P t) (ht' : t.removeFile backup = .ok t')
    (hp : P.payloadDestination ≠ backup) (hs : P.signatureDestination ≠ backup) : New t₀ P t' := by
  refine ⟨?_, ?_⟩
  · rw [(removeFile_file_ok ht' _).2, if_neg hp, h.1]
  · rw [(removeFile_file_ok ht' _).2, if_neg hs, h.2]

lemma wp_atomicReplacePairWith (h : Pair t₀ P) (tries : Nat) (sequence : UInt32) :
    Act.wp storeWorld (atomicReplacePairWith P tries sequence)
      (fun _ s => New t₀ P s.1.1) (fun _ s => Old t₀ P s.1.1) (fun s => Matched t₀ P s.1.1)
      ((t₀, ()), b) := by
  have hsame : Matched t₀ P t₀ := .inr (.inl ⟨rfl, rfl⟩)
  unfold atomicReplacePairWith
  rw [Act.wp_bind]
  refine wp_unusedBackupPath tries sequence hsame (fun _ => ⟨rfl, rfl⟩) fun k next hpb => ?_
  rw [Act.wp_bind]
  refine wp_unusedBackupPath tries next hsame (fun _ => ⟨rfl, rfl⟩) fun k' next' hsb => ?_
  rw [Act.wp_bind]
  refine wp_fileExists hsame ?_
  rw [Act.wp_bind]
  refine wp_fileExists hsame ?_
  rw [Act.wp_bind]
  refine Act.wp_mono ?_ (fun _ _ h => h) (fun _ h => h)
    (wp_commitPair h hpb hsb (h.payload_ne_backup k') (h.signature_ne_backup k))
  rintro - ⟨⟨t, ⟨⟩⟩, b'⟩ hnew
  have hdone : ∀ t', New t₀ P t' → Matched t₀ P t' := fun t' h' => .inr (.inr h')
  -- the backups go, and the destinations stay
  have hsignature : ∀ t' b'', New t₀ P t' →
      Act.wp storeWorld (if t₀.exists? P.signatureDestination = true then do
          let _ ← (update (.removeFile (backupPath P.signatureDestination k')) : StoreAct Unit).attempt
        else pure ()) (fun _ s => New t₀ P s.1.1) (fun _ s => Old t₀ P s.1.1)
        (fun s => Matched t₀ P s.1.1) ((t', ()), b'') := by
    intro t' b'' hnew'
    split
    · rename_i hhad
      obtain ⟨d, hd⟩ := h.signature.resolve_left (Option.isSome_iff_ne_none.mp hhad)
      have hne : P.signatureDestination ≠ backupPath P.signatureDestination k' := by
        intro heq
        rw [← heq, hd] at hsb
        cases hsb
      refine (Act.wp_bind _ _ _).mpr (wp_removeBackup hnew' ?_ hdone fun _ _ _ h' => h')
      exact fun t'' ht'' => hnew'.removeFile ht'' (h.payload_ne_backup k') hne
    · exact hnew'
  change Act.wp storeWorld (if t₀.exists? P.payloadDestination = true then _ else _) _ _ _ _
  split
  · rename_i hhad
    obtain ⟨d, hd⟩ := h.payload.resolve_left (Option.isSome_iff_ne_none.mp hhad)
    have hne : P.payloadDestination ≠ backupPath P.payloadDestination k := by
      intro heq
      rw [← heq, hd] at hpb
      cases hpb
    refine (Act.wp_bind _ _ _).mpr (wp_removeBackup hnew ?_ hdone
      fun r t' b'' hnew' => hsignature t' b'' hnew')
    exact fun t' ht' => hnew.removeFile ht' hne (h.signature_ne_backup k)
  · exact hsignature t b' hnew

end Rules

/-- A pair is replaced as a whole or not at all, whatever operation is the first to fail, and a
payload is never beside the other pair's signature. -/
theorem pair_replaced {P : PairPaths} {t₀ : Tree} (h : Pair t₀ P) (tries : Nat) (sequence : UInt32)
    (cs : List (Option storeWorld.Fault)) :
    Replaced t₀ P (Act.run storeWorld (atomicReplacePairWith P tries sequence) cs ((t₀, ()), true)).1
      (Act.run storeWorld (atomicReplacePairWith P tries sequence) cs ((t₀, ()), true)).2.1.1 := by
  have hwp := wp_atomicReplacePairWith (b := true) h tries sequence
  cases hr : Act.run storeWorld (atomicReplacePairWith P tries sequence) cs ((t₀, ()), true) with
  | mk r s' =>
    rcases r with ⟨_ | _, rest⟩ | _
    · have hold := Act.wp_run_error hwp hr
      exact hold
    · have hnew := Act.wp_run_ok hwp hr
      exact hnew
    · have hmatched := Act.wp_run_lost hwp hr
      exact hmatched

/-! ### The names in the app store -/

/-- The paths of a download of the app store: `k` is the number of the staged file. -/
def downloadPaths (dir : Path) (name : String) (k : UInt32) : PairPaths where
  stagedPayload := dir ++ [s!".{name}.thistle-tmp-{k}"]
  payloadDestination := dir ++ [name]
  stagedSignature := dir ++ [s!".{name}.thistle-tmp-{k}.sig"]
  signatureDestination := dir ++ [s!"{name}.sig"]

lemma toString_string (x : String) : toString x = x := rfl

lemma concat_ne {dir : Path} {x y : String} (h : x.length ≠ y.length) : dir ++ [x] ≠ dir ++ [y] := by
  intro heq
  have hxy : x = y := by simpa using heq
  exact h (congrArg String.length hxy)

lemma backupPath_concat (dir : Path) (name : String) (sequence : UInt32) :
    backupPath (dir ++ [name]) sequence = dir ++ [s!".{name}.thistle-backup-{sequence}"] := by
  simp [backupPath]

lemma length_signature (name : String) : s!"{name}.sig".length = name.length + 4 := by
  rw [String.length_append, show s!"{name}" = name from rfl,
    show (toString ".sig").length = 4 from rfl]

lemma length_staged (name : String) (k : UInt32) :
    s!".{name}.thistle-tmp-{k}".length = name.length + 14 + (toString k).length := by
  simp only [String.length_append, toString_string]
  rw [show ".".length = 1 from rfl, show ".thistle-tmp-".length = 13 from rfl]
  omega

lemma length_stagedSignature (name : String) (k : UInt32) :
    s!".{name}.thistle-tmp-{k}.sig".length = name.length + 18 + (toString k).length := by
  simp only [String.length_append, toString_string]
  rw [show ".".length = 1 from rfl, show ".thistle-tmp-".length = 13 from rfl,
    show ".sig".length = 4 from rfl]
  omega

lemma length_backup (name : String) (sequence : UInt32) :
    s!".{name}.thistle-backup-{sequence}".length =
      name.length + 17 + (toString sequence).length := by
  simp only [String.length_append, toString_string]
  rw [show ".".length = 1 from rfl, show ".thistle-backup-".length = 16 from rfl]
  omega

/-- The names of a download fulfil what is asked of a pair. -/
lemma pair_downloadPaths {t : Tree} {dir : Path} {name : String} {k : UInt32}
    (hpayload : ∃ d, t.node (downloadPaths dir name k).stagedPayload = some (.file d))
    (hsignature : ∃ d, t.node (downloadPaths dir name k).stagedSignature = some (.file d))
    (hvacant : Vacant t (downloadPaths dir name k).payloadDestination)
    (hvacant' : Vacant t (downloadPaths dir name k).signatureDestination) :
    Pair t (downloadPaths dir name k) where
  stagedPayload := hpayload
  stagedSignature := hsignature
  payload := hvacant
  signature := hvacant'
  staged_ne := concat_ne (by rw [length_staged, length_stagedSignature]; omega)
  destination_ne := concat_ne (by rw [length_signature]; omega)
  stagedPayload_ne :=
    ⟨concat_ne (by rw [length_staged]; omega),
      concat_ne (by rw [length_staged, length_signature]; omega)⟩
  stagedSignature_ne :=
    ⟨concat_ne (by rw [length_stagedSignature]; omega),
      concat_ne (by rw [length_stagedSignature, length_signature]; omega)⟩
  payload_ne_backup sequence := by
    rw [downloadPaths, backupPath_concat]
    exact concat_ne (by rw [length_backup, length_signature]; omega)
  signature_ne_backup sequence := by
    rw [downloadPaths, backupPath_concat]
    exact concat_ne (by rw [length_backup, length_signature]; omega)

/-- A card with an installed app, its signature, and a download of both. -/
def sampleCard : Tree :=
  ([("app.elf", 1), ("app.elf.sig", 2), (".app.elf.thistle-tmp-0", 3),
      (".app.elf.thistle-tmp-0.sig", 4)].foldlM
    (fun (t : Tree) file => t.writeFile [file.1] [file.2]) FileTree.empty).toOption.getD FileTree.empty

theorem pair_replaced_sample :
    Replaced sampleCard (downloadPaths [] "app.elf" 0)
      (Act.run storeWorld (atomicReplacePairWith (downloadPaths [] "app.elf" 0) 1 1)
        (List.replicate 20 none) ((sampleCard, ()), true)).1
      (Act.run storeWorld (atomicReplacePairWith (downloadPaths [] "app.elf" 0) 1 1)
        (List.replicate 20 none) ((sampleCard, ()), true)).2.1.1 :=
  pair_replaced (pair_downloadPaths ⟨[3], rfl⟩ ⟨[4], rfl⟩ (.inr ⟨[1], rfl⟩) (.inr ⟨[2], rfl⟩)) 1 1
    (List.replicate 20 none)

end ThistleOS.AppstoreClient
