import ThistleOS.FileTree.Actions
import ThistleOS.Kernel.AppStorage

/-!
# Replacing a file in an app's storage

An app asks for one of its files to take the place of another one. The old file waits under a name
that is made from the destination's, and whatever was called so is removed first.
-/

open PowerLoss FileTree ThistleOS.BundleTransaction

namespace ThistleOS.AppStorage

abbrev Path := List String

abbrev Tree := FileTree String UInt8

abbrev StorageAct (α : Type) := FileAct String UInt8 Sig.none α

abbrev storageWorld := aloneWorld String UInt8

/-! ### The operation -/

/-- The part of a name before its last dot, if anything stands before it. -/
def fileStem (name : String) : String :=
  if name == ".." then name
  else
    match name.toList.reverse.span (· != '.') with
    | (_, _ :: c :: before) => String.ofList (c :: before).reverse
    | (_, _) => name

def withExtension (path : Path) (extension : String) : Path :=
  path.dropLast ++ [fileStem (path.getLast?.getD "") ++ "." ++ extension]

def isErr (x : StorageAct α) : StorageAct Bool := do
  match ← x.attempt with
  | .ok _ => pure false
  | .error _ => pure true

def isFile (path : Path) : StorageAct Bool := do
  return !(← isErr (read path))

/-- There are no links in the tree: only a failing query counts as one. -/
def isSymlink (path : Path) : StorageAct Bool := isErr (read path)

/-- The second half: the old destination, if there was one, is out of the way. -/
def putInPlace (source destination backup : Path) (hadDestination : Bool) : StorageAct Int := do
  if ← isErr (update (.rename source destination)) then
    if hadDestination then
      let _ ← (update (.rename backup destination) : StorageAct Unit).attempt
    return -1
  else
    if hadDestination then
      let _ ← (update (.removeFile backup) : StorageAct Unit).attempt
    return 0

def moveAside (source destination backup : Path) : StorageAct Int := do
  if ← fileExists destination then
    if ← isErr (update (.rename destination backup)) then return -1
    else putInPlace source destination backup true
  else putInPlace source destination backup false

def clearBackup (source destination backup : Path) : StorageAct Int := do
  if ← fileExists backup then
    if ← isErr (update (.removeFile backup)) then return -1
    else moveAside source destination backup
  else moveAside source destination backup

def replaceStoragePath (source destination : Path) : StorageAct Int := do
  if source == destination then return -1
  else if !(← isFile source) then return -1
  else if ← isSymlink source then return -1
  else if destination == [] then return -1
  else if ← isErr (update (.createDirAll destination.dropLast)) then return -1
  else clearBackup source destination (withExtension destination "thistle-backup")

/-! ### What a replacement promises -/

variable {source destination backup : Path} {t₀ t t' : Tree} {d : List UInt8} {b : Bool}

/-- Every file is still there. -/
def Keeps (t₀ t : Tree) : Prop := ∀ q d, t₀.node q = some (.file d) → t.node q = some (.file d)

/-- The replacement has failed: the destination is what it was, and no file has changed. -/
def Failed (destination : Path) (t₀ t : Tree) : Prop :=
  t.node destination = t₀.node destination ∧ Keeps t₀ t

/-- The replacement is made: the source has moved, and no other file has changed. -/
def Succeeded (source destination : Path) (t₀ t : Tree) : Prop :=
  (∃ d, t₀.node source = some (.file d) ∧ t.node destination = some (.file d)) ∧
    t.node source = none ∧
    ∀ q d, q ≠ source → q ≠ destination → t₀.node q = some (.file d) → t.node q = some (.file d)

/-- What the destination held or was to hold is still somewhere in the tree. -/
def Survives (source destination : Path) (t₀ t : Tree) : Prop :=
  (∃ d, t₀.node destination = some (.file d) ∨ t₀.node source = some (.file d)) →
    ∃ q d, (t₀.node destination = some (.file d) ∨ t₀.node source = some (.file d)) ∧
      t.node q = some (.file d)

/-- What is asked of the tree however the call ends. -/
def Lossless (source destination : Path) (t₀ : Tree) :
    PowerLoss.Outcome (Except IoError Int) (Option storageWorld.Fault) → Tree → Prop
  | .done (.ok status) _, t =>
    (status = 0 ∧ Succeeded source destination t₀ t) ∨ (status = -1 ∧ Failed destination t₀ t)
  | .done (.error _) _, _ => False
  | .lost, t => Survives source destination t₀ t

/-- The calls that lose a file: they come to the backup's name, and there is a file under it, or it
is free for a destination that is a directory with files in it. -/
def Clobbers (source destination : Path) (t : Tree) : Prop :=
  source ≠ destination ∧ destination ≠ [] ∧ (∃ d, t.node source = some (.file d)) ∧
    ((∃ d, t.node (withExtension destination "thistle-backup") = some (.file d)) ∨
      (t.node (withExtension destination "thistle-backup") = none ∧
        t.node destination = some .dir ∧ ¬ destination <+: source ∧
        ∃ q d, destination <+: q ∧ t.node q = some (.file d)))

/-! ### No loss outside -/

section Rules

variable {ok : Int → (Tree × Unit) × Bool → Prop} {err : IoError → (Tree × Unit) × Bool → Prop}
  {cut : (Tree × Unit) × Bool → Prop}

lemma wp_isErr {α : Type} {x : StorageAct α} {ok : Bool → (Tree × Unit) × Bool → Prop}
    {s : (Tree × Unit) × Bool} :
    Act.wp storageWorld (isErr x) ok err cut s ↔
      Act.wp storageWorld x (fun _ => ok false) (fun _ => ok true) cut s := by
  rw [isErr, Act.wp_bind, Act.wp_attempt]
  rfl

/-- What the call leaves behind, as the postconditions of its parts. -/
def LosslessAct (source destination : Path) (t₀ : Tree) (x : StorageAct Int)
    (s : (Tree × Unit) × Bool) : Prop :=
  Act.wp storageWorld x
    (fun status s => (status = 0 ∧ Succeeded source destination t₀ s.1.1) ∨
      (status = -1 ∧ Failed destination t₀ s.1.1))
    (fun _ _ => False) (fun s => Survives source destination t₀ s.1.1) s

lemma Keeps.survives (h : Keeps t₀ t) : Survives source destination t₀ t := by
  rintro ⟨d, hd | hd⟩
  · exact ⟨destination, d, .inl hd, h _ _ hd⟩
  · exact ⟨source, d, .inr hd, h _ _ hd⟩

lemma Succeeded.survives (h : Succeeded source destination t₀ t) :
    Survives source destination t₀ t := by
  obtain ⟨⟨d, hd, hd'⟩, -⟩ := h
  exact fun _ => ⟨destination, d, .inr hd, hd'⟩

lemma failed_of_paves (h : Paves destination t₀ t) : Failed destination t₀ t := by
  refine ⟨h.node_self, fun q d hd => ?_⟩
  rcases h q with heq | ⟨hnone, -⟩
  · rw [heq, hd]
  · rw [hnone] at hd
    cases hd

lemma losslessAct_failed (h : Failed destination t₀ t) :
    LosslessAct source destination t₀ (pure (-1)) ((t, ()), b) := .inr ⟨rfl, h⟩

lemma length_withExtension (hne : destination ≠ []) (extension : String) :
    (withExtension destination extension).length = destination.length := by
  have hpos := List.length_pos_of_ne_nil hne
  simp only [withExtension, List.length_append, List.length_dropLast, List.length_singleton]
  omega

/-- The parent directories are not called like the backup. -/
lemma node_withExtension_of_paves (h : Paves destination t₀ t) (hne : destination ≠ [])
    (extension : String) :
    t.node (withExtension destination extension) = t₀.node (withExtension destination extension) := by
  rcases h (withExtension destination extension) with heq | ⟨-, -, hle, hne'⟩
  · exact heq
  · exact absurd (hle.eq_of_length (length_withExtension hne extension)) hne'

/-- The destination was absent. -/
lemma lossless_putInPlace_false (hne : source ≠ destination) (h : Paves destination t₀ t)
    (hd : t₀.node source = some (.file d)) :
    LosslessAct source destination t₀ (putInPlace source destination backup false) ((t, ()), b) := by
  have hfailed := failed_of_paves h
  have hsrc := hfailed.2 _ _ hd
  refine (Act.wp_bind _ _ _).mpr (wp_isErr.mpr (wp_update ?_ ?_ ?_ ?_))
  · intro t' hl
    rw [hl.eq_of_rename]
    exact hfailed.2.survives
  · intro t' ht'
    have hnode := rename_file_ok ht' hsrc
    refine .inl ⟨rfl, ⟨d, hd, by rw [hnode, if_pos rfl]⟩, by rw [hnode, if_neg hne, if_pos rfl], ?_⟩
    intro q e hqs hqd he
    rw [hnode, if_neg hqd, if_neg hqs, hfailed.2 _ _ he]
  · exact fun kind _ => losslessAct_failed hfailed
  · intro _ t' hl
    rw [hl.eq_of_rename]
    exact losslessAct_failed hfailed

/-- The destination waits under the backup's name, which was free. -/
structure Aside (source destination backup : Path) (t₀ t t₁ : Tree) : Prop where
  paves : Paves destination t₀ t
  rename : t.rename destination backup = .ok t₁
  free : t₀.node backup = none
  source_ne : source ≠ destination
  /-- No file lies below the destination, unless the source does. -/
  below : ¬ destination <+: source → ∀ q d, destination <+: q → q ≠ destination →
    t₀.node q ≠ some (.file d)

variable {t₁ t₂ : Tree}

namespace Aside

/-- A file outside of the destination has not moved. -/
lemma node_file (h : Aside source destination backup t₀ t t₁) {q : Path}
    (hd : t₀.node q = some (.file d)) (hq : ¬ destination <+: q) : t₁.node q = some (.file d) := by
  have hkept := (failed_of_paves h.paves).2 _ _ hd
  obtain ⟨-, hfree, -, hnode⟩ := rename_ok h.rename
  have hback : ¬ backup <+: q := by
    intro hle
    exact node_ne_none_above hle (by simp [hkept]) hfree
  rw [hnode, if_neg hback, if_neg hq, hkept]

lemma survives (h : Aside source destination backup t₀ t t₁)
    (hd : t₀.node source = some (.file d)) : Survives source destination t₀ t₁ := by
  intro _
  by_cases hle : destination <+: source
  · obtain ⟨r, rfl⟩ := hle
    refine ⟨backup ++ r, d, .inr hd, ?_⟩
    rw [(rename_ok h.rename).2.2.2, if_pos (List.prefix_append backup r), List.drop_left]
    exact (failed_of_paves h.paves).2 _ _ hd
  · exact ⟨source, d, .inr hd, h.node_file hd hle⟩

lemma succeeded (h : Aside source destination backup t₀ t t₁)
    (hd : t₀.node source = some (.file d)) (ht₂ : t₁.rename source destination = .ok t₂) :
    Succeeded source destination t₀ t₂ := by
  obtain ⟨hpresent, -⟩ := rename_ok ht₂
  have hout : ¬ destination <+: source := by
    intro hle
    have hkept := (failed_of_paves h.paves).2 _ _ hd
    obtain ⟨-, hfree, -, hnode⟩ := rename_ok h.rename
    have hback : ¬ backup <+: source := fun hle' =>
      node_ne_none_above hle' (by simp [hkept]) hfree
    rw [hnode, if_neg hback, if_pos hle] at hpresent
    exact hpresent rfl
  have hnode := rename_file_ok ht₂ (h.node_file hd hout)
  refine ⟨⟨d, hd, by rw [hnode, if_pos rfl]⟩, by rw [hnode, if_neg h.source_ne, if_pos rfl], ?_⟩
  intro q e hqs hqd he
  rw [hnode, if_neg hqd, if_neg hqs]
  exact h.node_file he fun hle => h.below hout q e hle hqd he

end Aside

/-- The old destination is removed at last, or not. -/
lemma Succeeded.removeFile (h : Succeeded source destination t₀ t) (hfree : t₀.node backup = none)
    (hne : destination ≠ backup) (ht' : t.removeFile backup = .ok t') :
    Succeeded source destination t₀ t' := by
  have hnode := fun q => (removeFile_file_ok ht' q).2
  obtain ⟨⟨d, hd, hd'⟩, hgone, hothers⟩ := h
  refine ⟨⟨d, hd, by rw [hnode, if_neg hne, hd']⟩, ?_, ?_⟩
  · rw [hnode, hgone, ite_self]
  · intro q e hqs hqd he
    have hq : q ≠ backup := by
      rintro rfl
      rw [hfree] at he
      cases he
    rw [hnode, if_neg hq, hothers q e hqs hqd he]

lemma lossless_putInPlace_true (h : Aside source destination backup t₀ t t₁)
    (hd : t₀.node source = some (.file d)) :
    LosslessAct source destination t₀ (putInPlace source destination backup true) ((t₁, ()), b) := by
  -- a failed renaming is followed by the one that restores the destination
  have hrestore : Act.wp storageWorld (do
      let _ ← (update (.rename backup destination) : StorageAct Unit).attempt
      return (-1 : Int)) (fun status s => (status = 0 ∧ Succeeded source destination t₀ s.1.1) ∨
        (status = -1 ∧ Failed destination t₀ s.1.1)) (fun _ _ => False)
        (fun s => Survives source destination t₀ s.1.1) ((t₁, ()), false) := by
    obtain ⟨t₂, ht₂, hnode⟩ := rename_back h.rename
    rw [Act.wp_bind, Act.wp_attempt]
    refine wp_update_sure ht₂ ?_ ?_
    · intro t' hl
      rw [hl.eq_of_rename]
      exact h.survives hd
    · obtain ⟨hself, hkeeps⟩ := failed_of_paves h.paves
      exact .inr ⟨rfl, by rw [hnode, hself], fun q e he => by rw [hnode, hkeeps q e he]⟩
  have hne : destination ≠ backup := by
    rintro rfl
    exact (rename_ok h.rename).2.2.1 List.prefix_rfl
  refine (Act.wp_bind _ _ _).mpr (wp_isErr.mpr (wp_update ?_ ?_ ?_ ?_))
  · intro t' hl
    rw [hl.eq_of_rename]
    exact h.survives hd
  · intro t₂ ht₂
    have hdone := h.succeeded hd ht₂
    refine (Act.wp_bind _ _ _).mpr ((Act.wp_attempt _ _).mpr (wp_update ?_ ?_ ?_ ?_))
    · intro t' hl
      rw [hl.eq_of_removeFile]
      exact hdone.survives
    · exact fun t' ht' => .inl ⟨rfl, hdone.removeFile h.free hne ht'⟩
    · exact fun kind _ => .inl ⟨rfl, hdone⟩
    · intro _ t' hl
      rw [hl.eq_of_removeFile]
      exact .inl ⟨rfl, hdone⟩
  · exact fun kind _ => hrestore
  · intro _ t' hl
    rw [hl.eq_of_rename]
    exact hrestore

lemma lossless_moveAside (hclob : ¬ Clobbers source destination t₀) (hne : source ≠ destination)
    (hroot : destination ≠ []) (h : Paves destination t₀ t) (hd : t₀.node source = some (.file d))
    (hfree : t₀.node (withExtension destination "thistle-backup") = none) :
    LosslessAct source destination t₀
      (moveAside source destination (withExtension destination "thistle-backup")) ((t, ()), b) := by
  have hfailed := failed_of_paves h
  refine (Act.wp_bind _ _ _).mpr (wp_fileExists hfailed.2.survives ?_)
  split
  · refine (Act.wp_bind _ _ _).mpr (wp_isErr.mpr (wp_update ?_ ?_ ?_ ?_))
    · intro t' hl
      rw [hl.eq_of_rename]
      exact hfailed.2.survives
    · intro t₁ ht₁
      refine lossless_putInPlace_true ⟨h, ht₁, hfree, hne, ?_⟩ hd
      intro hout q e hle hqne he
      have hdir : t₀.node destination = some .dir := t₀.dir_above hle hqne.symm (by simp [he])
      exact hclob ⟨hne, hroot, ⟨d, hd⟩, .inr ⟨hfree, hdir, hout, q, e, hle, he⟩⟩
    · exact fun kind _ => losslessAct_failed hfailed
    · intro _ t' hl
      rw [hl.eq_of_rename]
      exact losslessAct_failed hfailed
  · exact lossless_putInPlace_false hne h hd

lemma lossless_clearBackup (hclob : ¬ Clobbers source destination t₀) (hne : source ≠ destination)
    (hroot : destination ≠ []) (h : Paves destination t₀ t)
    (hd : t₀.node source = some (.file d)) :
    LosslessAct source destination t₀
      (clearBackup source destination (withExtension destination "thistle-backup"))
      ((t, ()), b) := by
  have hfailed := failed_of_paves h
  have hbackup := node_withExtension_of_paves h hroot "thistle-backup"
  refine (Act.wp_bind _ _ _).mpr (wp_fileExists hfailed.2.survives ?_)
  split
  · -- the name is taken, and not by a file
    refine (Act.wp_bind _ _ _).mpr (wp_isErr.mpr (wp_update ?_ ?_ ?_ ?_))
    · intro t' hl
      rw [hl.eq_of_removeFile]
      exact hfailed.2.survives
    · intro t' ht'
      obtain ⟨⟨e, he⟩, -⟩ := removeFile_file_ok ht' []
      exact absurd ⟨hne, hroot, ⟨d, hd⟩, .inl ⟨e, hbackup ▸ he⟩⟩ hclob
    · exact fun kind _ => losslessAct_failed hfailed
    · intro _ t' hl
      rw [hl.eq_of_removeFile]
      exact losslessAct_failed hfailed
  · rename_i hfree
    refine lossless_moveAside hclob hne hroot h hd ?_
    rw [← hbackup]
    simpa [exists?] using hfree

lemma lossless_replaceStoragePath (hclob : ¬ Clobbers source destination t₀) :
    LosslessAct source destination t₀ (replaceStoragePath source destination) ((t₀, ()), b) := by
  have hsame : Failed destination t₀ t₀ := ⟨rfl, fun _ _ hd => hd⟩
  unfold replaceStoragePath
  split
  · exact losslessAct_failed hsame
  rename_i hne
  have hne : source ≠ destination := by simpa using hne
  refine (Act.wp_bind _ _ _).mpr ((Act.wp_bind _ _ _).mpr (wp_isErr.mpr (wp_read hsame.2.survives
    ?_ (fun _ _ => losslessAct_failed hsame) fun _ => losslessAct_failed hsame)))
  intro d hd
  have hd := readFile_ok hd
  refine (Act.wp_bind _ _ _).mpr (wp_isErr.mpr (wp_read hsame.2.survives
    ?_ (fun _ _ => losslessAct_failed hsame) fun _ => losslessAct_failed hsame))
  intro _ _
  rw [if_neg Bool.false_ne_true]
  split
  · exact losslessAct_failed hsame
  rename_i hroot
  have hroot : destination ≠ [] := by simpa using hroot
  refine (Act.wp_bind _ _ _).mpr (wp_isErr.mpr (wp_update ?_ ?_ ?_ ?_))
  · exact fun t' hl => (failed_of_paves (hl.paves hroot)).2.survives
  · intro t ht
    exact lossless_clearBackup hclob hne hroot (createDirAll_paves hroot List.prefix_rfl ht) hd
  · exact fun kind _ => losslessAct_failed hsame
  · exact fun _ t' hl => losslessAct_failed (failed_of_paves (hl.paves hroot))

end Rules

/-! ### The loss inside -/

section Runs

variable {α : Type} {x : StorageAct α} {a : α} {e : IoError} {s s' : (Tree × Unit) × Bool}
  {cs rest : List (Option storageWorld.Fault)}

lemma run_isErr_ok (h : Act.run storageWorld x cs s = (.done (.ok a) rest, s')) :
    Act.run storageWorld (isErr x) cs s = (.done (.ok false) rest, s') := by
  rw [isErr, Act.run_bind, Act.run_attempt, h]
  exact Act.run_pure _ _ _

lemma run_isErr_error (h : Act.run storageWorld x cs s = (.done (.error e) rest, s')) :
    Act.run storageWorld (isErr x) cs s = (.done (.ok true) rest, s') := by
  rw [isErr, Act.run_bind, Act.run_attempt, h]
  exact Act.run_pure _ _ _

/-- The call comes to the backup's name. -/
lemma run_replaceStoragePath (hne : source ≠ destination) (hroot : destination ≠ [])
    (hd : t₀.node source = some (.file d))
    (ht : t₀.createDirAll destination.dropLast = .ok t) :
    Act.run storageWorld (replaceStoragePath source destination) (none :: none :: none :: cs)
        ((t₀, ()), b) =
      Act.run storageWorld
        (clearBackup source destination (withExtension destination "thistle-backup")) cs
        ((t, ()), b) := by
  have hread : t₀.readFile source = .ok d := readFile_of_file hd
  have hisFile : Act.run storageWorld (isFile source) (none :: none :: none :: cs) ((t₀, ()), b) =
      (.done (.ok true) (none :: none :: cs), ((t₀, ()), b)) := by
    rw [isFile, Act.run_bind_ok (run_isErr_ok (run_read hread))]
    exact Act.run_pure _ _ _
  have heffect : t₀.effect (.createDirAll destination.dropLast) = .ok t := ht
  rw [replaceStoragePath, if_neg (by simpa using hne), Act.run_bind_ok hisFile,
    if_neg (by decide), isSymlink, Act.run_bind_ok (run_isErr_ok (run_read hread)),
    if_neg Bool.false_ne_true, if_neg (by simpa using hroot),
    Act.run_bind_ok (run_isErr_ok (run_update_ok heffect)), if_neg Bool.false_ne_true]

/-- An operation that fails and does nothing. -/
def plainFault : storageWorld.Fault := .inl { cutsPower := false, amount := 0, keep := fun _ => true }

lemma run_rename_fault {src dst : Path} :
    Act.run storageWorld (isErr (update (.rename src dst))) (some plainFault :: cs) ((t, ()), true) =
      (.done (.ok true) cs, ((t, ()), false)) :=
  run_isErr_error (run_update_fault (u := .rename src dst) rfl)

/-- The file under the backup's name is gone when the next renaming fails. -/
lemma run_clearBackup_file (hroot : withExtension destination "thistle-backup" ≠ [])
    (hd : t.node (withExtension destination "thistle-backup") = some (.file d)) :
    ∃ t', t.removeFile (withExtension destination "thistle-backup") = .ok t' ∧
      Act.run storageWorld
          (clearBackup source destination (withExtension destination "thistle-backup"))
          [none, none, none, some plainFault] ((t, ()), true) =
        (.done (.ok (-1)) [], ((t', ()), false)) := by
  obtain ⟨t', ht'⟩ := removeFile_succeeds hroot hd
  have hthere : t.exists? (withExtension destination "thistle-backup") = true := by
    simp [exists?, hd]
  have heffect : t.effect (.removeFile (withExtension destination "thistle-backup")) = .ok t' := ht'
  refine ⟨t', ht', ?_⟩
  rw [clearBackup, Act.run_bind_ok run_fileExists, if_pos hthere,
    Act.run_bind_ok (run_isErr_ok (run_update_ok heffect)), if_neg Bool.false_ne_true, moveAside,
    Act.run_bind_ok run_fileExists]
  split
  · rw [Act.run_bind_ok run_rename_fault]
    exact Act.run_pure _ _ _
  · rw [putInPlace, Act.run_bind_ok run_rename_fault]
    exact Act.run_pure _ _ _

/-- A directory moves to the backup's name and stays there. -/
lemma run_clearBackup_dir {t₁ t₂ : Tree}
    (hfree : t.node (withExtension destination "thistle-backup") = none)
    (hdir : t.node destination = some .dir)
    (ht₁ : t.rename destination (withExtension destination "thistle-backup") = .ok t₁)
    (ht₂ : t₁.rename source destination = .ok t₂)
    (hkind : ∃ kind, t₂.removeFile (withExtension destination "thistle-backup") = .error kind) :
    Act.run storageWorld
        (clearBackup source destination (withExtension destination "thistle-backup"))
        [none, none, none, none, none] ((t, ()), true) =
      (.done (.ok 0) [], ((t₂, ()), false)) := by
  obtain ⟨kind, hkind⟩ := hkind
  have hthere : t.exists? destination = true := by simp [exists?, hdir]
  have hgone : ¬ t.exists? (withExtension destination "thistle-backup") = true := by
    simp [exists?, hfree]
  have heffect₁ : t.effect (.rename destination (withExtension destination "thistle-backup")) =
      .ok t₁ := ht₁
  have heffect₂ : t₁.effect (.rename source destination) = .ok t₂ := ht₂
  have heffect₃ : t₂.effect (.removeFile (withExtension destination "thistle-backup")) =
      .error kind := hkind
  rw [clearBackup, Act.run_bind_ok run_fileExists, if_neg hgone, moveAside,
    Act.run_bind_ok run_fileExists, if_pos hthere,
    Act.run_bind_ok (run_isErr_ok (run_update_ok heffect₁)), if_neg Bool.false_ne_true, putInPlace,
    Act.run_bind_ok (run_isErr_ok (run_update_ok heffect₂)), if_neg Bool.false_ne_true]
  change Act.run storageWorld ((update (.removeFile _) : StorageAct Unit).attempt >>= _) _ _ = _
  rw [Act.run_bind, Act.run_attempt, run_update_error heffect₃]
  exact Act.run_pure _ _ _

end Runs

lemma createDirAll_of_dir {p : Path} (h : t.node p = some .dir) :
    ∃ t', t.createDirAll p = .ok t' := by
  refine createDirAll_succeeds fun q d hle hd => ?_
  by_cases hne : q = p
  · rw [hne, h] at hd
    cases hd
  · rw [t.dir_above hle hne (by simp [h])] at hd
    cases hd

/-- A directory gives way to the source. -/
lemma renamings_of_dir (hne : source ≠ destination) (hroot : destination ≠ [])
    (hd : t.node source = some (.file d))
    (hfree : t.node (withExtension destination "thistle-backup") = none)
    (hdir : t.node destination = some .dir) (hout : ¬ destination <+: source) :
    ∃ t₁ t₂, t.rename destination (withExtension destination "thistle-backup") = .ok t₁ ∧
      t₁.rename source destination = .ok t₂ ∧
      t₂.node (withExtension destination "thistle-backup") = some .dir ∧
      t₂.node destination = some (.file d) := by
  have habove : t.node destination.dropLast = some .dir := t.dir_dropLast (by simp [hdir])
  have hback : withExtension destination "thistle-backup" ≠ destination := by
    intro heq
    rw [heq, hdir] at hfree
    cases hfree
  have hside : ¬ destination <+: withExtension destination "thistle-backup" := fun hle =>
    hback (hle.eq_of_length (length_withExtension hroot "thistle-backup").symm).symm
  have hmoved : ∃ t', t.rename destination (withExtension destination "thistle-backup") = .ok t' :=
    rename_succeeds (by simp [hdir]) hfree (by simpa [withExtension] using habove) hside
  obtain ⟨t₁, ht₁⟩ := hmoved
  have hnode := (rename_ok ht₁).2.2.2
  have hout' : ¬ withExtension destination "thistle-backup" <+: source := fun hle =>
    node_ne_none_above hle (by simp [hd]) hfree
  have hd₁ : t₁.node source = some (.file d) := by rw [hnode, if_neg hout', if_neg hout, hd]
  have hshort : ∀ p : Path, p.length = destination.length → ¬ p <+: destination.dropLast := by
    intro p hp hle
    have hlen := hle.length_le
    have hpos := List.length_pos_of_ne_nil hroot
    rw [List.length_dropLast] at hlen
    omega
  have hside' : ¬ withExtension destination "thistle-backup" <+: destination := fun hle =>
    hback (hle.eq_of_length (length_withExtension hroot "thistle-backup"))
  have hnone : t₁.node destination = none := by
    rw [hnode, if_neg hside', if_pos List.prefix_rfl]
  have habove₁ : t₁.node destination.dropLast = some .dir := by
    rw [hnode, if_neg (hshort _ (length_withExtension hroot "thistle-backup")),
      if_neg (hshort _ rfl), habove]
  have hnsub : ¬ source <+: destination := by
    intro hle
    rw [t.dir_above hle hne (by simp [hdir])] at hd
    cases hd
  obtain ⟨t₂, ht₂⟩ := rename_succeeds (by simp [hd₁]) hnone habove₁ hnsub
  have hnode₂ := rename_file_ok ht₂ hd₁
  have hsource : withExtension destination "thistle-backup" ≠ source := fun heq =>
    hout' (heq ▸ List.prefix_rfl)
  refine ⟨t₁, t₂, ht₁, ht₂, ?_, by rw [hnode₂, if_pos rfl]⟩
  rw [hnode₂, if_neg hback, if_neg hsource, hnode, if_pos List.prefix_rfl, List.drop_length,
    List.append_nil, hdir]

/-- A call that clobbers a file loses it when an operation fails, and a directory's files even when
none does. -/
lemma not_lossless_of_clobbers (h : Clobbers source destination t₀) :
    ∃ cs, ¬ Lossless source destination t₀
      (Act.run storageWorld (replaceStoragePath source destination) cs ((t₀, ()), true)).1
      (Act.run storageWorld (replaceStoragePath source destination) cs ((t₀, ()), true)).2.1.1 := by
  obtain ⟨hne, hroot, ⟨d, hd⟩, hcase⟩ := h
  have hlength := length_withExtension hroot "thistle-backup"
  have hbroot : withExtension destination "thistle-backup" ≠ [] := by
    intro hnil
    rw [hnil] at hlength
    exact hroot (List.length_eq_zero_iff.mp hlength.symm)
  rcases hcase with ⟨e, he⟩ | ⟨hfree, hdir, hout, q, e, hle, he⟩
  · have habove : t₀.node destination.dropLast = some .dir := by
      have hdir := t₀.dir_dropLast (p := withExtension destination "thistle-backup") (by simp [he])
      simpa [withExtension] using hdir
    obtain ⟨t, ht⟩ := createDirAll_of_dir habove
    have hkeeps := (failed_of_paves (createDirAll_paves hroot List.prefix_rfl ht)).2
    obtain ⟨t', ht', hrun⟩ := run_clearBackup_file hbroot (hkeeps _ _ he)
    refine ⟨[none, none, none, none, none, none, some plainFault], ?_⟩
    rw [run_replaceStoragePath hne hroot hd ht, hrun]
    rintro (⟨hstatus, -⟩ | ⟨-, -, hall⟩)
    · exact absurd hstatus (by decide)
    · have hgone := (removeFile_file_ok ht' (withExtension destination "thistle-backup")).2
      rw [if_pos rfl, hall _ _ he] at hgone
      cases hgone
  · obtain ⟨t, ht⟩ := createDirAll_of_dir (t₀.dir_dropLast (p := destination) (by simp [hdir]))
    have hpaves := createDirAll_paves hroot List.prefix_rfl ht
    obtain ⟨t₁, t₂, ht₁, ht₂, hback, hplace⟩ := renamings_of_dir hne hroot
      ((failed_of_paves hpaves).2 _ _ hd)
      ((node_withExtension_of_paves hpaves hroot "thistle-backup").trans hfree)
      (hpaves.node_self.trans hdir) hout
    have hkind : ∃ kind, t₂.removeFile (withExtension destination "thistle-backup") =
        .error kind := by
      cases hr : t₂.removeFile (withExtension destination "thistle-backup") with
      | error kind => exact ⟨kind, rfl⟩
      | ok t₃ =>
        obtain ⟨⟨e', he'⟩, -⟩ := removeFile_file_ok hr []
        rw [hback] at he'
        cases he'
    have hrun := run_clearBackup_dir
      ((node_withExtension_of_paves hpaves hroot "thistle-backup").trans hfree)
      (hpaves.node_self.trans hdir) ht₁ ht₂ hkind
    refine ⟨[none, none, none, none, none, none, none, none], ?_⟩
    rw [run_replaceStoragePath hne hroot hd ht, hrun]
    rintro (⟨-, -, -, hothers⟩ | ⟨hstatus, -⟩)
    · have hqs : q ≠ source := by
        rintro rfl
        exact hout hle
      have hqd : q ≠ destination := by
        rintro rfl
        rw [hdir] at he
        cases he
      have hq : t₂.node q = some (.file e) := hothers q e hqs hqd he
      have hdir₂ := t₂.dir_above hle hqd.symm (by simp [hq])
      rw [hplace] at hdir₂
      cases hdir₂
    · exact absurd hstatus (by decide)

/-- No file is lost, whatever operation fails and wherever the power is cut, exactly when nothing is
called like the backup that the call makes, and the destination is no directory with files. -/
theorem replace_lossless_iff (source destination : Path) (t₀ : Tree) :
    (∀ cs, Lossless source destination t₀
      (Act.run storageWorld (replaceStoragePath source destination) cs ((t₀, ()), true)).1
      (Act.run storageWorld (replaceStoragePath source destination) cs ((t₀, ()), true)).2.1.1) ↔
      ¬ Clobbers source destination t₀ := by
  constructor
  · intro hall hclob
    obtain ⟨cs, hcs⟩ := not_lossless_of_clobbers hclob
    exact hcs (hall cs)
  · intro hclob cs
    have hwp := lossless_replaceStoragePath (b := true) hclob
    cases hr : Act.run storageWorld (replaceStoragePath source destination) cs
        ((t₀, ()), true) with
    | mk r s' =>
      rcases r with ⟨_ | _, rest⟩ | _
      · have herror := Act.wp_run_error hwp hr
        exact herror
      · have hok := Act.wp_run_ok hwp hr
        exact hok
      · have hlost := Act.wp_run_lost hwp hr
        exact hlost

/-- The path in the tree of a resolved path. -/
def treePath (resolved : String) : Path :=
  (components resolved).filterMap fun
    | .normal name => some name
    | _ => none

/-- A storage whose list has a neighbour that is called like its backup. -/
def sampleStorage : Tree :=
  ([("new.txt", 1), ("list.txt", 2), ("list.thistle-backup", 3)].foldlM
    (fun (t : Tree) file => t.writeFile ["spiffs", "data", "apps", "notes", file.1] [file.2])
    (((FileTree.empty : Tree).createDirAll ["spiffs", "data", "apps", "notes"]).toOption.getD
      FileTree.empty)).toOption.getD FileTree.empty

/-- The neighbour is lost although every operation succeeds. -/
theorem replace_clobbers :
    ¬ ∀ (appId requested requested' base source destination : String) (t₀ : Tree)
      (cs : List (Option storageWorld.Fault)),
      resolveAppStoragePath appId requested base = some source →
      resolveAppStoragePath appId requested' base = some destination →
      Lossless (treePath source) (treePath destination) t₀
        (Act.run storageWorld (replaceStoragePath (treePath source) (treePath destination)) cs
          ((t₀, ()), true)).1
        (Act.run storageWorld (replaceStoragePath (treePath source) (treePath destination)) cs
          ((t₀, ()), true)).2.1.1 := by
  intro hall
  have hloss := hall "notes" "new.txt" "list.txt" "/spiffs/data/apps"
    "/spiffs/data/apps/notes/new.txt" "/spiffs/data/apps/notes/list.txt" sampleStorage
    (List.replicate 9 none) (by decide +kernel) (by decide +kernel)
  have hsource : treePath "/spiffs/data/apps/notes/new.txt" =
      ["spiffs", "data", "apps", "notes", "new.txt"] := by decide +kernel
  have hdestination : treePath "/spiffs/data/apps/notes/list.txt" =
      ["spiffs", "data", "apps", "notes", "list.txt"] := by decide +kernel
  rw [hsource, hdestination] at hloss
  have hgone : (Act.run storageWorld (replaceStoragePath
      ["spiffs", "data", "apps", "notes", "new.txt"] ["spiffs", "data", "apps", "notes", "list.txt"])
      (List.replicate 9 none) ((sampleStorage, ()), true)).2.1.1.isFile
      ["spiffs", "data", "apps", "notes", "list.thistle-backup"] = false := by decide +kernel
  have hthere : sampleStorage.node ["spiffs", "data", "apps", "notes", "list.thistle-backup"] =
      some (.file [3]) := by decide +kernel
  rw [← Bool.not_eq_true, isFile_eq_true, not_exists] at hgone
  have hdone : (Act.run storageWorld (replaceStoragePath
      ["spiffs", "data", "apps", "notes", "new.txt"] ["spiffs", "data", "apps", "notes", "list.txt"])
      (List.replicate 9 none) ((sampleStorage, ()), true)).1 = .done (.ok 0) [] := rfl
  rw [hdone] at hloss
  rcases hloss with ⟨-, -, -, hothers⟩ | ⟨hstatus, -⟩
  · exact hgone [3] (hothers _ _ (by decide) (by decide) hthere)
  · exact absurd hstatus (by decide)

end ThistleOS.AppStorage
