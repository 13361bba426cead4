import ThistleOS.Except
import ThistleOS.FileTree.Basic
import ThistleOS.PowerLoss.Logic

/-!
# File operations and the machine that performs them

The operations of a standard library on a file tree, with the errors they report, and the machine
that performs them. A fault makes an operation report a device error, or cuts the power, after a
part of its work: some of the directories made, some of the bytes written, some of the entries of a
directory deleted. Renaming, removing a file and every query happen at once or not at all.
-/

open PowerLoss

namespace FileTree

inductive ErrorKind
  | notFound
  | alreadyExists
  | notADirectory
  | isADirectory
  | invalidInput
  | invalidData
  | other
  deriving DecidableEq, Repr

structure IoError where
  kind : ErrorKind
  message : String
  deriving DecidableEq, Repr

def ErrorKind.description : ErrorKind → String
  | .notFound => "entity not found"
  | .alreadyExists => "entity already exists"
  | .notADirectory => "not a directory"
  | .isADirectory => "is a directory"
  | .invalidInput => "invalid input parameter"
  | .invalidData => "invalid data"
  | .other => "other error"

/-- An error that carries no more than its kind. -/
def IoError.ofKind (kind : ErrorKind) : IoError := ⟨kind, kind.description⟩

variable {ν β : Type} [DecidableEq ν]

/-! ### Operations -/

def exists? (t : FileTree ν β) (p : List ν) : Bool := (t.node p).isSome

def createDirAll (t : FileTree ν β) (p : List ν) : Except ErrorKind (FileTree ν β) :=
  if h : p.inits.any t.isFile = false then .ok (t.mkdirs p h) else .error .alreadyExists

def removeDirAll (t : FileTree ν β) (p : List ν) : Except ErrorKind (FileTree ν β) :=
  match t.node p with
  | none => .error .notFound
  | some (.file _) => .error .notADirectory
  | some .dir => if h : p ≠ [] then .ok (t.removeUnder p h) else .error .other

def removeFile (t : FileTree ν β) (p : List ν) : Except ErrorKind (FileTree ν β) :=
  match t.node p with
  | none => .error .notFound
  | some .dir => .error .isADirectory
  | some (.file _) => if h : p ≠ [] then .ok (t.removeUnder p h) else .error .other

/-- An existing destination is an error, and so is a destination without a directory. -/
def rename (t : FileTree ν β) (src dst : List ν) : Except ErrorKind (FileTree ν β) :=
  if t.exists? src = false then .error .notFound
  else if hno : t.node dst ≠ none then .error .alreadyExists
  else if hdir : t.isDir dst.dropLast = true then
    if hsub : src.isPrefixOf dst = false then
      .ok (t.move src dst hdir (not_not.mp hno) hsub)
    else .error .invalidInput
  else .error .notFound

/-- Make one directory in an existing one. -/
def createDir (t : FileTree ν β) (p : List ν) : Except ErrorKind (FileTree ν β) :=
  if t.exists? p = true then .error .alreadyExists
  else if t.isDir p.dropLast = true then t.createDirAll p
  else .error .notFound

/-- Write a file as a whole, whether or not there is one already. -/
def writeFile (t : FileTree ν β) (p : List ν) (d : List β) : Except ErrorKind (FileTree ν β) :=
  if hno : t.isDir p = false then
    if hp : p ≠ [] then
      if hdir : t.isDir p.dropLast = true then .ok (t.putFile p d hp hdir hno)
      else .error .notFound
    else .error .isADirectory
  else .error .isADirectory

/-- Open a file that must not exist yet. -/
def createNew (t : FileTree ν β) (p : List ν) : Except ErrorKind (FileTree ν β) :=
  if t.exists? p = true then .error .alreadyExists else t.writeFile p []

/-- The renaming that puts a file in the place of another one. -/
def replace (t : FileTree ν β) (src dst : List ν) : Except ErrorKind (FileTree ν β) := do
  if t.isFile dst = true ∧ src ≠ dst then
    if t.isFile src = true then
      let t ← t.removeFile dst
      t.rename src dst
    else if t.exists? src = true then .error .notADirectory
    else .error .notFound
  else t.rename src dst

def readFile (t : FileTree ν β) (p : List ν) : Except ErrorKind (List β) :=
  match t.node p with
  | none => .error .notFound
  | some .dir => .error .isADirectory
  | some (.file d) => .ok d

/-- Append to an open file. -/
def append (t : FileTree ν β) (p : List ν) (d : List β) : Except ErrorKind (FileTree ν β) := do
  let old ← t.readFile p
  t.writeFile p (old ++ d)

/-- Open a file for writing and truncate it; `refused` is the error of a path that is spelled like
that of a directory, or in a way no system call takes. -/
def create (t : FileTree ν β) (p : List ν) (refused : Option ErrorKind) :
    Except ErrorKind (FileTree ν β) :=
  match refused with
  | none => t.writeFile p []
  | some kind => .error kind

/-- Copy a file; `refused` is about the spelling of the destination. -/
def copy (t : FileTree ν β) (src dst : List ν) (refused : Option ErrorKind) :
    Except ErrorKind (FileTree ν β) :=
  match t.readFile src with
  | .error kind => .error kind
  | .ok d =>
    match refused with
    | none => t.writeFile dst d
    | some kind => .error kind

/-! ### The machine -/

/-- The operations that change the tree, and those that open a file or flush it. -/
inductive FsUpdate (ν β : Type)
  | createDirAll (p : List ν)
  | createDir (p : List ν)
  | removeDirAll (p : List ν)
  | removeFile (p : List ν)
  | rename (src dst : List ν)
  | replace (src dst : List ν)
  | create (p : List ν) (refused : Option ErrorKind)
  | createNew (p : List ν)
  | writeAll (p : List ν) (d : List β)
  | copy (src dst : List ν) (refused : Option ErrorKind)
  | openWrite (p : List ν)
  | syncAll (p : List ν)

inductive FsOp (ν β : Type)
  | exists? (p : List ν)
  | read (p : List ν)
  | update (u : FsUpdate ν β)

def fsSig (ν β : Type) : Sig where
  Op := FsOp ν β
  Reply
    | .exists? _ => Bool
    | .read _ => Except IoError (List β)
    | .update _ => Except IoError Unit

/-- How far a faulty operation gets, and whether it ends with the power lost. -/
structure Fault (ν : Type) where
  cutsPower : Bool
  amount : Nat
  keep : List ν → Bool

def effect (t : FileTree ν β) : FsUpdate ν β → Except ErrorKind (FileTree ν β)
  | .createDirAll p => t.createDirAll p
  | .createDir p => t.createDir p
  | .removeDirAll p => t.removeDirAll p
  | .removeFile p => t.removeFile p
  | .rename src dst => t.rename src dst
  | .replace src dst => t.replace src dst
  | .create p refused => t.create p refused
  | .createNew p => t.createNew p
  | .writeAll p d => t.append p d
  | .copy src dst refused => t.copy src dst refused
  | .openWrite p => (t.readFile p).map fun _ => t
  | .syncAll _ => .ok t

/-- The tree that a faulty operation leaves. -/
def part (t : FileTree ν β) (u : FsUpdate ν β) (f : Fault ν) : FileTree ν β :=
  match u with
  | .createDirAll p => (t.createDirAll (p.take f.amount)).toOption.getD t
  | .createDir p => if f.amount = 0 then t else (t.createDir p).toOption.getD t
  | .removeDirAll p => if h : p ≠ [] then t.prune p h f.keep else t
  | .create p refused => if f.amount = 0 then t else (t.create p refused).toOption.getD t
  | .createNew p => if f.amount = 0 then t else (t.createNew p).toOption.getD t
  | .writeAll p d => (t.append p (d.take f.amount)).toOption.getD t
  | .copy src dst refused =>
    match f.amount, t.readFile src, refused with
    | n + 1, .ok d, none => (t.writeFile dst (d.take n)).toOption.getD t
    | _, _, _ => t
  | .removeFile _ | .rename _ _ | .replace _ _ | .openWrite _ | .syncAll _ => t

def machine (ν β : Type) [DecidableEq ν] : Machine (fsSig ν β) (FileTree ν β) where
  Fault := Fault ν
  perform
    | .exists? p, t => (t.exists? p, t)
    | .read p, t => ((t.readFile p).mapError .ofKind, t)
    | .update u, t =>
      match t.effect u with
      | .ok t' => (.ok (), t')
      | .error kind => (.error (.ofKind kind), t)
  disturb
    | .exists? p, f, t => (if f.cutsPower then none else some (t.exists? p), t)
    | .read _, f, t => (if f.cutsPower then none else some (.error (.ofKind .other)), t)
    | .update u, f, t => (if f.cutsPower then none else some (.error (.ofKind .other)), t.part u f)

/-- Does a reply report an error? -/
def fsFailed (o : (fsSig ν β).Op) (r : (fsSig ν β).Reply o) : Bool :=
  match o, r with
  | .exists? _, _ => false
  | .read _, .error _ => true
  | .read _, .ok _ => false
  | .update _, .error _ => true
  | .update _, .ok _ => false

lemma perform_update_ok {t t' : FileTree ν β} {u : FsUpdate ν β} (h : t.effect u = .ok t') :
    (machine ν β).perform (.update u) t = (.ok (), t') := by
  simp only [machine, h]

lemma perform_update_error {t : FileTree ν β} {u : FsUpdate ν β} {kind : ErrorKind}
    (h : t.effect u = .error kind) :
    (machine ν β).perform (.update u) t = (.error (.ofKind kind), t) := by
  simp only [machine, h]

lemma perform_read_ok {t : FileTree ν β} {p : List ν} {d : List β} (h : t.readFile p = .ok d) :
    (machine ν β).perform (.read p) t = (.ok d, t) := by
  simp only [machine, h, Except.mapError]

lemma perform_read_error {t : FileTree ν β} {p : List ν} {kind : ErrorKind}
    (h : t.readFile p = .error kind) :
    (machine ν β).perform (.read p) t = (.error (.ofKind kind), t) := by
  simp only [machine, h, Except.mapError]

/-! ### What an operation may change -/

/-- The paths that an operation may change. -/
def FsUpdate.Touches : FsUpdate ν β → List ν → Prop
  | .createDirAll p, q => q <+: p
  | .removeDirAll p, q | .removeFile p, q => p <+: q
  | .rename src dst, q | .replace src dst, q => src <+: q ∨ dst <+: q
  | .createDir p, q | .create p _, q | .createNew p, q | .writeAll p _, q | .copy _ p _, q => q = p
  | .openWrite _, _ | .syncAll _, _ => False

variable {t t' : FileTree ν β} {p q src dst : List ν} {d : List β} {u : FsUpdate ν β}

omit [DecidableEq ν] in
lemma node_without {gone : List ν → Bool} {h₁ h₂} :
    (t.without gone h₁ h₂).node q = if gone q then none else t.node q := rfl

lemma node_removeUnder {h : p ≠ []} :
    (t.removeUnder p h).node q = if p <+: q then none else t.node q := by
  simp only [removeUnder, node_without, List.isPrefixOf_iff_prefix]

/-- A pruned directory has lost some of its entries and nothing else has changed. -/
lemma node_prune {h : p ≠ []} {keep : List ν → Bool} :
    (t.prune p h keep).node q = t.node q ∨ (p <+: q ∧ (t.prune p h keep).node q = none) := by
  by_cases hg : (q.inits.any fun r => p.isPrefixOf r && !keep r) = true
  · refine .inr ⟨?_, by simp [prune, node_without, hg]⟩
    obtain ⟨r, hr, hrk⟩ := List.any_eq_true.mp hg
    simp only [Bool.and_eq_true, List.isPrefixOf_iff_prefix] at hrk
    exact hrk.1.trans ((List.mem_inits _ _).mp hr)
  · exact .inl (by simp only [prune, node_without, hg, if_false, Bool.false_eq_true])

lemma createDirAll_ok (h : t.createDirAll p = .ok t') (q : List ν) :
    t'.node q = if q <+: p ∧ t.node q = none then some .dir else t.node q := by
  unfold createDirAll at h
  split at h
  · cases h
    simp only [mkdirs, Bool.and_eq_true, List.isPrefixOf_iff_prefix, Option.isNone_iff_eq_none]
  · cases h

/-- Once made, every directory on the way is there. -/
lemma createDirAll_dir (h : t.createDirAll p = .ok t') (hq : q <+: p) : t'.node q = some .dir := by
  rw [createDirAll_ok h q]
  unfold createDirAll at h
  split at h
  · rename_i hf
    have hqf := List.any_eq_false.mp hf q ((List.mem_inits _ _).mpr hq)
    cases hnode : t.node q with
    | none => simp [hq]
    | some n =>
      cases n with
      | dir => simp
      | file d => exact absurd (isFile_eq_true.mpr ⟨d, hnode⟩) hqf
  · cases h

lemma createDirAll_error {kind : ErrorKind} (h : t.createDirAll p = .error kind) :
    ∃ q d, q <+: p ∧ t.node q = some (.file d) := by
  unfold createDirAll at h
  split at h
  · cases h
  · rename_i hf
    rw [Bool.not_eq_false, List.any_eq_true] at hf
    obtain ⟨q, hq, hqf⟩ := hf
    obtain ⟨d, hd⟩ := isFile_eq_true.mp hqf
    exact ⟨q, d, (List.mem_inits _ _).mp hq, hd⟩

lemma createDirAll_succeeds (h : ∀ q d, q <+: p → t.node q ≠ some (.file d)) :
    ∃ t', t.createDirAll p = .ok t' := by
  cases hr : t.createDirAll p with
  | ok t' => exact ⟨t', rfl⟩
  | error kind =>
    obtain ⟨q, d, hq, hd⟩ := createDirAll_error hr
    exact absurd hd (h q d hq)

omit [DecidableEq ν] in
lemma prefix_dropLast_of_ne (h : q <+: p) (hne : q ≠ p) : q <+: p.dropLast := by
  rcases List.eq_nil_or_concat p with rfl | ⟨front, x, rfl⟩
  · exact absurd (List.prefix_nil.mp h) hne
  · rw [List.concat_eq_append] at h hne ⊢
    rw [List.dropLast_concat]
    exact (List.prefix_concat_iff.mp h).resolve_left hne

/-- A directory that has been made was missing in its own directory. -/
lemma createDir_ok (h : t.createDir p = .ok t') :
    t.node p = none ∧ t.node p.dropLast = some .dir ∧
      ∀ q, t'.node q = if q = p then some .dir else t.node q := by
  unfold createDir at h
  split_ifs at h with habsent hdir
  have hnone : t.node p = none := by simpa [exists?] using habsent
  rw [isDir_eq_true] at hdir
  refine ⟨hnone, hdir, fun q => ?_⟩
  rw [createDirAll_ok h q]
  by_cases hq : q = p
  · rw [if_pos hq, hq, if_pos ⟨List.prefix_rfl, hnone⟩]
  · rw [if_neg hq, if_neg]
    rintro ⟨hle, hmissing⟩
    exact node_ne_none_above (prefix_dropLast_of_ne hle hq) (by simp [hdir]) hmissing

lemma createDir_succeeds (hdir : t.node p.dropLast = some .dir) (hp : t.node p = none) :
    ∃ t', t.createDir p = .ok t' := by
  have hclear : ∀ q d, q <+: p → t.node q ≠ some (.file d) := by
    intro q d hq hfile
    by_cases heq : q = p
    · rw [heq, hp] at hfile
      cases hfile
    · have hparent := prefix_dropLast_of_ne hq heq
      by_cases hsame : q = p.dropLast
      · rw [hsame, hdir] at hfile
        cases hfile
      · rw [dir_above hparent hsame (by simp [hdir])] at hfile
        cases hfile
  obtain ⟨t', h⟩ := createDirAll_succeeds hclear
  refine ⟨t', ?_⟩
  rw [createDir, if_neg (by simp [exists?, hp]), if_pos (isDir_eq_true.mpr hdir), h]

lemma removeDirAll_ok (h : t.removeDirAll p = .ok t') (q : List ν) :
    t'.node q = if p <+: q then none else t.node q := by
  unfold removeDirAll at h
  split at h <;> try cases h
  split at h <;> cases h
  exact node_removeUnder

lemma removeDirAll_succeeds (hp : p ≠ []) (h : t.node p = some .dir) :
    ∃ t', t.removeDirAll p = .ok t' := by
  simp [removeDirAll, h, hp]

lemma removeFile_ok (h : t.removeFile p = .ok t') (q : List ν) :
    t'.node q = if p <+: q then none else t.node q := by
  unfold removeFile at h
  split at h <;> try cases h
  split at h <;> cases h
  exact node_removeUnder

lemma removeFile_file_ok (h : t.removeFile p = .ok t') (q : List ν) :
    (∃ d, t.node p = some (.file d)) ∧ t'.node q = if q = p then none else t.node q := by
  have hfile : ∃ d, t.node p = some (.file d) := by
    unfold removeFile at h
    split at h
    · cases h
    · cases h
    · rename_i d hd
      exact ⟨d, hd⟩
  obtain ⟨d, hd⟩ := hfile
  refine ⟨⟨d, hd⟩, ?_⟩
  rw [removeFile_ok h q]
  by_cases hq : p <+: q
  · obtain ⟨r, rfl⟩ := hq
    rw [if_pos (List.prefix_append p r)]
    by_cases hr : r = []
    · simp [hr]
    · simp [hr, node_append_file hd hr]
  · have hne : q ≠ p := by
      rintro rfl
      exact hq List.prefix_rfl
    rw [if_neg hq, if_neg hne]

lemma removeFile_succeeds (hp : p ≠ []) (h : t.node p = some (.file d)) :
    ∃ t', t.removeFile p = .ok t' := by
  simp [removeFile, h, hp]

/-- A renaming that succeeds moves everything at and below the source to a destination that was
free. -/
lemma rename_ok (h : t.rename src dst = .ok t') :
    t.node src ≠ none ∧ t.node dst = none ∧ ¬ src <+: dst ∧
      ∀ q, t'.node q = if dst <+: q then t.node (src ++ q.drop dst.length)
        else if src <+: q then none else t.node q := by
  unfold rename at h
  split_ifs at h with hsrc hdst hdir hsub
  cases h
  refine ⟨?_, not_not.mp hdst, ?_, fun q => ?_⟩
  · simpa [exists?, Option.isSome_iff_ne_none] using hsrc
  · simpa only [List.isPrefixOf_iff_prefix, Bool.not_eq_true] using
      fun hp => by simp [List.isPrefixOf_iff_prefix.mpr hp] at hsub
  · simp only [move, List.isPrefixOf_iff_prefix]

lemma rename_succeeds (hsrc : t.node src ≠ none) (hdst : t.node dst = none)
    (hdir : t.node dst.dropLast = some .dir) (hsub : ¬ src <+: dst) :
    ∃ t', t.rename src dst = .ok t' := by
  have hs : t.exists? src = true := by
    rw [exists?, Option.isSome_iff_ne_none]
    exact hsrc
  have hb : src.isPrefixOf dst = false := by
    rwa [← Bool.not_eq_true, List.isPrefixOf_iff_prefix]
  simp [rename, hs, hdst, isDir_eq_true.mpr hdir, hb]

lemma writeFile_ok (h : t.writeFile p d = .ok t') :
    t.node p ≠ some .dir ∧ ∀ q, t'.node q = if q = p then some (.file d) else t.node q := by
  unfold writeFile at h
  split_ifs at h with hno hp hdir
  cases h
  refine ⟨fun hd => ?_, fun q => rfl⟩
  rw [isDir_eq_true.mpr hd] at hno
  exact absurd hno (by simp)

lemma writeFile_succeeds (hp : p ≠ []) (hdir : t.node p.dropLast = some .dir)
    (hno : t.node p ≠ some .dir) (d : List β) : ∃ t', t.writeFile p d = .ok t' := by
  have hno : t.isDir p = false := by
    rw [← Bool.not_eq_true, isDir_eq_true]
    exact hno
  simp [writeFile, hno, hp, isDir_eq_true.mpr hdir]

/-- A file that has been made was missing. -/
lemma createNew_ok (h : t.createNew p = .ok t') :
    t.node p = none ∧ ∀ q, t'.node q = if q = p then some (.file []) else t.node q := by
  unfold createNew at h
  split_ifs at h with habsent
  exact ⟨by simpa [exists?] using habsent, (writeFile_ok h).2⟩

lemma createNew_succeeds (hp : p ≠ []) (hdir : t.node p.dropLast = some .dir)
    (hno : t.node p = none) : ∃ t', t.createNew p = .ok t' := by
  obtain ⟨t', h⟩ := writeFile_succeeds hp hdir (by simp [hno]) []
  exact ⟨t', by rw [createNew, if_neg (by simp [exists?, hno]), h]⟩

omit [DecidableEq ν] in
lemma readFile_ok (h : t.readFile p = .ok d) : t.node p = some (.file d) := by
  unfold readFile at h
  split at h <;> cases h
  assumption

omit [DecidableEq ν] in
lemma readFile_of_file (h : t.node p = some (.file d)) : t.readFile p = .ok d := by
  simp [readFile, h]

lemma append_succeeds {old : List β} (hp : p ≠ []) (h : t.node p = some (.file old)) (d : List β) :
    ∃ t', t.append p d = .ok t' := by
  obtain ⟨t', hwrite⟩ := writeFile_succeeds hp (dir_dropLast (t := t) (by simp [h]))
    (by simp [h]) (old ++ d)
  exact Except.exists_bind (readFile_of_file h) ⟨t', hwrite⟩

lemma append_ok (h : t.append p d = .ok t') :
    ∃ old, t.node p = some (.file old) ∧
      ∀ q, t'.node q = if q = p then some (.file (old ++ d)) else t.node q := by
  obtain ⟨old, hread, hwrite⟩ := Except.bind_ok h
  exact ⟨old, readFile_ok hread, (writeFile_ok hwrite).2⟩

lemma replace_cases (h : t.replace src dst = .ok t') :
    t.rename src dst = .ok t' ∨
      ∃ t₁, t.isFile dst = true ∧ t.removeFile dst = .ok t₁ ∧ t₁.rename src dst = .ok t' := by
  unfold replace at h
  split_ifs at h with hdst hsrc
  · obtain ⟨t₁, hremove, h⟩ := Except.bind_ok h
    exact .inr ⟨t₁, hdst.1, hremove, h⟩
  · exact .inl h

/-- A file that is renamed is at its new path only. -/
lemma rename_file_ok (h : t.rename src dst = .ok t') (hsrc : t.node src = some (.file d)) (q : List ν) :
    t'.node q = if q = dst then some (.file d) else if q = src then none else t.node q := by
  obtain ⟨-, hfree, hsub, hnode⟩ := rename_ok h
  rw [hnode q]
  by_cases hdst : dst <+: q
  · obtain ⟨r, rfl⟩ := hdst
    rw [if_pos (List.prefix_append dst r), List.drop_left]
    by_cases hr : r = []
    · simp [hr, hsrc]
    · have hne : dst ++ r ≠ src := by
        intro heq
        rw [← heq, node_append_eq_none hfree r] at hsrc
        cases hsrc
      simp [hr, hne, node_append_file hsrc hr, node_append_eq_none hfree r]
  · have hne : q ≠ dst := fun heq => hdst (heq ▸ List.prefix_rfl)
    rw [if_neg hdst, if_neg hne]
    by_cases hsrcq : src <+: q
    · obtain ⟨r, rfl⟩ := hsrcq
      rw [if_pos (List.prefix_append src r)]
      by_cases hr : r = []
      · simp [hr]
      · simp [hr, node_append_file hsrc hr]
    · have hne : q ≠ src := fun heq => hsrcq (heq ▸ List.prefix_rfl)
      rw [if_neg hsrcq, if_neg hne]

/-- A file takes the place of another one, or of nothing. -/
lemma replace_ok (h : t.replace src dst = .ok t') (hsrc : t.node src = some (.file d)) (q : List ν) :
    t'.node q = if q = dst then some (.file d) else if q = src then none else t.node q := by
  rcases replace_cases h with hrename | ⟨t₁, hfile, hremove, hrename⟩
  · exact rename_file_ok hrename hsrc q
  · obtain ⟨d', hfile⟩ := isFile_eq_true.mp hfile
    have hnode := removeFile_ok hremove
    have hout : ¬ dst <+: src := by
      rintro ⟨r, rfl⟩
      by_cases hr : r = []
      · subst hr
        have hpresent := (rename_ok hrename).1
        rw [hnode, if_pos (List.prefix_append dst [])] at hpresent
        exact hpresent rfl
      · rw [node_append_file hfile hr] at hsrc
        cases hsrc
    rw [rename_file_ok hrename (by rw [hnode, if_neg hout, hsrc]), hnode]
    by_cases hdst : dst <+: q
    · obtain ⟨r, rfl⟩ := hdst
      by_cases hr : r = []
      · simp [hr]
      · simp [hr, node_append_file hfile hr]
    · rw [if_neg hdst]

lemma replace_frame (h : t.replace src dst = .ok t') (hq : ¬ (src <+: q ∨ dst <+: q)) :
    t'.node q = t.node q := by
  rw [not_or] at hq
  rcases replace_cases h with hrename | ⟨t₁, -, hremove, hrename⟩
  · rw [(rename_ok hrename).2.2.2 q, if_neg hq.2, if_neg hq.1]
  · rw [(rename_ok hrename).2.2.2 q, if_neg hq.2, if_neg hq.1, removeFile_ok hremove q, if_neg hq.2]

lemma replace_succeeds (hsrc : t.node src = some (.file d)) (hdst : t.node dst ≠ some .dir)
    (hdir : t.node dst.dropLast = some .dir) (hp : dst ≠ []) (hsub : ¬ src <+: dst) :
    ∃ t', t.replace src dst = .ok t' := by
  cases hnode : t.node dst with
  | none =>
    have hfile : t.isFile dst = false := by simp [isFile, hnode]
    obtain ⟨t', h⟩ := rename_succeeds (by simp [hsrc]) hnode hdir hsub
    exact ⟨t', by simp [replace, hfile, h]⟩
  | some node =>
    cases node with
    | dir => exact absurd hnode hdst
    | file d' =>
      have hne : src ≠ dst := fun heq => hsub (heq ▸ List.prefix_rfl)
      have hremove : t.removeFile dst = .ok (t.removeUnder dst hp) := by simp [removeFile, hnode, hp]
      have hout : ¬ dst <+: src := by
        rintro ⟨r, rfl⟩
        by_cases hr : r = []
        · exact hne (by simp [hr])
        · rw [node_append_file hnode hr] at hsrc
          cases hsrc
      have hparent : ¬ dst <+: dst.dropLast := by
        intro hle
        have hlen := hle.length_le
        have hpos := List.length_pos_of_ne_nil hp
        rw [List.length_dropLast] at hlen
        omega
      have hthere : (t.removeUnder dst hp).node src ≠ none := by simp [node_removeUnder, hout, hsrc]
      have hgone : (t.removeUnder dst hp).node dst = none := by simp [node_removeUnder]
      have hdir : (t.removeUnder dst hp).node dst.dropLast = some .dir := by
        simp [node_removeUnder, hparent, hdir]
      obtain ⟨t', h⟩ := rename_succeeds hthere hgone hdir hsub
      have hfile : t.isFile dst = true := isFile_eq_true.mpr ⟨d', hnode⟩
      have hsrc : t.isFile src = true := isFile_eq_true.mpr ⟨d, hsrc⟩
      exact ⟨t', by simp [replace, hfile, hsrc, hne, hremove, Except.ok_bind, h]⟩

lemma create_ok {refused : Option ErrorKind} (h : t.create p refused = .ok t') :
    refused = none ∧ t.node p ≠ some .dir ∧
      ∀ q, t'.node q = if q = p then some (.file []) else t.node q := by
  cases refused with
  | none => exact ⟨rfl, writeFile_ok h⟩
  | some kind => simp [create] at h

lemma copy_ok {refused : Option ErrorKind} (h : t.copy src dst refused = .ok t') :
    refused = none ∧ ∃ d, t.node src = some (.file d) ∧ t.node dst ≠ some .dir ∧
      ∀ q, t'.node q = if q = dst then some (.file d) else t.node q := by
  unfold copy at h
  split at h
  · cases h
  · rename_i d hd
    cases refused with
    | none => exact ⟨rfl, d, readFile_ok hd, writeFile_ok h⟩
    | some kind => simp at h

/-- The trees that an operation may leave when it does not get to its end. -/
def Left (t : FileTree ν β) (u : FsUpdate ν β) (t' : FileTree ν β) : Prop :=
  t' = t ∨ ∃ f, t' = t.part u f

lemma Left.refl (t : FileTree ν β) (u : FsUpdate ν β) : t.Left u t := .inl rfl

/-- An operation changes nothing that it does not touch. -/
lemma effect_frame (h : t.effect u = .ok t') (hq : ¬ u.Touches q) : t'.node q = t.node q := by
  cases u with
  | createDirAll p => rw [createDirAll_ok h q, if_neg fun hc => hq hc.1]
  | createDir p => exact ((createDir_ok h).2.2 q).trans (if_neg hq)
  | removeDirAll p => exact (removeDirAll_ok h q).trans (if_neg hq)
  | removeFile p => exact (removeFile_ok h q).trans (if_neg hq)
  | rename src dst =>
    simp only [FsUpdate.Touches, not_or] at hq
    rw [(rename_ok h).2.2.2 q, if_neg hq.2, if_neg hq.1]
  | replace src dst => exact replace_frame h hq
  | create p refused => exact ((create_ok h).2.2 q).trans (if_neg hq)
  | createNew p => exact ((createNew_ok h).2 q).trans (if_neg hq)
  | writeAll p d =>
    obtain ⟨old, -, hnode⟩ := append_ok h
    exact (hnode q).trans (if_neg hq)
  | copy src dst refused =>
    obtain ⟨-, d, -, -, hnode⟩ := copy_ok h
    exact (hnode q).trans (if_neg hq)
  | openWrite p =>
    simp only [effect] at h
    cases hr : t.readFile p <;> simp [hr, Except.map] at h
    rw [h]
  | syncAll p =>
    cases h
    rfl

omit [DecidableEq ν] in
lemma toOption_getD_eq {x : Except ErrorKind (FileTree ν β)} (h : x.toOption.getD t = t') :
    t' = t ∨ x = .ok t' := by
  cases x with
  | error kind => exact .inl h.symm
  | ok t'' => exact .inr (congrArg Except.ok h)

lemma Left.frame (h : t.Left u t') (hq : ¬ u.Touches q) : t'.node q = t.node q := by
  rcases h with rfl | ⟨f, rfl⟩
  · rfl
  generalize hpart : t.part u f = t'
  cases u with
  | createDirAll p =>
    rcases toOption_getD_eq hpart with rfl | hok
    · rfl
    · rw [createDirAll_ok hok q, if_neg fun hc => hq (hc.1.trans (List.take_prefix _ _))]
  | removeDirAll p =>
    simp only [part] at hpart
    split at hpart
    · subst hpart
      rcases (node_prune : (t.prune p _ f.keep).node q = _ ∨ _) with h | h
      · exact h
      · exact absurd h.1 hq
    · rw [hpart]
  | create p refused =>
    simp only [part] at hpart
    split at hpart
    · rw [hpart]
    · rcases toOption_getD_eq hpart with rfl | hok
      · rfl
      · exact ((create_ok hok).2.2 q).trans (if_neg hq)
  | createNew p =>
    simp only [part] at hpart
    split at hpart
    · rw [hpart]
    · rcases toOption_getD_eq hpart with rfl | hok
      · rfl
      · exact ((createNew_ok hok).2 q).trans (if_neg hq)
  | createDir p =>
    simp only [part] at hpart
    split at hpart
    · rw [hpart]
    · rcases toOption_getD_eq hpart with rfl | hok
      · rfl
      · exact ((createDir_ok hok).2.2 q).trans (if_neg hq)
  | writeAll p d =>
    rcases toOption_getD_eq hpart with rfl | hok
    · rfl
    · obtain ⟨old, -, hnode⟩ := append_ok hok
      exact (hnode q).trans (if_neg hq)
  | copy src dst refused =>
    simp only [part] at hpart
    split at hpart
    · rcases toOption_getD_eq hpart with rfl | hok
      · rfl
      · exact ((writeFile_ok hok).2 q).trans (if_neg hq)
    · rw [hpart]
  | removeFile p => exact hpart ▸ rfl
  | rename src dst => exact hpart ▸ rfl
  | replace src dst => exact hpart ▸ rfl
  | openWrite p => exact hpart ▸ rfl
  | syncAll p => exact hpart ▸ rfl

end FileTree
