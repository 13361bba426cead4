import Mathlib.Data.List.Pairwise
import ThistleOS.Recovery.BundleTransaction.Journal

/-!
# Rollback

What rollback would put at a destination is a function of the tree, `restored`. Every step of
rollback keeps it, so that a rollback that was cut short can be started again.
-/

open PowerLoss FileTree

namespace ThistleOS.BundleTransaction

/-! ### The areas of the entries -/

/-- The entries of a transaction: no destination leads to another one or to the transaction
directory. -/
structure Planned (entries : List JournalEntry) : Prop extends ValidEntries entries where
  apart : entries.Pairwise fun e e' => Apart (destination e.relativePath) (destination e'.relativePath)
  outside : ∀ e ∈ entries, Apart transactionRoot (destination e.relativePath)

/-- The three places that belong to a path. -/
def area (path : String) : Set Path := {destination path, staged path, backup path}

/-- The places that belong to a transaction. -/
def transactionArea (entries : List JournalEntry) : Set Path :=
  {a | a = transactionRoot ∨ ∃ e ∈ entries, a = destination e.relativePath}

lemma transactionRoot_prefix_staged (path : String) : transactionRoot <+: staged path :=
  ⟨["stage"] ++ names path, rfl⟩

lemma transactionRoot_prefix_backup (path : String) : transactionRoot <+: backup path :=
  ⟨["backup"] ++ names path, rfl⟩

/-- A file of the transaction directory that is neither staged nor a backup. -/
def IsRecord (p : Path) : Prop := transactionRoot <+: p ∧ Apart stageDir p ∧ Apart backupDir p

lemma isRecord_journalPath : IsRecord journalPath := by
  refine ⟨?_, ?_, ?_⟩ <;> decide

lemma isRecord_filesActiveMarker : IsRecord filesActiveMarker := by
  refine ⟨?_, ?_, ?_⟩ <;> decide

lemma isRecord_firmwareWrittenMarker : IsRecord firmwareWrittenMarker := by
  refine ⟨?_, ?_, ?_⟩ <;> decide

namespace Planned

variable {entries : List JournalEntry} {e e' : JournalEntry} {a p : Path}

lemma apart_of_ne (h : Planned entries) (he : e ∈ entries) (he' : e' ∈ entries) (hne : e ≠ e') :
    Apart (destination e.relativePath) (destination e'.relativePath) :=
  have : Std.Symm fun e e' : JournalEntry =>
      Apart (destination e.relativePath) (destination e'.relativePath) := ⟨fun _ _ hab => hab.symm⟩
  h.apart.forall he he' hne

lemma area_apart (h : Planned entries) (he : e ∈ entries) (he' : e' ∈ entries) (hne : e ≠ e') :
    ∀ a ∈ area e.relativePath, ∀ a' ∈ area e'.relativePath, Apart a a' := by
  have hdd := h.apart_of_ne he he' hne
  have hsb : Apart stageDir backupDir := by decide
  rintro a (rfl | rfl | rfl) a' (rfl | rfl | rfl)
  · exact hdd
  · exact (h.outside e he).symm.mono List.prefix_rfl (transactionRoot_prefix_staged _)
  · exact (h.outside e he).symm.mono List.prefix_rfl (transactionRoot_prefix_backup _)
  · exact (h.outside e' he').mono (transactionRoot_prefix_staged _) List.prefix_rfl
  · exact (apart_append_left_iff stageDir).mpr hdd
  · exact hsb.mono (List.prefix_append _ _) (List.prefix_append _ _)
  · exact (h.outside e' he').mono (transactionRoot_prefix_backup _) List.prefix_rfl
  · exact hsb.symm.mono (List.prefix_append _ _) (List.prefix_append _ _)
  · exact (apart_append_left_iff backupDir).mpr hdd

lemma area_apart_record (h : Planned entries) (he : e ∈ entries) (hp : IsRecord p) :
    ∀ a ∈ area e.relativePath, Apart a p := by
  rintro a (rfl | rfl | rfl)
  · exact (h.outside e he).symm.mono List.prefix_rfl hp.1
  · exact hp.2.1.mono (List.prefix_append _ _) List.prefix_rfl
  · exact hp.2.2.mono (List.prefix_append _ _) List.prefix_rfl

/-- Nothing of an entry's area lies above the destination of another entry. -/
lemma area_not_above (h : Planned entries) (he : e ∈ entries) (he' : e' ∈ entries) (hne : e ≠ e')
    (hp : p <+: destination e'.relativePath) : ∀ a ∈ area e.relativePath, ¬ a <+: p := by
  intro a ha hap
  exact (h.area_apart he he' hne a ha _ (.inl rfl)).1 (hap.trans hp)

lemma destination_ne_nil (h : Planned entries) (he : e ∈ entries) :
    destination e.relativePath ≠ [] := (h.outside e he).ne_nil

/-- Changes of one entry are changes of the transaction. -/
lemma changes_area {t t' : Tree} (he : e ∈ entries)
    (ht : ChangesBelow (area e.relativePath) t t') : ChangesBelow (transactionArea entries) t t' := by
  refine ht.mono ?_
  rintro a (rfl | rfl | rfl)
  · exact ⟨_, .inr ⟨e, he, rfl⟩, List.prefix_rfl⟩
  · exact ⟨_, .inl rfl, transactionRoot_prefix_staged _⟩
  · exact ⟨_, .inl rfl, transactionRoot_prefix_backup _⟩

end Planned

/-! ### What rollback restores -/

/-- What rollback puts `r` below the destination of an entry. -/
def restored (t : Tree) (e : JournalEntry) (r : Path) : Option (Node UInt8) :=
  if e.hadOriginal then
    if t.exists? (backup e.relativePath) then t.node (backup e.relativePath ++ r)
    else t.node (destination e.relativePath ++ r)
  else none

/-- Nothing is in the way of restoring an entry. -/
structure Restorable (t : Tree) (e : JournalEntry) : Prop where
  not_dir : e.hadOriginal = true → t.node (backup e.relativePath) ≠ none →
    t.node (destination e.relativePath) ≠ some .dir
  above : e.hadOriginal = true → t.node (backup e.relativePath) ≠ none →
    ∀ q d, q <+: destination e.relativePath → q ≠ destination e.relativePath →
      t.node q ≠ some (.file d)
  new_not_dir : e.hadOriginal = false → t.node (destination e.relativePath) ≠ some .dir
  new_staged : e.hadOriginal = false → t.node (staged e.relativePath) ≠ none →
    t.node (destination e.relativePath) = none

/-- Rollback has nothing left to do for an entry. -/
def Undone (t : Tree) (e : JournalEntry) : Prop :=
  if e.hadOriginal then t.node (backup e.relativePath) = none
  else t.node (destination e.relativePath) = none

lemma undone_of_had {t : Tree} {e : JournalEntry} (hhad : e.hadOriginal = true) :
    Undone t e ↔ t.node (backup e.relativePath) = none := by
  rw [Undone, if_pos hhad]

lemma undone_of_new {t : Tree} {e : JournalEntry} (hhad : e.hadOriginal = false) :
    Undone t e ↔ t.node (destination e.relativePath) = none := by
  rw [Undone, if_neg (by simp [hhad])]

lemma Undone.restored_eq {t : Tree} {e : JournalEntry} (h : Undone t e) (r : Path) :
    restored t e r = t.node (destination e.relativePath ++ r) := by
  unfold restored
  cases hhad : e.hadOriginal with
  | true => simp [FileTree.exists?, (undone_of_had hhad).mp h]
  | false => simp [node_append_eq_none ((undone_of_new hhad).mp h) r]

lemma Undone.restorable {t : Tree} {e : JournalEntry} (h : Undone t e) : Restorable t e := by
  cases hhad : e.hadOriginal with
  | true =>
    have hb := (undone_of_had hhad).mp h
    constructor
    · exact fun _ hne => absurd hb hne
    · exact fun _ hne => absurd hb hne
    · exact fun hno => by rw [hhad] at hno; cases hno
    · exact fun hno => by rw [hhad] at hno; cases hno
  | false =>
    have hd := (undone_of_new hhad).mp h
    constructor
    · exact fun hyes => by rw [hhad] at hyes; cases hyes
    · exact fun hyes => by rw [hhad] at hyes; cases hyes
    · exact fun _ => by rw [hd]; exact nofun
    · exact fun _ _ => hd

section Same

variable {entries : List JournalEntry} {e e' : JournalEntry} {t t' : Tree}

/-- Two trees agree on all that recovery looks at for a path. -/
structure SameArea (path : String) (t t' : Tree) : Prop where
  node_append : ∀ a ∈ area path, ∀ r, t'.node (a ++ r) = t.node (a ++ r)
  above : ∀ q d, q <+: destination path → t'.node q = some (.file d) → t.node q = some (.file d)

lemma SameArea.node_eq {path : String} (h : SameArea path t t') {a : Path} (ha : a ∈ area path) :
    t'.node a = t.node a := by
  simpa using h.node_append a ha []

/-- What happens in the area of an entry does not matter to the others. -/
lemma sameArea_of_changes (h : Planned entries) (he : e ∈ entries) (he' : e' ∈ entries)
    (hne : e ≠ e') (ht : ChangesBelow (area e.relativePath) t t') :
    SameArea e'.relativePath t t' := by
  constructor
  · intro a ha r
    exact ht.node_eq fun a' ha' => (h.area_apart he he' hne a' ha' a ha).append_right r
  · intro q d hq hfile
    exact (ht.node_eq_file (h.area_not_above he he' hne hq)).mp hfile

/-- The records do not matter to the entries. -/
lemma sameArea_of_record (h : Planned entries) (he : e ∈ entries) {m : Path} (hm : IsRecord m)
    (ht : ChangesBelow {m} t t') : SameArea e.relativePath t t' := by
  constructor
  · intro a ha r
    refine ht.node_eq ?_
    rintro m' rfl
    exact (h.area_apart_record he hm a ha).symm.append_right r
  · intro q d hq hfile
    refine (ht.node_eq_file ?_).mp hfile
    rintro m' rfl hle
    exact (h.outside e he).1 (hm.1.trans (hle.trans hq))

lemma SameArea.restored_eq (h : SameArea e.relativePath t t') (r : Path) :
    restored t' e r = restored t e r := by
  have hb : t'.exists? (backup e.relativePath) = t.exists? (backup e.relativePath) := by
    rw [FileTree.exists?, FileTree.exists?, h.node_eq (.inr (.inr rfl))]
  simp only [restored, hb, h.node_append _ (.inl rfl) r, h.node_append _ (.inr (.inr rfl)) r]

lemma SameArea.restorable (h : SameArea e.relativePath t t') (hr : Restorable t e) :
    Restorable t' e := by
  have hd := h.node_eq (.inl rfl)
  have hs := h.node_eq (.inr (.inl rfl))
  have hb := h.node_eq (.inr (.inr rfl))
  constructor
  · rw [hd, hb]
    exact hr.not_dir
  · rw [hb]
    intro hhad hbackup q d hq hne hfile
    exact hr.above hhad hbackup q d hq hne (h.above q d hq hfile)
  · rw [hd]
    exact hr.new_not_dir
  · rw [hd, hs]
    exact hr.new_staged

lemma SameArea.undone (h : SameArea e.relativePath t t') (hu : Undone t e) : Undone t' e := by
  unfold Undone at hu ⊢
  rwa [h.node_eq (.inl rfl), h.node_eq (.inr (.inr rfl))]

end Same

/-! ### The steps of rollback -/

section Steps

variable {κ : Type} {K : Machine callbackSig κ}
  {err : IoError → (Tree × κ) × Bool → Prop} {cut : (Tree × κ) × Bool → Prop}
  {t : Tree} {x : κ} {b : Bool} {path : Path}

/-- Making the directory of a path makes missing directories on the way to it. -/
lemma wp_ensureParent {ok : Unit → (Tree × κ) × Bool → Prop} (hne : path ≠ [])
    (hcut : ∀ t', Paves path t t' → cut ((t', x), b))
    (hok : ∀ t', Paves path t t' → t'.node path.dropLast = some .dir → ok () ((t', x), b))
    (herr : b = true ∨ (∃ q d, q <+: path ∧ q ≠ path ∧ t.node q = some (.file d)) →
      ∀ e t', Paves path t t' → err e ((t', x), false)) :
    Act.wp (world String UInt8 K callbackFailed) (ensureParent path) ok err cut ((t, x), b) := by
  refine wp_update ?_ ?_ ?_ ?_
  · exact fun t' hl => hcut t' (hl.paves hne)
  · intro t' heff
    exact hok t' (createDirAll_paves hne List.prefix_rfl heff)
      (createDirAll_dir heff List.prefix_rfl)
  · intro kind hkind
    obtain ⟨q, d, hq, hd⟩ := createDirAll_error hkind
    refine herr (.inr ⟨q, d, hq.trans (List.dropLast_prefix path), ?_, hd⟩) _ t (.refl _ _)
    rintro rfl
    have hlen := hq.length_le
    have hpos := List.length_pos_of_ne_nil hne
    rw [List.length_dropLast] at hlen
    omega
  · exact fun hb t' hl => herr (.inl hb) _ t' (hl.paves hne)

lemma wp_removeFileIfPresent {ok : Unit → (Tree × κ) × Bool → Prop}
    (hdir : t.node path ≠ some .dir) (hcut : cut ((t, x), false))
    (hok : ∀ t' : Tree, (∀ q, t'.node q = if path <+: q then none else t.node q) →
      ok () ((t', x), false)) :
    Act.wp (world String UInt8 K callbackFailed) (removeFileIfPresent path) ok err cut
      ((t, x), false) := by
  unfold removeFileIfPresent
  rw [Act.wp_bind, Act.wp_attempt]
  refine wp_update ?_ ?_ ?_ ?_
  · intro t' hl
    exact hl.eq_of_removeFile ▸ hcut
  · intro t' heff
    exact hok t' fun q => removeFile_ok heff q
  · intro kind hkind
    have hremove : t.removeFile path = .error kind := hkind
    unfold removeFile at hremove
    split at hremove
    · rename_i hnone
      obtain rfl := Except.error.inj hremove
      refine hok t fun q => ?_
      split_ifs with hq
      · obtain ⟨r, rfl⟩ := hq
        exact node_append_eq_none hnone r
      · rfl
    · exact absurd (by assumption) hdir
    · rename_i d hd
      have hne : path ≠ [] := by
        rintro rfl
        simp [t.node_nil] at hd
      simp [hne] at hremove
  · intro hb
    cases hb

variable {entries : List JournalEntry} {e : JournalEntry}

/-- What one step of rollback leaves of an entry. -/
structure Step (e : JournalEntry) (t t' : Tree) : Prop where
  changes : ChangesBelow (area e.relativePath) t t'
  restorable : Restorable t' e
  restored : ∀ r, restored t' e r = restored t e r

lemma Step.refl (h : Restorable t e) : Step e t t := ⟨.refl _ _, h, fun _ => rfl⟩

/-- As long as the backup is there, the destination does not matter. -/
lemma step_of_backup (h : Planned entries) (he : e ∈ entries) (hr : Restorable t e)
    (hhad : e.hadOriginal = true) (hb : t.node (backup e.relativePath) ≠ none) {t' : Tree}
    (ht : ChangesBelow {destination e.relativePath} t t')
    (hdir : t'.node (destination e.relativePath) ≠ some .dir) : Step e t t' := by
  have hbackup : ∀ r, t'.node (backup e.relativePath ++ r) = t.node (backup e.relativePath ++ r) := by
    intro r
    refine ht.node_eq ?_
    rintro a rfl
    exact ((h.outside e he).mono (transactionRoot_prefix_backup _) List.prefix_rfl).symm.append_right r
  have hself : t'.node (backup e.relativePath) = t.node (backup e.relativePath) := by
    simpa using hbackup []
  refine ⟨ht.subset (Set.singleton_subset_iff.mpr (.inl rfl)), ⟨fun _ _ => hdir, ?_, fun _ => hdir,
    fun hno => by rw [hhad] at hno; cases hno⟩, fun r => ?_⟩
  · intro _ _ q d hq hne hfile
    refine hr.above hhad hb q d hq hne ((ht.node_eq_file ?_).mp hfile)
    rintro a rfl hle
    exact hne (hq.eq_of_length (le_antisymm hq.length_le hle.length_le))
  · have hexists : t'.exists? (backup e.relativePath) = t.exists? (backup e.relativePath) := by
      rw [FileTree.exists?, FileTree.exists?, hself]
    have hthere : t.exists? (backup e.relativePath) = true := by
      rwa [FileTree.exists?, Option.isSome_iff_ne_none]
    simp only [restored, hhad, if_true, hexists, hthere, hbackup r]

/-- An entry is put back from its backup. -/
lemma wp_restoreBackup {ok : Unit → (Tree × κ) × Bool → Prop} (h : Planned entries)
    (he : e ∈ entries) (hr : Restorable t e) (hhad : e.hadOriginal = true)
    (hb : t.node (backup e.relativePath) ≠ none)
    (hcut : ∀ t', Step e t t' → cut ((t', x), false))
    (hok : ∀ t', Step e t t' → Undone t' e → ok () ((t', x), false)) :
    Act.wp (world String UInt8 K callbackFailed) (do
      removeFileIfPresent (destination e.relativePath)
      ensureParent (destination e.relativePath)
      update (.rename (backup e.relativePath) (destination e.relativePath))) ok err cut
      ((t, x), false) := by
  have hne := h.destination_ne_nil he
  have hapart : Apart (destination e.relativePath) (backup e.relativePath) :=
    ((h.outside e he).mono (transactionRoot_prefix_backup _) List.prefix_rfl).symm
  have hdir := hr.not_dir hhad hb
  rw [Act.wp_bind]
  refine wp_removeFileIfPresent hdir (hcut t (.refl hr)) fun t₁ ht₁ => ?_
  have hc₁ : ChangesBelow {destination e.relativePath} t t₁ := by
    intro q hq
    rw [ht₁ q, if_neg (hq _ rfl)]
    exact .inl rfl
  have hnone₁ : t₁.node (destination e.relativePath) = none := by
    rw [ht₁, if_pos List.prefix_rfl]
  rw [Act.wp_bind]
  have hstep : ∀ t', Paves (destination e.relativePath) t₁ t' → Step e t t' := by
    intro t' hp
    refine step_of_backup h he hr hhad hb (hc₁.trans hp.changesBelow) ?_
    rw [hp.node_self, hnone₁]
    exact Option.some_ne_none _ ∘ Eq.symm
  refine wp_ensureParent hne (fun t' hp => hcut t' (hstep t' hp)) ?_ ?_
  · intro t₂ hp₂ hparent
    have hs₂ := hstep t₂ hp₂
    have hbackup : ∀ r, t₂.node (backup e.relativePath ++ r) = t.node (backup e.relativePath ++ r) := by
      intro r
      refine (hc₁.trans hp₂.changesBelow).node_eq ?_
      rintro a rfl
      exact hapart.append_right r
    have hsrc : t₂.node (backup e.relativePath) ≠ none := by
      have := hbackup []
      rw [List.append_nil] at this
      rwa [this]
    obtain ⟨t₃, hren⟩ := rename_succeeds hsrc (hp₂.node_self.trans hnone₁) hparent hapart.2
    obtain ⟨-, -, -, hnode⟩ := rename_ok hren
    have hundone : Undone t₃ e := by
      rw [undone_of_had hhad, hnode, if_neg hapart.1, if_pos List.prefix_rfl]
    refine wp_update_sure hren (fun t' hl => hl.eq_of_rename ▸ hcut t₂ hs₂) (hok t₃ ?_ hundone)
    refine ⟨hs₂.changes.trans (effect_changesBelow (u := .rename _ _) hren ?_),
      hundone.restorable, fun r => ?_⟩
    · exact ⟨⟨_, .inr (.inr rfl), List.prefix_rfl⟩, ⟨_, .inl rfl, List.prefix_rfl⟩⟩
    · have hthere : t.exists? (backup e.relativePath) = true := by
        rwa [FileTree.exists?, Option.isSome_iff_ne_none]
      rw [hundone.restored_eq, hnode, if_pos (List.prefix_append _ _), List.drop_left, hbackup]
      simp only [restored, hhad, if_true, hthere]
  · rintro (hfalse | ⟨q, d, hq, hqne, hfile⟩)
    · cases hfalse
    · refine absurd ((hc₁.node_eq_file ?_).mp hfile) (hr.above hhad hb q d hq hqne)
      rintro a rfl hle
      exact hqne (hq.eq_of_length (le_antisymm hq.length_le hle.length_le))

/-- One step of the loop of rollback. -/
lemma wp_rollbackEntry {ok : Unit → (Tree × κ) × Bool → Prop} (h : Planned entries)
    (he : e ∈ entries) (hr : Restorable t e) (hcut : ∀ t', Step e t t' → cut ((t', x), false))
    (hok : ∀ t', Step e t t' → Undone t' e → ok () ((t', x), false)) :
    Act.wp (world String UInt8 K callbackFailed) (rollbackEntry e) ok err cut ((t, x), false) := by
  unfold rollbackEntry
  have hstart := hcut t (.refl hr)
  cases hhad : e.hadOriginal with
  | true =>
    simp only [if_true]
    rw [Act.wp_bind]
    refine wp_fileExists hstart ?_
    cases hb : t.exists? (backup e.relativePath) with
    | true =>
      rw [FileTree.exists?, Option.isSome_iff_ne_none] at hb
      exact wp_restoreBackup h he hr hhad hb hcut hok
    | false =>
      rw [FileTree.exists?, Option.isSome_eq_false_iff, Option.isNone_iff_eq_none] at hb
      exact hok t (.refl hr) ((undone_of_had hhad).mpr hb)
  | false =>
    simp only [Bool.false_eq_true, if_false]
    rw [Act.wp_bind]
    refine wp_fileExists hstart ?_
    cases hs : t.exists? (staged e.relativePath) with
    | true =>
      rw [FileTree.exists?, Option.isSome_iff_ne_none] at hs
      exact hok t (.refl hr) ((undone_of_new hhad).mpr (hr.new_staged hhad hs))
    | false =>
      refine wp_removeFileIfPresent (hr.new_not_dir hhad) hstart fun t' ht' => ?_
      have hundone : Undone t' e := by
        rw [undone_of_new hhad, ht', if_pos List.prefix_rfl]
      refine hok t' ⟨?_, hundone.restorable, fun r => ?_⟩ hundone
      · intro q hq
        rw [ht' q, if_neg (hq _ (.inl rfl))]
        exact .inl rfl
      · simp only [restored, hhad, Bool.false_eq_true, if_false]

end Steps

/-! ### Runs of rollback -/

section Runs

variable {κ : Type} {K : Machine callbackSig κ} {entries : List JournalEntry} {base t t' : Tree}
  {goal : JournalEntry → Path → Option (Node UInt8)} {x : κ} {e : JournalEntry}

/-- A tree with a journal, in which rollback will put `goal` at the destinations. Apart from the
places of the transaction it is the tree `base`. -/
structure Pending (entries : List JournalEntry) (base : Tree)
    (goal : JournalEntry → Path → Option (Node UInt8)) (t : Tree) : Prop where
  journal : t.node journalPath = some (.file (journalBytes entries))
  frame : ChangesBelow (transactionArea entries) base t
  restorable : ∀ e ∈ entries, Restorable t e
  restored_eq : ∀ e ∈ entries, ∀ r, restored t e r = goal e r

/-- A tree without a journal that has `goal` at the destinations. -/
structure Settled (entries : List JournalEntry) (base : Tree)
    (goal : JournalEntry → Path → Option (Node UInt8)) (t : Tree) : Prop where
  journal : t.node journalPath = none
  frame : ChangesBelow (transactionArea entries) base t
  node_eq : ∀ e ∈ entries, ∀ r, t.node (destination e.relativePath ++ r) = goal e r

def Recoverable (entries : List JournalEntry) (base : Tree)
    (goal : JournalEntry → Path → Option (Node UInt8)) (t : Tree) : Prop :=
  Pending entries base goal t ∨ Settled entries base goal t

/-- A change in the area of one entry, after which that entry can still be restored. -/
lemma Pending.change (h : Planned entries) (he : e ∈ entries) (hp : Pending entries base goal t)
    (ht : ChangesBelow (area e.relativePath) t t') (hr : Restorable t' e)
    (hgoal : ∀ r, restored t' e r = goal e r) : Pending entries base goal t' where
  journal := by
    rw [ht.node_eq (h.area_apart_record he isRecord_journalPath)]
    exact hp.journal
  frame := hp.frame.trans (Planned.changes_area he ht)
  restorable e' he' := by
    by_cases hee : e = e'
    · exact hee ▸ hr
    · exact (sameArea_of_changes h he he' hee ht).restorable (hp.restorable e' he')
  restored_eq e' he' r := by
    by_cases hee : e = e'
    · exact hee ▸ hgoal r
    · rw [(sameArea_of_changes h he he' hee ht).restored_eq, hp.restored_eq e' he']

/-- The markers may be written while a transaction is pending. -/
lemma Pending.record (h : Planned entries) (hp : Pending entries base goal t) {m : Path}
    (hm : IsRecord m) (hj : Apart m journalPath) (ht : ChangesBelow {m} t t') :
    Pending entries base goal t' where
  journal := by
    rw [ht.node_eq, hp.journal]
    rintro m' rfl
    exact hj
  frame := by
    refine hp.frame.trans (ht.mono ?_)
    rintro m' rfl
    exact ⟨_, .inl rfl, hm.1⟩
  restorable e he := (sameArea_of_record h he hm ht).restorable (hp.restorable e he)
  restored_eq e he r := by
    rw [(sameArea_of_record h he hm ht).restored_eq, hp.restored_eq e he]

lemma Pending.step (h : Planned entries) (he : e ∈ entries) (hp : Pending entries base goal t)
    (hs : Step e t t') : Pending entries base goal t' := by
  refine hp.change h he hs.changes hs.restorable fun r => ?_
  rw [hs.restored, hp.restored_eq e he]

/-- The records of a tree that are still there in another tree have not changed. -/
def KeepsRecords (t t' : Tree) : Prop := ∀ q, IsRecord q → t'.node q = t.node q ∨ t'.node q = none

lemma KeepsRecords.step (h : Planned entries) (he : e ∈ entries) {t'' : Tree}
    (hk : KeepsRecords t t') (hs : Step e t' t'') : KeepsRecords t t'' := by
  intro q hq
  rw [hs.changes.node_eq (h.area_apart_record he hq)]
  exact hk q hq

/-- When nothing is left to do, the loss of any part of the transaction directory is harmless. -/
lemma Pending.left_removeDirAll (h : Planned entries) (hp : Pending entries base goal t)
    (hu : ∀ e ∈ entries, Undone t e) (hl : t.Left (.removeDirAll transactionRoot) t') :
    Recoverable entries base goal t' := by
  have hbelow : ChangesBelow {transactionRoot} t t' :=
    hl.changesBelow ⟨transactionRoot, rfl, List.prefix_rfl⟩
  have hframe : ChangesBelow (transactionArea entries) base t' :=
    hp.frame.trans (hbelow.subset (Set.singleton_subset_iff.mpr (.inl rfl)))
  have hdest : ∀ e ∈ entries, ∀ r,
      t'.node (destination e.relativePath ++ r) = t.node (destination e.relativePath ++ r) := by
    intro e he r
    refine hbelow.node_eq ?_
    rintro a rfl
    exact (h.outside e he).append_right r
  have hpart := hl.node_removeDirAll
  have hundone : ∀ e ∈ entries, Undone t' e := by
    intro e he
    have hue := hu e he
    cases hhad : e.hadOriginal with
    | true =>
      rw [undone_of_had hhad] at hue ⊢
      exact (hpart _).elim (·.trans hue) id
    | false =>
      rw [undone_of_new hhad] at hue ⊢
      simpa [hue] using hdest e he []
  have hgoal : ∀ e ∈ entries, ∀ r, t'.node (destination e.relativePath ++ r) = goal e r := by
    intro e he r
    rw [hdest e he r, ← (hu e he).restored_eq r, hp.restored_eq e he r]
  rcases hpart journalPath with hj | hj
  · refine .inl ⟨hj.trans hp.journal, hframe, fun e he => (hundone e he).restorable, ?_⟩
    intro e he r
    rw [(hundone e he).restored_eq r, hgoal e he r]
  · exact .inr ⟨hj, hframe, hgoal⟩

/-- Rollback settles what is pending; cut short, it leaves it recoverable. -/
lemma Pending.wp_rollback (h : Planned entries) (hp : Pending entries base goal t) :
    Act.wp (world String UInt8 K callbackFailed) rollback
      (fun _ s => ∃ t', s = ((t', x), false) ∧ Settled entries base goal t' ∧
        t'.node transactionRoot = none)
      (fun _ _ => False)
      (fun s => ∃ t', s = ((t', x), false) ∧ Recoverable entries base goal t' ∧ KeepsRecords t t')
      ((t, x), false) := by
  have hstart : KeepsRecords t t := fun _ _ => .inl rfl
  have hexists : t.exists? journalPath = true := by
    rw [FileTree.exists?, hp.journal]
    rfl
  unfold rollback transactionExists
  rw [Act.wp_bind]
  refine wp_fileExists ⟨t, rfl, .inl hp, hstart⟩ ?_
  simp only [hexists, Bool.not_true, Bool.false_eq_true, if_false]
  rw [Act.wp_bind]
  refine wp_readJournal hp.journal h.toValidEntries ⟨t, rfl, .inl hp, hstart⟩ ?_
    (fun hb => by cases hb)
  rw [Act.wp_bind]
  -- the loop: what is done of the reversed list has been undone for good
  refine Act.wp_mono ?_ (fun _ _ h => h) (fun _ h => h)
    (Act.wp_forM (I := fun done s => ∃ t', s = ((t', x), false) ∧ Pending entries base goal t' ∧
      KeepsRecords t t' ∧ ∀ e ∈ done, Undone t' e) entries.reverse ?_ ?_)
  · rintro ⟨⟩ s ⟨t', rfl, hp', hkeeps, hdone⟩
    have hundone : ∀ e ∈ entries, Undone t' e := fun e he => hdone e (List.mem_reverse.mpr he)
    have hroot : t'.node transactionRoot = some .dir :=
      dir_above (q := journalPath) ⟨["journal"], rfl⟩ (by decide) (by simp [hp'.journal])
    obtain ⟨t'', hrem⟩ := removeDirAll_succeeds (by decide) hroot
    have hnode := removeDirAll_ok hrem
    refine wp_update_sure hrem ?_ ?_
    · intro t₁ hl
      refine ⟨t₁, rfl, hp'.left_removeDirAll h hundone hl, fun q hq => ?_⟩
      rcases hl.node_removeDirAll q with heq | hnone
      · exact heq ▸ hkeeps q hq
      · exact .inr hnone
    have hbelow : ChangesBelow {transactionRoot} t' t'' :=
      effect_changesBelow (u := .removeDirAll _) hrem ⟨transactionRoot, rfl, List.prefix_rfl⟩
    refine ⟨t'', rfl, ⟨?_, ?_, ?_⟩, ?_⟩
    · exact (hnode _).trans (if_pos ⟨["journal"], rfl⟩)
    · exact hp'.frame.trans (hbelow.subset (Set.singleton_subset_iff.mpr (.inl rfl)))
    · intro e he r
      rw [hnode, if_neg ((h.outside e he).append_right r).1, ← (hundone e he).restored_eq r,
        hp'.restored_eq e he r]
    · exact (hnode _).trans (if_pos List.prefix_rfl)
  · rintro pre e post hsplit s ⟨t', rfl, hp', hkeeps, hdone⟩
    have hmem : ∀ e' ∈ pre ++ [e], e' ∈ entries := by
      intro e' he'
      have : e' ∈ entries.reverse := by
        rw [hsplit]
        simp only [List.mem_append, List.mem_cons, List.not_mem_nil, or_false] at he' ⊢
        tauto
      exact List.mem_reverse.mp this
    have he := hmem e (by simp)
    refine wp_rollbackEntry h he (hp'.restorable e he) ?_ ?_
    · exact fun t'' hs => ⟨t'', rfl, .inl (hp'.step h he hs), hkeeps.step h he hs⟩
    · intro t'' hs hundone
      refine ⟨t'', rfl, hp'.step h he hs, hkeeps.step h he hs, ?_⟩
      intro e' he'
      by_cases hee : e = e'
      · exact hee ▸ hundone
      · have hpre : e' ∈ pre := by
          rcases List.mem_append.mp he' with hpre | hlast
          · exact hpre
          · exact absurd (List.mem_singleton.mp hlast).symm hee
        exact (sameArea_of_changes h he (hmem e' he') hee hs.changes).undone (hdone e' hpre)
  · exact ⟨t, rfl, hp, hstart, by simp⟩

/-- Without a journal, rollback does nothing. -/
lemma wp_rollback_of_no_journal {ok : Unit → (Tree × κ) × Bool → Prop}
    {err : IoError → (Tree × κ) × Bool → Prop} {cut : (Tree × κ) × Bool → Prop} {b : Bool}
    (hj : t.node journalPath = none) (hcut : cut ((t, x), b)) (hok : ok () ((t, x), b)) :
    Act.wp (world String UInt8 K callbackFailed) rollback ok err cut ((t, x), b) := by
  have hexists : t.exists? journalPath = false := by
    rw [FileTree.exists?, hj]
    rfl
  unfold rollback transactionExists
  rw [Act.wp_bind]
  refine wp_fileExists hcut ?_
  simp only [hexists, Bool.not_false, if_true]
  exact hok

/-- Every run of rollback without a failing operation keeps a tree recoverable, and one that is
answered to the end settles it. -/
lemma Recoverable.wp_rollback (h : Planned entries) (hr : Recoverable entries base goal t) :
    Act.wp (world String UInt8 K callbackFailed) rollback
      (fun _ s => ∃ t', s = ((t', x), false) ∧ Settled entries base goal t') (fun _ _ => False)
      (fun s => ∃ t', s = ((t', x), false) ∧ Recoverable entries base goal t' ∧ KeepsRecords t t')
      ((t, x), false) := by
  rcases hr with hp | hs
  · refine Act.wp_mono ?_ (fun _ _ h => h) (fun _ h => h) (hp.wp_rollback h)
    rintro ⟨⟩ s ⟨t', rfl, hs, -⟩
    exact ⟨t', rfl, hs⟩
  · exact wp_rollback_of_no_journal hs.journal ⟨t, rfl, .inr hs, fun _ _ => .inl rfl⟩ ⟨t, rfl, hs⟩

end Runs

end ThistleOS.BundleTransaction
