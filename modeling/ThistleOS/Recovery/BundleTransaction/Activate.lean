import Mathlib.Data.List.Nodup
import ThistleOS.Recovery.BundleTransaction.Prepare

/-!
# The activation of a bundle

Once the journal is there, every tree that the activation passes through can be rolled back to the
tree before the install. When all files are active, the firmware is written and selected.
-/

open PowerLoss FileTree

namespace ThistleOS.BundleTransaction

/-- What was at the destinations before an install over `t₀`. -/
def old (t₀ : Tree) (e : JournalEntry) (r : Path) : Option (Node UInt8) :=
  t₀.node (destination e.relativePath ++ r)

/-- Some file of the bundle brings `c` to the path. -/
def Brings (t₀ : Tree) (files : List BundleFile) (path : String) (c : List UInt8) : Prop :=
  ∃ f ∈ files, f.relativePath = path ∧ Provides t₀ f c

/-- An entry that the activation has not reached. -/
structure Untouched (t₀ : Tree) (files : List BundleFile) (t : Tree) (e : JournalEntry) : Prop where
  unchanged : ∀ r, t.node (destination e.relativePath ++ r) = old t₀ e r
  no_backup : t.node (backup e.relativePath) = none
  content : ∃ c, Brings t₀ files e.relativePath c ∧ t.node (staged e.relativePath) = some (.file c)

/-- An entry whose new file is in place. -/
structure Active (t₀ : Tree) (files : List BundleFile) (t : Tree) (e : JournalEntry) : Prop where
  content : ∃ c, Brings t₀ files e.relativePath c ∧
    t.node (destination e.relativePath) = some (.file c)
  no_staged : t.node (staged e.relativePath) = none
  backed : e.hadOriginal = true → ∀ r, t.node (backup e.relativePath ++ r) = old t₀ e r

section Activate

variable {κ : Type} {K : Machine callbackSig κ} {err : IoError → (Tree × κ) × Bool → Prop}
  {cut : (Tree × κ) × Bool → Prop} {t₀ t t' : Tree} {x : κ} {b : Bool} {files : List BundleFile}
  {entries : List JournalEntry} {e e' : JournalEntry}

/-- The entries tell which destinations were there before the install. -/
def Recorded (t₀ : Tree) (entries : List JournalEntry) : Prop :=
  ∀ e ∈ entries, e.hadOriginal = t₀.exists? (destination e.relativePath)

lemma recorded_entriesOf (t₀ : Tree) (files : List BundleFile) :
    Recorded t₀ (entriesOf t₀ files) := by
  intro e he
  obtain ⟨f, -, rfl⟩ := List.mem_map.mp he
  rfl

lemma Recorded.had (h : Recorded t₀ entries) (he : e ∈ entries) :
    e.hadOriginal = true ↔ t₀.node (destination e.relativePath) ≠ none := by
  rw [h e he, FileTree.exists?, Option.isSome_iff_ne_none]

lemma Recorded.new (h : Recorded t₀ entries) (he : e ∈ entries) (hnew : e.hadOriginal = false) :
    t₀.node (destination e.relativePath) = none := by
  by_contra hne
  rw [(h.had he).mpr hne] at hnew
  cases hnew

lemma SameArea.untouched (h : SameArea e.relativePath t t') (hu : Untouched t₀ files t e) :
    Untouched t₀ files t' e := by
  constructor
  · intro r
    rw [h.node_append _ (.inl rfl), hu.unchanged]
  · rw [h.node_eq (.inr (.inr rfl)), hu.no_backup]
  · rw [h.node_eq (.inr (.inl rfl))]
    exact hu.content

lemma SameArea.active (h : SameArea e.relativePath t t') (ha : Active t₀ files t e) :
    Active t₀ files t' e := by
  constructor
  · rw [h.node_eq (.inl rfl)]
    exact ha.content
  · rw [h.node_eq (.inr (.inl rfl)), ha.no_staged]
  · intro hhad r
    rw [h.node_append _ (.inr (.inr rfl)), ha.backed hhad]

/-- Directories on the way to an old destination stay. -/
lemma dir_above_destination (h : Planned entries) (he : e ∈ entries)
    (hframe : ChangesBelow (transactionArea entries) t₀ t)
    (hold : t₀.node (destination e.relativePath) ≠ none) {q : Path}
    (hq : q <+: destination e.relativePath) (hne : q ≠ destination e.relativePath) :
    t.node q = some .dir := by
  refine hframe.dir ?_ (dir_above hq hne hold)
  rintro a (rfl | ⟨e', he', rfl⟩) hle
  · exact (h.outside e he).1 (hle.trans hq)
  · by_cases hee : e' = e
    · subst hee
      exact hne (hq.eq_of_length (le_antisymm hq.length_le hle.length_le))
    · exact (h.apart_of_ne he' he hee).1 (hle.trans hq)

/-! ### Trees that can be rolled back to the old one -/

/-- The old file is still at its destination. -/
lemma pending_of_old (h : Planned entries) (hrec : Recorded t₀ entries) (he : e ∈ entries)
    (hp : Pending entries t₀ (old t₀) t) (ht : ChangesBelow (area e.relativePath) t t')
    (hold : ∀ r, t'.node (destination e.relativePath ++ r) = old t₀ e r)
    (hb : t'.node (backup e.relativePath) = none) : Pending entries t₀ (old t₀) t' := by
  have hundone : Undone t' e := by
    cases hhad : e.hadOriginal with
    | true => exact (undone_of_had hhad).mpr hb
    | false =>
      have hnone := hold []
      rw [old, List.append_nil, hrec.new he hhad] at hnone
      exact (undone_of_new hhad).mpr hnone
  refine hp.change h he ht hundone.restorable fun r => ?_
  rw [hundone.restored_eq, hold]

/-- The old file is in its backup. -/
lemma pending_of_backed (h : Planned entries) (hrec : Recorded t₀ entries) (he : e ∈ entries)
    (hp : Pending entries t₀ (old t₀) t) (ht : ChangesBelow (area e.relativePath) t t')
    (hhad : e.hadOriginal = true)
    (hb : ∀ r, t'.node (backup e.relativePath ++ r) = old t₀ e r)
    (hdir : t'.node (destination e.relativePath) ≠ some .dir) :
    Pending entries t₀ (old t₀) t' := by
  have hold := (hrec.had he).mp hhad
  have hframe := hp.frame.trans (Planned.changes_area he ht)
  have hself : t'.node (backup e.relativePath) ≠ none := by
    have := hb []
    rw [old, List.append_nil, List.append_nil] at this
    rwa [this]
  refine hp.change h he ht ⟨fun _ _ => hdir, ?_, fun _ => hdir, ?_⟩ fun r => ?_
  · intro _ _ q d hq hne
    rw [dir_above_destination h he hframe hold hq hne]
    simp
  · intro hnew
    rw [hhad] at hnew
    cases hnew
  · have hthere : t'.exists? (backup e.relativePath) = true := by
      rwa [FileTree.exists?, Option.isSome_iff_ne_none]
    simp only [restored, hhad, if_true, hthere, hb r]

/-- There was no old file, and the new one is no longer staged. -/
lemma pending_of_new (h : Planned entries) (hrec : Recorded t₀ entries) (he : e ∈ entries)
    (hp : Pending entries t₀ (old t₀) t) (ht : ChangesBelow (area e.relativePath) t t')
    (hnew : e.hadOriginal = false) (hs : t'.node (staged e.relativePath) = none)
    (hdir : t'.node (destination e.relativePath) ≠ some .dir) :
    Pending entries t₀ (old t₀) t' := by
  refine hp.change h he ht ⟨?_, ?_, fun _ => hdir, fun _ hne => absurd hs hne⟩ fun r => ?_
  · intro hhad
    rw [hnew] at hhad
    cases hhad
  · intro hhad
    rw [hnew] at hhad
    cases hhad
  · rw [old, node_append_eq_none (hrec.new he hnew)]
    simp only [restored, hnew, Bool.false_eq_true, if_false]

/-! ### The steps of the activation -/

/-- An entry whose destination is free for the new file. -/
structure Vacated (t₀ : Tree) (files : List BundleFile) (t : Tree) (e : JournalEntry) : Prop where
  vacant : t.node (destination e.relativePath) = none
  content : ∃ c, Brings t₀ files e.relativePath c ∧ t.node (staged e.relativePath) = some (.file c)
  backed : e.hadOriginal = true → ∀ r, t.node (backup e.relativePath ++ r) = old t₀ e r

lemma Planned.apart_staged (h : Planned entries) (he : e ∈ entries) :
    Apart (destination e.relativePath) (staged e.relativePath) :=
  (h.outside e he).symm.mono List.prefix_rfl (transactionRoot_prefix_staged _)

lemma Planned.apart_backup (h : Planned entries) (he : e ∈ entries) :
    Apart (destination e.relativePath) (backup e.relativePath) :=
  (h.outside e he).symm.mono List.prefix_rfl (transactionRoot_prefix_backup _)

lemma apart_staged_backup (path : String) : Apart (staged path) (backup path) := by
  have hsb : Apart stageDir backupDir := by decide
  exact hsb.mono (List.prefix_append _ _) (List.prefix_append _ _)

/-- A destination that is free stays recoverable while the directories on the way to it are made. -/
lemma Vacated.pending (h : Planned entries) (hrec : Recorded t₀ entries) (he : e ∈ entries)
    (hp : Pending entries t₀ (old t₀) t) (ht : ChangesBelow (area e.relativePath) t t')
    (hv : Vacated t₀ files t' e) : Pending entries t₀ (old t₀) t' := by
  have hdir : t'.node (destination e.relativePath) ≠ some .dir := by simp [hv.vacant]
  cases hhad : e.hadOriginal with
  | true => exact pending_of_backed h hrec he hp ht hhad (hv.backed hhad) hdir
  | false =>
    have hold : ∀ r, t'.node (destination e.relativePath ++ r) = old t₀ e r := by
      intro r
      rw [node_append_eq_none hv.vacant, old, node_append_eq_none (hrec.new he hhad)]
    have hundone : Undone t' e := (undone_of_new hhad).mpr hv.vacant
    refine hp.change h he ht hundone.restorable fun r => ?_
    rw [hundone.restored_eq, hold]

/-- The old file of an entry goes to its backup. -/
lemma wp_backupEntry {ok : Unit → (Tree × κ) × Bool → Prop} (h : Planned entries)
    (hrec : Recorded t₀ entries) (he : e ∈ entries) (hp : Pending entries t₀ (old t₀) t)
    (hu : Untouched t₀ files t e)
    (hcut : ∀ t', Pending entries t₀ (old t₀) t' → ChangesBelow (area e.relativePath) t t' →
      cut ((t', x), b))
    (herr : ∀ e' t', Pending entries t₀ (old t₀) t' → ChangesBelow (area e.relativePath) t t' →
      err e' ((t', x), false))
    (hok : ∀ t', Pending entries t₀ (old t₀) t' → ChangesBelow (area e.relativePath) t t' →
      Vacated t₀ files t' e → ok () ((t', x), b)) :
    Act.wp (world String UInt8 K callbackFailed) (do
      ensureParent (backup e.relativePath)
      update (.rename (destination e.relativePath) (backup e.relativePath))) ok err cut
      ((t, x), b) := by
  have hbackup_ne : backup e.relativePath ≠ [] := by simp [backup, backupDir, transactionRoot]
  have hpaved : ∀ t', Paves (backup e.relativePath) t t' →
      ChangesBelow (area e.relativePath) t t' ∧ Pending entries t₀ (old t₀) t' := by
    intro t' hpave
    have ht' : ChangesBelow (area e.relativePath) t t' :=
      hpave.changesBelow.subset (Set.singleton_subset_iff.mpr (.inr (.inr rfl)))
    refine ⟨ht', pending_of_old h hrec he hp ht' (fun r => ?_) (hpave.node_self.trans hu.no_backup)⟩
    rw [hpave.changesBelow.node_eq, hu.unchanged]
    rintro a rfl
    exact (h.apart_backup he).symm.append_right r
  rw [Act.wp_bind]
  apply wp_ensureParent hbackup_ne
  · exact fun t' hpave => hcut t' (hpaved t' hpave).2 (hpaved t' hpave).1
  · intro t₁ hpave _
    obtain ⟨hc₁, hp₁⟩ := hpaved t₁ hpave
    have hstaged : t₁.node (staged e.relativePath) = t.node (staged e.relativePath) := by
      refine hpave.changesBelow.node_eq ?_
      rintro a rfl
      exact (apart_staged_backup _).symm
    have hunchanged : ∀ r, t₁.node (destination e.relativePath ++ r) = old t₀ e r := by
      intro r
      rw [hpave.changesBelow.node_eq, hu.unchanged]
      rintro a rfl
      exact (h.apart_backup he).symm.append_right r
    apply wp_update
    · exact fun t' hl => hl.eq_of_rename ▸ hcut t₁ hp₁ hc₁
    · intro t₂ hren
      obtain ⟨-, -, -, hnode⟩ := rename_ok hren
      have hc₂ : ChangesBelow (area e.relativePath) t₁ t₂ := effect_changesBelow hren
        ⟨⟨_, .inl rfl, List.prefix_rfl⟩, ⟨_, .inr (.inr rfl), List.prefix_rfl⟩⟩
      have hv : Vacated t₀ files t₂ e := by
        constructor
        · rw [hnode, if_neg (h.apart_backup he).2, if_pos List.prefix_rfl]
        · rw [hnode, if_neg (apart_staged_backup _).2, if_neg (h.apart_staged he).1, hstaged]
          exact hu.content
        · intro _ r
          rw [hnode, if_pos (List.prefix_append _ _), List.drop_left, hunchanged]
      exact hok t₂ (hv.pending h hrec he hp₁ hc₂) (hc₁.trans hc₂) hv
    · exact fun kind _ => herr _ t₁ hp₁ hc₁
    · exact fun _ t' hl => hl.eq_of_rename ▸ herr _ t₁ hp₁ hc₁
  · exact fun _ e' t' hpave => herr e' t' (hpaved t' hpave).2 (hpaved t' hpave).1

/-- The new file of an entry goes to its destination. -/
lemma wp_moveIn {ok : Unit → (Tree × κ) × Bool → Prop} (h : Planned entries)
    (hrec : Recorded t₀ entries) (he : e ∈ entries) (hp : Pending entries t₀ (old t₀) t)
    (hv : Vacated t₀ files t e)
    (hcut : ∀ t', Pending entries t₀ (old t₀) t' → ChangesBelow (area e.relativePath) t t' →
      cut ((t', x), b))
    (herr : ∀ e' t', Pending entries t₀ (old t₀) t' → ChangesBelow (area e.relativePath) t t' →
      err e' ((t', x), false))
    (hok : ∀ t', Pending entries t₀ (old t₀) t' → ChangesBelow (area e.relativePath) t t' →
      Active t₀ files t' e → ok () ((t', x), b)) :
    Act.wp (world String UInt8 K callbackFailed) (do
      ensureParent (destination e.relativePath)
      update (.rename (staged e.relativePath) (destination e.relativePath))) ok err cut
      ((t, x), b) := by
  have hvacated : ∀ t', Paves (destination e.relativePath) t t' → Vacated t₀ files t' e := by
    intro t' hpave
    have hnode : ∀ q, Apart (destination e.relativePath) q → t'.node q = t.node q := by
      intro q hq
      refine hpave.changesBelow.node_eq ?_
      rintro a rfl
      exact hq
    constructor
    · rw [hpave.node_self, hv.vacant]
    · rw [hnode _ (h.apart_staged he)]
      exact hv.content
    · intro hhad r
      rw [hnode _ ((h.apart_backup he).append_right r), hv.backed hhad]
  have hpaved : ∀ t', Paves (destination e.relativePath) t t' →
      ChangesBelow (area e.relativePath) t t' ∧ Pending entries t₀ (old t₀) t' := by
    intro t' hpave
    have ht' : ChangesBelow (area e.relativePath) t t' :=
      hpave.changesBelow.subset (Set.singleton_subset_iff.mpr (.inl rfl))
    exact ⟨ht', (hvacated t' hpave).pending h hrec he hp ht'⟩
  rw [Act.wp_bind]
  apply wp_ensureParent (h.destination_ne_nil he)
  · exact fun t' hpave => hcut t' (hpaved t' hpave).2 (hpaved t' hpave).1
  · intro t₁ hpave _
    obtain ⟨hc₁, hp₁⟩ := hpaved t₁ hpave
    have hv₁ := hvacated t₁ hpave
    apply wp_update
    · exact fun t' hl => hl.eq_of_rename ▸ hcut t₁ hp₁ hc₁
    · intro t₂ hren
      obtain ⟨-, -, -, hnode⟩ := rename_ok hren
      have hc₂ : ChangesBelow (area e.relativePath) t₁ t₂ := effect_changesBelow hren
        ⟨⟨_, .inr (.inl rfl), List.prefix_rfl⟩, ⟨_, .inl rfl, List.prefix_rfl⟩⟩
      have hdest : t₂.node (destination e.relativePath) = t₁.node (staged e.relativePath) := by
        rw [hnode, if_pos List.prefix_rfl, List.drop_length, List.append_nil]
      have ha : Active t₀ files t₂ e := by
        constructor
        · rw [hdest]
          exact hv₁.content
        · rw [hnode, if_neg (h.apart_staged he).1, if_pos List.prefix_rfl]
        · intro hhad r
          rw [hnode, if_neg ((h.apart_backup he).append_right r).1,
            if_neg ((apart_staged_backup _).append_right r).1, hv₁.backed hhad]
      obtain ⟨c, -, hc⟩ := ha.content
      have hdir : t₂.node (destination e.relativePath) ≠ some .dir := by simp [hc]
      have hp₂ : Pending entries t₀ (old t₀) t₂ := by
        cases hhad : e.hadOriginal with
        | true => exact pending_of_backed h hrec he hp₁ hc₂ hhad (ha.backed hhad) hdir
        | false => exact pending_of_new h hrec he hp₁ hc₂ hhad ha.no_staged hdir
      exact hok t₂ hp₂ (hc₁.trans hc₂) ha
    · exact fun kind _ => herr _ t₁ hp₁ hc₁
    · exact fun _ t' hl => hl.eq_of_rename ▸ herr _ t₁ hp₁ hc₁
  · exact fun _ e' t' hpave => herr e' t' (hpaved t' hpave).2 (hpaved t' hpave).1

lemma wp_activateEntry {P : κ → Prop} {i : Nat} {ok : Unit → (Tree × κ) × Bool → Prop}
    (h : Planned entries) (hrec : Recorded t₀ entries) (hK : BoundaryKeeps K P) (hx : P x)
    (he : e ∈ entries) (hp : Pending entries t₀ (old t₀) t) (hu : Untouched t₀ files t e)
    (hcut : ∀ t' x', Pending entries t₀ (old t₀) t' → ChangesBelow (area e.relativePath) t t' →
      P x' → cut ((t', x'), b))
    (herr : ∀ e' t' x', Pending entries t₀ (old t₀) t' →
      ChangesBelow (area e.relativePath) t t' → P x' → err e' ((t', x'), false))
    (hok : ∀ t' x', Pending entries t₀ (old t₀) t' → ChangesBelow (area e.relativePath) t t' →
      Active t₀ files t' e → P x' → ok () ((t', x'), b)) :
    Act.wp (world String UInt8 K callbackFailed) (activateEntry (e, i)) ok err cut ((t, x), b) := by
  have hrefl : ChangesBelow (area e.relativePath) t t := .refl _ _
  -- the second half: the destination is free
  have hmove : ∀ t₁ x₁, Pending entries t₀ (old t₀) t₁ → ChangesBelow (area e.relativePath) t t₁ →
      Vacated t₀ files t₁ e → P x₁ →
      Act.wp (world String UInt8 K callbackFailed) (do
        boundary (.activateFile i)
        ensureParent (destination e.relativePath)
        update (.rename (staged e.relativePath) (destination e.relativePath))) ok err cut
        ((t₁, x₁), b) := by
    intro t₁ x₁ hp₁ hc₁ hv₁ hx₁
    rw [Act.wp_bind]
    apply wp_boundary hK hx₁ (fun x' => hcut t₁ x' hp₁ hc₁) (fun e' x' => herr e' t₁ x' hp₁ hc₁)
    intro x₂ hx₂
    apply wp_moveIn h hrec he hp₁ hv₁
    · exact fun t' hp' hc' => hcut t' x₂ hp' (hc₁.trans hc') hx₂
    · exact fun e' t' hp' hc' => herr e' t' x₂ hp' (hc₁.trans hc') hx₂
    · exact fun t' hp' hc' ha' => hok t' x₂ hp' (hc₁.trans hc') ha' hx₂
  simp only [activateEntry]
  cases hhad : e.hadOriginal with
  | true =>
    simp only [if_true]
    rw [Act.wp_bind]
    apply wp_boundary hK hx (fun x' => hcut t x' hp hrefl) (fun e' x' => herr e' t x' hp hrefl)
    intro x₁ hx₁
    rw [← bind_assoc, Act.wp_bind]
    apply wp_backupEntry h hrec he hp hu
    · exact fun t' hp' hc' => hcut t' x₁ hp' hc' hx₁
    · exact fun e' t' hp' hc' => herr e' t' x₁ hp' hc' hx₁
    · exact fun t' hp' hc' hv' => hmove t' x₁ hp' hc' hv' hx₁
  | false =>
    simp only [Bool.false_eq_true, if_false]
    refine hmove t x hp hrefl ⟨?_, hu.content, ?_⟩ hx
    · have hnone := hu.unchanged []
      rwa [old, List.append_nil, hrec.new he hhad] at hnone
    · intro hyes
      rw [hhad] at hyes
      cases hyes

/-- Every file is moved in, or the old tree can still be restored. -/
lemma wp_activateEntries {P : κ → Prop} {ok : Unit → (Tree × κ) × Bool → Prop}
    (h : Planned entries) (hrec : Recorded t₀ entries) (hK : BoundaryKeeps K P) (hx : P x)
    (hp : Pending entries t₀ (old t₀) t) (hu : ∀ e ∈ entries, Untouched t₀ files t e)
    (hcut : ∀ t' x', Pending entries t₀ (old t₀) t' → KeepsRecords t t' → P x' →
      cut ((t', x'), b))
    (herr : ∀ e' t' x', Pending entries t₀ (old t₀) t' → KeepsRecords t t' → P x' →
      err e' ((t', x'), false))
    (hok : ∀ t' x', Pending entries t₀ (old t₀) t' → KeepsRecords t t' →
      (∀ e ∈ entries, Active t₀ files t' e) → P x' → ok () ((t', x'), b)) :
    Act.wp (world String UInt8 K callbackFailed) (entries.zipIdx.forM activateEntry) ok err cut
      ((t, x), b) := by
  have hnodup : entries.Nodup := List.Nodup.of_map _ h.nodup
  -- the loop: the entries that are done are active, the others have not been touched
  refine Act.wp_mono ?_ (fun _ _ h => h) (fun _ h => h)
    (Act.wp_forM (I := fun done s => ∃ t' x', s = ((t', x'), b) ∧
      Pending entries t₀ (old t₀) t' ∧ KeepsRecords t t' ∧ P x' ∧ ∀ e ∈ entries,
        (e ∈ done.map Prod.fst → Active t₀ files t' e) ∧
        (e ∉ done.map Prod.fst → Untouched t₀ files t' e)) entries.zipIdx ?_ ?_)
  · rintro ⟨⟩ s ⟨t', x', rfl, hp', hk', hx', hdone⟩
    rw [List.zipIdx_map_fst] at hdone
    exact hok t' x' hp' hk' (fun e he => (hdone e he).1 he) hx'
  · rintro pre ⟨e, i⟩ post hsplit s ⟨t', x', rfl, hp', hk', hx', hdone⟩
    have hlist : entries = pre.map Prod.fst ++ e :: post.map Prod.fst := by
      rw [← List.zipIdx_map_fst 0 entries, hsplit]
      simp
    have he : e ∈ entries := by simp [hlist]
    have hfresh : e ∉ pre.map Prod.fst := by
      intro hmem
      rw [hlist, List.nodup_append] at hnodup
      exact hnodup.2.2 e hmem e List.mem_cons_self rfl
    have hkeeps : ∀ t'', ChangesBelow (area e.relativePath) t' t'' → KeepsRecords t t'' := by
      intro t'' hc q hq
      rw [hc.node_eq (h.area_apart_record he hq)]
      exact hk' q hq
    apply wp_activateEntry h hrec hK hx' he hp' ((hdone e he).2 hfresh)
    · exact fun t'' x'' hp'' hc hx'' => hcut t'' x'' hp'' (hkeeps t'' hc) hx''
    · exact fun e' t'' x'' hp'' hc hx'' => herr e' t'' x'' hp'' (hkeeps t'' hc) hx''
    · intro t'' x'' hp'' hc ha hx''
      refine ⟨t'', x'', rfl, hp'', hkeeps t'' hc, hx'', fun e' he' => ?_⟩
      by_cases hee : e = e'
      · subst hee
        exact ⟨fun _ => ha, fun hnot => absurd (by simp) hnot⟩
      · rw [List.map_append, List.mem_append, List.map_cons, List.map_nil, List.mem_singleton]
        constructor
        · rintro (hmem | heq)
          · exact (sameArea_of_changes h he he' hee hc).active ((hdone e' he').1 hmem)
          · exact absurd heq.symm hee
        · intro hnot
          exact (sameArea_of_changes h he he' hee hc).untouched
            ((hdone e' he').2 fun hmem => hnot (.inl hmem))
  · exact ⟨t, x, rfl, hp, fun _ _ => .inl rfl, hx, fun e he => ⟨by simp, fun _ => hu e he⟩⟩

end Activate

end ThistleOS.BundleTransaction
