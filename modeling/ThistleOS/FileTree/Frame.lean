import Mathlib.Data.Set.Insert
import ThistleOS.FileTree.Machine

/-!
# Changes below a set of paths

Frame conditions: two trees that differ below some paths only, and in directories that were missing
on the way to them.
-/

namespace FileTree

variable {ν β : Type} {p q r a b : List ν}

/-- Neither path leads to the other. -/
def Apart (p q : List ν) : Prop := ¬ p <+: q ∧ ¬ q <+: p

instance [DecidableEq ν] : Decidable (Apart p q) := inferInstanceAs (Decidable (¬ _ ∧ ¬ _))

lemma Apart.symm (h : Apart p q) : Apart q p := ⟨h.2, h.1⟩

lemma Apart.irrefl : ¬ Apart p p := fun h => h.1 List.prefix_rfl

/-- What lies below two paths that are apart is apart. -/
lemma Apart.mono (h : Apart p q) (hp : p <+: a) (hq : q <+: b) : Apart a b := by
  constructor
  · intro hab
    exact (List.prefix_or_prefix_of_prefix (hp.trans hab) hq).elim h.1 h.2
  · intro hba
    exact (List.prefix_or_prefix_of_prefix hp (hq.trans hba)).elim h.1 h.2

lemma Apart.append_right (h : Apart p q) (r : List ν) : Apart p (q ++ r) :=
  h.mono List.prefix_rfl (List.prefix_append q r)

@[simp] lemma apart_append_left_iff (r : List ν) : Apart (r ++ p) (r ++ q) ↔ Apart p q := by
  simp only [Apart, List.prefix_append_right_inj]

lemma Apart.ne_nil (h : Apart p q) : q ≠ [] := by
  rintro rfl
  exact h.2 List.nil_prefix

/-! ### Changes -/

/-- Two trees agree except below the paths of `R` and in directories on the way to one of them. -/
def ChangesBelow (R : Set (List ν)) (t t' : FileTree ν β) : Prop :=
  ∀ q, (∀ a ∈ R, ¬ a <+: q) →
    t'.node q = t.node q ∨ t.node q = none ∧ t'.node q = some .dir ∧ ∃ a ∈ R, q <+: a

namespace ChangesBelow

variable {R R' : Set (List ν)} {t t' t'' : FileTree ν β}

lemma refl (R : Set (List ν)) (t : FileTree ν β) : ChangesBelow R t t := fun _ _ => .inl rfl

lemma trans (h : ChangesBelow R t t') (h' : ChangesBelow R t' t'') : ChangesBelow R t t'' := by
  intro q hq
  rcases h q hq with heq | ⟨hnone, hdir, hway⟩
  · rw [← heq]
    exact h' q hq
  · rcases h' q hq with heq' | ⟨hnone', -⟩
    · exact .inr ⟨hnone, heq'.trans hdir, hway⟩
    · rw [hdir] at hnone'
      cases hnone'

/-- Changes below a path are changes below any path that leads to it. -/
lemma mono (h : ChangesBelow R t t') (hR : ∀ a ∈ R, ∃ a' ∈ R', a' <+: a) :
    ChangesBelow R' t t' := by
  intro q hq
  have hnot : ∀ a ∈ R, ¬ a <+: q := by
    intro a ha haq
    obtain ⟨a', ha', hle⟩ := hR a ha
    exact hq a' ha' (hle.trans haq)
  rcases h q hnot with heq | ⟨hnone, hdir, a, ha, hqa⟩
  · exact .inl heq
  · obtain ⟨a', ha', hle⟩ := hR a ha
    have hway := (List.prefix_or_prefix_of_prefix hle hqa).resolve_left (hq a' ha')
    exact .inr ⟨hnone, hdir, a', ha', hway⟩

lemma subset (h : ChangesBelow R t t') (hR : R ⊆ R') : ChangesBelow R' t t' :=
  h.mono fun a ha => ⟨a, hR ha, List.prefix_rfl⟩

/-- Nothing changes apart from the paths of `R`. -/
lemma node_eq (h : ChangesBelow R t t') (hq : ∀ a ∈ R, Apart a q) : t'.node q = t.node q := by
  rcases h q fun a ha => (hq a ha).1 with heq | ⟨-, -, a, ha, hqa⟩
  · exact heq
  · exact absurd hqa (hq a ha).2

/-- No file comes or goes except below the paths of `R`. -/
lemma node_eq_file (h : ChangesBelow R t t') (hq : ∀ a ∈ R, ¬ a <+: q) {d : List β} :
    t'.node q = some (.file d) ↔ t.node q = some (.file d) := by
  rcases h q hq with heq | ⟨hnone, hdir, -⟩
  · rw [heq]
  · simp [hnone, hdir]

/-- No directory goes except below the paths of `R`. -/
lemma dir (h : ChangesBelow R t t') (hq : ∀ a ∈ R, ¬ a <+: q) (hd : t.node q = some .dir) :
    t'.node q = some .dir := by
  rcases h q hq with heq | ⟨-, hdir, -⟩
  · rw [heq, hd]
  · exact hdir

end ChangesBelow

/-- Two trees differ at most in directories that were missing on the way to `p`. -/
def Paves (p : List ν) (t t' : FileTree ν β) : Prop :=
  ∀ q, t'.node q = t.node q ∨ t.node q = none ∧ t'.node q = some .dir ∧ q <+: p ∧ q ≠ p

namespace Paves

variable {t t' : FileTree ν β}

lemma refl (p : List ν) (t : FileTree ν β) : Paves p t t := fun _ => .inl rfl

lemma changesBelow (h : Paves p t t') : ChangesBelow {p} t t' := by
  intro q _
  exact (h q).imp id fun hq => ⟨hq.1, hq.2.1, p, rfl, hq.2.2.1⟩

/-- Nothing changes at and below the path itself. -/
lemma node_append (h : Paves p t t') (r : List ν) : t'.node (p ++ r) = t.node (p ++ r) := by
  rcases h (p ++ r) with heq | ⟨-, -, hle, hne⟩
  · exact heq
  · have hlen := hle.length_le
    rw [List.length_append] at hlen
    have hr : r = [] := List.length_eq_zero_iff.mp (by omega)
    exact absurd (by rw [hr, List.append_nil]) hne

lemma node_self (h : Paves p t t') : t'.node p = t.node p := by
  simpa using h.node_append []

end Paves

section Update

variable [DecidableEq ν] {R : Set (List ν)} {t t' t'' : FileTree ν β} {u : FsUpdate ν β}

/-- An operation that works below the paths of `R`, or on the way to them. -/
def FsUpdate.Within (R : Set (List ν)) : FsUpdate ν β → Prop
  | .createDirAll p => ∃ a ∈ R, p <+: a ∨ a <+: p
  | .createDir p | .removeDirAll p | .removeFile p | .create p _ | .createNew p | .writeAll p _
  | .copy _ p _ => ∃ a ∈ R, a <+: p
  | .rename src dst | .replace src dst => (∃ a ∈ R, a <+: src) ∧ ∃ a ∈ R, a <+: dst
  | .openWrite _ | .syncAll _ => True

omit [DecidableEq ν] in
lemma FsUpdate.Within.not_touches (hu : u.Within R) (hmk : ∀ p, u ≠ .createDirAll p)
    (hq : ∀ a ∈ R, ¬ a <+: q) : ¬ u.Touches q := by
  have hbelow : ∀ p, (∃ a ∈ R, a <+: p) → ¬ p <+: q := by
    rintro p ⟨a, ha, hap⟩ hpq
    exact hq a ha (hap.trans hpq)
  cases u with
  | createDirAll p => exact absurd rfl (hmk p)
  | removeDirAll p => exact hbelow p hu
  | removeFile p => exact hbelow p hu
  | rename src dst => exact fun h => h.elim (hbelow src hu.1) (hbelow dst hu.2)
  | replace src dst => exact fun h => h.elim (hbelow src hu.1) (hbelow dst hu.2)
  | createDir p => exact fun h => hbelow p hu (h ▸ List.prefix_rfl)
  | createNew p => exact fun h => hbelow p hu (h ▸ List.prefix_rfl)
  | create p refused => exact fun h => hbelow p hu (h ▸ List.prefix_rfl)
  | writeAll p d => exact fun h => hbelow p hu (h ▸ List.prefix_rfl)
  | copy src p refused => exact fun h => hbelow p hu (h ▸ List.prefix_rfl)
  | openWrite p => exact not_false
  | syncAll p => exact not_false

lemma createDirAll_changesBelow (h : t.createDirAll p = .ok t')
    (hR : ∃ a ∈ R, p <+: a ∨ a <+: p) : ChangesBelow R t t' := by
  intro q hq
  rw [createDirAll_ok h q]
  obtain ⟨a, ha, hpa⟩ := hR
  by_cases hqp : q <+: p ∧ t.node q = none
  · refine .inr ⟨hqp.2, if_pos hqp, a, ha, ?_⟩
    rcases hpa with hpa | hap
    · exact hqp.1.trans hpa
    · exact (List.prefix_or_prefix_of_prefix hap hqp.1).resolve_left (hq a ha)
  · exact .inl (if_neg hqp)

lemma effect_changesBelow (h : t.effect u = .ok t') (hu : u.Within R) : ChangesBelow R t t' := by
  by_cases hmk : ∃ p, u = .createDirAll p
  · obtain ⟨p, rfl⟩ := hmk
    exact createDirAll_changesBelow h hu
  · intro q hq
    exact .inl (effect_frame h (hu.not_touches (fun p hp => hmk ⟨p, hp⟩) hq))

/-- The making of directories that is cut short has made some of them. -/
lemma left_createDirAll (h : t.Left (.createDirAll p) t') :
    t' = t ∨ ∃ q, q <+: p ∧ t.createDirAll q = .ok t' := by
  rcases h with rfl | ⟨f, rfl⟩
  · exact .inl rfl
  · exact (toOption_getD_eq rfl).imp id fun hok => ⟨_, List.take_prefix _ _, hok⟩

lemma Left.changesBelow (h : t.Left u t') (hu : u.Within R) : ChangesBelow R t t' := by
  by_cases hmk : ∃ p, u = .createDirAll p
  · obtain ⟨p, rfl⟩ := hmk
    rcases left_createDirAll h with rfl | ⟨q, hqp, hok⟩
    · exact .refl _ _
    · obtain ⟨a, ha, hpa⟩ := hu
      refine createDirAll_changesBelow hok ⟨a, ha, ?_⟩
      rcases hpa with hpa | hap
      · exact .inl (hqp.trans hpa)
      · exact List.prefix_or_prefix_of_prefix hqp hap
  · intro q hq
    exact .inl (h.frame (hu.not_touches (fun p hp => hmk ⟨p, hp⟩) hq))

lemma createDirAll_paves {path : List ν} (hne : path ≠ []) (hp : p <+: path.dropLast)
    (h : t.createDirAll p = .ok t') : Paves path t t' := by
  intro q
  rw [createDirAll_ok h q]
  by_cases hq : q <+: p ∧ t.node q = none
  · have hqp := hq.1.trans hp
    refine .inr ⟨hq.2, if_pos hq, hqp.trans (List.dropLast_prefix path), ?_⟩
    rintro rfl
    have hlen := hqp.length_le
    have hpos := List.length_pos_of_ne_nil hne
    rw [List.length_dropLast] at hlen
    omega
  · exact .inl (if_neg hq)

lemma Left.paves {path : List ν} (hne : path ≠ []) (h : t.Left (.createDirAll path.dropLast) t') :
    Paves path t t' := by
  rcases left_createDirAll h with rfl | ⟨q, hq, hok⟩
  · exact .refl _ _
  · exact createDirAll_paves hne hq hok

/-- A directory is made at once. -/
lemma Left.createDir (h : t.Left (.createDir p) t') : t' = t ∨ t.createDir p = .ok t' := by
  rcases h with rfl | ⟨f, rfl⟩
  · exact .inl rfl
  · simp only [part]
    split
    · exact .inl rfl
    · exact toOption_getD_eq rfl

/-- A renaming is never cut short. -/
lemma Left.eq_of_rename {src dst : List ν} (h : t.Left (.rename src dst) t') : t' = t := by
  rcases h with rfl | ⟨f, rfl⟩ <;> rfl

/-- What has been renamed can be renamed back, and then nothing has changed. -/
lemma rename_back {a c : List ν} (h : t.rename a c = .ok t') :
    ∃ t'', t'.rename c a = .ok t'' ∧ ∀ q, t''.node q = t.node q := by
  obtain ⟨hsrc, hdst, hsub, hnode⟩ := rename_ok h
  have hsub' : ¬ c <+: a := fun hle => node_ne_none_above hle hsrc hdst
  have ha : a ≠ [] := by
    rintro rfl
    exact hsub List.nil_prefix
  have hna : t'.node a = none := by rw [hnode, if_neg hsub', if_pos List.prefix_rfl]
  have hnc : t'.node c = t.node a := by
    rw [hnode, if_pos List.prefix_rfl, List.drop_length, List.append_nil]
  have hdir : t'.node a.dropLast = some .dir := by
    have hnc' : ¬ c <+: a.dropLast := fun hle => hsub' (hle.trans (List.dropLast_prefix a))
    have hna' : ¬ a <+: a.dropLast := by
      intro hle
      have hlen := hle.length_le
      have hpos := List.length_pos_of_ne_nil ha
      rw [List.length_dropLast] at hlen
      omega
    rw [hnode, if_neg hnc', if_neg hna', t.dir_dropLast hsrc]
  obtain ⟨t'', ht''⟩ := rename_succeeds (hnc ▸ hsrc) hna hdir hsub'
  refine ⟨t'', ht'', fun q => ?_⟩
  rw [(rename_ok ht'').2.2.2 q]
  by_cases haq : a <+: q
  · obtain ⟨r, rfl⟩ := haq
    rw [if_pos (List.prefix_append a r), hnode, List.drop_left, if_pos (List.prefix_append c r),
      List.drop_left]
  · rw [if_neg haq]
    by_cases hcq : c <+: q
    · obtain ⟨r, rfl⟩ := hcq
      rw [if_pos (List.prefix_append c r), node_append_eq_none hdst r]
    · rw [if_neg hcq, hnode, if_neg hcq, if_neg haq]

/-- A directory that is partly deleted has lost some of its entries. -/
lemma Left.node_removeDirAll (h : t.Left (.removeDirAll p) t') (q : List ν) :
    t'.node q = t.node q ∨ t'.node q = none := by
  rcases h with rfl | ⟨f, rfl⟩
  · exact .inl rfl
  · simp only [part]
    split
    · exact node_prune.imp id And.right
    · exact .inl rfl

lemma Left.eq_of_replace {src dst : List ν} (h : t.Left (.replace src dst) t') : t' = t := by
  rcases h with rfl | ⟨f, rfl⟩ <;> rfl

lemma Left.eq_of_removeFile (h : t.Left (.removeFile p) t') : t' = t := by
  rcases h with rfl | ⟨f, rfl⟩ <;> rfl

end Update

end FileTree
