import ThistleOS.Kernel.TapInstaller.Stage

/-!
# What an installation leaves behind

However it ends, an installation leaves its stage and nothing else, or the whole generation, with the
old record or the new one.
-/

open PowerLoss FileTree

namespace ThistleOS.TapInstaller

variable {P : Platform} {r : TapRequest} {k : UInt32} {file : List UInt8} {entries : List ZipEntry}
  {declared : List Declared} {t t' t₀ : Tree} {p q : Path} {fs : List Packed}

/-! ### Verified packages -/

/-- The checks of an archive before anything is written. -/
def checkArchive (P : Platform) (r : TapRequest) (file : List UInt8) :
    Except TapError (List ZipEntry × List Declared) := do
  let entries ← listEntries file
  let package ← readJson P file entries "package.json"
  let metadata ← readJson P file entries "metadata.json"
  let declared ← validateManifest package metadata entries r
  return (entries, declared)

/-- The files are those of an archive that has passed every check. -/
def Verified (P : Platform) (r : TapRequest) (file : List UInt8) (fs : List Packed) : Prop :=
  ∃ entries declared, checkArchive P r file = .ok (entries, declared) ∧
    List.Forall₂ (Unpacks P file declared) entries fs ∧ r.packageVerified = true ∧
    r.elfVerified = true

/-- What the record says. -/
def activeOf (P : Platform) (t : Tree) (p : Path) : Except TapError (Option Nat) :=
  if t.exists? p then
    match t.readFile p with
    | .ok text => (recordSequence P text).map some
    | .error _ => .error .io
  else .ok none

/-- The request does not go back behind the record, and its generation is not there yet. -/
structure Allowed (P : Platform) (r : TapRequest) (t : Tree) : Prop where
  free : t.node (r.destination P) = none
  forward : ∃ active, activeOf P t (r.activePath P) = .ok active ∧
    active.any (r.expectedSequence.toNat < ·) = false

/-- Nothing has changed but the stage, if it was not there before. -/
def Staged (P : Platform) (r : TapRequest) (k : UInt32) (t₀ t : Tree) : Prop :=
  Paves (r.stage P k) t₀ t ∨
    ChangesBelow {r.stage P k} t₀ t ∧ t₀.node (r.stage P k) = none

/-- The paths that an installation may change. -/
def reach (P : Platform) (r : TapRequest) (k : UInt32) : Set Path :=
  {r.stage P k, r.destination P, r.activeTmp P, r.activePath P}

/-- The generation is there, with a record that has not changed or is the new one. -/
structure Generated (P : Platform) (r : TapRequest) (k : UInt32) (record : Option (Node UInt8))
    (t₀ t : Tree) : Prop where
  change : ChangesBelow (reach P r k) t₀ t
  fresh : t₀.node (r.stage P k) = none
  allowed : Allowed P r t₀
  package : ∃ file fs, t₀.node r.tapPath = some (.file file) ∧ Verified P r file fs ∧
    Holds fs (r.destination P) t
  record : t.node (r.activePath P) = record

/-- What an installation leaves that comes to its end. -/
structure Recorded (P : Platform) (r : TapRequest) (k : UInt32) (t₀ t : Tree) : Prop where
  generated : Generated P r k (some (.file r.recordText)) t₀ t
  replaced : P.renameReplaces = true ∨ t₀.node (r.activePath P) = none

/-- What an installation may leave. -/
def Outcome (P : Platform) (r : TapRequest) (k : UInt32) (t₀ t : Tree) : Prop :=
  Staged P r k t₀ t ∨ Generated P r k (t₀.node (r.activePath P)) t₀ t ∨
    Generated P r k (some (.file r.recordText)) t₀ t

/-! ### Paths -/

lemma stage_ne_destination : r.stage P k ≠ r.destination P := by
  intro h
  have hname := List.append_cancel_left h
  have hmem : '.' ∈ (toString r.expectedSequence.toNat).toList := by
    rw [← (List.cons.inj hname).1]
    simp
  rw [Nat.toString_eq_repr, Nat.toList_repr] at hmem
  exact absurd (Nat.isDigit_of_mem_toDigits (by decide) (by decide) hmem) (by decide)

lemma apart_stage_destination : Apart (r.stage P k) (r.destination P) := by
  have hne := stage_ne_destination (P := P) (r := r) (k := k)
  constructor
  · intro h
    exact hne (h.eq_of_length (by simp [TapRequest.stage, TapRequest.destination]))
  · intro h
    exact hne (h.eq_of_length (by simp [TapRequest.stage, TapRequest.destination])).symm

lemma apart_generation_activePath (x : String) :
    Apart (r.generations P ++ [x]) (r.activePath P) := by
  rw [TapRequest.generations, TapRequest.activePath, List.append_assoc, apart_append_left_iff]
  simp [Apart]

lemma apart_generation_activeTmp (x : String) :
    Apart (r.generations P ++ [x]) (r.activeTmp P) := by
  rw [TapRequest.generations, TapRequest.activeTmp, List.append_assoc, apart_append_left_iff]
  simp [Apart]

lemma apart_activeTmp_activePath : Apart (r.activeTmp P) (r.activePath P) := by
  rw [TapRequest.activeTmp, TapRequest.activePath, apart_append_left_iff]
  simp [Apart]

lemma stage_mem_reach : r.stage P k ∈ reach P r k := by simp [reach]

lemma destination_mem_reach : r.destination P ∈ reach P r k := by simp [reach]

lemma activeTmp_mem_reach : r.activeTmp P ∈ reach P r k := by simp [reach]

lemma activePath_mem_reach : r.activePath P ∈ reach P r k := by simp [reach]

/-! ### Filling the stage and making it the generation -/

section Activate

/-- The stage is being filled. -/
structure Filling (P : Platform) (r : TapRequest) (k : UInt32) (t₀ t : Tree) : Prop where
  change : ChangesBelow {r.stage P k} t₀ t
  fresh : t₀.node (r.stage P k) = none
  allowed : Allowed P r t₀

lemma Filling.staged (h : Filling P r k t₀ t) : Staged P r k t₀ t := .inr ⟨h.change, h.fresh⟩

lemma Filling.node_eq (h : Filling P r k t₀ t) (hq : Apart (r.stage P k) q) : t.node q = t₀.node q :=
  h.change.node_eq fun _ ha => (Set.mem_singleton_iff.mp ha) ▸ hq

/-- A request that stays away from the generation and the record. -/
lemma Generated.keep {record : Option (Node UInt8)} (h : Generated P r k record t₀ t)
    (hchange : ChangesBelow (reach P r k) t t')
    (hkeep : ∀ q, r.destination P <+: q ∨ q = r.activePath P → t'.node q = t.node q) :
    Generated P r k record t₀ t' := by
  obtain ⟨file, fs, hfile, hverified, hholds⟩ := h.package
  refine ⟨h.change.trans hchange, h.fresh, h.allowed, ⟨file, fs, hfile, hverified, ⟨?_, fun q hq => ?_⟩⟩, ?_⟩
  · rw [hkeep _ (.inl List.prefix_rfl), hholds.root]
  · rw [hkeep _ (.inl (List.prefix_append _ _)), hholds.below q hq]
  · rw [hkeep _ (.inr rfl), h.record]

lemma Generated.left {record : Option (Node UInt8)} {u : FsUpdate String UInt8}
    (h : Generated P r k record t₀ t) (hu : u.Within (reach P r k))
    (hkeep : ∀ q, r.destination P <+: q ∨ q = r.activePath P → ¬ u.Touches q) (hl : t.Left u t') :
    Generated P r k record t₀ t' :=
  h.keep (hl.changesBelow hu) fun q hq => hl.frame (hkeep q hq)

lemma Generated.effect {record : Option (Node UInt8)} {u : FsUpdate String UInt8}
    (h : Generated P r k record t₀ t) (hu : u.Within (reach P r k))
    (hkeep : ∀ q, r.destination P <+: q ∨ q = r.activePath P → ¬ u.Touches q)
    (heff : t.effect u = .ok t') : Generated P r k record t₀ t' :=
  h.keep (effect_changesBelow heff hu) fun q hq => effect_frame heff (hkeep q hq)

/-- What lies below the generation and what is the record is not the temporary record. -/
lemma ne_activeTmp (hq : r.destination P <+: q ∨ q = r.activePath P) : q ≠ r.activeTmp P := by
  rintro rfl
  rcases hq with hle | heq
  · exact (apart_generation_activeTmp _).1 hle
  · exact absurd (heq ▸ apart_activeTmp_activePath) Apart.irrefl

/-- The stage becomes the generation. -/
lemma Filling.rename (h : Filling P r k t₀ t) (hholds : Holds fs (r.stage P k) t)
    (hfile : t₀.node r.tapPath = some (.file file)) (hverified : Verified P r file fs)
    (heff : t.effect (.rename (r.stage P k) (r.destination P)) = .ok t') :
    Generated P r k (t₀.node (r.activePath P)) t₀ t' := by
  have hwithin : (FsUpdate.rename (r.stage P k) (r.destination P) : FsUpdate String UInt8).Within
      (reach P r k) :=
    ⟨⟨_, stage_mem_reach, List.prefix_rfl⟩, ⟨_, destination_mem_reach, List.prefix_rfl⟩⟩
  obtain ⟨-, -, -, hnode⟩ := rename_ok heff
  have hrecord : Apart (r.stage P k) (r.activePath P) := apart_generation_activePath _
  have hrecord' : Apart (r.destination P) (r.activePath P) := apart_generation_activePath _
  refine ⟨?_, h.fresh, h.allowed, ⟨file, fs, hfile, hverified, ⟨?_, fun q hq => ?_⟩⟩, ?_⟩
  · refine (h.change.subset ?_).trans (effect_changesBelow heff hwithin)
    exact Set.singleton_subset_iff.mpr stage_mem_reach
  · rw [hnode, if_pos List.prefix_rfl, List.drop_length, List.append_nil, hholds.root]
  · rw [hnode, if_pos (List.prefix_append _ _), List.drop_left, hholds.below q hq]
  · rw [hnode, if_neg hrecord'.1, if_neg hrecord.1, h.node_eq hrecord]

/-- The new record takes the place of the old one. -/
lemma Generated.replace {record : Option (Node UInt8)} (h : Generated P r k record t₀ t)
    (hwithin : ChangesBelow (reach P r k) t t')
    (hnode : ∀ q, ¬ (r.activeTmp P <+: q ∨ r.activePath P <+: q) → t'.node q = t.node q)
    (hactive : t'.node (r.activePath P) = some (.file r.recordText)) :
    Generated P r k (some (.file r.recordText)) t₀ t' := by
  obtain ⟨file, fs, hfile, hverified, hholds⟩ := h.package
  have hkeep : ∀ q, t'.node (r.destination P ++ q) = t.node (r.destination P ++ q) := by
    intro q
    refine hnode _ ?_
    have htmp := (apart_generation_activeTmp (P := P) (r := r) (toString r.expectedSequence.toNat))
    have hrec := (apart_generation_activePath (P := P) (r := r) (toString r.expectedSequence.toNat))
    rintro (hle | hle)
    · exact (htmp.symm.mono List.prefix_rfl (List.prefix_append _ q)).1 hle
    · exact (hrec.symm.mono List.prefix_rfl (List.prefix_append _ q)).1 hle
  refine ⟨h.change.trans hwithin, h.fresh, h.allowed,
    ⟨file, fs, hfile, hverified, ⟨?_, fun q hq => ?_⟩⟩, hactive⟩
  · have hroot := hkeep []
    rw [List.append_nil] at hroot
    rw [hroot, hholds.root]
  · rw [hkeep, hholds.below q hq]

lemma wp_renameRecord (h : Generated P r k (t₀.node (r.activePath P)) t₀ t)
    (htmp : t.node (r.activeTmp P) = some (.file r.recordText)) :
    Act.wp (machine String UInt8) (renameRecord P r)
      (fun _ => Recorded P r k t₀) (fun _ => Outcome P r k t₀)
      (Outcome P r k t₀) t := by
  have hout : Outcome P r k t₀ t := .inr (.inl h)
  have hwithin : ∀ u : FsUpdate String UInt8,
      u = .replace (r.activeTmp P) (r.activePath P) ∨ u = .rename (r.activeTmp P) (r.activePath P) →
      u.Within (reach P r k) := by
    rintro u (rfl | rfl)
    · exact ⟨⟨_, activeTmp_mem_reach, List.prefix_rfl⟩, ⟨_, activePath_mem_reach, List.prefix_rfl⟩⟩
    · exact ⟨⟨_, activeTmp_mem_reach, List.prefix_rfl⟩, ⟨_, activePath_mem_reach, List.prefix_rfl⟩⟩
  rw [renameRecord]
  split_ifs with hreplaces
  · refine wp_request (fun t' hl => hl.eq_of_replace ▸ hout) (fun _ t' hl => hl.eq_of_replace ▸ hout)
      fun t' heff => ?_
    refine ⟨h.replace (effect_changesBelow heff (hwithin _ (.inl rfl)))
      (fun q hq => effect_frame heff hq) ?_, .inl hreplaces⟩
    rw [replace_ok heff htmp, if_pos rfl]
  · refine wp_request (fun t' hl => hl.eq_of_rename ▸ hout) (fun _ t' hl => hl.eq_of_rename ▸ hout)
      fun t' heff => ?_
    refine ⟨h.replace (effect_changesBelow heff (hwithin _ (.inr rfl)))
      (fun q hq => effect_frame heff hq) ?_, .inr (h.record ▸ (rename_ok heff).2.1)⟩
    rw [(rename_ok heff).2.2.2, if_pos List.prefix_rfl, List.drop_length, List.append_nil, htmp]

/-- The recording of a generation that is in its place. -/
lemma wp_record (h : Generated P r k (t₀.node (r.activePath P)) t₀ t) :
    Act.wp (machine String UInt8) (do
        request (.create (r.activeTmp P) none)
        request (.writeAll (r.activeTmp P) r.recordText)
        renameRecord P r
        return r.destination P)
      (fun _ => Recorded P r k t₀) (fun _ => Outcome P r k t₀)
      (Outcome P r k t₀) t := by
  have hbelow : ∃ a ∈ reach P r k, a <+: r.activeTmp P := ⟨_, activeTmp_mem_reach, List.prefix_rfl⟩
  have hcreate : (FsUpdate.create (r.activeTmp P) none : FsUpdate String UInt8).Within
      (reach P r k) := hbelow
  have hcreate' : ∀ q, r.destination P <+: q ∨ q = r.activePath P →
      ¬ (FsUpdate.create (r.activeTmp P) none : FsUpdate String UInt8).Touches q :=
    fun q hq => ne_activeTmp hq
  have hwrite : (FsUpdate.writeAll (r.activeTmp P) r.recordText).Within (reach P r k) := hbelow
  have hwrite' : ∀ q, r.destination P <+: q ∨ q = r.activePath P →
      ¬ (FsUpdate.writeAll (r.activeTmp P) r.recordText).Touches q := fun q hq => ne_activeTmp hq
  rw [Act.wp_bind]
  refine wp_request (fun t' hl => .inr (.inl (h.left hcreate hcreate' hl)))
    (fun _ t' hl => .inr (.inl (h.left hcreate hcreate' hl))) fun t₁ h₁ => ?_
  have hgen₁ := h.effect hcreate hcreate' h₁
  rw [Act.wp_bind]
  refine wp_request (fun t' hl => .inr (.inl (hgen₁.left hwrite hwrite' hl)))
    (fun _ t' hl => .inr (.inl (hgen₁.left hwrite hwrite' hl))) fun t₂ h₂ => ?_
  have hgen₂ := hgen₁.effect hwrite hwrite' h₂
  have htmp : t₂.node (r.activeTmp P) = some (.file r.recordText) := by
    have h₁ : t.create (r.activeTmp P) none = .ok t₁ := h₁
    have h₂ : t₁.append (r.activeTmp P) r.recordText = .ok t₂ := h₂
    obtain ⟨-, -, hnode₁⟩ := create_ok h₁
    obtain ⟨old, hold, hnode₂⟩ := append_ok h₂
    rw [hnode₁, if_pos rfl] at hold
    cases hold
    rw [hnode₂, if_pos rfl, List.nil_append]
  rw [Act.wp_bind]
  exact wp_renameRecord hgen₂ htmp

/-- What the filling, the renaming and the recording leave. -/
lemma wp_activate (hfile : t₀.node r.tapPath = some (.file file))
    (hcheck : checkArchive P r file = .ok (entries, declared)) (h : Filling P r k t₀ t) (hholds : Holds [] (r.stage P k) t) :
    Act.wp (machine String UInt8) (activate P r file entries declared (r.stage P k))
      (fun _ => Recorded P r k t₀) (fun _ => Outcome P r k t₀)
      (Outcome P r k t₀) t := by
  have hstaged : ∀ t', ChangesBelow {r.stage P k} t₀ t' → Outcome P r k t₀ t' :=
    fun t' hchange => .inl (.inr ⟨hchange, h.fresh⟩)
  unfold activate
  rw [Act.wp_bind]
  -- every entry adds its file to the stage
  refine Act.wp_mono ?_ (fun _ _ h => h) (fun _ h => h)
    (Act.wp_forM (I := fun done t' => Filling P r k t₀ t' ∧
      ∃ fs, List.Forall₂ (Unpacks P file declared) done fs ∧ Holds fs (r.stage P k) t') entries
      ?_ ⟨h, [], .nil, hholds⟩)
  · rintro _ t₁ ⟨h₁, fs, hfs, hholds₁⟩
    have hout : Outcome P r k t₀ t₁ := hstaged t₁ h₁.change
    cases hpackage : r.packageVerified with
    | false =>
      rw [if_pos (by rfl), Act.wp_bind]
      exact hout
    | true =>
      rw [if_neg (by decide)]
      cases helf : r.elfVerified with
      | false =>
        rw [if_pos (by rfl), Act.wp_bind]
        exact hout
      | true =>
        rw [if_neg (by decide), Act.wp_bind]
        have hverified : Verified P r file fs := ⟨entries, declared, hcheck, hfs, hpackage, helf⟩
        refine wp_request (fun t' hl => hl.eq_of_rename ▸ hout)
          (fun _ t' hl => hl.eq_of_rename ▸ hout) fun t₂ hrename => ?_
        exact wp_record (h₁.rename hholds₁ hfile hverified hrename)
  · rintro pre entry post - t₁ ⟨h₁, fs, hfs, hholds₁⟩
    refine Act.wp_mono ?_ (fun _ t' => hstaged t') hstaged (wp_extractInto h₁.change hholds₁)
    rintro _ t₂ ⟨hchange, f, hf, hholds₂⟩
    exact ⟨⟨hchange, h.fresh, h.allowed⟩, fs ++ [f], List.rel_append hfs (.cons hf .nil), hholds₂⟩

end Activate

/-! ### The whole installation -/

section

variable {err : TapError → Tree → Prop} {cut : Tree → Prop}

lemma wp_activeSequence {ok : Option Nat → Tree → Prop} (hcut : cut t) (herr : ∀ e, err e t)
    (hok : ∀ a, activeOf P t p = .ok a → ok a t) :
    Act.wp (machine String UInt8) (activeSequence P p) ok err cut t := by
  rw [activeSequence, Act.wp_bind]
  refine wp_requestExists hcut ?_
  cases hexists : t.exists? p with
  | false =>
    rw [if_pos (by rfl)]
    refine hok none ?_
    rw [activeOf, hexists]
    rfl
  | true =>
    rw [if_neg (by decide), Act.wp_bind]
    refine wp_requestRead hcut herr fun text htext => ?_
    rw [Act.wp_bind]
    refine wp_liftM herr fun sequence hsequence => hok (some sequence) ?_
    rw [activeOf, if_pos hexists, htext]
    simp only [hsequence, Except.map]

/-- The cleaning up after an error keeps what the installation leaves. -/
lemma wp_cleanup {e : TapError} (h : Outcome P r k t₀ t) (hfresh : t₀.node (r.stage P k) = none) :
    Act.wp (machine String UInt8) (do
        let _ ← (request (.removeDirAll (r.stage P k))).attempt
        throw e)
      (fun _ : Path => Recorded P r k t₀) (fun _ => Outcome P r k t₀)
      (Outcome P r k t₀) t := by
  have hwithin : (FsUpdate.removeDirAll (r.stage P k) : FsUpdate String UInt8).Within {r.stage P k} :=
    ⟨_, rfl, List.prefix_rfl⟩
  have hwithin' : (FsUpdate.removeDirAll (r.stage P k) : FsUpdate String UInt8).Within
      (reach P r k) := ⟨_, stage_mem_reach, List.prefix_rfl⟩
  have hkeep : ∀ q, r.destination P <+: q ∨ q = r.activePath P →
      ¬ (FsUpdate.removeDirAll (r.stage P k) : FsUpdate String UInt8).Touches q := by
    rintro q (hle | rfl)
    · exact (apart_stage_destination.mono List.prefix_rfl hle).1
    · exact (apart_generation_activePath _).1
  have hleft : ∀ t', t.Left (.removeDirAll (r.stage P k)) t' → Outcome P r k t₀ t' := by
    intro t' hl
    rcases h with (hpaves | ⟨hchange, -⟩) | hgen | hgen
    · exact .inl (.inr ⟨hpaves.changesBelow.trans (hl.changesBelow hwithin), hfresh⟩)
    · exact .inl (.inr ⟨hchange.trans (hl.changesBelow hwithin), hfresh⟩)
    · exact .inr (.inl (hgen.left hwithin' hkeep hl))
    · exact .inr (.inr (hgen.left hwithin' hkeep hl))
  rw [Act.wp_bind, Act.wp_attempt]
  refine wp_request hleft (fun _ => hleft) fun t' heff => ?_
  change Outcome P r k t₀ t'
  rcases h with (hpaves | ⟨hchange, -⟩) | hgen | hgen
  · exact .inl (.inr ⟨hpaves.changesBelow.trans (effect_changesBelow heff hwithin), hfresh⟩)
  · exact .inl (.inr ⟨hchange.trans (effect_changesBelow heff hwithin), hfresh⟩)
  · exact .inr (.inl (hgen.effect hwithin' hkeep heff))
  · exact .inr (.inr (hgen.effect hwithin' hkeep heff))

/-- However an installation ends, it leaves its stage and nothing else, or its generation. -/
theorem wp_installTapWith (P : Platform) (r : TapRequest) (k : UInt32) (t : Tree) :
    Act.wp (machine String UInt8) (installTapWith P r k)
      (fun _ => Recorded P r k t) (fun _ => Outcome P r k t)
      (Outcome P r k t) t := by
  have hsame : Outcome P r k t t := .inl (.inl (.refl _ _))
  unfold installTapWith
  rw [Act.wp_bind]
  refine wp_requestRead hsame (fun _ => hsame) fun file hfile => ?_
  rw [Act.wp_bind]
  refine wp_liftM (fun _ => hsame) fun entries hentries => ?_
  rw [Act.wp_bind]
  refine wp_readOn hsame (fun _ => hsame) ?_
  rw [Act.wp_bind]
  refine wp_liftM (fun _ => hsame) fun package hpackage => ?_
  rw [Act.wp_bind]
  refine wp_readOn hsame (fun _ => hsame) ?_
  rw [Act.wp_bind]
  refine wp_liftM (fun _ => hsame) fun metadata hmetadata => ?_
  rw [Act.wp_bind]
  refine wp_liftM (fun _ => hsame) fun declared hdeclared => ?_
  have hcheck : checkArchive P r file = .ok (entries, declared) := by
    simp only [checkArchive, hentries, hpackage, hmetadata, hdeclared, bind, Except.bind]
    rfl
  rw [Act.wp_bind]
  refine wp_requestExists hsame ?_
  cases hfree : t.exists? (r.destination P) with
  | true =>
    rw [if_pos rfl, Act.wp_bind]
    exact hsame
  | false =>
    rw [if_neg (by decide), Act.wp_bind]
    refine wp_activeSequence hsame (fun _ => hsame) fun active hactive => ?_
    by_cases hback : active.any (r.expectedSequence.toNat < ·) = true
    · rw [if_pos hback, Act.wp_bind]
      exact hsame
    rw [if_neg hback, Act.wp_bind]
    have hallowed : Allowed P r t := by
      refine ⟨?_, active, hactive, by simpa using hback⟩
      simpa [exists?] using hfree
    have hparent : r.generations P = (r.stage P k).dropLast := by
      rw [TapRequest.stage, List.dropLast_concat]
    have hne : r.stage P k ≠ [] := by simp [TapRequest.stage]
    have hstaged : ∀ t', t.Left (.createDirAll (r.generations P)) t' → Paves (r.stage P k) t t' :=
      fun t' hl => Left.paves hne (hparent ▸ hl)
    refine wp_request (fun t' hl => .inl (.inl (hstaged t' hl)))
      (fun _ t' hl => .inl (.inl (hstaged t' hl))) fun t₁ hdir => ?_
    have hpaves : Paves (r.stage P k) t t₁ := createDirAll_paves hne (hparent ▸ List.prefix_rfl) hdir
    -- a stage that has been made was missing
    have hmade : ∀ t', t₁.createDir (r.stage P k) = .ok t' → Filling P r k t t' := by
      intro t' hstage
      refine ⟨hpaves.changesBelow.trans ?_, ?_, hallowed⟩
      · exact effect_changesBelow (u := .createDir (r.stage P k)) hstage ⟨_, rfl, List.prefix_rfl⟩
      · rw [← hpaves.node_self]
        exact (createDir_ok hstage).1
    have hleft : ∀ t', t₁.Left (.createDir (r.stage P k)) t' → Outcome P r k t t' := by
      intro t' hl
      rcases hl.createDir with rfl | hstage
      · exact .inl (.inl hpaves)
      · exact .inl (hmade t' hstage).staged
    rw [Act.wp_bind]
    refine wp_request hleft (fun _ => hleft) fun t₂ hstage => ?_
    have hfilling := hmade t₂ hstage
    rw [Act.wp_bind, Act.wp_attempt]
    refine Act.wp_mono (fun _ _ h => h) (fun e t' h => ?_) (fun _ h => h)
      (wp_activate (readFile_ok hfile) hcheck hfilling (holds_nil_of_createDir hstage))
    exact wp_cleanup h hfilling.fresh

end

end ThistleOS.TapInstaller
