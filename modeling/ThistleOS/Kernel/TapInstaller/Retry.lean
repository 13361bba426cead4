import ThistleOS.Kernel.TapInstaller.Outcome

/-!
# Installing again

An installation that has failed or lost the power, wherever that was, can be made again exactly as
long as it has not come to its generation and its stage is not in the way of the next one.
-/

open PowerLoss FileTree

namespace ThistleOS.TapInstaller

variable {P : Platform} {r : TapRequest} {k k' : UInt32} {file : List UInt8}
  {entries : List ZipEntry} {declared : List Declared} {entry : ZipEntry} {t t' t₀ : Tree}
  {stage p q : Path} {fs : List Packed} {f : Packed}

/-- The installed generations and the record are as they were, unless the record is the new one. -/
structure KeepsInstalled (P : Platform) (r : TapRequest) (t t' : Tree) : Prop where
  generations : ∀ x q, t.node (r.generations P ++ [x]) ≠ none → r.generations P ++ [x] <+: q →
    t'.node q = t.node q
  record : t'.node (r.activePath P) = t.node (r.activePath P) ∨
    t'.node (r.activePath P) = some (.file r.recordText)

/-- An archive that passes every check, with files that can be side by side. -/
def ValidArchive (P : Platform) (r : TapRequest) (file : List UInt8) : Prop :=
  ∃ entries declared fs, checkArchive P r file = .ok (entries, declared) ∧
    List.Forall₂ (Unpacks P file declared) entries fs ∧
    fs.Pairwise (fun f g => Apart f.1 g.1) ∧ r.packageVerified = true ∧ r.elfVerified = true

/-- A card with the archive, on which the installed apps do not stand in the way of the installer:
there are directories where it needs them, and the record does not forbid the installation. -/
structure Prior (P : Platform) (r : TapRequest) (file : List UInt8) (t : Tree) : Prop where
  archive : t.node r.tapPath = some (.file file)
  aside : ¬ r.generations P <+: r.tapPath
  clear : ∀ q d, q <+: r.generations P → t.node q ≠ some (.file d)
  tmp : t.node (r.activeTmp P) ≠ some .dir
  record : ∃ active, activeOf P t (r.activePath P) = .ok active ∧
    active.any (r.expectedSequence.toNat < ·) = false

/-- A call that nothing disturbs returns `Ok`. -/
def Installs (P : Platform) (r : TapRequest) (k : UInt32) (t : Tree) : Prop :=
  ∃ destination t', Act.perform (machine String UInt8) (installTapWith P r k) t =
    (.ok destination, t')

/-- The generation is not there, the stage is free, and the record can be put in its place. -/
structure Ready (P : Platform) (r : TapRequest) (k : UInt32) (t : Tree) : Prop where
  destination : t.node (r.destination P) = none
  stage : t.node (r.stage P k) = none
  record : P.renameReplaces = true ∨ t.node (r.activePath P) = none

/-! ### What is kept -/

lemma apart_of_present {x y : String} (hx : t.node (r.generations P ++ [x]) ≠ none)
    (hy : t.node (r.generations P ++ [y]) = none) :
    Apart (r.generations P ++ [y]) (r.generations P ++ [x]) := by
  have hne : y ≠ x := by
    rintro rfl
    exact hx hy
  rw [apart_append_left_iff]
  simp [Apart, hne, Ne.symm hne]

lemma Staged.record (h : Staged P r k t t') :
    t'.node (r.activePath P) = t.node (r.activePath P) := by
  have hchange : ChangesBelow {r.stage P k} t t' := h.elim Paves.changesBelow And.left
  refine hchange.node_eq fun a ha => ?_
  rw [Set.mem_singleton_iff.mp ha]
  exact apart_generation_activePath _

lemma Generated.generations {record : Option (Node UInt8)} (h : Generated P r k record t t')
    {x : String} (hx : t.node (r.generations P ++ [x]) ≠ none)
    (hq : r.generations P ++ [x] <+: q) : t'.node q = t.node q := by
  refine h.change.node_eq fun a ha => ?_
  rcases ha with rfl | rfl | rfl | rfl
  · exact (apart_of_present hx h.fresh).mono List.prefix_rfl hq
  · exact (apart_of_present hx h.allowed.free).mono List.prefix_rfl hq
  · exact (apart_generation_activeTmp x).symm.mono List.prefix_rfl hq
  · exact (apart_generation_activePath x).symm.mono List.prefix_rfl hq

lemma Staged.generations (h : Staged P r k t t') {x : String}
    (hx : t.node (r.generations P ++ [x]) ≠ none) (hq : r.generations P ++ [x] <+: q) :
    t'.node q = t.node q := by
  rcases h with hpaves | ⟨hchange, hfresh⟩
  · rcases hpaves q with heq | ⟨-, -, hle, hne⟩
    · exact heq
    · have hlen := hq.length_le
      have hsame : q = r.stage P k := by
        refine hle.eq_of_length (le_antisymm hle.length_le ?_)
        simpa [TapRequest.stage] using hlen
      exact absurd hsame hne
  · refine hchange.node_eq fun a ha => ?_
    rw [Set.mem_singleton_iff.mp ha]
    exact (apart_of_present hx hfresh).mono List.prefix_rfl hq

lemma Outcome.keepsInstalled (h : Outcome P r k t t') : KeepsInstalled P r t t' := by
  rcases h with h | h | h
  · exact ⟨fun x q hx hq => h.generations hx hq, .inl h.record⟩
  · exact ⟨fun x q hx hq => h.generations hx hq, .inl h.record⟩
  · exact ⟨fun x q hx hq => h.generations hx hq, .inr h.record⟩

lemma run_outcome (P : Platform) (r : TapRequest) (k : UInt32) (t : Tree)
    (cs : List (Option (machine String UInt8).Fault)) :
    Outcome P r k t (Act.run (machine String UInt8) (installTapWith P r k) cs t).2 := by
  refine Act.run_state ?_ cs
  refine Act.wp_mono (fun _ t' h => ?_) (fun _ _ h => h) (fun _ h => h) (wp_installTapWith P r k t)
  exact .inr (.inr h.generated)

/-- Without its generation, an installation has come to its stage at most. -/
lemma Outcome.staged (h : Outcome P r k t t') (hfree : t'.node (r.destination P) = none) :
    Staged P r k t t' := by
  rcases h with h | h | h
  · exact h
  · obtain ⟨-, fs, -, -, hholds⟩ := h.package
    rw [hholds.root] at hfree
    cases hfree
  · obtain ⟨-, fs, -, -, hholds⟩ := h.package
    rw [hholds.root] at hfree
    cases hfree

lemma activeOf_congr (h : t'.node p = t.node p) : activeOf P t' p = activeOf P t p := by
  have hexists : t'.exists? p = t.exists? p := by rw [exists?, exists?, h]
  have hread : t'.readFile p = t.readFile p := by
    unfold FileTree.readFile
    rw [h]
  rw [activeOf, activeOf, hexists, hread]

lemma Prior.staged (h : Prior P r file t) (hs : Staged P r k t t') : Prior P r file t' := by
  have hchange : ChangesBelow {r.stage P k} t t' := hs.elim Paves.changesBelow And.left
  have hstage : r.generations P <+: r.stage P k := List.prefix_append _ _
  have hout : ∀ q, ¬ r.generations P <+: q → ∀ a ∈ ({r.stage P k} : Set Path), ¬ a <+: q := by
    intro q hq a ha hle
    rw [Set.mem_singleton_iff.mp ha] at hle
    exact hq (hstage.trans hle)
  refine ⟨?_, h.aside, fun q d hq hfile => ?_, ?_, ?_⟩
  · rw [hchange.node_eq_file (hout _ h.aside)]
    exact h.archive
  · refine h.clear q d hq ((hchange.node_eq_file ?_).mp hfile)
    intro a ha hle
    rw [Set.mem_singleton_iff.mp ha] at hle
    have hlen := (hle.trans hq).length_le
    simp only [TapRequest.stage, List.length_append, List.length_singleton] at hlen
    omega
  · rw [hchange.node_eq fun a ha => (Set.mem_singleton_iff.mp ha) ▸ apart_generation_activeTmp _]
    exact h.tmp
  · rw [activeOf_congr hs.record]
    exact h.record

/-! ### What is needed -/

/-- A call that returns `Ok` has found what it needs. -/
lemma Installs.ready (h : Installs P r k t) : Ready P r k t := by
  obtain ⟨destination, t', h⟩ := h
  have hrecorded := Act.wp_perform_ok (wp_installTapWith P r k t) h
  exact ⟨hrecorded.generated.allowed.free, hrecorded.generated.fresh, hrecorded.replaced⟩

lemma packageNode_file {d : List UInt8} (h : packageNode fs q = some (.file d)) : ∃ g ∈ fs, g.1 = q := by
  cases hfind : fs.find? (·.1 == q) with
  | some g => exact ⟨g, List.mem_of_find?_eq_some hfind, by simpa using List.find?_some hfind⟩
  | none =>
    rw [packageNode_of_find_none hfind] at h
    split_ifs at h
    cases Option.some.inj h

lemma packageNode_none (h : ∀ g ∈ fs, ¬ q <+: g.1) : packageNode fs q = none := by
  have hfind : fs.find? (·.1 == q) = none := by
    rw [List.find?_eq_none]
    intro g hg heq
    exact h g hg ((beq_iff_eq.mp heq) ▸ List.prefix_rfl)
  rw [packageNode_of_find_none hfind, if_neg]
  rw [List.any_eq_true]
  rintro ⟨g, hg, hle⟩
  exact h g hg (List.isPrefixOf_iff_prefix.mp hle)

lemma perform_liftM {α : Type} {x : Except TapError α} {a : α} (h : x = .ok a) (t : Tree) :
    Act.perform (machine String UInt8) (liftM x : TapAct α) t = (.ok a, t) := by
  rw [h]
  rfl

lemma perform_tapRequest {u : FsUpdate String UInt8} (h : t.effect u = .ok t') :
    Act.perform (machine String UInt8) (request u) t = (.ok (), t') := perform_request h

lemma perform_readOn {d : List UInt8} (h : t.node r.tapPath = some (.file d)) :
    Act.perform (machine String UInt8) (readOn r) t = (.ok (), t) := by
  rw [readOn, readFile, Act.perform_bind_ok (perform_requestRead (readFile_of_file h))]
  rfl

/-- What it takes for the data of an entry. -/
lemma Unpacks.cases (h : Unpacks P file declared entry f) :
    (declared.find? (·.path == entry.name)).any (·.size != entry.size) = false ∧
      ∃ offset, entryDataOffset file entry = .ok offset ∧
        f.2 = (file.drop offset).take entry.size ∧ f.2.length = entry.size ∧
        checkData P entry f.2 ((declared.find? (·.path == entry.name)).map Declared.digest) = .ok () := by
  obtain ⟨-, h⟩ := h
  rw [entryData] at h
  obtain ⟨hsize, h⟩ := Except.check_ok h
  obtain ⟨offset, hoffset, h⟩ := Except.bind_ok h
  obtain ⟨data, hread, h⟩ := Except.bind_ok h
  obtain ⟨_, hcheck, h⟩ := Except.bind_ok h
  obtain rfl := Except.ok.inj h
  have hle := readExact_le hread
  rw [readExact, if_pos hle] at hread
  have hdata := (Except.ok.inj hread).symm
  refine ⟨by simpa using hsize, offset, hoffset, hdata, ?_, hcheck⟩
  rw [hdata, List.length_take, List.length_drop]
  omega

/-- An entry whose file can be beside those of the stage is extracted. -/
lemma perform_extractInto (h : Holds fs stage t) (hf : Unpacks P file declared entry f)
    (hapart : ∀ g ∈ fs, Apart g.1 f.1) {d : List UInt8}
    (htap : t.node r.tapPath = some (.file d)) :
    ∃ t', Act.perform (machine String UInt8) (extractInto P r file declared stage entry) t =
      (.ok (), t') := by
  obtain ⟨hsize, offset, hoffset, hdata, hlength, hcheck⟩ := hf.cases
  obtain ⟨hname, -⟩ := hf
  have hne := names_ne_nil entry.name
  rw [hname] at hapart
  -- no file of the stage is on the way
  have hclear : ∀ q d, q <+: (stage ++ names entry.name).dropLast → t.node q ≠ some (.file d) := by
    intro q d hq hfile
    rw [List.dropLast_append_of_ne_nil hne] at hq
    rcases List.prefix_or_prefix_of_prefix hq (List.prefix_append _ _) with hle | ⟨s, rfl⟩
    · have hdir : t.node q = some .dir := by
        by_cases heq : q = stage
        · rw [heq, h.root]
        · exact dir_above hle heq (by simp [h.root])
      rw [hdir] at hfile
      cases hfile
    · by_cases hs : s = []
      · rw [hs, List.append_nil, h.root] at hfile
        cases hfile
      · rw [h.below s hs] at hfile
        obtain ⟨g, hg, rfl⟩ := packageNode_file hfile
        rw [List.prefix_append_right_inj] at hq
        exact (hapart g hg).1 (hq.trans (List.dropLast_prefix _))
  obtain ⟨t₁, h₁⟩ := createDirAll_succeeds hclear
  have hmissing : t₁.node (stage ++ names entry.name) = none := by
    rw [createDirAll_ok h₁, if_neg, h.below _ hne, packageNode_none fun g hg => (hapart g hg).2]
    rintro ⟨hle, -⟩
    have hlen := hle.length_le
    have hpos := List.length_pos_of_ne_nil hne
    rw [List.length_dropLast, List.length_append] at hlen
    omega
  have hpath : stage ++ names entry.name ≠ [] := by simp [hne]
  obtain ⟨t₂, h₂⟩ := createNew_succeeds hpath (createDirAll_dir h₁ List.prefix_rfl) hmissing
  have hempty : t₂.node (stage ++ names entry.name) = some (.file []) := by
    rw [(createNew_ok h₂).2, if_pos rfl]
  obtain ⟨t₃, h₃⟩ := append_succeeds hpath hempty f.2
  refine ⟨t₃, ?_⟩
  unfold extractInto extractEntry
  simp only
  rw [if_neg (by simp [hsize]), Act.perform_bind_ok (perform_readOn htap),
    Act.perform_bind_ok (perform_liftM hoffset t),
    Act.perform_bind_ok (perform_tapRequest (u := .createDirAll _) h₁),
    Act.perform_bind_ok (perform_tapRequest (u := .createNew _) h₂), ← hdata, if_neg (by omega),
    Act.perform_bind_ok (perform_tapRequest (u := .writeAll _ _) h₃),
    Act.perform_bind_ok (perform_tapRequest (u := .syncAll _) rfl), perform_liftM hcheck]

lemma Unpacks.inj {g : Packed} (hf : Unpacks P file declared entry f)
    (hg : Unpacks P file declared entry g) : f = g :=
  Prod.ext (hf.1.trans hg.1.symm) (Except.ok.inj (hf.2.symm.trans hg.2))

/-- The stage is filled with all the files. -/
lemma perform_extract (hall : List.Forall₂ (Unpacks P file declared) entries fs)
    (hapart : fs.Pairwise fun f g => Apart f.1 g.1) (h : Holds [] stage t)
    (htap : t.node r.tapPath = some (.file file)) (haside : ¬ stage <+: r.tapPath) :
    ∃ t', Act.perform (machine String UInt8) (entries.forM (extractInto P r file declared stage)) t =
      (.ok (), t') ∧ ChangesBelow {stage} t t' ∧ Holds fs stage t' := by
  have hlength := hall.length_eq
  obtain ⟨t', hrun, hchange, hholds⟩ := Act.perform_forM (M := machine String UInt8)
    (f := extractInto P r file declared stage)
    (I := fun done t' => ChangesBelow {stage} t t' ∧ Holds (fs.take done.length) stage t') entries
    (fun done entry rest hsplit t₁ h₁ => by
      obtain ⟨hchange₁, hholds₁⟩ := h₁
      have hlt : done.length < fs.length := by
        rw [← hlength, hsplit, List.length_append, List.length_cons]
        omega
      have hunpacks : Unpacks P file declared entry fs[done.length] := by
        have hget := hall.get (i := done.length) (by omega) hlt
        simpa [hsplit] using hget
      have hbefore : ∀ g ∈ fs.take done.length, Apart g.1 (fs[done.length]).1 := by
        intro g hg
        obtain ⟨i, hi, rfl⟩ := List.mem_take_iff_getElem.mp hg
        exact List.pairwise_iff_getElem.mp hapart i done.length (by omega) hlt (by omega)
      have htap₁ : t₁.node r.tapPath = some (.file file) := by
        rw [hchange₁.node_eq_file fun a ha => (Set.mem_singleton_iff.mp ha) ▸ haside]
        exact htap
      obtain ⟨t₂, hextract⟩ := perform_extractInto hholds₁ hunpacks hbefore htap₁
      obtain ⟨hchange₂, f, hf, hholds₂⟩ := Act.wp_perform_ok (wp_extractInto hchange₁ hholds₁) hextract
      obtain rfl := hf.inj hunpacks
      refine ⟨t₂, hextract, hchange₂, ?_⟩
      rw [List.length_append, List.length_singleton, List.take_succ_eq_append_getElem hlt]
      exact hholds₂)
    ⟨.refl _ _, h⟩
  rw [List.take_of_length_le (by omega)] at hholds
  exact ⟨t', hrun, hchange, hholds⟩

lemma Prior.record_ne_dir (h : Prior P r file t) : t.node (r.activePath P) ≠ some .dir := by
  intro hdir
  obtain ⟨active, hactive, -⟩ := h.record
  have hexists : t.exists? (r.activePath P) = true := by simp [exists?, hdir]
  have hread : t.readFile (r.activePath P) = .error .isADirectory := by simp [FileTree.readFile, hdir]
  rw [activeOf, if_pos hexists, hread] at hactive
  cases hactive

/-- What activates a package on a card where nothing stands in the way. -/
lemma perform_activate (hall : List.Forall₂ (Unpacks P file declared) entries fs)
    (hapart : fs.Pairwise fun f g => Apart f.1 g.1) (hpackage : r.packageVerified = true)
    (helf : r.elfVerified = true) (hprior : Prior P r file t) (hready : Ready P r k t₀)
    (h : Filling P r k t₀ t) (hholds : Holds [] (r.stage P k) t) :
    ∃ t', Act.perform (machine String UInt8) (activate P r file entries declared (r.stage P k)) t =
      (.ok (r.destination P), t') := by
  have haside : ¬ r.stage P k <+: r.tapPath :=
    fun hle => hprior.aside ((List.prefix_append _ _).trans hle)
  obtain ⟨t₁, hextract, hchange, hholds₁⟩ := perform_extract hall hapart hholds hprior.archive haside
  -- the stage becomes the generation
  have hfree : t₁.node (r.destination P) = none := by
    rw [hchange.node_eq fun a ha => (Set.mem_singleton_iff.mp ha) ▸ apart_stage_destination,
      h.node_eq apart_stage_destination]
    exact hready.destination
  have hparent : t₁.node (r.destination P).dropLast = some .dir := by
    have hdir := dir_dropLast (t := t₁) (p := r.stage P k) (by simp [hholds₁.root])
    rw [TapRequest.stage, List.dropLast_concat] at hdir
    rw [TapRequest.destination, List.dropLast_concat]
    exact hdir
  have hstage : t₁.node (r.stage P k) ≠ none := by simp [hholds₁.root]
  obtain ⟨t₂, hrename⟩ := rename_succeeds hstage hfree hparent apart_stage_destination.1
  obtain ⟨-, -, -, hnode₂⟩ := rename_ok hrename
  have hkeep₂ : ∀ q, Apart (r.stage P k) q → Apart (r.destination P) q →
      t₂.node q = t.node q := by
    intro q hstage hdest
    rw [hnode₂, if_neg hdest.1, if_neg hstage.1]
    exact hchange.node_eq fun a ha => (Set.mem_singleton_iff.mp ha) ▸ hstage
  have htmp₂ : t₂.node (r.activeTmp P) ≠ some .dir := by
    rw [hkeep₂ _ (apart_generation_activeTmp _) (apart_generation_activeTmp _)]
    exact hprior.tmp
  have hactive₂ : t₂.node (r.activePath P) = t.node (r.activePath P) :=
    hkeep₂ _ (apart_generation_activePath _) (apart_generation_activePath _)
  have happ : t₂.node (r.appDir P) = some .dir := by
    have hdest : t₂.node (r.destination P) ≠ none := by
      rw [hnode₂, if_pos List.prefix_rfl, List.drop_length, List.append_nil, hholds₁.root]
      simp
    refine dir_above ⟨["generations", toString r.expectedSequence.toNat], ?_⟩ ?_ hdest
    · simp [TapRequest.destination, TapRequest.generations]
    · simp [TapRequest.destination, TapRequest.generations]
  -- the record is written
  have htmpPath : r.activeTmp P ≠ [] := by simp [TapRequest.activeTmp]
  have htmpDir : (r.activeTmp P).dropLast = r.appDir P := List.dropLast_concat
  obtain ⟨t₃, hcreate⟩ := writeFile_succeeds htmpPath (htmpDir ▸ happ) htmp₂ []
  have hnode₃ := (writeFile_ok hcreate).2
  obtain ⟨t₄, hwrite⟩ := append_succeeds htmpPath (by rw [hnode₃, if_pos rfl]) r.recordText
  obtain ⟨old, -, hnode₄⟩ := append_ok hwrite
  have hkeep₄ : ∀ q, q ≠ r.activeTmp P → t₄.node q = t₂.node q := by
    intro q hq
    rw [hnode₄, if_neg hq, hnode₃, if_neg hq]
  have hneActive : r.activePath P ≠ r.activeTmp P := ne_activeTmp (.inr rfl)
  have hactive₄ : t₄.node (r.activePath P) = t₀.node (r.activePath P) := by
    rw [hkeep₄ _ hneActive, hactive₂, h.node_eq (apart_generation_activePath _)]
  have hactiveDir : t₄.node (r.activePath P).dropLast = some .dir := by
    have hdrop : (r.activePath P).dropLast = r.appDir P := List.dropLast_concat
    have hne : r.appDir P ≠ r.activeTmp P := by simp [TapRequest.activeTmp]
    rw [hdrop, hkeep₄ _ hne, happ]
  have htmp₄ : ∃ d, t₄.node (r.activeTmp P) = some (.file d) := ⟨_, by rw [hnode₄, if_pos rfl]⟩
  obtain ⟨d, htmp₄⟩ := htmp₄
  have hnotDir : t₄.node (r.activePath P) ≠ some .dir := by
    rw [hkeep₄ _ hneActive, hactive₂]
    exact hprior.record_ne_dir
  have hrecord : ∃ t₅, Act.perform (machine String UInt8) (renameRecord P r) t₄ = (.ok (), t₅) := by
    rw [renameRecord]
    split_ifs with hreplaces
    · obtain ⟨t₅, h₅⟩ := replace_succeeds htmp₄ hnotDir hactiveDir (by simp [TapRequest.activePath])
        apart_activeTmp_activePath.1
      exact ⟨t₅, perform_tapRequest (u := .replace _ _) h₅⟩
    · obtain ⟨t₅, h₅⟩ := rename_succeeds (by simp [htmp₄])
        (hactive₄.trans (hready.record.resolve_left hreplaces)) hactiveDir apart_activeTmp_activePath.1
      exact ⟨t₅, perform_tapRequest (u := .rename _ _) h₅⟩
  obtain ⟨t₅, hrecord⟩ := hrecord
  refine ⟨t₅, ?_⟩
  unfold activate
  rw [Act.perform_bind_ok hextract, hpackage, if_neg (by decide), helf, if_neg (by decide),
    Act.perform_bind_ok (perform_tapRequest (u := .rename _ _) hrename),
    Act.perform_bind_ok (perform_tapRequest (u := .create _ none) hcreate),
    Act.perform_bind_ok (perform_tapRequest (u := .writeAll _ _) hwrite),
    Act.perform_bind_ok hrecord]
  rfl

lemma perform_activeSequence {active : Option Nat} (h : activeOf P t p = .ok active) :
    Act.perform (machine String UInt8) (activeSequence P p) t = (.ok active, t) := by
  rw [activeSequence, Act.perform_bind_ok (perform_requestExists t p)]
  cases hexists : t.exists? p with
  | false =>
    rw [activeOf, hexists] at h
    obtain rfl := Except.ok.inj h
    rfl
  | true =>
    rw [activeOf, if_pos hexists] at h
    cases hread : t.readFile p with
    | error kind =>
      rw [hread] at h
      cases h
    | ok text =>
      simp only [hread] at h
      cases hsequence : recordSequence P text with
      | error e =>
        rw [hsequence] at h
        cases h
      | ok sequence =>
        rw [hsequence] at h
        obtain rfl := Except.ok.inj h
        rw [if_neg (by decide), readFile, Act.perform_bind_ok (perform_requestRead hread),
          Act.perform_bind_ok (perform_liftM hsequence t)]
        rfl

/-- What the checks of an archive have found. -/
lemma checkArchive_ok (h : checkArchive P r file = .ok (entries, declared)) :
    listEntries file = .ok entries ∧ ∃ package metadata,
      readJson P file entries "package.json" = .ok package ∧
      readJson P file entries "metadata.json" = .ok metadata ∧
      validateManifest package metadata entries r = .ok declared := by
  obtain ⟨_, hentries, h⟩ := Except.bind_ok h
  obtain ⟨package, hpackage, h⟩ := Except.bind_ok h
  obtain ⟨metadata, hmetadata, h⟩ := Except.bind_ok h
  obtain ⟨_, hdeclared, h⟩ := Except.bind_ok h
  obtain ⟨rfl, rfl⟩ := Prod.mk.inj (Except.ok.inj h)
  exact ⟨hentries, package, metadata, hpackage, hmetadata, hdeclared⟩

/-- A valid archive is installed on a card that is ready for it. -/
lemma Ready.installs (hready : Ready P r k t) (hvalid : ValidArchive P r file)
    (hprior : Prior P r file t) : Installs P r k t := by
  obtain ⟨entries, declared, fs, hcheck, hall, hapart, hpackage, helf⟩ := hvalid
  obtain ⟨hentries, package, metadata, hpackageJson, hmetadataJson, hdeclared⟩ := checkArchive_ok hcheck
  obtain ⟨active, hactive, hforward⟩ := hprior.record
  have hfree : t.exists? (r.destination P) = false := by simp [exists?, hready.destination]
  have hallowed : Allowed P r t := ⟨hready.destination, active, hactive, hforward⟩
  -- the stage is made
  obtain ⟨t₁, hdir⟩ := createDirAll_succeeds hprior.clear
  have hparent : r.generations P = (r.stage P k).dropLast := by
    rw [TapRequest.stage, List.dropLast_concat]
  have hpaves : Paves (r.stage P k) t t₁ :=
    createDirAll_paves (by simp [TapRequest.stage]) (hparent ▸ List.prefix_rfl) hdir
  have hmissing : t₁.node (r.stage P k) = none := hpaves.node_self.trans hready.stage
  obtain ⟨t₂, hstage⟩ := createDir_succeeds (hparent ▸ createDirAll_dir hdir List.prefix_rfl) hmissing
  have hchange : ChangesBelow {r.stage P k} t t₂ := hpaves.changesBelow.trans
    (effect_changesBelow (u := .createDir (r.stage P k)) hstage ⟨_, rfl, List.prefix_rfl⟩)
  have hfilling : Filling P r k t t₂ := ⟨hchange, hready.stage, hallowed⟩
  obtain ⟨t₃, hactivate⟩ := perform_activate hall hapart hpackage helf
    (hprior.staged (.inr ⟨hchange, hready.stage⟩)) hready hfilling (holds_nil_of_createDir hstage)
  refine ⟨r.destination P, t₃, ?_⟩
  unfold installTapWith
  rw [readFile, Act.perform_bind_ok (perform_requestRead (readFile_of_file hprior.archive)),
    Act.perform_bind_ok (perform_liftM hentries t), Act.perform_bind_ok (perform_readOn hprior.archive),
    Act.perform_bind_ok (perform_liftM hpackageJson t),
    Act.perform_bind_ok (perform_readOn hprior.archive),
    Act.perform_bind_ok (perform_liftM hmetadataJson t),
    Act.perform_bind_ok (perform_liftM hdeclared t),
    Act.perform_bind_ok (perform_requestExists t _), hfree, if_neg (by decide),
    Act.perform_bind_ok (perform_activeSequence hactive), if_neg (by simp [hforward]),
    Act.perform_bind_ok (perform_tapRequest (u := .createDirAll _) hdir),
    Act.perform_bind_ok (perform_tapRequest (u := .createDir _) hstage),
    Act.perform_bind_ok (Act.perform_attempt hactivate)]
  rfl

def le16 (n : Nat) : List UInt8 := [UInt8.ofNat n, UInt8.ofNat (n / 256)]

def le32 (n : Nat) : List UInt8 := le16 n ++ le16 (n / 65536)

/-- What is written before the data of a stored file. -/
def localHeader (name : String) (data : List UInt8) : List UInt8 :=
  [0x50, 0x4b, 0x03, 0x04] ++ le16 20 ++ le16 0x800 ++ le16 0 ++ le16 0 ++ le16 0 ++
    le32 (crc32 data).toNat ++ le32 data.length ++ le32 data.length ++ le16 (utf8 name).length ++
    le16 0 ++ utf8 name

/-- The entry of a stored file in the central directory. -/
def centralHeader (name : String) (data : List UInt8) (offset : Nat) : List UInt8 :=
  [0x50, 0x4b, 0x01, 0x02] ++ le16 0x314 ++ le16 20 ++ le16 0x800 ++ le16 0 ++ le16 0 ++ le16 0 ++
    le32 (crc32 data).toNat ++ le32 data.length ++ le32 data.length ++ le16 (utf8 name).length ++
    le16 0 ++ le16 0 ++ le16 0 ++ le16 0 ++ le32 0x81a40000 ++ le32 offset ++ utf8 name

/-- The two parts of an archive of stored files. -/
def storedParts : List (String × List UInt8) → Nat → List UInt8 × List UInt8
  | [], _ => ([], [])
  | (name, data) :: files, offset =>
    let file := localHeader name data ++ data
    let (rest, central) := storedParts files (offset + file.length)
    (file ++ rest, centralHeader name data offset ++ central)

def storedZip (files : List (String × List UInt8)) : List UInt8 :=
  let (archive, central) := storedParts files 0
  archive ++ central ++ [0x50, 0x4b, 0x05, 0x06] ++ le16 0 ++ le16 0 ++ le16 files.length ++
    le16 files.length ++ le32 central.length ++ le32 archive.length ++ le16 0

def sampleElf : List UInt8 := utf8 "host-elf"

def sampleSig : List UInt8 := List.replicate 64 0x5a

def sampleElfDigest : String := "8360226a24c0a6a9d77fe8ad6ed25bfaa72b18f82353f87c2ce1fc075a4bb3c9"

def sampleSigDigest : String := "cc7321cce5e4409bd8077d58422e1214969059bbd40b4eeb0de0a642f40f7282"

/-- The manifest, with the text of the version in it. -/
def samplePackage (text : String) : List UInt8 :=
  utf8 ("\x7b\"schema\":\"thistle.app.package/v1\",\"type\":\"app\",\"id\":\"notes\",\"version\":\"" ++ text ++
    "\",\"release_sequence\":1,\"entry\":\"app.app.elf\",\"signature\":\"app.app.elf.sig\",\"files\":[" ++
    "\x7b\"path\":\"app.app.elf\",\"sha256\":\"" ++ sampleElfDigest ++ "\",\"size_bytes\":8\x7d," ++
    "\x7b\"path\":\"app.app.elf.sig\",\"sha256\":\"" ++ sampleSigDigest ++ "\",\"size_bytes\":64\x7d]\x7d")

def sampleMetadata (text : String) : List UInt8 :=
  utf8 ("\x7b\"id\":\"notes\",\"releases\":[\x7b\"version\":\"" ++ text ++ "\",\"release_sequence\":1\x7d]\x7d")

def sampleArchive (text : String) : List UInt8 :=
  storedZip [("LICENSE", utf8 "BSD"), ("app.app.elf", sampleElf), ("app.app.elf.sig", sampleSig),
    ("metadata.json", sampleMetadata text), ("package.json", samplePackage text)]

def samplePackageValue (version : String) : Value :=
  .object [("schema", .string "thistle.app.package/v1"), ("type", .string "app"), ("id", .string "notes"),
    ("version", .string version), ("release_sequence", .number (some 1)),
    ("entry", .string "app.app.elf"), ("signature", .string "app.app.elf.sig"),
    ("files", .array [
      .object [("path", .string "app.app.elf"), ("sha256", .string sampleElfDigest),
        ("size_bytes", .number (some 8))],
      .object [("path", .string "app.app.elf.sig"), ("sha256", .string sampleSigDigest),
        ("size_bytes", .number (some 64))]])]

def sampleMetadataValue (version : String) : Value :=
  .object [("id", .string "notes"), ("releases", .array [
    .object [("version", .string version), ("release_sequence", .number (some 1))]])]

def sampleDigest (data : List UInt8) : List UInt8 :=
  if data = sampleElf then
    [131, 96, 34, 106, 36, 192, 166, 169, 215, 127, 232, 173, 110, 210, 91, 250, 167, 43, 24, 248, 35,
      83, 248, 124, 44, 225, 252, 7, 90, 75, 179, 201]
  else if data = sampleSig then
    [204, 115, 33, 204, 229, 228, 64, 155, 216, 7, 125, 88, 66, 46, 18, 20, 150, 144, 89, 187, 212, 11,
      78, 235, 13, 224, 166, 66, 244, 15, 114, 130]
  else []

/-- The JSON of an archive, whose version has some text there. -/
def sampleSlice (version text : String) (json : List UInt8) : Option Value :=
  if json = samplePackage text then some (samplePackageValue version)
  else if json = sampleMetadata text then some (sampleMetadataValue version)
  else none

def samplePlatform : Platform where
  fromSlice := sampleSlice "1.0" "1.0"
  sha256 := sampleDigest
  appsRoot := ["apps"]
  renameReplaces := true

def sampleRequest : TapRequest := ⟨["notes.tap"], "notes", by decide, "1.0", 1, true, true⟩

/-- A card with an archive and nothing else. -/
def cardWith (archive : List UInt8) : Tree :=
  FileTree.empty.putFile ["notes.tap"] archive (by decide) (by decide) (by decide)

def sampleTree : Tree := cardWith (sampleArchive "1.0")

def sampleFiles (text : String) : List Packed :=
  [(["LICENSE"], utf8 "BSD"), (["app.app.elf"], sampleElf), (["app.app.elf.sig"], sampleSig),
    (["metadata.json"], sampleMetadata text), (["package.json"], samplePackage text)]

/-- The files of an archive that passes every check. -/
def packFiles (P : Platform) (r : TapRequest) (file : List UInt8) : Except TapError (List Packed) := do
  let (entries, declared) ← checkArchive P r file
  entries.mapM fun entry => do
    let data ← entryData P file declared entry
    return (names entry.name, data)

lemma forall₂_of_mapM (h : (entries.mapM fun entry => do
    let data ← entryData P file declared entry
    return (names entry.name, data)) = .ok fs) : List.Forall₂ (Unpacks P file declared) entries fs := by
  induction entries generalizing fs with
  | nil =>
    obtain rfl := Except.ok.inj h
    exact .nil
  | cons entry entries ih =>
    rw [List.mapM_cons] at h
    obtain ⟨f, hf, h⟩ := Except.bind_ok h
    obtain ⟨data, hdata, hf⟩ := Except.bind_ok hf
    obtain ⟨gs, hgs, h⟩ := Except.bind_ok h
    obtain rfl := Except.ok.inj hf
    obtain rfl := Except.ok.inj h
    exact .cons ⟨rfl, hdata⟩ (ih hgs)

lemma validArchive_of_packFiles (fs : List Packed) (h : packFiles P r file = .ok fs)
    (hapart : fs.Pairwise fun f g => Apart f.1 g.1) (hpackage : r.packageVerified = true)
    (helf : r.elfVerified = true) : ValidArchive P r file := by
  obtain ⟨⟨entries, declared⟩, hcheck, h⟩ := Except.bind_ok h
  exact ⟨entries, declared, fs, hcheck, forall₂_of_mapM h, hapart, hpackage, helf⟩

lemma validArchive_sample : ValidArchive samplePlatform sampleRequest (sampleArchive "1.0") := by
  refine validArchive_of_packFiles (sampleFiles "1.0") ?_ ?_ rfl rfl
  · decide +kernel
  · decide +kernel

lemma cardWith_node {archive : List UInt8} (hq : q ≠ ["notes.tap"]) (hne : q ≠ []) :
    (cardWith archive).node q = none := by
  have hnode : (cardWith archive).node q = FileTree.empty.node q := if_neg hq
  rw [hnode, FileTree.empty]
  exact if_neg (by simp [hne])

lemma prior_cardWith (archive : List UInt8) (hroot : P.appsRoot = ["apps"])
    (htap : r.tapPath = ["notes.tap"]) : Prior P r archive (cardWith archive) := by
  have hactive : (cardWith archive).node (r.activePath P) = none :=
    cardWith_node (by simp [TapRequest.activePath, TapRequest.appDir, hroot])
      (by simp [TapRequest.activePath])
  have htmp : (cardWith archive).node (r.activeTmp P) = none :=
    cardWith_node (by simp [TapRequest.activeTmp, TapRequest.appDir, hroot])
      (by simp [TapRequest.activeTmp])
  refine ⟨?_, ?_, fun q d hq hfile => ?_, by simp [htmp], none, ?_, rfl⟩
  · rw [htap]
    rfl
  · rw [htap, TapRequest.generations, TapRequest.appDir, hroot]
    simp
  · have hne : q ≠ ["notes.tap"] := by
      rintro rfl
      rw [TapRequest.generations, TapRequest.appDir, hroot] at hq
      simp at hq
    by_cases hnil : q = []
    · rw [hnil, FileTree.node_nil] at hfile
      cases hfile
    · rw [cardWith_node hne hnil] at hfile
      cases hfile
  · rw [activeOf, if_neg (by simp [exists?, hactive])]

lemma prior_sample : Prior samplePlatform sampleRequest (sampleArchive "1.0") sampleTree :=
  prior_cardWith _ rfl rfl

end ThistleOS.TapInstaller
