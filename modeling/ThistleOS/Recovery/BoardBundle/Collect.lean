import ThistleOS.Recovery.BoardBundle.Places

/-!
# What an installation gathers
-/

open PowerLoss
open Except (bind_ok check_ok ok_bind mapError_ok)
open ThistleOS.BundleTransaction
open ThistleOS.Catalog

namespace ThistleOS.BoardBundle

variable {download : Download} {downloads : Nat → Download} {st st' : Collected}
  {artifact : VerifiedManifest} {gathered selected : List VerifiedManifest}

/-! ### One artifact -/

lemma relativePath_bundleFile {path : String} {source : Path} {file : BundleFile}
    (h : bundleFile path source = .ok file) : file.relativePath = path := by
  have h := mapError_ok h
  rw [BundleFile.fromFile] at h
  split at h
  · cases h
  · cases h
    rfl

lemma size_of_downloadVerifiedPayload {m : ArtifactManifest}
    (h : downloadVerifiedPayload download m = .ok ()) :
    m.size ≤ artifactSizeLimit m.artifactType := by
  rw [downloadVerifiedPayload] at h
  obtain ⟨hsize, -⟩ := check_ok h
  exact UInt32.not_lt.mp hsize

/-- What the download of an artifact adds. -/
structure Adds (artifact : VerifiedManifest) (st st' : Collected) : Prop where
  destinations : st'.destinations = st.destinations
  downloaded : st'.downloaded = st.downloaded
  files : st'.bundleFiles.map (·.relativePath) =
    st.bundleFiles.map (·.relativePath) ++ relativePaths artifact.manifest
  firmwarePath : st'.firmwarePath.isSome = (st.firmwarePath.isSome || isFirmware artifact)
  firmwareSha256 : st'.firmwareSha256.isSome = (st.firmwareSha256.isSome || isFirmware artifact)
  size : artifact.manifest.size ≤ artifactSizeLimit artifact.manifest.artifactType

lemma adds_downloadFirmware (htype : artifact.manifest.artifactType = .firmware)
    (h : downloadFirmware download st artifact = .ok st') : Adds artifact st st' := by
  rw [downloadFirmware] at h
  obtain ⟨_, -, h⟩ := bind_ok h
  obtain ⟨_, hpayload, h⟩ := bind_ok h
  obtain ⟨_, -, h⟩ := bind_ok h
  obtain ⟨_, -, h⟩ := bind_ok h
  obtain ⟨manifestFile, hmanifest, h⟩ := bind_ok h
  obtain ⟨signatureFile, hsignature, h⟩ := bind_ok h
  cases h
  refine ⟨rfl, rfl, ?_, ?_, ?_, size_of_downloadVerifiedPayload hpayload⟩
  · rw [List.map_append, relativePaths, targets, htype, List.map_cons, List.map_singleton,
      relativePath_bundleFile hmanifest, relativePath_bundleFile hsignature]
    rfl
  · simp [isFirmware, htype]
  · simp [isFirmware, htype]

lemma relativePaths_activeBoardFile {type : ArtifactType} {path : String} {source : Path}
    {files : List BundleFile} (h : activeBoardFile type path source = .ok files) :
    files.map (·.relativePath) = if type = .board then [path] else [] := by
  rw [activeBoardFile] at h
  split_ifs at h ⊢
  · obtain ⟨file, hfile, h⟩ := bind_ok h
    cases h
    rw [List.map_singleton, relativePath_bundleFile hfile]
  · cases h
    rfl

lemma adds_downloadFile (htype : artifact.manifest.artifactType ≠ .firmware)
    (hshape : artifact.manifest.validateShape = .ok ())
    (h : downloadFile download st artifact = .ok st') : Adds artifact st st' := by
  rw [downloadFile] at h
  obtain ⟨_, -, h⟩ := bind_ok h
  obtain ⟨_, hpayload, h⟩ := bind_ok h
  obtain ⟨_, hactive, h⟩ := bind_ok h
  obtain ⟨_, hfile, h⟩ := bind_ok h
  obtain ⟨_, -, h⟩ := bind_ok h
  obtain ⟨_, -, h⟩ := bind_ok h
  obtain ⟨_, hmanifest, h⟩ := bind_ok h
  obtain ⟨_, hsignature, h⟩ := bind_ok h
  obtain ⟨_, hactiveManifest, h⟩ := bind_ok h
  obtain ⟨_, hactiveSignature, h⟩ := bind_ok h
  cases h
  refine ⟨rfl, rfl, ?_, ?_, ?_, size_of_downloadVerifiedPayload hpayload⟩
  · simp only [List.map_append, List.map_cons, List.map_nil, relativePath_bundleFile hfile,
      relativePath_bundleFile hmanifest, relativePath_bundleFile hsignature,
      relativePaths_activeBoardFile hactive, relativePaths_activeBoardFile hactiveManifest,
      relativePaths_activeBoardFile hactiveSignature]
    rw [relativePaths_eq htype (ArtifactManifest.shape_of_validateShape hshape).destination]
    rfl
  · simp [isFirmware, htype]
  · simp [isFirmware, htype]

/-! ### The loop -/

/-- What the loop has gathered from a list of artifacts. -/
structure Gathered (gathered : List VerifiedManifest) (st : Collected) : Prop where
  checks : LoopChecks gathered
  destinations : ∀ d, d ∈ st.destinations ↔ ∃ artifact ∈ gathered, artifact.manifest.destination = d
  downloaded : st.downloaded = gathered.length
  files : st.bundleFiles.map (·.relativePath) =
    gathered.flatMap fun artifact => relativePaths artifact.manifest
  firmwarePath : st.firmwarePath.isSome = gathered.any isFirmware
  firmwareSha256 : st.firmwareSha256.isSome = gathered.any isFirmware

lemma gathered_nil : Gathered [] ⟨[], 0, [], none, none⟩ where
  checks := ⟨List.nodup_nil, fun _ hmem => absurd hmem List.not_mem_nil⟩
  destinations := by simp
  downloaded := rfl
  files := rfl
  firmwarePath := rfl
  firmwareSha256 := rfl

lemma adds_downloadArtifact (hshape : artifact.manifest.validateShape = .ok ())
    (h : downloadArtifact download st artifact = .ok st') : Adds artifact st st' := by
  rw [downloadArtifact] at h
  split_ifs at h with htype
  · exact adds_downloadFirmware htype h
  · exact adds_downloadFile htype hshape h

/-- The checks of an artifact that comes after those that the state has gathered. -/
structure Passes (st : Collected) (artifact : VerifiedManifest) : Prop where
  destination : artifact.manifest.destination ∉ st.destinations
  id : validateCatalogId artifact.manifest.id = .ok ()
  firmware : (isFirmware artifact && st.firmwarePath.isSome) = false

/-- The state in which the download of an artifact starts. -/
def Collected.mark (st : Collected) (artifact : VerifiedManifest) : Collected :=
  { st with destinations := artifact.manifest.destination :: st.destinations }

lemma collectArtifact_of_passes (h : Passes st artifact) :
    collectArtifact download st artifact =
      (downloadArtifact download (st.mark artifact) artifact).mapError .failed >>= fun st' =>
        .ok { st' with downloaded := st'.downloaded + 1 } := by
  have hfirmware : ¬ (decide (artifact.manifest.artifactType = .firmware) &&
      st.firmwarePath.isSome) = true := Bool.eq_false_iff.mp h.firmware
  rw [collectArtifact, if_neg h.destination, h.id]
  dsimp only [Except.mapError, ok_bind]
  rw [if_neg hfirmware]
  rfl

/-- What does not pass is rejected. -/
lemma collectArtifact_of_not_passes (download : Download) (h : ¬ Passes st artifact) :
    ∃ message, collectArtifact download st artifact = .error (.rejected message) := by
  rw [collectArtifact]
  by_cases hdestination : artifact.manifest.destination ∈ st.destinations
  · rw [if_pos hdestination]
    exact ⟨_, rfl⟩
  · rw [if_neg hdestination]
    cases hid : validateCatalogId artifact.manifest.id with
    | error e => exact ⟨e, rfl⟩
    | ok u =>
      have hfirmware : (decide (artifact.manifest.artifactType = .firmware) &&
          st.firmwarePath.isSome) = true := by
        by_contra hne
        exact h ⟨hdestination, hid, Bool.eq_false_iff.mpr hne⟩
      dsimp only [Except.mapError, ok_bind]
      rw [if_pos hfirmware]
      exact ⟨_, rfl⟩

/-- An artifact that passes is not rejected. -/
lemma Passes.not_rejected (h : Passes st artifact) (message : String) :
    collectArtifact download st artifact ≠ .error (.rejected message) := by
  rw [collectArtifact_of_passes h]
  cases downloadArtifact download (st.mark artifact) artifact with
  | error e =>
    intro heq
    cases heq
  | ok st' =>
    intro heq
    cases heq

lemma Gathered.checks_concat (h : Gathered gathered st) (hpasses : Passes st artifact) :
    LoopChecks (gathered ++ [artifact]) where
  destinations := by
    rw [List.map_append, List.map_singleton]
    refine h.checks.destinations.append (List.nodup_singleton _) fun d hd hmem => ?_
    rw [List.mem_singleton] at hmem
    obtain ⟨artifact', hmem', rfl⟩ := List.mem_map.mp hd
    exact hpasses.destination (hmem ▸ (h.destinations _).mpr ⟨artifact', hmem', rfl⟩)
  ids artifact' hmem := by
    rcases List.mem_append.mp hmem with hmem | hmem
    · exact h.checks.ids artifact' hmem
    · exact List.mem_singleton.mp hmem ▸ hpasses.id

/-- The step of the loop. -/
lemma Gathered.step (h : Gathered gathered st) (hshape : artifact.manifest.validateShape = .ok ())
    (hstep : collectArtifact download st artifact = .ok st') :
    Gathered (gathered ++ [artifact]) st' ∧
      artifact.manifest.size ≤ artifactSizeLimit artifact.manifest.artifactType := by
  by_cases hpasses : Passes st artifact
  · rw [collectArtifact_of_passes hpasses] at hstep
    obtain ⟨st'', hdownload, hstep⟩ := bind_ok hstep
    have hadds := adds_downloadArtifact hshape (mapError_ok hdownload)
    cases hstep
    refine ⟨⟨h.checks_concat hpasses, ?_, ?_, ?_, ?_, ?_⟩, hadds.size⟩
    · intro d
      have hmarked : d ∈ st''.destinations ↔
          d = artifact.manifest.destination ∨ d ∈ st.destinations := by
        rw [hadds.destinations]
        exact List.mem_cons
      rw [hmarked, h.destinations]
      simp only [List.mem_append, List.mem_singleton]
      constructor
      · rintro (rfl | ⟨artifact', hmem, rfl⟩)
        · exact ⟨artifact, .inr rfl, rfl⟩
        · exact ⟨artifact', .inl hmem, rfl⟩
      · rintro ⟨artifact', hmem | rfl, rfl⟩
        · exact .inr ⟨artifact', hmem, rfl⟩
        · exact .inl rfl
    · rw [List.length_append, ← h.downloaded]
      exact congrArg (· + 1) hadds.downloaded
    · rw [List.flatMap_append, List.flatMap_singleton, ← h.files]
      exact hadds.files
    · rw [List.any_append, ← h.firmwarePath, List.any_cons, List.any_nil, Bool.or_false]
      exact hadds.firmwarePath
    · rw [List.any_append, ← h.firmwareSha256, List.any_cons, List.any_nil, Bool.or_false]
      exact hadds.firmwareSha256
  · obtain ⟨message, hrejected⟩ := collectArtifact_of_not_passes download hpasses
    rw [hrejected] at hstep
    cases hstep

/-- The run of the loop. -/
lemma Gathered.run (h : Gathered gathered st)
    (hshape : ∀ artifact ∈ selected, artifact.manifest.validateShape = .ok ())
    (hrun : collectBundle downloads st selected = .ok st') :
    Gathered (gathered ++ selected) st' := by
  induction selected generalizing gathered st with
  | nil =>
    cases hrun
    rwa [List.append_nil]
  | cons artifact selected ih =>
    obtain ⟨hartifact, hrest⟩ := List.forall_mem_cons.mp hshape
    obtain ⟨st₁, hstep, hrun⟩ := bind_ok hrun
    have hgathered := ih (h.step hartifact hstep).1 hrest hrun
    rwa [List.append_assoc] at hgathered

/-! ### Where a bundle is installed -/

variable {site : Site} {boardName : String}

lemma shape_of_compatible (chip boardName : String) {manifests : List VerifiedManifest}
    (h : verifiedManifests site = .ok manifests) :
    ∀ artifact ∈ compatible chip boardName manifests, artifact.manifest.validateShape = .ok () :=
  fun artifact hmem => shape_of_verified h artifact (List.mem_filter.mp hmem).1

/-- The transaction is given the files that the loop has gathered. -/
lemma installs_collected {downloads : Downloads} {bundle : BundleInstall}
    (h : recoveryDownloadBoardBundleFor site downloads boardName = .ok bundle) :
    ∃ selected version st, selectBundle site boardName = .ok (selected, version) ∧
      collectBundle downloads.artifact ⟨[], 0, [], none, none⟩ selected = .ok st ∧
      bundle.bundleFiles = st.bundleFiles := by
  obtain ⟨⟨selected, version⟩, hselect, h⟩ := bind_ok h
  obtain ⟨_, -, h⟩ := bind_ok h
  obtain ⟨st, hcollect, h⟩ := bind_ok h
  refine ⟨selected, version, st, hselect, hcollect, ?_⟩
  rw [bundleInstall] at h
  split at h
  · cases h
    rfl
  · cases h
  · cases h

/-- Artifacts that are selected and pass the checks of the loop are installed under paths that are
valid, different, not in each other's way, and outside of the transaction directory; and an
installation comes to its transaction with the paths of such artifacts only. -/
theorem bundle_destinations_independent (site : Site) (boardName : String) :
    (∀ selected version, selectBundle site boardName = .ok (selected, version) →
      LoopChecks selected →
        Independent (selected.flatMap fun artifact => relativePaths artifact.manifest)) ∧
    ∀ downloads bundle, recoveryDownloadBoardBundleFor site downloads boardName = .ok bundle →
      ∃ selected version, selectBundle site boardName = .ok (selected, version) ∧
        LoopChecks selected ∧
        (bundle.bundleFiles.map (·.relativePath)) =
          (selected.flatMap fun artifact => relativePaths artifact.manifest) ∧
        Independent (bundle.bundleFiles.map (·.relativePath)) := by
  have hselected : ∀ selected version, selectBundle site boardName = .ok (selected, version) →
      LoopChecks selected →
        Independent (selected.flatMap fun artifact => relativePaths artifact.manifest) := by
    intro selected version h hchecks
    obtain ⟨manifests, firmware, hverified, -, -, rfl, -, -⟩ := selectBundle_ok.mp h
    exact independent_of_checks hchecks (shape_of_compatible _ _ hverified)
      fun artifact hmem => (List.mem_filter.mp hmem).2
  refine ⟨hselected, fun downloads bundle h => ?_⟩
  obtain ⟨selected, version, st, hselect, hcollect, hfiles⟩ := installs_collected h
  obtain ⟨manifests, firmware, hverified, -, -, rfl, -, -⟩ := selectBundle_ok.mp hselect
  have hgathered := gathered_nil.run (shape_of_compatible _ _ hverified) hcollect
  rw [List.nil_append] at hgathered
  refine ⟨_, version, hselect, hgathered.checks, ?_, ?_⟩
  · rw [hfiles, hgathered.files]
  · rw [hfiles, hgathered.files]
    exact hselected _ version hselect hgathered.checks

end ThistleOS.BoardBundle
