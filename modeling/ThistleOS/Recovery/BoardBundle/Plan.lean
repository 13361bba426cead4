import ThistleOS.Recovery.BoardBundle.Collect
import ThistleOS.Recovery.BoardBundle.Digest

/-!
# A plan and its installation
-/

open PowerLoss
open Except (bind_ok ok_bind exists_bind mapError_of_ok)
open ThistleOS.ArtifactManifest (shape_of_validateShape)
open ThistleOS.BundleTransaction
open ThistleOS.Catalog

namespace ThistleOS.BoardBundle

variable {site : Site} {boardName : String} {downloads : Nat → Download} {st st' : Collected}
  {artifact : VerifiedManifest} {gathered selected : List VerifiedManifest}

/-! ### Downloads that succeed -/

lemma stagePath_ok (n : Nat) {suffix : String} (hclean : '/' ∉ suffix.toList ∧ '\\' ∉ suffix.toList)
    (hlong : 2 < suffix.toList.length) : ∃ path, stagePath (toString n ++ suffix) = .ok path := by
  have hdigits : ∀ c, c.isDigit = false → c ∉ (toString n).toList := fun c hc hmem => by
    have hdigit : c.isDigit = true := by
      change c ∈ (Nat.repr n).toList at hmem
      rw [Nat.repr, String.toList_ofList] at hmem
      exact Nat.isDigit_of_mem_toDigits (by decide) (by decide) hmem
    rw [hc] at hdigit
    cases hdigit
  have hnot : ∀ c, c.isDigit = false → c ∉ suffix.toList →
      (toString n ++ suffix).toList.contains c = false := fun c hc hsuffix => by
    rw [List.contains_eq_mem, decide_eq_false_iff_not, String.toList_append, List.mem_append]
    exact fun h => h.elim (hdigits c hc) hsuffix
  have hlength : 2 < (toString n ++ suffix).toList.length := by
    rw [String.toList_append, List.length_append]
    omega
  have hname : ∀ s : String, s.toList.length ≤ 2 → toString n ++ suffix ≠ s := fun s hs heq => by
    rw [heq] at hlength
    omega
  have hempty : (toString n ++ suffix).isEmpty = false := by
    rw [← Bool.not_eq_true, String.isEmpty_iff]
    exact hname "" (by decide)
  rw [stagePath, hempty, hnot '/' (by decide) hclean.1, hnot '\\' (by decide) hclean.2,
    decide_eq_false (hname "." (by decide)), decide_eq_false (hname ".." (by decide))]
  exact ⟨_, rfl⟩

lemma bundleFile_ok {path : String} (h : validateRelativePath path = .ok ()) (source : Path) :
    ∃ file, bundleFile path source = .ok file := by
  rw [bundleFile, BundleFile.fromFile]
  split
  · rename_i e he
    rw [h] at he
    cases he
  · exact ⟨_, rfl⟩

/-- Everything succeeds in the download of an artifact with this digest. -/
def goodDownload (m : ArtifactManifest) (digest : List UInt8) : Download where
  received := .ok m.size
  digest := .ok digest
  manifestWritten := .ok ()
  signatureWritten := .ok ()

lemma downloadVerifiedPayload_ok {m : ArtifactManifest} {digest : List UInt8}
    (hsize : m.size ≤ artifactSizeLimit m.artifactType) (hsha : isSha256Hex m.sha256 = true)
    (hdigest : hexLower digest = m.sha256) :
    downloadVerifiedPayload (goodDownload m digest) m = .ok () := by
  rw [downloadVerifiedPayload]
  dsimp only
  rw [if_neg (UInt32.not_lt.mpr hsize)]
  show (if m.size ≠ m.size then _ else verifySha256File _ _) = _
  rw [if_neg (not_not.mpr rfl)]
  exact verifySha256File_of_digest hsha rfl hdigest

lemma stageWrite_ok (n : Nat) {suffix : String}
    (hclean : '/' ∉ suffix.toList ∧ '\\' ∉ suffix.toList) (hlong : 2 < suffix.toList.length) :
    ∃ path, stageWrite (.ok ()) (toString n ++ suffix) = .ok path := by
  obtain ⟨path, hpath⟩ := stagePath_ok n hclean hlong
  rw [stageWrite, hpath]
  exact ⟨path, rfl⟩

lemma activeBoardFile_ok (type : ArtifactType) {path : String}
    (h : validateRelativePath path = .ok ()) (source : Path) :
    ∃ files, activeBoardFile type path source = .ok files := by
  rw [activeBoardFile]
  split_ifs
  · obtain ⟨file, hfile⟩ := bundleFile_ok h source
    rw [hfile]
    exact ⟨_, rfl⟩
  · exact ⟨_, rfl⟩

/-- The paths under which an artifact is installed are valid. -/
lemma valid_destination {m : ArtifactManifest} (hshape : m.validateShape = .ok ())
    (hid : validateCatalogId m.id = .ok ()) (htype : m.artifactType ≠ .firmware) :
    validateRelativePath m.destination = .ok () ∧
    validateRelativePath (m.destination ++ ".manifest") = .ok () ∧
    validateRelativePath (m.destination ++ ".manifest.sig") = .ok () := by
  have hvalid : ∀ path ∈ relativePaths m, validateRelativePath path = .ok () := by
    rw [relativePaths, List.forall_mem_map]
    intro target htarget
    obtain ⟨hsound, hending, -⟩ := sound_of_targets hid htarget
    exact hsound.valid hending
  rw [relativePaths_eq htype (shape_of_validateShape hshape).destination] at hvalid
  exact ⟨hvalid _ (by simp), hvalid _ (by simp), hvalid _ (by simp)⟩

/-- The manifest of an artifact and its signature are staged. -/
lemma stageManifest_ok (n : Nat) :
    (∃ path, stageWrite (.ok ()) s!"{n}-manifest" = .ok path) ∧
    ∃ path, stageWrite (.ok ()) s!"{n}-manifest-signature" = .ok path :=
  ⟨stageWrite_ok n ⟨by decide, by decide⟩ (by decide),
    stageWrite_ok n ⟨by decide, by decide⟩ (by decide)⟩

lemma downloadFirmware_ok {digest : List UInt8} (hpayload : downloadVerifiedPayload
    (goodDownload artifact.manifest digest) artifact.manifest = .ok ()) :
    ∃ st', downloadFirmware (goodDownload artifact.manifest digest) st artifact = .ok st' := by
  obtain ⟨staged, hstaged⟩ : ∃ path, stagePath s!"{st.downloaded}-firmware.bin" = .ok path :=
    stagePath_ok st.downloaded ⟨by decide, by decide⟩ (by decide)
  obtain ⟨⟨manifest, hmanifest⟩, signature, hsignature⟩ := stageManifest_ok st.downloaded
  obtain ⟨manifestFile, hmanifestFile⟩ :=
    bundleFile_ok (by decide +kernel : validateRelativePath "config/firmware.manifest" = .ok ()) manifest
  obtain ⟨signatureFile, hsignatureFile⟩ :=
    bundleFile_ok (by decide +kernel : validateRelativePath "config/firmware.manifest.sig" = .ok ()) signature
  rw [downloadFirmware]
  refine exists_bind (mapError_of_ok hstaged) (exists_bind hpayload ?_)
  refine exists_bind hmanifest (exists_bind hsignature ?_)
  refine exists_bind hmanifestFile (exists_bind hsignatureFile ?_)
  exact ⟨_, rfl⟩

lemma downloadFile_ok {digest : List UInt8} (htype : artifact.manifest.artifactType ≠ .firmware)
    (hshape : artifact.manifest.validateShape = .ok ())
    (hid : validateCatalogId artifact.manifest.id = .ok ())
    (hpayload : downloadVerifiedPayload (goodDownload artifact.manifest digest) artifact.manifest =
      .ok ()) :
    ∃ st', downloadFile (goodDownload artifact.manifest digest) st artifact = .ok st' := by
  obtain ⟨staged, hstaged⟩ : ∃ path, stagePath s!"{st.downloaded}-payload" = .ok path :=
    stagePath_ok st.downloaded ⟨by decide, by decide⟩ (by decide)
  obtain ⟨⟨manifest, hmanifest⟩, signature, hsignature⟩ := stageManifest_ok st.downloaded
  obtain ⟨hvalid, hvalidManifest, hvalidSignature⟩ := valid_destination hshape hid htype
  obtain ⟨active, hactive⟩ := activeBoardFile_ok artifact.manifest.artifactType
    (by decide +kernel : validateRelativePath "config/board.json" = .ok ()) staged
  obtain ⟨file, hfile⟩ := bundleFile_ok hvalid staged
  obtain ⟨manifestFile, hmanifestFile⟩ := bundleFile_ok hvalidManifest manifest
  obtain ⟨signatureFile, hsignatureFile⟩ := bundleFile_ok hvalidSignature signature
  obtain ⟨activeManifest, hactiveManifest⟩ := activeBoardFile_ok artifact.manifest.artifactType
    (by decide +kernel : validateRelativePath "config/board.json.manifest" = .ok ()) manifest
  obtain ⟨activeSignature, hactiveSignature⟩ := activeBoardFile_ok artifact.manifest.artifactType
    (by decide +kernel : validateRelativePath "config/board.json.manifest.sig" = .ok ()) signature
  rw [downloadFile]
  refine exists_bind (mapError_of_ok hstaged) (exists_bind hpayload ?_)
  refine exists_bind hactive (exists_bind hfile ?_)
  refine exists_bind hmanifest (exists_bind hsignature ?_)
  refine exists_bind hmanifestFile (exists_bind hsignatureFile ?_)
  refine exists_bind hactiveManifest (exists_bind hactiveSignature ?_)
  exact ⟨_, rfl⟩

/-! ### How far the loop comes -/

def fits (artifact : VerifiedManifest) : Bool :=
  artifact.manifest.size ≤ artifactSizeLimit artifact.manifest.artifactType

/-- The artifacts to which the loop comes if all that it downloads succeeds: it stops at the first one
that is too large. -/
def reached : List VerifiedManifest → List VerifiedManifest
  | [] => []
  | artifact :: artifacts => if fits artifact then artifact :: reached artifacts else [artifact]

lemma collectArtifact_ok {digest : List UInt8} (hpasses : Passes st artifact)
    (hshape : artifact.manifest.validateShape = .ok ()) (hfits : fits artifact = true)
    (hdigest : hexLower digest = artifact.manifest.sha256) :
    ∃ st', collectArtifact (goodDownload artifact.manifest digest) st artifact = .ok st' := by
  have hpayload := downloadVerifiedPayload_ok (of_decide_eq_true hfits)
    (shape_of_validateShape hshape).sha256 hdigest
  have hdownload : ∃ st', downloadArtifact (goodDownload artifact.manifest digest) (st.mark artifact)
      artifact = .ok st' := by
    rw [downloadArtifact]
    split_ifs with htype
    · exact downloadFirmware_ok hpayload
    · exact downloadFile_ok htype hshape hpasses.id hpayload
  obtain ⟨st', hdownload⟩ := hdownload
  rw [collectArtifact_of_passes hpasses, hdownload]
  exact ⟨_, rfl⟩

/-- After the gathered ones, an artifact with a catalog id and a new destination passes. -/
lemma Gathered.passes (h : Gathered gathered st)
    (hshape : ∀ artifact ∈ gathered, artifact.manifest.validateShape = .ok ())
    (hartifact : artifact.manifest.validateShape = .ok ())
    (hchecks : LoopChecks (gathered ++ [artifact])) : Passes st artifact := by
  have hnew : ∀ artifact' ∈ gathered,
      artifact'.manifest.destination ≠ artifact.manifest.destination := by
    have hdestinations := hchecks.destinations
    rw [List.map_append, List.nodup_append] at hdestinations
    exact fun artifact' hmem => hdestinations.2.2 _ (List.mem_map_of_mem hmem) _
      (List.mem_map_of_mem List.mem_cons_self)
  refine ⟨fun hmem => ?_, hchecks.ids artifact (List.mem_append_right _ List.mem_cons_self), ?_⟩
  · obtain ⟨artifact', hmem', heq⟩ := (h.destinations _).mp hmem
    exact hnew artifact' hmem' heq
  · -- two firmware images have the same destination
    rw [Bool.eq_false_iff, ne_eq, Bool.and_eq_true, h.firmwarePath, List.any_eq_true]
    rintro ⟨hfirmware, artifact', hmem, hfirmware'⟩
    refine hnew artifact' hmem ?_
    have htype : artifact.manifest.artifactType = .firmware := of_decide_eq_true hfirmware
    have htype' : artifact'.manifest.artifactType = .firmware := of_decide_eq_true hfirmware'
    rw [(shape_of_validateShape hartifact).destination,
      (shape_of_validateShape (hshape artifact' hmem)).destination, htype, htype']
    rfl

lemma LoopChecks.of_append {gathered selected : List VerifiedManifest}
    (h : LoopChecks (gathered ++ selected)) : LoopChecks gathered where
  destinations := by
    have hdestinations := h.destinations
    rw [List.map_append] at hdestinations
    exact hdestinations.of_append_left
  ids artifact hmem := h.ids artifact (List.mem_append_left _ hmem)

/-- If the artifacts that the loop comes to pass its checks, no download makes it reject one. -/
lemma Gathered.not_rejected (h : Gathered gathered st)
    (hshape : ∀ artifact ∈ gathered ++ selected, artifact.manifest.validateShape = .ok ())
    (hchecks : LoopChecks (gathered ++ reached selected)) (message : String) :
    collectBundle downloads st selected ≠ .error (.rejected message) := by
  induction selected generalizing gathered st with
  | nil =>
    intro heq
    cases heq
  | cons artifact selected ih =>
    have hartifact := hshape artifact (List.mem_append_right _ List.mem_cons_self)
    have hfirst : LoopChecks (gathered ++ [artifact]) := by
      rw [reached] at hchecks
      split_ifs at hchecks
      · rw [List.append_cons] at hchecks
        exact hchecks.of_append
      · exact hchecks
    have hpasses := h.passes (fun artifact' hmem => hshape artifact' (List.mem_append_left _ hmem))
      hartifact hfirst
    rw [collectBundle]
    cases hstep : collectArtifact (downloads st.downloaded) st artifact with
    | error e =>
      intro heq
      have hrejected : e = .rejected message := Except.error.inj heq
      exact hpasses.not_rejected message (hrejected ▸ hstep)
    | ok st' =>
      obtain ⟨hgathered, hsize⟩ := h.step hartifact hstep
      have hfits : fits artifact = true := decide_eq_true hsize
      rw [reached, if_pos hfits] at hchecks
      refine ih hgathered (fun artifact' hmem => hshape artifact' ?_) ?_
      · rwa [List.append_assoc] at hmem
      · rwa [List.append_assoc]

/-- If all downloads succeed, the loop comes to an artifact that does not pass, and rejects it. -/
lemma Gathered.checks_of_not_rejected {digest : VerifiedManifest → List UInt8}
    (h : Gathered gathered st)
    (hshape : ∀ artifact ∈ selected, artifact.manifest.validateShape = .ok ())
    (hdigest : ∀ artifact ∈ selected, hexLower (digest artifact) = artifact.manifest.sha256)
    (hgood : ∀ i artifact, selected[i]? = some artifact →
      downloads (gathered.length + i) = goodDownload artifact.manifest (digest artifact))
    (hnot : ∀ message, collectBundle downloads st selected ≠ .error (.rejected message)) :
    LoopChecks (gathered ++ reached selected) := by
  induction selected generalizing gathered st with
  | nil =>
    rw [reached, List.append_nil]
    exact h.checks
  | cons artifact selected ih =>
    obtain ⟨hartifact, hrest⟩ := List.forall_mem_cons.mp hshape
    obtain ⟨hsha, hdigests⟩ := List.forall_mem_cons.mp hdigest
    have hdownload : downloads st.downloaded = goodDownload artifact.manifest (digest artifact) :=
      h.downloaded ▸ hgood 0 artifact rfl
    simp only [collectBundle] at hnot
    by_cases hpasses : Passes st artifact
    · have hfirst := h.checks_concat hpasses
      rw [reached]
      split_ifs with hfits
      · obtain ⟨st', hstep⟩ := collectArtifact_ok hpasses hartifact hfits hsha
        rw [hdownload, hstep] at hnot
        have hgathered := (h.step hartifact hstep).1
        rw [List.append_cons]
        refine ih hgathered hrest hdigests (fun i artifact' hi => ?_) hnot
        rw [List.length_append, Nat.add_assoc, Nat.add_comm _ i]
        exact hgood (i + 1) artifact' hi
      · exact hfirst
    · obtain ⟨message, hrejected⟩ :=
        collectArtifact_of_not_passes (downloads st.downloaded) hpasses
      refine absurd ?_ (hnot message)
      rw [hrejected]
      rfl

/-- If all downloads succeed and every artifact fits, the loop gathers what passes its checks. -/
lemma Gathered.collects {digest : VerifiedManifest → List UInt8} (h : Gathered gathered st)
    (hshape : ∀ artifact ∈ gathered ++ selected, artifact.manifest.validateShape = .ok ())
    (hdigest : ∀ artifact ∈ selected, hexLower (digest artifact) = artifact.manifest.sha256)
    (hgood : ∀ i artifact, selected[i]? = some artifact →
      downloads (gathered.length + i) = goodDownload artifact.manifest (digest artifact))
    (hfits : ∀ artifact ∈ selected, fits artifact = true)
    (hchecks : LoopChecks (gathered ++ selected)) :
    ∃ st', collectBundle downloads st selected = .ok st' := by
  induction selected generalizing gathered st with
  | nil => exact ⟨st, rfl⟩
  | cons artifact selected ih =>
    obtain ⟨hsha, hdigests⟩ := List.forall_mem_cons.mp hdigest
    obtain ⟨hfit, hfits⟩ := List.forall_mem_cons.mp hfits
    have hartifact := hshape artifact (List.mem_append_right _ List.mem_cons_self)
    have hdownload : downloads st.downloaded = goodDownload artifact.manifest (digest artifact) :=
      h.downloaded ▸ hgood 0 artifact rfl
    rw [List.append_cons] at hshape hchecks
    have hpasses := h.passes (fun artifact' hmem => hshape artifact' (by simp [hmem])) hartifact
      hchecks.of_append
    obtain ⟨st', hstep⟩ := collectArtifact_ok hpasses hartifact hfit hsha
    rw [collectBundle, hdownload, hstep]
    refine ih (h.step hartifact hstep).1 hshape hdigests (fun i artifact' hi => ?_) hfits hchecks
    rw [List.length_append, Nat.add_assoc, Nat.add_comm _ i]
    exact hgood (i + 1) artifact' hi

/-! ### The installation of a plan -/

/-- Recovery selects these artifacts for the board, and rejects the selection in no course of the
downloads. -/
def Selects (site : Site) (boardName : String) (artifacts : List ArtifactManifest) : Prop :=
  ∃ selected version, selectBundle site boardName = .ok (selected, version) ∧
    selected.map (·.manifest) = artifacts ∧
    ∀ downloads message,
      recoveryDownloadBoardBundleFor site downloads boardName ≠ .error (.rejected message)

/-- The stored security version is read and is smaller. -/
def Newer (site : Site) (version : UInt32) : Prop :=
  ∃ floor, site.loadSecurityVersion = .ok floor ∧ floor.getD 0 < version

/-- There is one board profile, and what the loop comes to passes its checks. -/
structure Complete (artifacts : List VerifiedManifest) : Prop where
  board : countType .board artifacts = 1
  checks : LoopChecks (reached artifacts)

lemma download_of_selected {downloads : Downloads} {version : UInt32}
    (h : selectBundle site boardName = .ok (selected, version)) :
    recoveryDownloadBoardBundleFor site downloads boardName =
      downloads.stage.mapError .failed >>= fun _ =>
        collectBundle downloads.artifact ⟨[], 0, [], none, none⟩ selected >>= bundleInstall version := by
  rw [recoveryDownloadBoardBundleFor, h]
  rfl

/-- A gathered firmware image is handed over. -/
lemma Gathered.installs (h : Gathered selected st) (hfirmware : selected.any isFirmware = true)
    (version : UInt32) : ∃ bundle, bundleInstall version st = .ok bundle := by
  obtain ⟨firmwarePath, hpath⟩ := Option.isSome_iff_exists.mp (h.firmwarePath.trans hfirmware)
  obtain ⟨firmwareSha256, hsha⟩ := Option.isSome_iff_exists.mp (h.firmwareSha256.trans hfirmware)
  rw [bundleInstall, hpath, hsha]
  exact ⟨_, rfl⟩

lemma selectBundle_of_complete {manifests : List VerifiedManifest} {firmware : VerifiedManifest}
    (hverified : verifiedManifests site = .ok manifests)
    (hfirmware :
      (compatible (detectChip site.chipModel) boardName manifests).filter isFirmware = [firmware])
    (hnewer : Newer site firmware.manifest.securityVersion)
    (hcomplete : Complete (compatible (detectChip site.chipModel) boardName manifests)) :
    selectBundle site boardName = .ok (compatible (detectChip site.chipModel) boardName manifests,
      firmware.manifest.securityVersion) :=
  selectBundle_ok.mpr ⟨manifests, firmware, hverified, hfirmware, requireNewerFirmware_ok.mpr hnewer,
    rfl, hcomplete.board, rfl⟩

lemma any_of_filter {firmware : VerifiedManifest} (h : selected.filter isFirmware = [firmware]) :
    selected.any isFirmware = true := by
  obtain ⟨hmem, hfirmware⟩ := List.mem_filter.mp (h ▸ List.mem_cons_self : firmware ∈ selected.filter isFirmware)
  exact List.any_eq_true.mpr ⟨firmware, hmem, hfirmware⟩

/-- Digests and sizes that make every download succeed. -/
lemma exists_goodDownloads
    (h : ∀ artifact ∈ selected, artifact.manifest.validateShape = .ok ()) :
    ∃ (downloads : Nat → Download) (digest : VerifiedManifest → List UInt8),
      (∀ artifact ∈ selected, hexLower (digest artifact) = artifact.manifest.sha256) ∧
      ∀ i artifact, selected[i]? = some artifact →
        downloads i = goodDownload artifact.manifest (digest artifact) := by
  have hexists : ∀ artifact : VerifiedManifest, ∃ digest,
      artifact ∈ selected → hexLower digest = artifact.manifest.sha256 := fun artifact => by
    by_cases hmem : artifact ∈ selected
    · obtain ⟨digest, hdigest⟩ := exists_digest (shape_of_validateShape (h artifact hmem)).sha256
      exact ⟨digest, fun _ => hdigest⟩
    · exact ⟨[], fun hmem' => absurd hmem' hmem⟩
  choose digest hdigest using hexists
  refine ⟨fun i => (selected[i]?.map fun artifact =>
    goodDownload artifact.manifest (digest artifact)).getD ⟨.error "", .error "", .error "", .error ""⟩,
    digest, hdigest, fun i artifact hi => ?_⟩
  dsimp only
  rw [hi]
  rfl

lemma selects_iff {artifacts : List ArtifactManifest} :
    Selects site boardName artifacts ↔ ∃ manifests firmware,
      verifiedManifests site = .ok manifests ∧
      (compatible (detectChip site.chipModel) boardName manifests).filter isFirmware = [firmware] ∧
      Newer site firmware.manifest.securityVersion ∧
      (compatible (detectChip site.chipModel) boardName manifests).map (·.manifest) = artifacts ∧
      Complete (compatible (detectChip site.chipModel) boardName manifests) := by
  constructor
  · rintro ⟨selected, version, hselect, hartifacts, hnot⟩
    obtain ⟨manifests, firmware, hverified, hfirmware, hnewer, rfl, hboard, -⟩ :=
      selectBundle_ok.mp hselect
    have hshape := shape_of_compatible (detectChip site.chipModel) boardName hverified
    refine ⟨manifests, firmware, hverified, hfirmware, requireNewerFirmware_ok.mp hnewer, hartifacts,
      hboard, ?_⟩
    obtain ⟨downloads, digest, hdigest, hgood⟩ := exists_goodDownloads hshape
    have hnever : ∀ message, collectBundle downloads ⟨[], 0, [], none, none⟩
        (compatible (detectChip site.chipModel) boardName manifests) ≠ .error (.rejected message) := by
      intro message hrejected
      refine hnot ⟨.ok (), downloads⟩ message ?_
      rw [download_of_selected hselect, hrejected]
      rfl
    refine gathered_nil.checks_of_not_rejected hshape hdigest (fun i artifact hi => ?_) hnever
    rw [List.length_nil, Nat.zero_add]
    exact hgood i artifact hi
  · rintro ⟨manifests, firmware, hverified, hfirmware, hnewer, hartifacts, hcomplete⟩
    have hselect := selectBundle_of_complete hverified hfirmware hnewer hcomplete
    have hshape := shape_of_compatible (detectChip site.chipModel) boardName hverified
    refine ⟨_, _, hselect, hartifacts, fun downloads message => ?_⟩
    rw [download_of_selected hselect]
    cases downloads.stage with
    | error e =>
      intro heq
      cases heq
    | ok u =>
      have hnot : collectBundle downloads.artifact ⟨[], 0, [], none, none⟩
          (compatible (detectChip site.chipModel) boardName manifests) ≠ .error (.rejected message) :=
        gathered_nil.not_rejected hshape hcomplete.checks message
      intro heq
      cases hcollect : collectBundle downloads.artifact ⟨[], 0, [], none, none⟩
          (compatible (detectChip site.chipModel) boardName manifests) with
      | error e =>
        rw [hcollect] at heq hnot
        exact hnot (congrArg Except.error (Except.error.inj heq))
      | ok st =>
        obtain ⟨bundle, hbundle⟩ := (gathered_nil.run hshape hcollect).installs
          (any_of_filter hfirmware) firmware.manifest.securityVersion
        rw [hcollect, Except.mapError, ok_bind, ok_bind, hbundle] at heq
        cases heq

/-- What is planned is what is installed, and the other way round, exactly if every bundle of one
newer firmware is complete. -/
theorem plan_agrees_iff (site : Site) (boardName : String) :
    (∀ artifacts, bundlePlan site boardName = .ok artifacts ↔ Selects site boardName artifacts) ↔
      ∀ manifests firmware, verifiedManifests site = .ok manifests →
        (compatible (detectChip site.chipModel) boardName manifests).filter isFirmware = [firmware] →
        Newer site firmware.manifest.securityVersion →
          Complete (compatible (detectChip site.chipModel) boardName manifests) := by
  constructor
  · intro h manifests firmware hverified hfirmware hnewer
    have hplan := bundlePlan_ok.mpr ⟨manifests, firmware, hverified, hfirmware,
      requireNewerFirmware_ok.mpr hnewer, rfl⟩
    obtain ⟨manifests', -, hverified', -, -, -, hcomplete⟩ := selects_iff.mp ((h _).mp hplan)
    cases hverified.symm.trans hverified'
    exact hcomplete
  · intro h artifacts
    rw [selects_iff, bundlePlan_ok]
    constructor
    · rintro ⟨manifests, firmware, hverified, hfirmware, hnewer, hartifacts⟩
      have hnewer := requireNewerFirmware_ok.mp hnewer
      exact ⟨manifests, firmware, hverified, hfirmware, hnewer, hartifacts,
        h manifests firmware hverified hfirmware hnewer⟩
    · rintro ⟨manifests, firmware, hverified, hfirmware, hnewer, hartifacts, -⟩
      exact ⟨manifests, firmware, hverified, hfirmware, requireNewerFirmware_ok.mpr hnewer, hartifacts⟩

lemma reached_of_fits (h : ∀ artifact ∈ selected, fits artifact = true) : reached selected = selected := by
  induction selected with
  | nil => rfl
  | cons artifact selected ih =>
    obtain ⟨hfit, hfits⟩ := List.forall_mem_cons.mp h
    rw [reached, if_pos hfit, ih hfits]

/-- A complete bundle of artifacts that fit comes to its transaction if its downloads succeed. -/
theorem complete_installs {manifests : List VerifiedManifest} {firmware : VerifiedManifest}
    (hverified : verifiedManifests site = .ok manifests)
    (hfirmware :
      (compatible (detectChip site.chipModel) boardName manifests).filter isFirmware = [firmware])
    (hnewer : Newer site firmware.manifest.securityVersion)
    (hcomplete : Complete (compatible (detectChip site.chipModel) boardName manifests))
    (hfits : ∀ artifact ∈ compatible (detectChip site.chipModel) boardName manifests,
      fits artifact = true) :
    ∃ downloads bundle, recoveryDownloadBoardBundleFor site downloads boardName = .ok bundle := by
  have hselect := selectBundle_of_complete hverified hfirmware hnewer hcomplete
  have hshape := shape_of_compatible (detectChip site.chipModel) boardName hverified
  have hchecks := hcomplete.checks
  rw [reached_of_fits hfits] at hchecks
  obtain ⟨downloads, digest, hdigest, hgood⟩ := exists_goodDownloads hshape
  have hdownloads : ∀ i artifact,
      (compatible (detectChip site.chipModel) boardName manifests)[i]? = some artifact →
        downloads (([] : List VerifiedManifest).length + i) =
          goodDownload artifact.manifest (digest artifact) := fun i artifact hi => by
    rw [List.length_nil, Nat.zero_add]
    exact hgood i artifact hi
  obtain ⟨st, hcollect⟩ : ∃ st, collectBundle downloads ⟨[], 0, [], none, none⟩
      (compatible (detectChip site.chipModel) boardName manifests) = .ok st :=
    gathered_nil.collects hshape hdigest hdownloads hfits hchecks
  obtain ⟨bundle, hbundle⟩ := (gathered_nil.run hshape hcollect).installs (any_of_filter hfirmware)
    firmware.manifest.securityVersion
  refine ⟨⟨.ok (), downloads⟩, bundle, ?_⟩
  rw [download_of_selected hselect, hcollect]
  exact hbundle

/-! ### A plan that is not installed -/

def sampleFirmware : ArtifactManifest where
  artifactType := .firmware
  id := "thistle-os"
  version := "1.0.0"
  securityVersion := 2
  arch := "esp32s3"
  compatibleBoards := ["tdeck"]
  destination := "ota_1"
  sha256 := String.ofList (List.replicate 64 'a')
  size := 4096
  url := "https://h/f"

def sampleEntry : String :=
  "\x7b\"type\":\"firmware\",\"manifest_url\":\"m\",\"manifest_sig_url\":\"s\"\x7d"

/-- The catalog offers a firmware for the board, and no board profile. -/
def firmwareOnlySite : Site where
  chipModel := 9
  catalog := .ok ("[" ++ sampleEntry ++ "]")
  httpGetBytes url _ :=
    if url = "m" then .ok sampleFirmware.canonicalBytes else .ok (List.replicate 64 0)
  verify _ _ := .ok ()
  loadSecurityVersion := .ok none

lemma firmwareOnly_verified : verifiedManifests firmwareOnlySite =
    .ok [⟨sampleFirmware, sampleFirmware.canonicalBytes, List.replicate 64 0⟩] := by
  have hobjs : iterJsonObjects ("[" ++ sampleEntry ++ "]").toList = [sampleEntry.toList] := by
    decide +kernel
  have htype : jsonExtractString sampleEntry.toList "type" = some sampleFirmware.artifactType.asStr := by
    decide +kernel
  have hfetch : fetchVerifiedManifest firmwareOnlySite sampleEntry.toList
      sampleFirmware.artifactType.asStr =
      .ok ⟨sampleFirmware, sampleFirmware.canonicalBytes, List.replicate 64 0⟩ := by
    have hurl : jsonExtractString sampleEntry.toList "manifest_url" = some "m" := by decide +kernel
    have hsignatureUrl : jsonExtractString sampleEntry.toList "manifest_sig_url" = some "s" := by
      decide +kernel
    have hid : jsonExtractString sampleEntry.toList "id" = none := by decide +kernel
    have hshape : sampleFirmware.validateShape = .ok () := by decide +kernel
    have hget : firmwareOnlySite.httpGetBytes "m" maxArtifactManifestSize =
        .ok sampleFirmware.canonicalBytes := rfl
    have hgetSignature : firmwareOnlySite.httpGetBytes "s" maxSignatureSize =
        .ok (List.replicate 64 0) := rfl
    have hlength : (List.replicate 64 (0 : UInt8)).length = 64 := List.length_replicate
    exact fetchVerifiedManifest_ok hshape hurl hsignatureUrl hget hgetSignature hlength rfl (.inl hid)
  refine verifiedManifests_ok.mpr ⟨_, rfl, ?_⟩
  rw [hobjs, fetchVerifiedManifests, htype]
  simp only
  rw [if_neg (by decide), hfetch]
  rfl

/-- The plan of a firmware without a board profile succeeds, and its installation rejects it. -/
theorem plan_not_installed : ¬ ∀ site boardName artifacts,
    bundlePlan site boardName = .ok artifacts ↔ Selects site boardName artifacts := by
  intro h
  have hplan : bundlePlan firmwareOnlySite "tdeck" = .ok [sampleFirmware] :=
    bundlePlan_ok.mpr ⟨_, _, firmwareOnly_verified, rfl, requireNewerFirmware_ok.mpr ⟨none, rfl, by decide⟩,
      rfl⟩
  obtain ⟨manifests, -, hverified, -, -, -, hcomplete⟩ :=
    selects_iff.mp ((h firmwareOnlySite "tdeck" [sampleFirmware]).mp hplan)
  cases firmwareOnly_verified.symm.trans hverified
  exact absurd hcomplete.board (by decide +kernel)

end ThistleOS.BoardBundle
