import ThistleOS.Recovery.ArtifactManifest.Canonical
import ThistleOS.Recovery.BoardBundle

/-!
# What is planned and what is selected

The plan and the selection, read off from the verified manifests of the catalog.
-/

open PowerLoss
open Except (bind_ok check_ok ok_bind mapError_ok)
open ThistleOS.Catalog
open ThistleOS.MsgQueue (Text)

namespace ThistleOS.BoardBundle

variable {site : Site} {boardName chip : String} {candidate : UInt32}
  {manifests : List VerifiedManifest}

/-! ### The floor -/

/-- What the check of a firmware version computes. -/
lemma requireNewerFirmware_eq (hne : candidate ≠ 0) {floor : Option UInt32}
    (hload : site.loadSecurityVersion = .ok floor) :
    requireNewerFirmware site candidate =
      if candidate ≤ floor.getD 0 then
        .error s!"firmware security version {candidate} is not newer than device version {floor.getD 0}"
      else .ok () := by
  rw [requireNewerFirmware, AntiRollback.requireNewer, if_neg hne, hload]
  show Except.map _ (Prog.value (ExceptT.run (do
    if candidate ≤ floor.getD 0 then throw _
    return floor.getD 0 : Act String Sig.none UInt32))) = _
  split_ifs
  · rfl
  · rfl

lemma requireNewerFirmware_ok :
    requireNewerFirmware site candidate = .ok () ↔
      ∃ floor, site.loadSecurityVersion = .ok floor ∧ floor.getD 0 < candidate := by
  by_cases hzero : candidate = 0
  · rw [requireNewerFirmware, AntiRollback.requireNewer, if_pos hzero]
    refine iff_of_false (fun h => by cases h) ?_
    rintro ⟨floor, -, hlt⟩
    rw [hzero] at hlt
    exact absurd hlt (UInt32.not_lt_zero)
  · cases hload : site.loadSecurityVersion with
    | error e =>
      rw [requireNewerFirmware, AntiRollback.requireNewer, if_neg hzero, hload]
      refine iff_of_false (fun h => by cases h) ?_
      rintro ⟨floor, h, -⟩
      cases h
    | ok floor =>
      rw [requireNewerFirmware_eq hzero hload]
      split_ifs with hle
      · refine iff_of_false (fun h => by cases h) ?_
        rintro ⟨floor', h, hlt⟩
        cases h
        exact absurd hle (UInt32.not_le.mpr hlt)
      · exact iff_of_true rfl ⟨floor, rfl, UInt32.not_le.mp hle⟩

/-! ### Verified manifests -/

/-- The verified manifests of the catalog. -/
def verifiedManifests (site : Site) : Except String (List VerifiedManifest) := do
  let catalogJson ← site.catalog
  fetchVerifiedManifests site (iterJsonObjects catalogJson.toList)

/-- A verified manifest is well formed. -/
lemma shape_of_fetchVerifiedManifest {obj : Text} {legacyType : String} {artifact : VerifiedManifest}
    (h : fetchVerifiedManifest site obj legacyType = .ok artifact) :
    artifact.manifest.validateShape = .ok () := by
  rw [fetchVerifiedManifest] at h
  obtain ⟨_, -, h⟩ := bind_ok h
  obtain ⟨_, -, h⟩ := bind_ok h
  obtain ⟨canonical, -, h⟩ := bind_ok h
  obtain ⟨signature, -, h⟩ := bind_ok h
  obtain ⟨_, -, h⟩ := bind_ok h
  cases htext : String.fromUTF8? ⟨canonical.toArray⟩ with
  | none =>
    rw [htext] at h
    cases h
  | some text =>
    rw [htext] at h
    obtain ⟨manifest, hparse, h⟩ := bind_ok h
    obtain ⟨-, h⟩ := check_ok h
    have hmanifest : artifact.manifest = manifest := by
      cases hid : jsonExtractString obj "id" with
      | none =>
        rw [hid] at h
        cases h
        rfl
      | some legacyId =>
        rw [hid] at h
        obtain ⟨-, h⟩ := check_ok h
        cases h
        rfl
    rw [hmanifest]
    exact (ArtifactManifest.parse_ok hparse).1

lemma shape_of_fetch {objs : List Text}
    (h : fetchVerifiedManifests site objs = .ok manifests) :
    ∀ artifact ∈ manifests, artifact.manifest.validateShape = .ok () := by
  induction objs generalizing manifests with
  | nil =>
    cases h
    exact fun _ hmem => absurd hmem List.not_mem_nil
  | cons obj objs ih =>
    rw [fetchVerifiedManifests] at h
    cases htype : jsonExtractString obj "type" with
    | none =>
      rw [htype] at h
      exact ih h
    | some legacyType =>
      simp only [htype] at h
      split_ifs at h
      · obtain ⟨artifact, hartifact, h⟩ := bind_ok h
        obtain ⟨artifacts, hartifacts, h⟩ := bind_ok h
        cases h
        exact List.forall_mem_cons.mpr ⟨shape_of_fetchVerifiedManifest hartifact, ih hartifacts⟩
      · exact ih h

/-- A well-formed manifest that is served with a good signature is verified. -/
lemma fetchVerifiedManifest_ok {obj : Text} {m : ArtifactManifest} {url signatureUrl : String}
    {signature : List UInt8} (hshape : m.validateShape = .ok ())
    (hurl : jsonExtractString obj "manifest_url" = some url)
    (hsignatureUrl : jsonExtractString obj "manifest_sig_url" = some signatureUrl)
    (hget : site.httpGetBytes url maxArtifactManifestSize = .ok m.canonicalBytes)
    (hgetSignature : site.httpGetBytes signatureUrl maxSignatureSize = .ok signature)
    (hlength : signature.length = 64) (hverify : site.verify m.canonicalBytes signature = .ok ())
    (hid : jsonExtractString obj "id" = none ∨ jsonExtractString obj "id" = some m.id) :
    fetchVerifiedManifest site obj m.artifactType.asStr = .ok ⟨m, m.canonicalBytes, signature⟩ := by
  have hchecked : verifyEd25519 site m.canonicalBytes signature = .ok () := by
    rw [verifyEd25519, if_neg (not_not.mpr hlength)]
    exact hverify
  have htext : String.fromUTF8? ⟨m.canonicalBytes.toArray⟩ = some m.canonicalText :=
    fromUTF8?_utf8 m.canonicalText
  rw [fetchVerifiedManifest, hurl, hsignatureUrl]
  simp only [orMissing, ok_bind, hget, hgetSignature, hchecked, htext,
    ArtifactManifest.parse_canonicalText hshape]
  rw [if_neg (not_not.mpr rfl)]
  rcases hid with hid | hid
  · rw [hid]
    rfl
  · rw [hid]
    show (if m.id ≠ m.id then _ else _) = _
    exact if_neg (not_not.mpr rfl)

lemma verifiedManifests_ok : verifiedManifests site = .ok manifests ↔
    ∃ catalogJson, site.catalog = .ok catalogJson ∧
      fetchVerifiedManifests site (iterJsonObjects catalogJson.toList) = .ok manifests := by
  constructor
  · exact bind_ok
  · rintro ⟨catalogJson, hcatalog, hfetch⟩
    rw [verifiedManifests, hcatalog]
    exact hfetch

lemma shape_of_verified (h : verifiedManifests site = .ok manifests) :
    ∀ artifact ∈ manifests, artifact.manifest.validateShape = .ok () := by
  obtain ⟨_, -, hfetch⟩ := bind_ok h
  exact shape_of_fetch hfetch

/-! ### Artifacts of a device -/

/-- An artifact of this chip and board. -/
def isFor (chip boardName : String) (m : ArtifactManifest) : Bool :=
  m.arch = chip && m.compatibleBoards.contains boardName && (m.artifactType ≠ .board || m.id = boardName)

def isFirmware (artifact : VerifiedManifest) : Bool := artifact.manifest.artifactType = .firmware

/-- The verified manifests of the chip and the board, in the order of the catalog. -/
def compatible (chip boardName : String) (manifests : List VerifiedManifest) : List VerifiedManifest :=
  manifests.filter fun artifact => isFor chip boardName artifact.manifest

/-- A well-formed manifest of the chip and the board is valid for the device. -/
lemma validateForDevice_of_isFor {m : ArtifactManifest} (hshape : m.validateShape = .ok ())
    (h : isFor chip boardName m = true) : m.validateForDevice chip boardName 1 = .ok () := by
  rw [isFor, Bool.and_eq_true, Bool.and_eq_true, Bool.or_eq_true, decide_eq_true_eq,
    decide_eq_true_eq, decide_eq_true_eq, List.contains_iff_mem] at h
  obtain ⟨⟨harch, hboard⟩, hid⟩ := h
  have hversion : ¬ m.securityVersion < 1 := fun hlt => by
    have hzero := (ArtifactManifest.shape_of_validateShape hshape).securityVersion
    rw [UInt32.lt_iff_toNat_lt] at hlt
    exact hzero (UInt32.toNat_inj.mp (Nat.lt_one_iff.mp hlt))
  have hidentity : ¬ (m.artifactType = .board ∧ m.id ≠ boardName) := fun hne =>
    hid.elim (fun h => h hne.1) fun h => hne.2 h
  rw [ArtifactManifest.validateForDevice, hshape, ok_bind, if_neg (not_not.mpr harch),
    if_neg hversion, if_neg (not_not.mpr hboard), if_neg hidentity]
  rfl


/-- The condition under which both loops skip an artifact. -/
lemma skipped_eq (m : ArtifactManifest) :
    (decide (m.arch ≠ chip) || !m.compatibleBoards.contains boardName ||
      (decide (m.artifactType = .board) && decide (m.id ≠ boardName))) = !isFor chip boardName m := by
  simp only [isFor, Bool.not_and, Bool.not_or, decide_not, Bool.not_not, ne_eq]

lemma compatible_cons_of_pos {artifact : VerifiedManifest}
    (h : isFor chip boardName artifact.manifest = true) :
    compatible chip boardName (artifact :: manifests) =
      artifact :: compatible chip boardName manifests :=
  List.filter_cons_of_pos h

lemma compatible_cons_of_neg {artifact : VerifiedManifest}
    (h : isFor chip boardName artifact.manifest = false) :
    compatible chip boardName (artifact :: manifests) = compatible chip boardName manifests :=
  List.filter_cons_of_neg (Bool.eq_false_iff.mp h)

lemma selectArtifacts_eq (h : ∀ artifact ∈ manifests, artifact.manifest.validateShape = .ok ()) :
    selectArtifacts chip boardName manifests = .ok (compatible chip boardName manifests) := by
  induction manifests with
  | nil => rfl
  | cons artifact manifests ih =>
    obtain ⟨hshape, hrest⟩ := List.forall_mem_cons.mp h
    rw [selectArtifacts, skipped_eq]
    cases hfor : isFor chip boardName artifact.manifest with
    | false =>
      rw [compatible_cons_of_neg hfor, ← ih hrest]
      rfl
    | true =>
      rw [compatible_cons_of_pos hfor, validateForDevice_of_isFor hshape hfor, ih hrest]
      rfl

lemma planEntries_eq (h : ∀ artifact ∈ manifests, artifact.manifest.validateShape = .ok ()) :
    planEntries chip boardName manifests =
      .ok ((compatible chip boardName manifests).map (·.manifest),
        ((compatible chip boardName manifests).filter isFirmware).map
          (·.manifest.securityVersion)) := by
  induction manifests with
  | nil => rfl
  | cons artifact manifests ih =>
    obtain ⟨hshape, hrest⟩ := List.forall_mem_cons.mp h
    rw [planEntries]
    simp only [skipped_eq]
    cases hfor : isFor chip boardName artifact.manifest with
    | false =>
      rw [compatible_cons_of_neg hfor, ← ih hrest]
      rfl
    | true =>
      rw [compatible_cons_of_pos hfor, validateForDevice_of_isFor hshape hfor, ih hrest]
      by_cases hfirmware : artifact.manifest.artifactType = .firmware
      · rw [List.filter_cons_of_pos (by simp [isFirmware, hfirmware])]
        show Except.ok (_, if _ then _ else _) = _
        rw [if_pos hfirmware]
        rfl
      · rw [List.filter_cons_of_neg (by simp [isFirmware, hfirmware])]
        show Except.ok (_, if _ then _ else _) = _
        rw [if_neg hfirmware]
        rfl

/-! ### The plan and the selection -/

/-- A plan lists the artifacts of the device, among which there is one firmware, which is newer. -/
lemma bundlePlan_ok {artifacts : List ArtifactManifest} :
    bundlePlan site boardName = .ok artifacts ↔ ∃ manifests firmware,
      verifiedManifests site = .ok manifests ∧
      (compatible (detectChip site.chipModel) boardName manifests).filter isFirmware = [firmware] ∧
      requireNewerFirmware site firmware.manifest.securityVersion = .ok () ∧
      (compatible (detectChip site.chipModel) boardName manifests).map (·.manifest) = artifacts := by
  constructor
  · intro h
    obtain ⟨catalogJson, hcatalog, h⟩ := bind_ok h
    obtain ⟨manifests, hfetch, h⟩ := bind_ok h
    rw [planEntries_eq (shape_of_fetch hfetch), ok_bind] at h
    have hverified : verifiedManifests site = .ok manifests :=
      verifiedManifests_ok.mpr ⟨catalogJson, hcatalog, hfetch⟩
    cases hfirmware : (compatible (detectChip site.chipModel) boardName manifests).filter isFirmware with
    | nil =>
      rw [hfirmware] at h
      cases h
    | cons firmware rest =>
      cases rest with
      | cons second rest =>
        rw [hfirmware] at h
        cases h
      | nil =>
        rw [hfirmware] at h
        obtain ⟨_, hnewer, h⟩ := bind_ok h
        exact ⟨manifests, firmware, hverified, hfirmware, hnewer, Except.ok.inj h⟩
  · rintro ⟨manifests, firmware, hverified, hfirmware, hnewer, rfl⟩
    obtain ⟨catalogJson, hcatalog, hfetch⟩ := bind_ok hverified
    rw [bundlePlan, hcatalog, ok_bind]
    simp only [hfetch, ok_bind, planEntries_eq (shape_of_fetch hfetch), hfirmware, List.map_cons,
      List.map_nil, hnewer]
    rfl

lemma find?_of_filter {α : Type} {p : α → Bool} {l : List α} {a : α} (h : l.filter p = [a]) :
    l.find? p = some a := by
  rw [← List.head?_filter, h]
  rfl

/-- A selection is the artifacts of the device, among which there is one firmware, which is newer, and
one board profile. -/
lemma selectBundle_ok {selected : List VerifiedManifest} {version : UInt32} :
    selectBundle site boardName = .ok (selected, version) ↔ ∃ manifests firmware,
      verifiedManifests site = .ok manifests ∧
      (compatible (detectChip site.chipModel) boardName manifests).filter isFirmware = [firmware] ∧
      requireNewerFirmware site firmware.manifest.securityVersion = .ok () ∧
      compatible (detectChip site.chipModel) boardName manifests = selected ∧
      countType .board selected = 1 ∧ firmware.manifest.securityVersion = version := by
  constructor
  · intro h
    obtain ⟨catalogJson, hcatalog, h⟩ := bind_ok h
    obtain ⟨manifests, hfetch, h⟩ := bind_ok h
    obtain ⟨selected', hselected, h⟩ := bind_ok h
    have hcatalog := mapError_ok hcatalog
    have hfetch := mapError_ok hfetch
    have hselected := mapError_ok hselected
    rw [selectArtifacts_eq (shape_of_fetch hfetch)] at hselected
    cases hselected
    have hverified : verifiedManifests site = .ok manifests :=
      verifiedManifests_ok.mpr ⟨catalogJson, hcatalog, hfetch⟩
    obtain ⟨-, h⟩ := check_ok h
    obtain ⟨hcount, h⟩ := check_ok h
    rw [Bool.or_eq_true, decide_eq_true_eq, decide_eq_true_eq, not_or, not_not, not_not] at hcount
    obtain ⟨firmware, hfirmware⟩ := List.length_eq_one_iff.mp hcount.1
    dsimp only at h
    rw [find?_of_filter hfirmware] at h
    obtain ⟨_, hnewer, h⟩ := bind_ok h
    cases h
    exact ⟨manifests, firmware, hverified, hfirmware, mapError_ok hnewer, rfl, hcount.2, rfl⟩
  · rintro ⟨manifests, firmware, hverified, hfirmware, hnewer, rfl, hboard, rfl⟩
    obtain ⟨catalogJson, hcatalog, hfetch⟩ := bind_ok hverified
    have hone : countType .firmware (compatible (detectChip site.chipModel) boardName manifests) = 1 :=
      List.length_eq_one_iff.mpr ⟨firmware, hfirmware⟩
    have hnonempty : (compatible (detectChip site.chipModel) boardName manifests).isEmpty = false := by
      cases hcompatible : compatible (detectChip site.chipModel) boardName manifests with
      | nil => simp [hcompatible] at hfirmware
      | cons artifact artifacts => rfl
    rw [selectBundle, hcatalog]
    simp only [Except.mapError, ok_bind, hfetch, selectArtifacts_eq (shape_of_fetch hfetch), hnonempty,
      hone, hboard]
    rw [show (compatible (detectChip site.chipModel) boardName manifests).find?
      (fun artifact => decide (artifact.manifest.artifactType = .firmware)) = some firmware from
        find?_of_filter hfirmware]
    simp only [hnewer]
    rfl

end ThistleOS.BoardBundle
