import ThistleOS.Recovery.BoardBundle.Selection
import ThistleOS.Recovery.BundleTransaction.Paths
import Mathlib.Data.List.Nodup

/-!
# Where the artifacts of a bundle are installed

Every artifact has one or two places; the file of its payload, of its manifest and of its signature
there differ in the end of the name.
-/

open ThistleOS.BundleTransaction
open ThistleOS.Catalog

namespace ThistleOS.BoardBundle

/-- A directory, and the name that the payload has there. -/
structure Place where
  dir : List String
  stem : String
  deriving DecidableEq

/-- The path of the payload at a place, or of what describes it. -/
def Place.path (place : Place) (ending : String) : String :=
  "/".intercalate (place.dir ++ [place.stem ++ ending])

def endings : List String := ["", ".manifest", ".manifest.sig"]

/-- The places and endings of the files of an artifact, in the order in which they are gathered. -/
def targets (m : ArtifactManifest) : List (Place × String) :=
  match m.artifactType with
  | .firmware =>
    [(⟨["config"], "firmware"⟩, ".manifest"), (⟨["config"], "firmware"⟩, ".manifest.sig")]
  | .board =>
    [(⟨["config"], "board.json"⟩, ""), (⟨["config", "boards"], m.id ++ ".json"⟩, ""),
      (⟨["config", "boards"], m.id ++ ".json"⟩, ".manifest"),
      (⟨["config", "boards"], m.id ++ ".json"⟩, ".manifest.sig"),
      (⟨["config"], "board.json"⟩, ".manifest"), (⟨["config"], "board.json"⟩, ".manifest.sig")]
  | .driver => endings.map fun ending => (⟨["drivers"], m.id ++ ".drv.elf"⟩, ending)
  | .windowManager => endings.map fun ending => (⟨["wm"], m.id ++ ".wm.elf"⟩, ending)

/-- The relative paths under which the files of an artifact are installed. -/
def relativePaths (m : ArtifactManifest) : List String :=
  (targets m).map fun target => target.1.path target.2

/-! ### Names without separators and control characters -/

structure Clean (s : String) : Prop where
  separator : '/' ∉ s.toList
  tab : '\t' ∉ s.toList
  newline : '\n' ∉ s.toList
  ret : '\r' ∉ s.toList

variable {s t id : String} {place place' : Place} {ending ending' : String}

lemma clean_append (hs : Clean s) (ht : Clean t) : Clean (s ++ t) := by
  have happend : ∀ {c}, c ∉ s.toList → c ∉ t.toList → c ∉ (s ++ t).toList := fun hs ht hmem => by
    rw [String.toList_append, List.mem_append] at hmem
    exact hmem.elim hs ht
  exact ⟨happend hs.separator ht.separator, happend hs.tab ht.tab, happend hs.newline ht.newline,
    happend hs.ret ht.ret⟩

lemma clean_id (h : validateCatalogId id = .ok ()) : Clean id := by
  have hbytes := List.all_eq_true.mp (bytes_of_validateCatalogId h).2
  have hnot : ∀ {c : Char} {b : UInt8}, b ∈ String.utf8EncodeChar c → isIdByte b = false →
      c ∉ id.toList := fun hc hb => notMem_of_bytes hc fun hmem => by
    have hid := hbytes _ hmem
    rw [hb] at hid
    cases hid
  exact ⟨hnot (b := 47) (by decide) (by decide), hnot (b := 9) (by decide) (by decide),
    hnot (b := 10) (by decide) (by decide), hnot (b := 13) (by decide) (by decide)⟩

/-- What is true of every place: its directories are not empty and have no dot, and its name is long
enough and ends like neither a manifest nor a signature. -/
structure Place.Sound (place : Place) : Prop where
  dir_ne : place.dir ≠ []
  dir : ∀ name ∈ place.dir, Clean name ∧ name.toList ≠ [] ∧ '.' ∉ name.toList
  stem : Clean place.stem
  long : 2 < place.stem.toList.length
  last : place.stem.toList.getLast? ∉ [some 't', some 'g']

/-- The directories of the places. -/
lemma dir_cases {name : String} (h : name ∈ ["config", "boards", "drivers", "wm"]) :
    Clean name ∧ name.toList ≠ [] ∧ '.' ∉ name.toList := by
  simp only [List.mem_cons, List.not_mem_nil, or_false] at h
  rcases h with rfl | rfl | rfl | rfl
  all_goals exact ⟨⟨by decide, by decide, by decide, by decide⟩, by decide, by decide⟩

lemma sound_append {dir : List String} {suffix : String} (hid : validateCatalogId id = .ok ())
    (hne : dir ≠ []) (hdir : ∀ name ∈ dir, name ∈ ["config", "boards", "drivers", "wm"])
    (hsuffix : Clean suffix) (hlong : 2 < suffix.toList.length)
    (hlast : suffix.toList.getLast? ∉ [some 't', some 'g']) :
    Place.Sound ⟨dir, id ++ suffix⟩ where
  dir_ne := hne
  dir name hmem := dir_cases (hdir name hmem)
  stem := clean_append (clean_id hid) hsuffix
  long := by
    rw [String.toList_append, List.length_append]
    omega
  last := by
    rw [String.toList_append, List.getLast?_append]
    cases hend : suffix.toList.getLast? with
    | none => simp [List.getLast?_eq_none_iff.mp hend] at hlong
    | some c =>
      rw [hend] at hlast
      exact hlast

/-- The files of an artifact with a catalog id lie at sound places. -/
lemma sound_of_targets {m : ArtifactManifest} (hid : validateCatalogId m.id = .ok ())
    {target : Place × String} (h : target ∈ targets m) :
    target.1.Sound ∧ target.2 ∈ endings ∧ '.' ∈ (target.1.stem ++ target.2).toList := by
  have hconfig : ∀ {stem : String}, Clean stem → 2 < stem.toList.length →
      stem.toList.getLast? ∉ [some 't', some 'g'] → Place.Sound ⟨["config"], stem⟩ :=
    fun hstem hlong hlast => ⟨List.cons_ne_nil _ _, fun name hmem => dir_cases (by simp_all), hstem,
      hlong, hlast⟩
  have hactive : Place.Sound ⟨["config"], "board.json"⟩ :=
    hconfig ⟨by decide, by decide, by decide, by decide⟩ (by decide) (by decide)
  have hdot : ∀ {suffix ending : String}, '.' ∈ suffix.toList →
      '.' ∈ (m.id ++ suffix ++ ending).toList := fun hsuffix => by
    simp only [String.toList_append, List.mem_append]
    exact .inl (.inr hsuffix)
  cases htype : m.artifactType with
  | firmware =>
    have hfirmware : Place.Sound ⟨["config"], "firmware"⟩ :=
      hconfig ⟨by decide, by decide, by decide, by decide⟩ (by decide) (by decide)
    simp only [targets, htype, List.mem_cons, List.not_mem_nil, or_false] at h
    rcases h with rfl | rfl
    · exact ⟨hfirmware, by decide, by decide⟩
    · exact ⟨hfirmware, by decide, by decide⟩
  | board =>
    have hboard : Place.Sound ⟨["config", "boards"], m.id ++ ".json"⟩ :=
      sound_append hid (List.cons_ne_nil _ _) (by simp) ⟨by decide, by decide, by decide, by decide⟩
        (by decide) (by decide)
    simp only [targets, htype, List.mem_cons, List.not_mem_nil, or_false] at h
    rcases h with rfl | rfl | rfl | rfl | rfl | rfl
    · exact ⟨hactive, by decide, by decide⟩
    · exact ⟨hboard, by simp [endings], hdot (by decide)⟩
    · exact ⟨hboard, by simp [endings], hdot (by decide)⟩
    · exact ⟨hboard, by simp [endings], hdot (by decide)⟩
    · exact ⟨hactive, by decide, by decide⟩
    · exact ⟨hactive, by decide, by decide⟩
  | driver =>
    have hdriver : Place.Sound ⟨["drivers"], m.id ++ ".drv.elf"⟩ :=
      sound_append hid (List.cons_ne_nil _ _) (by simp) ⟨by decide, by decide, by decide, by decide⟩
        (by decide) (by decide)
    simp only [targets, htype, List.mem_map] at h
    obtain ⟨ending, hending, rfl⟩ := h
    exact ⟨hdriver, hending, hdot (by decide)⟩
  | windowManager =>
    have hwm : Place.Sound ⟨["wm"], m.id ++ ".wm.elf"⟩ :=
      sound_append hid (List.cons_ne_nil _ _) (by simp) ⟨by decide, by decide, by decide, by decide⟩
        (by decide) (by decide)
    simp only [targets, htype, List.mem_map] at h
    obtain ⟨ending, hending, rfl⟩ := h
    exact ⟨hwm, hending, hdot (by decide)⟩

/-! ### Paths of places -/

lemma clean_ending (h : ending ∈ endings) : Clean ending := by
  simp only [endings, List.mem_cons, List.not_mem_nil, or_false] at h
  rcases h with rfl | rfl | rfl
  all_goals exact ⟨by decide, by decide, by decide, by decide⟩

lemma plainName_of_clean (h : Clean s) (hlong : 2 < s.toList.length) : PlainName s where
  separator := h.separator
  nonempty hnil := by simp [hnil] at hlong
  noCurDir heq := by simp [heq] at hlong
  noParentDir heq := by simp [heq] at hlong

lemma Place.Sound.parts (h : place.Sound) (hending : ending ∈ endings) :
    ∀ part ∈ place.dir ++ [place.stem ++ ending], PlainName part ∧ Clean part := by
  intro part hpart
  rcases List.mem_append.mp hpart with hpart | hpart
  · obtain ⟨hclean, hne, hdot⟩ := h.dir part hpart
    exact ⟨⟨hclean.separator, hne, fun heq => hdot (by simp [heq]), fun heq => hdot (by simp [heq])⟩,
      hclean⟩
  · rw [List.mem_singleton.mp hpart]
    have hclean := clean_append h.stem (clean_ending hending)
    refine ⟨plainName_of_clean hclean ?_, hclean⟩
    rw [String.toList_append, List.length_append]
    have hlong := h.long
    omega

lemma Place.Sound.names_path (h : place.Sound) (hending : ending ∈ endings) :
    names (place.path ending) = place.dir ++ [place.stem ++ ending] :=
  names_joined (fun part hpart => (h.parts hending part hpart).1) (by simp)

lemma Place.Sound.valid (h : place.Sound) (hending : ending ∈ endings) :
    validateRelativePath (place.path ending) = .ok () :=
  validateRelativePath_joined (fun part hpart => (h.parts hending part hpart).1) (by simp)
    fun part hpart =>
      have hclean := (h.parts hending part hpart).2
      ⟨hclean.tab, hclean.newline, hclean.ret⟩

/-- The last character of a name tells its ending. -/
lemma Place.Sound.ending_eq (h : place.Sound) (hending : ending ∈ endings) :
    ending = if (place.stem ++ ending).toList.getLast? = some 't' then ".manifest"
      else if (place.stem ++ ending).toList.getLast? = some 'g' then ".manifest.sig" else "" := by
  obtain ⟨hnotT, hnotG⟩ : place.stem.toList.getLast? ≠ some 't' ∧
      place.stem.toList.getLast? ≠ some 'g' := by simpa using h.last
  simp only [endings, List.mem_cons, List.not_mem_nil, or_false] at hending
  rcases hending with rfl | rfl | rfl
  · rw [String.append_empty, if_neg hnotT, if_neg hnotG]
  · rw [String.toList_append, List.getLast?_append]
    rfl
  · rw [String.toList_append, List.getLast?_append]
    rfl

lemma append_right_cancel (h : s ++ id = t ++ id) : s = t := by
  rw [← String.toList_inj, String.toList_append, String.toList_append] at h
  exact String.toList_inj.mp (List.append_cancel_right h)

/-- A path determines the place and the ending. -/
lemma Place.Sound.path_inj (h : place.Sound) (h' : place'.Sound) (hending : ending ∈ endings)
    (hending' : ending' ∈ endings) (heq : place.path ending = place'.path ending') :
    place = place' ∧ ending = ending' := by
  have hnames := congrArg names heq
  rw [h.names_path hending, h'.names_path hending'] at hnames
  obtain ⟨hdir, hname⟩ := List.append_inj' hnames rfl
  have hname : place.stem ++ ending = place'.stem ++ ending' := List.cons.inj hname |>.1
  have hsame : ending = ending' := by
    rw [h.ending_eq hending, h'.ending_eq hending', hname]
  subst hsame
  refine ⟨?_, rfl⟩
  cases place
  cases place'
  cases hdir
  cases append_right_cancel hname
  rfl

/-! ### Independent paths -/

/-- Paths that a bundle can be installed under without one file being in the way of another. -/
structure Independent (paths : List String) : Prop where
  valid : ∀ path ∈ paths, validateRelativePath path = .ok ()
  nodup : paths.Nodup
  noPrefix : paths.Pairwise fun path path' =>
    ¬ names path <+: names path' ∧ ¬ names path' <+: names path
  outside : ∀ path ∈ paths, ¬ transactionRoot <+: names path

/-- A file whose name has a dot, while its directories have none, is no directory of another. -/
lemma Place.Sound.not_prefix (h : place.Sound) (h' : place'.Sound) (hending : ending ∈ endings)
    (hending' : ending' ∈ endings) (hdot : '.' ∈ (place.stem ++ ending).toList)
    (hne : place.path ending ≠ place'.path ending') :
    ¬ names (place.path ending) <+: names (place'.path ending') := by
  rw [h.names_path hending, h'.names_path hending']
  intro hprefix
  rcases List.prefix_concat_iff.mp hprefix with heq | hdir
  · exact hne (by rw [Place.path, Place.path, heq])
  · have hmem : place.stem ++ ending ∈ place'.dir :=
      hdir.subset (List.mem_append_right _ List.mem_cons_self)
    exact (h'.dir _ hmem).2.2 hdot

lemma Place.Sound.not_inside (h : place.Sound) (hending : ending ∈ endings) :
    ¬ transactionRoot <+: names (place.path ending) := by
  rw [h.names_path hending]
  intro hprefix
  obtain ⟨name, rest, hdir⟩ := List.exists_cons_of_ne_nil h.dir_ne
  rw [hdir, List.cons_append, transactionRoot, List.cons_prefix_cons] at hprefix
  have hname : ".thistle-bundle-transaction" = name := And.left hprefix
  exact (h.dir name (hdir ▸ List.mem_cons_self)).2.2 (hname ▸ by decide)

lemma independent_of_targets {files : List (Place × String)} (hnodup : files.Nodup)
    (h : ∀ file ∈ files, file.1.Sound ∧ file.2 ∈ endings ∧ '.' ∈ (file.1.stem ++ file.2).toList) :
    Independent (files.map fun file => file.1.path file.2) := by
  have hinj : ∀ file ∈ files, ∀ file' ∈ files,
      file.1.path file.2 = file'.1.path file'.2 → file = file' := fun file hfile file' hfile' heq => by
    obtain ⟨hsound, hending, -⟩ := h file hfile
    obtain ⟨hsound', hending', -⟩ := h file' hfile'
    obtain ⟨hplace, hsame⟩ := hsound.path_inj hsound' hending hending' heq
    exact Prod.ext hplace hsame
  have hpaths : (files.map fun file => file.1.path file.2).Nodup := hnodup.map_on hinj
  refine ⟨?_, hpaths, ?_, ?_⟩
  · rw [List.forall_mem_map]
    intro file hfile
    exact (h file hfile).1.valid (h file hfile).2.1
  · refine hpaths.pairwise_of_forall_ne ?_
    simp only [List.forall_mem_map]
    intro file hfile file' hfile' hne
    obtain ⟨hsound, hending, hdot⟩ := h file hfile
    obtain ⟨hsound', hending', hdot'⟩ := h file' hfile'
    exact ⟨hsound.not_prefix hsound' hending hending' hdot hne,
      hsound'.not_prefix hsound hending' hending hdot' hne.symm⟩
  · rw [List.forall_mem_map]
    intro file hfile
    exact (h file hfile).1.not_inside (h file hfile).2.1

/-! ### Artifacts of one bundle -/

variable {m : ArtifactManifest} {boardName chip : String}

lemma nodup_targets (m : ArtifactManifest) : (targets m).Nodup := by
  cases htype : m.artifactType with
  | firmware => simp [targets, htype]
  | board => simp [targets, htype]
  | driver => simp [targets, htype, endings]
  | windowManager => simp [targets, htype, endings]

lemma Place.path_eq_append (place : Place) (ending : String) :
    place.path ending = place.path "" ++ ending := by
  rw [← String.toList_inj, String.toList_append, Place.path, Place.path, toList_joined, toList_joined,
    List.map_append, List.map_append, List.map_singleton, List.map_singleton, String.append_empty,
    String.toList_append]
  induction place.dir with
  | nil => simp
  | cons name dir ih =>
    cases dir with
    | nil => simp [List.intercalate_cons_cons]
    | cons name' dir =>
      simp only [List.map_cons, List.cons_append, List.intercalate_cons_cons, List.append_assoc] at ih ⊢
      rw [ih]

/-- The payload of an artifact is installed under its destination. -/
lemma path_destination (id : String) :
    Place.path ⟨["config", "boards"], id ++ ".json"⟩ "" = expectedDestination .board id ∧
    Place.path ⟨["drivers"], id ++ ".drv.elf"⟩ "" = expectedDestination .driver id ∧
    Place.path ⟨["wm"], id ++ ".wm.elf"⟩ "" = expectedDestination .windowManager id := by
  refine ⟨?_, ?_, ?_⟩
  all_goals
    rw [← String.toList_inj, Place.path, toList_joined]
    simp [expectedDestination, toString, List.intercalate_cons_cons]

/-- The files of an artifact that is not a firmware, by its destination. -/
lemma relativePaths_eq (htype : m.artifactType ≠ .firmware)
    (hdestination : m.destination = expectedDestination m.artifactType m.id) :
    relativePaths m =
      (if m.artifactType = .board then ["config/board.json"] else []) ++
      [m.destination, m.destination ++ ".manifest", m.destination ++ ".manifest.sig"] ++
      (if m.artifactType = .board then ["config/board.json.manifest"] else []) ++
      (if m.artifactType = .board then ["config/board.json.manifest.sig"] else []) := by
  obtain ⟨hboard, hdriver, hwm⟩ := path_destination m.id
  rw [relativePaths, targets, hdestination]
  cases hcase : m.artifactType with
  | firmware => exact absurd hcase htype
  | board =>
    simp only [List.map_cons, List.map_nil]
    rw [← hboard, ← Place.path_eq_append, ← Place.path_eq_append]
    rfl
  | driver =>
    simp only [endings, List.map_cons, List.map_nil]
    rw [← hdriver, ← Place.path_eq_append, ← Place.path_eq_append]
    rfl
  | windowManager =>
    simp only [endings, List.map_cons, List.map_nil]
    rw [← hwm, ← Place.path_eq_append, ← Place.path_eq_append]
    rfl

/-- The destination of the artifact that a place belongs to. -/
def owner (boardName : String) (place : Place) : String :=
  if place = ⟨["config"], "firmware"⟩ then expectedDestination .firmware ""
  else if place.dir = ["config"] then expectedDestination .board boardName
  else place.path ""

lemma owner_eq (hshape : m.destination = expectedDestination m.artifactType m.id)
    (hid : m.artifactType = .board → m.id = boardName) {target : Place × String}
    (h : target ∈ targets m) : owner boardName target.1 = m.destination := by
  rw [hshape]
  cases htype : m.artifactType with
  | firmware =>
    simp only [targets, htype, List.mem_cons, List.not_mem_nil, or_false] at h
    rcases h with rfl | rfl
    · rfl
    · rfl
  | board =>
    have hactive : owner boardName ⟨["config"], "board.json"⟩ = expectedDestination .board m.id := by
      rw [hid htype]
      rfl
    have hboard : owner boardName ⟨["config", "boards"], m.id ++ ".json"⟩ =
        expectedDestination .board m.id := by
      rw [owner, if_neg (by simp), if_neg (by simp), (path_destination m.id).1]
    simp only [targets, htype, List.mem_cons, List.not_mem_nil, or_false] at h
    rcases h with rfl | rfl | rfl | rfl | rfl | rfl
    · exact hactive
    · exact hboard
    · exact hboard
    · exact hboard
    · exact hactive
    · exact hactive
  | driver =>
    simp only [targets, htype, List.mem_map] at h
    obtain ⟨ending, -, rfl⟩ := h
    rw [owner, if_neg (by simp), if_neg (by simp), (path_destination m.id).2.1]
  | windowManager =>
    simp only [targets, htype, List.mem_map] at h
    obtain ⟨ending, -, rfl⟩ := h
    rw [owner, if_neg (by simp), if_neg (by simp), (path_destination m.id).2.2]

/-- What the loop over the selected artifacts checks. -/
structure LoopChecks (artifacts : List VerifiedManifest) : Prop where
  destinations : (artifacts.map (·.manifest.destination)).Nodup
  ids : ∀ artifact ∈ artifacts, validateCatalogId artifact.manifest.id = .ok ()

/-- The files of artifacts of one device with different destinations are not in each other's way. -/
lemma independent_of_checks {selected : List VerifiedManifest} (h : LoopChecks selected)
    (hshape : ∀ artifact ∈ selected, artifact.manifest.validateShape = .ok ())
    (hfor : ∀ artifact ∈ selected, isFor chip boardName artifact.manifest = true) :
    Independent (selected.flatMap fun artifact => relativePaths artifact.manifest) := by
  have howner : ∀ artifact ∈ selected, ∀ target ∈ targets artifact.manifest,
      owner boardName target.1 = artifact.manifest.destination := fun artifact hmem target htarget => by
    refine owner_eq (ArtifactManifest.shape_of_validateShape (hshape artifact hmem)).destination
      (fun hboard => ?_) htarget
    have hid := hfor artifact hmem
    simp only [isFor, hboard, Bool.and_eq_true, Bool.or_eq_true, decide_eq_true_eq, ne_eq,
      not_true_eq_false, false_or] at hid
    exact hid.2
  have hnodup : (selected.flatMap fun artifact => targets artifact.manifest).Nodup := by
    refine List.nodup_flatMap.mpr ⟨fun artifact _ => nodup_targets artifact.manifest, ?_⟩
    refine (List.pairwise_map.mp h.destinations).imp_of_mem fun {a b} ha hb hne => ?_
    intro target hta htb
    exact hne ((howner a ha target hta).symm.trans (howner b hb target htb))
  have hpaths : (selected.flatMap fun artifact => relativePaths artifact.manifest) =
      (selected.flatMap fun artifact => targets artifact.manifest).map
        fun target => target.1.path target.2 := by
    rw [List.map_flatMap]
    rfl
  rw [hpaths]
  refine independent_of_targets hnodup fun target htarget => ?_
  obtain ⟨artifact, hmem, htarget⟩ := List.mem_flatMap.mp htarget
  exact sound_of_targets (h.ids artifact hmem) htarget

end ThistleOS.BoardBundle
