import ThistleOS.Kernel.AppFiles.Streams
import ThistleOS.Kernel.AppLinks
import ThistleOS.Kernel.ElfLoader.Grants

/-!
# What the links of an app reach

A name is resolved only if the list of its class of apps has it and the current app may use it, and a
storage function only as that of the current slot. As long as nobody else takes the place of a loaded app
in its slot, the storage functions of an app stay below its directory.
-/

open PowerLoss FileTree
open ThistleOS.BundleTransaction (names components)

namespace ThistleOS.AppLinks

open AppStorage ElfLoader Permissions

/-! ### Resolving a symbol -/

section Resolve

variable {α : Type} {f : α → Ordering} {l : List α} {i : ℕ} {name : CStr} {allowed : List String}
  {context : AppResolverContext} {perms : PermTable} {address : Address}

lemma binarySearchBy_eq_some (h : binarySearchBy f l = some i) : ∃ a, l[i]? = some a ∧ f a = .eq := by
  simp only [binarySearchBy] at h
  split_ifs at h with hbase
  obtain rfl := Option.some.inj h
  exact Option.map_eq_some_iff.mp hbase

lemma findEntry_eq_some {entry : SyscallEntry} (h : findEntry name = some entry) :
    entry ∈ syscallTable ∧ name.toStr = some entry.name := by
  unfold findEntry at h
  split at h
  · cases h
  · rename_i nameStr hname
    split at h
    · rename_i idx hidx
      obtain ⟨probe, hprobe, hcompare⟩ := binarySearchBy_eq_some hidx
      obtain rfl := Option.some.inj (hprobe.symm.trans h)
      exact ⟨List.mem_of_getElem? hprobe, by rw [hname, Std.LawfulEqOrd.eq_of_compare hcompare]⟩
    · cases h

/-- What is known of a symbol that has been resolved. -/
lemma resolveAppSymbol_eq_some (h : resolveAppSymbol name allowed context perms = some address) :
    ∃ entry ∈ syscallTable, name.toStr = some entry.name ∧ entry.name ∈ allowed ∧
      permitted context entry.permission perms = true ∧
      ((entry.name ∈ appFsNames ∧ ∃ slot, context.slot = some slot ∧ address = .bound entry.name slot) ∨
        entry.name ∉ appFsNames ∧ address = .implementation entry.name) := by
  unfold resolveAppSymbol at h
  split at h
  · cases h
  rename_i nameStr hname
  by_cases hallowed : (binarySearchBy (fun probe => compare probe nameStr) allowed).isNone = true
  · rw [if_pos hallowed] at h
    cases h
  rw [if_neg hallowed] at h
  cases hentry : findEntry name with
  | none =>
    rw [hentry] at h
    cases h
  | some entry =>
    obtain ⟨hmem, hstr⟩ := findEntry_eq_some hentry
    obtain rfl : nameStr = entry.name := Option.some.inj (hname.symm.trans hstr)
    have hlisted : entry.name ∈ allowed := by
      cases hsearch : binarySearchBy (fun probe => compare probe entry.name) allowed with
      | none => simp [hsearch] at hallowed
      | some idx =>
        obtain ⟨probe, hprobe, hcompare⟩ := binarySearchBy_eq_some hsearch
        obtain rfl := Std.LawfulEqOrd.eq_of_compare hcompare
        exact List.mem_of_getElem? hprobe
    rw [hentry] at h
    simp only at h
    split_ifs at h with hpermitted hfs
    · refine ⟨entry, hmem, hstr, hlisted, by simpa using hpermitted, .inl ⟨by simpa using hfs, ?_⟩⟩
      cases hslot : context.slot with
      | none =>
        rw [hslot] at h
        cases h
      | some slot =>
        rw [hslot] at h
        simp only [boundAppFsSymbol, if_pos hfs] at h
        exact ⟨slot, rfl, (Option.some.inj h).symm⟩
    · exact ⟨entry, hmem, hstr, hlisted, by simpa using hpermitted,
        .inr ⟨by simpa using hfs, (Option.some.inj h).symm⟩⟩

lemma toStr_of_validAppId {id : CStr} (h : validAppId id = true) :
    ∃ appId, id.toStr = some appId ∧ id.bytes.length ≤ appIdMax := by
  unfold validAppId at h
  split at h
  · rename_i appId happId
    refine ⟨appId, happId, ?_⟩
    rw [← CStr.utf8_of_toStr happId]
    exact of_decide_eq_true (Bool.and_eq_true_iff.mp h).1
  · cases h

/-- The current app holds the permission. -/
def Holds (context : AppResolverContext) (permission : UInt32) (perms : PermTable) : Prop :=
  ∃ id appId, context.id = some id ∧ id.1.toStr = some appId ∧
    Permissions.check appId permission perms = true

lemma holds_of_permitted {permission : UInt32} (h : permitted context permission perms = true)
    (hne : permission ≠ 0) : Holds context permission perms := by
  rw [permitted, if_pos hne] at h
  split at h
  · cases h
  · rename_i id hid
    obtain ⟨appId, happId, -⟩ := toStr_of_validAppId id.2
    rw [happId] at h
    exact ⟨id, appId, hid, happId, h⟩

/-- No name has two entries. -/
lemma nodup_names : (syscallTable.map SyscallEntry.name).Nodup := by decide +kernel

end Resolve

/-! ### The directory of an app -/

/-- The directory of an app, as the names that lead to it from the root. -/
def appDirectory (appId : String) : Path := names AppFiles.appStorageBase ++ [appId]

section Paths

variable {appId requested resolved : String} {path : Path}

lemma names_of_normal {comps : List BundleTransaction.Component} (h : ∀ c ∈ comps, c.isNormal = true) :
    ∃ rest : Path, comps = rest.map .normal := by
  induction comps with
  | nil => exact ⟨[], rfl⟩
  | cons c comps ih =>
    obtain ⟨rest, rfl⟩ := ih fun c hc => h c (List.mem_cons_of_mem _ hc)
    cases c with
    | normal name => exact ⟨name :: rest, rfl⟩
    | rootDir => cases h _ List.mem_cons_self
    | curDir => cases h _ List.mem_cons_self
    | parentDir => cases h _ List.mem_cons_self

lemma names_resolved (h : resolveAppStoragePath appId requested AppFiles.appStorageBase = some resolved) :
    ∃ rest, rest ≠ [] ∧ names resolved = appDirectory appId ++ rest := by
  obtain ⟨below, hresolved, hne, hnormal⟩ := belowApp_of_resolved h
  obtain ⟨rest, rfl⟩ := names_of_normal hnormal
  refine ⟨rest, by simpa using hne, ?_⟩
  rw [names, hresolved, List.filterMap_append, List.filterMap_cons, List.filterMap_map, appDirectory,
    List.append_assoc]
  exact congrArg (fun tail => names AppFiles.appStorageBase ++ appId :: tail) List.filterMap_some

lemma resolved_below (h : resolveAppStoragePath appId requested AppFiles.appStorageBase = some resolved) :
    appDirectory appId <+: names resolved ∧ appDirectory appId <+: (names resolved).dropLast := by
  obtain ⟨rest, hne, hresolved⟩ := names_resolved h
  rw [hresolved, List.dropLast_append_of_ne_nil hne]
  exact ⟨List.prefix_append _ _, List.prefix_append _ _⟩

/-- The backup stands beside the destination. -/
lemma withExtension_below (h : appDirectory appId <+: path.dropLast) (extension : String) :
    appDirectory appId <+: withExtension path extension := h.trans (List.prefix_append _ _)

end Paths

/-! ### Calls on files -/

/-- A call on files below the directory of an app. -/
def OnCard (appId : String) : Op → Prop
  | .stream _ => False
  | .file (.exists? path) | .file (.read path) | .readDir path | .symlinkMetadata path =>
    appDirectory appId <+: path
  | .file (.update u) => ∀ path ∈ updatePaths u, appDirectory appId <+: path

/-- What a program leaves that works below the directory of an app and on no streams. -/
structure Kept (appId : String) (s : Store) (c : Store × List Path) : Prop where
  files : c.1.files = s.files
  ids : c.1.ids = s.ids
  opened : c.1.opened = s.opened
  paths : ∀ path ∈ c.2, appDirectory appId <+: path

section Files

variable {α : Type} {appId : String} {answers : Answers} {slot : ℕ} {s : Store} {c : Store × List Path}

lemma kept_refl (appId : String) (s : Store) : Kept appId s (s, []) where
  files := rfl
  ids := rfl
  opened := rfl
  paths _ hpath := by cases hpath

lemma Kept.exec (h : Kept appId s c) {o : Op} (ho : OnCard appId o)
    (f : Option (watched answers slot).Fault) : Kept appId s ((watched answers slot).exec o f c).2 := by
  cases f with
  | some f => exact f.elim
  | none =>
    obtain ⟨s', log⟩ := c
    have hpaths : ∀ path ∈ actsOn o s', appDirectory appId <+: path := by
      cases o with
      | stream o => exact ho.elim
      | readDir path => exact List.forall_mem_singleton.mpr ho
      | symlinkMetadata path => exact List.forall_mem_singleton.mpr ho
      | file o =>
        cases o with
        | exists? path => exact List.forall_mem_singleton.mpr ho
        | read path => exact List.forall_mem_singleton.mpr ho
        | update u => exact ho
    have hlog : ∀ path ∈ log ++ actsOn o s', appDirectory appId <+: path := by
      intro path hpath
      rcases List.mem_append.mp hpath with hpath | hpath
      · exact h.paths path hpath
      · exact hpaths path hpath
    cases o with
    | stream o => exact ho.elim
    | readDir path => exact ⟨h.files, h.ids, h.opened, hlog⟩
    | symlinkMetadata path => exact ⟨h.files, h.ids, h.opened, hlog⟩
    | file o => exact ⟨h.files, h.ids, h.opened, hlog⟩

lemma kept_perform {p : Prog calls α} (hp : p.Only (OnCard appId)) (h : Kept appId s c) :
    Kept appId s (p.perform (watched answers slot) c).2 :=
  Prog.wp_perform (Prog.Only.wp hp (fun _ ho f _ hc => hc.exec ho f) h)

/-! #### Replacing a file -/

/-- An operation on files below the directory of an app. -/
def OnTree (appId : String) : ((fsSig String UInt8).sum Sig.none).Op → Prop
  | .inl o => OnCard appId (.file o)
  | .inr o => isEmptyElim o

lemma only_ofFiles {x : StorageAct α} (hx : Act.Only (OnTree appId) x) :
    (ofFiles x).Only (OnCard appId) := by
  refine Prog.only_handle (fun o ho => ?_) hx
  cases o with
  | inl o => exact ⟨ho, fun _ => trivial⟩
  | inr o => exact isEmptyElim o

lemma only_update {u : FsUpdate String UInt8} (h : ∀ path ∈ updatePaths u, appDirectory appId <+: path) :
    Act.Only (OnTree appId) (update u : StorageAct Unit) := ⟨h, fun _ => trivial⟩

lemma only_fileExists {path : Path} (h : appDirectory appId <+: path) :
    Act.Only (OnTree appId) (fileExists path : StorageAct Bool) := ⟨h, fun _ => trivial⟩

lemma only_isErr {x : StorageAct α} (hx : Act.Only (OnTree appId) x) : Act.Only (OnTree appId) (isErr x) := by
  refine Act.only_bind (Act.only_attempt hx) fun r => ?_
  cases r with
  | ok a => exact Act.only_pure _
  | error e => exact Act.only_pure _

lemma only_isErr_read {path : Path} (h : appDirectory appId <+: path) :
    Act.Only (OnTree appId) (isErr (read path : StorageAct (List UInt8))) :=
  only_isErr ⟨h, fun _ => trivial⟩

variable {source destination backup : Path}

lemma only_rename (hsource : appDirectory appId <+: source) (hdestination : appDirectory appId <+: destination) :
    Act.Only (OnTree appId) (update (.rename source destination) : StorageAct Unit) := by
  apply only_update
  simpa [updatePaths] using ⟨hsource, hdestination⟩

lemma only_putInPlace (hsource : appDirectory appId <+: source)
    (hdestination : appDirectory appId <+: destination) (hbackup : appDirectory appId <+: backup)
    (had : Bool) : Act.Only (OnTree appId) (putInPlace source destination backup had) := by
  refine Act.only_bind (only_isErr (only_rename hsource hdestination)) fun failed => ?_
  cases failed <;> cases had
  · exact Act.only_pure _
  · exact Act.only_bind (Act.only_attempt (only_update (by simpa [updatePaths] using hbackup)))
      fun _ => Act.only_pure _
  · exact Act.only_pure _
  · exact Act.only_bind (Act.only_attempt (only_rename hbackup hdestination)) fun _ => Act.only_pure _

lemma only_moveAside (hsource : appDirectory appId <+: source)
    (hdestination : appDirectory appId <+: destination) (hbackup : appDirectory appId <+: backup) :
    Act.Only (OnTree appId) (moveAside source destination backup) := by
  refine Act.only_bind (only_fileExists hdestination) fun found => ?_
  cases found with
  | false => exact only_putInPlace hsource hdestination hbackup false
  | true =>
    refine Act.only_bind (only_isErr (only_rename hdestination hbackup)) fun failed => ?_
    cases failed with
    | false => exact only_putInPlace hsource hdestination hbackup true
    | true => exact Act.only_pure _

lemma only_clearBackup (hsource : appDirectory appId <+: source)
    (hdestination : appDirectory appId <+: destination) (hbackup : appDirectory appId <+: backup) :
    Act.Only (OnTree appId) (clearBackup source destination backup) := by
  refine Act.only_bind (only_fileExists hbackup) fun found => ?_
  cases found with
  | false => exact only_moveAside hsource hdestination hbackup
  | true =>
    refine Act.only_bind (only_isErr (only_update (by simpa [updatePaths] using hbackup))) fun failed => ?_
    cases failed with
    | false => exact only_moveAside hsource hdestination hbackup
    | true => exact Act.only_pure _

/-- A replacement acts on its two paths, the directory of the destination and the backup beside it. -/
lemma only_replaceStoragePath (hsource : appDirectory appId <+: source)
    (hdestination : appDirectory appId <+: destination)
    (hparent : appDirectory appId <+: destination.dropLast) :
    Act.Only (OnTree appId) (replaceStoragePath source destination) := by
  have hclear := only_clearBackup hsource hdestination (withExtension_below hparent "thistle-backup")
  rw [replaceStoragePath]
  split
  · exact Act.only_pure _
  refine Act.only_bind (Act.only_bind (only_isErr_read hsource) fun _ => Act.only_pure _) fun isFile => ?_
  cases isFile with
  | false => exact Act.only_pure _
  | true =>
    refine Act.only_bind (only_isErr_read hsource) fun isSymlink => ?_
    cases isSymlink with
    | true => exact Act.only_pure _
    | false =>
      by_cases hroot : (destination == []) = true
      · rw [if_neg Bool.false_ne_true, if_pos hroot]
        exact Act.only_pure _
      · rw [if_neg Bool.false_ne_true, if_neg hroot]
        refine Act.only_bind (only_isErr (only_update (by simpa [updatePaths] using hparent))) fun failed => ?_
        cases failed with
        | false => exact hclear
        | true => exact Act.only_pure _

/-! #### Listing a directory, removing a file -/

lemma only_discover {path : Path} (hbelow : appDirectory appId <+: path) (items : List (Option FileName)) :
    (discover path items).Only (OnCard appId) := by
  induction items with
  | nil => trivial
  | cons item items ih =>
    cases item with
    | none => exact ih
    | some name =>
      rw [discover]
      split
      · refine ⟨hbelow.trans (List.prefix_append _ _), fun metadata => ?_⟩
        cases metadata with
        | none => exact ih
        | some metadata =>
          simp only
          split
          · exact ih
          · split
            · exact ih
            · exact Prog.only_bind ih fun _ => trivial
      · exact ih

lemma only_listStoragePath {path : Path} (hbelow : appDirectory appId <+: path) (maxEntries : ℕ) :
    (listStoragePath path maxEntries).Only (OnCard appId) := by
  refine ⟨hbelow, fun items => ?_⟩
  cases items with
  | none => trivial
  | some items => exact Prog.only_bind (only_discover hbelow items) fun _ => trivial

lemma only_removeStoragePath {path : Path} (hbelow : appDirectory appId <+: path) :
    (removeStoragePath path).Only (OnCard appId) := by
  refine ⟨hbelow, fun metadata => ?_⟩
  cases metadata with
  | none => trivial
  | some metadata =>
    simp only
    split
    · refine ⟨List.forall_mem_singleton.mpr hbelow, fun removed => ?_⟩
      cases removed <;> trivial
    · trivial

end Files

/-! ### Streams -/

/-- Every stream in the table is open, and stays below the directory of the app of its slot. -/
structure Owns (appOf : ℕ → Option String) (s : Store) : Prop where
  nodup : ∀ k, (AppFiles.owned k s.files).Nodup
  opened : ∀ k, ∀ stream ∈ AppFiles.owned k s.files, ∃ appId path,
    appOf k = some appId ∧ appDirectory appId <+: path ∧ s.opened stream = some ⟨k, path⟩

/-- What a call of the app of a slot leaves. -/
structure Served (appOf : ℕ → Option String) (appId : String) (s : Store) (c : Store × List Path) : Prop where
  owns : Owns appOf c.1
  ids : c.1.ids = s.ids
  paths : ∀ path ∈ c.2, appDirectory appId <+: path

section Streams

variable {α : Type} {appOf appOf' : ℕ → Option String} {appId : String} {answers : Answers} {slot stream : ℕ}
  {s s' : Store} {c : Store × List Path} {path : Path}

lemma Owns.of_eq (h : Owns appOf s) (hfiles : s'.files = s.files) (hopened : s'.opened = s.opened) :
    Owns appOf s' where
  nodup := by simpa only [hfiles] using h.nodup
  opened := by simpa only [hfiles, hopened] using h.opened

lemma Owns.mono (h : Owns appOf s) (happ : ∀ k appId, appOf k = some appId → appOf' k = some appId) :
    Owns appOf' s where
  nodup := h.nodup
  opened k stream hmem := by
    obtain ⟨appId, path, hk, hbelow, hopened⟩ := h.opened k stream hmem
    exact ⟨appId, path, happ k appId hk, hbelow, hopened⟩

/-- A stream that is not open is in nobody's part of the table. -/
lemma Owns.notMem (h : Owns appOf s) (hfree : s.opened stream = none) (k : ℕ) :
    stream ∉ AppFiles.owned k s.files := by
  intro hmem
  obtain ⟨-, path, -, -, hopened⟩ := h.opened k stream hmem
  rw [hfree] at hopened
  cases hopened

lemma Owns.register (h : Owns appOf s) (hfree : s.opened stream = none) (happ : appOf slot = some appId)
    (hbelow : appDirectory appId <+: path) (hfiles : AppFiles.Added slot stream s.files s'.files)
    (hopened : s'.opened = Function.update s.opened stream (some ⟨slot, path⟩)) : Owns appOf s' where
  nodup k := by
    by_cases hk : k = slot
    · subst hk
      rw [hfiles.own.nodup_iff, List.nodup_cons]
      exact ⟨h.notMem hfree k, h.nodup k⟩
    · rw [hfiles.others k hk]
      exact h.nodup k
  opened k stream' hmem := by
    by_cases hstream : stream' = stream
    · subst hstream
      have hk : k = slot := by
        by_contra hne
        rw [hfiles.others k hne] at hmem
        exact h.notMem hfree k hmem
      subst hk
      exact ⟨appId, path, happ, hbelow, by rw [hopened, Function.update_self]⟩
    · have hold : stream' ∈ AppFiles.owned k s.files := by
        by_cases hk : k = slot
        · subst hk
          exact (List.mem_cons.mp (hfiles.own.mem_iff.mp hmem)).resolve_left hstream
        · rwa [hfiles.others k hk] at hmem
      rw [hopened, Function.update_of_ne hstream]
      exact h.opened k stream' hold

/-- Streams that are in nobody's part of the table can be closed. -/
lemma Owns.closed (h : Owns appOf s) (hfiles : s'.files = s.files)
    (hopened : ∀ stream, (∃ k, stream ∈ AppFiles.owned k s.files) → s'.opened stream = s.opened stream) :
    Owns appOf s' where
  nodup := by simpa only [hfiles] using h.nodup
  opened k stream hmem := by
    rw [hfiles] at hmem
    obtain ⟨appId, path, hk, hbelow, heq⟩ := h.opened k stream hmem
    exact ⟨appId, path, hk, hbelow, by rw [hopened stream ⟨k, hmem⟩, heq]⟩

/-- A stream that is taken out of the table is in nobody's part of it. -/
lemma Owns.take (h : Owns appOf s) (hfiles : AppFiles.Added slot stream s'.files s.files)
    (hopened : s'.opened = s.opened) : Owns appOf s' ∧ ∀ k, stream ∉ AppFiles.owned k s'.files := by
  have hnodup := h.nodup slot
  rw [hfiles.own.nodup_iff, List.nodup_cons] at hnodup
  have hmem : ∀ k stream', stream' ∈ AppFiles.owned k s'.files → stream' ∈ AppFiles.owned k s.files := by
    intro k stream' hmem
    by_cases hk : k = slot
    · subst hk
      exact hfiles.own.mem_iff.mpr (List.mem_cons_of_mem _ hmem)
    · rwa [hfiles.others k hk]
  refine ⟨⟨fun k => ?_, fun k stream' hstream => ?_⟩, fun k hstream => ?_⟩
  · by_cases hk : k = slot
    · subst hk
      exact hnodup.2
    · rw [← hfiles.others k hk]
      exact h.nodup k
  · rw [hopened]
    exact h.opened k stream' (hmem k stream' hstream)
  · obtain ⟨_, _, _, _, hopen⟩ := h.opened k stream (hmem k stream hstream)
    obtain ⟨_, _, _, _, hopen'⟩ := h.opened slot stream (hfiles.own.mem_iff.mpr List.mem_cons_self)
    obtain rfl : k = slot := congrArg OpenFile.slot (Option.some.inj (hopen.symm.trans hopen'))
    exact hnodup.1 hstream

/-! #### The programs of the calls -/

@[simp] lemma ofStreams_pure (a : α) : ofStreams (.pure a) = .pure a := rfl

@[simp] lemma ofStreams_call (o : AppFiles.steps.Op) (k : AppFiles.steps.Reply o → Prog AppFiles.steps α) :
    ofStreams (.call o k) = .call (S := calls) (.stream o) fun r => ofStreams (k r) := rfl

@[simp] lemma ofStreams_bind {β : Type} (p : Prog AppFiles.steps α) (f : α → Prog AppFiles.steps β) :
    ofStreams (p >>= f) = ofStreams p >>= fun a => ofStreams (f a) := Prog.handle_bind _ p f

lemma served_refl (h : Owns appOf s) : Served appOf appId s (s, []) where
  owns := h
  ids := rfl
  paths _ hpath := by cases hpath

lemma Kept.served (h : Kept appId s c) (hown : Owns appOf s) : Served appOf appId s c :=
  ⟨hown.of_eq h.files h.opened, h.ids, h.paths⟩

/-- What an attempt to open a path leaves: no stream, or one that was not open. -/
def Tried (appId : String) (slot : ℕ) (path : Path) (s : Store) (c : ℕ × Store × List Path) : Prop :=
  (∀ path ∈ c.2.2, appDirectory appId <+: path) ∧ c.2.1.files = s.files ∧ c.2.1.ids = s.ids ∧
    ((c.1 = 0 ∧ c.2.1.opened = s.opened) ∨ c.1 ≠ 0 ∧ s.opened c.1 = none ∧
      c.2.1.opened = Function.update s.opened c.1 (some ⟨slot, path⟩))

lemma below_append {log paths : List Path} (hlog : ∀ path ∈ log, appDirectory appId <+: path)
    (hpaths : ∀ path ∈ paths, appDirectory appId <+: path) :
    ∀ path ∈ log ++ paths, appDirectory appId <+: path := by
  intro path hpath
  rcases List.mem_append.mp hpath with hpath | hpath
  · exact hlog path hpath
  · exact hpaths path hpath

lemma tried_fopen (hbelow : appDirectory appId <+: path) {log : List Path}
    (hlog : ∀ path ∈ log, appDirectory appId <+: path) :
    Tried appId slot path s
      ((s.fopen stream slot path).1, ((s.fopen stream slot path).2, log ++ [path])) := by
  have hpaths := below_append hlog (List.forall_mem_singleton.mpr hbelow)
  rw [Store.fopen]
  split_ifs with hopen
  · exact ⟨hpaths, rfl, rfl, .inl ⟨rfl, rfl⟩⟩
  · rw [not_or, Option.not_isSome_iff_eq_none] at hopen
    exact ⟨hpaths, rfl, rfl, .inr ⟨hopen.1, hopen.2, rfl⟩⟩

lemma tried_openSink {resolved : String} (hbelow : appDirectory appId <+: names resolved)
    (hparent : appDirectory appId <+: (names resolved).dropLast) (mode : String) (s : Store) :
    Tried appId slot (names resolved) s
      ((ofStreams (AppFiles.openSink resolved mode)).perform (watched answers slot) (s, [])) := by
  rw [AppFiles.openSink]
  split
  · have hlog := List.forall_mem_singleton.mpr hparent
    have hstep : ∀ created : Bool, Tried appId slot (names resolved) s
        ((ofStreams (if created then .call (S := AppFiles.steps) (.fopen resolved mode) .pure
          else .pure (0 : ℕ))).perform (watched answers slot) (s.answer, [(names resolved).dropLast])) := by
      rintro (_ | _)
      · exact ⟨hlog, rfl, rfl, .inl ⟨rfl, rfl⟩⟩
      · exact tried_fopen (s := s.answer) hbelow hlog
    exact hstep _
  · exact tried_fopen hbelow fun _ hpath => by cases hpath

/-- A stream that has just been opened is registered, or closed again. -/
lemma served_registerOrClose {s₀ : Store} (hown : Owns appOf s₀) (happ : appOf slot = some appId)
    (hbelow : appDirectory appId <+: path) {c : ℕ × Store × List Path}
    (h : Tried appId slot path s₀ c) :
    Served appOf appId s₀
      ((ofStreams (AppFiles.registerOrClose slot c.1)).perform (watched answers slot) c.2).2 := by
  obtain ⟨stream, s, log⟩ := c
  simp only [Tried] at h
  obtain ⟨hpaths, hfiles, hids, ⟨hzero, hopened⟩ | ⟨hne, hfree, hopened⟩⟩ := h
  · rw [AppFiles.registerOrClose, if_pos hzero]
    exact ⟨hown.of_eq hfiles hopened, hids, hpaths⟩
  have hstep : ∀ registered files, (registered = true ∧ AppFiles.Added slot stream s.files files ∨
      registered = false ∧ files = s.files) → Served appOf appId s₀
        ((ofStreams (if registered then .pure stream
          else .call (S := AppFiles.steps) (.fclose stream) fun _ => .pure (0 : ℕ))).perform
            (watched answers slot) ({ s with files }, log ++ [])).2 := by
    rw [List.append_nil]
    rintro registered files (⟨rfl, hadded⟩ | ⟨rfl, rfl⟩)
    · rw [hfiles] at hadded
      exact ⟨hown.register hfree happ hbelow hadded hopened, hids, hpaths⟩
    · refine ⟨hown.of_eq hfiles ?_, hids, below_append hpaths ?_⟩
      · funext k
        by_cases hk : k = stream
        · rw [hk, hfree]
          exact Function.update_self _ _ _
        · exact (Function.update_of_ne hk _ _).trans (by rw [hopened, Function.update_of_ne hk])
      · have hacts : actsOn (.stream (.fclose stream)) { s with files := s.files } = [path] := by
          simp [actsOn, hopened]
        rw [hacts]
        exact List.forall_mem_singleton.mpr hbelow
  have hregister := AppFiles.registerAppStream_cases slot stream s.files
  rw [Prod.ext_iff] at hregister
  rw [AppFiles.registerOrClose, if_neg hne]
  exact hstep _ _ hregister

variable (hown : Owns appOf s) (happ : appOf slot = some appId)
  (hid : AppFiles.appStorageId s.ids slot = some appId)

include hown happ hid

omit hown happ in
/-- The app of a slot is looked up first. -/
lemma served_lookup {f : Option String → Prog calls α}
    (h : Served appOf appId s ((f (some appId)).perform (watched answers slot) (s, [])).2) :
    Served appOf appId s
      ((Prog.call (S := calls) (.stream (.appStorageId slot)) f).perform (watched answers slot) (s, [])).2 := by
  rw [← hid] at h
  exact h

lemma served_open (path mode : Option CStr) :
    Served appOf appId s
      ((ofStreams (AppFiles.thistleFsOpenForSlot slot path mode)).perform (watched answers slot) (s, [])).2 := by
  have hrefl : Served appOf appId s (s, []) := served_refl hown
  rw [AppFiles.thistleFsOpenForSlot]
  split
  · rename_i requested mode' _ _
    refine served_lookup hid ?_
    change Served appOf appId s ((ofStreams (do
      let stream ← AppFiles.openSandboxedPathWith appId requested mode' AppFiles.appStorageBase
        AppFiles.openSink
      AppFiles.registerOrClose slot stream)).perform (watched answers slot) (s, [])).2
    simp only [ofStreams_bind, Prog.perform_bind]
    rw [AppFiles.openSandboxedPathWith]
    split
    · exact hrefl
    · split
      · rename_i resolved hresolved
        obtain ⟨hbelow, hparent⟩ := resolved_below hresolved
        exact served_registerOrClose hown happ hbelow (tried_openSink hbelow hparent mode' s)
      · exact hrefl
  · exact hrefl

omit hid in
/-- A stream of the slot stays below the directory of its app. -/
lemma below_of_owned (hmem : stream ∈ AppFiles.owned slot s.files) :
    ∀ path ∈ (s.opened stream).toList.map OpenFile.path, appDirectory appId <+: path := by
  obtain ⟨appId', path, happ', hbelow, hopened⟩ := hown.opened slot stream hmem
  obtain rfl := Option.some.inj (happ.symm.trans happ')
  rw [hopened]
  exact List.forall_mem_singleton.mpr hbelow

omit hid in
lemma served_read (bufAllowed : Bool) (size count stream : ℕ) :
    Served appOf appId s ((ofStreams (AppFiles.thistleFsReadForSlot slot bufAllowed size count stream)).perform
      (watched answers slot) (s, [])).2 := by
  have hstep : ∀ owns, owns = AppFiles.appOwnsStream slot stream s.files → Served appOf appId s
      ((ofStreams (if owns then .call (S := AppFiles.steps) (.fread size count stream) .pure
        else .pure (-1 : Int32))).perform (watched answers slot) (s, [])).2 := by
    rintro (_ | _) howns
    · exact served_refl hown
    · exact ⟨hown.of_eq rfl rfl, rfl, below_of_owned hown happ (AppFiles.appOwnsStream_true howns.symm)⟩
  rw [AppFiles.thistleFsReadForSlot]
  split
  · exact served_refl hown
  · exact hstep _ rfl

omit hid in
lemma served_write (bufAllowed : Bool) (size count stream : ℕ) :
    Served appOf appId s ((ofStreams (AppFiles.thistleFsWriteForSlot slot bufAllowed size count stream)).perform
      (watched answers slot) (s, [])).2 := by
  have hstep : ∀ owns, owns = AppFiles.appOwnsStream slot stream s.files → Served appOf appId s
      ((ofStreams (if owns then .call (S := AppFiles.steps) (.fwrite size count stream) .pure
        else .pure (-1 : Int32))).perform (watched answers slot) (s, [])).2 := by
    rintro (_ | _) howns
    · exact served_refl hown
    · exact ⟨hown.of_eq rfl rfl, rfl, below_of_owned hown happ (AppFiles.appOwnsStream_true howns.symm)⟩
  rw [AppFiles.thistleFsWriteForSlot]
  split
  · exact served_refl hown
  · exact hstep _ rfl

omit hid in
lemma served_close (stream : ℕ) :
    Served appOf appId s ((ofStreams (AppFiles.thistleFsCloseForSlot slot stream)).perform
      (watched answers slot) (s, [])).2 := by
  have hstep : ∀ taken files, (taken = true ∧ AppFiles.Added slot stream files s.files ∨
      (taken = false ∧ files = s.files)) → Served appOf appId s
        ((ofStreams (if taken then .call (S := AppFiles.steps) (.fclose stream) .pure
          else .pure (-1 : Int32))).perform (watched answers slot) ({ s with files }, [])).2 := by
    rintro taken files (⟨rfl, hadded⟩ | ⟨rfl, rfl⟩)
    · have htake : Owns appOf { s with files } ∧ ∀ k, stream ∉ AppFiles.owned k files := hown.take hadded rfl
      obtain ⟨htaken, hfree⟩ := htake
      refine ⟨htaken.closed rfl fun stream' hmem => ?_, rfl,
        below_of_owned (s := s) hown happ (hadded.own.mem_iff.mpr List.mem_cons_self)⟩
      obtain ⟨k, hk⟩ := hmem
      exact Function.update_of_ne (fun heq : stream' = stream => hfree k (heq ▸ hk)) _ _
    · exact served_refl hown
  have htake := AppFiles.takeOwnedStream_cases slot stream s.files
  rw [Prod.ext_iff, and_assoc] at htake
  exact hstep _ _ (htake.imp id fun h => ⟨h.1, h.2.1⟩)

omit happ in
lemma served_list (path : Option CStr) (entriesAllowed : Bool) (maxEntries : ℕ) :
    Served appOf appId s ((appFsList slot path entriesAllowed maxEntries).perform
      (watched answers slot) (s, [])).2 := by
  rw [appFsList]
  split
  · exact served_refl hown
  split
  · exact served_refl hown
  · refine served_lookup hid ?_
    dsimp only
    split
    · exact served_refl hown
    · rename_i resolved hresolved
      have hbelow := (resolved_below hresolved).1
      exact (kept_perform (only_listStoragePath hbelow maxEntries) (kept_refl appId s)).served hown

omit happ in
lemma served_replace (source destination : Option CStr) :
    Served appOf appId s ((appFsReplace slot source destination).perform (watched answers slot) (s, [])).2 := by
  rw [appFsReplace]
  split
  · refine served_lookup hid ?_
    dsimp only
    split
    · rename_i source destination hsource hdestination
      obtain ⟨hbelow, hparent⟩ := resolved_below hdestination
      have honly := only_ofFiles (only_replaceStoragePath (resolved_below hsource).1 hbelow hparent)
      rw [Prog.perform_bind]
      exact (kept_perform honly (kept_refl appId s)).served hown
    · exact served_refl hown
  · exact served_refl hown

omit happ in
lemma served_remove (path : Option CStr) :
    Served appOf appId s ((appFsRemove slot path).perform (watched answers slot) (s, [])).2 := by
  rw [appFsRemove]
  split
  · exact served_refl hown
  · refine served_lookup hid ?_
    dsimp only
    split
    · exact served_refl hown
    · rename_i resolved hresolved
      have hbelow := (resolved_below hresolved).1
      exact (kept_perform (only_removeStoragePath hbelow) (kept_refl appId s)).served hown

omit hown happ hid in
lemma StorageCall.function_mem (q : StorageCall) : q.function ∈ appFsNames := by
  cases q <;> simp [StorageCall.function, appFsNames]

/-- A storage function of the slot of an app stays below the directory of the app. -/
theorem served_body (q : StorageCall) :
    Served appOf appId s ((q.body slot).perform (watched answers slot) (s, [])).2 := by
  cases q with
  | close stream =>
    rw [StorageCall.body, Prog.perform_bind]
    exact served_close hown happ stream
  | list path entriesAllowed maxEntries =>
    rw [StorageCall.body, Prog.perform_bind]
    exact served_list hown hid path entriesAllowed maxEntries
  | «open» path mode =>
    rw [StorageCall.body, Prog.perform_bind]
    exact served_open hown happ hid path mode
  | read bufAllowed size count stream =>
    rw [StorageCall.body, Prog.perform_bind]
    exact served_read hown happ bufAllowed size count stream
  | remove path =>
    rw [StorageCall.body, Prog.perform_bind]
    exact served_remove hown hid path
  | replace source destination =>
    rw [StorageCall.body, Prog.perform_bind]
    exact served_replace hown hid source destination
  | write bufAllowed size count stream =>
    rw [StorageCall.body, Prog.perform_bind]
    exact served_write hown happ bufAllowed size count stream

end Streams

/-! #### Clearing a slot -/

section Clear

variable {appOf appOf' : ℕ → Option String} {answers : Answers} {slot : ℕ} {s : Store}

variable (answers slot) in
lemma closeAll_store (streams : List ℕ) (c : Store × List Path) :
    ((ofStreams (AppFiles.closeAll streams)).perform (watched answers slot) c).2.1.files = c.1.files ∧
      ((ofStreams (AppFiles.closeAll streams)).perform (watched answers slot) c).2.1.ids = c.1.ids ∧
      ∀ stream ∉ streams,
        ((ofStreams (AppFiles.closeAll streams)).perform (watched answers slot) c).2.1.opened stream =
          c.1.opened stream := by
  induction streams generalizing c with
  | nil => exact ⟨rfl, rfl, fun _ _ => rfl⟩
  | cons first streams ih =>
    obtain ⟨hfiles, hids, hopened⟩ := ih
      ((c.1.closeStream first).answer, c.2 ++ actsOn (.stream (.fclose first)) c.1)
    refine ⟨hfiles, hids, fun stream hstream => ?_⟩
    rw [List.mem_cons, not_or] at hstream
    exact (hopened stream hstream.2).trans (Function.update_of_ne hstream.1 _ _)

variable (answers) in
/-- What clearing a slot leaves of the others. -/
lemma owns_clear (hown : Owns appOf s) (happ : ∀ k, k ≠ slot → appOf' k = appOf k) :
    Owns appOf' ((ofStreams (AppFiles.syscallClearAppStorage slot)).perform (watched answers slot)
      (s, [])).2.1 ∧
    ((ofStreams (AppFiles.syscallClearAppStorage slot)).perform (watched answers slot) (s, [])).2.1.ids =
      s.ids.set slot (List.replicate 64 0) := by
  obtain ⟨hfiles, hids, hopened⟩ := closeAll_store answers slot
    (AppFiles.owned slot s.files) ({ s with files := (AppFiles.takeSlot slot s.files).2 }, [])
  generalize hclosed : (ofStreams (AppFiles.closeAll (AppFiles.owned slot s.files))).perform
    (watched answers slot) ({ s with files := (AppFiles.takeSlot slot s.files).2 }, []) = closed
    at hfiles hids hopened
  have hrun : ((ofStreams (AppFiles.syscallClearAppStorage slot)).perform (watched answers slot) (s, [])).2.1 =
      { closed.2.1 with ids := closed.2.1.ids.set slot (List.replicate 64 0) } := by
    change ((ofStreams (do
      AppFiles.closeAll (AppFiles.owned slot s.files)
      Prog.call (S := AppFiles.steps) (.clearId slot) .pure)).perform (watched answers slot)
        ({ s with files := (AppFiles.takeSlot slot s.files).2 }, [])).2.1 = _
    rw [ofStreams_bind, Prog.perform_bind, hclosed]
    rfl
  have hnone := AppFiles.owned_takeSlot_self slot s.files
  have hothers := fun k (hk : k ≠ slot) => AppFiles.owned_takeSlot_of_ne hk s.files
  rw [hrun]
  refine ⟨⟨fun k => ?_, fun k stream hmem => ?_⟩, by rw [hids]⟩
  · rw [hfiles]
    by_cases hk : k = slot
    · rw [hk, hnone]
      exact List.nodup_nil
    · rw [hothers k hk]
      exact hown.nodup k
  · rw [hfiles] at hmem
    have hk : k ≠ slot := by
      rintro rfl
      rw [hnone] at hmem
      cases hmem
    rw [hothers k hk] at hmem
    obtain ⟨appId, path, hkapp, hbelow, hopen⟩ := hown.opened k stream hmem
    refine ⟨appId, path, (happ k hk).trans hkapp, hbelow, ?_⟩
    -- a stream of another slot is not among those that are closed
    have hnotMem : stream ∉ AppFiles.owned slot s.files := by
      intro hmem'
      obtain ⟨_, _, _, _, hopen'⟩ := hown.opened slot stream hmem'
      exact hk (congrArg OpenFile.slot (Option.some.inj (hopen.symm.trans hopen')))
    exact (hopened stream hnotMem).trans hopen

end Clear

/-! ### The slots -/

/-- The app that is loaded in a slot. -/
def State.appOf (s : State) (k : ℕ) : Option String :=
  if h : k < maxLoadedApps then
    if (s.loader.apps ⟨k, h⟩).loaded then (s.loader.apps ⟨k, h⟩).appId.toStr else none
  else none

/-- The storage functions of a loaded app are bound to its slot, and the slot to the app. -/
structure Linked (s : State) : Prop where
  length : s.store.ids.length = AppFiles.maxAppStorageSlots
  owns : Owns s.appOf s.store
  bound : ∀ i : ElfLoader.Slot, (s.loader.apps i).loaded = true → ∀ address ∈ s.linked i,
    address.function ∈ appFsNames → address = .bound address.function i ∧
      ∃ appId, s.appOf i = some appId ∧ AppFiles.appStorageId s.store.ids i = some appId

/-- A call that binds another app to the slot of a loaded app with storage functions. -/
def Rebinds : LinkOp → State → Prop
  | .setCurrentApp (some id) slot, s =>
    ∃ i : ElfLoader.Slot, validAppId id = true ∧ boundSlot slot = some i.val ∧ (s.loader.apps i).loaded = true ∧
      (∃ address ∈ s.linked i, address.function ∈ appFsNames) ∧ id ≠ (s.loader.apps i).appId
  | _, _ => False

section Slots

variable {debug : Bool} {s s' : State} {i j : ElfLoader.Slot} {id : CStr} {slot : Int32} {ids : List (List UInt8)}

lemma appOf_of_loaded (h : (s.loader.apps i).loaded = true) :
    s.appOf i = (s.loader.apps i).appId.toStr := by
  rw [State.appOf, dif_pos i.isLt, if_pos h]

lemma appOf_of_not_loaded (h : (s.loader.apps i).loaded = false) : s.appOf i = none := by
  rw [State.appOf, dif_pos i.isLt, if_neg (by simpa using h)]

lemma appOf_congr {k : ℕ} (h : ∀ i : ElfLoader.Slot, i.val = k → s'.loader.apps i = s.loader.apps i) :
    s'.appOf k = s.appOf k := by
  rw [State.appOf, State.appOf]
  split
  · rw [h _ rfl]
  · rfl

lemma appStorageId_set_of_ne {k : ℕ} (h : k ≠ i.val) (buffer : List UInt8) :
    AppFiles.appStorageId (ids.set k buffer) i = AppFiles.appStorageId ids i := by
  rw [AppFiles.appStorageId, AppFiles.appStorageId, List.getElem?_set_ne h]

/-- What has been stored for a slot is the id. -/
lemma appStorageId_set_self (hid : validAppId id = true) {k : ℕ} (hk : k < ids.length) :
    AppFiles.appStorageId (ids.set k (idBuffer id)) k = id.toStr := by
  obtain ⟨-, -, hlength⟩ := toStr_of_validAppId hid
  rw [appIdMax] at hlength
  have hfind : (idBuffer id).findIdx? (· == 0) = some id.bytes.length := by
    have hpad : 64 - id.bytes.length = (63 - id.bytes.length) + 1 := by omega
    rw [idBuffer, List.findIdx?_append, hpad, List.replicate_succ]
    have hnone : id.bytes.findIdx? (· == 0) = none := by
      rw [List.findIdx?_eq_none_iff]
      intro b hb
      have hne : b ≠ 0 := fun heq => id.noNul (heq ▸ hb)
      simpa using hne
    rw [hnone, List.findIdx?_cons]
    simp
  have htake : (idBuffer id).take id.bytes.length = id.bytes := List.take_left' rfl
  simp only [AppFiles.appStorageId, List.getElem?_set_self hk, Option.bind_eq_bind, Option.bind_some, hfind,
    htake]
  rfl

@[simp] lemma loader_setCurrentApp (id : Option CStr) (slot : Int32) (s : State) :
    (syscallSetCurrentApp id slot s).loader = s.loader := by
  rw [syscallSetCurrentApp]
  split
  · rfl
  · split <;> rfl

@[simp] lemma linked_setCurrentApp (id : Option CStr) (slot : Int32) (s : State) :
    (syscallSetCurrentApp id slot s).linked = s.linked := by
  rw [syscallSetCurrentApp]
  split
  · rfl
  · split <;> rfl

lemma eq_some_of_bind_checkAppId {id : Option CStr} {id' : AppId} (h : id.bind checkAppId = some id') :
    id = some id'.1 := by
  obtain ⟨id, rfl, hid⟩ := Option.bind_eq_some_iff.mp h
  rw [checkAppId] at hid
  split_ifs at hid
  obtain rfl := Option.some.inj hid
  rfl

/-- The current app has no slot, or its id is stored for the slot. -/
lemma setCurrentApp_cases (id : Option CStr) (slot : Int32) (s : State) :
    ((syscallSetCurrentApp id slot s).store = s.store ∧ (syscallSetCurrentApp id slot s).context.slot = none) ∨
    ∃ id' k, id = some id' ∧ validAppId id' = true ∧ boundSlot slot = some k ∧
      (syscallSetCurrentApp id slot s).context.slot = some k ∧
      (syscallSetCurrentApp id slot s).store = { s.store with ids := s.store.ids.set k (idBuffer id') } := by
  rw [syscallSetCurrentApp]
  cases hid : id.bind checkAppId with
  | none => exact .inl ⟨rfl, rfl⟩
  | some id' =>
    cases hslot : boundSlot slot with
    | none => exact .inl ⟨rfl, rfl⟩
    | some k => exact .inr ⟨id'.1, k, eq_some_of_bind_checkAppId hid, id'.2, rfl, rfl, rfl⟩

lemma boundSlot_ofNat (i : ElfLoader.Slot) : boundSlot (Int32.ofNat i) = some i.val := by
  revert i
  decide

/-- Another id in the table of the ids does not matter to the loaded apps, if it is not stored for the
slot of one with storage functions. -/
lemma Linked.setIds (h : Linked s) (happs : s'.loader.apps = s.loader.apps) (hlinked : s'.linked = s.linked)
    {k : ℕ} {buffer : List UInt8} (hstore : s'.store = { s.store with ids := s.store.ids.set k buffer })
    (hk : ∀ i : ElfLoader.Slot, i.val = k → (s.loader.apps i).loaded = true →
      (∃ address ∈ s.linked i, address.function ∈ appFsNames) →
        AppFiles.appStorageId (s.store.ids.set k buffer) i = (s.loader.apps i).appId.toStr) : Linked s' := by
  have happOf : s'.appOf = s.appOf := funext fun k => appOf_congr fun i _ => by rw [happs]
  refine ⟨?_, ?_, ?_⟩
  · rw [hstore]
    exact List.length_set.trans h.length
  · rw [happOf, hstore]
    exact h.owns.of_eq rfl rfl
  · intro i hloaded address hmem hfs
    rw [happs] at hloaded
    rw [hlinked] at hmem
    obtain ⟨hbound, appId, happ, hid⟩ := h.bound i hloaded address hmem hfs
    refine ⟨hbound, appId, by rw [happOf, happ], ?_⟩
    rw [hstore]
    by_cases hik : i.val = k
    · rw [hk i hik hloaded ⟨address, hmem, hfs⟩, ← appOf_of_loaded hloaded, happ]
    · exact (appStorageId_set_of_ne (Ne.symm hik) buffer).trans hid

lemma Linked.of_store_eq (h : Linked s) (happs : s'.loader.apps = s.loader.apps) (hlinked : s'.linked = s.linked)
    (hstore : s'.store = s.store) : Linked s' := by
  have happOf : s'.appOf = s.appOf := funext fun k => appOf_congr fun i _ => by rw [happs]
  refine ⟨by rw [hstore, h.length], by rw [happOf, hstore]; exact h.owns, fun i hloaded address hmem hfs => ?_⟩
  rw [happs] at hloaded
  rw [hlinked] at hmem
  rw [happOf, hstore]
  exact h.bound i hloaded address hmem hfs

lemma linked_setCurrent (h : Linked s) (id : Option CStr) (slot : Int32)
    (hrebinds : ¬ Rebinds (.setCurrentApp id slot) s) : Linked (syscallSetCurrentApp id slot s) := by
  rcases setCurrentApp_cases id slot s with ⟨hstore, -⟩ | ⟨id', k, rfl, hvalid, hslot, -, hstore⟩
  · exact h.of_store_eq (by rw [loader_setCurrentApp]) (linked_setCurrentApp id slot s) hstore
  · refine h.setIds (by rw [loader_setCurrentApp]) (linked_setCurrentApp _ slot s) hstore ?_
    rintro i rfl hloaded hfs
    have hsame : id' = (s.loader.apps i).appId := by
      by_contra hne
      exact hrebinds ⟨i, hvalid, hslot, hloaded, hfs, hne⟩
    rw [appStorageId_set_self hvalid (by rw [h.length]; exact i.isLt), hsame]

/-- An app whose imports have been resolved takes a free slot. -/
lemma linked_installed (h : Linked s) {a : Admitted} {granted : UInt32} {links : List Address}
    (hfree : (s.loader.apps a.slot).loaded = false)
    (hlinks : ∀ address ∈ links, address.function ∈ appFsNames →
      ∃ k, (relocating a s).context.slot = some k ∧ address = .bound address.function k)
    (happs : s'.loader.apps =
      Function.update s.loader.apps a.slot ⟨true, false, a.permId.take appIdMax, granted⟩)
    (hlinked : s'.linked = Function.update s.linked a.slot links)
    (hstore : s'.store = (relocating a s).store) : Linked s' := by
  have happs_ne : ∀ i : ElfLoader.Slot, i ≠ a.slot → s'.loader.apps i = s.loader.apps i := by
    intro i hi
    rw [happs, Function.update_of_ne hi]
  have happOf_ne : ∀ k : ℕ, k ≠ a.slot.val → s'.appOf k = s.appOf k := by
    intro k hk
    refine appOf_congr ?_
    rintro i rfl
    exact happs_ne i fun heq => hk (congrArg Fin.val heq)
  have hfiles : s'.store.files = s.store.files ∧ s'.store.opened = s.store.opened := by
    rw [hstore]
    rcases setCurrentApp_cases (some a.permId) (Int32.ofNat a.slot)
      { s with loader := s.loader.setPerms (grantAdmitted a s.loader.perms).2 } with
      ⟨hsame, -⟩ | ⟨_, _, -, -, -, -, hset⟩
    · rw [relocating, hsame]
      exact ⟨rfl, rfl⟩
    · rw [relocating, hset]
      exact ⟨rfl, rfl⟩
  have hids : ∃ buffer, s'.store.ids = s.store.ids ∨ s'.store.ids = s.store.ids.set a.slot buffer := by
    rw [hstore]
    rcases setCurrentApp_cases (some a.permId) (Int32.ofNat a.slot)
      { s with loader := s.loader.setPerms (grantAdmitted a s.loader.perms).2 } with
      ⟨hsame, -⟩ | ⟨_, k, -, -, hslot, -, hset⟩
    · rw [relocating, hsame]
      exact ⟨[], .inl rfl⟩
    · obtain rfl := Option.some.inj ((boundSlot_ofNat a.slot).symm.trans hslot)
      rw [relocating, hset]
      exact ⟨_, .inr rfl⟩
  refine ⟨?_, ?_, fun i hloaded address hmem hfs => ?_⟩
  · obtain ⟨buffer, heq | heq⟩ := hids
    · rw [heq, h.length]
    · rw [heq, List.length_set, h.length]
  · refine (h.owns.of_eq hfiles.1 hfiles.2).mono fun k appId hk => ?_
    rw [happOf_ne k ?_, hk]
    rintro rfl
    rw [appOf_of_not_loaded hfree] at hk
    cases hk
  by_cases hi : i = a.slot
  · subst hi
    rw [hlinked, Function.update_self] at hmem
    obtain ⟨k, hcontext, haddress⟩ := hlinks address hmem hfs
    rcases setCurrentApp_cases (some a.permId) (Int32.ofNat a.slot)
      { s with loader := s.loader.setPerms (grantAdmitted a s.loader.perms).2 } with
      ⟨-, hnone⟩ | ⟨id, k', hid, hvalid, hslot, hsome, hset⟩
    · rw [relocating, hnone] at hcontext
      cases hcontext
    · obtain rfl := Option.some.inj hid
      obtain rfl := Option.some.inj ((boundSlot_ofNat a.slot).symm.trans hslot)
      obtain rfl : a.slot.val = k := by
        rw [relocating, hsome] at hcontext
        exact Option.some.inj hcontext
      obtain ⟨appId, happId, hlength⟩ := toStr_of_validAppId hvalid
      refine ⟨haddress, appId, ?_, ?_⟩
      · rw [appOf_of_loaded hloaded, happs, Function.update_self]
        rw [CStr.take_of_length_le hlength, happId]
      · rw [hstore, relocating, hset]
        refine (appStorageId_set_self hvalid ?_).trans happId
        exact lt_of_lt_of_eq a.slot.isLt h.length.symm
  · rw [happs_ne i hi] at hloaded
    rw [hlinked, Function.update_of_ne hi] at hmem
    obtain ⟨hbound, appId, happ, hid⟩ := h.bound i hloaded address hmem hfs
    have hne : a.slot.val ≠ i.val := fun heq => hi (Fin.ext heq.symm)
    refine ⟨hbound, appId, by rw [happOf_ne i hne.symm, happ], ?_⟩
    obtain ⟨buffer, heq | heq⟩ := hids
    · rw [heq, hid]
    · rw [heq, appStorageId_set_of_ne hne, hid]

/-- A load that fails leaves the slots alone; the slot that it would have taken is free. -/
lemma linked_notInstalled (h : Linked s) {a : Admitted} (hfree : (s.loader.apps a.slot).loaded = false)
    (happs : s'.loader.apps = s.loader.apps) (hlinked : s'.linked = s.linked)
    (hstore : s'.store = (relocating a s).store) : Linked s' := by
  rcases setCurrentApp_cases (some a.permId) (Int32.ofNat a.slot)
    { s with loader := s.loader.setPerms (grantAdmitted a s.loader.perms).2 } with
    ⟨hsame, -⟩ | ⟨id, k, -, -, hslot, -, hset⟩
  · refine h.of_store_eq happs hlinked ?_
    rw [hstore, relocating, hsame]
  · obtain rfl := Option.some.inj ((boundSlot_ofNat a.slot).symm.trans hslot)
    rw [relocating, hset] at hstore
    refine h.setIds happs hlinked hstore ?_
    intro i hi hloaded
    obtain rfl := Fin.ext hi
    rw [hfree] at hloaded
    cases hloaded

lemma install_apps_of_refused {x : ElfFile} {loader : ElfLoaderState} (a : Admitted)
    (h : (grantAdmitted a loader.perms).1 ≠ espOk) : (install x a loader).2.apps = loader.apps := by
  rw [grantAdmitted] at h
  simp only [install]
  generalize (if a.granted = 0 then (espOk, (permissionsRevoke a.permId permAll loader.perms).2)
    else permissionsGrant a.permId a.granted (permissionsRevoke a.permId permAll loader.perms).2) = r at h ⊢
  obtain ⟨grantRet, perms⟩ := r
  simp only
  rw [if_pos h]
  rfl

lemma linked_load (h : Linked s) (x : ElfFile) (imports : List CStr) :
    Linked (load debug x imports s).2 := by
  rw [load]
  cases hchecks : loadChecks debug x s.loader with
  | error rc => exact h
  | ok a =>
    have hfree := (loadChecks_ok hchecks).2.1
    have hinstall := install_apps (x := x) (s := s.loader) a
    dsimp only
    split
    · rename_i hne
      exact h.of_store_eq (install_apps_of_refused a hne) rfl rfl
    · rcases hinstall with ⟨hfailed, -, happs⟩ | ⟨hreply, happs⟩
      · rw [if_neg hfailed]
        exact linked_notInstalled h hfree happs rfl rfl
      · rw [if_pos (congrArg Prod.fst hreply)]
        refine linked_installed h hfree ?_ happs rfl rfl
        intro address hmem hfs
        obtain ⟨name, -, hname⟩ := List.mem_filterMap.mp hmem
        obtain ⟨entry, -, -, -, -, ⟨-, k, hslot, rfl⟩ | ⟨hnot, rfl⟩⟩ := resolveAppSymbol_eq_some hname
        · exact ⟨k, hslot, rfl⟩
        · exact absurd hfs hnot

lemma linked_unload (h : Linked s) (answers : Answers) (handle : Option ElfLoader.Slot) :
    Linked (unload answers handle s).2 := by
  cases handle with
  | none => exact h
  | some i =>
    have happs : ∀ j, j ≠ i → (elfAppUnload (some i) s.loader).2.apps j = s.loader.apps j :=
      fun j hj => Function.update_of_ne hj _ _
    have hself : (elfAppUnload (some i) s.loader).2.apps i = .empty := Function.update_self _ _ _
    have happOf : ∀ k : ℕ, k ≠ i.val → (unload answers (some i) s).2.appOf k = s.appOf k := by
      intro k hk
      refine appOf_congr ?_
      rintro j rfl
      exact happs j fun heq => hk (congrArg Fin.val heq)
    obtain ⟨howns, hids⟩ := owns_clear answers h.owns happOf
    refine ⟨?_, howns, fun j hloaded address hmem hfs => ?_⟩
    · exact (congrArg List.length hids).trans (List.length_set.trans h.length)
    have hji : j ≠ i := by
      rintro rfl
      exact absurd ((congrArg ElfAppHandle.loaded hself).symm.trans hloaded) (by decide)
    have hne : i.val ≠ j.val := fun heq => hji (Fin.ext heq.symm)
    have hloaded' : (s.loader.apps j).loaded = true := (congrArg ElfAppHandle.loaded (happs j hji)).symm.trans hloaded
    have hmem' : address ∈ s.linked j := by
      have hlinked : (unload answers (some i) s).2.linked j = s.linked j := Function.update_of_ne hji _ _
      rwa [hlinked] at hmem
    obtain ⟨hbound, appId, happ, hid⟩ := h.bound j hloaded' address hmem' hfs
    refine ⟨hbound, appId, (happOf j hne.symm).trans happ, ?_⟩
    exact (congrArg (AppFiles.appStorageId · j) hids).trans ((appStorageId_set_of_ne hne _).trans hid)

/-- A storage function that an app calls serves the app of its slot. -/
lemma served_callLinked (h : Linked s) (answers : Answers) {k : ℕ} {q : StorageCall}
    (hloaded : (s.loader.apps i).loaded = true) (hmem : .bound q.function k ∈ s.linked i) :
    k = i.val ∧ ∃ appId, s.appOf i = some appId ∧
      Served s.appOf appId s.store ((q.body k).perform (watched answers k) (s.store, [])).2 := by
  obtain ⟨hbound, appId, happ, hid⟩ := h.bound i hloaded _ hmem q.function_mem
  obtain rfl : k = i.val := (Address.bound.inj hbound).2
  exact ⟨rfl, appId, happ, served_body h.owns happ hid q⟩

lemma linked_callLinked (h : Linked s) (answers : Answers) (i : ElfLoader.Slot) (k : ℕ) (q : StorageCall) :
    Linked (callLinked answers i k q s).2 := by
  rw [callLinked]
  split
  · rename_i hcall
    obtain ⟨rfl, appId, happ, hserved⟩ := served_callLinked h answers hcall.1 hcall.2
    refine ⟨(congrArg List.length hserved.ids).trans h.length, hserved.owns, ?_⟩
    intro j hloaded address hmem hfs
    obtain ⟨hbound, appId', happ', hid⟩ := h.bound j hloaded address hmem hfs
    exact ⟨hbound, appId', happ', (congrArg (AppFiles.appStorageId · j) hserved.ids).trans hid⟩
  · exact h

lemma linked_new : Linked .new where
  length := List.length_replicate
  owns :=
    { nodup k := by
        have hnil : AppFiles.owned k State.new.store.files = [] := AppFiles.owned_start [] k
        rw [hnil]
        exact List.nodup_nil
      opened k stream hmem := by
        have hnil : AppFiles.owned k State.new.store.files = [] := AppFiles.owned_start [] k
        rw [hnil] at hmem
        cases hmem }
  bound i hloaded := by cases hloaded

/-- What each call keeps. -/
lemma linked_next (o : LinkOp) (h : Linked s) (hrebinds : ¬ Rebinds o s) : Linked ((links debug).next o s) := by
  cases o with
  | setCurrentApp id slot => exact linked_setCurrent h id slot hrebinds
  | grant appId perms => exact h.of_store_eq rfl rfl rfl
  | revoke appId perms => exact h.of_store_eq rfl rfl rfl
  | load x imports => exact linked_load h x imports
  | unload answers handle => exact linked_unload h answers handle
  | call answers i k q => exact linked_callLinked h answers i k q

end Slots

/-! ### Confinement -/

/-- What a resolved symbol says about its name and about the state in which it was resolved. -/
structure LinkAllowed (signed : Bool) (name : CStr) (address : Address) (s : State) : Prop where
  listed : name.toStr = some address.function ∧ address.function ∈ allowedSymbols signed
  permitted : ∀ entry ∈ syscallTable, entry.name = address.function → entry.permission ≠ 0 →
    Holds s.context entry.permission s.loader.perms
  bound : address.function ∈ appFsNames →
    ∃ slot, s.context.slot = some slot ∧ address = .bound address.function slot

/-- Every storage function that is linked into a loaded app is one of its slot, and acts only on paths
below the directory of the app. -/
def Sandboxed (s : State) : Prop :=
  ∀ i : ElfLoader.Slot, (s.loader.apps i).loaded = true → ∀ address ∈ s.linked i, address.function ∈ appFsNames →
    ∃ appId, (s.loader.apps i).appId.toStr = some appId ∧ address = .bound address.function i ∧
      ∀ (q : StorageCall) (answers : Answers), q.function = address.function →
        ∀ path ∈ (callLinked answers i i q s).1, appDirectory appId <+: path

lemma linkAllowed {signed : Bool} {name : CStr} {address : Address} {s : State}
    (h : s.resolve signed name = some address) : LinkAllowed signed name address s := by
  obtain ⟨entry, hmem, hname, hallowed, hpermitted, haddress⟩ := resolveAppSymbol_eq_some h
  have hfunction : address.function = entry.name := by
    rcases haddress with ⟨-, slot, -, rfl⟩ | ⟨-, rfl⟩ <;> rfl
  refine ⟨?_, fun entry' hmem' hname' hne => ?_, fun hfs => ?_⟩
  · rw [hfunction]
    exact ⟨hname, hallowed⟩
  · obtain rfl : entry' = entry :=
      List.inj_on_of_nodup_map nodup_names hmem' hmem (hname'.trans hfunction)
    exact holds_of_permitted hpermitted hne
  · rw [hfunction] at hfs ⊢
    exact (haddress.resolve_right fun hnot => hnot.1 hfs).2

lemma sandboxed_of_linked {s : State} (h : Linked s) : Sandboxed s := by
  intro i hloaded address hmem hfs
  obtain ⟨hbound, appId, happ, -⟩ := h.bound i hloaded address hmem hfs
  refine ⟨appId, (appOf_of_loaded hloaded).symm.trans happ, hbound, fun q answers hq path hpath => ?_⟩
  have hlinked : .bound q.function i ∈ s.linked i := by
    rw [hq, ← hbound]
    exact hmem
  obtain ⟨-, appId', happ', hserved⟩ := served_callLinked h answers hloaded hlinked
  obtain rfl := Option.some.inj (happ.symm.trans happ')
  rw [callLinked, if_pos ⟨hloaded, hlinked⟩] at hpath
  exact hserved.paths path hpath

/-- In every state a symbol is resolved only if the list of the class has its name and the current app may
use it, and a storage function only as that of the current slot. The state may also be the one in which
a load resolves its imports. In a run in which no call binds another app to the slot of a loaded one, the
storage functions of every loaded app stay below its directory. -/
theorem links_confined (debug : Bool) :
    (∀ signed name address (s : State), s.resolve signed name = some address →
      LinkAllowed signed name address s) ∧
    ∀ ops, (links debug).Along (fun o s => ¬ Rebinds o s) .new ops → Sandboxed ((links debug).run .new ops) := by
  refine ⟨fun signed name address s => linkAllowed, fun ops hops => ?_⟩
  have hrun := Component.along_of_preserved (fun o s h ho => linked_next o h ho) linked_new hops
  exact sandboxed_of_linked hrun.2

/-! ### Two apps in one slot -/

/-- A signed app that asks for the storage. -/
def notesApp : ElfFile where
  path := .ofBuffer (utf8 "/apps/notes.elf")
  contents := some [1]
  heapCapsMalloc := true
  manifest := some ⟨utf8 "notes", permStorage⟩
  signature := some (List.replicate 64 0)
  signingVerify _ _ := espOk
  espElfInit := espOk
  espElfRelocate := espOk
  manifestIsCompatible := some true

/-- The app imports a storage function, and a function that is for drivers only. -/
def loadNotes : LinkOp := .load notesApp
  [.ofBuffer (utf8 "thistle_fs_remove"), .ofBuffer (utf8 "hal_get_registry")]

/-- Another app is made the current one, for the slot of the first. -/
def replaceNotes : LinkOp := .setCurrentApp (some (.ofBuffer (utf8 "maps"))) 0

theorem links_confined_notes :
    ((links true).run .new [loadNotes]).linked firstSlot = [.bound "thistle_fs_remove" 0] ∧
      Sandboxed ((links true).run .new [loadNotes]) := by
  refine ⟨by decide +kernel, (links_confined true).2 [loadNotes] ?_⟩
  exact Component.along_cons.mpr ⟨id, Component.along_nil⟩

/-- A card on which nothing can be found, and no file opened. -/
def emptyCard : Answers := fun _ o =>
  match o with
  | .stream (.appStorageId _) => (none : Option String)
  | .stream (.createParent _) | .stream (.registerAppStream ..) | .stream (.appOwnsStream ..)
  | .stream (.takeOwnedStream ..) => false
  | .stream (.fopen ..) => (0 : ℕ)
  | .stream (.takeSlot _) => ([] : List ℕ)
  | .stream (.fread ..) | .stream (.fwrite ..) | .stream (.fclose _) => (-1 : Int32)
  | .stream (.clearId _) => ()
  | .file (.exists? _) => false
  | .file (.read _) => (.error (.ofKind .notFound) : Except IoError (List UInt8))
  | .file (.update _) => (.error (.ofKind .notFound) : Except IoError Unit)
  | .readDir _ => (none : Option (List (Option FileName)))
  | .symlinkMetadata _ => (none : Option Metadata)

/-- After a call from outside that binds another app to the slot, the function that is linked into the first
app looks for the files of the other one. -/
theorem not_sandboxed_maps : ¬ Sandboxed ((links true).run .new [loadNotes, replaceNotes]) := by
  intro h
  obtain ⟨appId, happId, -, hpaths⟩ := h firstSlot (by decide +kernel) (.bound "thistle_fs_remove" 0)
    (by decide +kernel) (by decide)
  have hnotes : (((links true).run .new [loadNotes, replaceNotes]).loader.apps firstSlot).appId.toStr =
      some "notes" := by decide +kernel
  obtain rfl := Option.some.inj (happId.symm.trans hnotes)
  have hmem : ["spiffs", "data", "apps", "maps", "plan"] ∈ (callLinked emptyCard firstSlot firstSlot
      (.remove (some (.ofBuffer (utf8 "plan")))) ((links true).run .new [loadNotes, replaceNotes])).1 := by
    decide +kernel
  exact absurd (hpaths _ emptyCard rfl _ hmem) (by decide +kernel)

end ThistleOS.AppLinks
