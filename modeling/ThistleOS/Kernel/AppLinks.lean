import ThistleOS.Kernel.AppFiles
import ThistleOS.Kernel.AppStorage.Replace
import ThistleOS.Kernel.ElfLoader
import ThistleOS.PowerLoss.Handler

/-!
# The links of the apps

While an app is loaded, the kernel resolves the names that it imports. What may be resolved depends on
the signature of the app and on the permissions of the current app; the storage functions are bound to
the current slot, and look up the app of their slot when they are called.

The card and the C library answer as they like, except that a stream that is open is not opened again.
-/

open PowerLoss FileTree
open ThistleOS.BundleTransaction (PlainName names)

namespace ThistleOS.AppLinks

open AppStorage ElfLoader Permissions

/-! ### The table of the symbols -/

def permRadio : UInt32 := (1 : UInt32) <<< 0
def permGps : UInt32 := (1 : UInt32) <<< 1
def permStorage : UInt32 := (1 : UInt32) <<< 2

structure SyscallEntry where
  name : String
  permission : UInt32
  deriving DecidableEq

def entry (name : String) (permission : UInt32 := 0) : SyscallEntry := ⟨name, permission⟩

def unsignedAppSymbols : List String := ["thistle_msg_recv", "thistle_msg_send"]

def appVisibleSymbols : List String :=
  ["thistle_crypto_aes128_ecb_decrypt", "thistle_crypto_aes128_ecb_encrypt",
  "thistle_crypto_aes256_cbc_decrypt", "thistle_crypto_aes256_cbc_encrypt", "thistle_crypto_argon2id",
  "thistle_crypto_ed25519_derive_public", "thistle_crypto_ed25519_keygen",
  "thistle_crypto_ed25519_sign", "thistle_crypto_ed25519_verify", "thistle_crypto_hmac_sha256",
  "thistle_crypto_hmac_verify", "thistle_crypto_pbkdf2_sha256", "thistle_crypto_random",
  "thistle_crypto_sha256", "thistle_crypto_x25519_key_exchange", "thistle_delay",
  "thistle_display_get_height", "thistle_display_get_width", "thistle_event_publish",
  "thistle_event_subscribe", "thistle_free", "thistle_fs_close", "thistle_fs_list", "thistle_fs_open",
  "thistle_fs_read", "thistle_fs_remove", "thistle_fs_replace", "thistle_fs_write",
  "thistle_gps_enable", "thistle_gps_get_position", "thistle_input_register_cb", "thistle_log",
  "thistle_malloc", "thistle_mesh_clear_inbox", "thistle_mesh_deinit", "thistle_mesh_find_contact",
  "thistle_mesh_get_contact", "thistle_mesh_get_contact_count", "thistle_mesh_get_inbox_count",
  "thistle_mesh_get_inbox_message", "thistle_mesh_get_self_key", "thistle_mesh_get_self_name",
  "thistle_mesh_get_stats", "thistle_mesh_init", "thistle_mesh_loop", "thistle_mesh_send",
  "thistle_mesh_send_advert", "thistle_mesh_send_advert_pos", "thistle_millis", "thistle_msg_recv",
  "thistle_msg_send", "thistle_power_get_battery_mv", "thistle_power_get_battery_pct",
  "thistle_radio_send", "thistle_radio_set_freq", "thistle_radio_start_rx", "thistle_realloc",
  "thistle_ui_create_button", "thistle_ui_create_container", "thistle_ui_create_label",
  "thistle_ui_create_text_input", "thistle_ui_destroy", "thistle_ui_get_app_root",
  "thistle_ui_get_text", "thistle_ui_on_event", "thistle_ui_set_align", "thistle_ui_set_bg_color",
  "thistle_ui_set_border_width", "thistle_ui_set_flex_grow", "thistle_ui_set_font_size",
  "thistle_ui_set_gap", "thistle_ui_set_layout", "thistle_ui_set_one_line", "thistle_ui_set_padding",
  "thistle_ui_set_password_mode", "thistle_ui_set_placeholder", "thistle_ui_set_pos",
  "thistle_ui_set_radius", "thistle_ui_set_scrollable", "thistle_ui_set_size", "thistle_ui_set_text",
  "thistle_ui_set_text_color", "thistle_ui_set_visible", "thistle_ui_theme_bg",
  "thistle_ui_theme_primary", "thistle_ui_theme_surface", "thistle_ui_theme_text",
  "thistle_ui_theme_text_secondary"]

def syscallTable : List SyscallEntry :=
  [entry "esp_log_write", entry "hal_audio_register", entry "hal_bus_get_i2c", entry "hal_bus_get_spi",
  entry "hal_bus_register_i2c", entry "hal_bus_register_spi", entry "hal_display_register",
  entry "hal_get_registry", entry "hal_gps_register", entry "hal_imu_register",
  entry "hal_input_register", entry "hal_power_register", entry "hal_radio_register",
  entry "hal_set_board_name", entry "hal_storage_register", entry "thistle_crypto_aes128_ecb_decrypt",
  entry "thistle_crypto_aes128_ecb_encrypt", entry "thistle_crypto_aes256_cbc_decrypt",
  entry "thistle_crypto_aes256_cbc_encrypt", entry "thistle_crypto_argon2id",
  entry "thistle_crypto_ed25519_derive_public", entry "thistle_crypto_ed25519_keygen",
  entry "thistle_crypto_ed25519_sign", entry "thistle_crypto_ed25519_verify",
  entry "thistle_crypto_hmac_sha256", entry "thistle_crypto_hmac_verify",
  entry "thistle_crypto_pbkdf2_sha256", entry "thistle_crypto_random", entry "thistle_crypto_sha256",
  entry "thistle_crypto_x25519_key_exchange", entry "thistle_delay", entry "thistle_display_get_height",
  entry "thistle_display_get_width", entry "thistle_driver_get_config", entry "thistle_event_publish",
  entry "thistle_event_subscribe", entry "thistle_free", entry "thistle_fs_close" permStorage,
  entry "thistle_fs_list" permStorage, entry "thistle_fs_open" permStorage,
  entry "thistle_fs_read" permStorage, entry "thistle_fs_remove" permStorage,
  entry "thistle_fs_replace" permStorage, entry "thistle_fs_write" permStorage,
  entry "thistle_gps_enable" permGps, entry "thistle_gps_get_position" permGps,
  entry "thistle_input_register_cb", entry "thistle_log", entry "thistle_malloc",
  entry "thistle_mesh_clear_inbox" permRadio, entry "thistle_mesh_deinit" permRadio,
  entry "thistle_mesh_find_contact" permRadio, entry "thistle_mesh_get_contact" permRadio,
  entry "thistle_mesh_get_contact_count" permRadio, entry "thistle_mesh_get_inbox_count" permRadio,
  entry "thistle_mesh_get_inbox_message" permRadio, entry "thistle_mesh_get_self_key" permRadio,
  entry "thistle_mesh_get_self_name" permRadio, entry "thistle_mesh_get_stats" permRadio,
  entry "thistle_mesh_init" permRadio, entry "thistle_mesh_loop" permRadio,
  entry "thistle_mesh_send" permRadio, entry "thistle_mesh_send_advert" permRadio,
  entry "thistle_mesh_send_advert_pos" permRadio, entry "thistle_millis",
  entry "thistle_msg_recv" permIpc, entry "thistle_msg_send" permIpc,
  entry "thistle_power_get_battery_mv", entry "thistle_power_get_battery_pct",
  entry "thistle_radio_send" permRadio, entry "thistle_radio_set_freq" permRadio,
  entry "thistle_radio_start_rx" permRadio, entry "thistle_realloc", entry "thistle_ui_create_button",
  entry "thistle_ui_create_container", entry "thistle_ui_create_label",
  entry "thistle_ui_create_text_input", entry "thistle_ui_destroy", entry "thistle_ui_get_app_root",
  entry "thistle_ui_get_text", entry "thistle_ui_on_event", entry "thistle_ui_set_align",
  entry "thistle_ui_set_bg_color", entry "thistle_ui_set_border_width",
  entry "thistle_ui_set_flex_grow", entry "thistle_ui_set_font_size", entry "thistle_ui_set_gap",
  entry "thistle_ui_set_layout", entry "thistle_ui_set_one_line", entry "thistle_ui_set_padding",
  entry "thistle_ui_set_password_mode", entry "thistle_ui_set_placeholder", entry "thistle_ui_set_pos",
  entry "thistle_ui_set_radius", entry "thistle_ui_set_scrollable", entry "thistle_ui_set_size",
  entry "thistle_ui_set_text", entry "thistle_ui_set_text_color", entry "thistle_ui_set_visible",
  entry "thistle_ui_theme_bg", entry "thistle_ui_theme_primary", entry "thistle_ui_theme_surface",
  entry "thistle_ui_theme_text", entry "thistle_ui_theme_text_secondary", entry "vTaskDelay",
  entry "vTaskDelete", entry "xQueueGenericCreate", entry "xQueueGenericSend", entry "xQueueReceive",
  entry "xTaskCreatePinnedToCore"]

/-- The loop of `binary_search_by`: the base and the size of what is left. -/
def searchLoop {α : Type} (f : α → Ordering) (l : List α) : (fuel base size : ℕ) → ℕ
  | 0, base, _ => base
  | fuel + 1, base, size =>
    if 1 < size then
      let half := size / 2
      let mid := base + half
      searchLoop f l fuel (if (l[mid]?.map f) = some .gt then base else mid) (size - half)
    else base

/-- The index that is found. -/
def binarySearchBy {α : Type} (f : α → Ordering) (l : List α) : Option ℕ :=
  let base := searchLoop f l l.length 0 l.length
  if (l[base]?.map f) = some .eq then some base else none

def findEntry (name : CStr) : Option SyscallEntry :=
  match name.toStr with
  | none => none
  | some nameStr =>
    match binarySearchBy (fun probe => compare probe.name nameStr) syscallTable with
    | some idx => syscallTable[idx]?
    | none => none

/-! ### Resolving a symbol -/

/-- What a symbol is resolved to: a function of the table, or a storage function of one slot. -/
inductive Address
  | implementation (name : String)
  | bound (name : String) (slot : ℕ)
  deriving DecidableEq

/-- The name of the function at an address. -/
def Address.function : Address → String
  | .implementation name => name
  | .bound name _ => name

/-- The names of the storage functions. -/
def appFsNames : List String :=
  ["thistle_fs_close", "thistle_fs_list", "thistle_fs_open", "thistle_fs_read", "thistle_fs_remove",
  "thistle_fs_replace", "thistle_fs_write"]

def boundAppFsSymbol (name : String) (slot : ℕ) : Option Address :=
  if appFsNames.contains name then some (.bound name slot) else none

def validAppId (id : CStr) : Bool :=
  match id.toStr with
  | some appId => (utf8 appId).length ≤ 63 && validAppStorageId appId
  | none => false

/-- An id that storage can be bound to. -/
abbrev AppId := {id : CStr // validAppId id = true}

def checkAppId (id : CStr) : Option AppId :=
  if h : validAppId id = true then some ⟨id, h⟩ else none

/-- The app whose symbols are resolved, if there is one. -/
structure AppResolverContext where
  id : Option AppId
  slot : Option ℕ

def AppResolverContext.empty : AppResolverContext := ⟨none, none⟩

/-- May the current app link a function that needs the permission? -/
def permitted (context : AppResolverContext) (permission : UInt32) (perms : PermTable) : Bool :=
  if permission ≠ 0 then
    match context.id with
    | none => false
    | some id => Permissions.check (id.1.toStr.getD "") permission perms
  else true

def resolveAppSymbol (name : CStr) (allowed : List String) (context : AppResolverContext)
    (perms : PermTable) : Option Address :=
  match name.toStr with
  | none => none
  | some nameStr =>
    if (binarySearchBy (fun probe => compare probe nameStr) allowed).isNone then none
    else
      match findEntry name with
      | none => none
      | some entry =>
        if !permitted context entry.permission perms then none
        else if appFsNames.contains nameStr then
          match context.slot with
          | some slot => boundAppFsSymbol nameStr slot
          | none => none
        else some (.implementation entry.name)

/-- The names that apps of the two classes may link. -/
def allowedSymbols (signed : Bool) : List String :=
  if signed then appVisibleSymbols else unsignedAppSymbols

/-! ### The calls of the storage functions -/

/-- A name of an entry of a directory. -/
abbrev FileName := {name : String // PlainName name}

structure Metadata where
  isSymlink : Bool
  isFile : Bool
  isDir : Bool
  len : UInt64
  modifiedMs : Option UInt64

inductive Op
  | stream (o : AppFiles.Op)
  | file (o : FsOp String UInt8)
  | readDir (path : Path)
  | symlinkMetadata (path : Path)

/-- The name of an entry that is not UTF-8 is `none`. -/
def Reply : Op → Type
  | .stream o => AppFiles.Reply o
  | .file o => (fsSig String UInt8).Reply o
  | .readDir _ => Option (List (Option FileName))
  | .symlinkMetadata _ => Option Metadata

def calls : Sig := ⟨Op, Reply⟩

/-- A program of the calls on streams. -/
def ofStreams {α : Type} (p : Prog AppFiles.steps α) : Prog calls α :=
  p.handle fun o => .call (S := calls) (.stream o) .pure

/-- A call on files as a call of a storage function. -/
def fileCall : (o : ((fsSig String UInt8).sum Sig.none).Op) →
    Prog calls (((fsSig String UInt8).sum Sig.none).Reply o)
  | .inl o => .call (S := calls) (.file o) .pure
  | .inr o => isEmptyElim o

/-- An action on files; its errors are those that it does not handle itself. -/
def ofFiles {α : Type} (x : StorageAct α) : Prog calls (Except IoError α) :=
  (ExceptT.run x).handle fileCall

structure AppFsEntry where
  name : String
  sizeBytes : UInt64
  modifiedMs : UInt64
  entryType : UInt8

def appFsNameMax : ℕ := 64

def entryType (metadata : Metadata) : Option UInt8 :=
  if metadata.isFile then some 1 else if metadata.isDir then some 2 else none

/-- The loop over the entries of a directory. -/
def discover (path : Path) : List (Option FileName) → Prog calls (List AppFsEntry)
  | [] => .pure []
  | none :: items => discover path items
  | some name :: items =>
    if (utf8 name.1).length < appFsNameMax then
      .call (S := calls) (.symlinkMetadata (path ++ [name.1])) fun
        | none => discover path items
        | some metadata =>
          if metadata.isSymlink then discover path items
          else
            match entryType metadata with
            | none => discover path items
            | some kind => do
              let discovered ← discover path items
              return ⟨name.1, metadata.len, metadata.modifiedMs.getD 0, kind⟩ :: discovered
    else discover path items

/-- The entries in the order of their names, `none` if the directory cannot be read. -/
def listStoragePath (path : Path) (maxEntries : ℕ) : Prog calls (Option (List AppFsEntry)) :=
  .call (S := calls) (.readDir path) fun
    | none => .pure none
    | some items => do
      let discovered ← discover path items
      return some ((discovered.mergeSort fun left right => left.name ≤ right.name).take maxEntries)

/-- `entriesAllowed` says that the app may pass the buffer of the entries, and that it is one. -/
def appFsList (slot : ℕ) (path : Option CStr) (entriesAllowed : Bool) (maxEntries : ℕ) :
    Prog calls (Option (List AppFsEntry)) :=
  if !entriesAllowed || maxEntries == 0 || 128 < maxEntries then .pure none
  else
    match path.bind CStr.toStr with
    | none => .pure none
    | some requested =>
      .call (S := calls) (.stream (.appStorageId slot)) fun
        | none => .pure none
        | some appId =>
          match resolveAppStoragePath appId requested AppFiles.appStorageBase with
          | none => .pure none
          | some resolved => listStoragePath (names resolved) maxEntries

def appFsReplace (slot : ℕ) (source destination : Option CStr) : Prog calls Int :=
  match source.bind CStr.toStr, destination.bind CStr.toStr with
  | some source, some destination =>
    .call (S := calls) (.stream (.appStorageId slot)) fun
      | none => .pure (-1)
      | some appId =>
        match resolveAppStoragePath appId source AppFiles.appStorageBase,
          resolveAppStoragePath appId destination AppFiles.appStorageBase with
        | some source, some destination => do
          let status ← ofFiles (replaceStoragePath (names source) (names destination))
          return status.toOption.getD (-1)
        | _, _ => .pure (-1)
  | _, _ => .pure (-1)

def removeStoragePath (path : Path) : Prog calls Int :=
  .call (S := calls) (.symlinkMetadata path) fun
    | none => .pure (-1)
    | some metadata =>
      if metadata.isFile && !metadata.isSymlink then
        .call (S := calls) (.file (.update (.removeFile path))) fun
          | .ok () => .pure 0
          | .error _ => .pure (-1)
      else .pure (-1)

def appFsRemove (slot : ℕ) (path : Option CStr) : Prog calls Int :=
  match path.bind CStr.toStr with
  | none => .pure (-1)
  | some requested =>
    .call (S := calls) (.stream (.appStorageId slot)) fun
      | none => .pure (-1)
      | some appId =>
        match resolveAppStoragePath appId requested AppFiles.appStorageBase with
        | none => .pure (-1)
        | some resolved => removeStoragePath (names resolved)

/-- A call of a storage function, with the arguments that it takes. -/
inductive StorageCall
  | close (stream : ℕ)
  | list (path : Option CStr) (entriesAllowed : Bool) (maxEntries : ℕ)
  | open (path mode : Option CStr)
  | read (bufAllowed : Bool) (size count stream : ℕ)
  | remove (path : Option CStr)
  | replace (source destination : Option CStr)
  | write (bufAllowed : Bool) (size count stream : ℕ)

namespace StorageCall

/-- The name of the function that is called. -/
def function : StorageCall → String
  | close _ => "thistle_fs_close"
  | list .. => "thistle_fs_list"
  | .open .. => "thistle_fs_open"
  | read .. => "thistle_fs_read"
  | remove _ => "thistle_fs_remove"
  | replace .. => "thistle_fs_replace"
  | write .. => "thistle_fs_write"

/-- What the function that is bound to a slot does. -/
def body (slot : ℕ) : StorageCall → Prog calls Unit
  | close stream => do let _ ← ofStreams (AppFiles.thistleFsCloseForSlot slot stream)
  | list path entriesAllowed maxEntries => do let _ ← appFsList slot path entriesAllowed maxEntries
  | .open path mode => do let _ ← ofStreams (AppFiles.thistleFsOpenForSlot slot path mode)
  | read bufAllowed size count stream => do
    let _ ← ofStreams (AppFiles.thistleFsReadForSlot slot bufAllowed size count stream)
  | remove path => do let _ ← appFsRemove slot path
  | replace source destination => do let _ ← appFsReplace slot source destination
  | write bufAllowed size count stream => do
    let _ ← ofStreams (AppFiles.thistleFsWriteForSlot slot bufAllowed size count stream)

end StorageCall

/-! ### The card and the C library -/

/-- A stream that is open: the slot that has opened it, and the path. -/
structure OpenFile where
  slot : ℕ
  path : Path

/-- `answered` counts the calls that have been answered. -/
structure Store where
  files : AppFiles.Table
  ids : List (List UInt8)
  opened : ℕ → Option OpenFile
  answered : ℕ

namespace Store

def new : Store :=
  ⟨List.replicate AppFiles.maxOpenAppFiles none,
    List.replicate AppFiles.maxAppStorageSlots (List.replicate 64 0), fun _ => none, 0⟩

def answer (s : Store) : Store := { s with answered := s.answered + 1 }

def openStream (stream slot : ℕ) (path : Path) (s : Store) : Store :=
  { s with opened := Function.update s.opened stream (some ⟨slot, path⟩) }

/-- A stream that is open is not opened again. -/
def fopen (stream slot : ℕ) (path : Path) (s : Store) : ℕ × Store :=
  if stream = 0 ∨ (s.opened stream).isSome then (0, s.answer)
  else (stream, (s.openStream stream slot path).answer)

def closeStream (stream : ℕ) (s : Store) : Store :=
  { s with opened := Function.update s.opened stream none }

end Store

/-- What the card and the C library answer to the calls, the first, the second and so on. -/
abbrev Answers := ℕ → (o : Op) → Reply o

/-- The calls of a slot. -/
def storage (answers : Answers) (slot : ℕ) : Machine calls Store where
  Fault := Empty
  perform
    | .stream (.appStorageId k), s => (AppFiles.appStorageId s.ids k, s)
    | .stream (.createParent path), s => (answers s.answered (.stream (.createParent path)), s.answer)
    | .stream (.fopen path mode), s =>
      s.fopen (answers s.answered (.stream (.fopen path mode))) slot (names path)
    | .stream (.registerAppStream k stream), s =>
      let (registered, files) := AppFiles.registerAppStream k stream s.files
      (registered, { s with files })
    | .stream (.appOwnsStream k stream), s => (AppFiles.appOwnsStream k stream s.files, s)
    | .stream (.takeOwnedStream k stream), s =>
      let (taken, files) := AppFiles.takeOwnedStream k stream s.files
      (taken, { s with files })
    | .stream (.takeSlot k), s =>
      let (streams, files) := AppFiles.takeSlot k s.files
      (streams, { s with files })
    | .stream (.fread size count stream), s =>
      (answers s.answered (.stream (.fread size count stream)), s.answer)
    | .stream (.fwrite size count stream), s =>
      (answers s.answered (.stream (.fwrite size count stream)), s.answer)
    | .stream (.fclose stream), s =>
      (answers s.answered (.stream (.fclose stream)), (s.closeStream stream).answer)
    | .stream (.clearId k), s => ((), { s with ids := s.ids.set k (List.replicate 64 0) })
    | .file o, s => (answers s.answered (.file o), s.answer)
    | .readDir path, s => (answers s.answered (.readDir path), s.answer)
    | .symlinkMetadata path, s => (answers s.answered (.symlinkMetadata path), s.answer)
  disturb _ f _ := f.elim

/-- The paths that an operation on files acts on. -/
def updatePaths : FsUpdate String UInt8 → List Path
  | .createDirAll p | .createDir p | .removeDirAll p | .removeFile p | .create p _ | .createNew p
  | .writeAll p _ | .openWrite p | .syncAll p => [p]
  | .rename src dst | .replace src dst | .copy src dst _ => [src, dst]

/-- The paths that a call acts on, those of streams that are open among them. -/
def actsOn : Op → Store → List Path
  | .stream (.createParent path), _ => [(names path).dropLast]
  | .stream (.fopen path _), _ => [names path]
  | .stream (.fread _ _ stream), s | .stream (.fwrite _ _ stream), s | .stream (.fclose stream), s =>
    (s.opened stream).toList.map OpenFile.path
  | .stream _, _ => []
  | .file (.exists? path), _ | .file (.read path), _ | .readDir path, _ | .symlinkMetadata path, _ => [path]
  | .file (.update u), _ => updatePaths u

/-- The calls of a slot, with a log of the paths that they act on. -/
def watched (answers : Answers) (slot : ℕ) : Machine calls (Store × List Path) :=
  (storage answers slot).logged actsOn

/-! ### Loading apps and calling their functions -/

/-- `linked` has the addresses that the imports of the app of a slot have been resolved to. -/
structure State where
  loader : ElfLoaderState
  context : AppResolverContext
  store : Store
  linked : ElfLoader.Slot → List Address

namespace State

def new : State := ⟨.new, .empty, .new, fun _ => []⟩

def resolve (signed : Bool) (name : CStr) (s : State) : Option Address :=
  resolveAppSymbol name (allowedSymbols signed) s.context s.loader.perms

/-- Run a program for a slot; the reply is the list of the paths that it acts on. -/
def perform {α : Type} (answers : Answers) (slot : ℕ) (p : Prog calls α) (s : State) : List Path × State :=
  let (_, store, paths) := p.perform (watched answers slot) (s.store, [])
  (paths, { s with store })

end State

def boundSlot (slot : Int32) : Option ℕ :=
  if 0 ≤ slot.toInt ∧ slot.toInt < AppFiles.maxAppStorageSlots then some slot.toInt.toNat else none

/-- An id in a buffer of 64 bytes. -/
def idBuffer (id : CStr) : List UInt8 := id.bytes ++ List.replicate (64 - id.bytes.length) 0

def syscallSetCurrentApp (id : Option CStr) (slot : Int32) (s : State) : State :=
  match id.bind checkAppId with
  | none => { s with context := .empty }
  | some id =>
    match boundSlot slot with
    | none => { s with context := ⟨some id, none⟩ }
    | some i =>
      { s with
        context := ⟨some id, some i⟩
        store := { s.store with ids := s.store.ids.set i (idBuffer id.1) } }

/-- The permissions of an app are installed before its imports are resolved. -/
def grantAdmitted (a : Admitted) (perms : PermTable) : EspErr × PermTable :=
  let cleared := (permissionsRevoke a.permId permAll perms).2
  if a.granted = 0 then (espOk, cleared) else permissionsGrant a.permId a.granted cleared

/-- The state in which the imports of an app are resolved. -/
def relocating (a : Admitted) (s : State) : State :=
  syscallSetCurrentApp (some a.permId) (Int32.ofNat a.slot)
    { s with loader := s.loader.setPerms (grantAdmitted a s.loader.perms).2 }

/-- The loader's part of a load is `install`; what is added here are the imports. -/
def load (debugAssertions : Bool) (x : ElfFile) (imports : List CStr) (s : State) :
    (EspErr × Option ElfLoader.Slot) × State :=
  match loadChecks debugAssertions x s.loader with
  | .error rc => ((rc, none), s)
  | .ok a =>
    let (reply, loader) := install x a s.loader
    if (grantAdmitted a s.loader.perms).1 ≠ espOk then (reply, { s with loader })
    else
      let links := imports.filterMap fun name => (relocating a s).resolve a.signed name
      let s' := syscallSetCurrentApp none (-1) (relocating a s)
      (reply,
        { s' with
          loader
          linked := if reply.1 = espOk then Function.update s.linked a.slot links else s.linked })

/-- The slot of a handle is the one that it was loaded into. -/
def unload (answers : Answers) (handle : Option ElfLoader.Slot) (s : State) : EspErr × State :=
  let (reply, loader) := elfAppUnload handle s.loader
  match handle with
  | none => (reply, s)
  | some i =>
    let (_, s') := s.perform answers i (ofStreams (AppFiles.syscallClearAppStorage i))
    (reply, { s' with loader, linked := Function.update s.linked i [] })

/-- An app calls a storage function that has been linked into it, bound to the slot `k`. -/
def callLinked (answers : Answers) (i : ElfLoader.Slot) (k : ℕ) (q : StorageCall) (s : State) : List Path × State :=
  if (s.loader.apps i).loaded ∧ .bound q.function k ∈ s.linked i then s.perform answers k (q.body k)
  else ([], s)

inductive LinkOp
  | setCurrentApp (id : Option CStr) (slot : Int32)
  | grant (appId : CStr) (perms : UInt32)
  | revoke (appId : CStr) (perms : UInt32)
  | load (x : ElfFile) (imports : List CStr)
  | unload (answers : Answers) (handle : Option ElfLoader.Slot)
  | call (answers : Answers) (i : ElfLoader.Slot) (k : ℕ) (q : StorageCall)

/-- A call of a storage function replies with the paths that it acts on. -/
def LinkOp.Reply : LinkOp → Type
  | .setCurrentApp .. => Unit
  | .grant .. | .revoke .. | .unload .. => EspErr
  | .load .. => EspErr × Option ElfLoader.Slot
  | .call .. => List Path

def links (debugAssertions : Bool) : Component LinkOp LinkOp.Reply State where
  step
    | .setCurrentApp id slot, s => ((), syscallSetCurrentApp id slot s)
    | .grant appId perms, s =>
      let (reply, perms) := permissionsGrant appId perms s.loader.perms
      (reply, { s with loader := s.loader.setPerms perms })
    | .revoke appId perms, s =>
      let (reply, perms) := permissionsRevoke appId perms s.loader.perms
      (reply, { s with loader := s.loader.setPerms perms })
    | .load x imports, s => load debugAssertions x imports s
    | .unload answers handle, s => unload answers handle s
    | .call answers i k q, s => callLinked answers i k q s

end ThistleOS.AppLinks
