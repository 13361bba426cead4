import ThistleOS.CString
import ThistleOS.Kernel.Permissions
import Mathlib.Data.List.FinRange
import Mathlib.Logic.Function.Basic

/-!
# The ELF loader

The slots of the loaded apps. Loading an app installs its permissions under the id in its manifest,
or under its path if it has none. The file system, the manifest reader, the signature check and the
relocation of the image belong to the file that is loaded: they answer as they like.
-/

namespace ThistleOS.Permissions

/-! ### The calls that take C strings -/

def permissionsGrant (appId : CStr) (perms : UInt32) (t : PermTable) : EspErr × PermTable :=
  match appId.toStr with
  | some id => grant id perms t
  | none => (espErrInvalidArg, t)

def permissionsRevoke (appId : CStr) (perms : UInt32) (t : PermTable) : EspErr × PermTable :=
  match appId.toStr with
  | some id => revoke id perms t
  | none => (espErrInvalidArg, t)

def permissionsGet (appId : CStr) (t : PermTable) : UInt32 :=
  match appId.toStr with
  | some id => get id t
  | none => 0

end ThistleOS.Permissions

namespace ThistleOS.ElfLoader

open Permissions

def maxLoadedApps : Nat := 16

def elfMaxSizeBytes : Nat := 1024 * 1024

def permAll : UInt32 := 0x7F

def permIpc : UInt32 := (1 : UInt32) <<< 6

/-- The bytes of an app id that a slot keeps. -/
def appIdMax : Nat := 63

abbrev Slot := Fin maxLoadedApps


structure ElfAppHandle where
  loaded : Bool
  running : Bool
  appId : CStr
  grantedPermissions : UInt32

def ElfAppHandle.empty : ElfAppHandle := ⟨false, false, .ofBuffer [], 0⟩

/-- The slots of the loader and the permission table of the kernel. -/
structure ElfLoaderState where
  apps : Slot → ElfAppHandle
  perms : PermTable

namespace ElfLoaderState

def new : ElfLoaderState := ⟨fun _ => .empty, .init⟩

def freeSlot (s : ElfLoaderState) : Option Slot :=
  (List.finRange maxLoadedApps).find? fun i => !(s.apps i).loaded

def setApp (i : Slot) (app : ElfAppHandle) (s : ElfLoaderState) : ElfLoaderState :=
  { s with apps := Function.update s.apps i app }

def setPerms (perms : PermTable) (s : ElfLoaderState) : ElfLoaderState := { s with perms }

end ElfLoaderState

/-- The id and the permissions of a manifest; the id is in a buffer of 64 bytes. -/
structure CManifest where
  id : List UInt8
  permissions : UInt32

/-- A file to load, and what the rest of the system answers about it. The manifest is parsed once
more after the relocation, to see whether it suits the device. -/
structure ElfFile where
  path : CStr
  contents : Option (List UInt8)
  heapCapsMalloc : Bool
  manifest : Option CManifest
  signature : Option (List UInt8)
  signingVerify : List UInt8 → List UInt8 → EspErr
  espElfInit : EspErr
  espElfRelocate : EspErr
  manifestIsCompatible : Option Bool

def effectiveAppPermissions (signed : Bool) (requested : UInt32) : UInt32 :=
  if signed then requested else permIpc

namespace ElfFile

def requestedPermissions (x : ElfFile) : UInt32 := (x.manifest.map CManifest.permissions).getD 0

/-- The name that the permissions are granted to. -/
def permId (x : ElfFile) : CStr :=
  match x.manifest with
  | some m => if (CStr.ofBuffer m.id).bytes = [] then x.path else (CStr.ofBuffer m.id).take appIdMax
  | none => x.path

def sigRet (x : ElfFile) (data : List UInt8) : EspErr :=
  match x.signature with
  | some sig => if sig.length = 64 then x.signingVerify data sig else espErrInvalidSize
  | none => espErrNotFound

/-- An unsigned file is accepted by a debug build only. -/
def signed (debugAssertions : Bool) (x : ElfFile) (data : List UInt8) : Except EspErr Bool :=
  if x.sigRet data = espOk then .ok true
  else if x.sigRet data = espErrNotFound then
    if debugAssertions then .ok false else .error (x.sigRet data)
  else .error (x.sigRet data)

/-- What is checked of a file before its permissions are granted; the result says whether it is
signed. -/
def check (debugAssertions : Bool) (x : ElfFile) : Except EspErr Bool :=
  match x.contents with
  | none => .error espErrNotFound
  | some data =>
    if data.length = 0 ∨ elfMaxSizeBytes < data.length then .error espErrInvalidSize
    else if !x.heapCapsMalloc then .error espErrNoMem
    else
      match x.signed debugAssertions data with
      | .error rc => .error rc
      | .ok signed => if x.espElfInit ≠ espOk then .error x.espElfInit else .ok signed

end ElfFile

/-- An app that is about to receive its permissions. -/
structure Admitted where
  slot : Slot
  permId : CStr
  signed : Bool
  requested : UInt32

def Admitted.granted (a : Admitted) : UInt32 := effectiveAppPermissions a.signed a.requested

/-- A load up to the grant. -/
def loadChecks (debugAssertions : Bool) (x : ElfFile) (s : ElfLoaderState) : Except EspErr Admitted :=
  if x.path.toStr.isNone then .error espErrInvalidArg
  else
    match s.freeSlot with
    | none => .error espErrNoMem
    | some slot =>
      (x.check debugAssertions).map fun signed => ⟨slot, x.permId, signed, x.requestedPermissions⟩

/-- A load from the grant on. Stale grants of the identity are cleared first, and an app that cannot
be relocated or does not suit the device loses its permissions again. -/
def install (x : ElfFile) (a : Admitted) (s : ElfLoaderState) :
    (EspErr × Option Slot) × ElfLoaderState :=
  let cleared := (permissionsRevoke a.permId permAll s.perms).2
  let (grantRet, perms) :=
    if a.granted = 0 then (espOk, cleared) else permissionsGrant a.permId a.granted cleared
  if grantRet ≠ espOk then ((grantRet, none), s.setPerms perms)
  else if x.espElfRelocate ≠ espOk then
    ((x.espElfRelocate, none), s.setPerms (permissionsRevoke a.permId a.granted perms).2)
  else if x.manifestIsCompatible = some false then
    ((espErrNotSupported, none), s.setPerms (permissionsRevoke a.permId a.granted perms).2)
  else
    ((espOk, some a.slot),
      (s.setPerms perms).setApp a.slot ⟨true, false, a.permId.take appIdMax, a.granted⟩)

def elfAppLoad (debugAssertions : Bool) (x : ElfFile) (s : ElfLoaderState) :
    (EspErr × Option Slot) × ElfLoaderState :=
  match loadChecks debugAssertions x s with
  | .error rc => ((rc, none), s)
  | .ok a => install x a s

/-- The loader's part of starting an app; `created` says whether its task could be created. -/
def elfAppStart (handle : Slot) (created : Bool) (s : ElfLoaderState) : EspErr × ElfLoaderState :=
  if !(s.apps handle).loaded then (espErrInvalidState, s)
  else if (s.apps handle).running then (espErrInvalidState, s)
  else if !created then (espErrNoMem, s)
  else (espOk, s.setApp handle { s.apps handle with running := true })

def elfAppUnload (handle : Option Slot) (s : ElfLoaderState) : EspErr × ElfLoaderState :=
  match handle with
  | none => (espErrInvalidArg, s)
  | some i =>
    let app := s.apps i
    let perms :=
      if app.grantedPermissions ≠ 0 ∧ app.appId.bytes ≠ [] then
        (permissionsRevoke app.appId app.grantedPermissions s.perms).2
      else s.perms
    (espOk, (s.setPerms perms).setApp i .empty)

/-! ### What a load does to the slots -/

section Load

variable {debug : Bool} {x : ElfFile} {s : ElfLoaderState} {i j : Slot}

namespace ElfLoaderState

@[simp] lemma apps_setPerms (perms : PermTable) : (s.setPerms perms).apps = s.apps := rfl

@[simp] lemma perms_setPerms (perms : PermTable) : (s.setPerms perms).perms = perms := rfl

@[simp] lemma perms_setApp (app : ElfAppHandle) : (s.setApp i app).perms = s.perms := rfl

@[simp] lemma apps_setApp_self (app : ElfAppHandle) : (s.setApp i app).apps i = app :=
  Function.update_self _ _ _

lemma apps_setApp_of_ne (h : j ≠ i) (app : ElfAppHandle) :
    (s.setApp i app).apps j = s.apps j := Function.update_of_ne h _ _

lemma freeSlot_eq_some (h : s.freeSlot = some i) : (s.apps i).loaded = false := by
  have hp := List.find?_some h
  simpa using hp

end ElfLoaderState

lemma signed_error {data : List UInt8} {rc : EspErr} (h : x.signed debug data = .error rc) :
    rc ≠ espOk := by
  rw [ElfFile.signed] at h
  split_ifs at h with hok
  · obtain rfl := Except.error.inj h
    exact hok
  · obtain rfl := Except.error.inj h
    exact hok

lemma check_error {rc : EspErr} (h : x.check debug = .error rc) : rc ≠ espOk := by
  rw [ElfFile.check] at h
  cases hdata : x.contents with
  | none =>
    rw [hdata] at h
    obtain rfl := Except.error.inj h
    decide
  | some data =>
    cases hsigned : x.signed debug data with
    | error rc' =>
      simp only [hdata, hsigned] at h
      split_ifs at h
      · obtain rfl := Except.error.inj h
        decide
      · obtain rfl := Except.error.inj h
        decide
      · obtain rfl := Except.error.inj h
        exact signed_error hsigned
    | ok signed =>
      simp only [hdata, hsigned] at h
      split_ifs at h with hsize hmalloc hinit
      · obtain rfl := Except.error.inj h
        decide
      · obtain rfl := Except.error.inj h
        decide
      · obtain rfl := Except.error.inj h
        exact hinit

lemma loadChecks_error {rc : EspErr} (h : loadChecks debug x s = .error rc) : rc ≠ espOk := by
  rw [loadChecks] at h
  split_ifs at h
  · obtain rfl := Except.error.inj h
    decide
  · cases hfree : s.freeSlot with
    | none =>
      rw [hfree] at h
      obtain rfl := Except.error.inj h
      decide
    | some slot =>
      rw [hfree] at h
      cases hcheck : x.check debug with
      | error rc' =>
        rw [hcheck] at h
        obtain rfl := Except.error.inj h
        exact check_error hcheck
      | ok signed =>
        rw [hcheck] at h
        cases h

/-- A file that passes the checks is admitted into a free slot. -/
lemma loadChecks_ok {a : Admitted} (h : loadChecks debug x s = .ok a) :
    x.check debug = .ok a.signed ∧ (s.apps a.slot).loaded = false ∧
      a.permId = x.permId ∧ a.requested = x.requestedPermissions := by
  rw [loadChecks] at h
  split_ifs at h
  cases hfree : s.freeSlot with
  | none =>
    rw [hfree] at h
    cases h
  | some slot =>
    rw [hfree] at h
    cases hcheck : x.check debug with
    | error rc =>
      rw [hcheck] at h
      cases h
    | ok signed =>
      rw [hcheck] at h
      obtain rfl := Except.ok.inj h
      exact ⟨rfl, ElfLoaderState.freeSlot_eq_some hfree, rfl, rfl⟩

lemma install_apps (a : Admitted) :
    ((install x a s).1.1 ≠ espOk ∧ (install x a s).1.2 = none ∧ (install x a s).2.apps = s.apps) ∨
      ((install x a s).1 = (espOk, some a.slot) ∧ (install x a s).2.apps =
        Function.update s.apps a.slot ⟨true, false, a.permId.take appIdMax, a.granted⟩) := by
  simp only [install]
  generalize (if a.granted = 0 then (espOk, (permissionsRevoke a.permId permAll s.perms).2)
    else permissionsGrant a.permId a.granted (permissionsRevoke a.permId permAll s.perms).2) = r
  obtain ⟨grantRet, perms⟩ := r
  simp only
  split_ifs with hgrant hrelocate hcompat
  · exact .inl ⟨hgrant, rfl, rfl⟩
  · exact .inl ⟨hrelocate, rfl, rfl⟩
  · exact .inl ⟨show espErrNotSupported ≠ espOk by decide, rfl, rfl⟩
  · exact .inr ⟨rfl, rfl⟩

/-- A load that succeeds fills a free slot, and one that fails leaves the slots alone. -/
lemma elfAppLoad_apps (debug : Bool) (x : ElfFile) (s : ElfLoaderState) :
    ((elfAppLoad debug x s).1.1 ≠ espOk ∧ (elfAppLoad debug x s).1.2 = none ∧
      (elfAppLoad debug x s).2.apps = s.apps) ∨
    ∃ i id granted, (s.apps i).loaded = false ∧ (elfAppLoad debug x s).1 = (espOk, some i) ∧
      (elfAppLoad debug x s).2.apps = Function.update s.apps i ⟨true, false, id, granted⟩ := by
  rw [elfAppLoad]
  cases hadmit : loadChecks debug x s with
  | error rc => exact .inl ⟨loadChecks_error hadmit, rfl, rfl⟩
  | ok a =>
    rcases install_apps (x := x) (s := s) a with h | ⟨hreply, happs⟩
    · exact .inl h
    · exact .inr ⟨a.slot, _, _, (loadChecks_ok hadmit).2.1, hreply, happs⟩

end Load

inductive LoaderOp
  | load (x : ElfFile)
  | unload (handle : Option Slot)

/-- A load that succeeds replies with a handle, too. -/
def LoaderOp.Reply : LoaderOp → Type
  | .load _ => EspErr × Option Slot
  | .unload _ => EspErr

/-- The ELF loader as a component. -/
def loader (debugAssertions : Bool) : Component LoaderOp LoaderOp.Reply ElfLoaderState where
  step
    | .load x, s => elfAppLoad debugAssertions x s
    | .unload handle, s => elfAppUnload handle s

end ThistleOS.ElfLoader
