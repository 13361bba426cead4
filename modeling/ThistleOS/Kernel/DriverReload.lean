import ThistleOS.CString
import ThistleOS.Component
import ThistleOS.EspErr
import Mathlib.Data.List.FinRange
import Mathlib.Logic.Function.Basic

/-!
# Reloading drivers

The drivers that can be replaced while the system runs, and the calls to the platform that are made
for them. What the hooks of the platform return comes with each call.
-/

namespace ThistleOS.DriverReload

def maxReloadable : Nat := 16

def maxHalType : UInt8 := 9

/-- The bytes of a path and of a name that are kept. -/
def pathMax : Nat := 127
def nameMax : Nat := 31

inductive DriverState
  | empty
  | loaded
  | running
  | stopped
  | error
  deriving DecidableEq

structure ReloadableDriver where
  id : UInt32
  path : CStr
  name : CStr
  halType : UInt8
  state : DriverState
  loadCount : UInt32
  lastError : EspErr

/-- A driver that has just been registered. -/
def ReloadableDriver.registered (id : UInt32) (path name : CStr) (halType : UInt8) :
    ReloadableDriver :=
  ⟨id, path, name, halType, .loaded, 0, 0⟩

def ReloadableDriver.fail (rc : EspErr) (drv : ReloadableDriver) : ReloadableDriver :=
  { drv with state := .error, lastError := rc }

structure DriverReloadState where
  drivers : Fin maxReloadable → Option ReloadableDriver
  driverCount : Nat
  nextId : UInt32
  totalReloads : UInt32

/-- What the hooks of the platform return. -/
structure Hooks where
  load : EspErr
  unload : EspErr
  start : EspErr
  stop : EspErr
  preReload : EspErr
  postReload : EspErr

/-- A platform call that succeeded, or the end of a registration. -/
inductive Event
  | load
  | start
  | stop
  | unload
  | unregister
  deriving DecidableEq

abbrev Trace := List (CStr × Event)

/-! ### The calls for one driver -/

namespace ReloadableDriver

def load (hooks : Hooks) (drv : ReloadableDriver) : EspErr × List Event × ReloadableDriver :=
  match drv.state with
  | .empty | .running => (espErrInvalidState, [], drv)
  | .loaded =>
    if hooks.load ≠ espOk then (hooks.load, [], drv.fail hooks.load)
    else (espOk, [.load], { drv with loadCount := drv.loadCount + 1 })
  | .stopped | .error =>
    if hooks.load ≠ espOk then (hooks.load, [], drv.fail hooks.load)
    else
      (espOk, [.load],
        { drv with state := .loaded, loadCount := drv.loadCount + 1, lastError := 0 })

def unload (hooks : Hooks) (drv : ReloadableDriver) : EspErr × List Event × ReloadableDriver :=
  match drv.state with
  | .running | .empty => (espErrInvalidState, [], drv)
  | .loaded | .stopped | .error =>
    if hooks.unload ≠ espOk then (hooks.unload, [], drv.fail hooks.unload)
    else (espOk, [.unload], { drv with state := .loaded, lastError := 0 })

/-- The part of a reload after the driver has been stopped; `calls` have been made before it. -/
def replace (hooks : Hooks) (calls : List Event) (drv : ReloadableDriver) :
    EspErr × List Event × ReloadableDriver :=
  if hooks.preReload ≠ espOk then (hooks.preReload, calls, drv.fail hooks.preReload)
  else if hooks.unload ≠ espOk then (hooks.unload, calls, drv.fail hooks.unload)
  else if hooks.load ≠ espOk then (hooks.load, calls ++ [.unload], drv.fail hooks.load)
  else if hooks.postReload ≠ espOk then
    (hooks.postReload, calls ++ [.unload, .load], drv.fail hooks.postReload)
  else
    (espOk, calls ++ [.unload, .load],
      { drv with state := .loaded, loadCount := drv.loadCount + 1, lastError := 0 })

def reload (hooks : Hooks) (drv : ReloadableDriver) : EspErr × List Event × ReloadableDriver :=
  match drv.state with
  | .empty => (espErrInvalidState, [], drv)
  | .running =>
    if hooks.stop ≠ espOk then (hooks.stop, [], drv.fail hooks.stop)
    else replace hooks [.stop] { drv with state := .stopped }
  | .loaded | .stopped | .error => replace hooks [] drv

def start (hooks : Hooks) (drv : ReloadableDriver) : EspErr × List Event × ReloadableDriver :=
  if drv.state ≠ .loaded then (espErrInvalidState, [], drv)
  else if hooks.start ≠ espOk then (hooks.start, [], drv.fail hooks.start)
  else (espOk, [.start], { drv with state := .running, lastError := 0 })

def stop (hooks : Hooks) (drv : ReloadableDriver) : EspErr × List Event × ReloadableDriver :=
  if drv.state ≠ .running then (espErrInvalidState, [], drv)
  else if hooks.stop ≠ espOk then (hooks.stop, [], drv.fail hooks.stop)
  else (espOk, [.stop], { drv with state := .stopped, lastError := 0 })

end ReloadableDriver

/-! ### The table of drivers -/

namespace DriverReloadState

def init : DriverReloadState := ⟨fun _ => none, 0, 1, 0⟩

/-- The first slot with a driver that satisfies `p`. -/
def findDriver (p : ReloadableDriver → Bool) (s : DriverReloadState) : Option (Fin maxReloadable) :=
  (List.finRange maxReloadable).find? fun i => (s.drivers i).any p

def findFreeSlot (s : DriverReloadState) : Option (Fin maxReloadable) :=
  (List.finRange maxReloadable).find? fun i => (s.drivers i).isNone

def setDriver (i : Fin maxReloadable) (drv : Option ReloadableDriver) (s : DriverReloadState) :
    DriverReloadState :=
  { s with drivers := Function.update s.drivers i drv }

/-- Change the driver with an id. The result has the platform calls with the path of the driver. -/
def withDriver (id : UInt32) (f : ReloadableDriver → EspErr × List Event × ReloadableDriver)
    (s : DriverReloadState) : EspErr × Trace × DriverReloadState :=
  match s.findDriver (·.id == id) with
  | none => (espErrNotFound, [], s)
  | some i =>
    match s.drivers i with
    | none => (espErrNotFound, [], s)
    | some drv =>
      ((f drv).1, (f drv).2.1.map (drv.path, ·), s.setDriver i (some (f drv).2.2))

end DriverReloadState

open DriverReloadState

/-- The reply is the id of the driver, or an error code. -/
def register (path name : Option CStr) (halType : UInt8) (s : DriverReloadState) :
    Int32 × DriverReloadState :=
  match path, name with
  | some path, some name =>
    if maxHalType < halType then (espErrInvalidArg, s)
    else
      let path := path.take pathMax
      let name := name.take nameMax
      match s.findDriver (·.path == path) with
      | some i =>
        let id := ((s.drivers i).map ReloadableDriver.id).getD 0
        (id.toInt32, s.setDriver i (some (.registered id path name halType)))
      | none =>
        match s.findFreeSlot with
        | none => (espErrNoMem, s)
        | some i =>
          (s.nextId.toInt32,
            { s.setDriver i (some (.registered s.nextId path name halType)) with
              driverCount := s.driverCount + 1
              nextId := s.nextId + 1 })
  | _, _ => (espErrInvalidArg, s)

def unregister (id : UInt32) (s : DriverReloadState) : EspErr × Trace × DriverReloadState :=
  match s.findDriver (·.id == id) with
  | none => (espErrNotFound, [], s)
  | some i =>
    match s.drivers i with
    | none => (espErrNotFound, [], s)
    | some drv =>
      if drv.state = .running then (espErrInvalidState, [], s)
      else
        (espOk, [(drv.path, .unregister)],
          { s.setDriver i none with driverCount := s.driverCount - 1 })

/-- A call that devices do not support, because readers of the old driver may be left. -/
def replacing (supported : Bool)
    (call : DriverReloadState → EspErr × Trace × DriverReloadState) (s : DriverReloadState) :
    EspErr × Trace × DriverReloadState :=
  if supported then call s else (espErrNotSupported, [], s)

def load (supported : Bool) (hooks : Hooks) (id : UInt32) :
    DriverReloadState → EspErr × Trace × DriverReloadState :=
  replacing supported (withDriver id (ReloadableDriver.load hooks))

def unload (supported : Bool) (hooks : Hooks) (id : UInt32) :
    DriverReloadState → EspErr × Trace × DriverReloadState :=
  replacing supported (withDriver id (ReloadableDriver.unload hooks))

def reload (supported : Bool) (hooks : Hooks) (id : UInt32) :
    DriverReloadState → EspErr × Trace × DriverReloadState :=
  replacing supported fun s =>
    let (rc, calls, s) := withDriver id (ReloadableDriver.reload hooks) s
    (rc, calls, if rc = espOk then { s with totalReloads := s.totalReloads + 1 } else s)

def start (hooks : Hooks) (id : UInt32) : DriverReloadState → EspErr × Trace × DriverReloadState :=
  withDriver id (ReloadableDriver.start hooks)

def stop (hooks : Hooks) (id : UInt32) : DriverReloadState → EspErr × Trace × DriverReloadState :=
  withDriver id (ReloadableDriver.stop hooks)

inductive ReloadOp
  | register (path name : Option CStr) (halType : UInt8)
  | unregister (id : UInt32)
  | load (hooks : Hooks) (id : UInt32)
  | unload (hooks : Hooks) (id : UInt32)
  | reload (hooks : Hooks) (id : UInt32)
  | start (hooks : Hooks) (id : UInt32)
  | stop (hooks : Hooks) (id : UInt32)

/-- Driver reloading as a component; `supported` says whether the target can replace drivers. A
reply comes with the platform calls that succeeded. -/
def driverReload (supported : Bool) :
    Component ReloadOp (fun _ => Int32 × Trace) DriverReloadState where
  step
    | .register path name halType, s =>
      (((register path name halType s).1, []), (register path name halType s).2)
    | .unregister id, s => (((unregister id s).1, (unregister id s).2.1), (unregister id s).2.2)
    | .load hooks id, s =>
      let r := load supported hooks id s
      ((r.1, r.2.1), r.2.2)
    | .unload hooks id, s =>
      let r := unload supported hooks id s
      ((r.1, r.2.1), r.2.2)
    | .reload hooks id, s =>
      let r := reload supported hooks id s
      ((r.1, r.2.1), r.2.2)
    | .start hooks id, s =>
      let r := start hooks id s
      ((r.1, r.2.1), r.2.2)
    | .stop hooks id, s =>
      let r := stop hooks id s
      ((r.1, r.2.1), r.2.2)

end ThistleOS.DriverReload
