import ThistleOS.Component
import ThistleOS.EspErr
import Mathlib.Data.List.FinRange
import Mathlib.Logic.Function.Basic

/-!
# The app manager

The slots of the registered apps and the handle of the one in the foreground. The callbacks of the
apps, the free memory, the clock and the event bus belong to an environment that is a parameter: it
answers every call as it likes.
-/

namespace ThistleOS.AppManager

def appSlotsMax : Nat := 20

def appMemoryThresholdBytes : Nat := 50 * 1024

def appHandleInvalid : Int := -1

inductive AppState
  | unloaded
  | loading
  | running
  | backgrounded
  | suspended
  deriving DecidableEq

/-- An app entry: which one it is, and the id in its manifest, if it has a manifest with an id. A
callback that an entry leaves out does nothing. -/
structure AppEntry where
  key : Nat
  manifestId : Option String
  deriving DecidableEq

structure AppSlot where
  entry : Option AppEntry
  state : AppState
  handle : Int
  lastUsedMs : UInt32

namespace AppSlot

def empty : AppSlot := ⟨none, .unloaded, appHandleInvalid, 0⟩

def appId (slot : AppSlot) : String := (slot.entry.bind AppEntry.manifestId).getD ""

def setState (state : AppState) (slot : AppSlot) : AppSlot := { slot with state }

def touch (now : UInt32) (slot : AppSlot) : AppSlot := { slot with lastUsedMs := now }

@[simp] lemma entry_setState (state : AppState) (slot : AppSlot) :
    (slot.setState state).entry = slot.entry := rfl

@[simp] lemma state_setState (state : AppState) (slot : AppSlot) :
    (slot.setState state).state = state := rfl

@[simp] lemma handle_setState (state : AppState) (slot : AppSlot) :
    (slot.setState state).handle = slot.handle := rfl

@[simp] lemma entry_touch (now : UInt32) (slot : AppSlot) : (slot.touch now).entry = slot.entry := rfl

@[simp] lemma state_touch (now : UInt32) (slot : AppSlot) : (slot.touch now).state = slot.state := rfl

@[simp] lemma handle_touch (now : UInt32) (slot : AppSlot) :
    (slot.touch now).handle = slot.handle := rfl

end AppSlot

def isLauncherId (appId : String) : Bool :=
  appId == "com.thistle.launcher" || appId == "com.thistle.tk_launcher"

/-- The slots from `slotCount` on have never been used. Handles are counted from zero, one for each
slot, so that the counter does not wrap. -/
structure Manager where
  slots : Fin appSlotsMax → AppSlot
  slotCount : Nat
  foreground : Int
  nextHandle : Int

/-! ### The environment -/

inductive Callback
  | start
  | pause
  | resume
  | destroy
  deriving DecidableEq

inductive AppEvent
  | launched
  | stopped
  | switched

structure Env (σ : Type) where
  onCreate : AppEntry → σ → EspErr × σ
  call : Callback → AppEntry → σ → σ
  freeSize : σ → Nat × σ
  uptimeMs : σ → UInt32 × σ
  publish : AppEvent → Int → σ → σ

namespace Manager

def new : Manager := ⟨fun _ => .empty, 0, appHandleInvalid, 0⟩

def setSlot (i : Fin appSlotsMax) (slot : AppSlot) (m : Manager) : Manager :=
  { m with slots := Function.update m.slots i slot }

def setState (i : Fin appSlotsMax) (state : AppState) (m : Manager) : Manager :=
  m.setSlot i ((m.slots i).setState state)

def setForeground (handle : Int) (m : Manager) : Manager := { m with foreground := handle }

/-- The first slot in use that satisfies `p`. -/
def findSlot (p : AppSlot → Bool) (m : Manager) : Option (Fin appSlotsMax) :=
  (List.finRange appSlotsMax).find? fun i =>
    decide (i.val < m.slotCount) && ((m.slots i).entry.isSome && p (m.slots i))

def findSlotByHandle (handle : Int) (m : Manager) : Option (Fin appSlotsMax) :=
  if handle = appHandleInvalid then none else m.findSlot fun slot => slot.handle == handle

def findSlotById (appId : String) (m : Manager) : Option (Fin appSlotsMax) :=
  m.findSlot fun slot => slot.appId == appId

def register (entry : Option AppEntry) (m : Manager) : EspErr × Manager :=
  match entry with
  | none => (espErrInvalidArg, m)
  | some e =>
    match e.manifestId with
    | none => (espErrInvalidArg, m)
    | some appId =>
      if (m.findSlotById appId).isSome then (espOk, m)
      else if h : m.slotCount < appSlotsMax then
        (espOk,
          { m.setSlot ⟨m.slotCount, h⟩ ⟨some e, .unloaded, m.nextHandle, 0⟩ with
            slotCount := m.slotCount + 1
            nextHandle := m.nextHandle + 1 })
      else (espErrNoMem, m)

/-- An app in the background that is not a launcher. -/
def evictable (m : Manager) (slot : AppSlot) : Bool :=
  slot.entry.isSome && slot.handle != m.foreground && !isLauncherId slot.appId &&
    (slot.state == .backgrounded || slot.state == .suspended)

/-- The slot that was used least recently, with the time of its use, among those seen so far. -/
def older (m : Manager) (acc : Option (Fin appSlotsMax) × UInt32) (i : Fin appSlotsMax) :
    Option (Fin appSlotsMax) × UInt32 :=
  if decide (i.val < m.slotCount) && m.evictable (m.slots i) && (m.slots i).lastUsedMs < acc.2 then
    (some i, (m.slots i).lastUsedMs)
  else acc

def oldest (m : Manager) : Option (Fin appSlotsMax) :=
  ((List.finRange appSlotsMax).foldl m.older (none, 0xFFFFFFFF)).1

end Manager

section Calls

variable {σ : Type} (E : Env σ)

/-- Call back the app in a slot, if there is one. -/
def callAt (cb : Callback) (i : Fin appSlotsMax) (w : Manager × σ) : Manager × σ :=
  match (w.1.slots i).entry with
  | some e => (w.1, E.call cb e w.2)
  | none => w

def evictLru (w : Manager × σ) : Int × (Manager × σ) :=
  match w.1.oldest with
  | none => (appHandleInvalid, w)
  | some i =>
    let handle := (w.1.slots i).handle
    let w := callAt E .destroy i w
    (handle, (w.1.setSlot i .empty, E.publish .stopped handle w.2))

/-- Pause the foreground app if it is a launcher, and destroy it otherwise. The foreground handle
still names it. -/
def leaveForeground (w : Manager × σ) : Manager × σ :=
  match w.1.findSlotByHandle w.1.foreground with
  | none => w
  | some fg =>
    if (w.1.slots fg).state = .running then
      if isLauncherId (w.1.slots fg).appId then
        callAt E .pause fg (w.1.setState fg .backgrounded, w.2)
      else
        callAt E .destroy fg (w.1.setState fg .unloaded, w.2)
    else w

def evictIfLow (w : Manager × σ) : Manager × σ :=
  let (free, s) := E.freeSize w.2
  if free < appMemoryThresholdBytes then (evictLru E (w.1, s)).2 else (w.1, s)

/-- A slot without an entry has nothing to create. -/
def create (i : Fin appSlotsMax) (w : Manager × σ) : EspErr × (Manager × σ) :=
  match (w.1.slots i).entry with
  | some e => let (rc, s) := E.onCreate e w.2; (rc, (w.1, s))
  | none => (espOk, w)

def restoreForeground (prevHandle : Int) (m : Manager) : Manager :=
  let m := m.setForeground prevHandle
  match m.findSlotByHandle prevHandle with
  | some fg => m.setState fg .running
  | none => m

/-- Make the target app run; the event says whether it is newly launched. -/
def bringUp (target : Fin appSlotsMax) (prevHandle : Int) (w : Manager × σ) :
    EspErr × AppEvent × (Manager × σ) :=
  match (w.1.slots target).state with
  | .unloaded =>
    let (rc, w) := create E target (w.1.setState target .loading, w.2)
    if rc = espOk then
      (espOk, .launched, callAt E .start target (w.1.setState target .running, w.2))
    else
      (rc, .launched, (restoreForeground prevHandle (w.1.setState target .unloaded), w.2))
  | .backgrounded | .suspended =>
    (espOk, .switched, callAt E .resume target (w.1.setState target .running, w.2))
  | .loading | .running => (espOk, .switched, (w.1.setState target .running, w.2))

/-- Stamp the target and put it in the foreground. -/
def enterForeground (target : Fin appSlotsMax) (targetHandle : Int) (event : AppEvent)
    (w : Manager × σ) : Manager × σ :=
  let (now, s) := E.uptimeMs w.2
  ((w.1.setSlot target ((w.1.slots target).touch now)).setForeground targetHandle,
    E.publish event targetHandle s)

def launch (appId : String) (w : Manager × σ) : EspErr × (Manager × σ) :=
  match w.1.findSlotById appId with
  | none => (espErrNotFound, w)
  | some target =>
    let targetHandle := (w.1.slots target).handle
    if w.1.foreground = targetHandle then (espOk, w)
    else
      let (rc, event, w') := bringUp E target w.1.foreground (evictIfLow E (leaveForeground E w))
      if rc = espOk then (espOk, enterForeground E target targetHandle event w') else (rc, w')

/-- The id is handed on as a C string. -/
def switchTo (handle : Int) (w : Manager × σ) : EspErr × (Manager × σ) :=
  match w.1.findSlotByHandle handle with
  | none => (espErrNotFound, w)
  | some i =>
    if (w.1.slots i).appId.toList.contains '\x00' then (espErrInvalidArg, w)
    else launch E (w.1.slots i).appId w

def clearForeground (handle : Int) (m : Manager) : Manager :=
  if m.foreground = handle then m.setForeground appHandleInvalid else m

def suspend (handle : Int) (w : Manager × σ) : EspErr × (Manager × σ) :=
  match w.1.findSlotByHandle handle with
  | none => (espErrNotFound, w)
  | some i =>
    match (w.1.slots i).state with
    | .running | .backgrounded =>
      let w := callAt E .pause i w
      (espOk, (clearForeground handle (w.1.setState i .suspended), w.2))
    | .suspended => (espOk, w)
    | .unloaded | .loading => (espErrInvalidState, w)

def kill (handle : Int) (w : Manager × σ) : EspErr × (Manager × σ) :=
  match w.1.findSlotByHandle handle with
  | none => (espErrNotFound, w)
  | some i =>
    if (w.1.slots i).state = .unloaded then (espErrInvalidState, w)
    else
      let w := callAt E .destroy i w
      (espOk, ((clearForeground handle w.1).setSlot i .empty, E.publish .stopped handle w.2))

inductive AppOp
  | register (entry : Option AppEntry)
  | launch (appId : String)
  | switchTo (handle : Int)
  | suspend (handle : Int)
  | kill (handle : Int)
  | evictLru

/-- An eviction replies with a handle, every other call with an error code. -/
def AppOp.Reply : AppOp → Type
  | .evictLru => Int
  | _ => EspErr

/-- The app manager as a component. -/
def manager : Component AppOp AppOp.Reply (Manager × σ) where
  step
    | .register entry, w => ((w.1.register entry).1, ((w.1.register entry).2, w.2))
    | .launch appId, w => launch E appId w
    | .switchTo handle, w => switchTo E handle w
    | .suspend handle, w => suspend E handle w
    | .kill handle, w => kill E handle w
    | .evictLru, w => evictLru E w

end Calls

end ThistleOS.AppManager
