import ThistleOS.CString
import ThistleOS.EspErr
import ThistleOS.Mutex
import ThistleOS.PowerLoss.Prog

/-!
# The driver loader

Drivers are loaded from files, and each may ask for its configuration while it initialises. The answer needs the
mutex of the loader: the loader of the simulator has given it back by then, the one of the device holds it.
-/

open PowerLoss (Sig Prog)

namespace ThistleOS.DriverLoader

def maxLoadedDrvs : ℕ := 8
def maxDrvSize : ℕ := 512 * 1024

/-- The bytes of a path that are kept. -/
def pathMax : ℕ := 127

def emptyConfig : CStr := ⟨utf8 "\x7b\x7d", by decide⟩

structure LoadedDriver where
  path : CStr
  loaded : Bool

structure DriverLoaderState where
  drivers : ℕ → LoadedDriver
  count : ℕ
  currentConfig : CStr

/-- What the initialisation of a driver may call. -/
def driverCalls : Sig := ⟨Unit, fun _ => CStr⟩

abbrev DriverInit := Prog driverCalls Int32

inductive FileRead
  | missing
  | unreadable
  | contents (bytes : List UInt8)

/-- The shared library of the simulator for a driver. -/
inductive HostLib
  | missing
  | unloadable
  | noInit
  | init (driverInit : CStr → DriverInit)

/-- What the platform and the other components of the kernel answer. -/
structure Platform where
  readFile : CStr → FileRead
  /-- Builds with debug assertions admit a driver without a signature. -/
  debugAssertions : Bool
  verifyFileBytes : CStr → List UInt8 → EspErr
  /-- Whether the manifest of a driver admits this architecture and version; without one nothing is checked. -/
  manifestIsCompatible : CStr → Option Bool
  heapCapsMalloc : ℕ → Bool
  elfInit : EspErr
  elfRelocate : List UInt8 → EspErr
  driverInit : List UInt8 → DriverInit
  hostLib : CStr → HostLib

/-! ### The image -/

def readImage (p : Platform) (path : CStr) : Except EspErr (List UInt8) :=
  match p.readFile path with
  | .missing => .error espErrNotFound
  | .unreadable => .error espFail
  | .contents bytes => .ok (bytes.take (maxDrvSize + 1))

def driverSignatureAllowsLoad (debugAssertions : Bool) (signatureResult : EspErr) : Except EspErr Bool :=
  if signatureResult = espOk then .ok true
  else if signatureResult = espErrNotFound ∧ debugAssertions then .ok false
  else .error signatureResult

def prepareDriverImage (p : Platform) (path : CStr) : Except EspErr (List UInt8) := do
  let image ← readImage p path
  if image.isEmpty ∨ image.length > maxDrvSize then
    throw espErrInvalidSize
  let _ ← driverSignatureAllowsLoad p.debugAssertions (p.verifyFileBytes path image)
  return image

/-- The image, once its manifest has been read and it has been copied. -/
def prepare (p : Platform) (path : CStr) : Except EspErr (List UInt8) := do
  let image ← prepareDriverImage p path
  if p.manifestIsCompatible path = some false then
    throw espErrNotSupported
  if ¬ p.heapCapsMalloc image.length then
    throw espErrNoMem
  return image

/-! ### Loading -/

def getConfig : LockM DriverLoaderState CStr := Mutex.locked (fun s => (s.currentConfig, s)) emptyConfig

/-- A driver that initialises itself: what it returns, and the configurations that it has received. -/
def runInit : DriverInit → LockM DriverLoaderState (Int32 × List CStr)
  | .pure rc => pure (rc, [])
  | .call _ k => do
    let config ← getConfig
    let (rc, received) ← runInit (k config)
    return (rc, config :: received)

/-- How a load ends, with what the initialisation of its driver has received. -/
abbrev Loaded := EspErr × List CStr

def DriverLoaderState.record (slot : ℕ) (path : CStr) (s : DriverLoaderState) : DriverLoaderState :=
  { s with
    drivers := fun i => if i = slot then ⟨path.take pathMax, true⟩ else s.drivers i
    count := s.count + 1 }

/-- With the name of the library, that does not exist or cannot be used. -/
def loadDriverDylib (p : Platform) (path : CStr) : LockM DriverLoaderState Loaded :=
  match p.hostLib path with
  | .missing => return (espErrNotFound, [])
  | .unloadable => return (espFail, [])
  | .noInit => return (espFail, [])
  | .init driverInit => do
    let config ← getConfig
    let (rc, received) ← runInit (driverInit config)
    return (if rc = 0 then espOk else espFail, received)

def loadSimulator (p : Platform) (path : CStr) (count : ℕ) : LockM DriverLoaderState Loaded := do
  let (ret, received) ← loadDriverDylib p path
  if ret = espOk then
    Mutex.locked (fun s => ((), s.record count path)) ()
  return (ret, received)

/-- The part that runs under the mutex, the initialisation of the driver included. -/
def loadLocked (p : Platform) (path : CStr) (image : List UInt8) (slot : ℕ) : LockM DriverLoaderState Loaded := do
  if p.elfInit ≠ espOk then
    return (p.elfInit, [])
  if p.elfRelocate image ≠ espOk then
    return (p.elfRelocate image, [])
  let (rc, received) ← runInit (p.driverInit image)
  if rc ≠ 0 then
    return (espFail, received)
  Mutex.change (·.record slot path)
  return (espOk, received)

def loadElf (p : Platform) (path : CStr) (image : List UInt8) : LockM DriverLoaderState Loaded := do
  let slot ← Mutex.locked (fun s => (s.count, s)) 0
  let usable ← Mutex.lock
  let ret ← if usable then loadLocked p path image slot else pure (espFail, [])
  Mutex.unlock
  return ret

def loadDevice (p : Platform) (path : CStr) : LockM DriverLoaderState Loaded :=
  match prepare p path with
  | .error rc => return (rc, [])
  | .ok image => loadElf p path image

inductive Build
  | device
  | simulator
  deriving DecidableEq

def loadFrom (p : Platform) (path : CStr) (count : ℕ) : Build → LockM DriverLoaderState Loaded
  | .simulator => loadSimulator p path count
  | .device => loadDevice p path

def loadPath (build : Build) (p : Platform) (path : CStr) : LockM DriverLoaderState Loaded := do
  if path.toStr.isNone then
    return (espErrInvalidArg, [])
  let count ← Mutex.locked (fun s => (s.count, s)) maxLoadedDrvs
  if count ≥ maxLoadedDrvs then
    return (espErrNoMem, [])
  loadFrom p path count build

def load (build : Build) (p : Platform) : Option CStr → LockM DriverLoaderState Loaded
  | none => return (espErrInvalidArg, [])
  | some path => loadPath build p path

def setConfig (config : CStr) : LockM DriverLoaderState Unit :=
  Mutex.locked (fun s => ((), { s with currentConfig := config })) ()

def loadWithConfig (build : Build) (p : Platform) (path config : Option CStr) : LockM DriverLoaderState Loaded := do
  setConfig (config.getD emptyConfig)
  let ret ← load build p path
  setConfig emptyConfig
  return ret

/-! ### What a driver receives -/

open Mutex (free)

variable {p : Platform} {path : CStr} {s : DriverLoaderState} {b : Bool}

/-- The configuration that can be read. -/
def DriverLoaderState.readable (s : DriverLoaderState) (poisoned : Bool) : CStr :=
  if poisoned then emptyConfig else s.currentConfig

lemma getConfig_free : getConfig (free s b) = some (s.readable b, free s b) := by
  cases b <;> rfl

/-- The driver asks for its configuration. -/
def Asks : DriverInit → Prop
  | .pure _ => False
  | .call _ _ => True

/-- A driver that does not ask for it needs no mutex. -/
lemma runInit_of_not_asks {init : DriverInit} (hinit : ¬ Asks init) (m : Mutex DriverLoaderState) :
    ∃ rc, runInit init m = some ((rc, []), m) := by
  cases init with
  | pure rc => exact ⟨rc, rfl⟩
  | call o k => exact absurd trivial hinit

/-- One that asks under the mutex waits forever. -/
lemma runInit_held {init : DriverInit} (hinit : Asks init) : runInit init ⟨s, true, b⟩ = none := by
  cases init with
  | pure rc => exact hinit.elim
  | call o k => rfl

/-- While the mutex is free, each call returns, with what can be read. -/
lemma runInit_free (init : DriverInit) : ∃ rc received, runInit init (free s b) = some ((rc, received), free s b) ∧
    ∀ c ∈ received, c = s.readable b := by
  induction init with
  | pure rc => exact ⟨rc, [], rfl, fun _ hc => absurd hc List.not_mem_nil⟩
  | call o k ih =>
    obtain ⟨rc, received, hrun, hreceived⟩ := ih (s.readable b)
    refine ⟨rc, s.readable b :: received, ?_, List.forall_mem_cons.mpr ⟨rfl, hreceived⟩⟩
    rw [runInit, Mutex.bind_of_some getConfig_free, Mutex.bind_of_some hrun]
    rfl

/-- A load returns, and the driver has received nothing but `config`; the mutex is free again. -/
def Answers (config : CStr) (s : DriverLoaderState) (b : Bool) (x : LockM DriverLoaderState Loaded) : Prop :=
  ∃ ret received s', x (free s b) = some ((ret, received), free s' b) ∧ ∀ c ∈ received, c = config

/-- A load that ends before the driver is called. -/
lemma answers_pure (config : CStr) (ret : EspErr) : Answers config s b (pure (ret, [])) :=
  ⟨ret, [], s, rfl, fun _ hc => absurd hc List.not_mem_nil⟩

/-- A step before a load. -/
lemma Answers.after {α : Type} {config : CStr} {s' : DriverLoaderState} {x : LockM DriverLoaderState α} {a : α}
    {f : α → LockM DriverLoaderState Loaded} (hx : x (free s b) = some (a, free s' b)) (h : Answers config s' b (f a)) :
    Answers config s b (x >>= f) := by
  obtain ⟨ret, received, s'', hrun, hreceived⟩ := h
  exact ⟨ret, received, s'', (Mutex.bind_of_some hx).trans hrun, hreceived⟩

lemma loadDriverDylib_answers : Answers (s.readable b) s b (loadDriverDylib p path) := by
  unfold loadDriverDylib
  cases p.hostLib path with
  | missing => exact answers_pure _ _
  | unloadable => exact answers_pure _ _
  | noInit => exact answers_pure _ _
  | init driverInit =>
    obtain ⟨rc, received, hrun, hreceived⟩ := runInit_free (s := s) (b := b) (driverInit (s.readable b))
    refine ⟨if rc = 0 then espOk else espFail, received, s, ?_, hreceived⟩
    show (getConfig >>= fun config => _) (free s b) = _
    rw [Mutex.bind_of_some getConfig_free, Mutex.bind_of_some hrun]
    rfl

lemma loadSimulator_answers (count : ℕ) : Answers (s.readable b) s b (loadSimulator p path count) := by
  obtain ⟨ret, received, s', hrun, hreceived⟩ := @loadDriverDylib_answers p path s b
  by_cases hret : ret = espOk
  · refine ⟨ret, received, if b then s' else s'.record count path, ?_, hreceived⟩
    rw [loadSimulator, Mutex.bind_of_some hrun]
    simp only [hret, if_true]
    rw [Mutex.bind_of_some Mutex.locked_free]
    rfl
  · refine ⟨ret, received, s', ?_, hreceived⟩
    rw [loadSimulator, Mutex.bind_of_some hrun]
    simp only [hret, if_false]
    rfl

/-- The driver is called, and asks for its configuration. -/
def CallsAsking (p : Platform) (image : List UInt8) : Prop :=
  p.elfInit = espOk ∧ p.elfRelocate image = espOk ∧ Asks (p.driverInit image)

variable {image : List UInt8}

lemma loadLocked_of_callsAsking (h : CallsAsking p image) (slot : ℕ) :
    loadLocked p path image slot ⟨s, true, b⟩ = none := by
  obtain ⟨hinit, hrelocate, hasks⟩ := h
  rw [loadLocked, if_neg (not_not.mpr hinit), if_neg (not_not.mpr hrelocate)]
  exact Mutex.bind_of_none (runInit_held hasks)

lemma loadLocked_of_not (h : ¬ CallsAsking p image) (slot : ℕ) :
    ∃ ret s', loadLocked p path image slot ⟨s, true, b⟩ = some ((ret, []), ⟨s', true, b⟩) := by
  by_cases hinit : p.elfInit = espOk
  · by_cases hrelocate : p.elfRelocate image = espOk
    · have hasks : ¬ Asks (p.driverInit image) := fun hasks => h ⟨hinit, hrelocate, hasks⟩
      obtain ⟨rc, hrun⟩ := runInit_of_not_asks hasks ⟨s, true, b⟩
      rw [loadLocked, if_neg (not_not.mpr hinit), if_neg (not_not.mpr hrelocate), Mutex.bind_of_some hrun]
      by_cases hrc : rc = 0
      · subst hrc
        exact ⟨espOk, s.record slot path, rfl⟩
      · exact ⟨espFail, s, by simp only [ne_eq, hrc, not_false_eq_true, if_true]; rfl⟩
    · exact ⟨p.elfRelocate image, s, by rw [loadLocked, if_neg (not_not.mpr hinit), if_pos hrelocate]; rfl⟩
  · exact ⟨p.elfInit, s, by rw [loadLocked, if_pos hinit]; rfl⟩

lemma loadElf_of_callsAsking (h : CallsAsking p image) : loadElf p path image (free s false) = none := by
  rw [loadElf, Mutex.bind_of_some Mutex.locked_free, Mutex.bind_of_some Mutex.lock_free]
  exact Mutex.bind_of_none (loadLocked_of_callsAsking h _)

lemma loadElf_answers (h : b = true ∨ ¬ CallsAsking p image) (config : CStr) :
    Answers config s b (loadElf p path image) := by
  cases b with
  | true => exact ⟨espFail, [], s, rfl, fun _ hc => absurd hc List.not_mem_nil⟩
  | false =>
    obtain ⟨ret, s', hrun⟩ := @loadLocked_of_not p path s false image (h.resolve_left (by decide)) s.count
    refine ⟨ret, [], s', ?_, fun _ hc => absurd hc List.not_mem_nil⟩
    rw [loadElf, Mutex.bind_of_some Mutex.locked_free, Mutex.bind_of_some Mutex.lock_free]
    exact Mutex.bind_of_some hrun

/-- The driver is called under the mutex of the loader, and asks for its configuration. -/
def AsksLocked (build : Build) (p : Platform) (path : Option CStr) (s : DriverLoaderState) (poisoned : Bool) : Prop :=
  build = .device ∧ poisoned = false ∧ s.count < maxLoadedDrvs ∧ ∃ file, path = some file ∧ file.toStr.isNone = false ∧
    ∃ image, prepare p file = .ok image ∧ CallsAsking p image

lemma loadFrom_answers {build : Build} (h : ¬ (build = .device ∧ b = false ∧
    ∃ image, prepare p path = .ok image ∧ CallsAsking p image)) (count : ℕ) :
    Answers (s.readable b) s b (loadFrom p path count build) := by
  cases build with
  | simulator => exact loadSimulator_answers count
  | device =>
    show Answers _ s b (loadDevice p path)
    unfold loadDevice
    cases himage : prepare p path with
    | error rc => exact answers_pure _ rc
    | ok image =>
      apply loadElf_answers
      by_contra hnot
      obtain ⟨hb, hcalls⟩ := not_or.mp hnot
      exact h ⟨rfl, Bool.eq_false_iff.mpr hb, image, himage, not_not.mp hcalls⟩

/-- Under a poisoned mutex no load comes to its driver. -/
lemma loadPath_answers {build : Build} {config : CStr} (hconfig : b = false → s.currentConfig = config)
    (h : ¬ AsksLocked build p (some path) s b) : Answers config s b (loadPath build p path) := by
  unfold loadPath
  by_cases hpath : path.toStr.isNone = true
  · rw [if_pos hpath]
    exact answers_pure _ _
  · rw [if_neg hpath]
    refine .after Mutex.locked_free ?_
    cases b with
    | true => exact answers_pure _ _
    | false =>
      obtain rfl := hconfig rfl
      by_cases hcount : s.count ≥ maxLoadedDrvs
      · simp only [Bool.false_eq_true, if_false, if_pos hcount]
        exact answers_pure _ _
      · simp only [Bool.false_eq_true, if_false, if_neg hcount]
        refine loadFrom_answers (fun hasks => h ?_) _
        obtain ⟨hbuild, _, image, hcalls⟩ := hasks
        exact ⟨hbuild, rfl, Nat.lt_of_not_le hcount, path, rfl, Bool.eq_false_iff.mpr hpath, image, hcalls⟩

lemma load_answers {build : Build} {path : Option CStr} {config : CStr} (hconfig : b = false → s.currentConfig = config)
    (h : ¬ AsksLocked build p path s b) : Answers config s b (load build p path) := by
  cases path with
  | none => exact answers_pure _ _
  | some file => exact loadPath_answers hconfig h

/-- A driver that asks under the mutex never returns, and neither does the load. -/
lemma load_of_asksLocked {build : Build} {path : Option CStr} (h : AsksLocked build p path s b) :
    load build p path (free s b) = none := by
  obtain ⟨rfl, rfl, hcount, file, rfl, hfile, image, himage, hcalls⟩ := h
  show loadPath .device p file (free s false) = none
  rw [loadPath, if_neg (Bool.eq_false_iff.mp hfile), Mutex.bind_of_some Mutex.locked_free]
  simp only [Bool.false_eq_true, if_false, if_neg (Nat.not_le_of_lt hcount)]
  show loadDevice p file (free s false) = none
  rw [loadDevice, himage]
  exact loadElf_of_callsAsking hcalls

/-- What the loader has after it has set the configuration of a load. -/
def DriverLoaderState.configured (s : DriverLoaderState) (config : CStr) (poisoned : Bool) : DriverLoaderState :=
  if poisoned then s else { s with currentConfig := config }

lemma setConfig_free (config : CStr) : setConfig config (free s b) = some ((), free (s.configured config b) b) := by
  cases b <;> rfl

lemma asksLocked_configured {build : Build} {path : Option CStr} {config : CStr} :
    AsksLocked build p path (s.configured config b) b ↔ AsksLocked build p path s b := by
  cases b <;> rfl

lemma loadWithConfig_of_asksLocked {build : Build} {path config : Option CStr} (h : AsksLocked build p path s b) :
    loadWithConfig build p path config (free s b) = none := by
  rw [loadWithConfig, Mutex.bind_of_some (setConfig_free _)]
  exact Mutex.bind_of_none (load_of_asksLocked (asksLocked_configured.mpr h))

/-- The load returns, and with it every call for the configuration, each with the one of this load: exactly if the
driver does not ask under the mutex that the loader holds. -/
theorem loadWithConfig_answers_iff (build : Build) (p : Platform) (path config : Option CStr) (s : DriverLoaderState)
    (poisoned : Bool) :
    Answers (config.getD emptyConfig) s poisoned (loadWithConfig build p path config) ↔
      ¬ AsksLocked build p path s poisoned := by
  constructor
  · rintro ⟨ret, received, s', hrun, -⟩ hasks
    rw [loadWithConfig_of_asksLocked hasks] at hrun
    cases hrun
  · intro h
    refine .after (setConfig_free _) ?_
    have hconfig : poisoned = false →
        (s.configured (config.getD emptyConfig) poisoned).currentConfig = config.getD emptyConfig := by
      rintro rfl
      rfl
    obtain ⟨ret, received, s', hrun, hreceived⟩ := load_answers hconfig (mt asksLocked_configured.mp h)
    refine ⟨ret, received, s'.configured emptyConfig poisoned, ?_, hreceived⟩
    rw [Mutex.bind_of_some hrun, Mutex.bind_of_some (setConfig_free _)]
    rfl

/-- A device with a signed driver that reads its configuration once. -/
def sampleDevice : Platform where
  readFile _ := .contents [0x7F]
  debugAssertions := false
  verifyFileBytes _ _ := espOk
  manifestIsCompatible _ := none
  heapCapsMalloc _ := true
  elfInit := espOk
  elfRelocate _ := espOk
  driverInit _ := .call () fun _ => .pure 0
  hostLib _ := .missing

def samplePath : CStr := ⟨utf8 "/sdcard/drivers/a.drv.elf", by decide⟩

def sampleConfig : CStr := ⟨utf8 "\x7b\"pin\":5\x7d", by decide⟩

def freshState : DriverLoaderState := ⟨fun _ => ⟨⟨[], List.not_mem_nil⟩, false⟩, 0, emptyConfig⟩

theorem sampleDevice_waits : ¬ Answers sampleConfig freshState false
    (loadWithConfig .device sampleDevice (some samplePath) (some sampleConfig)) := by
  have hasks : AsksLocked .device sampleDevice (some samplePath) freshState false :=
    ⟨rfl, rfl, by decide, samplePath, rfl, by decide, [0x7F], rfl, rfl, rfl, trivial⟩
  rintro ⟨ret, received, s', hrun, -⟩
  rw [loadWithConfig_of_asksLocked hasks] at hrun
  cases hrun

end ThistleOS.DriverLoader
