import ThistleOS.Kernel.AppManager.Callbacks
import ThistleOS.Kernel.ElfLoader

/-!
# The apps of the ELF loader

The app files that are found at boot are loaded and registered with the app manager. Their
callbacks start and unload what was loaded.
-/

namespace ThistleOS.ElfLoader

open AppManager

/-- A registration; what it is not used for has no handle. -/
structure ElfAppRegistration where
  id : CStr
  handle : Option Slot
  used : Bool

def ElfAppRegistration.empty : ElfAppRegistration := ⟨.ofBuffer [], none, false⟩

/-- The loader and the registrations. -/
structure ElfApps where
  loader : ElfLoaderState
  regs : Slot → ElfAppRegistration

namespace ElfApps

def freeReg (s : ElfApps) : Option Slot :=
  (List.finRange maxLoadedApps).find? fun k => !(s.regs k).used

def setReg (k : Slot) (reg : ElfAppRegistration) (s : ElfApps) : ElfApps :=
  { s with regs := Function.update s.regs k reg }

def setLoader (loader : ElfLoaderState) (s : ElfApps) : ElfApps := { s with loader }

def unload (handle : Option Slot) (s : ElfApps) : ElfApps :=
  s.setLoader (elfAppUnload handle s.loader).2

/-- The handle that the callbacks of an entry use. -/
def handleOf (s : ElfApps) (e : AppEntry) : Option Slot :=
  if h : e.key < maxLoadedApps then (s.regs ⟨e.key, h⟩).handle else none

end ElfApps

/-! ### The callbacks -/

/-- The rest of the system: the other apps, the free memory, the clock and the event bus, and
whether a task can be created. -/
structure Platform (τ : Type) where
  env : Env τ
  xTaskCreate : τ → Bool

section Callbacks

variable {τ : Type} (P : Platform τ)

def onCreateSlot (k : Slot) (s : ElfApps × τ) : EspErr × (ElfApps × τ) :=
  match (s.1.regs k).handle with
  | none => (espErrInvalidState, s)
  | some handle =>
    let (rc, loader) := elfAppStart handle (P.xTaskCreate s.2) s.1.loader
    (rc, (s.1.setLoader loader, s.2))

def onDestroySlot (k : Slot) (s : ElfApps × τ) : ElfApps × τ :=
  match (s.1.regs k).handle with
  | none => s
  | some handle => (s.1.unload (some handle), s.2)

/-- The entries with the keys of the registrations are those of ELF apps, which leave the other
callbacks out. -/
def elfEnv : Env (ElfApps × τ) where
  onCreate e s :=
    if h : e.key < maxLoadedApps then onCreateSlot P ⟨e.key, h⟩ s
    else ((P.env.onCreate e s.2).1, (s.1, (P.env.onCreate e s.2).2))
  call cb e s :=
    if h : e.key < maxLoadedApps then
      match cb with
      | .destroy => onDestroySlot ⟨e.key, h⟩ s
      | _ => s
    else (s.1, P.env.call cb e s.2)
  freeSize s := ((P.env.freeSize s.2).1, (s.1, (P.env.freeSize s.2).2))
  uptimeMs s := ((P.env.uptimeMs s.2).1, (s.1, (P.env.uptimeMs s.2).2))
  publish event handle s := (s.1, P.env.publish event handle s.2)

end Callbacks

/-! ### The scan -/

/-- A file in one of the directories of apps, and its manifest as the scan reads it. -/
structure AppFile where
  file : ElfFile
  manifest : Option CManifest

/-- The entry that is registered for a slot. -/
def entryOf (k : Slot) (id : CStr) : AppEntry := ⟨k.val, some (id.toStr.getD "")⟩

/-- A loaded app is registered, or unloaded again. -/
def registerApp (handle : Option Slot) (manifest : Option CManifest) (w : Manager × ElfApps) :
    Manager × ElfApps :=
  match manifest with
  | none => (w.1, w.2.unload handle)
  | some m =>
    if (CStr.ofBuffer m.id).bytes = [] then (w.1, w.2.unload handle)
    else
      match w.2.freeReg with
      | none => (w.1, w.2.unload handle)
      | some k =>
        let id := (CStr.ofBuffer m.id).take appIdMax
        let (rc, manager) := w.1.register (some (entryOf k id))
        if rc ≠ espOk then (manager, (w.2.setReg k .empty).unload handle)
        else (manager, w.2.setReg k ⟨id, handle, true⟩)

def scanFile (debugAssertions : Bool) (w : Manager × ElfApps) (x : AppFile) : Manager × ElfApps :=
  let ((rc, handle), loader) := elfAppLoad debugAssertions x.file w.2.loader
  let w := (w.1, w.2.setLoader loader)
  if rc ≠ espOk then w else registerApp handle x.manifest w

def elfAppScanAndRegister (debugAssertions : Bool) (files : List AppFile) (w : Manager × ElfApps) :
    Manager × ElfApps :=
  files.foldl (scanFile debugAssertions) w

/-! ### The system -/

/-- The app manager's calls, and the end of an app's task. -/
inductive SystemOp
  | launch (appId : String)
  | switchTo (handle : Int)
  | taskEnds (slot : Slot)

def taskEnds (slot : Slot) (s : ElfApps) : ElfApps :=
  s.setLoader (s.loader.setApp slot { s.loader.apps slot with running := false })

/-- The app manager with the ELF loader behind it, and a log of the callbacks. -/
def system {τ : Type} (P : Platform τ) :
    Component SystemOp (fun _ => EspErr) (Manager × ((ElfApps × τ) × Log)) where
  step
    | .launch appId, w => launch (elfEnv P).logged appId w
    | .switchTo handle, w => switchTo (elfEnv P).logged handle w
    | .taskEnds slot, w => (espOk, (w.1, ((taskEnds slot w.2.1.1, w.2.1.2), w.2.2)))

/-! ### What the scan leaves behind -/

variable {debug : Bool} {w : Manager × ElfApps} {s : ElfApps} {k : Slot} {e e' : AppEntry}
  {i j : Fin appSlotsMax} {handle handle' : Slot}

/-- An app of the ELF loader has a key among the registrations. -/
def IsElf (e : AppEntry) : Prop := e.key < maxLoadedApps

/-- Every registered ELF app has a loaded slot of its own, and waits there to be started. -/
structure Scanned (w : Manager × ElfApps) : Prop where
  wellFormed : WellFormed w.1
  used : ∀ i e, (w.1.slots i).entry = some e → (h : IsElf e) → (w.2.regs ⟨e.key, h⟩).used = true
  handle : ∀ i e, (w.1.slots i).entry = some e → IsElf e → (w.2.handleOf e).isSome
  key : ∀ i j e e', (w.1.slots i).entry = some e → (w.1.slots j).entry = some e' → IsElf e →
    e.key = e'.key → i = j
  apart : ∀ k k' handle, (w.2.regs k).handle = some handle → (w.2.regs k').handle = some handle →
    k = k'
  loaded : ∀ k handle, (w.2.regs k).handle = some handle →
    (w.2.loader.apps handle).loaded = true ∧ (w.2.loader.apps handle).running = false
  state : ∀ i e, (w.1.slots i).entry = some e → IsElf e → (w.1.slots i).state = .unloaded
  text : ∀ i e, (w.1.slots i).entry = some e → IsElf e → '\x00' ∉ (w.1.slots i).appId.toList

namespace ElfApps

lemma freeReg_eq_some (h : s.freeReg = some k) : (s.regs k).used = false := by
  have hp := List.find?_some h
  simpa using hp

@[simp] lemma regs_setReg_self (reg : ElfAppRegistration) : (s.setReg k reg).regs k = reg :=
  Function.update_self _ _ _

lemma regs_setReg_of_ne {k' : Slot} (h : k' ≠ k) (reg : ElfAppRegistration) :
    (s.setReg k reg).regs k' = s.regs k' := Function.update_of_ne h _ _

@[simp] lemma regs_setLoader (loader : ElfLoaderState) : (s.setLoader loader).regs = s.regs := rfl

@[simp] lemma loader_setLoader (loader : ElfLoaderState) : (s.setLoader loader).loader = loader := rfl

@[simp] lemma loader_setReg (reg : ElfAppRegistration) : (s.setReg k reg).loader = s.loader := rfl

@[simp] lemma handleOf_setLoader (loader : ElfLoaderState) :
    (s.setLoader loader).handleOf e = s.handleOf e := rfl

lemma handleOf_setReg_of_ne (h : e.key ≠ k.val) (reg : ElfAppRegistration) :
    (s.setReg k reg).handleOf e = s.handleOf e := by
  rw [handleOf, handleOf]
  split_ifs with hkey
  · rw [regs_setReg_of_ne]
    rintro rfl
    exact h rfl
  · rfl

lemma apps_unload (handle : Slot) : (s.unload (some handle)).loader.apps =
    Function.update s.loader.apps handle .empty := rfl

end ElfApps

namespace Scanned

/-- Slots that no registration has may change. -/
lemma setLoader (h : Scanned w) {loader : ElfLoaderState}
    (happs : ∀ k handle, (w.2.regs k).handle = some handle →
      loader.apps handle = w.2.loader.apps handle) : Scanned (w.1, w.2.setLoader loader) := by
  refine ⟨h.wellFormed, h.used, h.handle, h.key, h.apart, fun k handle hk => ?_, h.state,
    h.text⟩
  rw [ElfApps.loader_setLoader, happs k handle hk]
  exact h.loaded k handle hk

lemma unload (h : Scanned w) (hfresh : ∀ k, (w.2.regs k).handle ≠ some handle) :
    Scanned (w.1, w.2.unload (some handle)) := by
  apply h.setLoader
  intro k handle' hk
  apply Function.update_of_ne
  rintro rfl
  exact hfresh k hk

/-- No app has a registration that is not used. -/
lemma key_ne (h : Scanned w) (hk : (w.2.regs k).used = false)
    (he : (w.1.slots i).entry = some e) (helf : IsElf e) : e.key ≠ k.val := by
  intro hkey
  have hused := h.used i e he helf
  have heq : (⟨e.key, helf⟩ : Slot) = k := Fin.ext hkey
  rw [heq, hk] at hused
  cases hused

lemma setReg (h : Scanned w) (hk : (w.2.regs k).used = false) {reg : ElfAppRegistration}
    (hfresh : ∀ handle, reg.handle = some handle → ∀ k, (w.2.regs k).handle ≠ some handle)
    (hloaded : ∀ handle, reg.handle = some handle →
      (w.2.loader.apps handle).loaded = true ∧ (w.2.loader.apps handle).running = false) :
    Scanned (w.1, w.2.setReg k reg) := by
  refine ⟨h.wellFormed, fun i e he helf => ?_, fun i e he helf => ?_, h.key,
    fun k₁ k₂ handle h₁ h₂ => ?_, fun k' handle hk' => ?_, h.state, h.text⟩
  · rw [ElfApps.regs_setReg_of_ne (fun heq => h.key_ne hk he helf (congrArg Fin.val heq))]
    exact h.used i e he helf
  · rw [ElfApps.handleOf_setReg_of_ne (h.key_ne hk he helf)]
    exact h.handle i e he helf
  · by_cases hk₁ : k₁ = k
    · by_cases hk₂ : k₂ = k
      · exact hk₁.trans hk₂.symm
      · subst hk₁
        simp only [ElfApps.regs_setReg_self, ElfApps.regs_setReg_of_ne hk₂] at h₁ h₂
        exact absurd h₂ (hfresh handle h₁ k₂)
    · by_cases hk₂ : k₂ = k
      · subst hk₂
        simp only [ElfApps.regs_setReg_self, ElfApps.regs_setReg_of_ne hk₁] at h₁ h₂
        exact absurd h₁ (hfresh handle h₂ k₁)
      · simp only [ElfApps.regs_setReg_of_ne hk₁, ElfApps.regs_setReg_of_ne hk₂] at h₁ h₂
        exact h.apart k₁ k₂ handle h₁ h₂
  · by_cases hk'k : k' = k
    · subst hk'k
      simp only [ElfApps.regs_setReg_self] at hk'
      exact hloaded handle hk'
    · simp only [ElfApps.regs_setReg_of_ne hk'k] at hk'
      exact h.loaded k' handle hk'

/-- A new app takes the registration that has been prepared for it. -/
lemma register (h : Scanned w) {id : CStr} (hused : (w.2.regs k).used = true)
    (hhandle : (w.2.regs k).handle = some handle)
    (hnew : ∀ i e, (w.1.slots i).entry = some e → IsElf e → e.key ≠ k.val) :
    Scanned ((w.1.register (some (entryOf k id))).2, w.2) := by
  have hwf := h.wellFormed.register (some (entryOf k id))
  rcases register_cases (some (entryOf k id)) w.1 with ⟨rc, heq⟩ | ⟨e₀, hlt, he₀, -, heq⟩
  · rw [heq]
    exact h
  obtain rfl := Option.some.inj he₀
  rw [heq] at hwf ⊢
  set new : Fin appSlotsMax := ⟨w.1.slotCount, hlt⟩ with hnewdef
  have hslots : ∀ j, (w.1.setSlot new ⟨some (entryOf k id), .unloaded, w.1.nextHandle, 0⟩).slots j =
      if j = new then ⟨some (entryOf k id), .unloaded, w.1.nextHandle, 0⟩ else w.1.slots j :=
    fun j => Manager.slots_setSlot
  refine ⟨hwf, fun j e he helf => ?_, fun j e he helf => ?_, fun i j e e' he he' helf hkey => ?_,
    h.apart, h.loaded, fun j e he helf => ?_, fun j e he helf => ?_⟩
  · simp only [hslots] at he
    split_ifs at he with hj
    · obtain rfl := Option.some.inj he
      exact hused
    · exact h.used j e he helf
  · simp only [hslots] at he
    split_ifs at he with hj
    · obtain rfl := Option.some.inj he
      change (w.2.handleOf (entryOf k id)).isSome = true
      have hof : w.2.handleOf (entryOf k id) = (w.2.regs k).handle := dif_pos k.isLt
      rw [hof, hhandle]
      rfl
    · exact h.handle j e he helf
  · simp only [hslots] at he he'
    split_ifs at he he' with hi hj hj
    · exact hi.trans hj.symm
    · obtain rfl := Option.some.inj he
      exact absurd hkey.symm (hnew j e' he' (lt_of_eq_of_lt hkey.symm helf))
    · obtain rfl := Option.some.inj he'
      exact absurd hkey (hnew i e he helf)
    · exact h.key i j e e' he he' helf hkey
  · simp only [hslots] at he ⊢
    split_ifs at he ⊢ with hj
    · rfl
    · exact h.state j e he helf
  · simp only [hslots] at he ⊢
    split_ifs at he ⊢ with hj
    · change '\x00' ∉ (id.toStr.getD "").toList
      cases hid : id.toStr with
      | none => exact List.not_mem_nil
      | some t => exact CStr.nul_notMem hid
    · exact h.text j e he helf

lemma registerApp (h : Scanned w) (hfresh : ∀ k, (w.2.regs k).handle ≠ some handle)
    (hloaded : (w.2.loader.apps handle).loaded = true ∧ (w.2.loader.apps handle).running = false)
    (manifest : Option CManifest) : Scanned (registerApp (some handle) manifest w) := by
  simp only [ElfLoader.registerApp]
  cases manifest with
  | none => exact h.unload hfresh
  | some m =>
    simp only
    split_ifs with hid
    · exact h.unload hfresh
    cases hfree : w.2.freeReg with
    | none => exact h.unload hfresh
    | some k =>
      have hk := ElfApps.freeReg_eq_some hfree
      set id := (CStr.ofBuffer m.id).take appIdMax with hiddef
      simp only
      split_ifs with hrc
      · have hreset : Scanned (w.1, w.2.setReg k .empty) :=
          h.setReg hk (fun _ h => nomatch h) (fun _ h => nomatch h)
        rcases register_cases (some (entryOf k id)) w.1 with ⟨rc, heq⟩ | ⟨e₀, hlt, -, -, heq⟩
        · rw [heq]
          refine hreset.unload fun k' hk' => ?_
          by_cases hkk : k' = k
          · subst hkk
            rw [ElfApps.regs_setReg_self] at hk'
            cases hk'
          · rw [ElfApps.regs_setReg_of_ne hkk] at hk'
            exact hfresh k' hk'
        · rw [heq] at hrc
          exact absurd rfl hrc
      · have hset : Scanned (w.1, w.2.setReg k ⟨id, some handle, true⟩) := by
          apply h.setReg hk
          · rintro handle' hh
            obtain rfl := Option.some.inj hh
            exact hfresh
          · rintro handle' hh
            obtain rfl := Option.some.inj hh
            exact hloaded
        have hself : (w.2.setReg k ⟨id, some handle, true⟩).regs k = ⟨id, some handle, true⟩ :=
          ElfApps.regs_setReg_self _
        have hhandle : ((w.2.setReg k ⟨id, some handle, true⟩).regs k).handle = some handle := by
          rw [hself]
        refine hset.register ?_ hhandle fun i e he helf => h.key_ne hk he helf
        rw [hself]

lemma scanFile (h : Scanned w) (x : AppFile) : Scanned (scanFile debug w x) := by
  simp only [ElfLoader.scanFile]
  rcases elfAppLoad_apps debug x.file w.2.loader with ⟨hrc, -, happs⟩ |
    ⟨handle, id, granted, hfree, hreply, happs⟩
  · simp only [hrc, ne_eq, not_false_eq_true, if_true]
    exact h.setLoader fun k handle _ => congrFun happs handle
  · have hfresh : ∀ k, (w.2.regs k).handle ≠ some handle := by
      intro k hk
      rw [(h.loaded k handle hk).1] at hfree
      cases hfree
    have hset : Scanned (w.1, w.2.setLoader (elfAppLoad debug x.file w.2.loader).2) := by
      apply h.setLoader
      intro k handle' hk
      rw [happs]
      apply Function.update_of_ne
      rintro rfl
      exact hfresh k hk
    simp only [hreply, ne_eq, not_true_eq_false, if_false]
    apply hset.registerApp hfresh
    rw [ElfApps.loader_setLoader, happs, Function.update_self]
    exact ⟨rfl, rfl⟩

/-- Whatever files the scan finds, the registered ELF apps wait to be started. -/
lemma scan (h : Scanned w) (debug : Bool) (files : List AppFile) :
    Scanned (elfAppScanAndRegister debug files w) := by
  induction files generalizing w with
  | nil => exact h
  | cons x files ih => exact ih (h.scanFile x)

end Scanned

end ThistleOS.ElfLoader
