import ThistleOS.Kernel.AppManager.Slots

/-!
# The app in the foreground

At most one app runs, and the foreground handle names it, as long as no launch evicts the very app
that it launches.
-/

namespace ThistleOS.AppManager

open Manager

variable {σ : Type} {E : Env σ} {m : Manager} {w : Manager × σ} {i j target : Fin appSlotsMax}
  {prev handle : Int}

/-- Only the app in the foreground runs, and if there is one it runs. -/
structure Exclusive (m : Manager) : Prop where
  wellFormed : WellFormed m
  running : ∀ i, (m.slots i).state = .running →
    (m.slots i).entry ≠ none ∧ m.foreground = i.val
  foreground : m.foreground ≠ appHandleInvalid →
    ∃ i, (m.slots i).entry ≠ none ∧ m.foreground = i.val ∧ (m.slots i).state = .running

/-- The middle of a launch: no app runs, and the foreground handle still names the last one. -/
structure Idle (m : Manager) : Prop where
  wellFormed : WellFormed m
  idle : ∀ i, (m.slots i).state ≠ .running
  foreground : m.foreground ≠ appHandleInvalid →
    ∃ i, (m.slots i).entry ≠ none ∧ m.foreground = i.val

lemma state_setState (state : AppState) :
    ((m.setState i state).slots j).state = if j = i then state else (m.slots j).state := by
  rw [setState, slots_setSlot]
  split_ifs
  · rfl
  · rfl

lemma Exclusive.leaveForeground (h : Exclusive w.1) : Idle (leaveForeground E w).1 := by
  rcases leaveForeground_manager (E := E) (w := w) with ⟨heq, hrest⟩ |
    ⟨fg, state, hfg, -, hstate, heq⟩
  · -- nothing is in the foreground, so nothing runs
    have hnone : w.1.foreground = appHandleInvalid := by
      by_contra hne
      obtain ⟨fg, hused, hfg, hrun⟩ := h.foreground hne
      exact hrest fg (h.wellFormed.findSlotByHandle_iff.mpr ⟨hused, hfg⟩) hrun
    rw [heq]
    refine ⟨h.wellFormed, fun i hi => ?_, fun hne => absurd hnone hne⟩
    have hlt := (h.running i hi).2
    rw [hnone, appHandleInvalid] at hlt
    omega
  · obtain ⟨hused, hfgi⟩ := h.wellFormed.findSlotByHandle_iff.mp hfg
    rw [heq]
    refine ⟨h.wellFormed.setState state, fun i => ?_, fun _ => ⟨fg, ?_, hfgi⟩⟩
    · rw [state_setState]
      split_ifs with hi
      · rcases hstate with rfl | rfl
        · decide
        · decide
      · intro hrun
        have hfg' := (h.running i hrun).2
        rw [hfgi] at hfg'
        exact hi (Fin.ext (Int.ofNat.inj hfg').symm)
    · rw [entry_setState]
      exact hused

lemma Idle.evictIfLow (h : Idle w.1) : Idle (evictIfLow E w).1 := by
  rw [evictIfLow_manager]
  cases hevicts : evicts E w with
  | none => exact h
  | some i =>
    obtain ⟨hused, hne, -⟩ := of_oldest (oldest_of_evicts hevicts)
    refine ⟨h.wellFormed.clear, fun j => ?_, fun hfg => ?_⟩
    · rw [slots_setSlot]
      split_ifs
      · decide
      · exact h.idle j
    · obtain ⟨j, hj, hfgj⟩ := h.foreground hfg
      have hji : j ≠ i := by
        rintro rfl
        exact hne ((h.wellFormed.handle j hused).trans hfgj.symm)
      exact ⟨j, by rwa [slots_setSlot_of_ne hji], hfgj⟩

lemma Idle.exclusive_enter (h : Idle w.1) (hused : (w.1.slots target).entry ≠ none)
    (event : AppEvent) {w' : Manager × σ} (hw' : w'.1 = w.1.setState target .running) :
    Exclusive (enterForeground E target (w.1.slots target).handle event w').1 := by
  have hhandle := h.wellFormed.handle target hused
  have hwf : WellFormed w'.1 := hw' ▸ h.wellFormed.setState _
  have hslots : ∀ j, ((enterForeground E target (w.1.slots target).handle event w').1.slots j).entry =
      (w.1.slots j).entry ∧
      ((enterForeground E target (w.1.slots target).handle event w').1.slots j).state =
        if j = target then .running else (w.1.slots j).state := by
    intro j
    simp only [enterForeground, slots_setForeground, slots_setSlot]
    split_ifs with hj
    · rw [AppSlot.entry_touch, AppSlot.state_touch, hw', entry_setState, state_setState, if_pos rfl, hj]
      exact ⟨rfl, rfl⟩
    · rw [hw', entry_setState, state_setState, if_neg hj]
      exact ⟨rfl, rfl⟩
  constructor
  · apply WellFormed.setForeground
    · exact hwf.setSlot rfl rfl
    · rw [hhandle, slotCount_setSlot, hw']
      exact Int.ofNat_lt.mpr (h.wellFormed.used target hused)
  · intro j hj
    rw [(hslots j).2] at hj
    split_ifs at hj with hjt
    · rw [(hslots j).1, hjt]
      exact ⟨hused, hhandle⟩
    · exact absurd hj (h.idle j)
  · intro _
    exact ⟨target, (hslots target).1 ▸ hused, hhandle, (hslots target).2.trans (if_pos rfl)⟩

lemma Idle.exclusive_restore (h : Idle m) (hstate : (m.slots target).state = .unloaded) :
    Exclusive (restoreForeground m.foreground (m.setState target .unloaded)) := by
  have hsame : ∀ j, ((m.setState target .unloaded).slots j).state = (m.slots j).state := by
    intro j
    rw [state_setState]
    split_ifs with hj
    · rw [hj, hstate]
    · rfl
  have hwf : WellFormed ((m.setState target .unloaded).setForeground m.foreground) :=
    (h.wellFormed.setState _).setForeground h.wellFormed.foreground
  simp only [restoreForeground]
  cases hfind : ((m.setState target .unloaded).setForeground m.foreground).findSlotByHandle
      m.foreground with
  | none =>
    refine ⟨hwf, fun i hi => ?_, fun hne => ?_⟩
    · rw [slots_setForeground, hsame] at hi
      exact absurd hi (h.idle i)
    · obtain ⟨i, hused, hfg⟩ := h.foreground hne
      have hsome := hwf.findSlotByHandle_iff.mpr
        ⟨by rwa [slots_setForeground, entry_setState], hfg⟩
      rw [hsome] at hfind
      cases hfind
  | some fg =>
    obtain ⟨hused, hfg⟩ := hwf.findSlotByHandle_iff.mp hfind
    refine ⟨hwf.setState _, fun i hi => ?_, fun _ => ⟨fg, ?_, hfg, ?_⟩⟩
    · rw [state_setState] at hi
      split_ifs at hi with hif
      · rw [entry_setState, hif]
        exact ⟨hused, hfg⟩
      · rw [slots_setForeground, hsame] at hi
        exact absurd hi (h.idle i)
    · rw [entry_setState]
      exact hused
    · rw [state_setState, if_pos rfl]

/-- The launch of an app takes its memory from that very app. -/
def EvictsItself (E : Env σ) (appId : String) (w : Manager × σ) : Prop :=
  ∃ target, w.1.findSlotById appId = some target ∧
    w.1.foreground ≠ (w.1.slots target).handle ∧ evicts E (leaveForeground E w) = some target

/-- The foreground handle names the slot that holds the app. -/
def Foremost (appId : String) (m : Manager) : Prop :=
  ∃ i, m.findSlotById appId = some i ∧ m.foreground = (m.slots i).handle

lemma Exclusive.launch (h : Exclusive w.1) {appId : String} (hs : ¬ EvictsItself E appId w) :
    Exclusive (launch E appId w).2.1 ∧
      ((launch E appId w).1 = espOk → Foremost appId (launch E appId w).2.1) := by
  rw [AppManager.launch]
  cases hfind : w.1.findSlotById appId with
  | none => exact ⟨h, fun hok => absurd hok (show espErrNotFound ≠ espOk by decide)⟩
  | some target =>
    obtain ⟨hused, hid⟩ := findSlotById_eq_some hfind
    have hhandle := h.wellFormed.handle target hused
    simp only
    split_ifs with hfg hok
    · exact ⟨h, fun _ => ⟨target, hfind, hfg⟩⟩
    · set w' := AppManager.evictIfLow E (AppManager.leaveForeground E w) with hw'
      have hidle : Idle w'.1 := h.leaveForeground.evictIfLow
      -- the target has not been evicted
      have hkept : (w'.1.slots target).entry = (w.1.slots target).entry := by
        rw [hw', evictIfLow_manager]
        cases hevicts : evicts E (AppManager.leaveForeground E w) with
        | none => exact leaveForeground_frame.2.2 target
        | some i =>
          have hne : target ≠ i := by
            rintro rfl
            exact hs ⟨target, hfind, hfg, hevicts⟩
          rw [slots_setSlot_of_ne hne]
          exact leaveForeground_frame.2.2 target
      have hused' : (w'.1.slots target).entry ≠ none := hkept ▸ hused
      have hhandle' : (w.1.slots target).handle = (w'.1.slots target).handle := by
        rw [hhandle, hidle.wellFormed.handle target hused']
      rw [hhandle']
      have hex := hidle.exclusive_enter (E := E) hused'
        (bringUp E target w.1.foreground w').2.1 (bringUp_ok hok)
      refine ⟨hex, fun _ => ⟨target, ?_, ?_⟩⟩
      · have hentry : (((enterForeground E target (w'.1.slots target).handle
            (bringUp E target w.1.foreground w').2.1
            (bringUp E target w.1.foreground w').2.2).1.slots target)).entry =
              (w.1.slots target).entry := by
          simp only [enterForeground, slots_setForeground, slots_setSlot_self,
            AppSlot.entry_touch, bringUp_ok hok, entry_setState]
          exact hkept
        apply hex.wellFormed.findSlotById_iff.mpr
        refine ⟨hentry ▸ hused, ?_⟩
        rw [← hid, AppSlot.appId, AppSlot.appId, hentry]
      · simp only [enterForeground, slots_setForeground, slots_setSlot_self,
          AppSlot.handle_touch, bringUp_ok hok, foreground_setForeground]
        rw [Manager.setState, slots_setSlot_self, AppSlot.handle_setState]
    · refine ⟨?_, fun hok' => absurd hok' hok⟩
      obtain ⟨e, -, hstate, -, heq⟩ := bringUp_refused hok
      have hidle : Idle (AppManager.evictIfLow E (AppManager.leaveForeground E w)).1 :=
        h.leaveForeground.evictIfLow
      have hprev : w.1.foreground =
          (AppManager.evictIfLow E (AppManager.leaveForeground E w)).1.foreground := by
        rw [evictIfLow_frame.1, leaveForeground_frame.1]
      rw [heq, hprev]
      exact hidle.exclusive_restore hstate

/-! ### The other calls -/

lemma Exclusive.switchTo (h : Exclusive w.1)
    (hs : ∀ i, w.1.findSlotByHandle handle = some i → ¬ EvictsItself E (w.1.slots i).appId w) :
    Exclusive (switchTo E handle w).2.1 := by
  rw [AppManager.switchTo]
  cases hfind : w.1.findSlotByHandle handle with
  | none => exact h
  | some i =>
    simp only
    split_ifs
    · exact h
    · exact (h.launch (hs i hfind)).1

/-- A slot other than the one of a cleared handle. -/
lemma Exclusive.clear (h : Exclusive m) (hused : (m.slots i).entry ≠ none) {slot : AppSlot}
    (hwf : WellFormed ((clearForeground i.val m).setSlot i slot))
    (hstate : slot.state ≠ .running) : Exclusive ((clearForeground i.val m).setSlot i slot) := by
  have hslots : ∀ j, j ≠ i → ((clearForeground i.val m).setSlot i slot).slots j = m.slots j := by
    intro j hji
    rw [slots_setSlot_of_ne hji, slots_clearForeground]
  have hother : ∀ j, ((clearForeground i.val m).setSlot i slot).foreground = j.val →
      m.foreground = j.val ∧ j ≠ i := by
    intro j hfg
    have hcleared : (clearForeground i.val m).foreground = j.val := hfg
    obtain ⟨hkept, hne⟩ := foreground_of_clearForeground hcleared
    refine ⟨hkept, fun hji => ?_⟩
    rw [hji] at hkept
    exact hne hkept
  refine ⟨hwf, fun j hj => ?_, fun hfg => ?_⟩
  · have hji : j ≠ i := by
      rintro rfl
      rw [slots_setSlot_self] at hj
      exact hstate hj
    rw [hslots j hji] at hj ⊢
    obtain ⟨hj, hfg⟩ := h.running j hj
    refine ⟨hj, ?_⟩
    have hne : m.foreground ≠ i.val := by
      rw [hfg]
      exact fun heq => hji (Fin.ext (Int.ofNat.inj heq))
    rw [foreground_setSlot, clearForeground, if_neg hne]
    exact hfg
  · have hkept : (clearForeground i.val m).foreground = m.foreground ∧ m.foreground ≠ i.val := by
      rw [foreground_setSlot] at hfg
      rw [clearForeground] at hfg ⊢
      split_ifs at hfg ⊢ with heq
      · exact absurd rfl hfg
      · exact ⟨rfl, heq⟩
    rw [foreground_setSlot, hkept.1] at hfg ⊢
    obtain ⟨j, hj, hfgj, hrun⟩ := h.foreground hfg
    have hji : j ≠ i := by
      rintro rfl
      exact hkept.2 hfgj
    exact ⟨j, by rwa [hslots j hji], hfgj, by rwa [hslots j hji]⟩

lemma Exclusive.suspend (h : Exclusive w.1) : Exclusive (suspend E handle w).2.1 := by
  rw [AppManager.suspend]
  cases hfind : w.1.findSlotByHandle handle with
  | none => exact h
  | some i =>
    obtain ⟨hused, rfl⟩ := h.wellFormed.findSlotByHandle_iff.mp hfind
    have hclear : Exclusive (clearForeground i.val (w.1.setState i .suspended)) := by
      rw [setState_eq, ← clearForeground_setSlot]
      apply h.clear hused
      · rw [clearForeground_setSlot]
        exact (h.wellFormed.setState _).clearForeground _
      · simp
    simp only
    cases (w.1.slots i).state with
    | unloaded => exact h
    | loading => exact h
    | suspended => exact h
    | running =>
      rw [callAt_fst]
      exact hclear
    | backgrounded =>
      rw [callAt_fst]
      exact hclear

lemma Exclusive.kill (h : Exclusive w.1) : Exclusive (kill E handle w).2.1 := by
  rw [AppManager.kill]
  cases hfind : w.1.findSlotByHandle handle with
  | none => exact h
  | some i =>
    obtain ⟨hused, rfl⟩ := h.wellFormed.findSlotByHandle_iff.mp hfind
    simp only
    split_ifs
    · exact h
    · rw [callAt_fst]
      exact h.clear hused (h.wellFormed.clearForeground _).clear (by decide)

lemma Exclusive.evictLru (h : Exclusive w.1) : Exclusive (evictLru E w).2.1 := by
  rcases evictLru_manager (E := E) (w := w) with heq | ⟨i, hold, heq⟩
  · rw [heq]
    exact h
  · obtain ⟨hused, hne, -⟩ := of_oldest hold
    have hfg : ∀ j, w.1.foreground = (j : Fin appSlotsMax).val → j ≠ i := by
      rintro j hfg rfl
      exact hne ((h.wellFormed.handle j hused).trans hfg.symm)
    rw [heq]
    refine ⟨h.wellFormed.clear, fun j hj => ?_, fun hvalid => ?_⟩
    · rw [slots_setSlot] at hj ⊢
      split_ifs at hj ⊢
      · cases hj
      · exact h.running j hj
    · obtain ⟨j, hj, hfgj, hrun⟩ := h.foreground hvalid
      have hji := hfg j hfgj
      exact ⟨j, by rwa [slots_setSlot_of_ne hji], hfgj, by rwa [slots_setSlot_of_ne hji]⟩

lemma Exclusive.register (h : Exclusive m) (entry : Option AppEntry) :
    Exclusive (m.register entry).2 := by
  have hwf := h.wellFormed.register entry
  rcases register_cases entry m with ⟨rc, heq⟩ | ⟨e, hlt, rfl, -, heq⟩
  · rw [heq]
    exact h
  rw [heq] at hwf ⊢
  set new : Fin appSlotsMax := ⟨m.slotCount, hlt⟩ with hnew
  have hslots : ∀ j, (m.setSlot new ⟨some e, .unloaded, m.nextHandle, 0⟩).slots j =
      if j = new then ⟨some e, .unloaded, m.nextHandle, 0⟩ else m.slots j :=
    fun j => slots_setSlot
  refine ⟨hwf, fun j hj => ?_, fun hvalid => ?_⟩
  · simp only [hslots] at hj ⊢
    split_ifs at hj ⊢
    exact h.running j hj
  · obtain ⟨j, hj, hfg, hrun⟩ := h.foreground hvalid
    have hjn : j ≠ new := by
      rintro rfl
      exact Nat.lt_irrefl _ (h.wellFormed.used new hj)
    refine ⟨j, ?_, hfg, ?_⟩
    · simp only [hslots, if_neg hjn]
      exact hj
    · simp only [hslots, if_neg hjn]
      exact hrun

/-! ### Runs -/

/-- No launch takes its memory from the app that it launches. -/
def Spares (E : Env σ) : AppOp → Manager × σ → Prop
  | .launch appId, w => ¬ EvictsItself E appId w
  | .switchTo handle, w => ∀ i, w.1.findSlotByHandle handle = some i →
    ¬ EvictsItself E (w.1.slots i).appId w
  | _, _ => True

/-- At most one app slot is running, and the foreground handle names one that is. -/
def ForegroundOnly (m : Manager) : Prop :=
  (∀ i j, (m.slots i).state = .running → (m.slots j).state = .running → i = j) ∧
    (m.foreground ≠ appHandleInvalid →
      ∃ i, m.findSlotByHandle m.foreground = some i ∧ (m.slots i).state = .running)

/-- A launch that succeeds puts its app in the foreground. -/
def LaunchesForemost (E : Env σ) : AppOp → Manager × σ → Prop
  | .launch appId, w => (launch E appId w).1 = espOk → Foremost appId (launch E appId w).2.1
  | _, _ => True

lemma Exclusive.foregroundOnly (h : Exclusive m) : ForegroundOnly m := by
  refine ⟨fun i j hi hj => ?_, fun hvalid => ?_⟩
  · have heq := (h.running i hi).2.symm.trans (h.running j hj).2
    exact Fin.ext (Int.ofNat.inj heq)
  · obtain ⟨i, hused, hfg, hrun⟩ := h.foreground hvalid
    exact ⟨i, h.wellFormed.findSlotByHandle_iff.mpr ⟨hused, hfg⟩, hrun⟩

lemma exclusive_new : Exclusive .new where
  wellFormed := wellFormed_new
  running _ h := nomatch h
  foreground h := absurd rfl h

lemma Exclusive.step {o : AppOp} (h : Exclusive w.1) (hs : Spares E o w) :
    Exclusive ((manager E).next o w).1 ∧ LaunchesForemost E o w := by
  cases o with
  | register entry => exact ⟨h.register entry, trivial⟩
  | launch appId => exact h.launch hs
  | switchTo handle => exact ⟨h.switchTo hs, trivial⟩
  | suspend handle => exact ⟨h.suspend, trivial⟩
  | kill handle => exact ⟨h.kill, trivial⟩
  | evictLru => exact ⟨h.evictLru, trivial⟩

/-- In every run in which no launch evicts its own app, only the foreground app runs, and a launch
that succeeds puts its app there. -/
theorem foreground_only (E : Env σ) (s : σ) (ops : List AppOp)
    (h : (manager E).Along (Spares E) (.new, s) ops) :
    (manager E).Along (fun o w => ForegroundOnly w.1 ∧ LaunchesForemost E o w) (.new, s) ops ∧
      ForegroundOnly ((manager E).run (.new, s) ops).1 := by
  obtain ⟨halong, hlast⟩ := Component.along_of_preserved (I := fun w => Exclusive w.1)
    (fun _ _ hw hs => (hw.step hs).1) exclusive_new h
  exact ⟨halong.mono fun _ _ hw => ⟨hw.1.foregroundOnly, (hw.1.step hw.2).2⟩,
    hlast.foregroundOnly⟩

/-- Apps that can always be created, on a device with a given amount of free memory. -/
def memoryEnv (free : Nat) : Env Unit where
  onCreate _ s := (espOk, s)
  call _ _ s := s
  freeSize s := (free, s)
  uptimeMs s := (0, s)
  publish _ _ s := s

def onlyApp : AppEntry := ⟨0, some "app"⟩

/-- Suspending the app and launching it again. -/
def relaunch : List AppOp := [.register (some onlyApp), .launch "app", .suspend 0, .launch "app"]

theorem foreground_only_sample :
    let E := memoryEnv appMemoryThresholdBytes
    (manager E).Along (fun o w => ForegroundOnly w.1 ∧ LaunchesForemost E o w) (.new, ()) relaunch ∧
      ForegroundOnly ((manager E).run (.new, ()) relaunch).1 := by
  refine foreground_only _ () relaunch ?_
  have hlaunch : ∀ w : Manager × Unit,
      ¬ EvictsItself (memoryEnv appMemoryThresholdBytes) "app" w := by
    rintro w ⟨target, -, -, hevicts⟩
    have hnone : evicts (memoryEnv appMemoryThresholdBytes)
        (leaveForeground (memoryEnv appMemoryThresholdBytes) w) = none := if_neg (Nat.lt_irrefl _)
    rw [hnone] at hevicts
    cases hevicts
  simp only [relaunch, Component.along_cons]
  exact ⟨trivial, hlaunch _, trivial, hlaunch _, Component.along_nil⟩

/-- When memory is low, launching a suspended app evicts it, and the launch returns with an empty
slot in the foreground. -/
theorem foreground_not_only :
    ¬ ∀ (E : Env Unit) (ops : List AppOp), ForegroundOnly ((manager E).run (.new, ()) ops).1 := by
  intro hall
  have hfg := (hall (memoryEnv 0) relaunch).2 (by decide)
  obtain ⟨i, hfind, -⟩ := hfg
  have hnone : ((manager (memoryEnv 0)).run (.new, ()) relaunch).1.findSlotByHandle
      ((manager (memoryEnv 0)).run (.new, ()) relaunch).1.foreground = none := rfl
  rw [hnone] at hfind
  cases hfind

end ThistleOS.AppManager
