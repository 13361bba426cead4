import ThistleOS.Kernel.ElfLoader.Apps

/-!
# Launching an ELF app again

The callback that destroys an ELF app unloads it, and nothing loads it again: an app can be launched
until then.
-/

namespace ThistleOS.ElfLoader

open AppManager

/-- The `on_destroy` of an app has been called. -/
def Destroyed (e : AppEntry) (log : Log) : Prop := .called .destroy ∈ callsOf e log

lemma destroyed_append (e e' : AppEntry) (log : Log) (x : Lifecycle) :
    Destroyed e (log ++ [(e', x)]) ↔ Destroyed e log ∨ e' = e ∧ x = .called .destroy := by
  simp only [Destroyed, callsOf, List.filterMap_append, List.mem_append]
  by_cases h : e' = e
  · simp [h, eq_comm]
  · simp [h]

variable {τ : Type} {P : Platform τ} {w w' : Manager × ((ElfApps × τ) × Log)} {i j : Fin appSlotsMax}
  {e : AppEntry} {handle : Slot}

/-- Memory suffices. -/
def Plenty (P : Platform τ) : Prop :=
  ∀ t, P.xTaskCreate t = true ∧ appMemoryThresholdBytes ≤ (P.env.freeSize t).1

/-! ### The invariant -/

/-- An ELF app is loaded until it is destroyed, and has no task when it is shown as unloaded. -/
def Alive (state : AppState) (app : ElfAppHandle) (destroyed : Prop) : Prop :=
  (¬ destroyed → app.loaded = true ∧ (state = .unloaded → app.running = false)) ∧
    (destroyed → app.loaded = false)

structure Living (w : Manager × ((ElfApps × τ) × Log)) : Prop where
  wellFormed : WellFormed w.1
  handle : ∀ i e, (w.1.slots i).entry = some e → IsElf e → (w.2.1.1.handleOf e).isSome
  key : ∀ i j e e', (w.1.slots i).entry = some e → (w.1.slots j).entry = some e' → IsElf e →
    e.key = e'.key → i = j
  apart : ∀ k k' handle, (w.2.1.1.regs k).handle = some handle →
    (w.2.1.1.regs k').handle = some handle → k = k'
  text : ∀ i e, (w.1.slots i).entry = some e → IsElf e → '\x00' ∉ (w.1.slots i).appId.toList
  alive : ∀ i e handle, (w.1.slots i).entry = some e → w.2.1.1.handleOf e = some handle →
    Alive (w.1.slots i).state (w.2.1.1.loader.apps handle) (Destroyed e w.2.2)
  launcher : ∀ i e, (w.1.slots i).entry = some e → IsElf e →
    isLauncherId (w.1.slots i).appId = true → ¬ Destroyed e w.2.2

/-- A destroyed app is shown as unloaded, unless it is in the foreground again because the launch of
another one has failed. -/
def ShownUnloaded (w : Manager × ((ElfApps × τ) × Log)) : Prop :=
  ∀ i e, (w.1.slots i).entry = some e → IsElf e → Destroyed e w.2.2 →
    (w.1.slots i).state = .unloaded ∨
      w.1.foreground = i.val ∧ (w.1.slots i).state = .running

/-- In the middle of a launch. -/
def Rested (w : Manager × ((ElfApps × τ) × Log)) : Prop :=
  ∀ i e, (w.1.slots i).entry = some e → IsElf e → Destroyed e w.2.2 →
    (w.1.slots i).state = .unloaded

lemma isElf_of_handleOf {s : ElfApps} (h : s.handleOf e = some handle) : IsElf e := by
  rw [ElfApps.handleOf] at h
  split_ifs at h with helf
  exact helf

/-- The ELF apps of two slots have different handles. -/
lemma Living.handle_inj (h : Living w) {e' : AppEntry} (hi : (w.1.slots i).entry = some e)
    (hj : (w.1.slots j).entry = some e') (he : w.2.1.1.handleOf e = some handle)
    (he' : w.2.1.1.handleOf e' = some handle) : i = j := by
  have helf := isElf_of_handleOf he
  have helf' := isElf_of_handleOf he'
  have hk : (w.2.1.1.regs ⟨e.key, helf⟩).handle = some handle := by
    rw [← he, ElfApps.handleOf, dif_pos (show e.key < maxLoadedApps from helf)]
  have hk' : (w.2.1.1.regs ⟨e'.key, helf'⟩).handle = some handle := by
    rw [← he', ElfApps.handleOf, dif_pos (show e'.key < maxLoadedApps from helf')]
  exact h.key i j e e' hi hj helf (congrArg Fin.val (h.apart _ _ handle hk hk'))

/-- The states of the slots, the slots of the loader and the log may change. -/
lemma Living.change (h : Living w) (hwf : WellFormed w'.1)
    (hentry : ∀ j, (w'.1.slots j).entry = (w.1.slots j).entry)
    (hregs : w'.2.1.1.regs = w.2.1.1.regs)
    (halive : ∀ j e handle, (w.1.slots j).entry = some e → w.2.1.1.handleOf e = some handle →
      Alive (w'.1.slots j).state (w'.2.1.1.loader.apps handle) (Destroyed e w'.2.2))
    (hlauncher : ∀ j e, (w.1.slots j).entry = some e → IsElf e →
      isLauncherId (w.1.slots j).appId = true → ¬ Destroyed e w'.2.2) : Living w' := by
  have happ : ∀ j, (w'.1.slots j).appId = (w.1.slots j).appId := by
    intro j
    rw [AppSlot.appId, AppSlot.appId, hentry]
  have hof : ∀ e, w'.2.1.1.handleOf e = w.2.1.1.handleOf e := by
    intro e
    rw [ElfApps.handleOf, ElfApps.handleOf, hregs]
  constructor
  · exact hwf
  · intro j e he
    rw [hof]
    exact h.handle j e (hentry j ▸ he)
  · intro j k e e' he he'
    exact h.key j k e e' (hentry j ▸ he) (hentry k ▸ he')
  · rw [hregs]
    exact h.apart
  · intro j e he
    rw [happ]
    exact h.text j e (hentry j ▸ he)
  · intro j e handle he hhandle
    exact halive j e handle (hentry j ▸ he) (hof e ▸ hhandle)
  · intro j e he helf
    rw [happ]
    exact hlauncher j e (hentry j ▸ he) helf

/-! ### Callbacks -/

/-- A callback that does not destroy an ELF app changes nothing but the log. -/
lemma callAt_quiet {cb : Callback} (he : (w.1.slots i).entry = some e)
    (hquiet : cb ≠ .destroy ∨ ¬ IsElf e) : ∃ t, callAt (elfEnv P).logged cb i w =
      (w.1, ((w.2.1.1, t), w.2.2 ++ [(e, .called cb)])) := by
  rw [callAt, he]
  by_cases helf : e.key < maxLoadedApps
  · have hne : cb ≠ .destroy := hquiet.resolve_right fun h => h helf
    refine ⟨w.2.1.2, ?_⟩
    cases cb with
    | destroy => exact absurd rfl hne
    | start => simp only [Env.logged, elfEnv, helf, dif_pos]
    | pause => simp only [Env.logged, elfEnv, helf, dif_pos]
    | resume => simp only [Env.logged, elfEnv, helf, dif_pos]
  · exact ⟨P.env.call cb e w.2.1.2, by simp only [Env.logged, elfEnv, helf, dif_neg, not_false_eq_true]⟩

lemma callAt_destroy (he : (w.1.slots i).entry = some e) (hh : w.2.1.1.handleOf e = some handle) :
    callAt (elfEnv P).logged .destroy i w =
      (w.1, ((w.2.1.1.unload (some handle), w.2.1.2), w.2.2 ++ [(e, .called .destroy)])) := by
  have helf : e.key < maxLoadedApps := isElf_of_handleOf hh
  rw [ElfApps.handleOf, dif_pos helf] at hh
  rw [callAt, he]
  simp only [Env.logged, elfEnv, helf, dif_pos, onDestroySlot, hh]

/-- A callback that does not destroy does not count as one. -/
lemma destroyed_append_quiet {cb : Callback} {e' : AppEntry} {log : Log} (helf : IsElf e')
    (hquiet : cb ≠ .destroy ∨ ¬ IsElf e) :
    Destroyed e' (log ++ [(e, .called cb)]) ↔ Destroyed e' log := by
  rw [destroyed_append, or_iff_left]
  rintro ⟨rfl, hcb⟩
  rcases hquiet with hne | hne
  · exact hne (Lifecycle.called.inj hcb)
  · exact hne helf

/-- A new state for an app that is called back, but not destroyed. -/
lemma Living.quiet (h : Living w) {cb : Callback} (he : (w.1.slots i).entry = some e)
    (hquiet : cb ≠ .destroy ∨ ¬ IsElf e) {state : AppState} (hstate : state ≠ .unloaded ∨ ¬ IsElf e) :
    Living (callAt (elfEnv P).logged cb i (w.1.setState i state, w.2)) := by
  have he' : ((w.1.setState i state).slots i).entry = some e := by
    rw [Manager.entry_setState, he]
  obtain ⟨t, heq⟩ := callAt_quiet (P := P) (w := (w.1.setState i state, w.2)) he' hquiet
  rw [heq]
  refine h.change (h.wellFormed.setState state) (fun _ => Manager.entry_setState _) rfl
    (fun j e' handle hj hh => ?_) fun j e' hj helf hl => ?_
  · have helf' := isElf_of_handleOf hh
    obtain ⟨hno, hyes⟩ := h.alive j e' handle hj hh
    simp only [Alive, destroyed_append_quiet helf' hquiet]
    refine ⟨fun hd => ⟨(hno hd).1, fun hunloaded => (hno hd).2 ?_⟩, hyes⟩
    rw [Manager.setState, Manager.slots_setSlot] at hunloaded
    split_ifs at hunloaded with hji
    · subst hji
      obtain rfl := Option.some.inj (hj.symm.trans he)
      rcases hstate with hne | hne
      · exact absurd hunloaded hne
      · exact absurd helf' hne
    · exact hunloaded
  · rw [destroyed_append_quiet helf hquiet]
    exact h.launcher j e' hj helf hl

lemma Rested.quiet {cb : Callback} {state : AppState} (he : (w.1.slots i).entry = some e)
    (hquiet : cb ≠ .destroy ∨ ¬ IsElf e)
    (hrest : Rested (w.1.setState i state, w.2)) :
    Rested (callAt (elfEnv P).logged cb i (w.1.setState i state, w.2)) := by
  have he' : ((w.1.setState i state).slots i).entry = some e := by
    rw [Manager.entry_setState, he]
  obtain ⟨t, heq⟩ := callAt_quiet (P := P) (w := (w.1.setState i state, w.2)) he' hquiet
  rw [heq]
  intro j e' hj helf hd
  rw [destroyed_append_quiet helf hquiet] at hd
  exact hrest j e' hj helf hd

/-- The ELF app in the foreground is destroyed. -/
lemma Living.destroy (h : Living w) (he : (w.1.slots i).entry = some e)
    (hh : w.2.1.1.handleOf e = some handle) (hl : isLauncherId (w.1.slots i).appId ≠ true)
    (hrest : ∀ j e', j ≠ i → (w.1.slots j).entry = some e' → IsElf e' → Destroyed e' w.2.2 →
      (w.1.slots j).state = .unloaded) :
    Living (callAt (elfEnv P).logged .destroy i (w.1.setState i .unloaded, w.2)) ∧
      Rested (callAt (elfEnv P).logged .destroy i (w.1.setState i .unloaded, w.2)) := by
  have he' : ((w.1.setState i .unloaded).slots i).entry = some e := by
    rw [Manager.entry_setState, he]
  have hslots : ∀ j, j ≠ i → (w.1.setState i .unloaded).slots j = w.1.slots j :=
    fun j hj => Manager.slots_setSlot_of_ne hj
  have hsame : ∀ j e', j ≠ i → (w.1.slots j).entry = some e' →
      (Destroyed e' (w.2.2 ++ [(e, .called .destroy)]) ↔ Destroyed e' w.2.2) := by
    intro j e' hji hj
    rw [destroyed_append, or_iff_left]
    rintro ⟨rfl, -⟩
    exact hji (h.wellFormed.entry_inj hj he)
  rw [callAt_destroy (w := (w.1.setState i .unloaded, w.2)) he' hh]
  constructor
  · refine h.change (h.wellFormed.setState .unloaded) (fun _ => Manager.entry_setState _) rfl
      (fun j e' handle' hj hh' => ?_) fun j e' hj helf hl' => ?_
    · by_cases hji : j = i
      · subst hji
        obtain rfl := Option.some.inj (hj.symm.trans he)
        obtain rfl := Option.some.inj (hh'.symm.trans hh)
        rw [ElfApps.apps_unload, Function.update_self]
        have hd : Destroyed e' (w.2.2 ++ [(e', .called .destroy)]) :=
          (destroyed_append _ _ _ _).mpr (.inr ⟨rfl, rfl⟩)
        exact ⟨fun hno => absurd hd hno, fun _ => rfl⟩
      · have hne : handle' ≠ handle := by
          rintro rfl
          exact hji (h.handle_inj hj he hh' hh)
        rw [ElfApps.apps_unload, Function.update_of_ne hne, hslots j hji]
        simp only [hsame j e' hji hj]
        exact h.alive j e' handle' hj hh'
    · have hji : j ≠ i := by
        rintro rfl
        exact hl hl'
      rw [hsame j e' hji hj]
      exact h.launcher j e' hj helf hl'
  · intro j e' hj helf hd
    rw [Manager.entry_setState] at hj
    by_cases hji : j = i
    · rw [hji, Manager.setState, Manager.slots_setSlot_self, AppSlot.state_setState]
    · rw [hsame j e' hji hj] at hd
      rw [hslots j hji]
      exact hrest j e' hji hj helf hd

/-! ### The parts of a launch -/

lemma Living.leaveForeground (h : Living w) (hshown : ShownUnloaded w) :
    Living (leaveForeground (elfEnv P).logged w) ∧
      Rested (leaveForeground (elfEnv P).logged w) := by
  rw [AppManager.leaveForeground]
  cases hfg : w.1.findSlotByHandle w.1.foreground with
  | none =>
    refine ⟨h, fun j e hj helf hd => (hshown j e hj helf hd).resolve_right ?_⟩
    rintro ⟨hfgj, -⟩
    rw [h.wellFormed.findSlotByHandle_iff.mpr ⟨by simp [hj], hfgj⟩] at hfg
    cases hfg
  | some fg =>
    obtain ⟨hused, hfgi⟩ := h.wellFormed.findSlotByHandle_iff.mp hfg
    obtain ⟨e, he⟩ := Option.ne_none_iff_exists'.mp hused
    have hother : ∀ j e', j ≠ fg → (w.1.slots j).entry = some e' → IsElf e' → Destroyed e' w.2.2 →
        (w.1.slots j).state = .unloaded := by
      intro j e' hji hj helf hd
      refine (hshown j e' hj helf hd).resolve_right ?_
      rintro ⟨hfgj, -⟩
      exact hji (Fin.ext (Int.ofNat.inj (hfgj.symm.trans hfgi)))
    simp only
    split_ifs with hrun hl
    · -- a launcher is paused
      have hquiet : Callback.pause ≠ .destroy ∨ ¬ IsElf e := .inl (by decide)
      refine ⟨h.quiet he hquiet (.inl (by decide)), Rested.quiet he hquiet ?_⟩
      intro j e' hj helf hd
      rw [Manager.entry_setState] at hj
      have hji : j ≠ fg := by
        rintro rfl
        exact h.launcher j e' hj helf hl hd
      rw [Manager.setState, Manager.slots_setSlot_of_ne hji]
      exact hother j e' hji hj helf hd
    · by_cases helf : IsElf e
      · obtain ⟨handle, hh⟩ := Option.isSome_iff_exists.mp (h.handle fg e he helf)
        exact h.destroy he hh hl hother
      · refine ⟨h.quiet he (.inr helf) (.inr helf), Rested.quiet he (.inr helf) ?_⟩
        intro j e' hj helf' hd
        rw [Manager.entry_setState] at hj
        have hji : j ≠ fg := by
          rintro rfl
          exact helf (Option.some.inj (hj.symm.trans he) ▸ helf')
        rw [Manager.setState, Manager.slots_setSlot_of_ne hji]
        exact hother j e' hji hj helf' hd
    · refine ⟨h, fun j e' hj helf hd => ?_⟩
      by_cases hji : j = fg
      · refine (hshown j e' hj helf hd).resolve_right fun hrun' => hrun ?_
        rw [← hji]
        exact hrun'.2
      · exact hother j e' hji hj helf hd

lemma evictIfLow_plenty (hP : Plenty P) (w : Manager × ((ElfApps × τ) × Log)) :
    evictIfLow (elfEnv P).logged w = (w.1, ((w.2.1.1, (P.env.freeSize w.2.1.2).2), w.2.2)) := by
  have hfree := (hP w.2.1.2).2
  simp only [evictIfLow, Env.logged, elfEnv, Nat.not_lt.mpr hfree, if_false]

/-- Only the state of the rest of the system changes. -/
lemma Living.other (h : Living w) (t : τ) : Living (w.1, ((w.2.1.1, t), w.2.2)) :=
  ⟨h.wellFormed, h.handle, h.key, h.apart, h.text, h.alive, h.launcher⟩

/-- What the loader answers when an ELF app is to be created. -/
lemma onCreate_elf (hP : Plenty P) {s : (ElfApps × τ) × Log} (hh : s.1.1.handleOf e = some handle) :
    (elfEnv P).logged.onCreate e s =
      ((elfAppStart handle true s.1.1.loader).1,
        ((s.1.1.setLoader (elfAppStart handle true s.1.1.loader).2, s.1.2),
          s.2 ++ [(e, .created (elfAppStart handle true s.1.1.loader).1)])) := by
  have helf : e.key < maxLoadedApps := isElf_of_handleOf hh
  rw [ElfApps.handleOf, dif_pos helf] at hh
  simp only [Env.logged, elfEnv, helf, dif_pos, onCreateSlot, hh, (hP s.1.2).1]

lemma onCreate_other {s : (ElfApps × τ) × Log} (helf : ¬ IsElf e) : ∃ rc t,
    (elfEnv P).logged.onCreate e s = (rc, ((s.1.1, t), s.2 ++ [(e, .created rc)])) := by
  have hkey : ¬ e.key < maxLoadedApps := helf
  refine ⟨(P.env.onCreate e s.1.2).1, (P.env.onCreate e s.1.2).2, ?_⟩
  simp only [Env.logged, elfEnv, hkey, dif_neg, not_false_eq_true]

/-- What creating the app in a slot does. -/
structure Created (w : Manager × ((ElfApps × τ) × Log)) (e : AppEntry)
    (r : EspErr × ((ElfApps × τ) × Log)) : Prop where
  regs : r.2.1.1.regs = w.2.1.1.regs
  destroyed : ∀ e', Destroyed e' r.2.2 ↔ Destroyed e' w.2.2
  refused : IsElf e → (r.1 = espOk ↔ ¬ Destroyed e w.2.2)
  loaded : ∀ handle, (r.2.1.1.loader.apps handle).loaded = (w.2.1.1.loader.apps handle).loaded
  running : ∀ handle, r.1 ≠ espOk ∨ w.2.1.1.handleOf e ≠ some handle →
    (r.2.1.1.loader.apps handle).running = (w.2.1.1.loader.apps handle).running

lemma Living.created (h : Living w) (hP : Plenty P) (he : (w.1.slots i).entry = some e)
    (hstate : (w.1.slots i).state = .unloaded) :
    Created w e ((elfEnv P).logged.onCreate e w.2) := by
  have hlog : ∀ e' rc, Destroyed e' (w.2.2 ++ [(e, .created rc)]) ↔ Destroyed e' w.2.2 := by
    intro e' rc
    rw [destroyed_append, or_iff_left]
    rintro ⟨-, hcreated⟩
    cases hcreated
  by_cases helf : IsElf e
  · obtain ⟨handle, hh⟩ := Option.isSome_iff_exists.mp (h.handle i e he helf)
    obtain ⟨hno, hyes⟩ := h.alive i e handle he hh
    rw [onCreate_elf hP hh]
    by_cases hd : Destroyed e w.2.2
    · have hstart : elfAppStart handle true w.2.1.1.loader =
          (espErrInvalidState, w.2.1.1.loader) := by
        rw [elfAppStart, hyes hd]
        rfl
      rw [hstart]
      exact ⟨rfl, fun e' => hlog e' _, fun _ => ⟨fun hok => absurd hok
        (show espErrInvalidState ≠ espOk by decide),
        fun hnd => absurd hd hnd⟩, fun _ => rfl, fun _ _ => rfl⟩
    · obtain ⟨hloaded, hidle⟩ := hno hd
      have hstart : elfAppStart handle true w.2.1.1.loader = (espOk, w.2.1.1.loader.setApp handle
          { w.2.1.1.loader.apps handle with running := true }) := by
        rw [elfAppStart, hloaded, hidle hstate]
        rfl
      rw [hstart]
      refine ⟨rfl, fun e' => hlog e' _, fun _ => ⟨fun _ => hd, fun _ => rfl⟩, fun handle' => ?_,
        fun handle' hne => ?_⟩
      · by_cases heq : handle' = handle
        · rw [heq]
          simp
        · rw [ElfApps.loader_setLoader, ElfLoaderState.apps_setApp_of_ne heq]
      · have heq : handle' ≠ handle := by
          rintro rfl
          exact hne.elim (fun h => h rfl) (fun h => h hh)
        rw [ElfApps.loader_setLoader, ElfLoaderState.apps_setApp_of_ne heq]
  · obtain ⟨rc, t, heq⟩ := onCreate_other (P := P) (s := w.2) helf
    rw [heq]
    exact ⟨rfl, fun e' => hlog e' _, fun helf' => absurd helf' helf, fun _ => rfl, fun _ _ => rfl⟩

section BringUp

variable {target : Fin appSlotsMax} {prev : Int}

/-- A state in which no app waits to be started. -/
lemma Living.setRunning (h : Living w) : Living (w.1.setState target .running, w.2) := by
  refine h.change (h.wellFormed.setState _) (fun _ => Manager.entry_setState _) rfl
    (fun j e' handle hj hh => ?_) h.launcher
  obtain ⟨hno, hyes⟩ := h.alive j e' handle hj hh
  refine ⟨fun hd => ⟨(hno hd).1, fun hunloaded => (hno hd).2 ?_⟩, hyes⟩
  rw [Manager.setState, Manager.slots_setSlot] at hunloaded
  split_ifs at hunloaded
  · cases hunloaded
  · exact hunloaded

/-- An app that has not been destroyed may be shown as running. -/
lemma Rested.setRunning (h : Rested w) (he : (w.1.slots target).entry = some e)
    (hd : IsElf e → ¬ Destroyed e w.2.2) : Rested (w.1.setState target .running, w.2) := by
  intro j e' hj helf hd'
  rw [Manager.entry_setState] at hj
  have hji : j ≠ target := by
    rintro rfl
    obtain rfl := Option.some.inj (hj.symm.trans he)
    exact hd helf hd'
  rw [Manager.setState, Manager.slots_setSlot_of_ne hji]
  exact h j e' hj helf hd'

lemma bringUp_unloaded {σ : Type} {E : Env σ} {w : Manager × σ}
    (hstate : (w.1.slots target).state = .unloaded) (he : (w.1.slots target).entry = some e)
    (hok : (E.onCreate e w.2).1 = espOk) : bringUp E target prev w = (espOk, .launched,
      callAt E .start target (w.1.setState target .running, (E.onCreate e w.2).2)) := by
  rw [bringUp]
  simp only [hstate, create, Manager.entry_setState, he, hok, if_true, Manager.setState_setState]

lemma bringUp_fails {σ : Type} {E : Env σ} {w : Manager × σ}
    (hstate : (w.1.slots target).state = .unloaded) (he : (w.1.slots target).entry = some e)
    (hfail : (E.onCreate e w.2).1 ≠ espOk) : bringUp E target prev w = ((E.onCreate e w.2).1, .launched,
      (restoreForeground prev (w.1.setState target .unloaded), (E.onCreate e w.2).2)) := by
  rw [bringUp]
  simp only [hstate, create, Manager.entry_setState, he, hfail, if_false, Manager.setState_setState]

lemma bringUp_resumes {σ : Type} {E : Env σ} {w : Manager × σ} (prev : Int)
    (hstate : (w.1.slots target).state ≠ .unloaded) : ∃ event w',
      bringUp E target prev w = (espOk, event, w') ∧
        (w' = (w.1.setState target .running, w.2) ∨
          w' = callAt E .resume target (w.1.setState target .running, w.2)) := by
  rw [bringUp]
  cases hs : (w.1.slots target).state with
  | unloaded => exact absurd hs hstate
  | loading => exact ⟨_, _, rfl, .inl rfl⟩
  | running => exact ⟨_, _, rfl, .inl rfl⟩
  | backgrounded => exact ⟨_, _, rfl, .inr rfl⟩
  | suspended => exact ⟨_, _, rfl, .inr rfl⟩

/-- Restoring the foreground shows the app there as running. -/
lemma restoreForeground_slots {m : Manager} (hwf : WellFormed (m.setForeground prev)) :
    WellFormed (restoreForeground prev m) ∧
    ∀ j, ((restoreForeground prev m).slots j).entry = (m.slots j).entry ∧
      (((restoreForeground prev m).slots j).state = (m.slots j).state ∨
        (restoreForeground prev m).foreground = j.val ∧
          ((restoreForeground prev m).slots j).state = .running) := by
  simp only [restoreForeground]
  cases hfind : (m.setForeground prev).findSlotByHandle prev with
  | none => exact ⟨hwf, fun j => ⟨rfl, .inl rfl⟩⟩
  | some fg =>
    obtain ⟨-, hprev⟩ := hwf.findSlotByHandle_iff.mp hfind
    refine ⟨hwf.setState _, fun j => ⟨Manager.entry_setState _, ?_⟩⟩
    simp only [Manager.setState, Manager.slots_setSlot]
    split_ifs with hj
    · right
      exact ⟨hj ▸ hprev, AppSlot.state_setState _ _⟩
    · exact .inl rfl

/-- The launch of a target that is refused. -/
lemma Living.refused (h : Living w) (hrest : Rested w) (hprev : prev < w.1.slotCount)
    (hstate : (w.1.slots target).state = .unloaded) {r : EspErr × ((ElfApps × τ) × Log)}
    (hr : Created w e r) (hfail : r.1 ≠ espOk) :
    Living (restoreForeground prev (w.1.setState target .unloaded), r.2) ∧
      ShownUnloaded (restoreForeground prev (w.1.setState target .unloaded), r.2) := by
  have hsame : ∀ j, ((w.1.setState target .unloaded).slots j).state = (w.1.slots j).state := by
    intro j
    rw [Manager.setState, Manager.slots_setSlot]
    split_ifs with hj
    · rw [hj, hstate, AppSlot.state_setState]
    · rfl
  have hset : WellFormed ((w.1.setState target .unloaded).setForeground prev) :=
    (h.wellFormed.setState _).setForeground hprev
  obtain ⟨hwf, hslots⟩ := restoreForeground_slots hset
  simp only [hsame, Manager.entry_setState] at hslots
  constructor
  · refine h.change hwf (fun j => (hslots j).1) hr.regs (fun j e' handle hj hh => ?_) fun j e' hj => ?_
    · obtain ⟨hno, hyes⟩ := h.alive j e' handle hj hh
      simp only [Alive, hr.destroyed, hr.loaded, hr.running handle (.inl hfail)]
      refine ⟨fun hd => ⟨(hno hd).1, fun hunloaded => (hno hd).2 ?_⟩, hyes⟩
      rcases (hslots j).2 with heq | ⟨-, hrun⟩
      · rw [← heq]
        exact hunloaded
      · rw [hrun] at hunloaded
        cases hunloaded
    · rw [hr.destroyed]
      exact h.launcher j e' hj
  · intro j e' hj helf hd
    rw [hr.destroyed] at hd
    rw [(hslots j).1] at hj
    refine (hslots j).2.imp (fun heq => ?_) id
    rw [heq]
    exact hrest j e' hj helf hd

lemma Living.bringUp (h : Living w) (hrest : Rested w) (hP : Plenty P)
    (hprev : prev < w.1.slotCount) (he : (w.1.slots target).entry = some e) :
    let r := bringUp (elfEnv P).logged target prev w
    (IsElf e → (r.1 = espOk ↔ ¬ Destroyed e w.2.2)) ∧
      (r.1 = espOk → Living r.2.2 ∧ Rested r.2.2) ∧
      (r.1 ≠ espOk → Living r.2.2 ∧ ShownUnloaded r.2.2) := by
  have hstart : Callback.start ≠ .destroy ∨ ¬ IsElf e := .inl (by decide)
  have hrunning : AppState.running ≠ .unloaded ∨ ¬ IsElf e := .inl (by decide)
  simp only
  by_cases hstate : (w.1.slots target).state = .unloaded
  · have hr := h.created hP he hstate
    by_cases hok : ((elfEnv P).logged.onCreate e w.2).1 = espOk
    · rw [bringUp_unloaded hstate he hok]
      refine ⟨fun helf => ⟨fun _ => (hr.refused helf).mp hok, fun _ => rfl⟩, fun _ => ?_,
        fun hne => absurd rfl hne⟩
      -- the app runs, and is called back after that
      have hrun : Living (w.1.setState target .running, ((elfEnv P).logged.onCreate e w.2).2) := by
        refine h.change (h.wellFormed.setState _) (fun _ => Manager.entry_setState _) hr.regs
          (fun j e' handle hj hh => ?_) fun j e' hj => ?_
        · obtain ⟨hno, hyes⟩ := h.alive j e' handle hj hh
          simp only [Alive, hr.destroyed, hr.loaded]
          refine ⟨fun hd => ⟨(hno hd).1, fun hunloaded => ?_⟩, hyes⟩
          rw [Manager.setState, Manager.slots_setSlot] at hunloaded
          split_ifs at hunloaded with hjt
          · cases hunloaded
          · rw [hr.running handle (.inr fun hh' => hjt (h.handle_inj hj he hh hh'))]
            exact (hno hd).2 hunloaded
        · rw [hr.destroyed]
          exact h.launcher j e' hj
      have hrestRun : Rested (w.1.setState target .running, ((elfEnv P).logged.onCreate e w.2).2) := by
        have hrest' : Rested (w.1, ((elfEnv P).logged.onCreate e w.2).2) := by
          intro j e' hj helf hd
          exact hrest j e' hj helf ((hr.destroyed e').mp hd)
        refine hrest'.setRunning he fun helf => ?_
        rw [hr.destroyed]
        exact (hr.refused helf).mp hok
      have he' : ((w.1.setState target .running).slots target).entry = some e := by
        rw [Manager.entry_setState, he]
      have hcalled := hrun.quiet (P := P) he' hstart hrunning
      rw [Manager.setState_setState] at hcalled
      have hidem : (w.1.setState target .running).setState target .running =
          w.1.setState target .running := Manager.setState_setState _ _
      rw [← hidem] at hrestRun
      have hcalledRest := Rested.quiet (P := P)
        (w := (w.1.setState target .running, ((elfEnv P).logged.onCreate e w.2).2)) he' hstart hrestRun
      rw [hidem] at hcalledRest
      exact ⟨hcalled, hcalledRest⟩
    · rw [bringUp_fails hstate he hok]
      refine ⟨fun helf => hr.refused helf, fun hok' => absurd hok' hok, fun _ => ?_⟩
      exact h.refused hrest hprev hstate hr hok
  · have hnd : IsElf e → ¬ Destroyed e w.2.2 := fun helf hd => hstate (hrest target e he helf hd)
    obtain ⟨event, w', heq, hw'⟩ := bringUp_resumes (E := (elfEnv P).logged) prev hstate
    rw [heq]
    refine ⟨fun helf => ⟨fun _ => hnd helf, fun _ => rfl⟩, fun _ => ?_, fun hfail => absurd rfl hfail⟩
    rcases hw' with rfl | rfl
    · exact ⟨h.setRunning, hrest.setRunning he hnd⟩
    · have hresume : Callback.resume ≠ .destroy ∨ ¬ IsElf e := .inl (by decide)
      exact ⟨h.quiet he hresume hrunning, Rested.quiet he hresume (hrest.setRunning he hnd)⟩

end BringUp

/-! ### Launches -/

/-- The target comes into the foreground. -/
lemma Living.enterForeground (h : Living w) (hrest : Rested w) {target : Fin appSlotsMax}
    (hused : (w.1.slots target).entry ≠ none) (event : AppEvent) {handle : Int}
    (hhandle : handle = (w.1.slots target).handle) :
    Living (enterForeground (elfEnv P).logged target handle event w) ∧
      ShownUnloaded (enterForeground (elfEnv P).logged target handle event w) := by
  obtain ⟨t, now, heq⟩ : ∃ t now, AppManager.enterForeground (elfEnv P).logged target handle event w =
      ((w.1.setSlot target ((w.1.slots target).touch now)).setForeground handle,
        ((w.2.1.1, t), w.2.2)) := ⟨_, _, rfl⟩
  have hentry : ∀ j, ((w.1.setSlot target ((w.1.slots target).touch now)).slots j).entry =
      (w.1.slots j).entry ∧
      ((w.1.setSlot target ((w.1.slots target).touch now)).slots j).state = (w.1.slots j).state := by
    intro j
    rw [Manager.slots_setSlot]
    split_ifs with hj
    · rw [hj]
      exact ⟨rfl, rfl⟩
    · exact ⟨rfl, rfl⟩
  rw [heq]
  constructor
  · refine h.change ?_ (fun j => (hentry j).1) rfl (fun j e' handle' hj hh => ?_) h.launcher
    · have hwf : WellFormed (w.1.setSlot target ((w.1.slots target).touch now)) :=
        h.wellFormed.setSlot rfl rfl
      apply hwf.setForeground
      rw [hhandle, h.wellFormed.handle target hused, Manager.slotCount_setSlot]
      exact Int.ofNat_lt.mpr (h.wellFormed.used target hused)
    · rw [Manager.slots_setForeground, (hentry j).2]
      exact h.alive j e' handle' hj hh
  · intro j e' hj helf hd
    rw [Manager.slots_setForeground] at hj ⊢
    rw [(hentry j).1] at hj
    rw [(hentry j).2]
    exact .inl (hrest j e' hj helf hd)

/-- What a callback does to an app that is not the one called. -/
lemma destroyed_leaveForeground (h : Living w) {target : Fin appSlotsMax}
    (he : (w.1.slots target).entry = some e) (hfg : w.1.foreground ≠ (w.1.slots target).handle) :
    Destroyed e (leaveForeground (elfEnv P).logged w).2.2 ↔ Destroyed e w.2.2 := by
  have hcall : ∀ cb fg state, w.1.findSlotByHandle w.1.foreground = some fg →
      (Destroyed e (callAt (elfEnv P).logged cb fg (w.1.setState fg state, w.2)).2.2 ↔
        Destroyed e w.2.2) := by
    intro cb fg state hfind
    obtain ⟨hused, hfgi⟩ := h.wellFormed.findSlotByHandle_iff.mp hfind
    obtain ⟨e', he'⟩ := Option.ne_none_iff_exists'.mp hused
    have hne : fg ≠ target := by
      rintro rfl
      exact hfg (hfgi.trans (h.wellFormed.handle fg hused).symm)
    rw [callAt, Manager.entry_setState, he']
    change Destroyed e (w.2.2 ++ [(e', .called cb)]) ↔ _
    rw [destroyed_append, or_iff_left]
    rintro ⟨rfl, -⟩
    exact hne (h.wellFormed.entry_inj he' he)
  rw [AppManager.leaveForeground]
  cases hfind : w.1.findSlotByHandle w.1.foreground with
  | none => exact Iff.rfl
  | some fg =>
    simp only
    split_ifs
    · exact hcall .pause fg .backgrounded hfind
    · exact hcall .destroy fg .unloaded hfind
    · exact Iff.rfl

lemma Living.launch (h : Living w) (hshown : ShownUnloaded w) (hP : Plenty P) (appId : String) :
    Living (launch (elfEnv P).logged appId w).2 ∧
    ShownUnloaded (launch (elfEnv P).logged appId w).2 ∧
    ∀ i e, w.1.findSlotById appId = some i → (w.1.slots i).entry = some e → IsElf e →
      ((launch (elfEnv P).logged appId w).1 = espOk ↔
        w.1.foreground = (w.1.slots i).handle ∨ ¬ Destroyed e w.2.2) := by
  rw [AppManager.launch]
  cases hfind : w.1.findSlotById appId with
  | none =>
    refine ⟨h, hshown, fun i e hi => ?_⟩
    cases hi
  | some target =>
    obtain ⟨hused, hid⟩ := Manager.findSlotById_eq_some hfind
    obtain ⟨e, he⟩ := Option.ne_none_iff_exists'.mp hused
    simp only
    by_cases hfg : w.1.foreground = (w.1.slots target).handle
    · rw [if_pos hfg]
      refine ⟨h, hshown, fun i e' hi _ _ => ?_⟩
      obtain rfl := Option.some.inj hi
      exact ⟨fun _ => .inl hfg, fun _ => rfl⟩
    · rw [if_neg hfg]
      obtain ⟨hleft, hrest⟩ := h.leaveForeground (P := P) hshown
      have hd := destroyed_leaveForeground (P := P) h he hfg
      obtain ⟨-, hcount, hentry⟩ := leaveForeground_frame (E := (elfEnv P).logged) (w := w)
      rw [evictIfLow_plenty hP]
      set w₁ := AppManager.leaveForeground (elfEnv P).logged w with hw₁
      have hleft' := hleft.other (P.env.freeSize w₁.2.1.2).2
      have hrest' : Rested (w₁.1, ((w₁.2.1.1, (P.env.freeSize w₁.2.1.2).2), w₁.2.2)) := hrest
      have hprev : w.1.foreground < w₁.1.slotCount := hcount ▸ h.wellFormed.foreground
      obtain ⟨hlaw, hok, hfail⟩ := hleft'.bringUp hrest' hP hprev ((hentry target).trans he)
      set r := AppManager.bringUp (elfEnv P).logged target w.1.foreground
        (w₁.1, ((w₁.2.1.1, (P.env.freeSize w₁.2.1.2).2), w₁.2.2)) with hr
      have hlaw' : ∀ rc, (rc = espOk ↔ r.1 = espOk) → ∀ i e, some target = some i →
          (w.1.slots i).entry = some e → IsElf e →
          (rc = espOk ↔ w.1.foreground = (w.1.slots i).handle ∨ ¬ Destroyed e w.2.2) := by
        intro rc hrc i e' hi he' helf
        obtain rfl := Option.some.inj hi
        obtain rfl := Option.some.inj (he'.symm.trans he)
        rw [hrc, hlaw helf, or_iff_right hfg]
        exact not_congr hd
      by_cases hrc : r.1 = espOk
      · obtain ⟨hliving, hresting⟩ := hok hrc
        have hmanager := bringUp_ok hrc
        have hslot : (r.2.2.1.slots target).entry = some e ∧
            (r.2.2.1.slots target).handle = (w.1.slots target).handle := by
          have hentry' : (r.2.2.1.slots target).entry = some e := by
            rw [hmanager, Manager.entry_setState]
            exact (hentry target).trans he
          refine ⟨hentry', ?_⟩
          rw [hliving.wellFormed.handle target (by simp [hentry']), h.wellFormed.handle target hused]
        obtain ⟨hl, hs⟩ := hliving.enterForeground (P := P) hresting (by simp [hslot.1]) r.2.1
          hslot.2.symm
        rw [if_pos hrc]
        exact ⟨hl, hs, hlaw' _ ⟨fun _ => hrc, fun _ => rfl⟩⟩
      · obtain ⟨hl, hs⟩ := hfail hrc
        rw [if_neg hrc]
        exact ⟨hl, hs, hlaw' _ Iff.rfl⟩

lemma Living.switchTo (h : Living w) (hshown : ShownUnloaded w) (hP : Plenty P) (handle : Int) :
    Living (switchTo (elfEnv P).logged handle w).2 ∧
    ShownUnloaded (switchTo (elfEnv P).logged handle w).2 ∧
    ∀ i e, w.1.findSlotByHandle handle = some i → (w.1.slots i).entry = some e → IsElf e →
      ((switchTo (elfEnv P).logged handle w).1 = espOk ↔
        w.1.foreground = (w.1.slots i).handle ∨ ¬ Destroyed e w.2.2) := by
  rw [AppManager.switchTo]
  cases hfind : w.1.findSlotByHandle handle with
  | none =>
    refine ⟨h, hshown, fun i e hi => ?_⟩
    cases hi
  | some i =>
    obtain ⟨hused, -⟩ := h.wellFormed.findSlotByHandle_iff.mp hfind
    obtain ⟨hliving, hs, hlaw⟩ := h.launch hshown hP (w.1.slots i).appId
    simp only
    split_ifs with hnul
    · refine ⟨h, hshown, fun j e hj he helf => ?_⟩
      obtain rfl := Option.some.inj hj
      exact absurd (List.contains_iff_mem.mp hnul) (h.text i e he helf)
    · refine ⟨hliving, hs, fun j e hj he helf => ?_⟩
      obtain rfl := Option.some.inj hj
      exact hlaw i e (h.wellFormed.findSlotById_iff.mpr ⟨hused, rfl⟩) he helf

lemma Living.taskEnds (h : Living w) (slot : Slot) :
    Living (w.1, ((taskEnds slot w.2.1.1, w.2.1.2), w.2.2)) := by
  refine h.change h.wellFormed (fun _ => rfl) rfl (fun j e handle hj hh => ?_) h.launcher
  have hloaded : ((ElfLoader.taskEnds slot w.2.1.1).loader.apps handle).loaded =
      (w.2.1.1.loader.apps handle).loaded ∧ ((w.2.1.1.loader.apps handle).running = false →
        ((ElfLoader.taskEnds slot w.2.1.1).loader.apps handle).running = false) := by
    rw [ElfLoader.taskEnds, ElfApps.loader_setLoader]
    by_cases heq : handle = slot
    · rw [heq, ElfLoaderState.apps_setApp_self]
      exact ⟨rfl, fun _ => rfl⟩
    · rw [ElfLoaderState.apps_setApp_of_ne heq]
      exact ⟨rfl, id⟩
  obtain ⟨hno, hyes⟩ := h.alive j e handle hj hh
  refine ⟨fun hd => ⟨hloaded.1.trans (hno hd).1, fun hunloaded => ?_⟩, fun hd => ?_⟩
  · exact hloaded.2 ((hno hd).2 hunloaded)
  · exact hloaded.1.trans (hyes hd)

/-! ### Runs -/

/-- An ELF app can be launched if it is in the foreground or has not been destroyed, and not
otherwise. -/
def LaunchesUntilDestroyed (P : Platform τ) :
    SystemOp → Manager × ((ElfApps × τ) × Log) → Prop
  | .launch appId, w => ∀ i e, w.1.findSlotById appId = some i → (w.1.slots i).entry = some e →
    IsElf e → ((launch (elfEnv P).logged appId w).1 = espOk ↔
      w.1.foreground = (w.1.slots i).handle ∨ ¬ Destroyed e w.2.2)
  | .switchTo handle, w => ∀ i e, w.1.findSlotByHandle handle = some i →
    (w.1.slots i).entry = some e → IsElf e → ((switchTo (elfEnv P).logged handle w).1 = espOk ↔
      w.1.foreground = (w.1.slots i).handle ∨ ¬ Destroyed e w.2.2)
  | .taskEnds _, _ => True

lemma Living.step (hP : Plenty P) (h : Living w ∧ ShownUnloaded w) (o : SystemOp) :
    (Living ((system P).next o w) ∧ ShownUnloaded ((system P).next o w)) ∧
      LaunchesUntilDestroyed P o w := by
  cases o with
  | launch appId =>
    obtain ⟨hl, hs, hlaw⟩ := h.1.launch h.2 hP appId
    exact ⟨⟨hl, hs⟩, hlaw⟩
  | switchTo handle =>
    obtain ⟨hl, hs, hlaw⟩ := h.1.switchTo h.2 hP handle
    exact ⟨⟨hl, hs⟩, hlaw⟩
  | taskEnds slot => exact ⟨⟨h.1.taskEnds slot, h.2⟩, trivial⟩

/-- The state after the scan, with no callback made yet. -/
def booted (debug : Bool) (files : List AppFile) (m : Manager) (loader : ElfLoaderState) (t : τ) :
    Manager × ((ElfApps × τ) × Log) :=
  let w := elfAppScanAndRegister debug files (m, ⟨loader, fun _ => .empty⟩)
  (w.1, ((w.2, t), []))

lemma living_booted (debug : Bool) (files : List AppFile) {m : Manager} (loader : ElfLoaderState)
    (t : τ) (hwf : WellFormed m) (hm : ∀ i e, (m.slots i).entry = some e → ¬ IsElf e) :
    Living (booted debug files m loader t) ∧ ShownUnloaded (booted debug files m loader t) := by
  have hstart : Scanned (m, ⟨loader, fun _ => .empty⟩) := by
    refine ⟨hwf, fun i e he helf => ?_, fun i e he helf => ?_, fun i j e e' he _ helf => ?_,
      fun k k' handle hk => (nomatch hk), fun k handle hk => (nomatch hk), fun i e he helf => ?_,
      fun i e he helf => ?_⟩
    · exact absurd helf (hm i e he)
    · exact absurd helf (hm i e he)
    · exact absurd helf (hm i e he)
    · exact absurd helf (hm i e he)
    · exact absurd helf (hm i e he)
  have hscan := hstart.scan debug files
  have hno : ∀ e, ¬ Destroyed e [] := fun e => List.not_mem_nil
  refine ⟨⟨hscan.wellFormed, hscan.handle, hscan.key, hscan.apart, hscan.text,
    fun i e handle he hh => ?_, fun i e _ _ _ => hno e⟩, fun i e _ _ hd => absurd hd (hno e)⟩
  have helf := isElf_of_handleOf hh
  have hk := hh
  rw [ElfApps.handleOf, dif_pos (show e.key < maxLoadedApps from helf)] at hk
  obtain ⟨hloaded, hidle⟩ := hscan.loaded _ handle hk
  exact ⟨fun _ => ⟨hloaded, fun _ => hidle⟩, fun hd => absurd hd (hno e)⟩

/-- Whatever app files were found, and in every run in which memory suffices: a launch of one of
these apps succeeds if and only if the app is in the foreground or has not been destroyed. -/
theorem launches_untilDestroyed (P : Platform τ) (hP : Plenty P) (debug : Bool)
    (files : List AppFile) (m : Manager) (loader : ElfLoaderState) (t : τ) (hwf : WellFormed m)
    (hm : ∀ i e, (m.slots i).entry = some e → ¬ IsElf e) (ops : List SystemOp) :
    (system P).Along (LaunchesUntilDestroyed P) (booted debug files m loader t) ops := by
  have hall : (system P).Along (fun _ _ => True) (booted debug files m loader t) ops :=
    fun _ _ _ _ => trivial
  obtain ⟨halong, -⟩ := Component.along_of_preserved
    (fun o w (hw : Living w ∧ ShownUnloaded w) _ => (Living.step hP hw o).1)
    (living_booted debug files loader t hwf hm) hall
  exact halong.mono fun o w hw => (Living.step hP hw.1 o).2

/-- A device with memory to spare, and no apps of its own. -/
def samplePlatform : Platform Unit where
  env := sampleEnv fun _ => false
  xTaskCreate _ := true

def appFile (id : String) : AppFile where
  file :=
    { path := .ofBuffer [97]
      contents := some [0x7F]
      heapCapsMalloc := true
      manifest := some ⟨utf8 id, permIpc⟩
      signature := none
      signingVerify := fun _ _ => espOk
      espElfInit := espOk
      espElfRelocate := espOk
      manifestIsCompatible := some true }
  manifest := some ⟨utf8 id, permIpc⟩

/-- Two app files are found, and the first one is launched again after the second. -/
def twoApps : Manager × ((ElfApps × Unit) × Log) :=
  booted true [appFile "a", appFile "b"] .new .new ()

lemma samplePlatform_plenty : Plenty samplePlatform := fun _ => ⟨rfl, le_rfl⟩

theorem launches_untilDestroyed_sample :
    (system samplePlatform).Along (LaunchesUntilDestroyed samplePlatform) twoApps
      [.launch "a", .launch "b", .launch "a"] :=
  launches_untilDestroyed samplePlatform samplePlatform_plenty true [appFile "a", appFile "b"] .new
    .new () wellFormed_new (fun _ _ he => nomatch he) _

/-- Launching another app destroys the first one, which cannot be launched after that. -/
theorem launch_fails_when_destroyed :
    ¬ ∀ ops : List SystemOp, (system samplePlatform).Along (fun o w => ∀ appId i e,
      o = .launch appId → w.1.findSlotById appId = some i → (w.1.slots i).entry = some e → IsElf e →
      (launch (elfEnv samplePlatform).logged appId w).1 = espOk) twoApps ops := by
  intro hall
  have hlast := hall [.launch "a", .launch "b", .launch "a"] [.launch "a", .launch "b"]
    (.launch "a") [] rfl "a" ⟨0, by decide⟩ ⟨0, some "a"⟩ rfl
  have hfind : ((system samplePlatform).run twoApps [.launch "a", .launch "b"]).1.findSlotById "a" =
      some ⟨0, by decide⟩ := by
    decide +kernel
  have hentry : (((system samplePlatform).run twoApps [.launch "a", .launch "b"]).1.slots
      ⟨0, by decide⟩).entry = some ⟨0, some "a"⟩ := by
    decide +kernel
  have hrefused : (launch (elfEnv samplePlatform).logged "a"
      ((system samplePlatform).run twoApps [.launch "a", .launch "b"])).1 = espErrInvalidState := by
    decide +kernel
  rw [hlast hfind hentry (show 0 < maxLoadedApps by decide)] at hrefused
  exact absurd hrefused (by decide)

end ThistleOS.ElfLoader
