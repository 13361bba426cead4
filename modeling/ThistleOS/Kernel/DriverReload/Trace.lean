import ThistleOS.Kernel.DriverReload
import ThistleOS.Keyed

/-!
# The platform calls for a driver

The order in which the platform is called for a driver, as long as no running driver is registered
again, no unloaded one is started and no stop fails.
-/

namespace ThistleOS.DriverReload

open DriverReloadState

/-- What the platform has been asked for. A driver counts as loaded from its registration on. -/
inductive Hw
  | loaded
  | started
  | unloaded
  deriving DecidableEq

/-- A driver is started only if it is loaded and not started, and a started driver is stopped before
anything else happens to it. -/
def Hw.next : Hw → Event → Option Hw
  | .started, .stop => some .loaded
  | .started, _ => none
  | _, .stop => none
  | .loaded, .start => some .started
  | .unloaded, .start => none
  | _, .load => some .loaded
  | _, .unload => some .unloaded
  | hw, .unregister => some hw

/-- Where the calls for a path lead, as long as each of them is allowed where it comes. -/
def hw (path : CStr) (trace : Trace) : Option Hw := Keyed.runOf Hw.next .loaded path trace

/-- The platform calls for every path come in order. -/
def Lawful (trace : Trace) : Prop := ∀ path, hw path trace ≠ none

/-- The component with the trace of its platform calls. -/
def traced (supported : Bool) :
    Component ReloadOp (fun _ => Int32 × Trace) (DriverReloadState × Trace) :=
  (driverReload supported).watch fun _ reply trace => trace ++ reply.2

/-- No driver that runs is registered again, no driver is started that has been unloaded and not
loaded since, and a driver that runs can be stopped. -/
def Sound (supported : Bool) : ReloadOp → DriverReloadState × Trace → Prop
  | .register path _ _, w => ∀ p i drv, path = some p → w.1.drivers i = some drv →
    drv.path = p.take pathMax → drv.state ≠ .running
  | .start _ id, w => ∀ i drv, w.1.findDriver (·.id == id) = some i → w.1.drivers i = some drv →
    hw drv.path w.2 ≠ some .unloaded
  | .stop hooks id, w => ∀ i drv, w.1.findDriver (·.id == id) = some i → w.1.drivers i = some drv →
    drv.state = .running → hooks.stop = espOk
  | .reload hooks id, w => supported = true → ∀ i drv, w.1.findDriver (·.id == id) = some i →
    w.1.drivers i = some drv → drv.state = .running → hooks.stop = espOk
  | _, _ => True

/-! ### One driver -/

/-- The state of a driver says whether it is started. -/
def Consistent (drv : ReloadableDriver) (h : Hw) : Prop := drv.state = .running ↔ h = .started

/-- What is done to a driver is allowed, and its state says the truth afterwards. -/
def Obeys (r : EspErr × List Event × ReloadableDriver) (path : CStr) (h : Hw) : Prop :=
  ∃ h', r.2.1.foldlM Hw.next h = some h' ∧ Consistent r.2.2 h' ∧ r.2.2.path = path

namespace ReloadableDriver

variable {drv : ReloadableDriver} {h : Hw} {hooks : Hooks}

/-- A driver that is not running after a call that did not start it. -/
lemma obeys_of_not_running {rc : EspErr} {es : List Event} {drv' : ReloadableDriver} {h' : Hw}
    (hes : es.foldlM Hw.next h = some h') (hh : h' ≠ .started) (hstate : drv'.state ≠ .running)
    (hpath : drv'.path = drv.path) : Obeys (rc, es, drv') drv.path h :=
  ⟨h', hes, iff_of_false hstate hh, hpath⟩

lemma obeys_unchanged (hc : Consistent drv h) (rc : EspErr) : Obeys (rc, [], drv) drv.path h :=
  ⟨h, rfl, hc, rfl⟩

lemma next_load (hh : h ≠ .started) : Hw.next h .load = some .loaded := by
  cases h with
  | loaded => rfl
  | started => exact absurd rfl hh
  | unloaded => rfl

lemma next_unload (hh : h ≠ .started) : Hw.next h .unload = some .unloaded := by
  cases h with
  | loaded => rfl
  | started => exact absurd rfl hh
  | unloaded => rfl

lemma fail_obeys (hh : h ≠ .started) (rc rc' : EspErr) : Obeys (rc, [], drv.fail rc') drv.path h :=
  obeys_of_not_running rfl hh (by simp [fail]) rfl

lemma load_obeys (hc : Consistent drv h) : Obeys (drv.load hooks) drv.path h := by
  have hh : drv.state ≠ .running → h ≠ .started := fun hne heq => hne (hc.mpr heq)
  have hload : h ≠ .started → [Event.load].foldlM Hw.next h = some .loaded := by
    intro hne
    rw [List.foldlM_cons, next_load hne]
    rfl
  rw [load]
  cases hstate : drv.state with
  | empty => exact obeys_unchanged hc _
  | running => exact obeys_unchanged hc _
  | loaded =>
    have hne := hh (by simp [hstate])
    simp only
    split_ifs
    · exact fail_obeys hne _ _
    · exact obeys_of_not_running (hload hne) (by simp) (by simp) rfl
  | stopped =>
    have hne := hh (by simp [hstate])
    simp only
    split_ifs
    · exact fail_obeys hne _ _
    · exact obeys_of_not_running (hload hne) (by simp) (by simp) rfl
  | error =>
    have hne := hh (by simp [hstate])
    simp only
    split_ifs
    · exact fail_obeys hne _ _
    · exact obeys_of_not_running (hload hne) (by simp) (by simp) rfl

lemma unload_obeys (hc : Consistent drv h) : Obeys (drv.unload hooks) drv.path h := by
  have hrest : drv.state ≠ .running → Obeys
      (if hooks.unload ≠ espOk then (hooks.unload, [], drv.fail hooks.unload)
      else (espOk, [.unload], { drv with state := .loaded, lastError := 0 })) drv.path h := by
    intro hne
    have hh : h ≠ .started := fun heq => hne (hc.mpr heq)
    split_ifs
    · exact fail_obeys hh _ _
    · have hnext : [Event.unload].foldlM Hw.next h = some .unloaded := by
        rw [List.foldlM_cons, next_unload hh]
        rfl
      exact obeys_of_not_running hnext (by simp) (by simp) rfl
  rw [unload]
  cases hstate : drv.state with
  | running => exact obeys_unchanged hc _
  | empty => exact obeys_unchanged hc _
  | loaded => exact hrest (by simp [hstate])
  | stopped => exact hrest (by simp [hstate])
  | error => exact hrest (by simp [hstate])

/-- Replacing a driver that is not started. -/
lemma replace_obeys {calls : List Event} {h' : Hw} (hcalls : calls.foldlM Hw.next h = some h')
    (hh : h' ≠ .started) : Obeys (drv.replace hooks calls) drv.path h := by
  have hmore : ∀ es h'', es.foldlM Hw.next h' = some h'' →
      (calls ++ es).foldlM Hw.next h = some h'' := by
    intro es h'' hes
    rw [List.foldlM_append, hcalls]
    exact hes
  have hunload : [Event.unload].foldlM Hw.next h' = some .unloaded := by
    rw [List.foldlM_cons, next_unload hh]
    rfl
  have hboth : [Event.unload, .load].foldlM Hw.next h' = some .loaded := by
    rw [List.foldlM_cons, next_unload hh]
    rfl
  rw [replace]
  split_ifs
  · exact obeys_of_not_running hcalls hh (by simp [fail]) rfl
  · exact obeys_of_not_running hcalls hh (by simp [fail]) rfl
  · exact obeys_of_not_running (hmore _ _ hunload) (by simp) (by simp [fail]) rfl
  · exact obeys_of_not_running (hmore _ _ hboth) (by simp) (by simp [fail]) rfl
  · exact obeys_of_not_running (hmore _ _ hboth) (by simp) (by simp) rfl

lemma reload_obeys (hc : Consistent drv h) (hstop : drv.state = .running → hooks.stop = espOk) :
    Obeys (drv.reload hooks) drv.path h := by
  have hrest : drv.state ≠ .running → Obeys (drv.replace hooks []) drv.path h :=
    fun hne => replace_obeys rfl fun heq => hne (hc.mpr heq)
  rw [reload]
  cases hstate : drv.state with
  | empty => exact obeys_unchanged hc _
  | running =>
    obtain rfl := hc.mp hstate
    simp only [hstop hstate, ne_eq, not_true_eq_false, if_false]
    have hnext : [Event.stop].foldlM Hw.next .started = some .loaded := rfl
    have hreplace : Obeys (ReloadableDriver.replace hooks [.stop] { drv with state := .stopped })
        drv.path .started := replace_obeys hnext (by simp)
    exact hreplace
  | loaded => exact hrest (by simp [hstate])
  | stopped => exact hrest (by simp [hstate])
  | error => exact hrest (by simp [hstate])

lemma start_obeys (hc : Consistent drv h) (hloaded : h ≠ .unloaded) :
    Obeys (drv.start hooks) drv.path h := by
  rw [start]
  split_ifs with hstate hstart
  · exact obeys_unchanged hc _
  · rw [not_not] at hstate
    exact fail_obeys (fun heq => by simp [hc.mpr heq] at hstate) _ _
  · rw [not_not] at hstate
    cases h with
    | loaded => exact ⟨.started, rfl, iff_of_true rfl rfl, rfl⟩
    | started => simp [hc.mpr rfl] at hstate
    | unloaded => exact absurd rfl hloaded

lemma stop_obeys (hc : Consistent drv h) (hstop : drv.state = .running → hooks.stop = espOk) :
    Obeys (drv.stop hooks) drv.path h := by
  rw [stop]
  split_ifs with hstate hfail
  · exact obeys_unchanged hc _
  · exact absurd (hstop (not_not.mp hstate)) hfail
  · obtain rfl := hc.mp (not_not.mp hstate)
    have hnext : [Event.stop].foldlM Hw.next .started = some .loaded := rfl
    exact obeys_of_not_running hnext (by simp) (by simp) rfl

end ReloadableDriver

/-! ### The table -/

variable {s : DriverReloadState} {trace : Trace} {i j : Fin maxReloadable} {supported : Bool}

/-- The drivers have different paths, and the state of each says whether it is started. -/
structure Tracked (s : DriverReloadState) (trace : Trace) : Prop where
  paths : ∀ i j drv drv', s.drivers i = some drv → s.drivers j = some drv' →
    drv.path = drv'.path → i = j
  held : ∀ i drv, s.drivers i = some drv → ∃ h, hw drv.path trace = some h ∧ Consistent drv h
  absent : ∀ path, (∀ i drv, s.drivers i = some drv → drv.path ≠ path) →
    ∃ h, hw path trace = some h ∧ h ≠ .started

lemma Tracked.lawful (h : Tracked s trace) : Lawful trace := by
  intro path
  by_cases hheld : ∃ i drv, s.drivers i = some drv ∧ drv.path = path
  · obtain ⟨i, drv, hi, rfl⟩ := hheld
    obtain ⟨h', heq, -⟩ := h.held i drv hi
    simp [heq]
  · obtain ⟨h', heq, -⟩ := h.absent path fun i drv hi hp => hheld ⟨i, drv, hi, hp⟩
    simp [heq]

lemma findDriver_eq_some {p : ReloadableDriver → Bool} (h : s.findDriver p = some i) :
    ∃ drv, s.drivers i = some drv ∧ p drv = true := by
  have hp := List.find?_some h
  exact (Option.any_eq_true _ _).mp hp

lemma findDriver_eq_none {p : ReloadableDriver → Bool} (h : s.findDriver p = none)
    {drv : ReloadableDriver} (hi : s.drivers i = some drv) : p drv = false := by
  have hp := List.find?_eq_none.mp h i (List.mem_finRange i)
  simpa [hi] using hp

@[simp] lemma drivers_setDriver_self (drv : Option ReloadableDriver) :
    (s.setDriver i drv).drivers i = drv := Function.update_self _ _ _

lemma drivers_setDriver_of_ne (h : j ≠ i) (drv : Option ReloadableDriver) :
    (s.setDriver i drv).drivers j = s.drivers j := Function.update_of_ne h _ _

/-- A driver in a slot that was free, or had a driver with the same path, with the calls made for
it. -/
lemma Tracked.setDriver (h : Tracked s trace) (drv' : ReloadableDriver) (es : List Event) {hw' : Hw}
    (hslot : ∀ drv, s.drivers i = some drv → drv.path = drv'.path)
    (hothers : ∀ j drv, j ≠ i → s.drivers j = some drv → drv.path ≠ drv'.path)
    (hes : (hw drv'.path trace).bind (fun b => es.foldlM Hw.next b) = some hw')
    (hc : Consistent drv' hw') :
    Tracked (s.setDriver i (some drv')) (trace ++ es.map (drv'.path, ·)) := by
  have hself : hw drv'.path (trace ++ es.map (drv'.path, ·)) = some hw' :=
    (Keyed.runOf_append _ _).trans hes
  have hother : ∀ path, path ≠ drv'.path →
      hw path (trace ++ es.map (drv'.path, ·)) = hw path trace :=
    fun path hne => Keyed.runOf_append_of_ne hne _ _
  refine ⟨fun j k d d' hj hk hpath => ?_, fun j d hj => ?_, fun path hpath => ?_⟩
  · by_cases hji : j = i
    · by_cases hki : k = i
      · exact hji.trans hki.symm
      · subst hji
        rw [drivers_setDriver_self] at hj
        obtain rfl := Option.some.inj hj
        rw [drivers_setDriver_of_ne hki] at hk
        exact absurd hpath.symm (hothers k d' hki hk)
    · rw [drivers_setDriver_of_ne hji] at hj
      by_cases hki : k = i
      · subst hki
        rw [drivers_setDriver_self] at hk
        obtain rfl := Option.some.inj hk
        exact absurd hpath (hothers j d hji hj)
      · rw [drivers_setDriver_of_ne hki] at hk
        exact h.paths j k d d' hj hk hpath
  · by_cases hji : j = i
    · subst hji
      rw [drivers_setDriver_self] at hj
      obtain rfl := Option.some.inj hj
      exact ⟨hw', hself, hc⟩
    · rw [drivers_setDriver_of_ne hji] at hj
      rw [hother _ (hothers j d hji hj)]
      exact h.held j d hj
  · have hne : path ≠ drv'.path := fun heq => hpath i drv' (drivers_setDriver_self _) heq.symm
    rw [hother path hne]
    refine h.absent path fun j d hj => ?_
    by_cases hji : j = i
    · subst hji
      rw [hslot d hj]
      exact hne.symm
    · exact hpath j d (by rwa [drivers_setDriver_of_ne hji])

lemma Tracked.withDriver (h : Tracked s trace) (id : UInt32)
    (f : ReloadableDriver → EspErr × List Event × ReloadableDriver)
    (hf : ∀ i drv hw', s.findDriver (·.id == id) = some i → s.drivers i = some drv →
      hw drv.path trace = some hw' → Consistent drv hw' → Obeys (f drv) drv.path hw') :
    Tracked (s.withDriver id f).2.2 (trace ++ (s.withDriver id f).2.1) := by
  rw [DriverReloadState.withDriver]
  cases hfind : s.findDriver (·.id == id) with
  | none => simpa using h
  | some i =>
    obtain ⟨drv, hi, -⟩ := findDriver_eq_some hfind
    obtain ⟨h₀, hhw, hc⟩ := h.held i drv hi
    obtain ⟨h', hes, hc', hpath⟩ := hf i drv h₀ hfind hi hhw hc
    simp only [hi]
    rw [← hpath]
    refine h.setDriver _ _ (fun d hd => ?_) (fun j d hji hj heq => hji ?_) ?_ hc'
    · rw [hi] at hd
      obtain rfl := Option.some.inj hd
      exact hpath.symm
    · exact h.paths j i d drv hj hi (heq.trans hpath)
    · rw [hpath, hhw]
      exact hes

lemma Tracked.replacing (h : Tracked s trace)
    {call : DriverReloadState → EspErr × Trace × DriverReloadState}
    (hcall : supported = true → Tracked (call s).2.2 (trace ++ (call s).2.1)) :
    Tracked (replacing supported call s).2.2 (trace ++ (replacing supported call s).2.1) := by
  rw [DriverReload.replacing]
  split_ifs with hs
  · exact hcall hs
  · simpa using h

lemma Tracked.register (h : Tracked s trace) {path name : Option CStr} {halType : UInt8}
    (hs : Sound supported (.register path name halType) (s, trace)) :
    Tracked (register path name halType s).2 trace := by
  cases path with
  | none => exact h
  | some path =>
    cases name with
    | none => exact h
    | some name =>
      simp only [DriverReload.register]
      split_ifs with htype
      · exact h
      cases hfind : s.findDriver (·.path == path.take pathMax) with
      | some i =>
        obtain ⟨drv, hi, hpath⟩ := findDriver_eq_some hfind
        have hpath := beq_iff_eq.mp hpath
        obtain ⟨h', hhw, hc⟩ := h.held i drv hi
        have hnot : h' ≠ .started := fun heq => hs path i drv rfl hi hpath (hc.mpr heq)
        have hset := h.setDriver (i := i)
          (.registered (((s.drivers i).map ReloadableDriver.id).getD 0) (path.take pathMax)
            (name.take nameMax) halType) [] (fun d hd => ?_) (fun j d hji hj heq => hji ?_) ?_
          (iff_of_false (by simp [ReloadableDriver.registered]) hnot)
        · simpa using hset
        · rw [hi] at hd
          obtain rfl := Option.some.inj hd
          exact hpath
        · exact h.paths j i d drv hj hi (heq.trans hpath.symm)
        · change (hw (path.take pathMax) trace).bind _ = _
          rw [← hpath, hhw]
          rfl
      | none =>
        have hnew : ∀ j d, s.drivers j = some d → d.path ≠ path.take pathMax := by
          intro j d hj heq
          have hne := findDriver_eq_none hfind hj
          rw [heq, beq_self_eq_true] at hne
          cases hne
        cases hfree : s.findFreeSlot with
        | none => exact h
        | some i =>
          obtain ⟨h', hhw, hnot⟩ := h.absent _ hnew
          have hfree : s.drivers i = none := by
            have hp := List.find?_some hfree
            simpa using hp
          have hset := h.setDriver (i := i)
            (.registered s.nextId (path.take pathMax) (name.take nameMax) halType) []
            (fun d hd => by simp [hfree] at hd) (fun j d hji hj => hnew j d hj)
            (by simp [ReloadableDriver.registered, hhw])
            (iff_of_false (by simp [ReloadableDriver.registered]) hnot)
          rw [List.map_nil, List.append_nil] at hset
          exact ⟨hset.paths, hset.held, hset.absent⟩

lemma Tracked.unregister (h : Tracked s trace) (id : UInt32) :
    Tracked (unregister id s).2.2 (trace ++ (unregister id s).2.1) := by
  rw [DriverReload.unregister]
  cases hfind : s.findDriver (·.id == id) with
  | none => simpa using h
  | some i =>
    obtain ⟨drv, hi, -⟩ := findDriver_eq_some hfind
    obtain ⟨h', hhw, hc⟩ := h.held i drv hi
    simp only [hi]
    split_ifs with hrun
    · simpa using h
    · have hnot : h' ≠ .started := fun heq => hrun (hc.mpr heq)
      have hnext : Hw.next h' .unregister = some h' := by
        cases h' with
        | loaded => rfl
        | started => exact absurd rfl hnot
        | unloaded => rfl
      have hsame : ∀ path, hw path (trace ++ [(drv.path, .unregister)]) = hw path trace := by
        intro path
        by_cases hpath : path = drv.path
        · subst hpath
          refine (Keyed.runOf_append trace [.unregister]).trans ?_
          change (hw drv.path trace).bind _ = _
          rw [hhw]
          exact (congrArg (fun o => o >>= pure) hnext)
        · exact Keyed.runOf_append_of_ne hpath trace [.unregister]
      have hslots : ∀ j d, (s.setDriver i none).drivers j = some d → j ≠ i ∧ s.drivers j = some d := by
        intro j d hj
        by_cases hji : j = i
        · rw [hji, drivers_setDriver_self] at hj
          cases hj
        · rw [drivers_setDriver_of_ne hji] at hj
          exact ⟨hji, hj⟩
      refine ⟨fun j k d d' hj hk => ?_, fun j d hj => ?_, fun path hpath => ?_⟩
      · exact h.paths j k d d' (hslots j d hj).2 (hslots k d' hk).2
      · rw [hsame]
        exact h.held j d (hslots j d hj).2
      · rw [hsame]
        by_cases heq : path = drv.path
        · rw [heq]
          exact ⟨h', hhw, hnot⟩
        · refine h.absent path fun j d hj => ?_
          by_cases hji : j = i
          · rw [hji, hi] at hj
            obtain rfl := Option.some.inj hj
            exact Ne.symm heq
          · exact hpath j d (by rwa [drivers_setDriver_of_ne hji])

/-! ### Runs -/

lemma Tracked.step (h : Tracked s trace) {o : ReloadOp} (hs : Sound supported o (s, trace)) :
    Tracked ((traced supported).next o (s, trace)).1 ((traced supported).next o (s, trace)).2 := by
  cases o with
  | register path name halType =>
    change Tracked _ (trace ++ [])
    rw [List.append_nil]
    exact h.register hs
  | unregister id => exact h.unregister id
  | load hooks id =>
    exact h.replacing fun _ =>
      h.withDriver _ _ fun i drv h' _ _ _ hc => ReloadableDriver.load_obeys hc
  | unload hooks id =>
    exact h.replacing fun _ =>
      h.withDriver _ _ fun i drv h' _ _ _ hc => ReloadableDriver.unload_obeys hc
  | reload hooks id =>
    refine h.replacing fun hsup => ?_
    have hstep := h.withDriver id (ReloadableDriver.reload hooks)
      fun i drv h' hfind hi _ hc => ReloadableDriver.reload_obeys hc (hs hsup i drv hfind hi)
    simp only
    split_ifs
    · exact ⟨hstep.paths, hstep.held, hstep.absent⟩
    · exact hstep
  | start hooks id =>
    refine h.withDriver _ _ fun i drv h' hfind hi hhw hc => ReloadableDriver.start_obeys hc ?_
    rintro rfl
    exact hs i drv hfind hi hhw
  | stop hooks id =>
    exact h.withDriver _ _ fun i drv h' hfind hi _ hc =>
      ReloadableDriver.stop_obeys hc (hs i drv hfind hi)

lemma tracked_init : Tracked .init [] where
  paths _ _ _ _ h := nomatch h
  held _ _ h := nomatch h
  absent _ _ := ⟨.loaded, rfl, by simp⟩

/-- In every run in which no running driver is registered again, no unloaded one is started and no
stop fails, the platform is called in order for every driver path. -/
theorem platform_lawful (supported : Bool) (ops : List ReloadOp)
    (h : (traced supported).Along (Sound supported) (.init, []) ops) :
    (traced supported).Along (fun _ w => Lawful w.2) (.init, []) ops ∧
      Lawful ((traced supported).run (.init, []) ops).2 := by
  obtain ⟨halong, hlast⟩ := Component.along_of_preserved (I := fun (w : DriverReloadState × Trace) => Tracked w.1 w.2)
    (fun _ _ hw hs => hw.step hs) tracked_init h
  exact ⟨halong.mono fun _ _ hw => hw.1.lawful, hlast.lawful⟩

def workingHooks : Hooks := ⟨espOk, espOk, espOk, espOk, espOk, espOk⟩

def samplePath : CStr := ⟨[100], by decide⟩

theorem platform_lawful_sample :
    let ops := [.register (some samplePath) (some samplePath) 0, .start workingHooks 1,
      .stop workingHooks 1, .unload workingHooks 1]
    (traced true).Along (fun _ w => Lawful w.2) (.init, []) ops ∧
      Lawful ((traced true).run (.init, []) ops).2 := by
  refine platform_lawful true _ ?_
  simp only [Component.along_cons]
  refine ⟨fun p i drv _ hi => (nomatch hi), fun i drv hfind hi => ?_, fun _ _ _ _ _ => rfl, trivial,
    Component.along_nil⟩
  exact nofun

/-- Registering the path of a running driver again lets it be started a second time. -/
theorem platform_not_lawful :
    ¬ ∀ ops : List ReloadOp, Lawful ((traced false).run (.init, []) ops).2 := by
  intro hall
  have hlawful := hall [.register (some samplePath) (some samplePath) 0, .start workingHooks 1,
    .register (some samplePath) (some samplePath) 0, .start workingHooks 1] samplePath
  exact hlawful rfl

end ThistleOS.DriverReload
