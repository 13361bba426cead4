import ThistleOS.Kernel.AppManager.Slots
import ThistleOS.Keyed

/-!
# The callbacks of an app

The order in which the app manager calls an app back. The law fails where a launch is refused while
another app runs, and where an app in the background is suspended.
-/

namespace ThistleOS.AppManager

/-! ### The log of callbacks -/

/-- A call into an app; `on_create` comes with its result. -/
inductive Lifecycle
  | created (rc : EspErr)
  | called (cb : Callback)
  deriving DecidableEq

abbrev Log := List (AppEntry × Lifecycle)

/-- The environment with a log of the calls into the apps. -/
def Env.logged {σ : Type} (E : Env σ) : Env (σ × Log) where
  onCreate e s := ((E.onCreate e s.1).1, ((E.onCreate e s.1).2, s.2 ++ [(e, .created (E.onCreate e s.1).1)]))
  call cb e s := (E.call cb e s.1, s.2 ++ [(e, .called cb)])
  freeSize s := ((E.freeSize s.1).1, ((E.freeSize s.1).2, s.2))
  uptimeMs s := ((E.uptimeMs s.1).1, ((E.uptimeMs s.1).2, s.2))
  publish event handle s := (E.publish event handle s.1, s.2)

/-- Where an app stands in its life. -/
inductive Phase
  | out
  | created
  | active
  | paused
  deriving DecidableEq

/-- Create, start, any number of pause and resume, destroy, and all over again. A create that fails
changes nothing, and an app may be destroyed while it is paused. -/
def Phase.next : Phase → Lifecycle → Option Phase
  | .out, .created rc => some (if rc = espOk then .created else .out)
  | .created, .called .start => some .active
  | .active, .called .pause => some .paused
  | .paused, .called .resume => some .active
  | .active, .called .destroy => some .out
  | .paused, .called .destroy => some .out
  | _, _ => none

lemma Phase.next_refused {rc : EspErr} (h : rc ≠ espOk) :
    Phase.next .out (.created rc) = some .out := congrArg some (if_neg h)

/-- The calls into one app. -/
def callsOf (e : AppEntry) (log : Log) : List Lifecycle :=
  log.filterMap fun x => if x.1 = e then some x.2 else none

/-- Where the calls lead, as long as each of them is allowed where it comes. -/
def phase (e : AppEntry) (log : Log) : Option Phase := (callsOf e log).foldlM Phase.next .out

def AppState.phase : AppState → Phase
  | .unloaded => .out
  | .loading => .created
  | .running => .active
  | .backgrounded => .paused
  | .suspended => .paused

variable {σ : Type} {E : Env σ} {e : AppEntry} {m : Manager} {log : Log} {i : Fin appSlotsMax}
  {w : Manager × (σ × Log)}

lemma phase_append (e : AppEntry) (log : Log) (xs : List Lifecycle) :
    phase e (log ++ xs.map (e, ·)) = (phase e log).bind fun p => xs.foldlM Phase.next p :=
  Keyed.runOf_append log xs

lemma phase_append_of_ne {e' : AppEntry} (h : e' ≠ e) (log : Log) (xs : List Lifecycle) :
    phase e' (log ++ xs.map (e, ·)) = phase e' log := Keyed.runOf_append_of_ne h log xs

/-! ### The states tell the phases -/

/-- The state of a slot is the phase of the app in it, and an app without a slot is out. -/
structure Traced (m : Manager) (log : Log) : Prop where
  held : ∀ i e, (m.slots i).entry = some e → phase e log = some (m.slots i).state.phase
  absent : ∀ e, (∀ i, (m.slots i).entry ≠ some e) → phase e log = some .out

/-- An app has been called, and its slot has a new state or is empty now. -/
lemma Traced.move (h : Traced m log) (hwf : WellFormed m) (he : (m.slots i).entry = some e)
    (xs : List Lifecycle) {p : Phase} {slot : AppSlot}
    (hxs : xs.foldlM Phase.next (m.slots i).state.phase = some p)
    (hslot : slot.entry = some e ∧ slot.state.phase = p ∨ slot.entry = none ∧ p = .out) :
    Traced (m.setSlot i slot) (log ++ xs.map (e, ·)) := by
  have hnew : phase e (log ++ xs.map (e, ·)) = some p := by
    rw [phase_append, h.held i e he]
    exact hxs
  constructor
  · intro j e' he'
    rw [Manager.slots_setSlot] at he' ⊢
    split_ifs at he' ⊢ with hj
    · rcases hslot with ⟨hentry, hp⟩ | ⟨hnone, -⟩
      · obtain rfl := Option.some.inj (hentry.symm.trans he')
        rw [hnew, hp]
      · rw [hnone] at he'
        cases he'
    · have hne : e' ≠ e := by
        rintro rfl
        exact hj (hwf.entry_inj he' he)
      rw [phase_append_of_ne hne]
      exact h.held j e' he'
  · intro e' he'
    by_cases hee : e' = e
    · subst hee
      rcases hslot with ⟨hentry, -⟩ | ⟨-, rfl⟩
      · exact absurd (by rw [Manager.slots_setSlot_self, hentry]) (he' i)
      · exact hnew
    · rw [phase_append_of_ne hee]
      refine h.absent e' fun j hj => ?_
      have hji : j ≠ i := by
        rintro rfl
        exact hee (Option.some.inj (hj.symm.trans he))
      exact he' j (by rwa [Manager.slots_setSlot_of_ne hji])

/-- A slot may change whatever does not show in the phase of its app. -/
lemma Traced.setSlot (h : Traced m log) {slot : AppSlot} (hentry : slot.entry = (m.slots i).entry)
    (hphase : slot.state.phase = (m.slots i).state.phase) : Traced (m.setSlot i slot) log := by
  have hsame : ∀ j, ((m.setSlot i slot).slots j).entry = (m.slots j).entry ∧
      ((m.setSlot i slot).slots j).state.phase = (m.slots j).state.phase := by
    intro j
    rw [Manager.slots_setSlot]
    split_ifs with hj
    · exact hj ▸ ⟨hentry, hphase⟩
    · exact ⟨rfl, rfl⟩
  constructor
  · intro j e' he'
    rw [(hsame j).2]
    exact h.held j e' ((hsame j).1 ▸ he')
  · intro e' he'
    exact h.absent e' fun j hj => he' j ((hsame j).1.trans hj)

/-- A change of an empty slot. -/
lemma Traced.setSlot_of_none (h : Traced m log) (hnone : (m.slots i).entry = none) {slot : AppSlot}
    (hslot : slot.entry = none) : Traced (m.setSlot i slot) log := by
  have hsame : ∀ j e', ((m.setSlot i slot).slots j).entry = some e' →
      (m.setSlot i slot).slots j = m.slots j := by
    intro j e' he'
    rw [Manager.slots_setSlot] at he' ⊢
    split_ifs at he' ⊢ with hj
    · rw [hslot] at he'
      cases he'
    · rfl
  constructor
  · intro j e' he'
    have hj := hsame j e' he'
    rw [hj] at he' ⊢
    exact h.held j e' he'
  · intro e' he'
    refine h.absent e' fun j hj => he' j ?_
    have hji : j ≠ i := by
      rintro rfl
      rw [hnone] at hj
      cases hj
    rwa [Manager.slots_setSlot_of_ne hji]

lemma traced_new : Traced .new [] where
  held _ _ h := nomatch h
  absent _ _ := rfl

/-- The invariant: nothing is in the middle of a launch, and the foreground handle names no app that
does not run. -/
structure Orderly (w : Manager × (σ × Log)) : Prop where
  wellFormed : WellFormed w.1
  traced : Traced w.1 w.2.2
  noLoading : ∀ i, (w.1.slots i).entry ≠ none → (w.1.slots i).state ≠ .loading
  foreground : ∀ i, (w.1.slots i).entry ≠ none → w.1.foreground = i.val →
    (w.1.slots i).state = .running

/-- What holds of the manager in the middle of a launch, too. -/
structure Between (w : Manager × (σ × Log)) : Prop where
  wellFormed : WellFormed w.1
  traced : Traced w.1 w.2.2
  noLoading : ∀ i, (w.1.slots i).entry ≠ none → (w.1.slots i).state ≠ .loading

lemma Orderly.between (h : Orderly w) : Between w := ⟨h.wellFormed, h.traced, h.noLoading⟩

lemma callAt_of_some {E : Env σ} {cb : Callback} {w : Manager × σ}
    (he : (w.1.slots i).entry = some e) : callAt E cb i w = (w.1, E.call cb e w.2) := by
  simp only [callAt, he]

lemma callAt_of_none {E : Env σ} {cb : Callback} {w : Manager × σ}
    (he : (w.1.slots i).entry = none) : callAt E cb i w = w := by
  simp only [callAt, he]

lemma Between.noLoading_setState (h : Between w) {state : AppState} (hstate : state ≠ .loading)
    (j : Fin appSlotsMax) (hj : ((w.1.setState i state).slots j).entry ≠ none) :
    ((w.1.setState i state).slots j).state ≠ .loading := by
  rw [Manager.entry_setState] at hj
  rw [Manager.setState, Manager.slots_setSlot]
  split_ifs
  · exact hstate
  · exact h.noLoading j hj

/-- A slot gets a new state, and its app is told. -/
lemma Between.call (h : Between w) (he : (w.1.slots i).entry = some e) {cb : Callback}
    {state : AppState} (hnext : (w.1.slots i).state.phase.next (.called cb) = some state.phase)
    (hstate : state ≠ .loading) :
    Between (callAt E.logged cb i (w.1.setState i state, w.2)) := by
  have he' : ((w.1.setState i state).slots i).entry = some e := by
    rw [Manager.entry_setState, he]
  rw [callAt_of_some he']
  refine ⟨h.wellFormed.setState state, ?_, h.noLoading_setState hstate⟩
  refine h.traced.move h.wellFormed he [.called cb] (p := state.phase) ?_ (.inl ⟨he, rfl⟩)
  simp only [List.foldlM_cons, List.foldlM_nil, hnext]
  rfl

/-- An app is told that it is destroyed, and its slot is emptied. -/
lemma Between.destroy (h : Between w) (hused : (w.1.slots i).entry ≠ none)
    (hphase : (w.1.slots i).state.phase = .active ∨ (w.1.slots i).state.phase = .paused) :
    Between ((callAt E.logged .destroy i w).1.setSlot i .empty,
      (callAt E.logged .destroy i w).2) := by
  obtain ⟨e, he⟩ := Option.ne_none_iff_exists'.mp hused
  rw [callAt_of_some he]
  refine ⟨h.wellFormed.clear, ?_, fun j hj => ?_⟩
  · refine h.traced.move h.wellFormed he [.called .destroy] (p := .out) ?_ (.inr ⟨rfl, rfl⟩)
    rcases hphase with hp | hp
    · rw [hp]
      rfl
    · rw [hp]
      rfl
  · simp only [Manager.slots_setSlot] at hj ⊢
    split_ifs at hj ⊢
    · exact absurd rfl hj
    · exact h.noLoading j hj

/-! ### The calls -/

lemma Between.evictLru (h : Between w) : Between (evictLru E.logged w).2 := by
  rw [AppManager.evictLru]
  cases hold : w.1.oldest with
  | none => exact h
  | some i =>
    obtain ⟨hused, -, hstate⟩ := of_oldest hold
    have hd : Between ((callAt E.logged .destroy i w).1.setSlot i .empty,
        (callAt E.logged .destroy i w).2) := by
      apply h.destroy hused
      rcases hstate with hs | hs
      · exact .inr (by rw [hs]; rfl)
      · exact .inr (by rw [hs]; rfl)
    exact ⟨hd.wellFormed, hd.traced, hd.noLoading⟩

lemma Between.evictIfLow (h : Between w) : Between (evictIfLow E.logged w) := by
  have hfree : Between (w.1, (E.logged.freeSize w.2).2) := ⟨h.wellFormed, h.traced, h.noLoading⟩
  simp only [AppManager.evictIfLow]
  split_ifs
  · exact hfree.evictLru
  · exact hfree

lemma Between.leaveForeground (h : Between w) : Between (leaveForeground E.logged w) := by
  rw [AppManager.leaveForeground]
  cases hfg : w.1.findSlotByHandle w.1.foreground with
  | none => exact h
  | some fg =>
    obtain ⟨-, hused, -⟩ := Manager.findSlotByHandle_eq_some hfg
    obtain ⟨e, he⟩ := Option.ne_none_iff_exists'.mp hused
    simp only
    split_ifs with hrun
    · exact h.call he (by rw [hrun]; rfl) (by decide)
    · exact h.call he (by rw [hrun]; rfl) (by decide)
    · exact h

/-- Bringing up a target that is not refused. -/
lemma Between.bringUp {target : Fin appSlotsMax} {prev : Int} (h : Between w)
    (hok : (bringUp E.logged target prev w).1 = espOk) :
    Between (bringUp E.logged target prev w).2.2 := by
  rw [AppManager.bringUp] at hok ⊢
  cases he : (w.1.slots target).entry with
  | none =>
    -- the eviction has taken the target itself
    have hquiet : Between (w.1.setState target .running, w.2) := by
      refine ⟨h.wellFormed.setState _, h.traced.setSlot_of_none he he, fun j hj => ?_⟩
      rw [Manager.entry_setState] at hj
      have hjt : j ≠ target := by
        rintro rfl
        exact hj he
      simp only [Manager.setState, Manager.slots_setSlot_of_ne hjt]
      exact h.noLoading j hj
    have hnone : ∀ state, ((w.1.setState target state).slots target).entry = none := by
      intro state
      rw [Manager.entry_setState, he]
    have hcall : ∀ cb, callAt E.logged cb target (w.1.setState target .running, w.2) =
        (w.1.setState target .running, w.2) := fun cb => callAt_of_none (hnone .running)
    cases hstate : (w.1.slots target).state with
    | unloaded =>
      simp only [create, hnone, if_true, Manager.setState_setState, hcall]
      exact hquiet
    | backgrounded =>
      rw [hcall]
      exact hquiet
    | suspended =>
      rw [hcall]
      exact hquiet
    | loading => exact hquiet
    | running => exact hquiet
  | some e =>
    cases hstate : (w.1.slots target).state with
    | unloaded =>
      have he' : ∀ state, ((w.1.setState target state).slots target).entry = some e := by
        intro state
        rw [Manager.entry_setState, he]
      simp only [hstate, create, he'] at hok ⊢
      split_ifs at hok ⊢ with hrc
      · rw [Manager.setState_setState, callAt_of_some (he' .running)]
        refine ⟨h.wellFormed.setState _, ?_, h.noLoading_setState (by simp)⟩
        change Traced _ (w.2.2 ++ [(e, .created (E.onCreate e w.2.1).1)] ++ [(e, .called .start)])
        rw [List.append_assoc]
        refine h.traced.move h.wellFormed he
          [.created (E.onCreate e w.2.1).1, .called .start] (p := .active) ?_ (.inl ⟨he, rfl⟩)
        have hrc' : (E.onCreate e w.2.1).1 = espOk := hrc
        rw [hstate, hrc']
        rfl
      · exact absurd hok hrc
    | backgrounded => exact h.call he (by rw [hstate]; rfl) (by decide)
    | suspended => exact h.call he (by rw [hstate]; rfl) (by decide)
    | loading => exact absurd hstate (h.noLoading target (by simp [he]))
    | running =>
      exact ⟨h.wellFormed.setState _, h.traced.setSlot rfl (by rw [hstate]; rfl),
        h.noLoading_setState (by simp)⟩

/-! ### Refused launches -/

section Launch

variable {τ : Type}

/-- The app in the foreground runs. -/
def ForegroundRuns (m : Manager) : Prop :=
  ∃ fg, m.findSlotByHandle m.foreground = some fg ∧ (m.slots fg).state = .running

/-- The `on_create` of the app to launch is called, and fails. -/
def Refused (E : Env τ) (appId : String) (w : Manager × τ) : Prop :=
  ∃ target e, w.1.findSlotById appId = some target ∧
    w.1.foreground ≠ (w.1.slots target).handle ∧
    ((evictIfLow E (leaveForeground E w)).1.slots target).entry = some e ∧
    ((evictIfLow E (leaveForeground E w)).1.slots target).state = .unloaded ∧
    (E.onCreate e (evictIfLow E (leaveForeground E w)).2).1 ≠ espOk

/-- No launch is refused while another app runs, and no app in the background is suspended. -/
def Sound (E : Env τ) : AppOp → Manager × τ → Prop
  | .launch appId, w => Refused E appId w → ¬ ForegroundRuns w.1
  | .switchTo handle, w => ∀ i, w.1.findSlotByHandle handle = some i →
    Refused E (w.1.slots i).appId w → ¬ ForegroundRuns w.1
  | .suspend handle, w => ∀ i, w.1.findSlotByHandle handle = some i →
    (w.1.slots i).state ≠ .backgrounded
  | _, _ => True

end Launch

lemma Orderly.findSlotByHandle_eq_none (h : Orderly w) (hidle : ¬ ForegroundRuns w.1) :
    w.1.findSlotByHandle w.1.foreground = none := by
  by_contra hsome
  obtain ⟨fg, hfg⟩ := Option.ne_none_iff_exists'.mp hsome
  obtain ⟨hused, heq⟩ := h.wellFormed.findSlotByHandle_iff.mp hfg
  exact hidle ⟨fg, hfg, h.foreground fg hused heq⟩

lemma Orderly.launch (h : Orderly w) {appId : String}
    (hs : Refused E.logged appId w → ¬ ForegroundRuns w.1) :
    Orderly (launch E.logged appId w).2 := by
  rw [AppManager.launch]
  cases hfind : w.1.findSlotById appId with
  | none => exact h
  | some target =>
    obtain ⟨hused, -⟩ := Manager.findSlotById_eq_some hfind
    have hhandle := h.wellFormed.handle target hused
    simp only
    split_ifs with hfg hok
    · exact h
    · -- the target runs now
      set w' := evictIfLow E.logged (AppManager.leaveForeground E.logged w) with hw'
      have hb : Between (AppManager.bringUp E.logged target w.1.foreground w').2.2 :=
        h.between.leaveForeground.evictIfLow.bringUp hok
      have hrun := bringUp_ok hok
      have hcount : w'.1.slotCount = w.1.slotCount :=
        (evictIfLow_frame.2.1).trans leaveForeground_frame.2.1
      constructor
      · apply WellFormed.setForeground
        · exact hb.wellFormed.setSlot rfl rfl
        · rw [hhandle, Manager.slotCount_setSlot, hrun]
          change ((target.val : Nat) : Int) < (w'.1.slotCount : Int)
          rw [hcount]
          exact Int.ofNat_lt.mpr (h.wellFormed.used target hused)
      · have ht := hb.traced.setSlot (AppSlot.entry_touch
          (E.uptimeMs (AppManager.bringUp E.logged target w.1.foreground w').2.2.2.1).1
          ((AppManager.bringUp E.logged target w.1.foreground w').2.2.1.slots target)) rfl
        exact ⟨ht.held, ht.absent⟩
      · intro j hj
        simp only [enterForeground, Manager.slots_setForeground, Manager.slots_setSlot] at hj ⊢
        split_ifs at hj ⊢ with hjt
        · rw [AppSlot.state_touch]
          exact hb.noLoading target hj
        · exact hb.noLoading j hj
      · intro j hj heq
        have hjt : j = target := by
          have heq : (w.1.slots target).handle = j.val := heq
          rw [hhandle] at heq
          exact Fin.ext (Int.ofNat.inj heq).symm
        subst hjt
        change (((AppManager.bringUp E.logged j w.1.foreground w').2.2.1.setSlot j _).slots j).state = _
        rw [Manager.slots_setSlot_self, AppSlot.state_touch, hrun, Manager.setState,
          Manager.slots_setSlot_self]
        rfl
    · -- the launch is refused, and there was nothing to leave
      obtain ⟨e, he, hstate, hrc, heq⟩ := bringUp_refused hok
      have hnone := h.findSlotByHandle_eq_none (hs ⟨target, e, hfind, hfg, he, hstate, hrc⟩)
      rw [heq]
      rw [leaveForeground_of_none hnone] at he hstate hrc ⊢
      set w' := evictIfLow E.logged w with hw'
      have hb : Between w' := h.between.evictIfLow
      have hfg' : w'.1.foreground = w.1.foreground := evictIfLow_frame.1
      have hlost : ∀ j, (w'.1.slots j).entry ≠ none → w.1.foreground ≠ j.val := by
        intro j hj hfg
        have hsame := evictIfLow_frame.2.2 j hj
        rw [hsame] at hj
        rw [h.wellFormed.findSlotByHandle_iff.mpr ⟨hj, hfg⟩] at hnone
        cases hnone
      have hwf : WellFormed ((w'.1.setState target .unloaded).setForeground w.1.foreground) := by
        apply (hb.wellFormed.setState _).setForeground
        rw [← hfg']
        exact hb.wellFormed.foreground
      have hrest : restoreForeground w.1.foreground (w'.1.setState target .unloaded) =
          (w'.1.setState target .unloaded).setForeground w.1.foreground := by
        rw [restoreForeground]
        cases hf : ((w'.1.setState target .unloaded).setForeground w.1.foreground).findSlotByHandle
            w.1.foreground with
        | none => rfl
        | some fg =>
          obtain ⟨hused', hfg⟩ := hwf.findSlotByHandle_iff.mp hf
          rw [Manager.slots_setForeground, Manager.entry_setState] at hused'
          exact absurd hfg (hlost fg hused')
      rw [hrest]
      refine ⟨hwf, ?_, hb.noLoading_setState (by decide), fun j hj hfg => ?_⟩
      · have hrc' : (E.onCreate e w'.2.1).1 ≠ espOk := hrc
        have ht : Traced (w'.1.setState target .unloaded)
            (w'.2.2 ++ [(e, .created (E.onCreate e w'.2.1).1)]) := by
          refine hb.traced.move hb.wellFormed he [.created (E.onCreate e w'.2.1).1] (p := .out) ?_
            (.inl ⟨he, rfl⟩)
          rw [hstate, List.foldlM_cons]
          exact congrArg (· >>= _) (Phase.next_refused hrc')
        exact ⟨ht.held, ht.absent⟩
      · rw [Manager.slots_setForeground, Manager.entry_setState] at hj
        exact absurd hfg (hlost j hj)

/-! ### The other calls -/

lemma Orderly.switchTo (h : Orderly w) {handle : Int}
    (hs : ∀ i, w.1.findSlotByHandle handle = some i →
      Refused E.logged (w.1.slots i).appId w → ¬ ForegroundRuns w.1) :
    Orderly (switchTo E.logged handle w).2 := by
  rw [AppManager.switchTo]
  cases hfind : w.1.findSlotByHandle handle with
  | none => exact h
  | some i =>
    simp only
    split_ifs
    · exact h
    · exact h.launch (hs i hfind)

lemma Between.clearForeground (h : Between w) (handle : Int) :
    Between (clearForeground handle w.1, w.2) := by
  have hwf := h.wellFormed.clearForeground handle
  rw [AppManager.clearForeground] at hwf ⊢
  split_ifs at hwf ⊢
  · exact ⟨hwf, ⟨h.traced.held, h.traced.absent⟩, h.noLoading⟩
  · exact h

lemma Orderly.suspend (h : Orderly w) {handle : Int}
    (hs : ∀ i, w.1.findSlotByHandle handle = some i → (w.1.slots i).state ≠ .backgrounded) :
    Orderly (suspend E.logged handle w).2 := by
  rw [AppManager.suspend]
  cases hfind : w.1.findSlotByHandle handle with
  | none => exact h
  | some i =>
    obtain ⟨hused, hhandle⟩ := h.wellFormed.findSlotByHandle_iff.mp hfind
    obtain ⟨e, he⟩ := Option.ne_none_iff_exists'.mp hused
    simp only
    cases hstate : (w.1.slots i).state with
    | unloaded => exact h
    | loading => exact h
    | suspended => exact h
    | backgrounded => exact absurd hstate (hs i hfind)
    | running =>
      have hb : Between (callAt E.logged .pause i (w.1.setState i .suspended, w.2)) :=
        h.between.call he (by rw [hstate]; rfl) (by decide)
      have he' : ((w.1.setState i .suspended).slots i).entry = some e := by
        rw [Manager.entry_setState, he]
      rw [callAt_of_some he'] at hb
      simp only [callAt_of_some he]
      have hc := hb.clearForeground handle
      refine ⟨hc.wellFormed, hc.traced, hc.noLoading, fun j hj hfg => ?_⟩
      obtain ⟨hfg, hne⟩ := foreground_of_clearForeground hfg
      rw [slots_clearForeground, Manager.entry_setState] at hj
      have hji : j ≠ i := by
        rintro rfl
        exact hne (hfg.trans hhandle.symm)
      rw [slots_clearForeground, Manager.setState, Manager.slots_setSlot_of_ne hji]
      exact h.foreground j hj hfg

lemma Orderly.kill (h : Orderly w) (handle : Int) : Orderly (kill E.logged handle w).2 := by
  rw [AppManager.kill]
  cases hfind : w.1.findSlotByHandle handle with
  | none => exact h
  | some i =>
    obtain ⟨hused, hhandle⟩ := h.wellFormed.findSlotByHandle_iff.mp hfind
    simp only
    split_ifs with hstate
    · exact h
    · have hphase : (w.1.slots i).state.phase = .active ∨ (w.1.slots i).state.phase = .paused := by
        have hload := h.noLoading i hused
        revert hstate hload
        cases (w.1.slots i).state with
        | unloaded => exact fun hstate => absurd rfl hstate
        | loading => exact fun _ hload => absurd rfl hload
        | running => exact fun _ _ => .inl rfl
        | backgrounded => exact fun _ _ => .inr rfl
        | suspended => exact fun _ _ => .inr rfl
      have hb := (h.between.destroy (E := E) hused hphase).clearForeground handle
      rw [← clearForeground_setSlot] at hb
      refine ⟨hb.wellFormed, ⟨hb.traced.held, hb.traced.absent⟩, hb.noLoading, fun j hj hfg => ?_⟩
      simp only [clearForeground_setSlot, callAt_fst, slots_clearForeground,
        Manager.slots_setSlot] at hj hfg ⊢
      obtain ⟨hfg, hne⟩ := foreground_of_clearForeground hfg
      have hji : j ≠ i := by
        rintro rfl
        exact hne (hfg.trans hhandle.symm)
      rw [if_neg hji] at hj ⊢
      exact h.foreground j hj hfg

lemma Orderly.evictLru (h : Orderly w) : Orderly (evictLru E.logged w).2 := by
  have hb := h.between.evictLru (E := E)
  refine ⟨hb.wellFormed, hb.traced, hb.noLoading, ?_⟩
  rcases evictLru_manager (E := E.logged) (w := w) with heq | ⟨i, -, heq⟩
  · rw [heq]
    exact h.foreground
  · rw [heq]
    intro j hj hfg
    rw [Manager.slots_setSlot] at hj ⊢
    split_ifs at hj ⊢
    · exact absurd rfl hj
    · exact h.foreground j hj hfg

lemma Orderly.register (h : Orderly w) (entry : Option AppEntry) :
    Orderly ((w.1.register entry).2, w.2) := by
  have hwf := h.wellFormed.register entry
  rcases register_cases entry w.1 with ⟨rc, heq⟩ | ⟨e, hlt, rfl, hnew, heq⟩
  · rw [heq]
    exact h
  rw [heq] at hwf ⊢
  set new : Fin appSlotsMax := ⟨w.1.slotCount, hlt⟩ with hnewdef
  have hslots : ∀ j, (w.1.setSlot new ⟨some e, .unloaded, w.1.nextHandle, 0⟩).slots j =
      if j = new then ⟨some e, .unloaded, w.1.nextHandle, 0⟩ else w.1.slots j :=
    fun j => Manager.slots_setSlot
  have hfree : (w.1.slots new).entry = none := by
    by_contra hused
    exact Nat.lt_irrefl _ (h.wellFormed.used new hused)
  -- the new app has no slot yet
  have habsent : ∀ j, (w.1.slots j).entry ≠ some e := by
    intro j hj
    apply hnew j (by simp [hj]) (h.wellFormed.used j (by simp [hj]))
    simp only [AppSlot.appId, hj, Option.bind_some]
  refine ⟨hwf, ⟨fun j e' he' => ?_, fun e' he' => ?_⟩, fun j hj => ?_, fun j hj hfg => ?_⟩
  · simp only [hslots] at he' ⊢
    split_ifs at he' ⊢
    · obtain rfl := Option.some.inj he'
      exact h.traced.absent e habsent
    · exact h.traced.held j e' he'
  · refine h.traced.absent e' fun j hj => he' j ?_
    have hjn : j ≠ new := by
      rintro rfl
      rw [hfree] at hj
      cases hj
    simp only [hslots, if_neg hjn]
    exact hj
  · simp only [hslots] at hj ⊢
    split_ifs at hj ⊢
    · simp
    · exact h.noLoading j hj
  · simp only [hslots] at hj ⊢
    have hfg : w.1.foreground = (j.val : Int) := hfg
    split_ifs at hj ⊢ with hjn
    · have hlt' := h.wellFormed.foreground
      rw [hfg, hjn] at hlt'
      exact absurd hlt' (lt_irrefl _)
    · exact h.foreground j hj hfg

lemma Orderly.step (h : Orderly w) {o : AppOp} (hs : Sound E.logged o w) :
    Orderly ((manager E.logged).next o w) := by
  cases o with
  | register entry => exact h.register entry
  | launch appId => exact h.launch hs
  | switchTo handle => exact h.switchTo hs
  | suspend handle => exact h.suspend hs
  | kill handle => exact h.kill handle
  | evictLru => exact h.evictLru

/-! ### Runs -/

/-- Every app has received its callbacks in the order of a life, and an app that is shown as running
or suspended is created, and is active or paused. -/
def InOrder (w : Manager × (σ × Log)) : Prop :=
  (∀ e, ∃ p, phase e w.2.2 = some p) ∧
    ∀ i e, (w.1.slots i).entry = some e →
      ((w.1.slots i).state = .running → phase e w.2.2 = some .active) ∧
      ((w.1.slots i).state = .suspended → phase e w.2.2 = some .paused)

lemma Orderly.inOrder (h : Orderly w) : InOrder w := by
  refine ⟨fun e => ?_, fun i e he => ⟨fun hstate => ?_, fun hstate => ?_⟩⟩
  · by_cases hheld : ∃ i, (w.1.slots i).entry = some e
    · obtain ⟨i, hi⟩ := hheld
      exact ⟨_, h.traced.held i e hi⟩
    · exact ⟨_, h.traced.absent e (not_exists.mp hheld)⟩
  · rw [h.traced.held i e he, hstate]
    rfl
  · rw [h.traced.held i e he, hstate]
    rfl

lemma orderly_new (s : σ) : Orderly (.new, (s, [])) where
  wellFormed := wellFormed_new
  traced := traced_new
  noLoading _ h := absurd rfl h
  foreground _ h := absurd rfl h

/-- In every run in which no launch is refused while another app runs and no app in the background is
suspended, the apps receive their callbacks in order. -/
theorem callbacks_inOrder (E : Env σ) (s : σ) (ops : List AppOp)
    (h : (manager E.logged).Along (Sound E.logged) (.new, (s, [])) ops) :
    (manager E.logged).Along (fun _ w => InOrder w) (.new, (s, [])) ops ∧
      InOrder ((manager E.logged).run (.new, (s, [])) ops) := by
  obtain ⟨halong, hlast⟩ := Component.along_of_preserved
    (fun o w (hw : Orderly w) hs => hw.step hs) (orderly_new s) h
  exact ⟨halong.mono fun _ _ hw => hw.1.inOrder, hlast.inOrder⟩

/-- Apps that refuse to be created when their key says so, on a device with memory to spare. -/
def sampleEnv (refuses : Nat → Bool) : Env Unit where
  onCreate e s := (if refuses e.key then espFail else espOk, s)
  call _ _ s := s
  freeSize s := (appMemoryThresholdBytes, s)
  uptimeMs s := (0, s)
  publish _ _ s := s

def appA : AppEntry := ⟨0, some "a"⟩

def appB : AppEntry := ⟨1, some "b"⟩

theorem callbacks_inOrder_sample :
    let E := (sampleEnv fun _ => false).logged
    let ops := [.register (some appA), .register (some appB), .launch "a", .launch "b", .kill 1]
    (manager E).Along (fun _ w => InOrder w) (.new, ((), [])) ops ∧
      InOrder ((manager E).run (.new, ((), [])) ops) := by
  refine callbacks_inOrder (sampleEnv fun _ => false) () _ ?_
  have hlaunch : ∀ (appId : String) (w : Manager × (Unit × Log)),
      Sound (sampleEnv fun _ => false).logged (.launch appId) w := by
    rintro appId w ⟨target, e, -, -, -, -, hrc⟩
    exact absurd rfl hrc
  simp only [Component.along_cons]
  exact ⟨trivial, trivial, hlaunch _ _, hlaunch _ _, trivial, Component.along_nil⟩

/-- An app that was destroyed to make room for another one is shown as running again when that one
is refused. -/
theorem callbacks_not_inOrder :
    ¬ ∀ (E : Env Unit) (ops : List AppOp), InOrder ((manager E.logged).run (.new, ((), [])) ops) := by
  intro hall
  have horder := hall (sampleEnv fun key => key == 1)
    [.register (some appA), .register (some appB), .launch "a", .launch "b"]
  have hactive := (horder.2 ⟨0, by decide⟩ appA rfl).1 rfl
  have hout : phase appA ((manager (sampleEnv fun key => key == 1).logged).run (.new, ((), []))
      [.register (some appA), .register (some appB), .launch "a", .launch "b"]).2.2 = some .out := rfl
  rw [hout] at hactive
  cases hactive

end ThistleOS.AppManager
