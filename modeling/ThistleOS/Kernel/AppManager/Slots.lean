import ThistleOS.Kernel.AppManager

/-!
# The slots of the app manager

What every call keeps: a slot in use has its own number as handle, and no two of them have the same
app id.
-/

namespace ThistleOS.AppManager

structure WellFormed (m : Manager) : Prop where
  used : ∀ i, (m.slots i).entry ≠ none → i.val < m.slotCount
  handle : ∀ i, (m.slots i).entry ≠ none → (m.slots i).handle = i.val
  ids : ∀ i j, (m.slots i).entry ≠ none → (m.slots j).entry ≠ none →
    (m.slots i).appId = (m.slots j).appId → i = j
  nextHandle : m.nextHandle = m.slotCount
  foreground : m.foreground < m.slotCount
  bounded : m.slotCount ≤ appSlotsMax

namespace Manager

variable {m : Manager} {i j : Fin appSlotsMax} {slot : AppSlot} {handle : Int} {appId : String}

@[simp] lemma slots_setSlot_self : (m.setSlot i slot).slots i = slot := Function.update_self _ _ _

lemma slots_setSlot_of_ne (h : j ≠ i) : (m.setSlot i slot).slots j = m.slots j :=
  Function.update_of_ne h _ _

lemma slots_setSlot : (m.setSlot i slot).slots j = if j = i then slot else m.slots j :=
  Function.update_apply _ _ _ _

@[simp] lemma slotCount_setSlot : (m.setSlot i slot).slotCount = m.slotCount := rfl

@[simp] lemma foreground_setSlot : (m.setSlot i slot).foreground = m.foreground := rfl

@[simp] lemma nextHandle_setSlot : (m.setSlot i slot).nextHandle = m.nextHandle := rfl

@[simp] lemma slots_setForeground : (m.setForeground handle).slots = m.slots := rfl

@[simp] lemma foreground_setForeground : (m.setForeground handle).foreground = handle := rfl

@[simp] lemma slotCount_setForeground : (m.setForeground handle).slotCount = m.slotCount := rfl

lemma setSlot_setSlot (a b : AppSlot) : (m.setSlot i a).setSlot i b = m.setSlot i b := by
  simp only [setSlot, Function.update_idem]

lemma setState_eq (state : AppState) :
    m.setState i state = m.setSlot i ((m.slots i).setState state) := rfl

/-- A state that replaces another one. -/
lemma setState_setState (a b : AppState) : (m.setState i a).setState i b = m.setState i b := by
  simp only [setState, slots_setSlot_self, setSlot_setSlot]
  rfl

lemma entry_setState (state : AppState) : ((m.setState i state).slots j).entry = (m.slots j).entry := by
  rw [setState, slots_setSlot]
  split_ifs with h
  · rw [h, AppSlot.entry_setState]
  · rfl

lemma findSlot_eq_some {p : AppSlot → Bool} (h : m.findSlot p = some i) :
    (m.slots i).entry ≠ none ∧ p (m.slots i) = true := by
  have hp := List.find?_some h
  simp only [Bool.and_eq_true] at hp
  exact ⟨Option.isSome_iff_ne_none.mp hp.2.1, hp.2.2⟩

lemma findSlot_eq_none {p : AppSlot → Bool} (h : m.findSlot p = none)
    (hused : (m.slots i).entry ≠ none) (hcount : i.val < m.slotCount) : p (m.slots i) = false := by
  have hp := List.find?_eq_none.mp h i (List.mem_finRange i)
  simpa [hcount, Option.isSome_iff_ne_none.mpr hused] using hp

lemma findSlotById_eq_some (h : m.findSlotById appId = some i) :
    (m.slots i).entry ≠ none ∧ (m.slots i).appId = appId := by
  obtain ⟨hused, hid⟩ := findSlot_eq_some h
  exact ⟨hused, beq_iff_eq.mp hid⟩

lemma findSlotByHandle_eq_some (h : m.findSlotByHandle handle = some i) :
    handle ≠ appHandleInvalid ∧ (m.slots i).entry ≠ none ∧ (m.slots i).handle = handle := by
  rw [findSlotByHandle] at h
  split_ifs at h with hinvalid
  obtain ⟨hused, hhandle⟩ := findSlot_eq_some h
  exact ⟨hinvalid, hused, beq_iff_eq.mp hhandle⟩

end Manager

open Manager

variable {m : Manager} {i j : Fin appSlotsMax} {slot : AppSlot} {handle : Int} {appId : String}

lemma wellFormed_new : WellFormed .new where
  used _ h := absurd rfl h
  handle _ h := absurd rfl h
  ids _ _ h := absurd rfl h
  nextHandle := rfl
  foreground := by decide
  bounded := by decide

namespace WellFormed

/-- In a well-formed manager the handle of an app is the number of its slot. -/
lemma findSlotByHandle_iff (h : WellFormed m) :
    m.findSlotByHandle handle = some i ↔ (m.slots i).entry ≠ none ∧ handle = i.val := by
  constructor
  · intro hfind
    obtain ⟨-, hused, hhandle⟩ := findSlotByHandle_eq_some hfind
    exact ⟨hused, hhandle ▸ h.handle i hused⟩
  · rintro ⟨hused, rfl⟩
    have hvalid : (i.val : Int) ≠ appHandleInvalid := by
      rw [appHandleInvalid]
      omega
    cases hfind : m.findSlotByHandle i.val with
    | none =>
      rw [findSlotByHandle, if_neg hvalid] at hfind
      have hne := findSlot_eq_none hfind hused (h.used i hused)
      rw [h.handle i hused, beq_self_eq_true] at hne
      cases hne
    | some j =>
      obtain ⟨-, hused', hhandle⟩ := findSlotByHandle_eq_some hfind
      rw [h.handle j hused'] at hhandle
      exact congrArg some (Fin.ext (Int.ofNat.inj hhandle))

/-- The slot of an app id is the only one that has it. -/
lemma findSlotById_iff (h : WellFormed m) :
    m.findSlotById appId = some i ↔ (m.slots i).entry ≠ none ∧ (m.slots i).appId = appId := by
  constructor
  · exact findSlotById_eq_some
  · rintro ⟨hused, rfl⟩
    cases hfind : m.findSlotById (m.slots i).appId with
    | none =>
      have hne := findSlot_eq_none hfind hused (h.used i hused)
      rw [beq_self_eq_true] at hne
      cases hne
    | some j =>
      obtain ⟨hused', hid⟩ := findSlotById_eq_some hfind
      exact congrArg some (h.ids j i hused' hused hid)

/-- Changing neither the entry nor the handle of a slot. -/
lemma setSlot (h : WellFormed m) (hentry : slot.entry = (m.slots i).entry)
    (hhandle : slot.handle = (m.slots i).handle) : WellFormed (m.setSlot i slot) := by
  have hsame : ∀ j, ((m.setSlot i slot).slots j).entry = (m.slots j).entry ∧
      ((m.setSlot i slot).slots j).handle = (m.slots j).handle := by
    intro j
    rw [slots_setSlot]
    split_ifs with hj
    · exact hj ▸ ⟨hentry, hhandle⟩
    · exact ⟨rfl, rfl⟩
  constructor
  · intro j hj
    exact h.used j ((hsame j).1 ▸ hj)
  · intro j hj
    exact (hsame j).2.trans (h.handle j ((hsame j).1 ▸ hj))
  · intro j k hj hk hid
    simp only [AppSlot.appId, (hsame _).1] at hj hk hid
    exact h.ids j k hj hk hid
  · exact h.nextHandle
  · exact h.foreground
  · exact h.bounded

lemma setState (h : WellFormed m) (state : AppState) : WellFormed (m.setState i state) :=
  h.setSlot rfl rfl

lemma setForeground (h : WellFormed m) (hlt : handle < m.slotCount) :
    WellFormed (m.setForeground handle) :=
  ⟨h.used, h.handle, h.ids, h.nextHandle, hlt, h.bounded⟩

lemma clear (h : WellFormed m) : WellFormed (m.setSlot i .empty) := by
  have hused : ∀ j, ((m.setSlot i .empty).slots j).entry ≠ none →
      (m.slots j).entry ≠ none ∧ (m.setSlot i .empty).slots j = m.slots j := by
    intro j hj
    rw [slots_setSlot] at hj ⊢
    split_ifs at hj ⊢ with hji
    · exact absurd rfl hj
    · exact ⟨hj, rfl⟩
  constructor
  · intro j hj
    exact h.used j (hused j hj).1
  · intro j hj
    rw [(hused j hj).2]
    exact h.handle j (hused j hj).1
  · intro j k hj hk hid
    rw [(hused j hj).2, (hused k hk).2] at hid
    exact h.ids j k (hused j hj).1 (hused k hk).1 hid
  · exact h.nextHandle
  · exact h.foreground
  · exact h.bounded

lemma clearForeground (h : WellFormed m) (handle : Int) : WellFormed (clearForeground handle m) := by
  rw [AppManager.clearForeground]
  split_ifs
  · apply h.setForeground
    rw [appHandleInvalid]
    omega
  · exact h

/-- Two slots in use do not hold the same entry. -/
lemma entry_inj (h : WellFormed m) {e : AppEntry} (hi : (m.slots i).entry = some e)
    (hj : (m.slots j).entry = some e) : i = j := by
  apply h.ids i j (by simp [hi]) (by simp [hj])
  simp only [AppSlot.appId, hi, hj]

end WellFormed

/-! ### Clearing the foreground -/

@[simp] lemma slots_clearForeground (handle : Int) (m : Manager) :
    (clearForeground handle m).slots = m.slots := by
  rw [clearForeground]
  split_ifs
  · rfl
  · rfl

lemma clearForeground_setSlot (handle : Int) (m : Manager) (slot : AppSlot) :
    (clearForeground handle m).setSlot i slot = clearForeground handle (m.setSlot i slot) := by
  by_cases h : m.foreground = handle
  · simp only [clearForeground, Manager.foreground_setSlot, h, if_true]
    rfl
  · simp only [clearForeground, Manager.foreground_setSlot, h, if_false]

/-- After clearing the handle of an app the foreground handle may only name another one. -/
lemma foreground_of_clearForeground {handle : Int} {j : Fin appSlotsMax}
    (h : (clearForeground handle m).foreground = j.val) :
    m.foreground = j.val ∧ m.foreground ≠ handle := by
  rw [clearForeground] at h
  split_ifs at h with heq
  · rw [Manager.foreground_setForeground, appHandleInvalid] at h
    omega
  · exact ⟨h, heq⟩

/-! ### The search for an app to evict -/

/-- The app that is evicted is in the background, and is neither the foreground app nor a
launcher. -/
lemma evictable_of_oldest (h : m.oldest = some i) : m.evictable (m.slots i) = true := by
  have hfold : ∀ (l : List (Fin appSlotsMax)) (acc : Option (Fin appSlotsMax) × UInt32),
      (∀ i, acc.1 = some i → m.evictable (m.slots i) = true) →
      ∀ i, (l.foldl m.older acc).1 = some i → m.evictable (m.slots i) = true := by
    intro l
    induction l with
    | nil => exact fun acc hacc => hacc
    | cons j l ih =>
      intro acc hacc
      rw [List.foldl_cons]
      apply ih
      intro i hi
      rw [older] at hi
      split_ifs at hi with hj
      · simp only [Bool.and_eq_true] at hj
        obtain rfl := Option.some.inj hi
        exact hj.1.2
      · exact hacc i hi
  exact hfold _ _ (fun i hi => by cases hi) i h

lemma of_oldest (h : m.oldest = some i) : (m.slots i).entry ≠ none ∧
    (m.slots i).handle ≠ m.foreground ∧
    ((m.slots i).state = .backgrounded ∨ (m.slots i).state = .suspended) := by
  have he := evictable_of_oldest h
  simp only [evictable, Bool.and_eq_true, Bool.or_eq_true, bne_iff_ne, beq_iff_eq] at he
  exact ⟨Option.isSome_iff_ne_none.mp he.1.1.1, he.1.1.2, he.2⟩

/-! ### Registering -/

lemma register_cases (entry : Option AppEntry) (m : Manager) :
    (∃ rc, m.register entry = (rc, m)) ∨ ∃ (e : AppEntry) (h : m.slotCount < appSlotsMax),
      entry = some e ∧ (∀ i, (m.slots i).entry ≠ none → i.val < m.slotCount →
        (m.slots i).appId ≠ e.manifestId.getD "") ∧
      m.register entry = (espOk,
        { m.setSlot ⟨m.slotCount, h⟩ ⟨some e, .unloaded, m.nextHandle, 0⟩ with
          slotCount := m.slotCount + 1
          nextHandle := m.nextHandle + 1 }) := by
  rcases entry with _ | ⟨key, _ | appId⟩
  · exact .inl ⟨_, rfl⟩
  · exact .inl ⟨_, rfl⟩
  · by_cases hfind : (m.findSlotById appId).isSome = true
    · left
      exact ⟨espOk, by simp only [register, hfind, if_true]⟩
    · by_cases hlt : m.slotCount < appSlotsMax
      · right
        refine ⟨⟨key, some appId⟩, hlt, rfl, fun i hused hcount => ?_, ?_⟩
        · rw [Bool.not_eq_true, Option.isSome_eq_false_iff, Option.isNone_iff_eq_none] at hfind
          have hne := findSlot_eq_none hfind hused hcount
          exact beq_eq_false_iff_ne.mp hne
        · simp only [register, hfind, Bool.false_eq_true, if_false, hlt, dif_pos]
      · left
        exact ⟨espErrNoMem, by simp only [register, hfind, Bool.false_eq_true, if_false, hlt, dif_neg,
          not_false_eq_true]⟩

lemma WellFormed.register (h : WellFormed m) (entry : Option AppEntry) :
    WellFormed (m.register entry).2 := by
  rcases register_cases entry m with ⟨rc, heq⟩ | ⟨e, hlt, rfl, hnew, heq⟩
  · rw [heq]
    exact h
  rw [heq]
  set new : Fin appSlotsMax := ⟨m.slotCount, hlt⟩ with hnewdef
  have hslots : ∀ j, (m.setSlot new ⟨some e, .unloaded, m.nextHandle, 0⟩).slots j =
      if j = new then ⟨some e, .unloaded, m.nextHandle, 0⟩ else m.slots j :=
    fun j => slots_setSlot
  have hold : ∀ j, j ≠ new → (m.slots j).entry ≠ none →
      (m.slots j).appId ≠ e.manifestId.getD "" := fun j _ hj => hnew j hj (h.used j hj)
  constructor
  · intro j hj
    simp only [hslots] at hj
    split_ifs at hj with hjn
    · rw [hjn]
      exact Nat.lt_succ_self _
    · exact Nat.lt_succ_of_lt (h.used j hj)
  · intro j hj
    simp only [hslots] at hj ⊢
    split_ifs at hj ⊢ with hjn
    · rw [hjn]
      exact h.nextHandle
    · exact h.handle j hj
  · intro j k hj hk hid
    simp only [hslots] at hj hk hid
    split_ifs at hj hk hid with hjn hkn hkn
    · exact hjn.trans hkn.symm
    · exact absurd hid.symm (hold k hkn hk)
    · exact absurd hid (hold j hjn hj)
    · exact h.ids j k hj hk hid
  · simp only [h.nextHandle]
    omega
  · have hfg := h.foreground
    change m.foreground < ((m.slotCount + 1 : Nat) : Int)
    omega
  · exact hlt

/-! ### The parts of a launch -/

section Launch

variable {σ : Type} {E : Env σ} {w : Manager × σ} {target : Fin appSlotsMax} {prev : Int}

@[simp] lemma callAt_fst (cb : Callback) : (callAt E cb i w).1 = w.1 := by
  rw [callAt]
  split
  · rfl
  · rfl

lemma evictLru_manager : (evictLru E w).2.1 = w.1 ∨
    ∃ i, w.1.oldest = some i ∧ (evictLru E w).2.1 = w.1.setSlot i .empty := by
  rw [evictLru]
  cases hold : w.1.oldest with
  | none => exact .inl rfl
  | some i => exact .inr ⟨i, rfl, by simp only [callAt_fst]⟩

/-- Does a launch that goes on from here evict an app, and which? -/
def evicts (E : Env σ) (w : Manager × σ) : Option (Fin appSlotsMax) :=
  if (E.freeSize w.2).1 < appMemoryThresholdBytes then w.1.oldest else none

lemma evictIfLow_manager : (evictIfLow E w).1 = match evicts E w with
    | some i => w.1.setSlot i .empty
    | none => w.1 := by
  simp only [evicts, evictIfLow]
  split_ifs
  · simp only [evictLru]
    cases w.1.oldest with
    | none => rfl
    | some i => simp only [callAt_fst]
  · rfl

lemma oldest_of_evicts (h : evicts E w = some i) : w.1.oldest = some i := by
  rw [evicts] at h
  split_ifs at h
  exact h

lemma leaveForeground_of_none (h : w.1.findSlotByHandle w.1.foreground = none) :
    leaveForeground E w = w := by
  rw [leaveForeground, h]

/-- Leaving the foreground changes the state of the foreground app, which does not run then. -/
lemma leaveForeground_manager : ((leaveForeground E w).1 = w.1 ∧
      ∀ fg, w.1.findSlotByHandle w.1.foreground = some fg → (w.1.slots fg).state ≠ .running) ∨
    ∃ fg state, w.1.findSlotByHandle w.1.foreground = some fg ∧ (w.1.slots fg).state = .running ∧
      (state = .backgrounded ∨ state = .unloaded) ∧
      (leaveForeground E w).1 = w.1.setState fg state := by
  rw [leaveForeground]
  cases hfg : w.1.findSlotByHandle w.1.foreground with
  | none => exact .inl ⟨rfl, fun _ h => by cases h⟩
  | some fg =>
    simp only
    split_ifs with hrun
    · exact .inr ⟨fg, .backgrounded, rfl, hrun, .inl rfl, callAt_fst _⟩
    · exact .inr ⟨fg, .unloaded, rfl, hrun, .inr rfl, callAt_fst _⟩
    · exact .inl ⟨rfl, fun fg' h => Option.some.inj h ▸ hrun⟩

lemma leaveForeground_frame : (leaveForeground E w).1.foreground = w.1.foreground ∧
    (leaveForeground E w).1.slotCount = w.1.slotCount ∧
    ∀ j, ((leaveForeground E w).1.slots j).entry = (w.1.slots j).entry := by
  rcases leaveForeground_manager (E := E) (w := w) with ⟨heq, -⟩ | ⟨fg, state, -, -, -, heq⟩
  · rw [heq]
    exact ⟨rfl, rfl, fun _ => rfl⟩
  · rw [heq]
    exact ⟨rfl, rfl, fun _ => entry_setState _⟩

lemma evictIfLow_frame : (evictIfLow E w).1.foreground = w.1.foreground ∧
    (evictIfLow E w).1.slotCount = w.1.slotCount ∧
    ∀ j, ((evictIfLow E w).1.slots j).entry ≠ none → (evictIfLow E w).1.slots j = w.1.slots j := by
  rw [evictIfLow_manager]
  cases evicts E w with
  | none => exact ⟨rfl, rfl, fun _ _ => rfl⟩
  | some i =>
    refine ⟨rfl, rfl, fun j hj => ?_⟩
    rw [slots_setSlot] at hj ⊢
    split_ifs at hj ⊢
    · exact absurd rfl hj
    · rfl

lemma bringUp_ok (h : (bringUp E target prev w).1 = espOk) :
    (bringUp E target prev w).2.2.1 = w.1.setState target .running := by
  rw [bringUp] at h ⊢
  cases hstate : (w.1.slots target).state with
  | unloaded =>
    have hcreate : ∀ w' : Manager × σ, (create E target w').2.1 = w'.1 := by
      intro w'
      rw [create]
      split
      · rfl
      · rfl
    simp only [hstate] at h ⊢
    split_ifs at h ⊢ with hrc
    · rw [callAt_fst, hcreate, setState_setState]
    · exact absurd h hrc
  | loading => rfl
  | running => rfl
  | backgrounded => exact callAt_fst _
  | suspended => exact callAt_fst _

/-- A launch is refused by the `on_create` of an app that is not loaded. -/
lemma bringUp_refused (h : (bringUp E target prev w).1 ≠ espOk) :
    ∃ e, (w.1.slots target).entry = some e ∧ (w.1.slots target).state = .unloaded ∧
      (E.onCreate e w.2).1 ≠ espOk ∧ (bringUp E target prev w).2.2 =
        (restoreForeground prev (w.1.setState target .unloaded), (E.onCreate e w.2).2) := by
  rw [bringUp] at h ⊢
  cases hstate : (w.1.slots target).state with
  | unloaded =>
    simp only [hstate] at h ⊢
    cases he : (w.1.slots target).entry with
    | none => simp only [create, entry_setState, he, if_true, ne_eq, not_true_eq_false] at h
    | some e =>
      simp only [create, entry_setState, he] at h ⊢
      split_ifs at h ⊢ with hrc
      · exact absurd rfl h
      · exact ⟨e, rfl, trivial, hrc, by rw [setState_setState]⟩
  | loading => simp only [hstate, ne_eq, not_true_eq_false] at h
  | running => simp only [hstate, ne_eq, not_true_eq_false] at h
  | backgrounded => simp only [hstate, ne_eq, not_true_eq_false] at h
  | suspended => simp only [hstate, ne_eq, not_true_eq_false] at h

end Launch

end ThistleOS.AppManager
