import ThistleOS.Kernel.AppManager.Slots
import Mathlib.Data.Fintype.Card

/-!
# The slots of the app manager

The counter of the slots only grows: a slot whose app has been killed or evicted is empty, but no app is
registered in it again.
-/

namespace ThistleOS.AppManager

open Manager

variable {σ : Type} {E : Env σ} {m m' m'' : Manager} {w : Manager × σ} {i : Fin appSlotsMax}

/-- The slots that hold an app. -/
def inUse (m : Manager) : Finset (Fin appSlotsMax) := Finset.univ.filter fun i => (m.slots i).entry ≠ none

/-- How many slots have been taken by a registration, and how many have been left empty by a kill or an
eviction. -/
structure Tally where
  taken : Nat
  freed : Nat

def recordSlots (E : Env σ) (o : AppOp) (w : Manager × σ) (t : Tally) : Tally :=
  let w' := (manager E).next o w
  ⟨t.taken + (inUse w'.1 \ inUse w.1).card, t.freed + (inUse w.1 \ inUse w'.1).card⟩

/-- The app manager with a tally of its slots. -/
def tallied (E : Env σ) : Component AppOp AppOp.Reply ((Manager × σ) × Tally) :=
  (manager E).observe (recordSlots E)

/-- An app with an id that is not registered. -/
def NewApp (entry : Option AppEntry) (m : Manager) : Prop :=
  ∃ e appId, entry = some e ∧ e.manifestId = some appId ∧ m.findSlotById appId = none

/-- A new app is refused for want of memory only if there is an app in every slot. -/
def RefusesFull : AppOp → (Manager × σ) × Tally → Prop
  | .register entry, w => NewApp entry w.1.1 → (w.1.1.register entry).1 = espErrNoMem →
    ∀ i, (w.1.1.slots i).entry ≠ none
  | _, _ => True

/-- A new app is registered while a slot has never been taken, or when none has been left empty. -/
def RoomOrNoneFreed : AppOp → (Manager × σ) × Tally → Prop
  | .register entry, w => NewApp entry w.1.1 → w.2.taken < appSlotsMax ∨ w.2.freed = 0
  | _, _ => True

/-! ### Calls that register nothing -/

/-- No slot has been taken, and no app has come to another slot. -/
structure Shrinks (m m' : Manager) : Prop where
  slotCount : m'.slotCount = m.slotCount
  inUse : inUse m' ⊆ inUse m

lemma mem_inUse : i ∈ inUse m ↔ (m.slots i).entry ≠ none := by
  rw [inUse, Finset.mem_filter]
  exact and_iff_right (Finset.mem_univ i)

namespace Shrinks

lemma refl (m : Manager) : Shrinks m m := ⟨rfl, Finset.Subset.refl _⟩

lemma trans (h : Shrinks m m') (h' : Shrinks m' m'') : Shrinks m m'' :=
  ⟨h'.slotCount.trans h.slotCount, h'.inUse.trans h.inUse⟩

/-- A slot that keeps its app or loses it. -/
lemma setSlot {slot : AppSlot} (h : slot.entry = (m.slots i).entry ∨ slot.entry = none) :
    Shrinks m (m.setSlot i slot) := by
  refine ⟨rfl, fun j hj => ?_⟩
  rw [mem_inUse, slots_setSlot] at hj
  rw [mem_inUse]
  split_ifs at hj with hji
  · subst hji
    rcases h with h | h
    · rwa [h] at hj
    · exact absurd h hj
  · exact hj

lemma setState (state : AppState) : Shrinks m (m.setState i state) := setSlot (.inl rfl)

lemma empty : Shrinks m (m.setSlot i .empty) := setSlot (.inr rfl)

lemma setForeground (handle : Int) : Shrinks m (m.setForeground handle) := ⟨rfl, Finset.Subset.refl _⟩

lemma clearForeground (handle : Int) : Shrinks m (clearForeground handle m) := by
  rw [AppManager.clearForeground]
  split_ifs
  · exact setForeground _
  · exact refl m

lemma evictLru : Shrinks w.1 (evictLru E w).2.1 := by
  rcases evictLru_manager (E := E) (w := w) with heq | ⟨i, -, heq⟩
  · rw [heq]
    exact refl _
  · rw [heq]
    exact empty

lemma leaveForeground : Shrinks w.1 (leaveForeground E w).1 := by
  rcases leaveForeground_manager (E := E) (w := w) with ⟨heq, -⟩ | ⟨fg, state, -, -, -, heq⟩
  · rw [heq]
    exact refl _
  · rw [heq]
    exact setState state

lemma evictIfLow : Shrinks w.1 (evictIfLow E w).1 := by
  rw [evictIfLow_manager]
  cases evicts E w with
  | none => exact refl _
  | some i => exact empty

lemma restoreForeground (prev : Int) : Shrinks m (restoreForeground prev m) := by
  rw [AppManager.restoreForeground]
  split
  · exact (setForeground prev).trans (setState _)
  · exact setForeground prev

lemma bringUp {target : Fin appSlotsMax} {prev : Int} : Shrinks w.1 (bringUp E target prev w).2.2.1 := by
  by_cases hok : (AppManager.bringUp E target prev w).1 = espOk
  · rw [bringUp_ok hok]
    exact setState _
  · obtain ⟨e, -, -, -, heq⟩ := bringUp_refused hok
    rw [heq]
    exact (setState _).trans (restoreForeground prev)

lemma enterForeground {target : Fin appSlotsMax} {handle : Int} {event : AppEvent} :
    Shrinks w.1 (enterForeground E target handle event w).1 := by
  have htouch : Shrinks w.1 (w.1.setSlot target ((w.1.slots target).touch (E.uptimeMs w.2).1)) :=
    setSlot (.inl (AppSlot.entry_touch _ _))
  exact htouch.trans (setForeground handle)

lemma launch (appId : String) : Shrinks w.1 (launch E appId w).2.1 := by
  rw [AppManager.launch]
  cases w.1.findSlotById appId with
  | none => exact refl _
  | some target =>
    simp only
    split_ifs
    · exact refl _
    · exact ((leaveForeground.trans evictIfLow).trans bringUp).trans enterForeground
    · exact (leaveForeground.trans evictIfLow).trans bringUp

lemma switchTo (handle : Int) : Shrinks w.1 (switchTo E handle w).2.1 := by
  rw [AppManager.switchTo]
  cases w.1.findSlotByHandle handle with
  | none => exact refl _
  | some i =>
    simp only
    split_ifs
    · exact refl _
    · exact launch _

lemma suspend (handle : Int) : Shrinks w.1 (suspend E handle w).2.1 := by
  rw [AppManager.suspend]
  cases w.1.findSlotByHandle handle with
  | none => exact refl _
  | some i =>
    simp only
    split
    · simpa using (setState (i := i) .suspended).trans (clearForeground handle)
    · simpa using (setState (i := i) .suspended).trans (clearForeground handle)
    · exact refl _
    · exact refl _
    · exact refl _

lemma kill (handle : Int) : Shrinks w.1 (kill E handle w).2.1 := by
  rw [AppManager.kill]
  cases w.1.findSlotByHandle handle with
  | none => exact refl _
  | some i =>
    simp only
    split_ifs
    · exact refl _
    · simpa using (clearForeground handle).trans (empty (i := i))

end Shrinks

/-! ### The tally -/

/-- The counter is the number of the slots that have been taken, and the apps in the slots are those that
have not been killed or evicted. -/
structure Counted (w : (Manager × σ) × Tally) : Prop where
  used : ∀ i ∈ inUse w.1.1, i.val < w.1.1.slotCount
  bounded : w.1.1.slotCount ≤ appSlotsMax
  taken : w.2.taken = w.1.1.slotCount
  freed : (inUse w.1.1).card + w.2.freed = w.1.1.slotCount

lemma counted_new (s : σ) : Counted ((.new, s), ⟨0, 0⟩) where
  used _ h := absurd rfl (mem_inUse.mp h)
  bounded := Nat.zero_le _
  taken := rfl
  freed := rfl

lemma Counted.shrink {w w' : (Manager × σ) × Tally} (h : Counted w) (hshrinks : Shrinks w.1.1 w'.1.1)
    (htaken : w'.2.taken = w.2.taken + (inUse w'.1.1 \ inUse w.1.1).card)
    (hfreed : w'.2.freed = w.2.freed + (inUse w.1.1 \ inUse w'.1.1).card) : Counted w' where
  used i hi := by
    rw [hshrinks.slotCount]
    exact h.used i (hshrinks.inUse hi)
  bounded := hshrinks.slotCount ▸ h.bounded
  taken := by
    rw [htaken, Finset.sdiff_eq_empty_iff_subset.mpr hshrinks.inUse, Finset.card_empty, hshrinks.slotCount]
    exact h.taken
  freed := by
    have hcard := Finset.card_sdiff_add_card_eq_card hshrinks.inUse
    have hbefore := h.freed
    rw [hfreed, hshrinks.slotCount]
    omega

lemma inUse_register {e : AppEntry} (hlt : m.slotCount < appSlotsMax) :
    inUse { m.setSlot ⟨m.slotCount, hlt⟩ ⟨some e, .unloaded, m.nextHandle, 0⟩ with
      slotCount := m.slotCount + 1
      nextHandle := m.nextHandle + 1 } = insert ⟨m.slotCount, hlt⟩ (inUse m) := by
  ext i
  rw [Finset.mem_insert, mem_inUse, mem_inUse]
  show ((m.setSlot ⟨m.slotCount, hlt⟩ _).slots i).entry ≠ none ↔ _
  rw [slots_setSlot]
  split_ifs with hi
  · simp [hi]
  · simp [hi]

lemma Counted.register {w : (Manager × σ) × Tally} (h : Counted w) (entry : Option AppEntry) :
    Counted ((tallied E).next (.register entry) w) := by
  have hnext : ((tallied E).next (.register entry) w) = (((w.1.1.register entry).2, w.1.2),
      ⟨w.2.taken + (inUse (w.1.1.register entry).2 \ inUse w.1.1).card,
        w.2.freed + (inUse w.1.1 \ inUse (w.1.1.register entry).2).card⟩) := rfl
  rcases register_cases entry w.1.1 with ⟨rc, heq⟩ | ⟨e, hlt, -, -, heq⟩
  · exact h.shrink (by rw [hnext, heq]; exact .refl _) rfl rfl
  · have hnew : (⟨w.1.1.slotCount, hlt⟩ : Fin appSlotsMax) ∉ inUse w.1.1 :=
      fun hmem => Nat.lt_irrefl _ (h.used _ hmem)
    have htaken := h.taken
    have hfreed := h.freed
    rw [hnext, heq]
    constructor
    · intro i hi
      rw [inUse_register, Finset.mem_insert] at hi
      rcases hi with rfl | hi
      · exact Nat.lt_succ_self _
      · exact Nat.lt_succ_of_lt (h.used i hi)
    · exact hlt
    · simp only [inUse_register, Finset.insert_sdiff_of_notMem _ hnew, Finset.sdiff_self, insert_empty_eq,
        Finset.card_singleton, htaken]
    · simp only [inUse_register, Finset.card_insert_of_notMem hnew,
        Finset.sdiff_eq_empty_iff_subset.mpr (Finset.subset_insert _ _), Finset.card_empty]
      omega

lemma Counted.step {w : (Manager × σ) × Tally} (h : Counted w) (o : AppOp) :
    Counted ((tallied E).next o w) := by
  cases o with
  | register entry => exact h.register entry
  | launch appId => exact h.shrink (.launch appId) rfl rfl
  | switchTo handle => exact h.shrink (.switchTo handle) rfl rfl
  | suspend handle => exact h.shrink (.suspend handle) rfl rfl
  | kill handle => exact h.shrink (.kill handle) rfl rfl
  | evictLru => exact h.shrink .evictLru rfl rfl

/-! ### Refusals -/

lemma register_newApp {entry : Option AppEntry} (h : NewApp entry m) :
    (m.register entry).1 = if m.slotCount < appSlotsMax then espOk else espErrNoMem := by
  obtain ⟨⟨key, _⟩, appId, rfl, rfl, hfind⟩ := h
  simp only [Manager.register, hfind, Option.isSome_none, Bool.false_eq_true, if_false]
  split_ifs
  · rfl
  · rfl

lemma all_used_iff : (∀ i, (m.slots i).entry ≠ none) ↔ (inUse m).card = appSlotsMax := by
  have hcard : (inUse m).card = appSlotsMax ↔ inUse m = Finset.univ := by
    rw [← Finset.card_eq_iff_eq_univ, Fintype.card_fin]
  rw [hcard, Finset.eq_univ_iff_forall]
  exact forall_congr' fun i => mem_inUse.symm

lemma Counted.refusesFull_iff {w : (Manager × σ) × Tally} (h : Counted w) (o : AppOp) :
    RefusesFull o w ↔ RoomOrNoneFreed o w := by
  cases o with
  | register entry =>
    refine forall_congr' fun hnew => ?_
    have htaken := h.taken
    have hfreed := h.freed
    rw [register_newApp hnew, all_used_iff]
    split_ifs with hlt
    · exact iff_of_true (fun hrefused => absurd hrefused (by decide)) (.inl (htaken ▸ hlt))
    · have hfull : w.1.1.slotCount = appSlotsMax := Nat.le_antisymm h.bounded (Nat.le_of_not_lt hlt)
      constructor
      · intro hused
        have := hused rfl
        exact .inr (by omega)
      · rintro (hroom | hnone) -
        · omega
        · omega
  | _ => exact Iff.rfl

/-- In a run every new app that is refused for want of memory finds an app in each slot exactly if each new
app comes while a slot has never been taken, or before any app has been killed or evicted. -/
theorem refuses_full_iff (E : Env σ) (s : σ) (ops : List AppOp) :
    (tallied E).Along RefusesFull ((.new, s), ⟨0, 0⟩) ops ↔
      (tallied E).Along RoomOrNoneFreed ((.new, s), ⟨0, 0⟩) ops :=
  Component.along_iff (fun o _ hw => hw.refusesFull_iff o) (fun o _ hw _ => hw.step o) (counted_new s)

/-- A device without apps that do anything. -/
def idleEnv : Env Unit where
  onCreate _ s := (espOk, s)
  call _ _ s := s
  freeSize s := (appMemoryThresholdBytes, s)
  uptimeMs s := (0, s)
  publish _ _ s := s

/-- After twenty registrations, an app is launched and killed, and a further one is registered. -/
def killOne : List AppOp :=
  (List.range appSlotsMax).map (fun n => .register (some ⟨n, some (String.ofList (List.replicate n 'a'))⟩)) ++
    [.launch "", .kill 0]

/-- The slot of an app that has been killed is not taken again. -/
theorem refuses_not_full : ¬ ∀ ops, (tallied idleEnv).Along RefusesFull ((.new, ()), ⟨0, 0⟩) ops := by
  intro hall
  have hrefuses := hall (killOne ++ [.register (some ⟨20, some "b"⟩)]) killOne _ [] rfl
  have hrun : ((tallied idleEnv).run ((.new, ()), ⟨0, 0⟩) killOne).1 =
      (manager idleEnv).run (.new, ()) killOne :=
    Component.run_map (f := Prod.fst) (fun _ _ => rfl) killOne _
  rw [RefusesFull, hrun] at hrefuses
  have hnew : ((manager idleEnv).run (.new, ()) killOne).1.findSlotById "b" = none ∧
      (((manager idleEnv).run (.new, ()) killOne).1.register (some ⟨20, some "b"⟩)).1 = espErrNoMem ∧
      (((manager idleEnv).run (.new, ()) killOne).1.slots ⟨0, by decide⟩).entry = none := by
    decide +kernel
  exact hrefuses ⟨_, _, rfl, rfl, hnew.1⟩ hnew.2.1 _ hnew.2.2

end ThistleOS.AppManager
