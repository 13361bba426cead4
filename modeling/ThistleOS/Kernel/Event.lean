import ThistleOS.Component
import ThistleOS.EspErr
import Mathlib.Data.List.ReduceOption
import Mathlib.Logic.Function.Basic

/-!
# The event bus

For each type of event the bus has a row of slots for subscribers. A subscription takes the first free
slot of its row, and an event goes to the subscribers of its row from the first slot on.
-/

namespace ThistleOS.Event

def eventMax : Nat := 17
def eventSubscribersMax : Nat := 8

inductive EventType
  | systemBoot | systemShutdown | appLaunched | appStopped | appSwitched | inputKey | inputTouch
  | radioRx | gpsFix | batteryLow | batteryCharging | sdMounted | sdUnmounted | wifiConnected
  | wifiDisconnected | bleConnected | bleDisconnected
  deriving DecidableEq

def EventType.fromU32 : UInt32 → Option EventType
  | 0 => some .systemBoot
  | 1 => some .systemShutdown
  | 2 => some .appLaunched
  | 3 => some .appStopped
  | 4 => some .appSwitched
  | 5 => some .inputKey
  | 6 => some .inputTouch
  | 7 => some .radioRx
  | 8 => some .gpsFix
  | 9 => some .batteryLow
  | 10 => some .batteryCharging
  | 11 => some .sdMounted
  | 12 => some .sdUnmounted
  | 13 => some .wifiConnected
  | 14 => some .wifiDisconnected
  | 15 => some .bleConnected
  | 16 => some .bleDisconnected
  | _ => none

def EventType.toNat : EventType → Nat
  | .systemBoot => 0
  | .systemShutdown => 1
  | .appLaunched => 2
  | .appStopped => 3
  | .appSwitched => 4
  | .inputKey => 5
  | .inputTouch => 6
  | .radioRx => 7
  | .gpsFix => 8
  | .batteryLow => 9
  | .batteryCharging => 10
  | .sdMounted => 11
  | .sdUnmounted => 12
  | .wifiConnected => 13
  | .wifiDisconnected => 14
  | .bleConnected => 15
  | .bleDisconnected => 16

lemma EventType.toNat_lt (t : EventType) : t.toNat < eventMax := by
  cases t <;> decide

lemma EventType.toNat_of_fromU32 {v : UInt32} {t : EventType} (h : fromU32 v = some t) :
    t.toNat = v.toNat := by
  unfold fromU32 at h
  split at h
  all_goals first | (cases h; rfl) | cases h

/-- The types of events are those below the maximum. -/
lemma EventType.fromU32_isSome {v : UInt32} (h : v.toNat < eventMax) : (fromU32 v).isSome := by
  have hall : ∀ n < eventMax, (fromU32 (UInt32.ofNat n)).isSome := by decide
  simpa using hall v.toNat h

/-- A pointer of the caller that the bus hands on without following it. -/
abbrev Address := UInt32

structure CEvent where
  eventType : UInt32
  timestamp : UInt32
  data : Address
  dataLen : UInt32
  deriving DecidableEq

structure Subscriber where
  handler : Address
  userData : Address
  deriving DecidableEq

/-- A call of a handler. -/
structure Dispatch where
  handler : Address
  event : CEvent
  userData : Address
  deriving DecidableEq

def Subscriber.dispatch (ev : CEvent) (sub : Subscriber) : Dispatch :=
  ⟨sub.handler, ev, sub.userData⟩

abbrev Row := List (Option Subscriber)

structure EventBus where
  subscribers : Fin eventMax → Row

def EventBus.new : EventBus := ⟨fun _ => List.replicate eventSubscribersMax none⟩

/-- The row with a subscriber in its first free slot. -/
def Row.subscribe (sub : Subscriber) : Row → Option Row
  | [] => none
  | none :: row => some (some sub :: row)
  | some s :: row => (Row.subscribe sub row).map (some s :: ·)

/-- The row without the first subscriber that has the handler. -/
def Row.unsubscribe (handler : Address) : Row → Option Row
  | [] => none
  | none :: row => (Row.unsubscribe handler row).map (none :: ·)
  | some s :: row =>
    if s.handler = handler then some (none :: row)
    else (Row.unsubscribe handler row).map (some s :: ·)

def EventBus.setRow (bus : EventBus) (eventType : Fin eventMax) (row : Row) : EventBus :=
  ⟨Function.update bus.subscribers eventType row⟩

def EventBus.subscribe (bus : EventBus) (eventType : Fin eventMax) (handler userData : Address) :
    EspErr × EventBus :=
  match Row.subscribe ⟨handler, userData⟩ (bus.subscribers eventType) with
  | some row => (espOk, bus.setRow eventType row)
  | none => (espErrNoMem, bus)

def EventBus.unsubscribe (bus : EventBus) (eventType : Fin eventMax) (handler : Address) :
    EspErr × EventBus :=
  match Row.unsubscribe handler (bus.subscribers eventType) with
  | some row => (espOk, bus.setRow eventType row)
  | none => (espErrNotFound, bus)

/-- The code and the calls of handlers. -/
def EventBus.publish (bus : EventBus) (ev : CEvent) : EspErr × List Dispatch :=
  if h : ev.eventType.toNat < eventMax then
    (espOk, (bus.subscribers ⟨ev.eventType.toNat, h⟩).reduceOption.map (Subscriber.dispatch ev))
  else (espErrInvalidArg, [])

def eventBusInit (bus : EventBus) : EspErr × EventBus := (espOk, bus)

def eventSubscribe (eventType : UInt32) (handler userData : Address) (bus : EventBus) :
    EspErr × EventBus :=
  match EventType.fromU32 eventType with
  | some t => bus.subscribe ⟨t.toNat, t.toNat_lt⟩ handler userData
  | none => (espErrInvalidArg, bus)

def eventUnsubscribe (eventType : UInt32) (handler : Address) (bus : EventBus) : EspErr × EventBus :=
  match EventType.fromU32 eventType with
  | some t => bus.unsubscribe ⟨t.toNat, t.toNat_lt⟩ handler
  | none => (espErrInvalidArg, bus)

def eventPublish (ev : Option CEvent) (bus : EventBus) : EspErr × List Dispatch :=
  match ev with
  | some ev => bus.publish ev
  | none => (espErrInvalidArg, [])

def eventPublishSimple (eventType : UInt32) (bus : EventBus) : EspErr × List Dispatch :=
  eventPublish (some ⟨eventType, 0, 0, 0⟩) bus

/-! ### Runs -/

inductive EventOp
  | init
  | subscribe (eventType : UInt32) (handler userData : Address)
  | unsubscribe (eventType : UInt32) (handler : Address)
  | publish (ev : Option CEvent)
  | publishSimple (eventType : UInt32)

def EventOp.Reply : EventOp → Type
  | .init => EspErr
  | .subscribe _ _ _ => EspErr
  | .unsubscribe _ _ => EspErr
  | .publish _ => EspErr × List Dispatch
  | .publishSimple _ => EspErr × List Dispatch

def eventBus : Component EventOp EventOp.Reply EventBus where
  step
    | .init, bus => eventBusInit bus
    | .subscribe eventType handler userData, bus => eventSubscribe eventType handler userData bus
    | .unsubscribe eventType handler, bus => eventUnsubscribe eventType handler bus
    | .publish ev, bus => (eventPublish ev bus, bus)
    | .publishSimple eventType, bus => (eventPublishSimple eventType bus, bus)

/-- The current subscriptions of each type of event, in the order in which they were made. -/
abbrev Subscriptions := UInt32 → List Subscriber

def Subscriptions.add (subs : Subscriptions) (eventType : UInt32) (sub : Subscriber) (rc : EspErr) :
    Subscriptions :=
  if rc = espOk then Function.update subs eventType (subs eventType ++ [sub]) else subs

def Subscriptions.remove (subs : Subscriptions) (eventType : UInt32) (handler : Address) (rc : EspErr) :
    Subscriptions :=
  if rc = espOk then Function.update subs eventType ((subs eventType).eraseP (·.handler == handler))
  else subs

def record : (o : EventOp) → o.Reply → Subscriptions → Subscriptions
  | .subscribe eventType handler userData, rc, subs => subs.add eventType ⟨handler, userData⟩ rc
  | .unsubscribe eventType handler, rc, subs => subs.remove eventType handler rc
  | _, _, subs => subs

def watched := eventBus.watch record

abbrev start : EventBus × Subscriptions := (.new, fun _ => [])

/-- An event goes to the current subscribers of its type, each once and in the order in which they
subscribed. -/
def PublishesInOrder (w : EventBus × Subscriptions) : Prop :=
  ∀ ev, ev.eventType.toNat < eventMax →
    eventPublish (some ev) w.1 = (espOk, (w.2 ev.eventType).map (Subscriber.dispatch ev))

/-- Behind the first free slot of the row, every other slot is free or holds the same subscription. -/
def TakesLast (sub : Subscriber) (row : Row) : Prop :=
  ∀ s, some s ∈ row.dropWhile Option.isSome → s = sub

/-- A subscription is not put before an older one. -/
def SubscribesLast : EventOp → EventBus × Subscriptions → Prop
  | .subscribe eventType handler userData, w =>
    ∀ h : eventType.toNat < eventMax,
      TakesLast ⟨handler, userData⟩ (w.1.subscribers ⟨eventType.toNat, h⟩)
  | _, _ => True

/-! ### Rows -/

variable {row row' : Row} {sub : Subscriber} {handler : Address}

/-- A new subscriber comes before those that are behind the first free slot. -/
lemma Row.subscribe_reduceOption (h : row.subscribe sub = some row') :
    ∃ pre, row.reduceOption = pre ++ (row.dropWhile Option.isSome).reduceOption ∧
      row'.reduceOption = pre ++ sub :: (row.dropWhile Option.isSome).reduceOption := by
  induction row generalizing row' with
  | nil => cases h
  | cons slot row ih =>
    cases slot with
    | none =>
      cases h
      exact ⟨[], rfl, rfl⟩
    | some s =>
      obtain ⟨row₁, hrow, rfl⟩ := Option.map_eq_some_iff.mp h
      obtain ⟨pre, hold, hnew⟩ := ih hrow
      exact ⟨s :: pre, by simp [hold], by simp [hnew]⟩

lemma Row.takesLast_of_full (h : row.subscribe sub = none) : TakesLast sub row := by
  induction row with
  | nil => exact fun s hs => absurd hs (by simp)
  | cons slot row ih =>
    cases slot with
    | none => cases h
    | some s => simpa [TakesLast] using ih (Option.map_eq_none_iff.mp h)

lemma Row.unsubscribe_reduceOption (h : row.unsubscribe handler = some row') :
    row'.reduceOption = row.reduceOption.eraseP (·.handler == handler) := by
  induction row generalizing row' with
  | nil => cases h
  | cons slot row ih =>
    cases slot with
    | none =>
      obtain ⟨row₁, hrow, rfl⟩ := Option.map_eq_some_iff.mp h
      simpa using ih hrow
    | some s =>
      rw [Row.unsubscribe] at h
      split_ifs at h with hs
      · cases h
        simp [hs]
      · obtain ⟨row₁, hrow, rfl⟩ := Option.map_eq_some_iff.mp h
        simp [hs, ih hrow]

/-- To put an element before a list is to put it behind the list only if all are the same. -/
lemma cons_eq_append_iff {α : Type} {a : α} {l : List α} : a :: l = l ++ [a] ↔ ∀ b ∈ l, b = a := by
  induction l with
  | nil => simp
  | cons b l ih =>
    rw [List.cons_append, List.cons.injEq, List.forall_mem_cons, eq_comm (a := a)]
    refine and_congr_right fun hb => ?_
    rw [hb, ih]

lemma Row.subscribe_last_iff (h : row.subscribe sub = some row') :
    row'.reduceOption = row.reduceOption ++ [sub] ↔ TakesLast sub row := by
  obtain ⟨pre, hold, hnew⟩ := Row.subscribe_reduceOption h
  rw [hold, hnew, List.append_assoc, List.append_cancel_left_eq, cons_eq_append_iff]
  simp [TakesLast, List.reduceOption_mem_iff]

/-! ### The bus -/

variable {w : EventBus × Subscriptions} {eventType : UInt32}

lemma EventType.fromU32_of_lt (h : eventType.toNat < eventMax) :
    ∃ t, fromU32 eventType = some t ∧ t.toNat = eventType.toNat := by
  obtain ⟨t, ht⟩ := Option.isSome_iff_exists.mp (fromU32_isSome h)
  exact ⟨t, ht, toNat_of_fromU32 ht⟩

lemma EventType.fromU32_of_not_lt (h : ¬ eventType.toNat < eventMax) : fromU32 eventType = none := by
  cases ht : fromU32 eventType with
  | none => rfl
  | some t => exact absurd (toNat_of_fromU32 ht ▸ t.toNat_lt) h

lemma eventSubscribe_of_lt (h : eventType.toNat < eventMax) (handler userData : Address)
    (bus : EventBus) :
    eventSubscribe eventType handler userData bus =
      bus.subscribe ⟨eventType.toNat, h⟩ handler userData := by
  obtain ⟨t, ht, hnat⟩ := EventType.fromU32_of_lt h
  simp [eventSubscribe, ht, hnat]

lemma eventUnsubscribe_of_lt (h : eventType.toNat < eventMax) (handler : Address) (bus : EventBus) :
    eventUnsubscribe eventType handler bus = bus.unsubscribe ⟨eventType.toNat, h⟩ handler := by
  obtain ⟨t, ht, hnat⟩ := EventType.fromU32_of_lt h
  simp [eventUnsubscribe, ht, hnat]

/-- The rows hold the current subscriptions in their order. -/
def Ordered (w : EventBus × Subscriptions) : Prop :=
  ∀ (eventType : UInt32) (h : eventType.toNat < eventMax),
    (w.1.subscribers ⟨eventType.toNat, h⟩).reduceOption = w.2 eventType

lemma dispatch_injective (ev : CEvent) : Function.Injective (Subscriber.dispatch ev) := by
  rintro ⟨handler, userData⟩ ⟨handler', userData'⟩ h
  obtain ⟨rfl, -, rfl⟩ := Dispatch.mk.inj h
  rfl

lemma publishesInOrder_iff : PublishesInOrder w ↔ Ordered w := by
  constructor
  · intro h eventType hlt
    have hpublish := h ⟨eventType, 0, 0, 0⟩ hlt
    rw [eventPublish, EventBus.publish, dif_pos hlt, Prod.mk.injEq] at hpublish
    exact (dispatch_injective _).list_map hpublish.2
  · intro h ev hlt
    rw [eventPublish, EventBus.publish, dif_pos hlt, h]

lemma ordered_setRow (hw : Ordered w) (h : eventType.toNat < eventMax) (l : List Subscriber) :
    Ordered (w.1.setRow ⟨eventType.toNat, h⟩ row, Function.update w.2 eventType l) ↔
      row.reduceOption = l := by
  constructor
  · intro hnew
    simpa [EventBus.setRow] using hnew eventType h
  · intro hrow eventType' h'
    by_cases heq : eventType' = eventType
    · subst heq
      simpa [EventBus.setRow] using hrow
    · have hne : (⟨eventType'.toNat, h'⟩ : Fin eventMax) ≠ ⟨eventType.toNat, h⟩ := fun hcon =>
        heq (UInt32.toNat_inj.mp (Fin.mk.inj hcon))
      simpa [EventBus.setRow, heq, hne] using hw eventType' h'

/-- A call keeps the order exactly if it puts no subscription before an older one. -/
lemma ordered_next (o : EventOp) (hw : Ordered w) :
    Ordered (watched.next o w) ↔ SubscribesLast o w := by
  cases o with
  | subscribe eventType handler userData =>
    change Ordered ((eventSubscribe eventType handler userData w.1).2, w.2.add eventType
      ⟨handler, userData⟩ (eventSubscribe eventType handler userData w.1).1) ↔ _
    by_cases h : eventType.toNat < eventMax
    · rw [eventSubscribe_of_lt h, EventBus.subscribe]
      have hlast : SubscribesLast (.subscribe eventType handler userData) w ↔
          TakesLast ⟨handler, userData⟩ (w.1.subscribers ⟨eventType.toNat, h⟩) :=
        ⟨fun hall => hall h, fun hrow _ => hrow⟩
      rw [hlast]
      cases hrow : Row.subscribe ⟨handler, userData⟩ (w.1.subscribers ⟨eventType.toNat, h⟩) with
      | none => exact iff_of_true hw (Row.takesLast_of_full hrow)
      | some row =>
        rw [← Row.subscribe_last_iff hrow, hw eventType h]
        exact ordered_setRow hw h _
    · rw [eventSubscribe, EventType.fromU32_of_not_lt h]
      exact iff_of_true hw fun hlt => absurd hlt h
  | unsubscribe eventType handler =>
    change Ordered ((eventUnsubscribe eventType handler w.1).2,
      w.2.remove eventType handler (eventUnsubscribe eventType handler w.1).1) ↔ True
    refine iff_true_intro ?_
    by_cases h : eventType.toNat < eventMax
    · rw [eventUnsubscribe_of_lt h, EventBus.unsubscribe]
      cases hrow : Row.unsubscribe handler (w.1.subscribers ⟨eventType.toNat, h⟩) with
      | none => exact hw
      | some row =>
        refine (ordered_setRow hw h _).mpr ?_
        rw [Row.unsubscribe_reduceOption hrow, hw eventType h]
    · rw [eventUnsubscribe, EventType.fromU32_of_not_lt h]
      exact hw
  | _ => exact iff_of_true hw trivial

lemma ordered_start : Ordered start := fun _ _ => rfl

/-- In every state of a run the events go to the current subscribers in the order of the subscriptions,
if and only if no subscription of the run reuses a slot before an older subscription. -/
theorem publishes_in_order_iff (ops : List EventOp) :
    watched.Along (fun o w => PublishesInOrder (watched.next o w)) start ops ↔
      watched.Along SubscribesLast start ops := by
  simp only [publishesInOrder_iff]
  exact Component.along_next_iff (fun o _ hw => ordered_next o hw) ordered_start

/-- A subscription after an earlier one has been given up may be called before an older one. -/
theorem reused_slot_called_first : ¬ ∀ ops, PublishesInOrder (watched.run start ops) := by
  intro h
  have hpublish := h [.subscribe 0 1 0, .subscribe 0 2 0, .unsubscribe 0 1, .subscribe 0 3 0]
    ⟨0, 0, 0, 0⟩ (by decide)
  exact absurd hpublish (by decide +kernel)

end ThistleOS.Event
