import ThistleOS.Kernel.MsgQueue
import ThistleOS.StableSort

/-!
# The order of the messages

The messages that are due are handed out by priority, and those of the same priority as they were
enqueued. A tick and the call after it agree about how many there are.
-/

namespace ThistleOS.MsgQueue

open MsgQueueState

variable {s : MsgQueueState} {m : QueuedMessage} {now : UInt64}

/-- The messages that are due at a time, in the order they were enqueued. -/
def due (now : UInt64) (s : MsgQueueState) : List QueuedMessage :=
  s.messages.filter (QueuedMessage.isReady now)

/-- The messages that are due, the urgent ones first and those of each priority as they were
enqueued. -/
structure Scheduled (now : UInt64) (s : MsgQueueState) (order : List QueuedMessage) : Prop where
  perm : order.Perm (due now s)
  descending : order.Pairwise fun a b => b.priority.toU8 ≤ a.priority.toU8
  stable : ∀ p : MsgPriority, order.filter (·.priority = p) = (due now s).filter (·.priority = p)

/-- The number that a call replies with for messages that fit into the buffer. -/
def readyCount (max : Nat) (now : UInt64) (s : MsgQueueState) : Int32 :=
  Int32.ofNat (s.getReady max now).length

def byPriority (a b : QueuedMessage) : Bool := decide (b.priority.toU8 ≤ a.priority.toU8)

lemma byPriority_iff {a b : QueuedMessage} :
    byPriority a b = true ↔ b.priority.toU8 ≤ a.priority.toU8 := decide_eq_true_iff

lemma byPriority_trans (a b c : QueuedMessage) (hab : byPriority a b = true)
    (hbc : byPriority b c = true) : byPriority a c = true :=
  byPriority_iff.mpr (UInt8.le_trans (byPriority_iff.mp hbc) (byPriority_iff.mp hab))

lemma byPriority_total (a b : QueuedMessage) : (byPriority a b || byPriority b a) = true := by
  rw [Bool.or_eq_true, byPriority_iff, byPriority_iff]
  exact UInt8.le_total _ _

/-- The order that the messages are sorted into. -/
lemma scheduled_mergeSort (now : UInt64) (s : MsgQueueState) :
    Scheduled now s ((due now s).mergeSort byPriority) where
  perm := List.mergeSort_perm _ _
  descending := by
    have hsorted := List.pairwise_mergeSort byPriority_trans byPriority_total (due now s)
    exact hsorted.imp byPriority_iff.mp
  stable p := by
    apply StableSort.filter_mergeSort byPriority_trans byPriority_total
    intro a b ha hb
    rw [byPriority_iff, of_decide_eq_true ha, of_decide_eq_true hb]
    exact UInt8.le_refl _

/-- What is due after a tick is what the tick has counted. -/
lemma isReady_tickMessage (now : UInt64) (m : QueuedMessage) :
    (tickMessage now m).1.isReady now = (tickMessage now m).2 := by
  rw [tickMessage]
  split_ifs with hdone
  · have hactive : m.isActive = false := by simpa using hdone
    rw [QueuedMessage.isReady, hactive, Bool.false_and]
  · rfl
  · rfl
  · have hactive : m.isActive = true := by simpa using hdone
    rw [QueuedMessage.isReady, hactive, Bool.true_and]

lemma length_due_tick (now : UInt64) (s : MsgQueueState) :
    (due now (s.tick now).2).length = s.messages.countP fun m => (tickMessage now m).2 := by
  rw [due, MsgQueueState.tick, ← List.countP_eq_length_filter, List.countP_map]
  exact List.countP_congr fun m _ => by rw [Function.comp_apply, isReady_tickMessage]

lemma getReady_eq (max : Nat) (now : UInt64) (s : MsgQueueState) :
    s.getReady max now = (((due now s).mergeSort byPriority).take max).map msgToCInfo := rfl

/-- A buffer with room for all messages that are due takes them. -/
lemma length_getReady {max : Nat} (h : (due now s).length ≤ max) :
    (s.getReady max now).length = (due now s).length := by
  rw [getReady_eq, List.length_map, List.length_take, List.length_mergeSort, min_eq_right h]

/-- At every time the messages that are due have an order by priority, and by age within a priority, so
that a buffer gets the first of them that it has room for; and a tick counts as many as a buffer with
room for all that are due then gets. -/
theorem getReady_scheduled (s : MsgQueueState) (now : UInt64) :
    (∃ order, Scheduled now s order ∧
      ∀ max, s.getReady max now = (order.take max).map msgToCInfo) ∧
    ∀ spare, (s.tick now).1 =
      readyCount ((due now (s.tick now).2).length + spare) now (s.tick now).2 := by
  refine ⟨⟨_, scheduled_mergeSort now s, fun max => getReady_eq max now s⟩, fun spare => ?_⟩
  rw [readyCount, length_getReady (Nat.le_add_right _ spare), length_due_tick]
  rfl

/-! ### Ids and errors -/

/-- The errors that a call replies with that enqueues no message; the last is for a lock that cannot be
taken. -/
def enqueueErrors : List EspErr := [espErrNoMem, espErrInvalidArg, espErrInvalidState]

/-- A reply with the id of a message is no error. -/
def TellsIds : MsgOp → MsgQueueState → Prop
  | .enqueue transport dest payload priority, s => ∀ m : QueuedMessage,
    (rsMsgQueueEnqueue transport dest payload priority s).2.messages = s.messages ++ [m] →
      (rsMsgQueueEnqueue transport dest payload priority s).1 = m.id.toInt32 ∧
        (rsMsgQueueEnqueue transport dest payload priority s).1 ∉ enqueueErrors
  | _, _ => True

/-- The arguments of a message that can be queued. -/
structure ValidMessage (transport : UInt8) (dest payload : Option (List UInt8)) (priority : UInt8) : Prop where
  transport : transport ≤ 3
  dest : (dest.getD []).length ≤ destMax
  payload : ∃ p, payload = some p ∧ p ≠ [] ∧ p.length ≤ payloadMax
  priority : (MsgPriority.fromU8 priority).isSome

/-- The counter of the ids is at none of the errors when there is room for a valid message. -/
def PassesErrors : MsgOp → MsgQueueState → Prop
  | .enqueue transport dest payload priority, s =>
    ValidMessage transport dest payload priority → s.activeCount < maxQueueSize →
      s.nextId ∉ [(0x101 : UInt32), 0x102, 0x103]
  | _, _ => True

section Enqueue

variable {transport priority : UInt8} {dest payload : Option (List UInt8)}

lemma enqueue_valid (h : ValidMessage transport dest payload priority) (hroom : s.activeCount < maxQueueSize) :
    ∃ m, m.id = s.nextId ∧ rsMsgQueueEnqueue transport dest payload priority s = (s.nextId.toInt32,
      { s with nextId := s.nextId + 1, messages := s.messages ++ [m] }) := by
  obtain ⟨p, rfl, hne, hlength⟩ := h.payload
  obtain ⟨prio, hprio⟩ := Option.isSome_iff_exists.mp h.priority
  have htransport : ¬ 3 < transport := UInt8.not_lt.mpr h.transport
  have hpayload : ¬ (p = [] ∨ payloadMax < p.length) := by
    rintro (hnil | hlong)
    · exact hne hnil
    · exact Nat.not_lt.mpr hlength hlong
  simp only [rsMsgQueueEnqueue, if_neg hne, hprio, MsgQueueState.enqueue, if_neg htransport, if_neg hpayload,
    if_neg (Nat.not_lt.mpr h.dest), if_neg (Nat.not_le.mpr hroom)]
  exact ⟨_, rfl, rfl⟩

/-- A call that adds a message has been given a valid one, and the queue was not full. -/
lemma valid_of_adds {m : QueuedMessage}
    (h : (rsMsgQueueEnqueue transport dest payload priority s).2.messages = s.messages ++ [m]) :
    ValidMessage transport dest payload priority ∧ s.activeCount < maxQueueSize := by
  have hsame : s.messages ≠ s.messages ++ [m] := by simp
  cases payload with
  | none => exact absurd h hsame
  | some p =>
    rw [rsMsgQueueEnqueue] at h
    split_ifs at h with hne
    · exact absurd h hsame
    · cases hprio : MsgPriority.fromU8 priority with
      | none =>
        rw [hprio] at h
        exact absurd h hsame
      | some prio =>
        rw [hprio] at h
        simp only [MsgQueueState.enqueue] at h
        split_ifs at h with htransport hpayload hdest hfull
        · exact absurd h hsame
        · exact absurd h hsame
        · exact absurd h hsame
        · exact absurd h hsame
        · rw [not_or] at hpayload
          exact ⟨⟨UInt8.not_lt.mp htransport, Nat.le_of_not_lt hdest,
            ⟨p, rfl, hne, Nat.le_of_not_lt hpayload.2⟩, by rw [hprio]; rfl⟩, Nat.lt_of_not_le hfull⟩

lemma toInt32_mem_enqueueErrors (id : UInt32) :
    id.toInt32 ∈ enqueueErrors ↔ id ∈ [(0x101 : UInt32), 0x102, 0x103] := by
  have hcode (n : UInt32) : id.toInt32 = n.toInt32 ↔ id = n :=
    ⟨fun h => congrArg Int32.toUInt32 h, fun h => congrArg UInt32.toInt32 h⟩
  simp only [enqueueErrors, List.mem_cons, List.not_mem_nil, or_false]
  exact or_congr (hcode 0x101) (or_congr (hcode 0x102) (hcode 0x103))

/-- A call tells its id from the errors exactly if the counter is at none of them. -/
lemma tellsIds_iff (s : MsgQueueState) (o : MsgOp) : TellsIds o s ↔ PassesErrors o s := by
  cases o with
  | enqueue transport dest payload priority =>
    constructor
    · intro h hvalid hroom
      obtain ⟨m, hid, heq⟩ := enqueue_valid hvalid hroom
      have htells := (h m (by rw [heq])).2
      rwa [heq, toInt32_mem_enqueueErrors] at htells
    · intro h m hadds
      obtain ⟨hvalid, hroom⟩ := valid_of_adds hadds
      obtain ⟨m', hid, heq⟩ := enqueue_valid hvalid hroom
      rw [heq] at hadds ⊢
      obtain rfl : m' = m := by simpa using hadds
      exact ⟨by rw [hid], fun hmem => h hvalid hroom ((toInt32_mem_enqueueErrors _).mp hmem)⟩
  | _ => exact Iff.rfl

end Enqueue

/-- In a run every reply with an id is told from the errors exactly if the counter of the ids is at none of
the errors whenever a message is taken. -/
theorem ids_told_iff (s : MsgQueueState) (ops : List MsgOp) :
    msgQueue.Along TellsIds s ops ↔ msgQueue.Along PassesErrors s ops :=
  Component.along_iff (I := fun _ => True) (fun o s _ => tellsIds_iff s o) (fun _ _ _ _ => trivial) trivial

/-- A file with a message of id 256, as the queue writes it. -/
def lateFile : Text :=
  (loadMessage .new ⟨256, 0, .empty, .ofList [72], .normal, 0, 0, 0, 10, 3600000, .pending⟩).toFile

/-- After 256 messages the next id is the code of an error. -/
theorem ids_not_told : ¬ ∀ ops : List MsgOp, msgQueue.Along TellsIds .new ops := by
  intro hall
  have hcounter : (msgQueue.run .new [.init (some lateFile)]).nextId = 0x101 ∧
      (msgQueue.run .new [.init (some lateFile)]).activeCount = 1 := by
    decide +kernel
  have htells := hall [.init (some lateFile), .enqueue 0 none (some [72]) 0] [.init (some lateFile)]
    (.enqueue 0 none (some [72]) 0) [] rfl
  rw [tellsIds_iff] at htells
  refine htells ⟨by decide, by decide, ⟨[72], rfl, by decide, by decide⟩, by decide⟩ ?_ ?_
  · rw [hcounter.2]
    decide
  · rw [hcounter.1]
    decide

end ThistleOS.MsgQueue
