import ThistleOS.Component
import ThistleOS.EspErr
import ThistleOS.Slots

/-!
# Burn timers

Timers that delete messages. The messenger drives the clock with ticks; a timer that has run out
becomes a record in a queue, from which the messenger collects it. The arithmetic of the kernel wraps.

A timer and its record carry a tag that no function looks at. In the kernel it is nothing (`Unit`).
-/

namespace ThistleOS.BurnTimer

def maxBurnEntries : ℕ := 64

def maxConversations : ℕ := 4

def maxMessageIndex : UInt8 := 49

def maxExpiredQueue : ℕ := 64

variable {τ : Type}

structure BurnEntry (τ : Type) where
  conversationId : UInt8
  messageIndex : UInt8
  createdAt : UInt64
  burnAfterMs : UInt64
  active : Bool
  tag : τ

structure CBurnExpired (τ : Type) where
  conversationId : UInt8
  messageIndex : UInt8
  tag : τ

namespace BurnEntry

def isFor (convId msgIdx : UInt8) (e : BurnEntry τ) : Bool :=
  e.active && e.conversationId == convId && e.messageIndex == msgIdx

def isOf (convId : UInt8) (e : BurnEntry τ) : Bool := e.active && e.conversationId == convId

def isDue (now : UInt64) (e : BurnEntry τ) : Bool :=
  e.active && decide (e.createdAt + e.burnAfterMs ≤ now)

def expired (e : BurnEntry τ) : CBurnExpired τ := ⟨e.conversationId, e.messageIndex, e.tag⟩

end BurnEntry

/-- A table that has not been allocated is empty. The queue is its used part. -/
structure BurnTimerState (τ : Type) where
  entries : List (Option (BurnEntry τ))
  entryCount : ℕ
  expiredQueue : List (CBurnExpired τ)
  tickCount : UInt64
  totalBurned : UInt32
  initialized : Bool

namespace BurnTimerState

def init : BurnTimerState τ := ⟨List.replicate maxBurnEntries none, 0, [], 0, 0, true⟩

def validateConvId (convId : UInt8) : Bool := decide (convId.toNat < maxConversations)

def validateMsgIdx (msgIdx : UInt8) : Bool := decide (msgIdx ≤ maxMessageIndex)

def findEntry (convId msgIdx : UInt8) (s : BurnTimerState τ) : Option ℕ :=
  s.entries.findIdx? fun slot => slot.any (BurnEntry.isFor convId msgIdx)

def findFreeSlot (s : BurnTimerState τ) : Option ℕ :=
  s.entries.findIdx? fun slot => slot.all fun e => !e.active

def clear (idx : ℕ) (s : BurnTimerState τ) : BurnTimerState τ :=
  { s with entries := s.entries.set idx none, entryCount := s.entryCount - 1 }

/-- Cancel any existing timer of a message. -/
def giveUp (convId msgIdx : UInt8) (s : BurnTimerState τ) : BurnTimerState τ :=
  match s.findEntry convId msgIdx with
  | some idx => s.clear idx
  | none => s

/-- A new timer in the first free slot. -/
def place (tag : τ) (convId msgIdx : UInt8) (burnAfterMs : UInt64) (s : BurnTimerState τ) :
    EspErr × BurnTimerState τ :=
  match s.findFreeSlot with
  | none => (espErrNoMem, s)
  | some slot =>
    (espOk, { s with
      entries := s.entries.set slot (some ⟨convId, msgIdx, s.tickCount, burnAfterMs, true, tag⟩)
      entryCount := s.entryCount + 1 })

def setTimer (tag : τ) (convId msgIdx : UInt8) (burnAfterMs : UInt64) (s : BurnTimerState τ) :
    EspErr × BurnTimerState τ :=
  if !s.initialized then (espErrInvalidState, s)
  else if !validateConvId convId || !validateMsgIdx msgIdx then (espErrInvalidArg, s)
  else (s.giveUp convId msgIdx).place tag convId msgIdx burnAfterMs

def cancelTimer (convId msgIdx : UInt8) (s : BurnTimerState τ) : EspErr × BurnTimerState τ :=
  if !s.initialized then (espErrInvalidState, s)
  else if !validateConvId convId || !validateMsgIdx msgIdx then (espErrInvalidArg, s)
  else
    match s.findEntry convId msgIdx with
    | some idx => (espOk, s.clear idx)
    | none => (espErrNotFound, s)

def cancelConversation (convId : UInt8) (s : BurnTimerState τ) : EspErr × BurnTimerState τ :=
  if !s.initialized then (espErrInvalidState, s)
  else if !validateConvId convId then (espErrInvalidArg, s)
  else
    (espOk, { s with
      entries := s.entries.map fun slot => slot.filter fun e => !e.isOf convId
      entryCount := s.entryCount - s.entries.countP fun slot => slot.any (BurnEntry.isOf convId) })

/-- A place at the end of the queue, if there is one. -/
def push (queue : List (CBurnExpired τ)) (record : CBurnExpired τ) : List (CBurnExpired τ) :=
  if queue.length < maxExpiredQueue then queue ++ [record] else queue

/-- The loop of a tick: the slots and the queue that it leaves, and the number of timers that it
found to be due. -/
def expire (now : UInt64) :
    List (Option (BurnEntry τ)) → List (CBurnExpired τ) →
      List (Option (BurnEntry τ)) × List (CBurnExpired τ) × ℕ
  | [], queue => ([], queue, 0)
  | none :: slots, queue =>
    let (slots', queue', n) := expire now slots queue
    (none :: slots', queue', n)
  | some e :: slots, queue =>
    if e.isDue now then
      let (slots', queue', n) := expire now slots (push queue e.expired)
      (none :: slots', queue', n + 1)
    else
      let (slots', queue', n) := expire now slots queue
      (some e :: slots', queue', n)

def tick (now : UInt64) (s : BurnTimerState τ) : Int32 × BurnTimerState τ :=
  if !s.initialized then (espErrInvalidState, s)
  else
    let (entries, expiredQueue, newlyExpired) := expire now s.entries s.expiredQueue
    (.ofNat newlyExpired, { s with
      entries
      expiredQueue
      entryCount := s.entryCount - newlyExpired
      tickCount := now
      totalBurned := s.totalBurned + .ofNat newlyExpired })

/-- The records that are written into a buffer with `room` places. -/
def getExpired (room : ℕ) (s : BurnTimerState τ) :
    Except EspErr (List (CBurnExpired τ)) × BurnTimerState τ :=
  if !s.initialized then (.error espErrInvalidState, s)
  else
    (.ok (s.expiredQueue.take (min s.expiredQueue.length room)),
      { s with expiredQueue := s.expiredQueue.drop (min s.expiredQueue.length room) })

/-- The time that a timer has left, as a signed number. -/
def remaining (convId msgIdx : UInt8) (s : BurnTimerState τ) : Int64 :=
  if !s.initialized then -1
  else if !validateConvId convId || !validateMsgIdx msgIdx then -1
  else
    match (s.findEntry convId msgIdx).bind fun idx => s.entries[idx]?.join with
    | some entry =>
      let deadline := entry.createdAt + entry.burnAfterMs
      if deadline ≤ s.tickCount then 0 else (deadline - s.tickCount).toInt64
    | none => -1

def activeCount (s : BurnTimerState τ) : Int32 :=
  if !s.initialized then espErrInvalidState else .ofNat s.entryCount

def clearAll (s : BurnTimerState τ) : EspErr × BurnTimerState τ :=
  if !s.initialized then (espErrInvalidState, s)
  else
    (espOk, { s with
      entries := List.replicate maxBurnEntries none
      entryCount := 0
      expiredQueue := [] })

end BurnTimerState

/-! ### The calls -/

inductive Op
  | set (convId msgIdx : UInt8) (burnAfterMs : UInt64)
  | cancel (convId msgIdx : UInt8)
  | cancelConversation (convId : UInt8)
  | tick (now : UInt64)
  | getExpired (room : ℕ)

def Reply (τ : Type) : Op → Type
  | .getExpired _ => Except EspErr (List (CBurnExpired τ))
  | _ => Int32

/-- A call, with the tag for a timer that it sets. -/
def step (tag : τ) : (o : Op) → BurnTimerState τ → Reply τ o × BurnTimerState τ
  | .set convId msgIdx burnAfterMs, s => s.setTimer tag convId msgIdx burnAfterMs
  | .cancel convId msgIdx, s => s.cancelTimer convId msgIdx
  | .cancelConversation convId, s => s.cancelConversation convId
  | .tick now, s => s.tick now
  | .getExpired room, s => s.getExpired room

def burnTimers : Component Op (Reply Unit) (BurnTimerState Unit) := ⟨step ()⟩

/-! ### The slots and the queue after a tick -/

namespace BurnTimerState

/-- The entries that a tick finds to be due, in the order of the table. -/
def due (now : UInt64) (entries : List (Option (BurnEntry τ))) : List (BurnEntry τ) :=
  entries.filterMap fun slot => slot.filter (BurnEntry.isDue now)

@[simp] lemma due_nil (now : UInt64) : due now ([] : List (Option (BurnEntry τ))) = [] := rfl

@[simp] lemma due_none (now : UInt64) (slots : List (Option (BurnEntry τ))) :
    due now (none :: slots) = due now slots := rfl

lemma due_some (now : UInt64) (e : BurnEntry τ) (slots : List (Option (BurnEntry τ))) :
    due now (some e :: slots) = if e.isDue now then e :: due now slots else due now slots := by
  rw [due, List.filterMap_cons, Option.filter_some]
  by_cases h : e.isDue now = true <;> simp [h, due]

lemma push_append_take (queue : List (CBurnExpired τ)) (record : CBurnExpired τ)
    (records : List (CBurnExpired τ)) :
    push queue record ++ records.take (maxExpiredQueue - (push queue record).length) =
      queue ++ (record :: records).take (maxExpiredQueue - queue.length) := by
  rw [push]
  split
  · rename_i hroom
    obtain ⟨k, hk⟩ := Nat.exists_eq_add_of_lt hroom
    have hk' : maxExpiredQueue - queue.length = k + 1 := by omega
    rw [hk', List.take_succ_cons, List.append_assoc, List.singleton_append, List.length_append,
      List.length_singleton, Nat.sub_add_eq, hk', Nat.add_sub_cancel]
  · rename_i hfull
    simp [Nat.sub_eq_zero_of_le (Nat.le_of_not_lt hfull)]

theorem expire_eq (now : UInt64) (slots : List (Option (BurnEntry τ))) (queue : List (CBurnExpired τ)) :
    expire now slots queue =
      (slots.map fun slot => slot.filter fun e => !e.isDue now,
        queue ++ ((due now slots).map BurnEntry.expired).take (maxExpiredQueue - queue.length),
        (due now slots).length) := by
  induction slots generalizing queue with
  | nil => simp [expire]
  | cons slot slots ih =>
    cases slot with
    | none => simp [expire, ih]
    | some e =>
      rw [expire, due_some]
      split
      · rename_i hdue
        simp [ih, Option.filter_some, hdue, push_append_take]
      · rename_i hdue
        simp [ih, Option.filter_some, hdue]

end BurnTimerState

end ThistleOS.BurnTimer
