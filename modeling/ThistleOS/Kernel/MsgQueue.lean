import ThistleOS.Component
import ThistleOS.EspErr
import ThistleOS.Kernel.MsgQueue.Json

/-!
# The message queue

Outbound messages that are kept until they can be sent, and the file that they are written to. The
arithmetic of the kernel wraps.
-/

namespace ThistleOS.MsgQueue

def maxQueueSize : Nat := 64

def defaultMaxRetries : UInt32 := 10

def defaultTtlMs : UInt64 := 3600000

def baseRetryMs : UInt64 := 5000

def maxRetryMs : UInt64 := 300000

def backoffMultiplier : UInt64 := 2

def destMax : Nat := 32

def payloadMax : Nat := 256

inductive MsgPriority
  | normal
  | high
  | urgent
  deriving DecidableEq

namespace MsgPriority

def toU8 : MsgPriority → UInt8
  | normal => 0
  | high => 1
  | urgent => 2

def fromU8 (v : UInt8) : Option MsgPriority :=
  if v = 0 then some normal else if v = 1 then some high else if v = 2 then some urgent else none

end MsgPriority

inductive MsgStatus
  | pending
  | retrying
  | sent
  | expired
  | failed
  | cancelled
  deriving DecidableEq

namespace MsgStatus

def toU8 : MsgStatus → UInt8
  | pending => 0
  | retrying => 1
  | sent => 2
  | expired => 3
  | failed => 4
  | cancelled => 5

def fromU8 (v : UInt8) : Option MsgStatus :=
  if v = 0 then some pending else if v = 1 then some retrying else if v = 2 then some sent
  else if v = 3 then some expired else if v = 4 then some failed
  else if v = 5 then some cancelled else none

end MsgStatus

/-- The bytes in use of a buffer with room for `n` of them. -/
structure Bytes (n : Nat) where
  data : List UInt8
  fits : data.length ≤ n
  deriving DecidableEq

namespace Bytes

variable {n : Nat}

def empty : Bytes n := ⟨[], Nat.zero_le n⟩

def ofList (data : List UInt8) : Bytes n := ⟨data.take n, List.length_take_le n data⟩

@[simp] lemma ofList_data (b : Bytes n) : ofList b.data = b := by
  cases b with
  | mk data fits =>
    rw [ofList]
    congr
    exact List.take_of_length_le fits

end Bytes

structure QueuedMessage where
  id : UInt32
  transport : UInt8
  dest : Bytes destMax
  payload : Bytes payloadMax
  priority : MsgPriority
  createdAt : UInt64
  nextRetryAt : UInt64
  retryCount : UInt32
  maxRetries : UInt32
  ttlMs : UInt64
  status : MsgStatus
  deriving DecidableEq

/-- The `as` conversions of an `i64`. -/
def asU8 (n : Int) : UInt8 := UInt8.ofNat (n % 0x100).toNat
def asU32 (n : Int) : UInt32 := UInt32.ofNat (n % 0x100000000).toNat
def asU64 (n : Int) : UInt64 := UInt64.ofNat (n % 0x10000000000000000).toNat

def decimal (n : Nat) : Text := Nat.toDigits 10 n

namespace QueuedMessage

def toJson (m : QueuedMessage) : Text :=
  "\x7b\"id\":".toList ++ decimal m.id.toNat ++
  ",\"transport\":".toList ++ decimal m.transport.toNat ++
  ",\"dest\":\"".toList ++ jsonEscape (base64Encode m.dest.data) ++
  "\",\"payload\":\"".toList ++ jsonEscape (base64Encode m.payload.data) ++
  "\",\"priority\":".toList ++ decimal m.priority.toU8.toNat ++
  ",\"created_at\":".toList ++ decimal m.createdAt.toNat ++
  ",\"next_retry_at\":".toList ++ decimal m.nextRetryAt.toNat ++
  ",\"retry_count\":".toList ++ decimal m.retryCount.toNat ++
  ",\"max_retries\":".toList ++ decimal m.maxRetries.toNat ++
  ",\"ttl_ms\":".toList ++ decimal m.ttlMs.toNat ++
  ",\"status\":".toList ++ decimal m.status.toU8.toNat ++ "\x7d".toList

/-- The bytes of a value, if it has any that can be read. -/
def bytesOf (n : Nat) (json key : Text) : Bytes n :=
  match jsonGetString json key with
  | none => .empty
  | some s =>
    if s = [] then .empty
    else
      match base64Decode s with
      | none => .empty
      | some data => .ofList data

def fromJson (json : Text) : Option QueuedMessage := do
  let id ← jsonGetInt json "id".toList
  let transport ← jsonGetInt json "transport".toList
  let priority := (jsonGetInt json "priority".toList).getD 0
  let createdAt := (jsonGetInt json "created_at".toList).getD 0
  let nextRetryAt := (jsonGetInt json "next_retry_at".toList).getD 0
  let retryCount := (jsonGetInt json "retry_count".toList).getD 0
  let maxRetries := (jsonGetInt json "max_retries".toList).getD defaultMaxRetries.toNat
  let ttlMs := (jsonGetInt json "ttl_ms".toList).getD defaultTtlMs.toNat
  let status := (jsonGetInt json "status".toList).getD 0
  return {
    id := asU32 id
    transport := asU8 transport
    dest := bytesOf destMax json "dest".toList
    payload := bytesOf payloadMax json "payload".toList
    priority := (MsgPriority.fromU8 (asU8 priority)).getD .normal
    createdAt := asU64 createdAt
    nextRetryAt := asU64 nextRetryAt
    retryCount := asU32 retryCount
    maxRetries := asU32 maxRetries
    ttlMs := asU64 ttlMs
    status := (MsgStatus.fromU8 (asU8 status)).getD .pending }

def isActive (m : QueuedMessage) : Bool := m.status == .pending || m.status == .retrying

def isReady (now : UInt64) (m : QueuedMessage) : Bool := m.isActive && decide (m.nextRetryAt ≤ now)

end QueuedMessage

/-- What the caller is told about a message. -/
structure CQueuedMsgInfo where
  id : UInt32
  transport : UInt8
  dest : Bytes destMax
  payloadLen : UInt16
  priority : UInt8
  retryCount : UInt32
  maxRetries : UInt32
  status : UInt8
  ttlMs : UInt64

def msgToCInfo (m : QueuedMessage) : CQueuedMsgInfo :=
  ⟨m.id, m.transport, m.dest, UInt16.ofNat m.payload.data.length, m.priority.toU8, m.retryCount,
    m.maxRetries, m.status.toU8, m.ttlMs⟩

structure MsgQueueState where
  messages : List QueuedMessage
  nextId : UInt32
  initialized : Bool
  defaultMaxRetries : UInt32
  defaultTtlMs : UInt64

def saturatingAdd (a b : UInt64) : UInt64 :=
  if 0x10000000000000000 ≤ a.toNat + b.toNat then 0xFFFFFFFFFFFFFFFF else a + b

def saturatingMul (a b : UInt64) : UInt64 :=
  if 0x10000000000000000 ≤ a.toNat * b.toNat then 0xFFFFFFFFFFFFFFFF else a * b

/-- The delay after some more failures. -/
def backoffLoop : Nat → UInt64 → UInt64
  | 0, delay => min delay maxRetryMs
  | n + 1, delay =>
    let delay := saturatingMul delay backoffMultiplier
    if maxRetryMs ≤ delay then maxRetryMs else backoffLoop n delay

def calculateBackoff (retryCount : UInt32) : UInt64 := backoffLoop retryCount.toNat baseRetryMs

namespace MsgQueueState

def new : MsgQueueState := ⟨[], 1, false, MsgQueue.defaultMaxRetries, MsgQueue.defaultTtlMs⟩

def activeCount (s : MsgQueueState) : Nat := s.messages.countP QueuedMessage.isActive

def loadMessage (s : MsgQueueState) (m : QueuedMessage) : MsgQueueState :=
  { s with
    nextId := if s.nextId ≤ m.id then m.id + 1 else s.nextId
    messages := s.messages ++ [m] }

/-- The messages in the text of a file. -/
def parsed (json : Text) : List QueuedMessage := (jsonSplitArray json).filterMap QueuedMessage.fromJson

def loadFromDisk (file : Option Text) (s : MsgQueueState) : MsgQueueState :=
  match file with
  | none => s
  | some json => (parsed json).foldl loadMessage s

def init (file : Option Text) (s : MsgQueueState) : EspErr × MsgQueueState :=
  if s.initialized then (espOk, s)
  else (espOk, { loadFromDisk file s with initialized := true })

/-- The text that is written to the file. -/
def toFile (s : MsgQueueState) : Text :=
  "[\n".toList ++
    ((s.messages.map fun m => "  ".toList ++ m.toJson).intersperse ",\n".toList).flatten ++
    "\n]".toList

/-- The file is written if the queue has been initialised; `written` says whether that worked. -/
def saveToDisk (written : Bool) (s : MsgQueueState) : EspErr × Option Text :=
  if !s.initialized then (espErrInvalidState, none)
  else if written then (espOk, some s.toFile)
  else (espErrInvalidState, none)

/-- The reply is the id of the message, or an error code. -/
def enqueue (transport : UInt8) (dest payload : List UInt8) (priority : MsgPriority) (now : UInt64)
    (s : MsgQueueState) : Int32 × MsgQueueState :=
  if 3 < transport then (espErrInvalidArg, s)
  else if payload = [] ∨ payloadMax < payload.length then (espErrInvalidArg, s)
  else if destMax < dest.length then (espErrInvalidArg, s)
  else if maxQueueSize ≤ s.activeCount then (espErrNoMem, s)
  else
    (s.nextId.toInt32,
      { s with
        nextId := s.nextId + 1
        messages := s.messages ++ [{
          id := s.nextId
          transport := transport
          dest := .ofList dest
          payload := .ofList payload
          priority := priority
          createdAt := now
          nextRetryAt := now
          retryCount := 0
          maxRetries := s.defaultMaxRetries
          ttlMs := s.defaultTtlMs
          status := .pending }] })

/-- Change the first message with an id, if the change is possible there. -/
def updateMessage (id : UInt32) (f : QueuedMessage → EspErr × QueuedMessage) (s : MsgQueueState) :
    EspErr × MsgQueueState :=
  match s.messages.findIdx? (·.id == id) with
  | none => (espErrNotFound, s)
  | some i =>
    ((s.messages[i]?.map fun m => (f m).1).getD espErrNotFound,
      { s with messages := s.messages.modify i fun m => (f m).2 })

def cancelMessage (m : QueuedMessage) : QueuedMessage :=
  if m.isActive then { m with status := .cancelled } else m

def cancel (id : UInt32) : MsgQueueState → EspErr × MsgQueueState :=
  updateMessage id fun m => (espOk, cancelMessage m)

def cancelAll (s : MsgQueueState) : EspErr × MsgQueueState :=
  (espOk, { s with messages := s.messages.map cancelMessage })

/-- What a tick makes of a message, and whether it is ready to be sent then. -/
def tickMessage (now : UInt64) (m : QueuedMessage) : QueuedMessage × Bool :=
  if !m.isActive then (m, false)
  else if 0 < m.ttlMs ∧ m.createdAt + m.ttlMs ≤ now then ({ m with status := .expired }, false)
  else if 0 < m.maxRetries ∧ m.maxRetries ≤ m.retryCount then ({ m with status := .failed }, false)
  else (m, decide (m.nextRetryAt ≤ now))

/-- The reply is the number of messages that are ready. -/
def tick (now : UInt64) (s : MsgQueueState) : Int32 × MsgQueueState :=
  (Int32.ofNat (s.messages.countP fun m => (tickMessage now m).2),
    { s with messages := s.messages.map fun m => (tickMessage now m).1 })

/-- The urgent messages come first, and otherwise the older ones. -/
def getReady (max : Nat) (now : UInt64) (s : MsgQueueState) : List CQueuedMsgInfo :=
  (((s.messages.filter (QueuedMessage.isReady now)).mergeSort fun a b =>
    decide (b.priority.toU8 ≤ a.priority.toU8)).take max).map msgToCInfo

def markSent (id : UInt32) : MsgQueueState → EspErr × MsgQueueState :=
  updateMessage id fun m => (espOk, { m with status := .sent })

def failMessage (now : UInt64) (m : QueuedMessage) : EspErr × QueuedMessage :=
  if !m.isActive then (espErrInvalidState, m)
  else
    (espOk,
      { m with
        retryCount := m.retryCount + 1
        status := .retrying
        nextRetryAt := saturatingAdd now (calculateBackoff (m.retryCount + 1)) })

def markFailed (id : UInt32) (now : UInt64) : MsgQueueState → EspErr × MsgQueueState :=
  updateMessage id (failMessage now)

def setDefaults (maxRetries : UInt32) (ttlMs : UInt64) (s : MsgQueueState) :
    EspErr × MsgQueueState :=
  (espOk, { s with defaultMaxRetries := maxRetries, defaultTtlMs := ttlMs })

/-- The reply is the number of messages that are removed. -/
def purgeCompleted (s : MsgQueueState) : Int32 × MsgQueueState :=
  (Int32.ofNat (s.messages.length - (s.messages.filter QueuedMessage.isActive).length),
    { s with messages := s.messages.filter QueuedMessage.isActive })

end MsgQueueState

/-! ### The exported calls -/

open MsgQueueState

/-- Messages are enqueued at time zero. -/
def rsMsgQueueEnqueue (transport : UInt8) (dest payload : Option (List UInt8)) (priority : UInt8)
    (s : MsgQueueState) : Int32 × MsgQueueState :=
  match payload with
  | none => (espErrInvalidArg, s)
  | some payload =>
    if payload = [] then (espErrInvalidArg, s)
    else
      match MsgPriority.fromU8 priority with
      | none => (espErrInvalidArg, s)
      | some prio => s.enqueue transport (dest.getD []) payload prio 0

/-- A call that enqueues a message does so at the end, or leaves the queue as it is. -/
lemma enqueue_cases (transport : UInt8) (dest payload : Option (List UInt8)) (priority : UInt8)
    (s : MsgQueueState) :
    (rsMsgQueueEnqueue transport dest payload priority s).2 = s ∨
      ∃ m, s.activeCount < maxQueueSize ∧ m.id = s.nextId ∧ m.createdAt = 0 ∧
        rsMsgQueueEnqueue transport dest payload priority s = (s.nextId.toInt32,
          { s with nextId := s.nextId + 1, messages := s.messages ++ [m] }) := by
  cases payload with
  | none => exact .inl rfl
  | some payload =>
    rw [rsMsgQueueEnqueue]
    split_ifs
    · exact .inl rfl
    cases MsgPriority.fromU8 priority with
    | none => exact .inl rfl
    | some prio =>
      simp only [MsgQueueState.enqueue]
      split_ifs with _ _ _ hfull
      · exact .inl rfl
      · exact .inl rfl
      · exact .inl rfl
      · exact .inl rfl
      · exact .inr ⟨_, Nat.lt_of_not_le hfull, rfl, rfl, rfl⟩

/-- Every active message counts as ready. -/
def rsMsgQueueGetReady (out : Bool) (max : UInt32) (s : MsgQueueState) :
    Int32 × List CQueuedMsgInfo :=
  if !out then (espErrInvalidArg, [])
  else if max = 0 then (0, [])
  else
    let infos := s.getReady max.toNat 0xFFFFFFFFFFFFFFFF
    (Int32.ofNat infos.length, infos)

/-- The calls; the file is what is found when the queue is initialised. -/
inductive MsgOp
  | init (file : Option Text)
  | enqueue (transport : UInt8) (dest payload : Option (List UInt8)) (priority : UInt8)
  | cancel (id : UInt32)
  | cancelAll
  | tick (now : UInt64)
  | getReady (out : Bool) (max : UInt32)
  | markSent (id : UInt32)
  | markFailed (id : UInt32)
  | setDefaults (maxRetries : UInt32) (ttlMs : UInt64)
  | purgeCompleted

/-- The messages that are ready come with the reply. -/
def MsgOp.Reply : MsgOp → Type
  | .getReady _ _ => Int32 × List CQueuedMsgInfo
  | _ => Int32

/-- The message queue as a component. -/
def msgQueue : Component MsgOp MsgOp.Reply MsgQueueState where
  step
    | .init file, s => s.init file
    | .enqueue transport dest payload priority, s =>
      rsMsgQueueEnqueue transport dest payload priority s
    | .cancel id, s => s.cancel id
    | .cancelAll, s => s.cancelAll
    | .tick now, s => s.tick now
    | .getReady out max, s => (rsMsgQueueGetReady out max s, s)
    | .markSent id, s => s.markSent id
    | .markFailed id, s => s.markFailed id 0
    | .setDefaults maxRetries ttlMs, s => s.setDefaults maxRetries ttlMs
    | .purgeCompleted, s => s.purgeCompleted

end ThistleOS.MsgQueue
