import ThistleOS.Component
import ThistleOS.EspErr
import ThistleOS.Toolkit.TextInput
import Mathlib.Data.List.MinMax

/-!
# Notifications

The queue of the notifications that apps post. A full queue evicts one before the next is posted. The
arithmetic of the kernel wraps.
-/

namespace ThistleOS.Notifications

open Toolkit.TextInput (len sliceTo)

def titleMaxLen : ℕ := 64

def bodyMaxLen : ℕ := 256

inductive NotificationPriority
  | low
  | normal
  | high
  | urgent
  deriving DecidableEq

def NotificationPriority.rank : NotificationPriority → ℕ
  | low => 0
  | normal => 1
  | high => 2
  | urgent => 3

inductive NotificationCategory
  | message
  | system
  | app
  | alert
  | progress
  deriving DecidableEq

structure Notification where
  id : UInt32
  appId : List Char
  title : List Char
  body : List Char
  priority : NotificationPriority
  category : NotificationCategory
  timestamp : UInt32
  expiresAt : Option UInt32
  read : Bool
  dismissed : Bool
  progress : Option UInt8
  actionLabel : Option (List Char)
  deriving DecidableEq

structure NotificationManager where
  notifications : List Notification
  maxCapacity : ℕ
  nextId : UInt32

/-- A text cut to a number of bytes; there is none where the cut is within a character, and the kernel
panics. -/
def truncate (s : List Char) (max : ℕ) : Option (List Char) := if len s ≤ max then some s else sliceTo s max

namespace NotificationManager

def new (maxCapacity : ℕ) : NotificationManager := ⟨[], maxCapacity, 1⟩

/-- The index of the oldest notification of a kind. -/
def findEvictionCandidate (dismissed : Bool) (priority : NotificationPriority) (m : NotificationManager) : Option ℕ :=
  ((m.notifications.zipIdx.filter fun x => x.1.dismissed == dismissed && x.1.priority == priority).argmin
    fun x => x.1.id.toNat).map Prod.snd

/-- Where the notification is that goes next. -/
def victim (m : NotificationManager) : Option ℕ :=
  m.findEvictionCandidate true .low <|> m.findEvictionCandidate true .normal <|>
    m.findEvictionCandidate true .high <|> m.findEvictionCandidate true .urgent <|>
    m.findEvictionCandidate false .low <|> if m.notifications ≠ [] then some 0 else none

def evictIfNeeded (m : NotificationManager) : NotificationManager :=
  if m.notifications.length < m.maxCapacity then m
  else
    match m.victim with
    | some idx => { m with notifications := m.notifications.eraseIdx idx }
    | none => m

/-- What an app posts. -/
structure Message where
  appId : List Char
  title : List Char
  body : List Char
  priority : NotificationPriority
  category : NotificationCategory

/-- The reply is the id of the notification; there is none if the kernel panics. -/
def post (msg : Message) (m : NotificationManager) : Option UInt32 × NotificationManager :=
  let m := m.evictIfNeeded
  let id := m.nextId
  let m := { m with nextId := m.nextId + 1 }
  match truncate msg.title titleMaxLen, truncate msg.body bodyMaxLen with
  | some title, some body =>
    (some id,
      { m with
        notifications := m.notifications ++ [{
          id := id
          appId := msg.appId
          title := title
          body := body
          priority := msg.priority
          category := msg.category
          timestamp := 0
          expiresAt := none
          read := false
          dismissed := false
          progress := none
          actionLabel := none }] })
  | _, _ => (none, m)

/-- Change the first notification with an id. -/
def modifyFirst (id : UInt32) (f : Notification → Notification) (m : NotificationManager) : NotificationManager :=
  { m with
    notifications := m.notifications.modify (m.notifications.findIdx (·.id == id)) f }

def get (id : UInt32) (m : NotificationManager) : Option Notification := m.notifications.find? (·.id == id)

def postWithExpiry (msg : Message) (expiresAt : UInt32) (m : NotificationManager) :
    Option UInt32 × NotificationManager :=
  match m.post msg with
  | (some id, m) => (some id, m.modifyFirst id fun n => { n with expiresAt := some expiresAt })
  | (none, m) => (none, m)

def postProgress (appId title body : List Char) (progress : UInt8) (m : NotificationManager) :
    Option UInt32 × NotificationManager :=
  match m.post ⟨appId, title, body, .normal, .progress⟩ with
  | (some id, m) => (some id, m.modifyFirst id fun n => { n with progress := some (min progress 100) })
  | (none, m) => (none, m)

/-- A change of the notification with an id, or the error of a check that it has to pass. -/
def update (id : UInt32) (check : Notification → EspErr) (f : Notification → Notification) (m : NotificationManager) :
    EspErr × NotificationManager :=
  match m.get id with
  | none => (espErrInvalidArg, m)
  | some n => if check n = espOk then (espOk, m.modifyFirst id f) else (check n, m)

def updateProgress (id : UInt32) (progress : UInt8) : NotificationManager → EspErr × NotificationManager :=
  update id (fun n => if n.category ≠ .progress then espErrInvalidState else espOk)
    fun n => { n with progress := some (min progress 100) }

def setAction (id : UInt32) (label : List Char) : NotificationManager → EspErr × NotificationManager :=
  update id (fun _ => espOk) fun n => { n with actionLabel := some label }

def markRead (id : UInt32) : NotificationManager → EspErr × NotificationManager :=
  update id (fun _ => espOk) fun n => { n with read := true }

def dismiss (id : UInt32) : NotificationManager → EspErr × NotificationManager :=
  update id (fun _ => espOk) fun n => { n with dismissed := true }

/-- Dismiss the notifications that satisfy `p`, with the number of those. -/
def dismissAll (p : Notification → Bool) (m : NotificationManager) : ℕ × NotificationManager :=
  (m.notifications.countP fun n => p n && !n.dismissed,
    { m with notifications := m.notifications.map fun n => if p n then { n with dismissed := true } else n })

def dismissAllFromApp (appId : List Char) : NotificationManager → ℕ × NotificationManager :=
  dismissAll fun n => n.appId == appId

def expired (currentTime : UInt32) (n : Notification) : Bool := n.expiresAt.any (· ≤ currentTime)

def expireOld (currentTime : UInt32) : NotificationManager → ℕ × NotificationManager :=
  dismissAll (expired currentTime)

def clearAll (m : NotificationManager) : NotificationManager := (dismissAll (fun _ => true) m).2

end NotificationManager

open NotificationManager

inductive NotificationOp
  | post (msg : Message)
  | postWithExpiry (msg : Message) (expiresAt : UInt32)
  | postProgress (appId title body : List Char) (progress : UInt8)
  | updateProgress (id : UInt32) (progress : UInt8)
  | setAction (id : UInt32) (label : List Char)
  | markRead (id : UInt32)
  | dismiss (id : UInt32)
  | dismissAllFromApp (appId : List Char)
  | expireOld (currentTime : UInt32)
  | clearAll

/-- A post replies with an id if the kernel does not panic. -/
def NotificationOp.Reply : NotificationOp → Type
  | .post _ | .postWithExpiry _ _ | .postProgress _ _ _ _ => Option UInt32
  | .dismissAllFromApp _ | .expireOld _ => ℕ
  | .clearAll => Unit
  | _ => EspErr

/-- The notification manager as a component. -/
def manager : Component NotificationOp NotificationOp.Reply NotificationManager where
  step
    | .post msg, m => m.post msg
    | .postWithExpiry msg expiresAt, m => m.postWithExpiry msg expiresAt
    | .postProgress appId title body progress, m => m.postProgress appId title body progress
    | .updateProgress id progress, m => m.updateProgress id progress
    | .setAction id label, m => m.setAction id label
    | .markRead id, m => m.markRead id
    | .dismiss id, m => m.dismiss id
    | .dismissAllFromApp appId, m => m.dismissAllFromApp appId
    | .expireOld currentTime, m => m.expireOld currentTime
    | .clearAll, m => ((), m.clearAll)

end ThistleOS.Notifications
