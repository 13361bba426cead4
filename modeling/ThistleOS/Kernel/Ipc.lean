import ThistleOS.Component
import ThistleOS.EspErr
import Mathlib.Data.Fintype.Basic
import Mathlib.Order.Basic

/-!
# IPC

A bounded queue of messages, and the handlers that are called while a message is sent.
-/

namespace ThistleOS.Ipc

def ipcMsgMaxData : Nat := 256
def ipcQueueDepth : Nat := 16
def ipcHandlerMax : Nat := 16

structure CIpcMessage where
  srcApp : UInt32
  dstApp : UInt32
  msgType : UInt32
  data : Fin ipcMsgMaxData → UInt8
  dataLen : UInt32
  timestamp : UInt32
  deriving DecidableEq

instance : Inhabited CIpcMessage := ⟨⟨0, 0, 0, fun _ => 0, 0, 0⟩⟩

/-- A pointer of the caller that IPC hands on without following it. -/
abbrev Address := UInt32

structure HandlerEntry where
  msgType : UInt32
  handler : Address
  userData : Address
  active : Bool
  deriving DecidableEq

structure IpcState where
  queue : List CIpcMessage
  handlers : List HandlerEntry
  initialized : Bool

def IpcState.new : IpcState := ⟨[], [], false⟩

/-- A call of a handler. -/
structure Dispatch where
  handler : Address
  userData : Address
  msg : CIpcMessage
  deriving DecidableEq

def HandlerEntry.dispatch (msg : CIpcMessage) (e : HandlerEntry) : Dispatch :=
  ⟨e.handler, e.userData, msg⟩

def ipcInit (st : IpcState) : EspErr × IpcState :=
  (espOk, if st.initialized then st else ⟨[], [], true⟩)

/-- The code and the calls of handlers. -/
def ipcSendImpl (msg : CIpcMessage) (st : IpcState) : (EspErr × List Dispatch) × IpcState :=
  if !st.initialized then ((espErrInvalidState, []), st)
  else
    let calls := (st.handlers.filter fun e => e.active && e.msgType == msg.msgType).map
      (HandlerEntry.dispatch msg)
    if ipcQueueDepth ≤ st.queue.length then ((espErrNoMem, calls), st)
    else ((espOk, calls), { st with queue := st.queue ++ [msg] })

def ipcSend (msg : Option CIpcMessage) (st : IpcState) : (EspErr × List Dispatch) × IpcState :=
  match msg with
  | none => ((espErrInvalidArg, []), st)
  | some msg => ipcSendImpl msg st

/-- The end of a wait, because a message has come or the time is over. -/
def ipcWake (st : IpcState) : Except EspErr CIpcMessage × IpcState :=
  match st.queue with
  | msg :: queue => (.ok msg, { st with queue })
  | [] => (.error espErrTimeout, st)

/-- A receive into a buffer, which may be null. With an empty queue it has no result yet and waits. -/
def ipcRecv (writable : Bool) (st : IpcState) : Option (Except EspErr CIpcMessage) × IpcState :=
  if !writable then (some (.error espErrInvalidArg), st)
  else if !st.initialized then (some (.error espErrInvalidState), st)
  else
    match st.queue with
    | msg :: queue => (some (.ok msg), { st with queue })
    | [] => (none, st)

def ipcRegisterHandler (msgType : UInt32) (handler userData : Address) (st : IpcState) :
    EspErr × IpcState :=
  if !st.initialized then (espErrInvalidState, st)
  else if ipcHandlerMax ≤ (st.handlers.filter (·.active)).length then (espErrNoMem, st)
  else (espOk, { st with handlers := st.handlers ++ [⟨msgType, handler, userData, true⟩] })

/-! ### Runs -/

inductive IpcOp
  | init
  | send (msg : Option CIpcMessage)
  | recv (writable : Bool)
  | wake
  | registerHandler (msgType : UInt32) (handler userData : Address)

def IpcOp.Reply : IpcOp → Type
  | .init => EspErr
  | .send _ => EspErr × List Dispatch
  | .recv _ => Option (Except EspErr CIpcMessage)
  | .wake => Except EspErr CIpcMessage
  | .registerHandler _ _ _ => EspErr

def ipc : Component IpcOp IpcOp.Reply IpcState where
  step
    | .init, st => ipcInit st
    | .send msg, st => ipcSend msg st
    | .recv writable, st => ipcRecv writable st
    | .wake, st => ipcWake st
    | .registerHandler msgType handler userData, st => ipcRegisterHandler msgType handler userData st

/-- What the replies say: the handlers that have been registered, the messages whose send returned
OK, and the messages that have been received. -/
structure History where
  registered : List HandlerEntry
  sent : List CIpcMessage
  received : List CIpcMessage

def History.empty : History := ⟨[], [], []⟩

def History.receive (h : History) : Except EspErr CIpcMessage → History
  | .ok msg => { h with received := h.received ++ [msg] }
  | .error _ => h

def History.send (h : History) (msg : CIpcMessage) (rc : EspErr) : History :=
  if rc = espOk then { h with sent := h.sent ++ [msg] } else h

def History.register (h : History) (e : HandlerEntry) (rc : EspErr) : History :=
  if rc = espOk then { h with registered := h.registered ++ [e] } else h

@[simp] lemma History.send_ok (h : History) (msg : CIpcMessage) :
    h.send msg espOk = { h with sent := h.sent ++ [msg] } := rfl

@[simp] lemma History.register_ok (h : History) (e : HandlerEntry) :
    h.register e espOk = { h with registered := h.registered ++ [e] } := rfl

def record : (o : IpcOp) → o.Reply → History → History
  | .init, _, h => h
  | .send (some msg), (rc, _), h => h.send msg rc
  | .send none, _, h => h
  | .recv _, some r, h => h.receive r
  | .recv _, none, h => h
  | .wake, r, h => h.receive r
  | .registerHandler msgType handler userData, rc, h =>
    h.register ⟨msgType, handler, userData, true⟩ rc

def watched := ipc.watch record

abbrev start : IpcState × History := (.new, .empty)

/-- A send that fails leaves everything as it is, and calls no handler. -/
def FailsWithoutEffect : IpcOp → IpcState × History → Prop
  | .send msg, w => (ipcSend msg w.1).1.1 ≠ espOk → ipcSend msg w.1 = (((ipcSend msg w.1).1.1, []), w.1)
  | _, _ => True

/-- A send that fails leaves everything as it is. It has called the handlers of its type, each once,
if the queue was full, and no handler otherwise. -/
def FailsQuietly : IpcOp → IpcState × History → Prop
  | .send msg, w => (ipcSend msg w.1).1.1 ≠ espOk → (ipcSend msg w.1).2 = w.1 ∧
      (((ipcSend msg w.1).1.2 = [] ∧ (ipcSend msg w.1).1.1 ≠ espErrNoMem) ∨
        ∃ m, msg = some m ∧ (ipcSend msg w.1).1.1 = espErrNoMem ∧ w.1.queue.length = ipcQueueDepth ∧
          (ipcSend msg w.1).1.2 =
            (w.2.registered.filter (·.msgType == m.msgType)).map (HandlerEntry.dispatch m))
  | _, _ => True

/-! ### The invariant -/

/-- The messages that have been sent are those that have been received and those that wait. -/
structure Delivers (w : IpcState × History) : Prop where
  sent : w.2.sent = w.2.received ++ w.1.queue
  depth : w.1.queue.length ≤ ipcQueueDepth
  handlers : w.1.handlers = w.2.registered
  active : ∀ e ∈ w.2.registered, e.active = true
  idle : w.1.initialized = false → w.1.queue = [] ∧ w.1.handlers = []

variable {w : IpcState × History} {msg : CIpcMessage}

lemma delivers_start : Delivers start :=
  ⟨rfl, Nat.zero_le _, rfl, fun _ h => absurd h List.not_mem_nil, fun _ => ⟨rfl, rfl⟩⟩

/-- What a send does. -/
lemma ipcSendImpl_cases (msg : CIpcMessage) (st : IpcState) :
    (st.initialized = false ∧ ipcSendImpl msg st = ((espErrInvalidState, []), st)) ∨
    (∃ calls, calls = (st.handlers.filter fun e => e.active && e.msgType == msg.msgType).map
        (HandlerEntry.dispatch msg) ∧ st.initialized = true ∧
      ((ipcQueueDepth ≤ st.queue.length ∧ ipcSendImpl msg st = ((espErrNoMem, calls), st)) ∨
        (st.queue.length < ipcQueueDepth ∧
          ipcSendImpl msg st = ((espOk, calls), { st with queue := st.queue ++ [msg] })))) := by
  cases hinit : st.initialized with
  | false => exact .inl ⟨rfl, by simp [ipcSendImpl, hinit]⟩
  | true =>
    refine .inr ⟨_, rfl, rfl, ?_⟩
    by_cases hfull : ipcQueueDepth ≤ st.queue.length
    · exact .inl ⟨hfull, by simp [ipcSendImpl, hinit, hfull]⟩
    · exact .inr ⟨not_le.mp hfull, by simp [ipcSendImpl, hinit, hfull]⟩

/-- The handlers that a send calls, by the history. -/
lemma Delivers.filter_eq (h : Delivers w) (p : HandlerEntry → Bool) :
    w.1.handlers.filter (fun e => e.active && p e) = w.2.registered.filter p := by
  rw [h.handlers]
  exact List.filter_congr fun e he => by simp [h.active e he]

lemma Delivers.receive (h : Delivers w) (r : Except EspErr CIpcMessage) {queue : List CIpcMessage}
    (hr : r = .ok msg) (hqueue : w.1.queue = msg :: queue) :
    Delivers ({ w.1 with queue }, w.2.receive r) := by
  rw [hr]
  refine ⟨?_, ?_, h.handlers, h.active, fun hinit => ?_⟩
  · simp [History.receive, h.sent, hqueue]
  · have hdepth := h.depth
    rw [hqueue, List.length_cons] at hdepth
    exact Nat.le_of_succ_le hdepth
  · have hempty := (h.idle hinit).1
    rw [hqueue] at hempty
    cases hempty

lemma Delivers.init (h : Delivers w) : Delivers (watched.next .init w) := by
  change Delivers (if w.1.initialized then w.1 else ⟨[], [], true⟩, w.2)
  cases hinit : w.1.initialized with
  | true => exact h
  | false =>
    obtain ⟨hqueue, hhandlers⟩ := h.idle hinit
    refine ⟨?_, Nat.zero_le _, ?_, h.active, fun hfalse => absurd hfalse (by simp)⟩
    · simpa [hqueue] using h.sent
    · exact hhandlers.symm.trans h.handlers

lemma Delivers.send (h : Delivers w) (msg : CIpcMessage) :
    Delivers (watched.next (.send (some msg)) w) := by
  change Delivers ((ipcSendImpl msg w.1).2, record (.send (some msg)) (ipcSendImpl msg w.1).1 w.2)
  rcases ipcSendImpl_cases msg w.1 with ⟨-, heq⟩ | ⟨calls, -, hinit, ⟨-, heq⟩ | ⟨hroom, heq⟩⟩
  · rw [heq]
    exact h
  · rw [heq]
    exact h
  · rw [heq]
    refine ⟨?_, ?_, h.handlers, h.active, fun hfalse => ?_⟩
    · simp [record, h.sent]
    · simpa using Nat.succ_le_of_lt hroom
    · rw [hinit] at hfalse
      cases hfalse

lemma Delivers.recv (h : Delivers w) (writable : Bool) : Delivers (watched.next (.recv writable) w) := by
  change Delivers ((ipcRecv writable w.1).2, record (.recv writable) (ipcRecv writable w.1).1 w.2)
  cases hqueue : w.1.queue with
  | nil =>
    have hsame : (ipcRecv writable w.1).2 = w.1 ∧
        record (.recv writable) (ipcRecv writable w.1).1 w.2 = w.2 := by
      simp only [ipcRecv, hqueue]
      split_ifs
      · exact ⟨rfl, rfl⟩
      · exact ⟨rfl, rfl⟩
      · exact ⟨rfl, rfl⟩
    rw [hsame.1, hsame.2]
    exact h
  | cons msg queue =>
    simp only [ipcRecv, hqueue]
    split_ifs
    · exact h
    · exact h
    · exact h.receive (.ok msg) rfl hqueue

lemma Delivers.wake (h : Delivers w) : Delivers (watched.next .wake w) := by
  change Delivers ((ipcWake w.1).2, record .wake (ipcWake w.1).1 w.2)
  cases hqueue : w.1.queue with
  | nil =>
    simp only [ipcWake, hqueue]
    exact h
  | cons msg queue =>
    simp only [ipcWake, hqueue]
    exact h.receive (.ok msg) rfl hqueue

lemma Delivers.register (h : Delivers w) (msgType : UInt32) (handler userData : Address) :
    Delivers (watched.next (.registerHandler msgType handler userData) w) := by
  change Delivers ((ipcRegisterHandler msgType handler userData w.1).2,
    record (.registerHandler msgType handler userData)
      (ipcRegisterHandler msgType handler userData w.1).1 w.2)
  rw [ipcRegisterHandler]
  split_ifs with hinit
  · exact h
  · exact h
  · refine ⟨h.sent, h.depth, ?_, fun e he => ?_, fun hfalse => ?_⟩
    · simp [record, h.handlers]
    · have hmem : e ∈ w.2.registered ++ [⟨msgType, handler, userData, true⟩] := he
      rcases List.mem_append.mp hmem with he | he
      · exact h.active e he
      · rw [List.mem_singleton.mp he]
    · simp only [Bool.not_eq_true', Bool.not_eq_false] at hinit
      rw [hinit] at hfalse
      cases hfalse

lemma Delivers.step (h : Delivers w) (o : IpcOp) : Delivers (watched.next o w) := by
  cases o with
  | init => exact h.init
  | send msg =>
    cases msg with
    | none => exact h
    | some msg => exact h.send msg
  | recv writable => exact h.recv writable
  | wake => exact h.wake
  | registerHandler msgType handler userData => exact h.register msgType handler userData

lemma Delivers.failsQuietly (h : Delivers w) (o : IpcOp) : FailsQuietly o w := by
  cases o with
  | send msg =>
    intro hfail
    cases msg with
    | none => exact ⟨rfl, .inl ⟨rfl, show espErrInvalidArg ≠ espErrNoMem by decide⟩⟩
    | some msg =>
      rcases ipcSendImpl_cases msg w.1 with ⟨-, heq⟩ | ⟨calls, hcalls, -, ⟨hfull, heq⟩ | ⟨-, heq⟩⟩
      · rw [show ipcSend (some msg) w.1 = _ from heq]
        exact ⟨rfl, .inl ⟨rfl, show espErrInvalidState ≠ espErrNoMem by decide⟩⟩
      · rw [show ipcSend (some msg) w.1 = _ from heq]
        refine ⟨rfl, .inr ⟨msg, rfl, rfl, le_antisymm h.depth hfull, ?_⟩⟩
        rw [hcalls, h.filter_eq]
      · rw [show ipcSend (some msg) w.1 = _ from heq] at hfail
        exact absurd rfl hfail
  | _ => trivial

lemma delivers_run (ops : List IpcOp) : Delivers (watched.run start ops) ∧
    watched.Along (fun _ => Delivers) start ops := by
  have hany : watched.Along (fun _ _ => True) start ops := fun _ _ _ _ => trivial
  obtain ⟨halong, hlast⟩ := Component.along_of_preserved (C := watched) (I := Delivers)
    (fun o _ hw _ => hw.step o) delivers_start hany
  exact ⟨hlast, halong.mono fun _ _ hw => hw.1⟩

/-- In every run, what has been received and what waits are together the messages whose send returned
OK, in the order of the sends, at most 16 wait, and a send that fails leaves the queue as it is. -/
theorem messages_delivered (ops : List IpcOp) :
    (watched.run start ops).2.sent =
        (watched.run start ops).2.received ++ (watched.run start ops).1.queue ∧
      (watched.run start ops).1.queue.length ≤ ipcQueueDepth ∧
      watched.Along FailsQuietly start ops := by
  obtain ⟨hlast, halong⟩ := delivers_run ops
  exact ⟨hlast.sent, hlast.depth, halong.mono fun o _ hw => hw.failsQuietly o⟩

/-- The handler of a message that no longer fits has been called. -/
theorem refused_message_dispatched : ¬ ∀ ops,
    (watched.run start ops).2.sent =
        (watched.run start ops).2.received ++ (watched.run start ops).1.queue ∧
      (watched.run start ops).1.queue.length ≤ ipcQueueDepth ∧
      watched.Along FailsWithoutEffect start ops := by
  intro h
  have hpre : IpcOp.init :: .registerHandler 0 1 2 :: List.replicate 17 (.send (some default)) =
      (.init :: .registerHandler 0 1 2 :: List.replicate 16 (.send (some default))) ++
        [.send (some default)] := rfl
  have hlast := (h _).2.2 _ _ _ hpre (by decide +kernel)
  exact absurd (congrArg (·.1.2.length) hlast) (by decide +kernel)

/-! ### The handlers of a message -/

/-- The type of the handlers that are for every message. -/
def anyType : UInt32 := 0xFFFFFFFF

/-- Is the handler for messages of type `t`? -/
def HandlerEntry.isFor (t : UInt32) (e : HandlerEntry) : Bool := e.msgType == anyType || e.msgType == t

/-- A weaker filter keeps as many elements only if it keeps the same ones. -/
lemma length_filter_eq_iff {α : Type} {p q : α → Bool} (hpq : ∀ a, p a = true → q a = true)
    (l : List α) : (l.filter p).length = (l.filter q).length ↔ l.filter p = l.filter q := by
  refine ⟨fun h => ?_, congrArg _⟩
  have hp : l.filter p = (l.filter q).filter p := by
    rw [List.filter_filter]
    exact List.filter_congr fun a _ => by
      cases hpa : p a with
      | true => simp [hpq a hpa]
      | false => rfl
  rw [hp] at h ⊢
  exact (List.filter_sublist).eq_of_length h

/-- A message that is accepted is handed to the handlers for its type and to those for every type, each
once and in the order of the registrations, if and only if no handler for every type has been
registered, or the message is itself of the type that stands for all. -/
theorem handlers_called_iff (ops : List IpcOp) (msg : CIpcMessage)
    (hok : (ipcSend (some msg) (watched.run start ops).1).1.1 = espOk) :
    (ipcSend (some msg) (watched.run start ops).1).1.2 =
        ((watched.run start ops).2.registered.filter (HandlerEntry.isFor msg.msgType)).map
          (HandlerEntry.dispatch msg) ↔
      msg.msgType = anyType ∨ ∀ e ∈ (watched.run start ops).2.registered, e.msgType ≠ anyType := by
  have h := (delivers_run ops).1
  generalize watched.run start ops = w at h hok ⊢
  have hcalls : (ipcSend (some msg) w.1).1.2 =
      (w.2.registered.filter (·.msgType == msg.msgType)).map (HandlerEntry.dispatch msg) := by
    rw [← h.filter_eq]
    rcases ipcSendImpl_cases msg w.1 with ⟨-, heq⟩ | ⟨calls, rfl, -, ⟨-, heq⟩ | ⟨-, heq⟩⟩
    · rw [show ipcSend (some msg) w.1 = _ from heq] at hok
      exact absurd hok (show espErrInvalidState ≠ espOk by decide)
    · rw [show ipcSend (some msg) w.1 = _ from heq]
    · rw [show ipcSend (some msg) w.1 = _ from heq]
  have hweaker : ∀ e : HandlerEntry, (e.msgType == msg.msgType) = true → e.isFor msg.msgType = true :=
    fun e he => by simp [HandlerEntry.isFor, he]
  rw [hcalls]
  constructor
  · -- Equally many calls, so that the two filters keep the same handlers.
    intro heq
    have hlen := congrArg List.length heq
    rw [List.length_map, List.length_map, length_filter_eq_iff hweaker] at hlen
    by_contra! hcon
    obtain ⟨hmsg, e, he, hany⟩ := hcon
    have hmem : e ∈ w.2.registered.filter (HandlerEntry.isFor msg.msgType) :=
      List.mem_filter.mpr ⟨he, by simp [HandlerEntry.isFor, hany]⟩
    rw [← hlen, List.mem_filter, hany, beq_iff_eq] at hmem
    exact hmsg hmem.2.symm
  · intro hnone
    congr 1
    refine List.filter_congr fun e he => ?_
    rcases hnone with hmsg | hnone
    · simp [HandlerEntry.isFor, hmsg]
    · simp [HandlerEntry.isFor, hnone e he]

/-- Two handlers, and a message for the second. -/
theorem handlers_called_two : (ipcSend (some default) (watched.run start
    [.init, .registerHandler 7 1 2, .registerHandler 0 3 4]).1).1.2 = [⟨3, 4, default⟩] := by
  have h := (handlers_called_iff [.init, .registerHandler 7 1 2, .registerHandler 0 3 4] default
    (by decide +kernel)).mpr (.inr (by decide +kernel))
  exact h

/-- The handler for every message is not called. -/
theorem any_type_not_called : ¬ ∀ ops msg,
    (ipcSend (some msg) (watched.run start ops).1).1.1 = espOk →
      (ipcSend (some msg) (watched.run start ops).1).1.2 =
        ((watched.run start ops).2.registered.filter (HandlerEntry.isFor msg.msgType)).map
          (HandlerEntry.dispatch msg) := by
  intro h
  have hcall := h [.init, .registerHandler anyType 1 2] default (by decide +kernel)
  exact absurd (congrArg List.length hcall) (by decide +kernel)

end ThistleOS.Ipc
