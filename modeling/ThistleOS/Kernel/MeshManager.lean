import ThistleOS.Bytes
import ThistleOS.Component
import ThistleOS.CString
import ThistleOS.EspErr
import ThistleOS.RingBuffer

/-!
# The mesh inbox

The mesh manager keeps the messages that it receives in a ring of sixteen, which it allocates when the first one
arrives. The ring holds the last sixteen messages since it was last cleared.
-/

namespace ThistleOS.Mesh

def inboxSize : ℕ := 16

def meshNameMax : ℕ := 32

structure CMeshMessage where
  senderKey : Arr 32
  senderName : Arr 32
  senderNameLen : UInt8
  timestamp : UInt32
  text : Arr 200
  textLen : UInt16

def CMeshMessage.default : CMeshMessage := ⟨.zero, .zero, 0, 0, .zero, 0⟩

/-- What a message tells of its sender. -/
structure CMeshContact where
  pubKey : Arr 32
  name : Arr 32
  nameLen : UInt8

structure MeshManagerState where
  initialized : Bool
  nodeName : Arr meshNameMax
  nodeNameLen : ℕ
  nodeType : UInt8
  inbox : Option (Fin inboxSize → CMeshMessage)
  inboxCount : ℕ
  inboxHead : ℕ
  head_lt : inboxHead < inboxSize
  count_le : inboxCount ≤ inboxSize
  allocated : inboxCount ≠ 0 → inbox.isSome

namespace MeshManagerState

def new : MeshManagerState :=
  ⟨false, .zero, 0, 0, none, 0, 0, by decide, by decide, fun h => absurd rfl h⟩

/-- The cells of the inbox, which are allocated when they are first needed. -/
def ensureInbox (s : MeshManagerState) : Fin inboxSize → CMeshMessage := s.inbox.getD fun _ => .default

def inboxPush (s : MeshManagerState) (msg : CMeshMessage) : MeshManagerState where
  initialized := s.initialized
  nodeName := s.nodeName
  nodeNameLen := s.nodeNameLen
  nodeType := s.nodeType
  inbox := some (Function.update s.ensureInbox
    ⟨(s.inboxHead + s.inboxCount) % inboxSize, Nat.mod_lt _ (by decide)⟩ msg)
  inboxCount := if s.inboxCount < inboxSize then s.inboxCount + 1 else s.inboxCount
  inboxHead := if s.inboxCount < inboxSize then s.inboxHead else (s.inboxHead + 1) % inboxSize
  head_lt := by
    split_ifs
    · exact s.head_lt
    · exact Nat.mod_lt _ (by decide)
  count_le := by
    split_ifs with h
    · exact h
    · exact s.count_le
  allocated _ := rfl

def inboxGet (s : MeshManagerState) (index : ℕ) : Option CMeshMessage :=
  if s.inboxCount ≤ index then none
  else s.inbox.map fun cells => cells ⟨(s.inboxHead + index) % inboxSize, Nat.mod_lt _ (by decide)⟩

/-- The cells stay allocated. -/
def inboxClear (s : MeshManagerState) : MeshManagerState :=
  { s with
    inboxCount := 0
    inboxHead := 0
    head_lt := by decide
    count_le := by decide
    allocated := fun h => absurd rfl h }

end MeshManagerState

/-! ### The exported functions -/

/-- A message that arrives: as much of its text as there is room for. -/
def onMeshMessage (sender : Option CMeshContact) (timestamp : UInt32) (text : Option CStr) (s : MeshManagerState) :
    MeshManagerState :=
  match sender, text with
  | some contact, some text =>
    let copied := text.bytes.take 200
    s.inboxPush ⟨contact.pubKey, contact.name, contact.nameLen, timestamp, .ofSlice copied,
      UInt16.ofNat copied.length⟩
  | _, _ => s

/-- `rc` is what the radio answers. -/
def meshInit (name : Option CStr) (nodeType : UInt8) (rc : EspErr) (s : MeshManagerState) :
    EspErr × MeshManagerState :=
  match name with
  | none => (espErrInvalidArg, s)
  | some name =>
    if s.initialized then (espErrInvalidState, s)
    else
      let copied := name.bytes.take (meshNameMax - 1)
      let named := { s with
        nodeName := fun i =>
          if i < copied.length then copied.getD i 0 else if i = copied.length then 0 else s.nodeName i
        nodeNameLen := copied.length
        nodeType := nodeType }
      (rc, { named.inboxClear with initialized := decide (rc = espOk) })

def meshDeinit (rc : EspErr) (s : MeshManagerState) : EspErr × MeshManagerState :=
  if !s.initialized then (espErrInvalidState, s)
  else if rc ≠ espOk then (rc, s)
  else (espOk, { s.inboxClear with initialized := false })

def meshGetInboxCount (s : MeshManagerState) : Int32 :=
  if s.initialized then Int32.ofNat s.inboxCount else -1

/-- The code and what is written to `out`. -/
def meshGetInboxMessage (index : Int32) (s : MeshManagerState) : EspErr × Option CMeshMessage :=
  if index < 0 then (espErrInvalidArg, none)
  else if !s.initialized then (espErrInvalidState, none)
  else
    match s.inboxGet index.toInt.toNat with
    | some msg => (espOk, some msg)
    | none => (espErrInvalidArg, none)

def meshClearInbox (s : MeshManagerState) : EspErr × MeshManagerState :=
  if s.initialized then (espOk, s.inboxClear) else (espErrInvalidState, s)

/-! ### The inbox is a ring -/

namespace MeshManagerState

/-- The ring of the inbox. -/
def ring (s : MeshManagerState) : RingBuffer CMeshMessage inboxSize :=
  ⟨s.ensureInbox, s.inboxHead, s.inboxCount, s.head_lt, s.count_le⟩

lemma ring_inboxPush (s : MeshManagerState) (msg : CMeshMessage) : (s.inboxPush msg).ring = s.ring.push msg := rfl

lemma toList_ring_inboxClear (s : MeshManagerState) : s.inboxClear.ring.toList = [] := rfl

lemma inboxGet_eq (s : MeshManagerState) (index : ℕ) : s.inboxGet index = s.ring.get? index := by
  have hcount : s.ring.count = s.inboxCount := rfl
  rw [inboxGet, RingBuffer.get?, hcount]
  by_cases h : index < s.inboxCount
  · obtain ⟨cells, hcells⟩ := Option.isSome_iff_exists.mp (s.allocated (Nat.ne_zero_of_lt h))
    have hring : s.ring.cells = cells := by rw [ring, ensureInbox, hcells, Option.getD_some]
    rw [if_neg (Nat.not_le_of_lt h), if_pos h, hcells, hring]
    rfl
  · rw [if_pos (Nat.le_of_not_lt h), if_neg h]

end MeshManagerState

/-- What the exported function reads is what stands in the ring. -/
lemma meshGetInboxMessage_eq {s : MeshManagerState} (hinit : s.initialized = true) {index : Int32}
    (hindex : 0 ≤ index) :
    meshGetInboxMessage index s =
      match s.ring.toList[index.toInt.toNat]? with
      | some msg => (espOk, some msg)
      | none => (espErrInvalidArg, none) := by
  have hnonneg : ¬ index < 0 := fun h => Int32.lt_irrefl (Int32.lt_of_lt_of_le h hindex)
  rw [meshGetInboxMessage, if_neg hnonneg, hinit, RingBuffer.getElem?_toList, MeshManagerState.inboxGet_eq]
  rfl

/-! ### Runs -/

/-- What happens to the inbox. -/
inductive InboxOp
  | push (msg : CMeshMessage)
  | clear

def inboxes : Component InboxOp (fun _ => Unit) MeshManagerState where
  step
    | .push msg, s => ((), s.inboxPush msg)
    | .clear, s => ((), s.inboxClear)

/-- The messages that have been pushed since the last time the inbox was cleared. -/
def sinceClear (ops : List InboxOp) : List CMeshMessage :=
  ops.foldl (fun msgs op => match op with
    | .push msg => msgs ++ [msg]
    | .clear => []) []

lemma sinceClear_concat_push (ops : List InboxOp) (msg : CMeshMessage) :
    sinceClear (ops ++ [.push msg]) = sinceClear ops ++ [msg] := by
  rw [sinceClear, List.foldl_append]
  rfl

lemma sinceClear_concat_clear (ops : List InboxOp) : sinceClear (ops ++ [.clear]) = [] := by
  rw [sinceClear, List.foldl_append]
  rfl

/-- The ring of a run has the last messages. -/
lemma toList_run (ops : List InboxOp) :
    (inboxes.run .new ops).ring.toList = (sinceClear ops).rtake inboxSize := by
  induction ops using List.reverseRecOn with
  | nil => rfl
  | append_singleton ops op ih =>
    rw [Component.run_append, Component.run_cons, Component.run_nil]
    cases op with
    | push msg =>
      have hnext : inboxes.next (.push msg) (inboxes.run .new ops) = (inboxes.run .new ops).inboxPush msg := rfl
      rw [hnext, MeshManagerState.ring_inboxPush, RingBuffer.toList_push, ih, List.rtake_rtake_append, sinceClear_concat_push]
    | clear =>
      have hnext : inboxes.next .clear (inboxes.run .new ops) = (inboxes.run .new ops).inboxClear := rfl
      rw [hnext, MeshManagerState.toList_ring_inboxClear, sinceClear_concat_clear, List.rtake_nil]

/-- After any pushes and clears the inbox has the last sixteen messages since it was last cleared: these are read at
their places and nothing elsewhere, and they are counted. -/
theorem inbox_bounded_list (ops : List InboxOp) :
    (inboxes.run .new ops).inboxCount = ((sinceClear ops).rtake 16).length ∧
      ∀ i, (inboxes.run .new ops).inboxGet i = ((sinceClear ops).rtake 16)[i]? := by
  have hring : (inboxes.run .new ops).ring.toList = (sinceClear ops).rtake 16 := toList_run ops
  refine ⟨?_, fun i => ?_⟩
  · rw [← hring, RingBuffer.length_toList]
    rfl
  · rw [MeshManagerState.inboxGet_eq, ← RingBuffer.getElem?_toList, hring]

end ThistleOS.Mesh
