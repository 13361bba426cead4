import ThistleOS.Kernel.MsgQueue.Ids
import ThistleOS.Kernel.MsgQueue.RoundTrip
import ThistleOS.Kernel.MsgQueue.Split

/-!
# The file of the message queue

A queue that is written and read again has the same messages, exactly if each of them is read back
from its text and none has the last id.
-/

namespace ThistleOS.MsgQueue

open MsgQueueState QueuedMessage

variable {inner t : Text} {m : QueuedMessage} {s : MsgQueueState}

/-! ### Splitting -/

/-- Inside an object, a text without braces and backslashes only goes in and out of strings. -/
lemma scan_inside (ht : ∀ c ∈ t, c ≠ '{' ∧ c ≠ '}' ∧ c ≠ '\\') (i : Nat) (inString : Bool)
    (start : Option Nat) (result : List Text) :
    scan inner i t ⟨1, inString, false, start, result⟩ =
      ⟨1, inString ^^ (t.count '"' % 2 == 1), false, start, result⟩ := by
  induction t generalizing i inString with
  | nil => simp
  | cons c t ih =>
    obtain ⟨hopen, hclose, hback⟩ := ht c List.mem_cons_self
    have hrest := fun i inString => ih (fun c' hc' => ht c' (List.mem_cons_of_mem c hc')) i inString
    rw [scan_cons, List.count_cons]
    by_cases hquote : c = '"'
    · have hnext : SplitState.next inner ⟨1, inString, false, start, result⟩ (c, i) =
          ⟨1, !inString, false, start, result⟩ := by
        simp [SplitState.next, hquote]
      rw [hnext, hrest]
      simp only [hquote, beq_self_eq_true, if_true, SplitState.mk.injEq, true_and, and_true]
      rcases Nat.mod_two_eq_zero_or_one (t.count '"') with heven | hodd
      · simp [heven, Nat.add_mod]
      · simp [hodd, Nat.add_mod]
    · have hnext : SplitState.next inner ⟨1, inString, false, start, result⟩ (c, i) =
          ⟨1, inString, false, start, result⟩ := by
        simp [SplitState.next, hquote, hopen, hclose, hback]
      rw [hnext, hrest]
      simp [hquote]

lemma count_join (p : Text) (ps : List Text) (h : ∀ q ∈ p :: ps, '"' ∉ q) :
    (join (p :: ps)).count '"' = ps.length := by
  induction ps generalizing p with
  | nil => rw [join_singleton, List.count_eq_zero_of_not_mem (h p List.mem_cons_self), List.length_nil]
  | cons q ps ih =>
    rw [join_cons, List.count_append, List.count_cons_self,
      List.count_eq_zero_of_not_mem (h p List.mem_cons_self),
      ih q fun q' hq' => h q' (List.mem_cons_of_mem p hq'), List.length_cons, Nat.zero_add]

lemma mem_join {ps : List Text} {c : Char} (h : c ∈ join ps) : c = '"' ∨ ∃ p ∈ ps, c ∈ p := by
  induction ps with
  | nil => simp [join] at h
  | cons p ps ih =>
    cases ps with
    | nil =>
      rw [join_singleton] at h
      exact .inr ⟨p, List.mem_cons_self, h⟩
    | cons q ps =>
      rw [join_cons, List.mem_append, List.mem_cons] at h
      rcases h with h | h | h
      · exact .inr ⟨p, List.mem_cons_self, h⟩
      · exact .inl h
      · rcases ih h with h | ⟨p', hp', hc⟩
        · exact .inl h
        · exact .inr ⟨p', List.mem_cons_of_mem p hp', hc⟩

/-- The text of a message is found as one object. -/
lemma isObject_toJson (m : QueuedMessage) : IsObject m.toJson := by
  have hplain : ∀ c ∈ '"' :: join m.parts, c ≠ '{' ∧ c ≠ '}' ∧ c ≠ '\\' := by
    intro c hc
    have hquote : c = '"' ∨ ∃ p ∈ m.parts, c ∈ p := by
      rcases List.mem_cons.mp hc with rfl | hc
      · exact .inl rfl
      · exact mem_join hc
    rcases hquote with rfl | ⟨p, hp, hc⟩
    · decide
    · exact (plain_ne (plain_of_mem_parts hp hc)).2
  have hcount : ('"' :: join m.parts).count '"' = 26 := by
    rw [List.count_cons_self]
    have hjoin := count_join "id".toList m.parts.tail
      fun q hq hquote => (plain_ne (plain_of_mem_parts hq hquote)).1 rfl
    exact congrArg Nat.succ hjoin
  have hbalanced : Balanced ('"' :: join m.parts) := by
    intro inner i start result
    rw [scan_inside hplain, hcount]
    rfl
  have hobject : m.toJson = '{' :: ('"' :: join m.parts ++ ['}']) := by
    rw [toJson_eq]
    rfl
  rw [hobject]
  exact hbalanced.isObject

/-! ### The file -/

/-- The lines of the file. -/
def lines (ms : List QueuedMessage) : Text :=
  ((ms.map fun m => "  ".toList ++ m.toJson).intersperse ",\n".toList).flatten

lemma lines_eq (ms : List QueuedMessage) : lines ms = objectLines (ms.map toJson) := by
  rw [lines, objectLines, List.map_map]
  rfl

lemma toFile_eq (s : MsgQueueState) :
    s.toFile = '[' :: ('\n' :: (lines s.messages ++ ['\n']) ++ [']']) := by
  simp [toFile, lines]

/-- The file has the texts of the messages. -/
lemma jsonSplitArray_toFile (s : MsgQueueState) :
    jsonSplitArray s.toFile = s.messages.map toJson := by
  rw [toFile_eq, lines_eq]
  refine jsonSplitArray_objectLines fun t ht => ?_
  obtain ⟨m, -, rfl⟩ := List.mem_map.mp ht
  exact isObject_toJson m

/-- What is read of the file. -/
theorem parsed_toFile (s : MsgQueueState) : parsed s.toFile = s.messages.map reload := by
  rw [parsed, jsonSplitArray_toFile, List.filterMap_map]
  have hread : fromJson ∘ toJson = fun m => some (reload m) := funext fromJson_toJson
  rw [hread]
  exact congrFun List.filterMap_eq_map' s.messages

/-! ### Round trip -/

/-- The times of a message fit into the reader, and its priority is not hidden. -/
structure Storable (m : QueuedMessage) : Prop where
  createdAt : m.createdAt.toNat < 0x8000000000000000
  nextRetryAt : m.nextRetryAt.toNat < 0x8000000000000000
  ttlMs : m.ttlMs.toNat < 0x8000000000000000
  priority : m.priority = .normal ∨ (m.dest.data ≠ priorityBytes ∧ m.payload.data ≠ priorityBytes)

lemma reread_eq_self {time default : UInt64} (hdefault : default.toNat < 0x8000000000000000) :
    reread time default = time ↔ time.toNat < 0x8000000000000000 := by
  rw [reread]
  split_ifs with h
  · exact iff_of_true rfl h
  · refine iff_of_false (fun heq => ?_) h
    rw [heq] at hdefault
    exact h hdefault

lemma priority_kept :
    (if Hides m then .normal else m.priority) = m.priority ↔
      m.priority = .normal ∨ (m.dest.data ≠ priorityBytes ∧ m.payload.data ≠ priorityBytes) := by
  rw [← not_or, ← Hides]
  split_ifs with h
  · exact ⟨fun heq => .inl heq.symm, fun heq => (heq.resolve_right (not_not.mpr h)).symm⟩
  · exact iff_of_true rfl (.inr h)

lemma reload_eq_self : reload m = m ↔ Storable m := by
  constructor
  · intro h
    exact {
      createdAt := (reread_eq_self (by decide)).mp (congrArg createdAt h)
      nextRetryAt := (reread_eq_self (by decide)).mp (congrArg nextRetryAt h)
      ttlMs := (reread_eq_self (by decide)).mp (congrArg ttlMs h)
      priority := priority_kept.mp (congrArg priority h) }
  · intro h
    rw [reload, (reread_eq_self (by decide)).mpr h.createdAt,
      (reread_eq_self (by decide)).mpr h.nextRetryAt, (reread_eq_self (by decide)).mpr h.ttlMs,
      priority_kept.mpr h.priority]

/-- What is written is read back into an empty queue, and the counter of its ids is past all of
them. -/
def Restored (s : MsgQueueState) : Prop :=
  ∀ file, s.saveToDisk true = (espOk, some file) →
    (loadFromDisk (some file) .new).messages = s.messages ∧
      ∀ m ∈ (loadFromDisk (some file) .new).messages,
        m.id.toNat < (loadFromDisk (some file) .new).nextId.toNat

lemma saveToDisk_eq {file : Text} (h : s.saveToDisk true = (espOk, some file)) : file = s.toFile := by
  rw [saveToDisk] at h
  cases hinit : s.initialized with
  | false =>
    rw [hinit] at h
    cases h
  | true =>
    rw [hinit] at h
    exact (Option.some.inj (Prod.mk.inj h).2).symm

lemma below_iff (ms : List QueuedMessage) :
    (∀ m ∈ ms, m.id.toNat < (ms.foldl loadMessage .new).nextId.toNat) ↔ ∀ m ∈ ms, m.id ≠ idMax := by
  constructor
  · intro h m hm hid
    have hlt := h m hm
    rw [hid] at hlt
    have hnext := (ms.foldl loadMessage .new).nextId.toNat_lt
    have hmax : idMax.toNat = 2 ^ 32 - 1 := rfl
    omega
  · intro h
    exact (nextId_load h .new).2

/-- A queue is written and read back exactly if each of its messages is read back from its text and
none has the last id. -/
theorem restored_iff_storable (s : MsgQueueState) (h : s.initialized = true) :
    Restored s ↔ ∀ m ∈ s.messages, Storable m ∧ m.id ≠ idMax := by
  have hsave : s.saveToDisk true = (espOk, some s.toFile) := by
    rw [saveToDisk, h]
    rfl
  have hmessages : (loadFromDisk (some s.toFile) .new).messages = s.messages.map reload := by
    rw [loadFromDisk, messages_load, parsed_toFile]
    rfl
  have hkept : s.messages.map reload = s.messages ↔ ∀ m ∈ s.messages, Storable m := by
    have hinj := List.map_inj_left (f := reload) (g := id) (l := s.messages)
    rw [List.map_id] at hinj
    rw [hinj]
    exact forall₂_congr fun m _ => reload_eq_self
  constructor
  · intro hrestored
    obtain ⟨hsame, hbelow⟩ := hrestored s.toFile hsave
    rw [hmessages] at hsame
    rw [loadFromDisk, parsed_toFile, hsame] at hbelow
    rw [messages_load] at hbelow
    exact fun m hm => ⟨hkept.mp hsame m hm, (below_iff s.messages).mp hbelow m hm⟩
  · intro hall file hfile
    obtain rfl := saveToDisk_eq hfile
    have hsame := hkept.mpr fun m hm => (hall m hm).1
    have hbelow := (below_iff s.messages).mpr fun m hm => (hall m hm).2
    rw [hmessages, hsame]
    refine ⟨rfl, ?_⟩
    rw [loadFromDisk, parsed_toFile, hsame]
    exact hbelow

/-- A queue with an urgent message. -/
def sampleQueue : MsgQueueState :=
  { loadMessage .new ⟨7, 2, .ofList [1], .ofList [0, 255], .urgent, 5, 6, 1, 10, 1000, .retrying⟩ with
    initialized := true }

theorem restored_iff_storable_sample : Restored sampleQueue := by
  refine (restored_iff_storable sampleQueue rfl).mpr fun m hm => ?_
  rw [List.mem_singleton.mp hm]
  refine ⟨⟨by decide, by decide, by decide, .inr ⟨by decide, by decide⟩⟩, ?_⟩
  exact (show (7 : UInt32) ≠ idMax by decide)

/-- A message whose time to live does not fit into the reader has another one afterwards. -/
theorem not_restored : ¬ ∀ ops : List MsgOp, Restored (msgQueue.run .new ops) := by
  intro hall
  have hsame := (hall [.init none, .setDefaults 10 9223372036854775808,
    .enqueue 0 none (some [72]) 0] _ rfl).1
  have hread : (loadFromDisk (some (msgQueue.run .new [.init none,
      .setDefaults 10 9223372036854775808, .enqueue 0 none (some [72]) 0]).toFile) .new).messages.map
      ttlMs = [3600000] := by
    decide +kernel
  have httl := congrArg (List.map ttlMs) hsame
  exact absurd (hread.symm.trans httl) (by decide +kernel)

end ThistleOS.MsgQueue
