import ThistleOS.Kernel.MsgQueue

/-!
# The clock of the message queue

Messages are enqueued and rescheduled at time zero, and every active message counts as ready. What
the times promise holds as long as nobody asks while they would matter.
-/

namespace ThistleOS.MsgQueue

open MsgQueueState

variable {s : MsgQueueState} {m : QueuedMessage} {i : Nat}

/-- What an observer remembers of a message: the time of the last tick before it was enqueued, and
that before it was last rescheduled, with the delay. -/
structure Mark where
  enqueued : Option UInt64
  rescheduled : Option (UInt64 × UInt64)

/-- The time of the last tick, and a mark for each message. -/
structure Watch where
  now : Option UInt64
  marks : List Mark

/-- The delay that a failure now asks for. -/
def nextBackoff (m : QueuedMessage) : UInt64 := calculateBackoff (m.retryCount + 1)

def recordTimes : MsgOp → MsgQueueState → Watch → Watch
  | .enqueue transport dest payload priority, s, w =>
    { w with
      marks := w.marks ++
        ((rsMsgQueueEnqueue transport dest payload priority s).2.messages.drop
          s.messages.length).map fun _ => ⟨w.now, none⟩ }
  | .tick now, _, w => { w with now := some now }
  | .markFailed id, s, w =>
    match s.messages.findIdx? (·.id == id) with
    | none => w
    | some i =>
      match s.messages[i]?, w.now with
      | some m, some now =>
        if m.isActive then
          { w with marks := w.marks.modify i fun k => { k with rescheduled := some (now, nextBackoff m) } }
        else w
      | _, _ => w
  | _, _, w => w

/-- The message queue with the times of its messages. -/
def timed : Component MsgOp MsgOp.Reply (MsgQueueState × Watch) := msgQueue.observe recordTimes

/-- A message that is enqueued after a tick has not expired before its time has passed since. -/
def ExpiresInTime : MsgOp → MsgQueueState × Watch → Prop
  | .tick now, w => ∀ (i : Nat) (m : QueuedMessage) (k : Mark) (t : UInt64),
    w.1.messages[i]? = some m → w.2.marks[i]? = some k → k.enqueued = some t →
    m.isActive = true → (tickMessage now m).1.status = .expired →
    t.toNat + m.ttlMs.toNat ≤ now.toNat
  | _, _ => True

/-- A message that waits for the next try is not handed out. -/
def WaitsForRetry : MsgOp → MsgQueueState × Watch → Prop
  | .getReady out max, w => ∀ (i : Nat) (m : QueuedMessage) (k : Mark) (t delay : UInt64),
    w.1.messages[i]? = some m → w.2.marks[i]? = some k → k.rescheduled = some (t, delay) →
    m.isActive = true → msgToCInfo m ∈ (rsMsgQueueGetReady out max w.1).2 →
    ∃ now : UInt64, w.2.now = some now ∧ t.toNat + delay.toNat ≤ now.toNat
  | _, _ => True

/-- Only the calls of the claim are made. A tick comes before the time that a message is given has
passed since zero, or after it has passed since the message was enqueued; and nobody asks for
messages while one waits for its next try. -/
def Patient : MsgOp → MsgQueueState × Watch → Prop
  | .enqueue _ _ _ _, _ => True
  | .markFailed _, _ => True
  | .tick now, w => ∀ (i : Nat) (m : QueuedMessage) (k : Mark) (t : UInt64),
    w.1.messages[i]? = some m → w.2.marks[i]? = some k → k.enqueued = some t →
    m.isActive = true → 0 < m.ttlMs → now.toNat < m.ttlMs.toNat ∨ t.toNat + m.ttlMs.toNat ≤ now.toNat
  | .getReady out max, w => out = false ∨ max = 0 ∨
    ∀ (i : Nat) (m : QueuedMessage) (k : Mark) (t delay : UInt64),
      w.1.messages[i]? = some m → w.2.marks[i]? = some k → k.rescheduled = some (t, delay) →
      m.isActive = true → ∃ now : UInt64, w.2.now = some now ∧ t.toNat + delay.toNat ≤ now.toNat
  | _, _ => False

/-! ### One call -/

/-- There is a mark for each message, and the messages that are marked as enqueued have been so at
time zero. -/
structure Stamped (w : MsgQueueState × Watch) : Prop where
  marks_length : w.2.marks.length = w.1.messages.length
  createdAt : ∀ (i : Nat) (m : QueuedMessage) (k : Mark) (t : UInt64), w.1.messages[i]? = some m →
    w.2.marks[i]? = some k → k.enqueued = some t → m.createdAt = 0

lemma Stamped.enqueue {w : MsgQueueState × Watch} (h : Stamped w) (transport : UInt8)
    (dest payload : Option (List UInt8)) (priority : UInt8) :
    Stamped (timed.next (.enqueue transport dest payload priority) w) := by
  change Stamped ((rsMsgQueueEnqueue transport dest payload priority w.1).2,
    recordTimes (.enqueue transport dest payload priority) w.1 w.2)
  rw [recordTimes]
  rcases enqueue_cases transport dest payload priority w.1 with heq | ⟨m, -, -, hzero, heq⟩
  · rw [heq, List.drop_length, List.map_nil, List.append_nil]
    exact h
  · rw [heq]
    simp only [List.drop_left, List.map_singleton]
    refine ⟨by simp [h.marks_length], fun i m' k t hm hk ht => ?_⟩
    simp only at hm hk
    by_cases hi : i < w.1.messages.length
    · rw [List.getElem?_append_left hi] at hm
      rw [List.getElem?_append_left (h.marks_length.symm ▸ hi)] at hk
      exact h.createdAt i m' k t hm hk ht
    · rw [List.getElem?_append_right (Nat.not_lt.mp hi)] at hm
      rw [List.mem_singleton.mp (List.mem_of_getElem? hm)]
      exact hzero

/-- A call that changes the messages in place and keeps the time of each. -/
lemma Stamped.map {w w' : MsgQueueState × Watch} (h : Stamped w)
    (hlength : w'.2.marks.length = w.2.marks.length)
    (hmessages : w'.1.messages.length = w.1.messages.length)
    (hcreated : ∀ (i : Nat) (m' : QueuedMessage), w'.1.messages[i]? = some m' →
      ∃ m, w.1.messages[i]? = some m ∧ m'.createdAt = m.createdAt)
    (henqueued : ∀ (i : Nat) (k' : Mark), w'.2.marks[i]? = some k' →
      ∃ k, w.2.marks[i]? = some k ∧ k'.enqueued = k.enqueued) : Stamped w' := by
  refine ⟨by rw [hlength, hmessages, h.marks_length], fun i m' k' t hm' hk' ht => ?_⟩
  obtain ⟨m, hm, hcreated⟩ := hcreated i m' hm'
  obtain ⟨k, hk, henqueued⟩ := henqueued i k' hk'
  rw [hcreated]
  exact h.createdAt i m k t hm hk (henqueued ▸ ht)

lemma createdAt_tick (now : UInt64) (m : QueuedMessage) :
    (tickMessage now m).1.createdAt = m.createdAt := by
  rw [tickMessage]
  split_ifs
  · rfl
  · rfl
  · rfl
  · rfl

lemma createdAt_fail (now : UInt64) (m : QueuedMessage) :
    (failMessage now m).2.createdAt = m.createdAt := by
  rw [failMessage]
  split_ifs
  · rfl
  · rfl

lemma Stamped.tick {w : MsgQueueState × Watch} (h : Stamped w) (now : UInt64) :
    Stamped (timed.next (.tick now) w) := by
  refine h.map rfl (List.length_map _) (fun i m' hm' => ?_) fun i k hk => ⟨k, hk, rfl⟩
  have hm' : (w.1.messages.map fun m => (tickMessage now m).1)[i]? = some m' := hm'
  rw [List.getElem?_map] at hm'
  obtain ⟨m, hm, heq⟩ := Option.map_eq_some_iff.mp hm'
  exact ⟨m, hm, heq ▸ createdAt_tick now m⟩

/-- What is found in a list in which one element has changed. -/
lemma exists_of_modify {α β : Type} {l : List α} {f : α → α} {g : α → β} (hg : ∀ a, g (f a) = g a)
    {i j : Nat} {a' : α} (h : (l.modify i f)[j]? = some a') : ∃ a, l[j]? = some a ∧ g a' = g a := by
  rw [List.getElem?_modify] at h
  obtain ⟨a, ha, heq⟩ := Option.map_eq_some_iff.mp h
  refine ⟨a, ha, ?_⟩
  rw [← heq]
  split_ifs
  · exact hg a
  · rfl

lemma enqueued_record (id : UInt32) (s : MsgQueueState) (w : Watch) :
    (recordTimes (.markFailed id) s w).marks.length = w.marks.length ∧
      ∀ (i : Nat) (k' : Mark), (recordTimes (.markFailed id) s w).marks[i]? = some k' →
        ∃ k, w.marks[i]? = some k ∧ k'.enqueued = k.enqueued := by
  have hsame : w.marks.length = w.marks.length ∧ ∀ (i : Nat) (k' : Mark), w.marks[i]? = some k' →
      ∃ k, w.marks[i]? = some k ∧ k'.enqueued = k.enqueued := ⟨rfl, fun i k hk => ⟨k, hk, rfl⟩⟩
  rw [recordTimes]
  split
  · exact hsame
  · split
    · split_ifs
      · refine ⟨List.length_modify .., fun j k' hk' => ?_⟩
        refine exists_of_modify (g := Mark.enqueued) ?_ hk'
        exact fun _ => rfl
      · exact hsame
    · exact hsame

lemma Stamped.markFailed {w : MsgQueueState × Watch} (h : Stamped w) (id : UInt32) :
    Stamped (timed.next (.markFailed id) w) := by
  obtain ⟨hlength, henqueued⟩ := enqueued_record id w.1 w.2
  have hmessages : (w.1.markFailed id 0).2.messages.length = w.1.messages.length ∧
      ∀ (i : Nat) (m' : QueuedMessage), (w.1.markFailed id 0).2.messages[i]? = some m' →
        ∃ m, w.1.messages[i]? = some m ∧ m'.createdAt = m.createdAt := by
    rw [MsgQueueState.markFailed, updateMessage]
    cases w.1.messages.findIdx? (·.id == id) with
    | none => exact ⟨rfl, fun i m hm => ⟨m, hm, rfl⟩⟩
    | some i => exact ⟨List.length_modify .., fun j m' hm' => exists_of_modify (createdAt_fail 0) hm'⟩
  exact h.map hlength hmessages.1 hmessages.2 henqueued

/-- A message that was enqueued at time zero expires when its time has passed since zero. -/
lemma ttl_le_of_expired {now : UInt64} (hzero : m.createdAt = 0) (hactive : m.isActive = true)
    (h : (tickMessage now m).1.status = .expired) : 0 < m.ttlMs ∧ m.ttlMs.toNat ≤ now.toNat := by
  have hstatus : m.status ≠ .expired := by
    intro heq
    simp [QueuedMessage.isActive, heq] at hactive
  by_cases hexpired : 0 < m.ttlMs ∧ m.createdAt + m.ttlMs ≤ now
  · have hle := hexpired.2
    rw [hzero, UInt64.zero_add, UInt64.le_iff_toNat_le] at hle
    exact ⟨hexpired.1, hle⟩
  · rw [tickMessage, if_neg (by simp [hactive]), if_neg hexpired] at h
    split_ifs at h
    exact absurd h hstatus

lemma mem_getReady {now : UInt64} {max : Nat} {info : CQueuedMsgInfo} (h : info ∈ s.getReady max now) :
    ∃ m ∈ s.messages, m.isActive = true ∧ msgToCInfo m = info := by
  obtain ⟨m, hm, heq⟩ := List.mem_map.mp h
  have hmem := List.mem_mergeSort.mp (List.mem_of_mem_take hm)
  obtain ⟨hmem, hready⟩ := List.mem_filter.mp hmem
  exact ⟨m, hmem, (Bool.and_eq_true _ _ ▸ hready).1, heq⟩

lemma waits_of_patient {out : Bool} {max : UInt32} {w : MsgQueueState × Watch}
    (h : Patient (.getReady out max) w) : WaitsForRetry (.getReady out max) w := by
  intro i m k t delay hm hk hdelay hactive hmem
  rcases h with rfl | rfl | h
  · exact absurd hmem List.not_mem_nil
  · rw [rsMsgQueueGetReady] at hmem
    split_ifs at hmem with _ hzero
    · exact absurd hmem List.not_mem_nil
    · exact absurd hmem List.not_mem_nil
    · exact absurd rfl hzero
  · exact h i m k t delay hm hk hdelay hactive

/-! ### Runs -/

lemma Stamped.step {w : MsgQueueState × Watch} (h : Stamped w) {o : MsgOp} (hp : Patient o w) :
    Stamped (timed.next o w) ∧ ExpiresInTime o w ∧ WaitsForRetry o w := by
  cases o with
  | enqueue transport dest payload priority =>
    exact ⟨h.enqueue transport dest payload priority, trivial, trivial⟩
  | tick now =>
    refine ⟨h.tick now, fun i m k t hm hk ht hactive hexpired => ?_, trivial⟩
    obtain ⟨httl, hle⟩ := ttl_le_of_expired (h.createdAt i m k t hm hk ht) hactive hexpired
    exact (hp i m k t hm hk ht hactive httl).resolve_left (Nat.not_lt.mpr hle)
  | getReady out max => exact ⟨h, trivial, waits_of_patient hp⟩
  | markFailed id => exact ⟨h.markFailed id, trivial, trivial⟩
  | init file => exact absurd hp id
  | cancel id => exact absurd hp (fun h => h)
  | cancelAll => exact absurd hp id
  | markSent id => exact absurd hp (fun h => h)
  | setDefaults maxRetries ttlMs => exact absurd hp id
  | purgeCompleted => exact absurd hp id

/-- An observer who has not seen anything yet. -/
def unseen (s : MsgQueueState) : MsgQueueState × Watch :=
  (s, ⟨none, s.messages.map fun _ => ⟨none, none⟩⟩)

lemma stamped_unseen (s : MsgQueueState) : Stamped (unseen s) := by
  refine ⟨List.length_map _, fun i m k t _ hk ht => ?_⟩
  obtain ⟨_, _, rfl⟩ := List.mem_map.mp (List.mem_of_getElem? hk)
  cases ht

/-- In every run in which no tick falls between the time that a message is given since zero and since
it was enqueued, and nobody asks while a message waits, messages expire in time and wait for their
next try. -/
theorem times_kept (s : MsgQueueState) (ops : List MsgOp) (h : timed.Along Patient (unseen s) ops) :
    timed.Along (fun o w => ExpiresInTime o w ∧ WaitsForRetry o w) (unseen s) ops := by
  obtain ⟨halong, -⟩ := Component.along_of_preserved (C := timed) (I := Stamped)
    (fun o w hw hp => (hw.step hp).1) (stamped_unseen s) h
  exact halong.mono fun o w hw => (hw.1.step hw.2).2

theorem times_kept_sample :
    timed.Along (fun o w => ExpiresInTime o w ∧ WaitsForRetry o w) (unseen .new)
      [.tick 100, .enqueue 0 none (some [72]) 0, .tick 999] := by
  refine times_kept .new _ ?_
  simp only [Component.along_cons]
  refine ⟨fun i m k t hm => (by cases hm), trivial, fun i m k t hm hk _ _ _ => .inl ?_,
    Component.along_nil⟩
  have httl : ∀ m ∈ (timed.next (.enqueue 0 none (some [72]) 0)
      (timed.next (.tick 100) (unseen .new))).1.messages, m.ttlMs = 3600000 := by
    decide
  rw [httl m (List.mem_of_getElem? hm)]
  decide

/-- A message that is enqueued after an hour of uptime expires at the next tick. -/
theorem times_not_kept :
    ¬ ∀ ops : List MsgOp, timed.Along (fun o w => ExpiresInTime o w ∧ WaitsForRetry o w)
      (unseen .new) ops := by
  intro hall
  have hlast := hall [.tick 3600000, .enqueue 0 none (some [72]) 0, .tick 3600001]
    [.tick 3600000, .enqueue 0 none (some [72]) 0] (.tick 3600001) [] rfl
  have hle := hlast.1 0 ⟨1, 0, .empty, .ofList [72], .normal, 0, 0, 0, 10, 3600000, .pending⟩
    ⟨some 3600000, none⟩ 3600000 rfl rfl rfl rfl rfl
  exact absurd hle (by decide)

end ThistleOS.MsgQueue
