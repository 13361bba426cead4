import ThistleOS.Kernel.MsgQueue
import Mathlib.Data.List.Forall2
import Mathlib.Data.List.Nodup

/-!
# The ids of the messages

Ids are not used twice, the queue does not grow beyond its size, and a message that is done stays
done, as long as the file that is loaded goes together with the queue.
-/

namespace ThistleOS.MsgQueue

open MsgQueueState

variable {s : MsgQueueState} {ms : List QueuedMessage} {m m' : QueuedMessage}

def idMax : UInt32 := 0xFFFFFFFF

/-- The queue is not too long, and its ids are different and have been passed by the counter. -/
structure Orderly (s : MsgQueueState) : Prop where
  active : s.activeCount ≤ maxQueueSize
  distinct : (s.messages.map QueuedMessage.id).Nodup
  below : ∀ m ∈ s.messages, m.id.toNat < s.nextId.toNat

/-- A message that is done stays done. -/
def DoneStays (o : MsgOp) (s : MsgQueueState) : Prop :=
  ∀ m ∈ s.messages, m.isActive = false →
    ∀ m' ∈ (msgQueue.next o s).messages, m'.id = m.id → m'.isActive = false

/-- A call that enqueues a message replies with an id that no message has or has had; `issued` are
the ids that have been given out. -/
def NewId : MsgOp → MsgQueueState → List UInt32 → Prop
  | .enqueue transport dest payload priority, s, issued =>
    let (reply, s') := rsMsgQueueEnqueue transport dest payload priority s
    s' = s ∨ ∃ m, s'.messages = s.messages ++ [m] ∧ reply = m.id.toInt32 ∧
      (∀ m' ∈ s.messages, m'.id ≠ m.id) ∧ m.id ∉ issued
  | _, _, _ => True

/-- The ids that the calls give out. -/
def recordIds : MsgOp → MsgQueueState → List UInt32 → List UInt32
  | .enqueue transport dest payload priority, s, issued =>
    issued ++ ((rsMsgQueueEnqueue transport dest payload priority s).2.messages.drop
      s.messages.length).map QueuedMessage.id
  | _, _, issued => issued

def issuing : Component MsgOp MsgOp.Reply (MsgQueueState × List UInt32) :=
  msgQueue.observe recordIds

/-- The ids in the file that is loaded are different from each other and from those in the queue, and
none of them is the last one; file and queue together are not too long. The counter of the ids has
not come to its end when a message is enqueued. -/
def Sound : MsgOp → MsgQueueState → Prop
  | .init file, s => s.initialized = false → ∀ json, file = some json →
    ((s.messages ++ parsed json).map QueuedMessage.id).Nodup ∧
      (s.messages ++ parsed json).countP QueuedMessage.isActive ≤ maxQueueSize ∧
      ∀ m ∈ parsed json, m.id ≠ idMax
  | .enqueue _ _ _ _, s => s.nextId ≠ idMax
  | _, _ => True

/-! ### Messages that change -/

/-- A message keeps its id, and does not become active again. -/
def Ages (m m' : QueuedMessage) : Prop := m'.id = m.id ∧ (m'.isActive = true → m.isActive = true)

lemma ages_rfl (m : QueuedMessage) : Ages m m := ⟨rfl, id⟩

lemma ages_cancel (m : QueuedMessage) : Ages m (cancelMessage m) := by
  rw [cancelMessage]
  split_ifs with h
  · exact ⟨rfl, fun _ => h⟩
  · exact ages_rfl m

lemma ages_tick (now : UInt64) (m : QueuedMessage) : Ages m (tickMessage now m).1 := by
  rw [tickMessage]
  split_ifs
  · exact ages_rfl m
  · exact ⟨rfl, fun h => nomatch h⟩
  · exact ⟨rfl, fun h => nomatch h⟩
  · exact ages_rfl m

lemma ages_fail (now : UInt64) (m : QueuedMessage) : Ages m (failMessage now m).2 := by
  rw [failMessage]
  split_ifs with h
  · exact ages_rfl m
  · exact ⟨rfl, fun _ => by simpa using h⟩

lemma forall₂_map {f : QueuedMessage → QueuedMessage} (hf : ∀ m, Ages m (f m))
    (ms : List QueuedMessage) : List.Forall₂ Ages ms (ms.map f) :=
  List.forall₂_map_right_iff.mpr (List.forall₂_same.mpr fun m _ => hf m)

lemma forall₂_modify {f : QueuedMessage → QueuedMessage} (hf : ∀ m, Ages m (f m))
    (ms : List QueuedMessage) (i : Nat) : List.Forall₂ Ages ms (ms.modify i f) := by
  induction ms generalizing i with
  | nil =>
    rw [List.modify_nil]
    exact List.Forall₂.nil
  | cons m ms ih =>
    cases i with
    | zero => exact List.Forall₂.cons (hf m) (List.forall₂_same.mpr fun m _ => ages_rfl m)
    | succ i => exact List.Forall₂.cons (ages_rfl m) (ih i)

lemma ids_of_forall₂ {ms₀ : List QueuedMessage} (h : List.Forall₂ Ages ms₀ ms) :
    ms.map QueuedMessage.id = ms₀.map QueuedMessage.id := by
  induction h with
  | nil => rfl
  | cons hm _ ih => rw [List.map_cons, List.map_cons, hm.1, ih]

lemma countP_of_forall₂ {ms₀ : List QueuedMessage} (h : List.Forall₂ Ages ms₀ ms) :
    ms.countP QueuedMessage.isActive ≤ ms₀.countP QueuedMessage.isActive := by
  induction h with
  | nil => exact le_rfl
  | cons hm _ ih =>
    rw [List.countP_cons, List.countP_cons]
    have hle := hm.2
    split_ifs with h₁ h₂
    · exact Nat.add_le_add_right ih 1
    · exact absurd (hle h₁) h₂
    · exact Nat.le_succ_of_le ih
    · exact ih

lemma exists_of_forall₂ {ms₀ : List QueuedMessage} (h : List.Forall₂ Ages ms₀ ms)
    (hm : m' ∈ ms) : ∃ m ∈ ms₀, Ages m m' := by
  induction h with
  | nil => cases hm
  | cons hhead _ ih =>
    rcases List.mem_cons.mp hm with rfl | hm
    · exact ⟨_, List.mem_cons_self, hhead⟩
    · obtain ⟨m, hmem, hages⟩ := ih hm
      exact ⟨m, List.mem_cons_of_mem _ hmem, hages⟩

/-- Messages with the same id are the same message. -/
lemma Orderly.eq_of_id (h : Orderly s) (hm : m ∈ s.messages) (hm' : m' ∈ s.messages)
    (hid : m.id = m'.id) : m = m' := List.inj_on_of_nodup_map h.distinct hm hm' hid

/-- What a call that only lets messages age or drops some of them keeps. -/
lemma Orderly.aged (h : Orderly s) {o : MsgOp} {ms₀ : List QueuedMessage}
    (hsub : ms₀.Sublist s.messages) (hms : List.Forall₂ Ages ms₀ (msgQueue.next o s).messages)
    (hid : (msgQueue.next o s).nextId = s.nextId) :
    Orderly (msgQueue.next o s) ∧ DoneStays o s := by
  have hids := ids_of_forall₂ hms
  refine ⟨⟨?_, ?_, fun m' hm' => ?_⟩, fun m hm hdone m' hm' heq => ?_⟩
  · exact (countP_of_forall₂ hms).trans ((hsub.countP_le).trans h.active)
  · rw [hids]
    exact h.distinct.sublist (hsub.map _)
  · obtain ⟨m, hm, hages⟩ := exists_of_forall₂ hms hm'
    rw [hages.1, hid]
    exact h.below m (hsub.subset hm)
  · obtain ⟨m₀, hm₀, hages⟩ := exists_of_forall₂ hms hm'
    have hsame := h.eq_of_id (hsub.subset hm₀) hm (hages.1.symm.trans heq)
    rw [hsame] at hages
    exact Bool.eq_false_iff.mpr fun hactive => by simp [hages.2 hactive] at hdone

/-! ### Loading -/

lemma messages_load (ms : List QueuedMessage) (s : MsgQueueState) :
    (ms.foldl loadMessage s).messages = s.messages ++ ms := by
  induction ms generalizing s with
  | nil => exact (List.append_nil _).symm
  | cons m ms ih => rw [List.foldl_cons, ih, loadMessage, List.append_assoc, List.singleton_append]

lemma toNat_succ {a : UInt32} (h : a ≠ idMax) : (a + 1).toNat = a.toNat + 1 := by
  have hmax : a.toNat ≠ 2 ^ 32 - 1 := fun heq => h (UInt32.toNat_inj.mp heq)
  have hlt := a.toNat_lt
  rw [UInt32.toNat_add, UInt32.toNat_one]
  omega

lemma nextId_loadMessage (s : MsgQueueState) (hm : m.id ≠ idMax) :
    s.nextId.toNat ≤ (loadMessage s m).nextId.toNat ∧
      m.id.toNat < (loadMessage s m).nextId.toNat := by
  have hsucc := toNat_succ hm
  rw [loadMessage]
  simp only
  split_ifs with h
  · rw [UInt32.le_iff_toNat_le] at h
    omega
  · rw [UInt32.le_iff_toNat_le] at h
    omega

lemma nextId_load {ms : List QueuedMessage} (hms : ∀ m ∈ ms, m.id ≠ idMax) (s : MsgQueueState) :
    s.nextId.toNat ≤ (ms.foldl loadMessage s).nextId.toNat ∧
      ∀ m ∈ ms, m.id.toNat < (ms.foldl loadMessage s).nextId.toNat := by
  induction ms generalizing s with
  | nil => exact ⟨le_rfl, fun _ h => nomatch h⟩
  | cons m ms ih =>
    obtain ⟨hle, hlt⟩ := nextId_loadMessage s (hms m List.mem_cons_self)
    obtain ⟨hle', hlt'⟩ := ih (fun m' hm' => hms m' (List.mem_cons_of_mem _ hm')) (loadMessage s m)
    rw [List.foldl_cons]
    refine ⟨hle.trans hle', fun m' hm' => ?_⟩
    rcases List.mem_cons.mp hm' with rfl | hm'
    · exact hlt.trans_le hle'
    · exact hlt' m' hm'

/-- What the queue is after a load. -/
lemma Orderly.init (h : Orderly s) {file : Option Text} (hs : Sound (.init file) s) :
    Orderly (msgQueue.next (.init file) s) ∧ DoneStays (.init file) s ∧
      s.nextId.toNat ≤ (msgQueue.next (.init file) s).nextId.toNat := by
  have hsame : Orderly s ∧ (∀ m ∈ s.messages, m.isActive = false →
      ∀ m' ∈ s.messages, m'.id = m.id → m'.isActive = false) ∧
      s.nextId.toNat ≤ s.nextId.toNat := by
    refine ⟨h, fun m hm hdone m' hm' hid => ?_, le_rfl⟩
    rwa [h.eq_of_id hm' hm hid]
  change Orderly (s.init file).2 ∧ (∀ m ∈ s.messages, m.isActive = false →
    ∀ m' ∈ (s.init file).2.messages, m'.id = m.id → m'.isActive = false) ∧
    s.nextId.toNat ≤ (s.init file).2.nextId.toNat
  rw [MsgQueueState.init]
  split_ifs with hinit
  · exact hsame
  · cases file with
    | none => exact ⟨⟨h.active, h.distinct, h.below⟩, hsame.2⟩
    | some json =>
      obtain ⟨hdistinct, hactive, hids⟩ := hs (by simpa using hinit) json rfl
      have hmessages := messages_load (parsed json) s
      obtain ⟨hle, hlt⟩ := nextId_load hids s
      simp only [loadFromDisk]
      refine ⟨⟨?_, ?_, fun m hm => ?_⟩, fun m hm hdone m' hm' hid => ?_, hle⟩
      · change ((parsed json).foldl loadMessage s).messages.countP _ ≤ _
        rw [hmessages]
        exact hactive
      · change (((parsed json).foldl loadMessage s).messages.map _).Nodup
        rw [hmessages]
        exact hdistinct
      · change m ∈ ((parsed json).foldl loadMessage s).messages at hm
        rw [hmessages] at hm
        rcases List.mem_append.mp hm with hm | hm
        · exact (h.below m hm).trans_le hle
        · exact hlt m hm
      · change m' ∈ ((parsed json).foldl loadMessage s).messages at hm'
        rw [hmessages] at hm'
        have heq := List.inj_on_of_nodup_map hdistinct hm' (List.mem_append_left _ hm) hid
        rwa [heq]

/-! ### Enqueueing -/

lemma Orderly.enqueue (h : Orderly s) (transport : UInt8) (dest payload : Option (List UInt8))
    (priority : UInt8) {issued : List UInt32} (hissued : ∀ id ∈ issued, id.toNat < s.nextId.toNat)
    (hs : s.nextId ≠ idMax) :
    let o := MsgOp.enqueue transport dest payload priority
    Orderly (msgQueue.next o s) ∧ DoneStays o s ∧ NewId o s issued ∧
      ∀ id ∈ recordIds o s issued, id.toNat < (msgQueue.next o s).nextId.toNat := by
  simp only [DoneStays, NewId, recordIds]
  change Orderly (rsMsgQueueEnqueue transport dest payload priority s).2 ∧ (∀ m ∈ s.messages, _ →
    ∀ m' ∈ (rsMsgQueueEnqueue transport dest payload priority s).2.messages, _) ∧ _ ∧
    ∀ id : UInt32, id ∈ _ → id.toNat < (rsMsgQueueEnqueue transport dest payload priority s).2.nextId.toNat
  rcases enqueue_cases transport dest payload priority s with heq | ⟨m, hroom, hid, -, heq⟩
  · rw [heq]
    refine ⟨h, fun m hm hdone m' hm' hid => ?_, .inl rfl, fun id hid => ?_⟩
    · rwa [h.eq_of_id hm' hm hid]
    · rw [List.drop_length, List.map_nil, List.append_nil] at hid
      exact hissued id hid
  · have hlt : s.nextId.toNat < (s.nextId + 1).toNat := by
      rw [toNat_succ hs]
      exact Nat.lt_succ_self _
    rw [heq]
    simp only
    refine ⟨⟨?_, ?_, fun m' hm' => ?_⟩, fun m₀ hm₀ hdone m' hm' hid' => ?_, ?_, fun id hid' => ?_⟩
    · change (s.messages ++ [m]).countP _ ≤ _
      rw [List.countP_append]
      have hone : [m].countP QueuedMessage.isActive ≤ 1 := List.countP_le_length
      have hroom : s.messages.countP QueuedMessage.isActive < maxQueueSize := hroom
      omega
    · rw [List.map_append, List.map_singleton, hid]
      rw [List.nodup_append_comm, List.singleton_append, List.nodup_cons]
      refine ⟨fun hmem => ?_, h.distinct⟩
      obtain ⟨m', hm', heq'⟩ := List.mem_map.mp hmem
      exact absurd (heq' ▸ h.below m' hm') (lt_irrefl _)
    · rcases List.mem_append.mp hm' with hm' | hm'
      · exact (h.below m' hm').trans hlt
      · rw [List.mem_singleton.mp hm', hid]
        exact hlt
    · rcases List.mem_append.mp hm' with hm' | hm'
      · rwa [h.eq_of_id hm' hm₀ hid']
      · rw [List.mem_singleton.mp hm', hid] at hid'
        exact absurd (hid' ▸ h.below m₀ hm₀) (lt_irrefl _)
    · refine .inr ⟨m, rfl, by rw [hid], fun m' hm' hid' => ?_, fun hmem => ?_⟩
      · exact absurd (hid'.trans hid ▸ h.below m' hm') (lt_irrefl _)
      · exact absurd (hid ▸ hissued m.id hmem) (lt_irrefl _)
    · rw [List.drop_left, List.map_singleton, hid] at hid'
      rcases List.mem_append.mp hid' with hid' | hid'
      · exact (hissued id hid').trans hlt
      · rw [List.mem_singleton.mp hid']
        exact hlt

/-! ### Runs -/

/-- A call that neither loads nor enqueues messages. -/
lemma Orderly.ages (h : Orderly s) {issued : List UInt32}
    (hissued : ∀ id ∈ issued, id.toNat < s.nextId.toNat) {o : MsgOp} {ms₀ : List QueuedMessage}
    (hsub : ms₀.Sublist s.messages) (hms : List.Forall₂ Ages ms₀ (msgQueue.next o s).messages)
    (hid : (msgQueue.next o s).nextId = s.nextId) (hrecord : recordIds o s issued = issued)
    (hnew : NewId o s issued) :
    (Orderly (msgQueue.next o s) ∧
      ∀ id ∈ recordIds o s issued, id.toNat < (msgQueue.next o s).nextId.toNat) ∧
      DoneStays o s ∧ NewId o s issued := by
  obtain ⟨hnext, hdone⟩ := h.aged hsub hms hid
  rw [hrecord, hid]
  exact ⟨⟨hnext, hissued⟩, hdone, hnew⟩

/-- The queue after a call that changes one message. -/
lemma update_ages {f : QueuedMessage → EspErr × QueuedMessage} (hf : ∀ m, Ages m (f m).2)
    (id : UInt32) (s : MsgQueueState) :
    List.Forall₂ Ages s.messages (updateMessage id f s).2.messages ∧
      (updateMessage id f s).2.nextId = s.nextId := by
  rw [updateMessage]
  cases s.messages.findIdx? (·.id == id) with
  | none => exact ⟨List.forall₂_same.mpr fun m _ => ages_rfl m, rfl⟩
  | some i => exact ⟨forall₂_modify hf _ i, rfl⟩

lemma ages_sent (m : QueuedMessage) : Ages m { m with status := .sent } :=
  ⟨rfl, fun h => nomatch h⟩

/-- What every call keeps. -/
lemma Orderly.step {issued : List UInt32} (h : Orderly s)
    (hissued : ∀ id ∈ issued, id.toNat < s.nextId.toNat) {o : MsgOp} (hs : Sound o s) :
    (Orderly (msgQueue.next o s) ∧
      ∀ id ∈ recordIds o s issued, id.toNat < (msgQueue.next o s).nextId.toNat) ∧
      DoneStays o s ∧ NewId o s issued := by
  have hall := List.Sublist.refl s.messages
  have hsame : List.Forall₂ Ages s.messages s.messages := List.forall₂_same.mpr fun m _ => ages_rfl m
  cases o with
  | init file =>
    obtain ⟨hnext, hdone, hle⟩ := h.init hs
    exact ⟨⟨hnext, fun id hid => (hissued id hid).trans_le hle⟩, hdone, trivial⟩
  | enqueue transport dest payload priority =>
    obtain ⟨hnext, hdone, hnew, hids⟩ := h.enqueue transport dest payload priority hissued hs
    exact ⟨⟨hnext, hids⟩, hdone, hnew⟩
  | cancel id =>
    have hages := update_ages (f := fun m => (espOk, cancelMessage m)) ages_cancel id s
    exact h.ages hissued hall hages.1 hages.2 rfl trivial
  | cancelAll => exact h.ages hissued hall (forall₂_map ages_cancel _) rfl rfl trivial
  | tick now => exact h.ages hissued hall (forall₂_map (ages_tick now) _) rfl rfl trivial
  | getReady out max => exact h.ages hissued hall hsame rfl rfl trivial
  | markSent id =>
    have hages := update_ages (f := fun m => (espOk, { m with status := .sent })) ages_sent id s
    exact h.ages hissued hall hages.1 hages.2 rfl trivial
  | markFailed id =>
    have hages := update_ages (ages_fail 0) id s
    exact h.ages hissued hall hages.1 hages.2 rfl trivial
  | setDefaults maxRetries ttlMs => exact h.ages hissued hall hsame rfl rfl trivial
  | purgeCompleted =>
    exact h.ages hissued List.filter_sublist (List.forall₂_same.mpr fun m _ => ages_rfl m) rfl rfl
      trivial

lemma orderly_new : Orderly .new where
  active := by decide
  distinct := List.nodup_nil
  below _ h := nomatch h

/-- In every run in which the file that is loaded goes together with the queue and the counter of the
ids does not come to its end, the queue is orderly, messages that are done stay done, and ids are
new. -/
theorem queue_orderly (ops : List MsgOp)
    (h : issuing.Along (fun o w => Sound o w.1) (.new, []) ops) :
    issuing.Along (fun o w => Orderly w.1 ∧ DoneStays o w.1 ∧ NewId o w.1 w.2) (.new, []) ops ∧
      Orderly (issuing.run (.new, []) ops).1 := by
  obtain ⟨halong, hlast⟩ := Component.along_of_preserved (C := issuing)
    (I := fun (w : MsgQueueState × List UInt32) =>
      Orderly w.1 ∧ ∀ id ∈ w.2, id.toNat < w.1.nextId.toNat)
    (fun o w hw hs => (hw.1.step hw.2 hs).1) ⟨orderly_new, fun _ h => absurd h List.not_mem_nil⟩ h
  exact ⟨halong.mono fun o w hw => ⟨hw.1.1, (hw.1.1.step hw.1.2 hw.2).2⟩, hlast.1⟩

/-- A file with one message, as the queue writes it. -/
def sampleFile : Text :=
  (loadMessage .new ⟨1, 0, .empty, .ofList [72], .normal, 0, 0, 0, 10, 3600000, .pending⟩).toFile

theorem queue_orderly_sample :
    issuing.Along (fun o w => Orderly w.1 ∧ DoneStays o w.1 ∧ NewId o w.1 w.2) (.new, [])
        [.init none, .enqueue 0 none (some [72]) 0, .markSent 1, .purgeCompleted] ∧
      Orderly (issuing.run (.new, [])
        [.init none, .enqueue 0 none (some [72]) 0, .markSent 1, .purgeCompleted]).1 := by
  refine queue_orderly _ ?_
  simp only [Component.along_cons]
  refine ⟨fun _ json h => (nomatch h), ?_, trivial, trivial, Component.along_nil⟩
  exact (show (1 : UInt32) ≠ idMax by decide)

/-- A message that is enqueued before the file is loaded has the id of one in the file. -/
theorem queue_not_orderly :
    ¬ ∀ ops : List MsgOp, Orderly (issuing.run (.new, []) ops).1 := by
  intro hall
  have hids : ((issuing.run (.new, [])
      [.enqueue 0 none (some [72]) 0, .init (some sampleFile)]).1.messages.map QueuedMessage.id) =
      [1, 1] := by
    decide +kernel
  have hdistinct := (hall [.enqueue 0 none (some [72]) 0, .init (some sampleFile)]).distinct
  rw [hids] at hdistinct
  exact absurd hdistinct (by decide)

end ThistleOS.MsgQueue
