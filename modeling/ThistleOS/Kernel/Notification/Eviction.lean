import ThistleOS.Kernel.Notification

/-!
# What is posted and what is evicted

A post succeeds if its texts are not cut within a character, and a full queue makes room by the notification that
goes first: a dismissed one by priority, then the oldest active one of priority low, then the oldest.
-/

namespace ThistleOS.Notifications

open NotificationManager
open Toolkit.TextInput (len sliceTo len_cons len_sliceTo)

variable {m : NotificationManager} {msg : Message} {n n' : Notification} {ns : List Notification}

/-! ### Texts -/

/-- A text that a cut to a number of bytes leaves whole or ends between two characters. -/
def Cuttable (s : List Char) (max : ℕ) : Prop := len s ≤ max ∨ ∃ pre post, s = pre ++ post ∧ len pre = max

lemma sliceTo_append (pre post : List Char) : sliceTo (pre ++ post) (len pre) = some pre := by
  induction pre with
  | nil => cases post <;> rfl
  | cons c pre ih =>
    have hpos := c.utf8Size_pos
    obtain ⟨k, hk⟩ : ∃ k, c.utf8Size + len pre = k + 1 := ⟨c.utf8Size + len pre - 1, by omega⟩
    rw [len_cons, hk, List.cons_append, sliceTo, if_pos (by omega),
      show k + 1 - c.utf8Size = len pre by omega, ih, Option.map_some]

/-- A text that can be cut is cut to a beginning with no more bytes than there is room for. -/
lemma truncate_of_cuttable {s : List Char} {max : ℕ} (h : Cuttable s max) :
    ∃ t, truncate s max = some t ∧ t <+: s ∧ len t ≤ max := by
  rw [truncate]
  split_ifs with hle
  · exact ⟨s, rfl, List.prefix_rfl, hle⟩
  · obtain ⟨pre, post, rfl, rfl⟩ := h.resolve_left hle
    exact ⟨pre, sliceTo_append pre post, List.prefix_append _ _, Nat.le_refl _⟩

/-! ### The order of eviction -/

/-- The place of a notification in the order of eviction. -/
def evictionClass (n : Notification) : ℕ :=
  if n.dismissed then n.priority.rank else if n.priority = .low then 4 else 5

/-- The notification comes no later in the order of eviction than another one: by its place, and by age among
those of the same place. -/
def GoesFirst (n n' : Notification) : Prop :=
  evictionClass n < evictionClass n' ∨ evictionClass n = evictionClass n' ∧ n.id.toNat ≤ n'.id.toNat

/-- What is kept when a notification is to be posted: all if there is room, and otherwise all but the one that goes
first. -/
inductive MakesRoom (m : NotificationManager) : List Notification → Prop
  | room (h : m.notifications.length < m.maxCapacity) : MakesRoom m m.notifications
  | empty (h : m.notifications = []) : MakesRoom m []
  | evict {pre n post} (hfull : m.maxCapacity ≤ m.notifications.length) (h : m.notifications = pre ++ n :: post)
    (hfirst : ∀ n' ∈ m.notifications, GoesFirst n n') : MakesRoom m (pre ++ post)

/-- The ids grow from each notification to the next. -/
def Increasing (ns : List Notification) : Prop := ns.Pairwise fun n n' => n.id.toNat < n'.id.toNat

lemma increasing_iff : Increasing ns ↔ (ns.map Notification.id).Pairwise fun id id' => id.toNat < id'.toNat := by
  rw [Increasing, List.pairwise_map]

/-- The search for a kind finds the notification that goes first, or the kind is not there. -/
lemma candidate_cases {k : ℕ} {dismissed : Bool} {priority : NotificationPriority}
    (hkind : ∀ n, evictionClass n = k ↔ n.dismissed = dismissed ∧ n.priority = priority)
    (hbefore : ∀ n ∈ m.notifications, k ≤ evictionClass n) :
    (∃ idx n, m.findEvictionCandidate dismissed priority = some idx ∧ m.notifications[idx]? = some n ∧
      ∀ n' ∈ m.notifications, GoesFirst n n') ∨
    m.findEvictionCandidate dismissed priority = none ∧ ∀ n ∈ m.notifications, k + 1 ≤ evictionClass n := by
  have hmem (x : Notification × ℕ) : x ∈ (m.notifications.zipIdx.filter fun x =>
      x.1.dismissed == dismissed && x.1.priority == priority) ↔
      m.notifications[x.2]? = some x.1 ∧ evictionClass x.1 = k := by
    rw [List.mem_filter, List.mem_zipIdx_iff_getElem?, Bool.and_eq_true, beq_iff_eq, beq_iff_eq, hkind]
  rw [findEvictionCandidate]
  cases hfind : (m.notifications.zipIdx.filter fun x =>
      x.1.dismissed == dismissed && x.1.priority == priority).argmin fun x => x.1.id.toNat with
  | none =>
    right
    refine ⟨rfl, fun n hn => Nat.lt_of_le_of_ne (hbefore n hn) fun hk => ?_⟩
    obtain ⟨i, hi⟩ := List.getElem?_of_mem hn
    have hin := (hmem (n, i)).mpr ⟨hi, hk.symm⟩
    rw [List.argmin_eq_none.mp hfind] at hin
    exact absurd hin List.not_mem_nil
  | some x =>
    left
    obtain ⟨hget, hk⟩ := (hmem x).mp (List.argmin_mem hfind)
    refine ⟨x.2, x.1, rfl, hget, fun n' hn' => ?_⟩
    rcases Nat.lt_or_eq_of_le (hbefore n' hn') with hlt | heq
    · exact .inl (hk ▸ hlt)
    · obtain ⟨i, hi⟩ := List.getElem?_of_mem hn'
      have hle := List.le_of_mem_argmin ((hmem (n', i)).mpr ⟨hi, heq.symm⟩) hfind
      exact .inr ⟨hk.trans heq, hle⟩

lemma evictionClass_le (n : Notification) : evictionClass n ≤ 5 := by
  rw [evictionClass]
  split_ifs
  · cases n.priority <;> simp [NotificationPriority.rank]
  · omega
  · omega

lemma kind_dismissed {k : ℕ} {priority : NotificationPriority} (hk : k = priority.rank) (n : Notification) :
    evictionClass n = k ↔ n.dismissed = true ∧ n.priority = priority := by
  rw [evictionClass, hk]
  cases n.dismissed <;> cases n.priority <;> cases priority <;> simp [NotificationPriority.rank]

lemma kind_low (n : Notification) : evictionClass n = 4 ↔ n.dismissed = false ∧ n.priority = .low := by
  rw [evictionClass]
  cases n.dismissed <;> cases n.priority <;> simp [NotificationPriority.rank]

/-- The notification that is chosen is the one that goes first. -/
lemma victim_first (hids : Increasing m.notifications) (hne : m.notifications ≠ []) :
    ∃ idx n, m.victim = some idx ∧ m.notifications[idx]? = some n ∧ ∀ n' ∈ m.notifications, GoesFirst n n' := by
  rw [victim]
  have hfirst : ∀ n ∈ m.notifications, 0 ≤ evictionClass n := fun n _ => Nat.zero_le _
  rcases candidate_cases (@kind_dismissed _ .low rfl) hfirst with
    ⟨idx, n, hfind, h⟩ | ⟨hnone, hbefore⟩
  · exact ⟨idx, n, by rw [hfind]; rfl, h⟩
  rw [hnone]
  rcases candidate_cases (@kind_dismissed _ .normal rfl) hbefore with
    ⟨idx, n, hfind, h⟩ | ⟨hnone, hbefore⟩
  · exact ⟨idx, n, by rw [hfind]; rfl, h⟩
  rw [hnone]
  rcases candidate_cases (@kind_dismissed _ .high rfl) hbefore with
    ⟨idx, n, hfind, h⟩ | ⟨hnone, hbefore⟩
  · exact ⟨idx, n, by rw [hfind]; rfl, h⟩
  rw [hnone]
  rcases candidate_cases (@kind_dismissed _ .urgent rfl) hbefore with
    ⟨idx, n, hfind, h⟩ | ⟨hnone, hbefore⟩
  · exact ⟨idx, n, by rw [hfind]; rfl, h⟩
  rw [hnone]
  rcases candidate_cases kind_low hbefore with ⟨idx, n, hfind, h⟩ | ⟨hnone, hbefore⟩
  · exact ⟨idx, n, by rw [hfind]; rfl, h⟩
  -- only active notifications of other priorities are left, and the first is the oldest
  rw [hnone, if_pos hne]
  obtain ⟨n, ns, hns⟩ := List.exists_cons_of_ne_nil hne
  have hclass : ∀ n ∈ m.notifications, evictionClass n = 5 :=
    fun n hn => Nat.le_antisymm (evictionClass_le n) (hbefore n hn)
  refine ⟨0, n, rfl, by rw [hns]; rfl, fun n' hn' => .inr ⟨?_, ?_⟩⟩
  · rw [hclass n' hn', hclass n (hns ▸ List.mem_cons_self)]
  · rw [hns] at hids hn'
    rcases List.mem_cons.mp hn' with rfl | hn'
    · exact Nat.le_refl _
    · exact Nat.le_of_lt (List.rel_of_pairwise_cons hids hn')

lemma victim_nil (h : m.notifications = []) : m.victim = none := by
  have hnone (dismissed : Bool) (priority : NotificationPriority) :
      m.findEvictionCandidate dismissed priority = none := by
    rw [findEvictionCandidate, h]
    rfl
  simp [victim, hnone, h]

lemma makesRoom_evictIfNeeded (hids : Increasing m.notifications) : MakesRoom m m.evictIfNeeded.notifications := by
  rw [evictIfNeeded]
  split_ifs with hroom
  · exact .room hroom
  · by_cases hne : m.notifications = []
    · rw [victim_nil hne]
      simp only [hne]
      exact .empty hne
    · obtain ⟨idx, n, hvictim, hget, hfirst⟩ := victim_first hids hne
      rw [hvictim]
      obtain ⟨hlt, hn⟩ := List.getElem?_eq_some_iff.mp hget
      have hsplit : m.notifications = m.notifications.take idx ++ n :: m.notifications.drop (idx + 1) := by
        rw [← hn, List.getElem_cons_drop, List.take_append_drop]
      simp only [List.eraseIdx_eq_take_drop_succ]
      exact .evict (Nat.le_of_not_lt hroom) hsplit hfirst

/-! ### Posts -/

/-- What a post leaves: room has been made, and the notification is the last one, with the beginnings of its texts. -/
def Posted (msg : Message) (id : UInt32) (m m' : NotificationManager) : Prop :=
  ∃ kept n, MakesRoom m kept ∧ m'.notifications = kept ++ [n] ∧ n.id = id ∧
    (n.title <+: msg.title ∧ len n.title ≤ titleMaxLen) ∧ n.body <+: msg.body ∧ len n.body ≤ bodyMaxLen

/-- The message of a call that posts one. -/
def NotificationOp.message : NotificationOp → Option Message
  | .post msg => some msg
  | .postWithExpiry msg _ => some msg
  | .postProgress appId title body _ => some ⟨appId, title, body, .normal, .progress⟩
  | _ => none

/-- The id that a call replies with. -/
def NotificationOp.postedId : (o : NotificationOp) → o.Reply → Option UInt32
  | .post _, reply => reply
  | .postWithExpiry _ _, reply => reply
  | .postProgress _ _ _ _, reply => reply
  | _, _ => none

/-- A post succeeds and leaves what it should. -/
def PostsWell (o : NotificationOp) (m : NotificationManager) : Prop :=
  ∀ msg, o.message = some msg → ∃ id, o.postedId (manager.reply o m) = some id ∧ Posted msg id m (manager.next o m)

/-- The notification manager with the ids that its posts have replied with. -/
def issuing : Component NotificationOp NotificationOp.Reply (NotificationManager × List UInt32) :=
  manager.watch fun o reply issued => issued ++ (o.postedId reply).toList

/-- No text is cut within a character, and the counter of the ids has not come to its end. -/
def Fits (o : NotificationOp) (m : NotificationManager) : Prop :=
  ∀ msg, o.message = some msg →
    Cuttable msg.title titleMaxLen ∧ Cuttable msg.body bodyMaxLen ∧ m.nextId ≠ 0xFFFFFFFF

/-- The queue is not too long, and the ids that are stored and those that have been issued are increasing, below
the counter. -/
structure Orderly (maxCapacity : ℕ) (w : NotificationManager × List UInt32) : Prop where
  capacity : w.1.maxCapacity = maxCapacity
  length_le : w.1.notifications.length ≤ max maxCapacity 1
  stored : Increasing w.1.notifications
  stored_lt : ∀ n ∈ w.1.notifications, n.id.toNat < w.1.nextId.toNat
  issued : w.2.Pairwise fun id id' => id.toNat < id'.toNat
  issued_lt : ∀ id ∈ w.2, id.toNat < w.1.nextId.toNat

lemma orderly_new (maxCapacity : ℕ) : Orderly maxCapacity (.new maxCapacity, []) where
  capacity := rfl
  length_le := Nat.zero_le _
  stored := List.Pairwise.nil
  stored_lt _ h := absurd h List.not_mem_nil
  issued := List.Pairwise.nil
  issued_lt _ h := absurd h List.not_mem_nil

/-- A change of the notifications that keeps their ids. -/
lemma Orderly.change {maxCapacity : ℕ} {w w' : NotificationManager × List UInt32} (h : Orderly maxCapacity w)
    (hids : w'.1.notifications.map Notification.id = w.1.notifications.map Notification.id)
    (hcapacity : w'.1.maxCapacity = w.1.maxCapacity) (hnext : w'.1.nextId = w.1.nextId) (hissued : w'.2 = w.2) :
    Orderly maxCapacity w' := by
  have hlength : w'.1.notifications.length = w.1.notifications.length := by
    simpa using congrArg List.length hids
  have hstored := h.stored
  have hlt := h.stored_lt
  refine ⟨hcapacity.trans h.capacity, hlength ▸ h.length_le, ?_, fun n hn => ?_, hissued ▸ h.issued, ?_⟩
  · rw [increasing_iff] at hstored ⊢
    rwa [hids]
  · have hmem : n.id ∈ w.1.notifications.map Notification.id := hids ▸ List.mem_map_of_mem hn
    obtain ⟨n', hn', hid⟩ := List.mem_map.mp hmem
    rw [hnext, ← hid]
    exact hlt n' hn'
  · rw [hissued, hnext]
    exact h.issued_lt

/-! ### Calls that post nothing -/

lemma map_id_modifyFirst {id : UInt32} {f : Notification → Notification} (hf : ∀ n, (f n).id = n.id) :
    (m.modifyFirst id f).notifications.map Notification.id = m.notifications.map Notification.id := by
  rw [modifyFirst]
  apply List.ext_getElem?
  intro i
  rw [List.getElem?_map, List.getElem?_map, List.getElem?_modify]
  cases m.notifications[i]? with
  | none => rfl
  | some n =>
    simp only [Option.map_eq_map, Option.map_some]
    split_ifs
    · rw [hf]
    · rfl

lemma map_id_update {id : UInt32} {check : Notification → EspErr} {f : Notification → Notification}
    (hf : ∀ n, (f n).id = n.id) :
    (m.update id check f).2.notifications.map Notification.id = m.notifications.map Notification.id ∧
      (m.update id check f).2.maxCapacity = m.maxCapacity ∧ (m.update id check f).2.nextId = m.nextId := by
  rw [update]
  cases m.get id with
  | none => exact ⟨rfl, rfl, rfl⟩
  | some n =>
    simp only
    split_ifs
    · exact ⟨map_id_modifyFirst hf, rfl, rfl⟩
    · exact ⟨rfl, rfl, rfl⟩

lemma map_id_dismissAll (p : Notification → Bool) :
    (m.dismissAll p).2.notifications.map Notification.id = m.notifications.map Notification.id := by
  rw [dismissAll, List.map_map]
  apply List.map_congr_left
  intro n _
  rw [Function.comp_apply]
  split_ifs
  · rfl
  · rfl

/-- A call that posts nothing changes notifications in place. -/
lemma Orderly.update {maxCapacity : ℕ} {w : NotificationManager × List UInt32} (h : Orderly maxCapacity w) (id : UInt32)
    (check : Notification → EspErr) {f : Notification → Notification} (hf : ∀ n, (f n).id = n.id) :
    Orderly maxCapacity ((w.1.update id check f).2, w.2 ++ []) := by
  obtain ⟨hids, hcapacity, hnext⟩ := @map_id_update w.1 id check f hf
  exact h.change hids hcapacity hnext (List.append_nil _)

lemma Orderly.step_of_none {maxCapacity : ℕ} {w : NotificationManager × List UInt32} (h : Orderly maxCapacity w)
    {o : NotificationOp} (ho : o.message = none) : Orderly maxCapacity (issuing.next o w) := by
  cases o with
  | post msg => cases ho
  | postWithExpiry msg expiresAt => cases ho
  | postProgress appId title body progress => cases ho
  | updateProgress id progress => exact h.update id _ fun _ => rfl
  | setAction id label => exact h.update id _ fun _ => rfl
  | markRead id => exact h.update id _ fun _ => rfl
  | dismiss id => exact h.update id _ fun _ => rfl
  | dismissAllFromApp appId => exact h.change (map_id_dismissAll _) rfl rfl (List.append_nil _)
  | expireOld currentTime => exact h.change (map_id_dismissAll _) rfl rfl (List.append_nil _)
  | clearAll => exact h.change (map_id_dismissAll _) rfl rfl (List.append_nil _)

/-! ### Calls that post -/

lemma MakesRoom.sublist {kept : List Notification} (h : MakesRoom m kept) : kept.Sublist m.notifications := by
  cases h with
  | room h => exact List.Sublist.refl _
  | empty h => exact List.nil_sublist _
  | evict hfull h hfirst =>
    rw [h]
    exact (List.sublist_cons_self _ _).append_left _

lemma MakesRoom.length_lt {kept : List Notification} (h : MakesRoom m kept)
    (hlength : m.notifications.length ≤ max m.maxCapacity 1) : kept.length < max m.maxCapacity 1 := by
  cases h with
  | room h => exact lt_max_of_lt_left h
  | empty h => exact lt_max_of_lt_right Nat.zero_lt_one
  | evict hfull h hfirst =>
    rw [h, List.length_append, List.length_cons] at hlength
    rw [List.length_append]
    omega

lemma post_fits (hids : Increasing m.notifications) (htitle : Cuttable msg.title titleMaxLen)
    (hbody : Cuttable msg.body bodyMaxLen) : ∃ kept n, MakesRoom m kept ∧ n.id = m.nextId ∧
      ((n.title <+: msg.title ∧ len n.title ≤ titleMaxLen) ∧ n.body <+: msg.body ∧ len n.body ≤ bodyMaxLen) ∧
      m.post msg = (some m.nextId, ⟨kept ++ [n], m.maxCapacity, m.nextId + 1⟩) := by
  obtain ⟨title, htitle, htitle'⟩ := truncate_of_cuttable htitle
  obtain ⟨body, hbody, hbody'⟩ := truncate_of_cuttable hbody
  have hframe : m.evictIfNeeded.maxCapacity = m.maxCapacity ∧ m.evictIfNeeded.nextId = m.nextId := by
    rw [evictIfNeeded]
    split_ifs
    · exact ⟨rfl, rfl⟩
    · split <;> exact ⟨rfl, rfl⟩
  refine ⟨m.evictIfNeeded.notifications, ⟨m.nextId, msg.appId, title, body, msg.priority, msg.category, 0, none, false,
    false, none, none⟩, makesRoom_evictIfNeeded hids, rfl, ⟨htitle', hbody'⟩, ?_⟩
  rw [post]
  simp only [htitle, hbody, hframe.1, hframe.2]

/-- The change of the first notification with an id that only the last one has. -/
lemma modify_findIdx_concat {kept : List Notification} {p : Notification → Bool} (h : ∀ k ∈ kept, p k = false)
    (hn : p n = true) (f : Notification → Notification) :
    (kept ++ [n]).modify ((kept ++ [n]).findIdx p) f = kept ++ [f n] := by
  induction kept with
  | nil => simp [List.findIdx_cons, hn]
  | cons k kept ih =>
    rw [List.cons_append, List.findIdx_cons, h k List.mem_cons_self, cond_false, List.modify_succ_cons,
      ih fun k' hk' => h k' (List.mem_cons_of_mem k hk'), List.cons_append]

/-- A call that posts a message leaves it as the last one, with the next id. -/
lemma posts_of_fits {o : NotificationOp} (hids : Increasing m.notifications)
    (hlt : ∀ n ∈ m.notifications, n.id.toNat < m.nextId.toNat) (ho : o.message = some msg) (hfits : Fits o m) :
    ∃ kept n, MakesRoom m kept ∧ n.id = m.nextId ∧
      ((n.title <+: msg.title ∧ len n.title ≤ titleMaxLen) ∧ n.body <+: msg.body ∧ len n.body ≤ bodyMaxLen) ∧
      o.postedId (manager.reply o m) = some m.nextId ∧
      manager.next o m = ⟨kept ++ [n], m.maxCapacity, m.nextId + 1⟩ := by
  obtain ⟨htitle, hbody, -⟩ := hfits msg ho
  obtain ⟨kept, n, hroom, hid, htexts, hpost⟩ := post_fits hids htitle hbody
  have hkept (f : Notification → Notification) :
      modifyFirst m.nextId f ⟨kept ++ [n], m.maxCapacity, m.nextId + 1⟩ =
        ⟨kept ++ [f n], m.maxCapacity, m.nextId + 1⟩ := by
    rw [modifyFirst]
    simp only [NotificationManager.mk.injEq, and_true]
    apply modify_findIdx_concat
    · intro k hk
      have hk := hlt k (hroom.sublist.subset hk)
      rw [beq_eq_false_iff_ne]
      intro heq
      exact Nat.lt_irrefl _ (heq ▸ hk)
    · rw [hid, beq_self_eq_true]
  cases o with
  | post msg' =>
    obtain rfl := Option.some.inj ho
    exact ⟨kept, n, hroom, hid, htexts, congrArg Prod.fst hpost, congrArg Prod.snd hpost⟩
  | postWithExpiry msg' expiresAt =>
    obtain rfl := Option.some.inj ho
    have heq : m.postWithExpiry msg' expiresAt =
        (some m.nextId, ⟨kept ++ [{ n with expiresAt := some expiresAt }], m.maxCapacity, m.nextId + 1⟩) := by
      rw [postWithExpiry, hpost]
      simp only [hkept]
    exact ⟨kept, { n with expiresAt := some expiresAt }, hroom, hid, htexts, congrArg Prod.fst heq, congrArg Prod.snd heq⟩
  | postProgress appId title body progress =>
    obtain rfl := Option.some.inj ho
    have heq : m.postProgress appId title body progress =
        (some m.nextId, ⟨kept ++ [{ n with progress := some (min progress 100) }], m.maxCapacity, m.nextId + 1⟩) := by
      rw [postProgress, hpost]
      simp only [hkept]
    exact ⟨kept, { n with progress := some (min progress 100) }, hroom, hid, htexts, congrArg Prod.fst heq, congrArg Prod.snd heq⟩
  | _ => cases ho

lemma Orderly.postsWell {maxCapacity : ℕ} {w : NotificationManager × List UInt32} (h : Orderly maxCapacity w)
    {o : NotificationOp} (hfits : Fits o w.1) : PostsWell o w.1 := by
  intro msg ho
  obtain ⟨kept, n, hroom, hid, htexts, hreply, hnext⟩ := posts_of_fits h.stored h.stored_lt ho hfits
  exact ⟨w.1.nextId, hreply, kept, n, hroom, by rw [hnext], hid, htexts⟩

lemma Orderly.step {maxCapacity : ℕ} {w : NotificationManager × List UInt32} (h : Orderly maxCapacity w)
    {o : NotificationOp} (hfits : Fits o w.1) : Orderly maxCapacity (issuing.next o w) := by
  cases ho : o.message with
  | none => exact h.step_of_none ho
  | some msg =>
    obtain ⟨kept, n, hroom, hid, -, hreply, hnext⟩ := posts_of_fits h.stored h.stored_lt ho hfits
    obtain ⟨-, -, hcounter⟩ := hfits msg ho
    have hsucc : (w.1.nextId + 1).toNat = w.1.nextId.toNat + 1 := by
      have hlt := w.1.nextId.toNat_lt
      have hne : w.1.nextId.toNat ≠ 0xFFFFFFFF := fun heq => hcounter (UInt32.toNat_inj.mp heq)
      rw [UInt32.toNat_add, UInt32.toNat_one]
      omega
    have hkept : ∀ k ∈ kept, k.id.toNat < w.1.nextId.toNat := fun k hk => h.stored_lt k (hroom.sublist.subset hk)
    have hlength := hroom.length_lt (h.capacity ▸ h.length_le)
    rw [issuing, Component.watch_next, hreply, hnext]
    rw [h.capacity] at hlength
    constructor
    · exact h.capacity
    · rw [List.length_append, List.length_singleton]
      exact hlength
    · refine List.pairwise_append.mpr ⟨h.stored.sublist hroom.sublist, List.pairwise_singleton _ _, ?_⟩
      intro k hk n' hn'
      rw [List.mem_singleton.mp hn', hid]
      exact hkept k hk
    · intro k hk
      rw [hsucc]
      rcases List.mem_append.mp hk with hk | hk
      · exact Nat.lt_succ_of_lt (hkept k hk)
      · rw [List.mem_singleton.mp hk, hid]
        exact Nat.lt_succ_self _
    · refine List.pairwise_append.mpr ⟨h.issued, List.pairwise_singleton _ _, ?_⟩
      intro id hmem id' hid'
      rw [List.mem_singleton.mp hid']
      exact h.issued_lt id hmem
    · intro id hmem
      rw [hsucc]
      rcases List.mem_append.mp hmem with hmem | hmem
      · exact Nat.lt_succ_of_lt (h.issued_lt id hmem)
      · rw [List.mem_singleton.mp hmem]
        exact Nat.lt_succ_self _

/-- In every run in which no text is cut within a character and the counter of the ids does not come to its end,
every post succeeds and makes room in the order of eviction, the queue stays within its capacity, and the ids that
are stored and issued are increasing. -/
theorem posts_well (maxCapacity : ℕ) (ops : List NotificationOp)
    (h : issuing.Along (fun o w => Fits o w.1) (.new maxCapacity, []) ops) :
    issuing.Along (fun o w => Orderly maxCapacity w ∧ PostsWell o w.1) (.new maxCapacity, []) ops ∧
      Orderly maxCapacity (issuing.run (.new maxCapacity, []) ops) := by
  obtain ⟨halong, hlast⟩ := Component.along_of_preserved (C := issuing) (I := Orderly maxCapacity)
    (fun _ _ hw hfits => hw.step hfits) (orderly_new maxCapacity) h
  exact ⟨halong.mono fun _ _ hw => ⟨hw.1, hw.1.postsWell hw.2⟩, hlast⟩

def hello (priority : NotificationPriority) : Message := ⟨['a'], "Hi".toList, "Hello".toList, priority, .message⟩

theorem posts_well_two :
    issuing.Along (fun o w => Orderly 1 w ∧ PostsWell o w.1) (.new 1, []) [.post (hello .low), .post (hello .high)] ∧
      Orderly 1 (issuing.run (.new 1, []) [.post (hello .low), .post (hello .high)]) := by
  refine posts_well 1 _ ?_
  have hcut (priority : NotificationPriority) : Cuttable (hello priority).title titleMaxLen ∧
      Cuttable (hello priority).body bodyMaxLen :=
    ⟨.inl (show len "Hi".toList ≤ titleMaxLen by decide), .inl (show len "Hello".toList ≤ bodyMaxLen by decide)⟩
  simp only [Component.along_cons]
  refine ⟨fun msg ho => ?_, fun msg ho => ?_, Component.along_nil⟩
  · obtain rfl := Option.some.inj ho
    exact ⟨(hcut _).1, (hcut _).2, by decide⟩
  · obtain rfl := Option.some.inj ho
    exact ⟨(hcut _).1, (hcut _).2, by decide⟩

/-- A notification comes no later than another one in an order in which the active ones go by priority, too. -/
def GoesFirstByPriority (n n' : Notification) : Prop :=
  let place (n : Notification) : ℕ := if n.dismissed then n.priority.rank else 4 + n.priority.rank
  place n < place n' ∨ place n = place n' ∧ n.id.toNat ≤ n'.id.toNat

/-- A notification that a call removes comes first by priority. -/
def EvictsByPriority (o : NotificationOp) (m : NotificationManager) : Prop :=
  ∀ n ∈ m.notifications, n.id ∉ (manager.next o m).notifications.map Notification.id →
    ∀ n' ∈ m.notifications, GoesFirstByPriority n n'

/-- When there is no active notification of priority low, the oldest goes, also if it is urgent and another one is
not. -/
theorem evicts_not_by_priority : ¬ ∀ ops, manager.Along EvictsByPriority (.new 2) ops := by
  intro hall
  have hevicts := hall [.post (hello .urgent), .post (hello .normal), .post (hello .normal)]
    [.post (hello .urgent), .post (hello .normal)] (.post (hello .normal)) [] rfl
  have hfirst := hevicts ⟨1, ['a'], "Hi".toList, "Hello".toList, .urgent, .message, 0, none, false, false, none, none⟩
    (by decide) (by decide)
    ⟨2, ['a'], "Hi".toList, "Hello".toList, .normal, .message, 0, none, false, false, none, none⟩ (by decide)
  rcases hfirst with hfirst | ⟨hfirst, -⟩
  · exact absurd hfirst (by decide)
  · exact absurd hfirst (by decide)

end ThistleOS.Notifications
