import ThistleOS.Kernel.BurnTimer.Ledger

/-!
# Runs of the burn timers

A timer is lost when a tick finds no place in the queue for its record, and a burn goes to the wrong
message when a call overrides a timer whose record waits: these are the only ways.
-/

namespace ThistleOS.BurnTimer

open BurnTimerState

/-! ### Lists that make up another one -/

section

variable {α : Type} [DecidableEq α] {a w d o t : List α}

lemma count_filter_ite (p : α → Bool) (l : List α) (x : α) :
    (l.filter p).count x = if p x = true then l.count x else 0 := by
  split
  · exact List.count_filter ‹_›
  · rename_i h
    exact List.count_eq_zero.mpr fun hmem => h (List.mem_filter.mp hmem).2

/-- What is in `t` and neither in `d` nor in `o` is taken over by `o`, and a part of it is taken from
`a`: the rest of it is then there twice. -/
lemma override_perm (hdistinct : t.Nodup) (hperm : (a ++ w ++ d ++ o).Perm t) (p : α → Bool) :
    (a.filter (fun x => !p x) ++ w ++ d ++
      (o ++ t.filter (fun x => p x && !d.contains x && !o.contains x))).Perm (t ++ w.filter p) := by
  have hnodup : (a ++ w ++ d ++ o).Nodup := hperm.nodup_iff.mpr hdistinct
  rw [List.perm_iff_count] at hperm ⊢
  intro x
  have hx := hperm x
  have hone := List.nodup_iff_count_le_one.mp hnodup x
  simp only [List.count_append, count_filter_ite] at hx hone ⊢
  by_cases hp : p x = true
  · by_cases hd : x ∈ d
    · have := List.count_pos_iff.mpr hd
      simp [hp, hd]
      omega
    · by_cases ho : x ∈ o
      · have := List.count_pos_iff.mpr ho
        simp [hp, hd, ho]
        omega
      · have := List.count_eq_zero.mpr hd
        have := List.count_eq_zero.mpr ho
        simp [hp, hd, ho]
        omega
  · simp [hp]
    omega

/-- Nothing is there twice exactly if nothing was to be taken from elsewhere. -/
lemma override_perm_iff (hdistinct : t.Nodup) (hperm : (a ++ w ++ d ++ o).Perm t) (p : α → Bool) :
    (a.filter (fun x => !p x) ++ w ++ d ++
      (o ++ t.filter (fun x => p x && !d.contains x && !o.contains x))).Perm t ↔
      ∀ x ∈ w, p x = false := by
  have htwice := override_perm hdistinct hperm p
  have hnone : (∀ x ∈ w, p x = false) ↔ w.filter p = [] := by
    simp [List.filter_eq_nil_iff]
  rw [hnone]
  constructor
  · intro h
    have hlen := (h.symm.trans htwice).length_eq
    rw [List.length_append] at hlen
    exact List.eq_nil_of_length_eq_zero (by omega)
  · intro h
    rwa [h, List.append_nil] at htwice

end

/-! ### What a call does to the timers -/

/-- The message of a timer. -/
def Timer.slot (t : Timer) : UInt8 × UInt8 := (t.conversationId, t.messageIndex)

lemma Timer.isFor_iff {t : Timer} {convId msgIdx : UInt8} :
    t.isFor convId msgIdx = true ↔ t.slot = (convId, msgIdx) := by
  simp [isFor, slot]

/-- The timer of a slot of the table. -/
def timerOf (slot : Option (BurnEntry ℕ)) : Option Timer :=
  (slot.filter BurnEntry.active).map BurnEntry.timer

lemma active_eq (s : BurnTimerState ℕ) : active s = s.entries.filterMap timerOf := rfl

@[simp] lemma timerOf_none : timerOf none = none := rfl

lemma timerOf_some (e : BurnEntry ℕ) : timerOf (some e) = if e.active then some e.timer else none := by
  rw [timerOf, Option.filter_some]
  split <;> rfl

/-- The timers of some slots are dropped. -/
lemma filterMap_timerOf_filter {q : BurnEntry ℕ → Bool} {p : Timer → Bool}
    {slots : List (Option (BurnEntry ℕ))} (hqp : ∀ e, some e ∈ slots → e.active = true → q e = p e.timer) :
    (slots.map fun slot => slot.filter q).filterMap timerOf = (slots.filterMap timerOf).filter p := by
  induction slots with
  | nil => rfl
  | cons slot slots ih =>
    have ih := ih fun e he => hqp e (List.mem_cons_of_mem _ he)
    rw [List.map_cons]
    cases slot with
    | none =>
      rw [Option.filter_none, List.filterMap_cons_none timerOf_none,
        List.filterMap_cons_none timerOf_none, ih]
    | some e =>
      rw [List.filterMap_cons, List.filterMap_cons, timerOf_some, Option.filter_some]
      by_cases hactive : e.active = true
      · rw [if_pos hactive, hqp e List.mem_cons_self hactive]
        by_cases hp : p e.timer = true
        · simp [hp, timerOf_some, hactive, ih]
        · simp [hp, ih]
      · rw [if_neg hactive]
        by_cases hq : q e = true
        · simp [hq, timerOf_some, hactive, ih]
        · simp [hq, ih]

lemma isFor_timer {e : BurnEntry ℕ} {convId msgIdx : UInt8} (h : e.active = true) :
    e.isFor convId msgIdx = e.timer.isFor convId msgIdx := by
  simp [BurnEntry.isFor, Timer.isFor, BurnEntry.timer, h]

lemma isOf_timer {e : BurnEntry ℕ} {convId : UInt8} (h : e.active = true) :
    e.isOf convId = e.timer.isOf convId := by
  simp [BurnEntry.isOf, Timer.isOf, BurnEntry.timer, h]

/-- No two timers are for the same message. -/
def Spread (timers : List Timer) : Prop := (timers.map Timer.slot).Nodup

section

variable {s : BurnTimerState ℕ} {convId msgIdx : UInt8}

lemma findEntry_some {idx : ℕ} (h : s.findEntry convId msgIdx = some idx) :
    ∃ pre e post, s.entries = pre ++ some e :: post ∧ pre.length = idx ∧ e.active = true ∧
      e.timer.slot = (convId, msgIdx) := by
  obtain ⟨pre, slot, post, hsplit, hlen, -, hslot⟩ := Slots.findIdx?_eq_some_split h
  obtain ⟨e, rfl, he⟩ := Option.any_eq_true _ _ |>.mp hslot
  have hactive : e.active = true := by
    simp only [BurnEntry.isFor, Bool.and_eq_true] at he
    exact he.1.1
  rw [isFor_timer hactive] at he
  exact ⟨pre, e, post, hsplit, hlen, hactive, Timer.isFor_iff.mp he⟩

lemma findEntry_none (h : s.findEntry convId msgIdx = none) :
    ∀ t ∈ active s, t.isFor convId msgIdx = false := by
  intro t ht
  rw [active_eq, List.mem_filterMap] at ht
  obtain ⟨slot, hslot, htimer⟩ := ht
  cases slot with
  | none => cases htimer
  | some e =>
    rw [timerOf_some] at htimer
    split at htimer
    · rename_i hactive
      cases htimer
      have hnone := List.findIdx?_eq_none_iff.mp h _ hslot
      rw [← isFor_timer hactive]
      simpa using hnone
    · cases htimer

/-- The timer of a message, if there is one, is given up. -/
lemma active_giveUp (h : Spread (active s)) :
    active (s.giveUp convId msgIdx) = (active s).filter fun t => !t.isFor convId msgIdx := by
  rw [giveUp]
  cases hfind : s.findEntry convId msgIdx with
  | none =>
    refine (List.filter_eq_self.mpr fun t ht => ?_).symm
    simp [findEntry_none hfind t ht]
  | some idx =>
    obtain ⟨pre, e, post, hsplit, rfl, hactive, hslot⟩ := findEntry_some hfind
    have htimer : timerOf (some e) = some e.timer := by rw [timerOf_some, if_pos hactive]
    have hother : ∀ t ∈ pre.filterMap timerOf ++ post.filterMap timerOf, t.isFor convId msgIdx = false := by
      intro t ht
      rw [active_eq, hsplit, List.filterMap_append, List.filterMap_cons_some htimer, Spread,
        List.map_append, List.map_cons, List.nodup_middle, ← List.map_append, hslot] at h
      have hne := (List.nodup_cons.mp h).1
      rw [Bool.eq_false_iff]
      exact fun hfor => hne (List.mem_map.mpr ⟨t, ht, Timer.isFor_iff.mp hfor⟩)
    have hself : e.timer.isFor convId msgIdx = true := Timer.isFor_iff.mpr hslot
    have hset : (s.clear pre.length).entries = pre ++ none :: post := by simp [clear, hsplit]
    rw [active_eq, active_eq, hset, hsplit, List.filterMap_append, List.filterMap_cons_none timerOf_none,
      List.filterMap_append, List.filterMap_cons_some htimer, List.filter_append,
      List.filter_cons_of_neg (by simp [hself]), ← List.filter_append]
    refine (List.filter_eq_self.mpr fun t ht => ?_).symm
    simp [hother t ht]

@[simp] lemma expiredQueue_giveUp : (s.giveUp convId msgIdx).expiredQueue = s.expiredQueue := by
  rw [giveUp]
  split <;> rfl

@[simp] lemma initialized_giveUp : (s.giveUp convId msgIdx).initialized = s.initialized := by
  rw [giveUp]
  split <;> rfl

lemma waiting_giveUp : waiting (s.giveUp convId msgIdx) = waiting s := by
  rw [waiting, expiredQueue_giveUp, waiting]

lemma active_place {n : ℕ} {burnAfterMs : UInt64} {slot : ℕ} (h : s.findFreeSlot = some slot) :
    (active (s.place n convId msgIdx burnAfterMs).2).Perm (⟨n, convId, msgIdx⟩ :: active s) := by
  obtain ⟨pre, free, post, hsplit, rfl, -, hfree⟩ := Slots.findIdx?_eq_some_split h
  have hnone : timerOf free = none := by
    cases free with
    | none => rfl
    | some e =>
      rw [timerOf_some, if_neg]
      simpa using hfree
  have hset : (s.place n convId msgIdx burnAfterMs).2.entries =
      pre ++ some ⟨convId, msgIdx, s.tickCount, burnAfterMs, true, n⟩ :: post := by
    simp [place, h, hsplit]
  have hnew : timerOf (some ⟨convId, msgIdx, s.tickCount, burnAfterMs, true, n⟩) =
      some ⟨n, convId, msgIdx⟩ := rfl
  rw [active_eq, active_eq, hset, hsplit, List.filterMap_append, List.filterMap_append,
    List.filterMap_cons_none hnone, List.filterMap_cons_some hnew]
  exact List.perm_middle

/-- The timers that are due leave the others. -/
lemma due_perm (now : UInt64) (slots : List (Option (BurnEntry ℕ))) :
    ((slots.map fun slot => slot.filter fun e => !e.isDue now).filterMap timerOf ++
      (due now slots).map BurnEntry.timer).Perm (slots.filterMap timerOf) := by
  induction slots with
  | nil => exact .nil
  | cons slot slots ih =>
    rw [List.map_cons]
    cases slot with
    | none => exact ih
    | some e =>
      rw [due_some, Option.filter_some]
      by_cases hdue : e.isDue now = true
      · have hactive : e.active = true := by
          simp only [BurnEntry.isDue, Bool.and_eq_true] at hdue
          exact hdue.1
        have htimer : timerOf (some e) = some e.timer := by rw [timerOf_some, if_pos hactive]
        rw [if_pos hdue, if_neg (by simp [hdue]), List.filterMap_cons_none timerOf_none, List.map_cons,
          List.filterMap_cons_some htimer]
        exact List.perm_middle.trans (ih.cons _)
      · rw [if_neg hdue, if_pos (by simp [hdue]), List.filterMap_cons, List.filterMap_cons]
        cases timerOf (some e) with
        | none => exact ih
        | some t => exact ih.cons t

end

/-! ### The calls of a run -/

/-- A timer can be set for the message. -/
def Settable {τ : Type} (convId msgIdx : UInt8) (s : BurnTimerState τ) : Prop :=
  validateConvId convId = true ∧ validateMsgIdx msgIdx = true ∧
    (s.findEntry convId msgIdx ≠ none ∨ s.findFreeSlot ≠ none)

section

variable {s : BurnTimerState ℕ} {convId msgIdx : UInt8}

lemma findFreeSlot_giveUp :
    (s.giveUp convId msgIdx).findFreeSlot ≠ none ↔
      s.findEntry convId msgIdx ≠ none ∨ s.findFreeSlot ≠ none := by
  rw [giveUp]
  cases hfind : s.findEntry convId msgIdx with
  | none => simp
  | some idx =>
    obtain ⟨pre, e, post, hsplit, rfl, -, -⟩ := findEntry_some hfind
    have hset : (s.clear pre.length).entries = pre ++ none :: post := by simp [clear, hsplit]
    simp [findFreeSlot, hset, List.findIdx?_eq_none_iff]

lemma giveUp_of_not_room (h : ¬ (s.giveUp convId msgIdx).findFreeSlot ≠ none) :
    s.giveUp convId msgIdx = s := by
  rw [findFreeSlot_giveUp, not_or, not_not] at h
  rw [giveUp, h.1]

/-- What a call to set a timer does. -/
lemma setTimer_cases (hinit : s.initialized = true) (n : ℕ) (burnAfterMs : UInt64) :
    (Settable convId msgIdx s ∧ ∃ slot, (s.giveUp convId msgIdx).findFreeSlot = some slot ∧
      s.setTimer n convId msgIdx burnAfterMs =
        (espOk, ((s.giveUp convId msgIdx).place n convId msgIdx burnAfterMs).2)) ∨
    (¬ Settable convId msgIdx s ∧ ∃ code, succeeded code = false ∧
      s.setTimer n convId msgIdx burnAfterMs = (code, s)) := by
  rw [Settable, ← findFreeSlot_giveUp, setTimer, if_neg (by simp [hinit])]
  by_cases hvalid : validateConvId convId = true ∧ validateMsgIdx msgIdx = true
  · rw [if_neg (by simp [hvalid])]
    cases hroom : (s.giveUp convId msgIdx).findFreeSlot with
    | none =>
      refine .inr ⟨fun h => h.2.2 rfl, espErrNoMem, by decide, ?_⟩
      rw [place, hroom, giveUp_of_not_room (by simp [hroom])]
    | some slot =>
      refine .inl ⟨⟨hvalid.1, hvalid.2, by simp⟩, slot, rfl, ?_⟩
      rw [place, hroom]
  · rw [if_pos (by simpa [← not_and_or, imp_iff_not_or] using hvalid)]
    exact .inr ⟨fun h => hvalid ⟨h.1, h.2.1⟩, espErrInvalidArg, by decide, rfl⟩

/-- What a call to cancel a timer does. -/
lemma cancelTimer_cases (hinit : s.initialized = true) :
    (s.cancelTimer convId msgIdx = (espOk, s.giveUp convId msgIdx) ∧
      ∃ t ∈ active s, t.slot = (convId, msgIdx)) ∨
    ∃ code, succeeded code = false ∧ s.cancelTimer convId msgIdx = (code, s) := by
  rw [cancelTimer, if_neg (by simp [hinit])]
  split_ifs
  · exact .inr ⟨espErrInvalidArg, by decide, rfl⟩
  · cases hfind : s.findEntry convId msgIdx with
    | none => exact .inr ⟨espErrNotFound, by decide, rfl⟩
    | some idx =>
      obtain ⟨pre, e, post, hsplit, -, hactive, hslot⟩ := findEntry_some hfind
      refine .inl ⟨by rw [giveUp, hfind], e.timer, ?_, hslot⟩
      rw [active_eq, hsplit, List.filterMap_append, List.filterMap_cons_some (b := e.timer)]
      · simp
      · rw [timerOf_some, if_pos hactive]

/-- What a call to cancel a conversation does. -/
lemma cancelConversation_cases (hinit : s.initialized = true) :
    (validateConvId convId = true ∧ ∃ s', s.cancelConversation convId = (espOk, s') ∧
      active s' = ((active s).filter fun t => !t.isOf convId) ∧ s'.expiredQueue = s.expiredQueue ∧
      s'.initialized = true) ∨
    (¬ validateConvId convId = true ∧ s.cancelConversation convId = (espErrInvalidArg, s)) := by
  rw [cancelConversation, if_neg (by simp [hinit])]
  by_cases hvalid : validateConvId convId = true
  · rw [if_neg (by simp [hvalid])]
    refine .inl ⟨hvalid, _, rfl, ?_, rfl, hinit⟩
    exact filterMap_timerOf_filter fun _ _ h => by rw [isOf_timer h]
  · rw [if_pos (by simpa using hvalid)]
    exact .inr ⟨hvalid, rfl⟩

end

/-- No call overrides a timer whose record waits, and no tick finds more due timers than free places
in the queue. -/
def Careful {τ : Type} : Op → BurnTimerState τ → Prop
  | .set convId msgIdx _, s =>
    Settable convId msgIdx s →
      ∀ r ∈ s.expiredQueue, ¬ (r.conversationId = convId ∧ r.messageIndex = msgIdx)
  | .cancel _ _, _ => True
  | .cancelConversation convId, s =>
    validateConvId convId = true → ∀ r ∈ s.expiredQueue, r.conversationId ≠ convId
  | .tick now, s => s.expiredQueue.length + (due now s.entries).length ≤ maxExpiredQueue
  | .getExpired _, _ => True

/-- What holds as long as no timer is lost. -/
structure Kept (w : BurnTimerState ℕ × Ledger) : Prop where
  initialized : w.1.initialized = true
  accounted : Accounted w
  numbers : ∀ t ∈ w.2.timers, t.number < w.2.timers.length
  room : w.1.expiredQueue.length ≤ maxExpiredQueue
  spread : Spread (active w.1 ++ waiting w.1)

lemma kept_start : Kept start where
  initialized := rfl
  accounted := ⟨.nil, .nil⟩
  numbers := by simp [start, Ledger.empty]
  room := Nat.zero_le _
  spread := .nil

/-! ### What a call does to the accounts -/

lemma perm_add_iff {α : Type} {a a' w d o t : List α} {x : α} (h : a'.Perm (x :: a)) :
    (a' ++ w ++ d ++ o).Perm (t ++ [x]) ↔ (a ++ w ++ d ++ o).Perm t := by
  have hleft : (a' ++ w ++ d ++ o).Perm (x :: (a ++ w ++ d ++ o)) :=
    ((h.append_right w).append_right d).append_right o
  have hright : (t ++ [x]).Perm (x :: t) := List.perm_append_singleton x t
  constructor
  · exact fun hperm => (hleft.symm.trans (hperm.trans hright)).cons_inv
  · exact fun hperm => hleft.trans ((hperm.cons x).trans hright.symm)

namespace Spread

variable {a a' w : List Timer} {p : Timer → Bool}

lemma filter (h : Spread (a ++ w)) (p : Timer → Bool) : Spread (a.filter p ++ w) :=
  h.sublist ((List.filter_sublist.append_right w).map Timer.slot)

lemma perm (h : Spread a) (hperm : a'.Perm a) : Spread a' := (hperm.map Timer.slot).nodup_iff.mpr h

lemma left (h : Spread (a ++ w)) : Spread a := h.sublist ((List.sublist_append_left a w).map Timer.slot)

lemma add {t : Timer} (h : Spread (a ++ w)) (hw : ∀ u ∈ w, u.slot ≠ t.slot) (hp : ∀ u, p u = true → u.slot ≠ t.slot) :
    Spread (t :: (a.filter p ++ w)) := by
  rw [Spread, List.map_cons, List.nodup_cons]
  refine ⟨fun hmem => ?_, h.filter p⟩
  obtain ⟨u, hu, hslot⟩ := List.mem_map.mp hmem
  rcases List.mem_append.mp hu with hu | hu
  · exact hp u (List.mem_filter.mp hu).2 hslot
  · exact hw u hu hslot

end Spread

namespace Kept

variable {s s' : BurnTimerState ℕ} {l : Ledger} {p : Timer → Bool}

/-- The timers that satisfy `p` are dropped from the table and overridden in the ledger. -/
lemma override_iff (h : Kept (s, l)) (hactive : active s' = (active s).filter fun t => !p t)
    (hwaiting : waiting s' = waiting s) :
    Accounted (s', l.override p) ↔ ∀ t ∈ waiting s, p t = false := by
  have hiff := override_perm_iff h.accounted.distinct h.accounted.perm p
  rw [← hiff]
  constructor
  · intro hacc
    have hperm := hacc.perm
    rwa [hactive, hwaiting] at hperm
  · intro hperm
    refine ⟨h.accounted.distinct, ?_⟩
    rwa [hactive, hwaiting]

lemma override (h : Kept (s, l)) (hactive : active s' = (active s).filter fun t => !p t)
    (hwaiting : waiting s' = waiting s) (hqueue : s'.expiredQueue.length ≤ maxExpiredQueue)
    (hinit : s'.initialized = true)
    (hacc : Accounted (s', l.override p)) : Kept (s', l.override p) where
  initialized := hinit
  accounted := hacc
  numbers := h.numbers
  room := hqueue
  spread := by
    rw [hactive, hwaiting]
    exact h.spread.filter _

/-- The number of a new timer is new. -/
lemma new_notMem (h : Kept (s, l)) (convId msgIdx : UInt8) :
    (⟨l.timers.length, convId, msgIdx⟩ : Timer) ∉ l.timers :=
  fun hmem => Nat.lt_irrefl _ (h.numbers _ hmem)

/-- A timer is added next to those that are overridden. -/
lemma add_iff (h : Kept (s, l)) {convId msgIdx : UInt8}
    (hactive : (active s').Perm (⟨l.timers.length, convId, msgIdx⟩ ::
      (active s).filter fun t => !t.isFor convId msgIdx))
    (hwaiting : waiting s' = waiting s) :
    Accounted (s', (l.override (Timer.isFor convId msgIdx)).add convId msgIdx) ↔
      ∀ t ∈ waiting s, t.isFor convId msgIdx = false := by
  have hiff := override_perm_iff h.accounted.distinct h.accounted.perm (Timer.isFor convId msgIdx)
  rw [← hiff, ← perm_add_iff hactive]
  constructor
  · intro hacc
    have hperm := hacc.perm
    rwa [hwaiting] at hperm
  · intro hperm
    refine ⟨?_, ?_⟩
    · refine List.nodup_append.mpr ⟨h.accounted.distinct, by simp, ?_⟩
      rintro t ht u hu rfl
      rw [List.mem_singleton] at hu
      exact h.new_notMem convId msgIdx (hu ▸ ht)
    · rwa [hwaiting]

lemma add (h : Kept (s, l)) {convId msgIdx : UInt8}
    (hactive : (active s').Perm (⟨l.timers.length, convId, msgIdx⟩ ::
      (active s).filter fun t => !t.isFor convId msgIdx))
    (hwaiting : waiting s' = waiting s) (hqueue : s'.expiredQueue.length ≤ maxExpiredQueue)
    (hinit : s'.initialized = true)
    (hacc : Accounted (s', (l.override (Timer.isFor convId msgIdx)).add convId msgIdx)) :
    Kept (s', (l.override (Timer.isFor convId msgIdx)).add convId msgIdx) where
  initialized := hinit
  accounted := hacc
  numbers t ht := by
    change t ∈ l.timers ++ [_] at ht
    change t.number < (l.timers ++ [_]).length
    rw [List.length_append, List.length_singleton]
    rcases List.mem_append.mp ht with ht | ht
    · exact Nat.lt_succ_of_lt (h.numbers t ht)
    · rw [List.mem_singleton] at ht
      rw [ht]
      exact Nat.lt_succ_self _
  room := hqueue
  spread := by
    have hfree := (h.add_iff hactive hwaiting).mp hacc
    rw [hwaiting]
    refine Spread.perm ?_ (hactive.append_right (waiting s))
    refine h.spread.add (fun u hu hslot => ?_) fun u hu hslot => ?_
    · exact absurd (Timer.isFor_iff.mpr hslot) (by simp [hfree u hu])
    · exact absurd (Timer.isFor_iff.mpr hslot) (by simpa using hu)

lemma not_uninit (h : Kept (s, l)) : ¬ (!s.initialized) = true := by
  have hinit : s.initialized = true := h.initialized
  simp [hinit]

/-! A tick moves the due timers to the queue. -/

lemma waiting_tick (h : Kept (s, l)) (now : UInt64) :
    waiting (s.tick now).2 = waiting s ++
      ((due now s.entries).map BurnEntry.timer).take (maxExpiredQueue - s.expiredQueue.length) := by
  rw [tick, if_neg h.not_uninit, expire_eq, waiting, waiting, List.map_append,
    List.map_take, List.map_map]
  rfl

lemma active_tick (h : Kept (s, l)) (now : UInt64) :
    (active (s.tick now).2 ++ (due now s.entries).map BurnEntry.timer).Perm (active s) := by
  rw [tick, if_neg h.not_uninit, expire_eq]
  exact due_perm now s.entries

/-- What is due is where the other timers were. -/
lemma tick_perm (h : Kept (s, l)) (now : UInt64) :
    (active (s.tick now).2 ++ (waiting s ++ (due now s.entries).map BurnEntry.timer)).Perm
      (active s ++ waiting s) := by
  have hswap := @List.perm_append_comm _ (waiting s) ((due now s.entries).map BurnEntry.timer)
  refine (hswap.append_left _).trans ?_
  rw [← List.append_assoc]
  exact (h.active_tick now).append_right _

lemma tick_iff (h : Kept (s, l)) (now : UInt64) :
    Accounted ((s.tick now).2, l) ↔ Careful (.tick now) s := by
  have hroom := h.room
  have hall := (((h.tick_perm now).append_right l.delivered).append_right l.overridden).trans
    h.accounted.perm
  constructor
  · intro hacc
    have hlen := (hacc.perm.trans hall.symm).length_eq
    simp only [h.waiting_tick, List.length_append, List.length_take, List.length_map] at hlen
    change s.expiredQueue.length ≤ maxExpiredQueue at hroom
    change s.expiredQueue.length + (due now s.entries).length ≤ maxExpiredQueue
    omega
  · intro hcareful
    refine ⟨h.accounted.distinct, ?_⟩
    change s.expiredQueue.length + (due now s.entries).length ≤ maxExpiredQueue at hcareful
    rw [h.waiting_tick, List.take_of_length_le (by rw [List.length_map]; omega)]
    exact hall

lemma tick (h : Kept (s, l)) {now : UInt64} (hacc : Accounted ((s.tick now).2, l)) :
    Kept ((s.tick now).2, l) where
  initialized := by
    rw [BurnTimerState.tick, if_neg h.not_uninit]
    exact h.initialized
  accounted := hacc
  numbers := h.numbers
  room := by
    have hlen : (waiting (s.tick now).2).length = (s.tick now).2.expiredQueue.length := List.length_map _
    have hlen' : (waiting s).length = s.expiredQueue.length := List.length_map _
    have hroom := h.room
    change s.expiredQueue.length ≤ maxExpiredQueue at hroom
    rw [← hlen, h.waiting_tick, List.length_append, List.length_take, hlen']
    omega
  spread := by
    have hall : Spread (active (s.tick now).2 ++
        (waiting s ++ (due now s.entries).map BurnEntry.timer)) := h.spread.perm (h.tick_perm now)
    rw [h.waiting_tick]
    exact hall.sublist ((((List.take_sublist _ _).append_left _).append_left _).map Timer.slot)

/-! The collector takes records from the front of the queue. -/

lemma getExpired_eq (h : Kept (s, l)) (room : ℕ) :
    s.getExpired room = (.ok (s.expiredQueue.take (min s.expiredQueue.length room)),
      { s with expiredQueue := s.expiredQueue.drop (min s.expiredQueue.length room) }) := by
  rw [getExpired, if_neg h.not_uninit]

lemma deliver (h : Kept (s, l)) (n : ℕ) :
    Kept ({ s with expiredQueue := s.expiredQueue.drop n }, l.deliver (s.expiredQueue.take n)) where
  initialized := h.initialized
  accounted := by
    refine ⟨h.accounted.distinct, ?_⟩
    have hsplit : waiting s = (s.expiredQueue.take n).map CBurnExpired.timer ++
        (s.expiredQueue.drop n).map CBurnExpired.timer := by
      rw [← List.map_append, List.take_append_drop, waiting]
    have hperm := h.accounted.perm
    rw [List.perm_iff_count] at hperm ⊢
    intro t
    have ht := hperm t
    simp only [List.count_append, hsplit] at ht
    simp only [List.count_append, Ledger.deliver, waiting]
    rw [← ht]
    change (active s).count t + _ + _ + _ = _
    omega
  numbers := h.numbers
  room := by
    have hroom : s.expiredQueue.length ≤ maxExpiredQueue := h.room
    exact Nat.le_trans (List.drop_sublist _ _).length_le hroom
  spread := h.spread.sublist
    ((((List.drop_sublist n s.expiredQueue).map CBurnExpired.timer).append_left _).map Timer.slot)

end Kept

/-- No record of the queue is for a message, in terms of its timers. -/
lemma waiting_forall {s : BurnTimerState ℕ} {p : Timer → Bool} {q : CBurnExpired ℕ → Prop}
    (hpq : ∀ r, p r.timer = false ↔ q r) : (∀ t ∈ waiting s, p t = false) ↔ ∀ r ∈ s.expiredQueue, q r := by
  simp [waiting, hpq]

namespace Kept

variable {s : BurnTimerState ℕ} {l : Ledger}

/-- A call that fails changes nothing. -/
lemma same_iff {P : Prop} (h : Kept (s, l)) (hP : P) :
    (Accounted (s, l) ↔ P) ∧ (Accounted (s, l) → Kept (s, l)) :=
  ⟨iff_of_true h.accounted hP, fun _ => h⟩

lemma next_set (h : Kept (s, l)) (convId msgIdx : UInt8) (burnAfterMs : UInt64) :
    (Accounted (watched.next (.set convId msgIdx burnAfterMs) (s, l)) ↔
        Careful (.set convId msgIdx burnAfterMs) s) ∧
      (Accounted (watched.next (.set convId msgIdx burnAfterMs) (s, l)) →
        Kept (watched.next (.set convId msgIdx burnAfterMs) (s, l))) := by
  have hnext : watched.next (.set convId msgIdx burnAfterMs) (s, l) =
      ((s.setTimer l.timers.length convId msgIdx burnAfterMs).2,
        if succeeded (s.setTimer l.timers.length convId msgIdx burnAfterMs).1 then
          (l.override (Timer.isFor convId msgIdx)).add convId msgIdx else l) := rfl
  have hinit : s.initialized = true := h.initialized
  rw [hnext]
  rcases setTimer_cases hinit l.timers.length burnAfterMs with
    ⟨hset, slot, hslot, heq⟩ | ⟨hset, code, hcode, heq⟩
  · rw [heq, if_pos succeeded_espOk]
    have hactive := @active_place _ convId msgIdx l.timers.length burnAfterMs _ hslot
    rw [active_giveUp h.spread.left] at hactive
    have hwaiting : waiting ((s.giveUp convId msgIdx).place l.timers.length convId msgIdx burnAfterMs).2 =
        waiting s := by
      rw [← @waiting_giveUp s convId msgIdx, place, hslot]
      rfl
    refine ⟨(h.add_iff hactive hwaiting).trans ?_, h.add hactive hwaiting ?_ ?_⟩
    · rw [waiting_forall (q := fun r => ¬ (r.conversationId = convId ∧ r.messageIndex = msgIdx))]
      · exact ⟨fun hall _ => hall, fun hall => hall hset⟩
      · intro r
        simp [Timer.isFor, CBurnExpired.timer]
    · have hlen := congrArg List.length hwaiting
      rw [waiting, waiting, List.length_map, List.length_map] at hlen
      rw [hlen]
      exact h.room
    · rw [place, hslot]
      exact initialized_giveUp.trans hinit
  · rw [heq, if_neg (by simp [hcode])]
    exact h.same_iff fun hset' => absurd hset' hset

lemma next_cancel (h : Kept (s, l)) (convId msgIdx : UInt8) :
    (Accounted (watched.next (.cancel convId msgIdx) (s, l)) ↔ Careful (.cancel convId msgIdx) s) ∧
      (Accounted (watched.next (.cancel convId msgIdx) (s, l)) →
        Kept (watched.next (.cancel convId msgIdx) (s, l))) := by
  have hnext : watched.next (.cancel convId msgIdx) (s, l) =
      ((s.cancelTimer convId msgIdx).2,
        if succeeded (s.cancelTimer convId msgIdx).1 then
          l.override (Timer.isFor convId msgIdx) else l) := rfl
  have hinit : s.initialized = true := h.initialized
  rw [hnext]
  rcases @cancelTimer_cases s convId msgIdx hinit with
    ⟨heq, t, ht, hslot⟩ | ⟨code, hcode, heq⟩
  · rw [heq, if_pos succeeded_espOk]
    have hactive := @active_giveUp s convId msgIdx h.spread.left
    -- the active timer of the message leaves no room for a waiting one
    have hfree : ∀ u ∈ waiting s, u.isFor convId msgIdx = false := by
      intro u hu
      rw [Bool.eq_false_iff]
      intro hfor
      have hne := (List.nodup_append.mp (List.map_append ▸ h.spread)).2.2 t.slot
        (List.mem_map_of_mem ht) u.slot (List.mem_map_of_mem hu)
      exact hne (hslot.trans (Timer.isFor_iff.mp hfor).symm)
    refine ⟨iff_of_true ((h.override_iff hactive waiting_giveUp).mpr hfree) trivial,
      h.override hactive waiting_giveUp ?_ (initialized_giveUp.trans hinit)⟩
    rw [expiredQueue_giveUp]
    exact h.room
  · rw [heq, if_neg (by simp [hcode])]
    exact h.same_iff trivial

lemma next_cancelConversation (h : Kept (s, l)) (convId : UInt8) :
    (Accounted (watched.next (.cancelConversation convId) (s, l)) ↔
        Careful (.cancelConversation convId) s) ∧
      (Accounted (watched.next (.cancelConversation convId) (s, l)) →
        Kept (watched.next (.cancelConversation convId) (s, l))) := by
  have hnext : watched.next (.cancelConversation convId) (s, l) =
      ((s.cancelConversation convId).2,
        if succeeded (s.cancelConversation convId).1 then l.override (Timer.isOf convId) else l) := rfl
  rw [hnext]
  rcases @cancelConversation_cases s convId h.initialized with
    ⟨hvalid, s', heq, hactive, hqueue, hinit⟩ | ⟨hvalid, heq⟩
  · have hwaiting : waiting s' = waiting s := by rw [waiting, hqueue, waiting]
    rw [heq, if_pos succeeded_espOk]
    refine ⟨(h.override_iff hactive hwaiting).trans ?_, h.override hactive hwaiting ?_ hinit⟩
    · rw [waiting_forall (q := fun r => r.conversationId ≠ convId)]
      · exact ⟨fun hall _ => hall, fun hall => hall hvalid⟩
      · intro r
        simp [Timer.isOf, CBurnExpired.timer]
    · rw [hqueue]
      exact h.room
  · rw [heq, if_neg (by simp [succeeded_espErrInvalidArg])]
    exact h.same_iff fun hvalid' => absurd hvalid' hvalid

/-- Where all timers are accounted for, a call keeps them so exactly if it is careful, and with them
what else holds. -/
theorem next_iff (h : Kept (s, l)) (o : Op) :
    (Accounted (watched.next o (s, l)) ↔ Careful o s) ∧
      (Accounted (watched.next o (s, l)) → Kept (watched.next o (s, l))) := by
  cases o with
  | set convId msgIdx burnAfterMs => exact h.next_set convId msgIdx burnAfterMs
  | cancel convId msgIdx => exact h.next_cancel convId msgIdx
  | cancelConversation convId => exact h.next_cancelConversation convId
  | tick now => exact ⟨h.tick_iff now, h.tick⟩
  | getExpired room =>
    have hnext : watched.next (.getExpired room) (s, l) =
        ((s.getExpired room).2, record (.getExpired room) (s.getExpired room).1 l) := rfl
    have hkept := h.deliver (min s.expiredQueue.length room)
    rw [hnext, h.getExpired_eq]
    exact ⟨iff_of_true hkept.accounted trivial, fun _ => hkept⟩

/-- A due timer waits after a tick. -/
lemma fired (h : Kept (s, l)) {now : UInt64} (hcareful : Careful (.tick now) s) {e : BurnEntry ℕ}
    (he : some e ∈ s.entries) (hdue : e.isDue now = true) : e.timer ∈ waiting (s.tick now).2 := by
  change s.expiredQueue.length + (due now s.entries).length ≤ maxExpiredQueue at hcareful
  rw [h.waiting_tick, List.take_of_length_le (by rw [List.length_map]; omega)]
  refine List.mem_append_right _ (List.mem_map_of_mem ?_)
  exact List.mem_filterMap.mpr ⟨_, he, by simp [hdue]⟩

/-- A record that waits is of a timer that has come to no end. -/
lemma of_waiting (h : Kept (s, l)) {t : Timer} (ht : t ∈ waiting s) :
    t ∈ l.timers ∧ t ∉ l.delivered ∧ t ∉ l.overridden := by
  have hperm := h.accounted.perm
  have hnodup := hperm.nodup_iff.mpr h.accounted.distinct
  have hmem : t ∈ active s ++ waiting s := List.mem_append_right _ ht
  rw [List.nodup_append, List.nodup_append] at hnodup
  refine ⟨hperm.subset (List.mem_append_left _ (List.mem_append_left _ hmem)), fun hd => ?_, fun ho => ?_⟩
  · exact hnodup.1.2.2 t hmem t hd rfl
  · exact hnodup.2.2 t (List.mem_append_left _ hmem) t ho rfl

end Kept

/-! ### Runs -/

/-- What the messenger relies on, of a call. -/
structure Burns (o : Op) (w : BurnTimerState ℕ × Ledger) : Prop where
  accounted : Accounted (watched.next o w)
  /-- A timer that is due at a tick is not lost. -/
  fired : ∀ now e, o = .tick now → some e ∈ w.1.entries → e.isDue now = true →
    e.timer ∈ waiting (watched.next o w).1
  /-- What is delivered is a timer that was neither overridden nor delivered before. -/
  delivered : ∀ room records r, o = .getExpired room → (w.1.getExpired room).1 = .ok records →
    r ∈ records → r.timer ∈ w.2.timers ∧ r.timer ∉ w.2.delivered ∧ r.timer ∉ w.2.overridden

lemma Kept.burns {o : Op} {w : BurnTimerState ℕ × Ledger} (h : Kept w) (hcareful : Careful o w.1) :
    Burns o w where
  accounted := (h.next_iff o).1.mpr hcareful
  fired now e ho he hdue := by
    subst ho
    exact h.fired hcareful he hdue
  delivered room records r _ hrecords hr := by
    rw [h.getExpired_eq] at hrecords
    cases hrecords
    exact h.of_waiting (List.mem_map_of_mem (List.mem_of_mem_take hr))

lemma burns_iff (ops : List Op) :
    watched.Along Burns start ops ↔ watched.Along (fun o w => Careful o w.1) start ops := by
  constructor
  · intro h
    have hkept : watched.Along (fun o w => Kept w ∧ Burns o w) start ops :=
      (Component.along_of_preserved (fun o w hw hb => (hw.next_iff o).2 hb.accounted) kept_start h).1
    exact hkept.mono fun o w hw => (hw.1.next_iff o).1.mp hw.2.accounted
  · intro h
    have hkept : watched.Along (fun o w => Kept w ∧ Careful o w.1) start ops :=
      (Component.along_of_preserved
        (fun o w hw hc => (hw.next_iff o).2 ((hw.next_iff o).1.mpr hc)) kept_start h).1
    exact hkept.mono fun o w hw => hw.1.burns hw.2

/-- The condition looks at nothing that the numbers change. -/
lemma careful_forget (o : Op) (s : BurnTimerState ℕ) : Careful o s.forget ↔ Careful o s := by
  cases o with
  | set convId msgIdx burnAfterMs =>
    simp only [Careful, Settable, findEntry_forget, findFreeSlot_forget]
    simp [BurnTimerState.forget, CBurnExpired.forget]
  | cancel convId msgIdx => exact Iff.rfl
  | cancelConversation convId => simp [Careful, BurnTimerState.forget, CBurnExpired.forget]
  | tick now =>
    have hdue : (due now s.forget.entries).length = (due now s.entries).length := by
      rw [BurnTimerState.forget, due_forget, List.length_map]
    simp only [Careful, hdue]
    simp [BurnTimerState.forget]
  | getExpired room => exact Iff.rfl

/-- No burn is lost or goes to the wrong message in a run of the burn timers exactly if each of its calls
is careful. -/
theorem burns_along_iff (ops : List Op) :
    (watched.run start ops).1.forget = burnTimers.run .init ops ∧
      (watched.Along Burns start ops ↔ burnTimers.Along Careful .init ops) := by
  refine ⟨run_forget ops start, (burns_iff ops).trans ?_⟩
  constructor
  · intro h pre o post hops
    have hcareful := (careful_forget o _).mpr (h pre o post hops)
    rwa [run_forget] at hcareful
  · intro h pre o post hops
    rw [← careful_forget, run_forget]
    exact h pre o post hops

/-- The timer of a message that is used again while its record waits. -/
theorem reused_not_burns : ¬ watched.Along Burns start [.set 0 0 100, .tick 200, .set 0 0 5000] := by
  intro h
  have hcareful := (burns_iff _).mp h [.set 0 0 100, .tick 200] (.set 0 0 5000) [] rfl
  exact hcareful ⟨by decide, by decide, .inr (by decide)⟩ ⟨0, 0, 0⟩ (.head _) ⟨rfl, rfl⟩

end ThistleOS.BurnTimer
