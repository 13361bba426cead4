import Mathlib.Algebra.Group.Int.Defs
import Mathlib.Algebra.Group.Nat.Defs
import ThistleOS.Kernel.BurnTimer.Accounts

/-!
# When a timer burns

The timers of the kernel next to a list of deadlines, which are sums without a bound. A timer is to burn at
the first tick that reaches its deadline. It does so, and the kernel says how long it has left, as long as
no sum leaves the range of the kernel's numbers.
-/

namespace ThistleOS.BurnTimer

open BurnTimerState

/-! ### Deadlines -/

structure Deadline where
  conversationId : UInt8
  messageIndex : UInt8
  time : ℕ
  deriving DecidableEq

namespace Deadline

def isFor (convId msgIdx : UInt8) (d : Deadline) : Bool :=
  d.conversationId == convId && d.messageIndex == msgIdx

def isOf (convId : UInt8) (d : Deadline) : Bool := d.conversationId == convId

def isDue (now : UInt64) (d : Deadline) : Bool := decide (d.time ≤ now.toNat)

end Deadline

/-- The calls, with those that drop all timers. -/
inductive Call
  | call (o : Op)
  | clearAll
  | init

def CallReply (τ : Type) : Call → Type
  | .call o => Reply τ o
  | .clearAll | .init => EspErr

def callStep {τ : Type} (tag : τ) : (c : Call) → BurnTimerState τ → CallReply τ c × BurnTimerState τ
  | .call o, s => step tag o s
  | .clearAll, s => s.clearAll
  | .init, _ => (espOk, .init)

def burnTimerCalls : Component Call (CallReply Unit) (BurnTimerState Unit) := ⟨callStep ()⟩

/-- What a call and its answer do to the deadlines; `t₀` is the time of the last tick. -/
def schedule (t₀ : UInt64) : (c : Call) → CallReply ℕ c → List Deadline → List Deadline
  | .call (.set convId msgIdx burnAfterMs), reply, l =>
    if succeeded reply then
      ⟨convId, msgIdx, t₀.toNat + burnAfterMs.toNat⟩ :: l.filter fun d => !d.isFor convId msgIdx
    else l
  | .call (.cancel convId msgIdx), reply, l =>
    if succeeded reply then l.filter fun d => !d.isFor convId msgIdx else l
  | .call (.cancelConversation convId), reply, l =>
    if succeeded reply then l.filter fun d => !d.isOf convId else l
  | .call (.tick now), _, l => l.filter fun d => !d.isDue now
  | .call (.getExpired _), _, l => l
  | .clearAll, _, _ | .init, _, _ => []

/-- The tag of a new timer is its deadline. -/
def newTag : Call → BurnTimerState ℕ → ℕ
  | .call (.set _ _ burnAfterMs), s => s.tickCount.toNat + burnAfterMs.toNat
  | _, _ => 0

/-- The burn timers next to the deadlines. -/
def timed : Component Call (CallReply ℕ) (BurnTimerState ℕ × List Deadline) where
  step c w :=
    let answer := callStep (newTag c w.1) c w.1
    (answer.1, (answer.2, schedule w.1.tickCount c answer.1 w.2))

def startTimed : BurnTimerState ℕ × List Deadline := (.init, [])

/-- What the kernel says about the timers is right. -/
structure Exact (s : BurnTimerState ℕ) (l : List Deadline) : Prop where
  armed : ∀ d ∈ l, (s.remaining d.conversationId d.messageIndex).toInt = (d.time - s.tickCount.toNat : ℕ)
  disarmed : ∀ convId msgIdx, (∀ d ∈ l, d.isFor convId msgIdx = false) → s.remaining convId msgIdx = -1
  activeCount : s.activeCount.toInt = l.length

/-- What is to hold of a call. -/
structure Timely (c : Call) (w : BurnTimerState ℕ × List Deadline) : Prop where
  exact : Exact (timed.next c w).1 (timed.next c w).2
  /-- A tick reports the timers that have reached their deadlines. -/
  reported : ∀ now, c = .call (.tick now) →
    (w.1.tick now).1.toInt = (w.2.countP (Deadline.isDue now) : ℕ)
  /-- No timer gets more time while the clock advances. -/
  advancing : ∀ now convId msgIdx, c = .call (.tick now) → w.1.tickCount ≤ now →
    ((w.1.tick now).2.remaining convId msgIdx).toInt ≤ (w.1.remaining convId msgIdx).toInt

/-- A timer is set only if its deadline and its time are in the range of the kernel's numbers, and the clock is
not put back so far that a timer that is set gets more time than that. -/
def InRange {τ : Type} : Call → BurnTimerState τ → Prop
  | .call (.set convId msgIdx burnAfterMs), s =>
    Settable convId msgIdx s →
      s.tickCount.toNat + burnAfterMs.toNat < 2 ^ 64 ∧ burnAfterMs.toNat < 2 ^ 63
  | .call (.tick now), s =>
    ∀ e, some e ∈ s.entries → e.active = true →
      e.createdAt.toNat + e.burnAfterMs.toNat < now.toNat + 2 ^ 63
  | _, _ => True

/-! ### The time that is left -/

lemma toInt_toInt64 (x : UInt64) :
    x.toInt64.toInt = if x.toNat < 2 ^ 63 then (x.toNat : ℤ) else (x.toNat : ℤ) - 2 ^ 64 := by
  have hcond := BitVec.toInt_eq_toNat_cond x.toBitVec
  have hint : x.toInt64.toInt = x.toBitVec.toInt := rfl
  have hnat : x.toBitVec.toNat = x.toNat := rfl
  rw [hint, hcond, hnat]
  split_ifs <;> omega

/-- The kernel's difference is the unbounded one exactly if nothing leaves the range. -/
lemma left_eq_iff (createdAt burnAfterMs now : UInt64) :
    (if createdAt + burnAfterMs ≤ now then 0 else (createdAt + burnAfterMs - now).toInt64 : Int64).toInt =
        (createdAt.toNat + burnAfterMs.toNat - now.toNat : ℕ) ↔
      createdAt.toNat + burnAfterMs.toNat < 2 ^ 64 ∧
        createdAt.toNat + burnAfterMs.toNat < now.toNat + 2 ^ 63 := by
  have hsum := UInt64.toNat_add createdAt burnAfterMs
  have hc := createdAt.toNat_lt
  have hb := burnAfterMs.toNat_lt
  have hn := now.toNat_lt
  split_ifs with hle
  · rw [UInt64.le_iff_toNat_le, hsum] at hle
    rw [Int64.toInt_zero]
    omega
  · have hlt := UInt64.le_iff_toNat_le.not.mp hle
    have hsub := UInt64.toNat_sub_of_le (createdAt + burnAfterMs) now
      (UInt64.le_iff_toNat_le.mpr (Nat.le_of_not_le hlt))
    rw [toInt_toInt64, hsub, hsum]
    rw [hsum] at hlt
    split_ifs <;> omega

section

variable {s : BurnTimerState ℕ} {e : BurnEntry ℕ} {convId msgIdx : UInt8}

lemma timer_mem_active (he : some e ∈ s.entries) (hactive : e.active = true) : e.timer ∈ active s := by
  rw [active_eq, List.mem_filterMap]
  exact ⟨some e, he, by rw [timerOf_some, if_pos hactive]⟩

lemma exists_entry {t : Timer} (ht : t ∈ active s) :
    ∃ e, some e ∈ s.entries ∧ e.active = true ∧ e.timer = t := by
  rw [active_eq, List.mem_filterMap] at ht
  obtain ⟨slot, hslot, htimer⟩ := ht
  cases slot with
  | none => cases htimer
  | some e =>
    rw [timerOf_some] at htimer
    split at htimer
    · rename_i hactive
      exact ⟨e, hslot, hactive, Option.some.inj htimer⟩
    · cases htimer

/-- The table has one entry for a message. -/
lemma findEntry_of_mem (hspread : Spread (active s)) (he : some e ∈ s.entries) (hactive : e.active = true) :
    (s.findEntry e.conversationId e.messageIndex).bind (fun idx => s.entries[idx]?.join) = some e := by
  cases hfind : s.findEntry e.conversationId e.messageIndex with
  | none =>
    have hnone := findEntry_none hfind e.timer (timer_mem_active he hactive)
    have hself : e.timer.isFor e.conversationId e.messageIndex = true := Timer.isFor_iff.mpr rfl
    rw [hself] at hnone
    cases hnone
  | some idx =>
    obtain ⟨pre, e', post, hsplit, rfl, hactive', hslot⟩ := findEntry_some hfind
    have htimer : timerOf (some e') = some e'.timer := by rw [timerOf_some, if_pos hactive']
    have hmem : some e = some e' ∨ some e ∈ pre ++ post := by
      rw [hsplit] at he
      simpa [or_left_comm] using he
    rcases hmem with heq | hmem
    · rw [hsplit, Option.bind_some, List.getElem?_append_right (Nat.le_refl _), Nat.sub_self, heq]
      rfl
    · rw [active_eq, hsplit, List.filterMap_append, List.filterMap_cons_some htimer, Spread,
        List.map_append, List.map_cons, List.nodup_middle, ← List.map_append, ← List.filterMap_append,
        hslot] at hspread
      refine absurd (List.mem_map.mpr ⟨e.timer, ?_, rfl⟩) (List.nodup_cons.mp hspread).1
      exact List.mem_filterMap.mpr ⟨some e, hmem, by rw [timerOf_some, if_pos hactive]⟩

lemma remaining_of_mem (hinit : s.initialized = true) (hspread : Spread (active s))
    (he : some e ∈ s.entries) (hactive : e.active = true)
    (hvalid : validateConvId e.conversationId = true ∧ validateMsgIdx e.messageIndex = true) :
    s.remaining e.conversationId e.messageIndex =
      if e.createdAt + e.burnAfterMs ≤ s.tickCount then 0
      else (e.createdAt + e.burnAfterMs - s.tickCount).toInt64 := by
  rw [remaining, if_neg (by simp [hinit]), if_neg (by simp [hvalid]), findEntry_of_mem hspread he hactive]

lemma remaining_of_notMem (h : ∀ t ∈ active s, t.isFor convId msgIdx = false) :
    s.remaining convId msgIdx = -1 := by
  rw [remaining]
  split_ifs
  · rfl
  · rfl
  · cases hfind : s.findEntry convId msgIdx with
    | none => rfl
    | some idx =>
      obtain ⟨pre, e, post, hsplit, -, hactive, hslot⟩ := findEntry_some hfind
      have he : some e ∈ s.entries := by
        rw [hsplit]
        simp
      have hfor := h e.timer (timer_mem_active he hactive)
      rw [Timer.isFor_iff.mpr hslot] at hfor
      cases hfor

end

/-! ### The table and the deadlines -/

def Timer.deadline (t : Timer) : Deadline := ⟨t.conversationId, t.messageIndex, t.number⟩

/-- What holds in every run: the table has the deadlines that there are. -/
structure Scheduled (s : BurnTimerState ℕ) (l : List Deadline) : Prop where
  initialized : s.initialized = true
  length : s.entries.length = maxBurnEntries
  count : s.entryCount = (active s).length
  spread : Spread (active s)
  valid : ∀ t ∈ active s, validateConvId t.conversationId = true ∧ validateMsgIdx t.messageIndex = true
  tag : ∀ e, some e ∈ s.entries → e.active = true → e.tag = e.createdAt.toNat + e.burnAfterMs.toNat
  perm : l.Perm ((active s).map Timer.deadline)

/-- No timer of the table has left the range. -/
def Bounded (s : BurnTimerState ℕ) : Prop :=
  ∀ e, some e ∈ s.entries → e.active = true → e.createdAt.toNat + e.burnAfterMs.toNat < 2 ^ 64 ∧
    e.createdAt.toNat + e.burnAfterMs.toNat < s.tickCount.toNat + 2 ^ 63

namespace Scheduled

variable {s : BurnTimerState ℕ} {l : List Deadline}

lemma length_active_le (h : Scheduled s l) : (active s).length ≤ maxBurnEntries := by
  rw [← h.length]
  exact List.length_filterMap_le _ _

lemma toInt_activeCount (h : Scheduled s l) : s.activeCount.toInt = l.length := by
  have hle := h.length_active_le
  rw [maxBurnEntries] at hle
  rw [activeCount, if_neg (by simp [h.initialized]), h.count, h.perm.length_eq, List.length_map,
    Int32.toInt_ofNat_of_lt (by omega)]

lemma armed_iff (h : Scheduled s l) :
    (∀ d ∈ l, (s.remaining d.conversationId d.messageIndex).toInt = (d.time - s.tickCount.toNat : ℕ)) ↔
      Bounded s := by
  constructor
  · intro harmed e he hactive
    have hmem := timer_mem_active he hactive
    have hleft := harmed e.timer.deadline (h.perm.mem_iff.mpr (List.mem_map_of_mem hmem))
    have hremaining := remaining_of_mem h.initialized h.spread he hactive (h.valid _ hmem)
    have htime : e.timer.deadline.time = e.createdAt.toNat + e.burnAfterMs.toNat := h.tag e he hactive
    rw [htime] at hleft
    exact (left_eq_iff _ _ _).mp ((congrArg Int64.toInt hremaining).symm.trans hleft)
  · intro hbounded d hd
    obtain ⟨t, ht, rfl⟩ := List.mem_map.mp (h.perm.mem_iff.mp hd)
    obtain ⟨e, he, hactive, rfl⟩ := exists_entry ht
    have hremaining := remaining_of_mem h.initialized h.spread he hactive (h.valid _ ht)
    have htime : e.timer.deadline.time = e.createdAt.toNat + e.burnAfterMs.toNat := h.tag e he hactive
    rw [htime]
    exact (congrArg Int64.toInt hremaining).trans ((left_eq_iff _ _ _).mpr (hbounded e he hactive))

lemma disarmed (h : Scheduled s l) {convId msgIdx : UInt8} (hnone : ∀ d ∈ l, d.isFor convId msgIdx = false) :
    s.remaining convId msgIdx = -1 :=
  remaining_of_notMem fun t ht =>
    hnone t.deadline (h.perm.mem_iff.mpr (List.mem_map_of_mem ht))

/-- The kernel is right about its timers exactly if none has left the range. -/
lemma exact_iff (h : Scheduled s l) : Exact s l ↔ Bounded s :=
  ⟨fun hexact => h.armed_iff.mp hexact.armed,
    fun hbounded => ⟨h.armed_iff.mpr hbounded, fun _ _ => h.disarmed, h.toInt_activeCount⟩⟩

end Scheduled

/-! ### What a call keeps -/

section

variable {s : BurnTimerState ℕ} {l : List Deadline} {convId msgIdx : UInt8}

lemma deadline_filter {p : Timer → Bool} {q : Deadline → Bool} (hpq : ∀ t, q t.deadline = p t)
    (h : l.Perm ((active s).map Timer.deadline)) {s' : BurnTimerState ℕ}
    (hactive : active s' = (active s).filter p) : (l.filter q).Perm ((active s').map Timer.deadline) := by
  rw [hactive]
  refine (h.filter q).trans ?_
  rw [List.filter_map]
  exact .of_eq (congrArg (List.map Timer.deadline) (List.filter_congr fun t _ => hpq t))

/-- Some timers are dropped, and nothing else changes. -/
lemma Scheduled.filter (h : Scheduled s l) {s' : BurnTimerState ℕ} {p : Timer → Bool} {q : Deadline → Bool}
    (hpq : ∀ t, q t.deadline = p t) (hinit : s'.initialized = true)
    (hlength : s'.entries.length = s.entries.length) (hactive : active s' = (active s).filter p)
    (hcount : s'.entryCount = (active s').length)
    (hsub : ∀ e, some e ∈ s'.entries → some e ∈ s.entries) : Scheduled s' (l.filter q) where
  initialized := hinit
  length := hlength.trans h.length
  count := hcount
  spread := by
    rw [hactive]
    exact List.Nodup.sublist (List.filter_sublist.map Timer.slot) h.spread
  valid t ht := by
    rw [hactive] at ht
    exact h.valid t (List.mem_of_mem_filter ht)
  tag e he := h.tag e (hsub e he)
  perm := deadline_filter hpq h.perm hactive

lemma length_filter_not {p : Timer → Bool} (ts : List Timer) :
    (ts.filter fun t => !p t).length = ts.length - ts.countP p := by
  rw [List.length_eq_countP_add_countP p (l := ts), ← List.countP_eq_length_filter]
  simp

lemma sub_of_clear {idx : ℕ} (e : BurnEntry ℕ) (h : some e ∈ (s.clear idx).entries) : some e ∈ s.entries := by
  rcases List.mem_or_eq_of_mem_set h with h | h
  · exact h
  · cases h

lemma Scheduled.giveUp (h : Scheduled s l) (convId msgIdx : UInt8) :
    Scheduled (s.giveUp convId msgIdx) (l.filter fun d => !d.isFor convId msgIdx) := by
  refine h.filter (p := fun t => !t.isFor convId msgIdx) (fun _ => rfl) ?_ ?_ (active_giveUp h.spread) ?_ ?_
  · rw [initialized_giveUp, h.initialized]
  · rw [BurnTimerState.giveUp]
    cases s.findEntry convId msgIdx with
    | none => rfl
    | some idx => exact List.length_set
  · rw [BurnTimerState.giveUp]
    cases hfind : s.findEntry convId msgIdx with
    | none => exact h.count
    | some idx =>
      obtain ⟨pre, e, post, hsplit, rfl, hactive, -⟩ := findEntry_some hfind
      have htimer : timerOf (some e) = some e.timer := by rw [timerOf_some, if_pos hactive]
      have hcount := h.count
      have hset : (s.clear pre.length).entries = pre ++ none :: post := by simp [clear, hsplit]
      rw [active_eq, hsplit, List.filterMap_append, List.filterMap_cons_some htimer] at hcount
      rw [active_eq, hset, List.filterMap_append, List.filterMap_cons_none timerOf_none]
      have hclear : (s.clear pre.length).entryCount = s.entryCount - 1 := rfl
      simp only [List.length_append, List.length_cons] at hcount ⊢
      rw [hclear, hcount]
      omega
  · intro e he
    rw [BurnTimerState.giveUp] at he
    cases hfind : s.findEntry convId msgIdx with
    | none => rwa [hfind] at he
    | some idx =>
      rw [hfind] at he
      exact sub_of_clear e he

/-- A new timer. -/
lemma Scheduled.place (h : Scheduled s l) {slot : ℕ} (hslot : s.findFreeSlot = some slot)
    (hvalid : validateConvId convId = true ∧ validateMsgIdx msgIdx = true)
    (hnew : ∀ t ∈ active s, t.isFor convId msgIdx = false) (burnAfterMs : UInt64) :
    Scheduled (s.place (s.tickCount.toNat + burnAfterMs.toNat) convId msgIdx burnAfterMs).2
      (⟨convId, msgIdx, s.tickCount.toNat + burnAfterMs.toNat⟩ :: l) := by
  have hactive : (active (s.place (s.tickCount.toNat + burnAfterMs.toNat) convId msgIdx burnAfterMs).2).Perm
      (⟨s.tickCount.toNat + burnAfterMs.toNat, convId, msgIdx⟩ :: active s) := active_place hslot
  have hplace : (s.place (s.tickCount.toNat + burnAfterMs.toNat) convId msgIdx burnAfterMs).2 =
      { s with
        entries := s.entries.set slot (some ⟨convId, msgIdx, s.tickCount, burnAfterMs, true,
          s.tickCount.toNat + burnAfterMs.toNat⟩)
        entryCount := s.entryCount + 1 } := by
    rw [BurnTimerState.place, hslot]
  refine ⟨?_, ?_, ?_, ?_, fun t ht => ?_, fun e he hactive' => ?_, ?_⟩
  · rw [hplace]
    exact h.initialized
  · rw [hplace]
    exact List.length_set.trans h.length
  · rw [hactive.length_eq, hplace]
    exact congrArg (· + 1) h.count
  · rw [Spread, (hactive.map Timer.slot).nodup_iff, List.map_cons, List.nodup_cons]
    refine ⟨fun hmem => ?_, h.spread⟩
    obtain ⟨t, ht, hslot'⟩ := List.mem_map.mp hmem
    have hfor := hnew t ht
    rw [Timer.isFor_iff.mpr hslot'] at hfor
    cases hfor
  · rcases List.mem_cons.mp (hactive.mem_iff.mp ht) with rfl | ht
    · exact hvalid
    · exact h.valid t ht
  · rw [hplace] at he
    rcases List.mem_or_eq_of_mem_set he with he | he
    · exact h.tag e he hactive'
    · obtain rfl := Option.some.inj he
      rfl
  · exact (h.perm.cons _).trans (hactive.map Timer.deadline).symm

lemma Bounded.of_sub (h : Bounded s) {s' : BurnTimerState ℕ} (htick : s'.tickCount = s.tickCount)
    (hsub : ∀ e, some e ∈ s'.entries → some e ∈ s.entries) : Bounded s' := by
  intro e he hactive
  rw [htick]
  exact h e (hsub e he) hactive

lemma sub_of_giveUp (e : BurnEntry ℕ) (h : some e ∈ (s.giveUp convId msgIdx).entries) :
    some e ∈ s.entries := by
  rw [giveUp] at h
  split at h
  · exact sub_of_clear e h
  · exact h

lemma tickCount_giveUp : (s.giveUp convId msgIdx).tickCount = s.tickCount := by
  rw [giveUp]
  split <;> rfl

/-- What a call leaves, of the table and of the range. -/
structure Next (c : Call) (s s' : BurnTimerState ℕ) (l' : List Deadline) : Prop where
  scheduled : Scheduled s' l'
  bounded_iff : Bounded s' ↔ InRange c s

lemma next_set (h : Scheduled s l) (hbounded : Bounded s) (convId msgIdx : UInt8) (burnAfterMs : UInt64) :
    Next (.call (.set convId msgIdx burnAfterMs)) s (timed.next (.call (.set convId msgIdx burnAfterMs)) (s, l)).1
      (timed.next (.call (.set convId msgIdx burnAfterMs)) (s, l)).2 := by
  have hnext : timed.next (.call (.set convId msgIdx burnAfterMs)) (s, l) =
      ((s.setTimer (s.tickCount.toNat + burnAfterMs.toNat) convId msgIdx burnAfterMs).2,
        if succeeded (s.setTimer (s.tickCount.toNat + burnAfterMs.toNat) convId msgIdx burnAfterMs).1 then
          ⟨convId, msgIdx, s.tickCount.toNat + burnAfterMs.toNat⟩ :: l.filter fun d => !d.isFor convId msgIdx
        else l) := rfl
  rw [hnext]
  rcases setTimer_cases h.initialized (s.tickCount.toNat + burnAfterMs.toNat) burnAfterMs with
    ⟨hsettable, slot, hslot, heq⟩ | ⟨hsettable, code, hcode, heq⟩
  · have hnew : ∀ t ∈ active (s.giveUp convId msgIdx), t.isFor convId msgIdx = false := by
      intro t ht
      rw [active_giveUp h.spread] at ht
      simpa using (List.mem_filter.mp ht).2
    have hgiveUp := h.giveUp convId msgIdx
    have hplace := hgiveUp.place hslot ⟨hsettable.1, hsettable.2.1⟩ hnew burnAfterMs
    rw [tickCount_giveUp] at hplace
    rw [heq, if_pos succeeded_espOk]
    refine ⟨hplace, ?_⟩
    have htick : ((s.giveUp convId msgIdx).place (s.tickCount.toNat + burnAfterMs.toNat) convId msgIdx
        burnAfterMs).2.tickCount = s.tickCount := by
      rw [place, hslot]
      exact tickCount_giveUp
    constructor
    · intro hb _
      have hmem : (⟨s.tickCount.toNat + burnAfterMs.toNat, convId, msgIdx⟩ : Timer) ∈
          active ((s.giveUp convId msgIdx).place (s.tickCount.toNat + burnAfterMs.toNat) convId msgIdx
            burnAfterMs).2 := (active_place hslot).mem_iff.mpr List.mem_cons_self
      obtain ⟨e, he, hactive, htimer⟩ := exists_entry hmem
      have htag := hplace.tag e he hactive
      have hsum : e.tag = s.tickCount.toNat + burnAfterMs.toNat := congrArg Timer.number htimer
      have hrange := hb e he hactive
      rw [← htag, hsum, htick] at hrange
      omega
    · intro hrange
      obtain ⟨hsum, hburn⟩ := hrange hsettable
      intro e he hactive
      rw [htick]
      rw [place, hslot] at he
      rcases List.mem_or_eq_of_mem_set he with he | he
      · exact hbounded e (sub_of_giveUp e he) hactive
      · obtain rfl := Option.some.inj he
        rw [tickCount_giveUp]
        exact ⟨hsum, Nat.add_lt_add_left hburn _⟩
  · rw [heq, if_neg (by simp [hcode])]
    exact ⟨h, iff_of_true hbounded fun hset => absurd hset hsettable⟩

lemma next_cancel (h : Scheduled s l) (hbounded : Bounded s) (convId msgIdx : UInt8) :
    Next (.call (.cancel convId msgIdx)) s (timed.next (.call (.cancel convId msgIdx)) (s, l)).1
      (timed.next (.call (.cancel convId msgIdx)) (s, l)).2 := by
  have hnext : timed.next (.call (.cancel convId msgIdx)) (s, l) =
      ((s.cancelTimer convId msgIdx).2,
        if succeeded (s.cancelTimer convId msgIdx).1 then l.filter fun d => !d.isFor convId msgIdx
        else l) := rfl
  rw [hnext]
  rcases cancelTimer_cases h.initialized with ⟨heq, -⟩ | ⟨code, hcode, heq⟩
  · rw [heq, if_pos succeeded_espOk]
    exact ⟨h.giveUp convId msgIdx, iff_of_true (hbounded.of_sub tickCount_giveUp sub_of_giveUp) trivial⟩
  · rw [heq, if_neg (by simp [hcode])]
    exact ⟨h, iff_of_true hbounded trivial⟩

lemma sub_of_filter {p : BurnEntry ℕ → Bool} {slots : List (Option (BurnEntry ℕ))} {e : BurnEntry ℕ}
    (he : some e ∈ slots.map fun slot => slot.filter p) : some e ∈ slots ∧ p e = true := by
  obtain ⟨slot, hslot, hfilter⟩ := List.mem_map.mp he
  obtain ⟨rfl, hp⟩ := Option.filter_eq_some_iff.mp hfilter
  exact ⟨hslot, hp⟩

lemma countP_isOf (slots : List (Option (BurnEntry ℕ))) (convId : UInt8) :
    (slots.countP fun slot => slot.any (BurnEntry.isOf convId)) =
      (slots.filterMap timerOf).countP (Timer.isOf convId) := by
  induction slots with
  | nil => rfl
  | cons slot slots ih =>
    cases slot with
    | none => exact ih
    | some e =>
      rw [List.countP_cons, ih, List.filterMap_cons, timerOf_some]
      by_cases hactive : e.active = true
      · rw [if_pos hactive, List.countP_cons, Option.any_some, isOf_timer hactive]
      · have hof : e.isOf convId = false := by simp [BurnEntry.isOf, hactive]
        rw [if_neg hactive, Option.any_some, hof]
        rfl

lemma next_cancelConversation (h : Scheduled s l) (hbounded : Bounded s) (convId : UInt8) :
    Next (.call (.cancelConversation convId)) s (timed.next (.call (.cancelConversation convId)) (s, l)).1
      (timed.next (.call (.cancelConversation convId)) (s, l)).2 := by
  have hnext : timed.next (.call (.cancelConversation convId)) (s, l) =
      ((s.cancelConversation convId).2,
        if succeeded (s.cancelConversation convId).1 then l.filter fun d => !d.isOf convId else l) := rfl
  rw [hnext, cancelConversation, if_neg (by simp [h.initialized])]
  by_cases hvalid : validateConvId convId = true
  · have hactive : (s.entries.map fun slot => slot.filter fun e => !e.isOf convId).filterMap timerOf =
        (active s).filter fun t => !t.isOf convId :=
      filterMap_timerOf_filter fun _ _ hactive => by rw [isOf_timer hactive]
    rw [if_neg (by simp [hvalid]), if_pos succeeded_espOk]
    refine ⟨h.filter (fun _ => rfl) h.initialized (List.length_map _) hactive ?_ fun e he => (sub_of_filter he).1,
      ?_⟩
    · rw [active_eq, hactive, length_filter_not, ← h.count, active_eq, ← countP_isOf]
    · exact iff_of_true (hbounded.of_sub rfl fun e he => (sub_of_filter he).1) trivial
  · rw [if_pos (by simpa using hvalid), if_neg (by simp [succeeded_espErrInvalidArg])]
    exact ⟨h, iff_of_true hbounded trivial⟩

/-! A tick finds the timers to be due whose deadlines it has reached. -/

lemma isDue_eq (h : Scheduled s l) (hbounded : Bounded s) (now : UInt64) {e : BurnEntry ℕ}
    (he : some e ∈ s.entries) (hactive : e.active = true) : e.isDue now = e.timer.deadline.isDue now := by
  have htag : e.timer.deadline.time = e.createdAt.toNat + e.burnAfterMs.toNat := h.tag e he hactive
  have hsum := UInt64.toNat_add e.createdAt e.burnAfterMs
  rw [Nat.mod_eq_of_lt (hbounded e he hactive).1] at hsum
  rw [BurnEntry.isDue, hactive, Bool.true_and, Deadline.isDue, htag, ← hsum]
  exact decide_eq_decide.mpr UInt64.le_iff_toNat_le

lemma active_map_tick (h : Scheduled s l) (hbounded : Bounded s) (now : UInt64) :
    (s.entries.map fun slot => slot.filter fun e => !e.isDue now).filterMap timerOf =
      (active s).filter fun t => !t.deadline.isDue now :=
  filterMap_timerOf_filter fun e he hactive => by rw [isDue_eq h hbounded now he hactive]

lemma length_due (h : Scheduled s l) (hbounded : Bounded s) (now : UInt64) :
    (due now s.entries).length = l.countP (Deadline.isDue now) := by
  have hlength := (due_perm now s.entries).length_eq
  rw [List.length_append, active_map_tick h hbounded, length_filter_not, List.length_map, ← active_eq] at hlength
  have hle := List.countP_le_length (p := fun t : Timer => t.deadline.isDue now) (l := active s)
  rw [h.perm.countP_eq, List.countP_map]
  change _ = (active s).countP fun t => t.deadline.isDue now
  omega

lemma tick_eq (h : Scheduled s l) (now : UInt64) :
    s.tick now = (.ofNat (due now s.entries).length, { s with
      entries := s.entries.map fun slot => slot.filter fun e => !e.isDue now
      expiredQueue := s.expiredQueue ++
        ((due now s.entries).map BurnEntry.expired).take (maxExpiredQueue - s.expiredQueue.length)
      entryCount := s.entryCount - (due now s.entries).length
      tickCount := now
      totalBurned := s.totalBurned + .ofNat (due now s.entries).length }) := by
  rw [tick, if_neg (by simp [h.initialized]), expire_eq]

lemma next_tick (h : Scheduled s l) (hbounded : Bounded s) (now : UInt64) :
    Next (.call (.tick now)) s (s.tick now).2 (l.filter fun d => !d.isDue now) := by
  have hactive := active_map_tick h hbounded now
  have hdue := length_due h hbounded now
  rw [tick_eq h]
  refine ⟨h.filter (p := fun t => !t.deadline.isDue now) (fun _ => rfl) h.initialized (List.length_map _) hactive ?_
    fun e he => (sub_of_filter he).1, ?_⟩
  · change s.entryCount - (due now s.entries).length =
      ((s.entries.map fun slot => slot.filter fun e => !e.isDue now).filterMap timerOf).length
    rw [hactive, length_filter_not, h.count, hdue, h.perm.countP_eq, List.countP_map]
    rfl
  · constructor
    · intro hb e he hactive
      by_cases hnow : e.isDue now = true
      · rw [isDue_eq h hbounded now he hactive] at hnow
        have htag : e.timer.deadline.time = e.createdAt.toNat + e.burnAfterMs.toNat := h.tag e he hactive
        have hle := of_decide_eq_true hnow
        omega
      · refine (hb e (List.mem_map.mpr ⟨_, he, ?_⟩) hactive).2
        rw [Option.filter_some, if_pos (by simpa using hnow)]
    · intro hrange e he hactive
      have he := (sub_of_filter he).1
      exact ⟨(hbounded e he hactive).1, hrange e he hactive⟩

lemma active_replicate (n : ℕ) : (List.replicate n (none : Option (BurnEntry ℕ))).filterMap timerOf = [] := by
  rw [List.filterMap_replicate_of_none timerOf_none]

/-- No timer is left. -/
lemma scheduled_nil (hinit : s.initialized = true) (hentries : s.entries = List.replicate maxBurnEntries none)
    (hcount : s.entryCount = 0) : Scheduled s [] ∧ Bounded s := by
  have hactive : active s = [] := by rw [active_eq, hentries, active_replicate]
  have hnone : ∀ e, some e ∉ s.entries := by
    intro e he
    rw [hentries] at he
    cases List.eq_of_mem_replicate he
  refine ⟨⟨hinit, ?_, ?_, ?_, ?_, fun e he => absurd he (hnone e), ?_⟩, fun e he => absurd he (hnone e)⟩
  · rw [hentries, List.length_replicate]
  · rw [hcount, hactive, List.length_nil]
  · rw [hactive]
    exact .nil
  · rw [hactive]
    exact fun t ht => absurd ht List.not_mem_nil
  · rw [hactive]
    exact .nil

lemma scheduled_start : Scheduled startTimed.1 startTimed.2 ∧ Bounded startTimed.1 := scheduled_nil rfl rfl rfl

/-- What a call leaves, where all timers are in the range. -/
lemma next (h : Scheduled s l) (hbounded : Bounded s) (c : Call) :
    Next c s (timed.next c (s, l)).1 (timed.next c (s, l)).2 := by
  cases c with
  | call o =>
    cases o with
    | set convId msgIdx burnAfterMs => exact next_set h hbounded convId msgIdx burnAfterMs
    | cancel convId msgIdx => exact next_cancel h hbounded convId msgIdx
    | cancelConversation convId => exact next_cancelConversation h hbounded convId
    | tick now => exact next_tick h hbounded now
    | getExpired room =>
      have hnext : timed.next (.call (.getExpired room)) (s, l) = ((s.getExpired room).2, l) := rfl
      rw [hnext, getExpired, if_neg (by simp [h.initialized])]
      exact ⟨⟨h.initialized, h.length, h.count, h.spread, h.valid, h.tag, h.perm⟩, iff_of_true hbounded trivial⟩
  | clearAll =>
    have hnext : timed.next .clearAll (s, l) = ((s.clearAll).2, []) := rfl
    rw [hnext, clearAll, if_neg (by simp [h.initialized])]
    obtain ⟨hscheduled, hbounded⟩ := scheduled_nil (s := { s with
      entries := List.replicate maxBurnEntries none, entryCount := 0, expiredQueue := [] }) h.initialized rfl rfl
    exact ⟨hscheduled, iff_of_true hbounded trivial⟩
  | init => exact ⟨scheduled_start.1, iff_of_true scheduled_start.2 trivial⟩

/-! ### What is to hold of a call -/

lemma reported_tick (h : Scheduled s l) (hbounded : Bounded s) (now : UInt64) :
    (s.tick now).1.toInt = (l.countP (Deadline.isDue now) : ℕ) := by
  have hle := List.countP_le_length (p := Deadline.isDue now) (l := l)
  rw [h.perm.length_eq.trans (List.length_map _)] at hle
  have hactive := h.length_active_le
  rw [maxBurnEntries] at hactive
  rw [tick_eq h, length_due h hbounded, Int32.toInt_ofNat_of_lt (by omega)]

/-- The time that a timer has left does not grow while the clock advances. -/
lemma advancing_tick (h : Scheduled s l) (hbounded : Bounded s) {now : UInt64} (hle : s.tickCount ≤ now)
    (convId msgIdx : UInt8) :
    ((s.tick now).2.remaining convId msgIdx).toInt ≤ (s.remaining convId msgIdx).toInt := by
  have hle := UInt64.le_iff_toNat_le.mp hle
  obtain ⟨hnext, hiff⟩ := next_tick h hbounded now
  have hkept : Bounded (s.tick now).2 := by
    refine hiff.mpr fun e he hactive => ?_
    have hrange := (hbounded e he hactive).2
    omega
  have hbefore := h.exact_iff.mpr hbounded
  have hafter := hnext.exact_iff.mpr hkept
  have htick : (s.tick now).2.tickCount = now := by rw [tick_eq h]
  by_cases hsome : ∃ d ∈ l.filter (fun d => !d.isDue now), d.isFor convId msgIdx = true
  · obtain ⟨d, hd, hfor⟩ := hsome
    simp only [Deadline.isFor, Bool.and_eq_true, beq_iff_eq] at hfor
    obtain ⟨rfl, rfl⟩ := hfor
    rw [hafter.armed d hd, hbefore.armed d (List.mem_of_mem_filter hd), htick]
    omega
  · have hnone : ∀ d ∈ l.filter (fun d => !d.isDue now), d.isFor convId msgIdx = false := by
      intro d hd
      rw [Bool.eq_false_iff]
      exact fun hfor => hsome ⟨d, hd, hfor⟩
    rw [hafter.disarmed _ _ hnone]
    by_cases hwas : ∃ d ∈ l, d.isFor convId msgIdx = true
    · obtain ⟨d, hd, hfor⟩ := hwas
      simp only [Deadline.isFor, Bool.and_eq_true, beq_iff_eq] at hfor
      obtain ⟨rfl, rfl⟩ := hfor
      rw [hbefore.armed d hd]
      exact Int.le_trans (by decide) (Int.natCast_nonneg _)
    · have hnone : ∀ d ∈ l, d.isFor convId msgIdx = false := by
        intro d hd
        rw [Bool.eq_false_iff]
        exact fun hfor => hwas ⟨d, hd, hfor⟩
      exact Int.le_of_eq (congrArg Int64.toInt (hbefore.disarmed _ _ hnone).symm)

lemma timely_iff (h : Scheduled s l) (hbounded : Bounded s) (c : Call) :
    Timely c (s, l) ↔ InRange c s := by
  have hnext := next h hbounded c
  rw [← hnext.bounded_iff, ← hnext.scheduled.exact_iff]
  constructor
  · exact fun htimely => htimely.exact
  · intro hexact
    refine ⟨hexact, ?_, ?_⟩
    · rintro now rfl
      exact reported_tick h hbounded now
    · rintro now convId msgIdx rfl hle
      exact advancing_tick h hbounded hle convId msgIdx

end

/-! ### Runs -/

lemma timely_along (cs : List Call) :
    timed.Along Timely startTimed cs ↔ timed.Along (fun c w => InRange c w.1) startTimed cs := by
  refine Component.along_iff (I := fun w => Scheduled w.1 w.2 ∧ Bounded w.1) ?_ ?_ scheduled_start
  · exact fun c w h => timely_iff h.1 h.2 c
  · intro c w h hrange
    have hnext := next h.1 h.2 c
    exact ⟨hnext.scheduled, hnext.bounded_iff.mpr hrange⟩

lemma callStep_forget (n : ℕ) (c : Call) (s : BurnTimerState ℕ) :
    (callStep n c s).2.forget = burnTimerCalls.next c s.forget := by
  cases c with
  | call o => exact step_forget n o s
  | clearAll =>
    change (s.clearAll).2.forget = (s.forget.clearAll).2
    have hinit : s.forget.initialized = s.initialized := rfl
    rw [clearAll, clearAll, hinit]
    split_ifs
    · rfl
    · simp [forget]
  | init =>
    change (init : BurnTimerState ℕ).forget = init
    simp [forget, init]

lemma timed_next_forget (c : Call) (w : BurnTimerState ℕ × List Deadline) :
    (timed.next c w).1.forget = burnTimerCalls.next c w.1.forget :=
  callStep_forget (newTag c w.1) c w.1

/-- The condition looks at nothing that the deadlines change. -/
lemma inRange_forget (c : Call) (s : BurnTimerState ℕ) : InRange c s.forget ↔ InRange c s := by
  cases c with
  | call o =>
    cases o with
    | set convId msgIdx burnAfterMs =>
      simp only [InRange, Settable, findEntry_forget, findFreeSlot_forget]
      rfl
    | tick now =>
      simp only [InRange]
      constructor
      · intro h e he hactive
        exact h e.forget (List.mem_map.mpr ⟨some e, he, rfl⟩) hactive
      · intro h e he hactive
        obtain ⟨slot, hslot, heq⟩ := List.mem_map.mp he
        obtain ⟨e, rfl, rfl⟩ := Option.map_eq_some_iff.mp heq
        exact h e hslot hactive
    | _ => exact Iff.rfl
  | _ => exact Iff.rfl

/-- The timers of a run burn when they are to burn, and the kernel is right about them, exactly if nothing
leaves the range. -/
theorem timely_along_iff (cs : List Call) :
    (timed.run startTimed cs).1.forget = burnTimerCalls.run .init cs ∧
      (timed.Along Timely startTimed cs ↔ burnTimerCalls.Along InRange .init cs) := by
  have hstart : startTimed.1.forget = .init := by simp [startTimed, forget, init]
  have hrun := Component.run_map (f := fun w : BurnTimerState ℕ × List Deadline => w.1.forget)
    timed_next_forget cs startTimed
  have halong : timed.Along (fun c w => InRange c w.1.forget) startTimed cs ↔
      burnTimerCalls.Along InRange startTimed.1.forget cs :=
    Component.along_map (f := fun w : BurnTimerState ℕ × List Deadline => w.1.forget) timed_next_forget
  rw [hstart] at hrun halong
  have hforget : timed.Along (fun c w => InRange c w.1) startTimed cs ↔
      timed.Along (fun c w => InRange c w.1.forget) startTimed cs :=
    ⟨fun h => h.mono fun c w => (inRange_forget c w.1).mpr, fun h => h.mono fun c w => (inRange_forget c w.1).mp⟩
  exact ⟨hrun, (timely_along cs).trans (hforget.trans halong)⟩

/-- A timer that is never to burn. -/
theorem never_not_timely :
    ¬ timed.Along Timely startTimed [.call (.tick 5), .call (.set 0 0 0xFFFFFFFFFFFFFFFF)] := by
  intro h
  have hrange := (timely_along _).mp h [.call (.tick 5)] (.call (.set 0 0 0xFFFFFFFFFFFFFFFF)) [] rfl
  exact absurd (hrange ⟨by decide, by decide, .inr (by decide)⟩).2 (by decide)

end ThistleOS.BurnTimer
