import Mathlib.Data.List.Perm.Lattice
import ThistleOS.Kernel.BurnTimer

/-!
# What becomes of a timer

A ledger that an observer keeps of the calls and their answers: the timers that were set, each with
its number, which are delivered, and which are overridden by a later call. No burn is lost or goes to
the wrong message when every timer is active, waiting, delivered or overridden, and only one of these.
-/

namespace ThistleOS.BurnTimer

open BurnTimerState

/-- A timer that was set. -/
structure Timer where
  number : ℕ
  conversationId : UInt8
  messageIndex : UInt8
  deriving DecidableEq

def BurnEntry.timer (e : BurnEntry ℕ) : Timer := ⟨e.tag, e.conversationId, e.messageIndex⟩

def CBurnExpired.timer (r : CBurnExpired ℕ) : Timer := ⟨r.tag, r.conversationId, r.messageIndex⟩

@[simp] lemma timer_expired (e : BurnEntry ℕ) : e.expired.timer = e.timer := rfl

/-- What the observer knows. -/
structure Ledger where
  timers : List Timer
  delivered : List Timer
  overridden : List Timer

namespace Ledger

def empty : Ledger := ⟨[], [], []⟩

/-- The timers that satisfy `p` and have come to no end are overridden. -/
def override (p : Timer → Bool) (l : Ledger) : Ledger :=
  { l with
    overridden := l.overridden ++ l.timers.filter (fun t =>
      p t && !l.delivered.contains t && !l.overridden.contains t) }

def add (convId msgIdx : UInt8) (l : Ledger) : Ledger :=
  { l with timers := l.timers ++ [⟨l.timers.length, convId, msgIdx⟩] }

def deliver (records : List (CBurnExpired ℕ)) (l : Ledger) : Ledger :=
  { l with delivered := l.delivered ++ records.map CBurnExpired.timer }

end Ledger

namespace Timer

def isFor (convId msgIdx : UInt8) (t : Timer) : Bool :=
  t.conversationId == convId && t.messageIndex == msgIdx

def isOf (convId : UInt8) (t : Timer) : Bool := t.conversationId == convId

end Timer

def succeeded (code : EspErr) : Bool := code == espOk

lemma succeeded_espOk : succeeded espOk = true := by decide

lemma succeeded_espErrInvalidArg : succeeded espErrInvalidArg = false := by decide

/-- The entry of a call in the ledger. -/
def record : (o : Op) → Reply ℕ o → Ledger → Ledger
  | .set convId msgIdx _, reply, l =>
    if succeeded reply then (l.override (Timer.isFor convId msgIdx)).add convId msgIdx else l
  | .cancel convId msgIdx, reply, l =>
    if succeeded reply then l.override (Timer.isFor convId msgIdx) else l
  | .cancelConversation convId, reply, l =>
    if succeeded reply then l.override (Timer.isOf convId) else l
  | .tick _, _, l => l
  | .getExpired _, .ok records, l => l.deliver records
  | .getExpired _, .error _, l => l

/-- The burn timers next to the ledger. A new timer is tagged with its number. -/
def watched : Component Op (Reply ℕ) (BurnTimerState ℕ × Ledger) where
  step o w :=
    let answer := step w.2.timers.length o w.1
    (answer.1, (answer.2, record o answer.1 w.2))

def start : BurnTimerState ℕ × Ledger := (.init, .empty)

/-! ### The numbers change nothing -/

def BurnEntry.forget (e : BurnEntry ℕ) : BurnEntry Unit := { e with tag := () }

def CBurnExpired.forget (r : CBurnExpired ℕ) : CBurnExpired Unit := { r with tag := () }

def BurnTimerState.forget (s : BurnTimerState ℕ) : BurnTimerState Unit :=
  { s with
    entries := s.entries.map (Option.map BurnEntry.forget)
    expiredQueue := s.expiredQueue.map CBurnExpired.forget }

namespace BurnTimerState

variable (s : BurnTimerState ℕ)

lemma findIdx?_forget (p : BurnEntry Unit → Bool) (q : BurnEntry ℕ → Bool) (hpq : ∀ e, p e.forget = q e) :
    (s.forget.entries.findIdx? fun slot => slot.any p) = s.entries.findIdx? fun slot => slot.any q := by
  rw [forget, List.findIdx?_map]
  congr 1
  funext slot
  cases slot with
  | none => rfl
  | some e => exact hpq e

lemma findEntry_forget (convId msgIdx : UInt8) :
    s.forget.findEntry convId msgIdx = s.findEntry convId msgIdx :=
  findIdx?_forget s _ _ fun _ => rfl

lemma findFreeSlot_forget : s.forget.findFreeSlot = s.findFreeSlot := by
  rw [findFreeSlot, findFreeSlot, forget, List.findIdx?_map]
  congr 1
  funext slot
  cases slot <;> rfl

lemma clear_forget (idx : ℕ) : (s.clear idx).forget = s.forget.clear idx := by
  simp [clear, forget]

lemma giveUp_forget (convId msgIdx : UInt8) :
    (s.giveUp convId msgIdx).forget = s.forget.giveUp convId msgIdx := by
  rw [giveUp, giveUp, findEntry_forget]
  cases s.findEntry convId msgIdx with
  | none => rfl
  | some idx => exact clear_forget s idx

lemma place_forget (n : ℕ) (convId msgIdx : UInt8) (burnAfterMs : UInt64) :
    (s.place n convId msgIdx burnAfterMs).2.forget =
      (s.forget.place () convId msgIdx burnAfterMs).2 := by
  rw [place, place, findFreeSlot_forget]
  cases s.findFreeSlot with
  | none => rfl
  | some slot => simp [forget, BurnEntry.forget]

lemma setTimer_forget (n : ℕ) (convId msgIdx : UInt8) (burnAfterMs : UInt64) :
    (s.setTimer n convId msgIdx burnAfterMs).2.forget =
      (s.forget.setTimer () convId msgIdx burnAfterMs).2 := by
  have hinit : s.forget.initialized = s.initialized := rfl
  rw [setTimer, setTimer, hinit, ← giveUp_forget]
  split_ifs
  · rfl
  · rfl
  · exact place_forget _ n convId msgIdx burnAfterMs

lemma cancelTimer_forget (convId msgIdx : UInt8) :
    (s.cancelTimer convId msgIdx).2.forget = (s.forget.cancelTimer convId msgIdx).2 := by
  have hinit : s.forget.initialized = s.initialized := rfl
  rw [cancelTimer, cancelTimer, hinit, findEntry_forget]
  split_ifs
  · rfl
  · rfl
  · cases s.findEntry convId msgIdx with
    | none => rfl
    | some idx => exact clear_forget s idx

lemma map_filter_forget (p : BurnEntry Unit → Bool) (q : BurnEntry ℕ → Bool)
    (hpq : ∀ e, p e.forget = q e) (slots : List (Option (BurnEntry ℕ))) :
    (slots.map fun slot => slot.filter q).map (Option.map BurnEntry.forget) =
      (slots.map (Option.map BurnEntry.forget)).map fun slot => slot.filter p := by
  rw [List.map_map, List.map_map]
  refine List.map_congr_left fun slot _ => ?_
  cases slot with
  | none => rfl
  | some e =>
    rw [Function.comp_apply, Function.comp_apply, Option.map_some, Option.filter_some,
      Option.filter_some, hpq]
    split_ifs <;> rfl

lemma cancelConversation_forget (convId : UInt8) :
    (s.cancelConversation convId).2.forget = (s.forget.cancelConversation convId).2 := by
  have hinit : s.forget.initialized = s.initialized := rfl
  have hentries := map_filter_forget (fun e => !e.isOf convId) (fun e => !e.isOf convId)
    (fun _ => rfl) s.entries
  have hcount : (s.entries.countP fun slot => slot.any (BurnEntry.isOf convId)) =
      (s.entries.map (Option.map BurnEntry.forget)).countP fun slot =>
        slot.any (BurnEntry.isOf convId) := by
    rw [List.countP_map]
    congr 1
    funext slot
    cases slot <;> rfl
  rw [cancelConversation, cancelConversation, hinit]
  split_ifs
  · rfl
  · rfl
  · simp only [forget, hentries, hcount]

lemma due_forget (now : UInt64) (slots : List (Option (BurnEntry ℕ))) :
    due now (slots.map (Option.map BurnEntry.forget)) = (due now slots).map BurnEntry.forget := by
  induction slots with
  | nil => rfl
  | cons slot slots ih =>
    cases slot with
    | none => simpa using ih
    | some e =>
      have hdue : e.forget.isDue now = e.isDue now := rfl
      rw [List.map_cons, Option.map_some, due_some, due_some, ih, hdue]
      split_ifs <;> rfl

lemma tick_forget (now : UInt64) : (s.tick now).2.forget = (s.forget.tick now).2 := by
  have hinit : s.forget.initialized = s.initialized := rfl
  have hentries := map_filter_forget (fun e => !e.isDue now) (fun e => !e.isDue now)
    (fun _ => rfl) s.entries
  rw [tick, tick, hinit, expire_eq, expire_eq]
  split_ifs
  · rfl
  · simp only [forget, hentries, due_forget, List.map_append, List.map_take, List.map_map,
      List.length_map]
    rfl

lemma getExpired_forget (room : ℕ) : (s.getExpired room).2.forget = (s.forget.getExpired room).2 := by
  have hinit : s.forget.initialized = s.initialized := rfl
  rw [getExpired, getExpired, hinit]
  split_ifs
  · rfl
  · simp only [forget, List.map_drop, List.length_map]

end BurnTimerState

lemma step_forget (n : ℕ) (o : Op) (s : BurnTimerState ℕ) :
    (step n o s).2.forget = burnTimers.next o s.forget := by
  cases o with
  | set convId msgIdx burnAfterMs => exact setTimer_forget s n convId msgIdx burnAfterMs
  | cancel convId msgIdx => exact cancelTimer_forget s convId msgIdx
  | cancelConversation convId => exact cancelConversation_forget s convId
  | tick now => exact tick_forget s now
  | getExpired room => exact getExpired_forget s room

theorem run_forget (ops : List Op) (w : BurnTimerState ℕ × Ledger) :
    (watched.run w ops).1.forget = burnTimers.run w.1.forget ops := by
  induction ops generalizing w with
  | nil => rfl
  | cons o ops ih => rw [Component.run_cons, Component.run_cons, ih, ← step_forget]; rfl

/-! ### Accounts -/

/-- The timers that run. -/
def active (s : BurnTimerState ℕ) : List Timer :=
  s.entries.filterMap fun slot => (slot.filter BurnEntry.active).map BurnEntry.timer

/-- The timers whose records wait in the queue. -/
def waiting (s : BurnTimerState ℕ) : List Timer := s.expiredQueue.map CBurnExpired.timer

/-- Every timer that was set is active, waiting, delivered or overridden, only one of these, and only
once. -/
structure Accounted (w : BurnTimerState ℕ × Ledger) : Prop where
  distinct : w.2.timers.Nodup
  perm : (active w.1 ++ waiting w.1 ++ w.2.delivered ++ w.2.overridden).Perm w.2.timers

end ThistleOS.BurnTimer
