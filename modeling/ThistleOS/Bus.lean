import ThistleOS.EspErr

/-!
# Calls of the platform

A driver makes calls of the platform, each of which answers with a code, and gives up at the first one that fails.
Calls that succeed send messages to a device, which is known by what a message does to it.
-/

namespace ThistleOS

/-- What has been sent to a device, with the answers of the platform to the calls to come, after which every call
succeeds. -/
structure Bus (τ : Type) where
  answers : List EspErr
  sent : List τ

abbrev BusM (τ : Type) := ExceptT EspErr (StateM (Bus τ))

namespace Bus

variable {τ π : Type}

/-- A call that sends `ts` if it succeeds. -/
def perform (ts : List τ) : BusM τ Unit := fun bus =>
  match bus.answers with
  | [] => (.ok (), { bus with sent := bus.sent ++ ts })
  | rc :: rest =>
    if rc = espOk then (.ok (), ⟨rest, bus.sent ++ ts⟩)
    else (.error rc, ⟨rest, bus.sent⟩)

/-- A call that sends nothing. -/
def call : BusM τ Unit := perform []

def transmit (t : τ) : BusM τ Unit := perform [t]

def sendAll (ts : List τ) : BusM τ Unit := ts.forM transmit

/-- Where the program succeeds, the device has been changed by `f`; an error is not the code of success. -/
structure Tells (receive : π → τ → π) (x : BusM τ Unit) (f : π → π) : Prop where
  ok : ∀ (p : π) {bus bus'}, x.run bus = (.ok (), bus') →
    bus'.sent.foldl receive p = f (bus.sent.foldl receive p)
  error : ∀ {bus bus' rc}, x.run bus = (.error rc, bus') → rc ≠ espOk

section Tells

variable {receive : π → τ → π} {x y : BusM τ Unit} {f g : π → π}

lemma tells_perform (ts : List τ) : Tells receive (perform ts) (fun p => ts.foldl receive p) := by
  constructor
  · intro p bus bus' h
    have h : perform ts bus = (.ok (), bus') := h
    unfold perform at h
    split at h
    · cases h
      exact List.foldl_append
    · split at h
      · cases h
        exact List.foldl_append
      · cases h
  · intro bus bus' rc h
    have h : perform ts bus = (.error rc, bus') := h
    unfold perform at h
    split at h
    · cases h
    · split at h
      · cases h
      · rename_i hrc
        cases h
        exact hrc

lemma tells_call : Tells receive call (fun p => p) := tells_perform []

lemma tells_transmit (t : τ) : Tells receive (transmit t) (fun p => receive p t) := tells_perform [t]

lemma tells_pure : Tells receive (pure ()) (fun p => p) := by
  constructor
  · intro p bus bus' h
    cases h
    rfl
  · intro bus bus' rc h
    cases h

lemma Tells.bind (hx : Tells receive x f) (hy : Tells receive y g) :
    Tells receive (do x; y) (fun p => g (f p)) := by
  constructor
  · intro p bus bus' h
    have h : ExceptT.bindCont (fun _ => y) (x.run bus).1 (x.run bus).2 = (.ok (), bus') := h
    rcases hrun : x.run bus with ⟨r, mid⟩
    rw [hrun] at h
    cases r with
    | error e => cases h
    | ok u => rw [hy.ok p h, hx.ok p hrun]
  · intro bus bus' rc h
    have h : ExceptT.bindCont (fun _ => y) (x.run bus).1 (x.run bus).2 = (.error rc, bus') := h
    rcases hrun : x.run bus with ⟨r, mid⟩
    rw [hrun] at h
    cases r with
    | error e =>
      cases h
      exact hx.error hrun
    | ok u => exact hy.error h

lemma tells_sendAll (ts : List τ) : Tells receive (sendAll ts) (fun p => ts.foldl receive p) := by
  induction ts with
  | nil => exact tells_pure
  | cons t ts ih => exact (tells_transmit t).bind ih

end Tells

end Bus

end ThistleOS
