import Mathlib.Algebra.Group.Nat.Defs
import ThistleOS.CString
import ThistleOS.Component
import ThistleOS.EspErr
import ThistleOS.Slots
import ThistleOS.StableSort

/-!
# The secure wipe manager

The plan of a panic wipe: the targets in the order of their priorities, each with its status. The
caller asks for the next pending target, destroys it and marks it, by its index in the plan.

No function of the plan looks at a path, so the type of paths is left open.
-/

namespace ThistleOS.SecureWipe

open StableSort

inductive WipePriority
  | critical
  | high
  | normal
  | low
  deriving DecidableEq

namespace WipePriority

def value : WipePriority → ℕ
  | critical => 0
  | high => 1
  | normal => 2
  | low => 3

def fromU8 (v : UInt8) : Option WipePriority :=
  if v = 0 then some critical else if v = 1 then some high else if v = 2 then some normal
  else if v = 3 then some low else none

end WipePriority

inductive WipeStatus
  | pending
  | inProgress
  | completed
  | failed (reason : String)
  | skipped
  deriving DecidableEq

namespace WipeStatus

/-- No call may change the status any more. -/
def isFinal : WipeStatus → Bool
  | completed | failed _ | skipped => true
  | pending | inProgress => false

@[simp] lemma isFinal_pending : pending.isFinal = false := rfl
@[simp] lemma isFinal_inProgress : inProgress.isFinal = false := rfl
@[simp] lemma isFinal_completed : completed.isFinal = true := rfl
@[simp] lemma isFinal_failed (reason : String) : (failed reason).isFinal = true := rfl
@[simp] lemma isFinal_skipped : skipped.isFinal = true := rfl

end WipeStatus

variable {π ρ : Type}

structure WipeTarget (π : Type) where
  path : π
  sizeBytes : UInt64
  isDirectory : Bool
  priority : WipePriority
  status : WipeStatus
  deriving DecidableEq

structure WipePlan (π : Type) where
  targets : List (WipeTarget π)
  deriving DecidableEq

def WipeTarget.rank (t : WipeTarget π) : ℕ := t.priority.value

def WipeTarget.isPending (t : WipeTarget π) : Bool := t.status == .pending

@[simp] lemma WipeTarget.isPending_iff {t : WipeTarget π} : t.isPending = true ↔ t.status = .pending := by
  simp [isPending]

namespace WipePlan

def new : WipePlan π := ⟨[]⟩

def addTarget (path : π) (sizeBytes : UInt64) (isDirectory : Bool) (priority : WipePriority)
    (plan : WipePlan π) : WipePlan π :=
  ⟨sortByKey WipeTarget.rank (plan.targets ++ [⟨path, sizeBytes, isDirectory, priority, .pending⟩])⟩

/-- Index of the next pending target. -/
def nextPending (plan : WipePlan π) : Option ℕ := plan.targets.findIdx? WipeTarget.isPending

/-- A new status for the target at an index, if its old one may be left. -/
def mark (mayLeave : WipeStatus → Bool) (status : WipeStatus) (index : ℕ) (plan : WipePlan π) :
    Except EspErr Unit × WipePlan π :=
  match plan.targets[index]? with
  | none => (.error espErrInvalidArg, plan)
  | some t =>
    if mayLeave t.status then (.ok (), ⟨plan.targets.set index { t with status := status }⟩)
    else (.error espErrInvalidState, plan)

def markInProgress (index : ℕ) : WipePlan π → Except EspErr Unit × WipePlan π :=
  mark (fun status => status == .pending) .inProgress index

def markCompleted (index : ℕ) : WipePlan π → Except EspErr Unit × WipePlan π :=
  mark (fun status => status == .inProgress || status == .pending) .completed index

def markFailed (index : ℕ) (reason : String) : WipePlan π → Except EspErr Unit × WipePlan π :=
  mark (fun status => status == .inProgress || status == .pending) (.failed reason) index

def markSkipped (index : ℕ) : WipePlan π → Except EspErr Unit × WipePlan π :=
  mark (fun status => status == .pending || status == .inProgress) .skipped index

end WipePlan

/-! ### The calls of a plan -/

inductive Op (π : Type)
  | addTarget (path : π) (sizeBytes : UInt64) (isDirectory : Bool) (priority : WipePriority)
  | nextPending
  | markInProgress (index : ℕ)
  | markCompleted (index : ℕ)
  | markFailed (index : ℕ) (reason : String)
  | markSkipped (index : ℕ)

def Reply : Op π → Type
  | .addTarget .. => Unit
  | .nextPending => Option ℕ
  | _ => Except EspErr Unit

def calls (π : Type) : Component (Op π) Reply (WipePlan π) where
  step
    | .addTarget path sizeBytes isDirectory priority, plan =>
      ((), plan.addTarget path sizeBytes isDirectory priority)
    | .nextPending, plan => (plan.nextPending, plan)
    | .markInProgress index, plan => plan.markInProgress index
    | .markCompleted index, plan => plan.markCompleted index
    | .markFailed index reason, plan => plan.markFailed index reason
    | .markSkipped index, plan => plan.markSkipped index

/-- Where the standard sensitive paths stand in the order. -/
def defaultTargets : List (String × WipePriority) :=
  [("/sdcard/vault/", .critical), ("/sdcard/config/keys/", .critical), ("/sdcard/messages/", .high),
    ("/sdcard/notes/", .high), ("/sdcard/documents/", .high), ("/sdcard/apps/", .normal),
    ("/sdcard/logs/", .normal), ("/sdcard/cache/", .low), ("/sdcard/thumbnails/", .low)]

def WipePlan.addDefaultTargets (plan : WipePlan String) : WipePlan String :=
  defaultTargets.foldl (fun plan t => plan.addTarget t.1 0 true t.2) plan

/-- The default targets are added like any others. -/
lemma addDefaultTargets_eq_run (plan : WipePlan String) :
    plan.addDefaultTargets =
      (calls String).run plan (defaultTargets.map fun t => .addTarget t.1 0 true t.2) := by
  rw [WipePlan.addDefaultTargets, Component.run, List.foldl_map]
  rfl

/-! ### The exported functions -/

def code : Except EspErr Unit → EspErr
  | .ok () => espOk
  | .error e => e

def rsWipePlanAddTarget (plan : Option (WipePlan String)) (path : Option CStr) (size : UInt64)
    (isDir : Int32) (priority : UInt8) : EspErr × Option (WipePlan String) :=
  match plan, path with
  | some p, some path =>
    match path.toStr, WipePriority.fromU8 priority with
    | some path, some prio => (espOk, some (p.addTarget path size (isDir != 0) prio))
    | _, _ => (espErrInvalidArg, plan)
  | _, _ => (espErrInvalidArg, plan)

def rsWipePlanNextPending (plan : Option (WipePlan String)) : Int32 :=
  match plan.bind WipePlan.nextPending with
  | some idx => .ofNat idx
  | none => -1

/-- A call with an index, which must not be negative. -/
def rsMark (call : ℕ → WipePlan String → Except EspErr Unit × WipePlan String)
    (plan : Option (WipePlan String)) (index : Int32) : EspErr × Option (WipePlan String) :=
  match plan with
  | none => (espErrInvalidArg, none)
  | some p =>
    if index < 0 then (espErrInvalidArg, some p)
    else (code (call index.toInt.toNat p).1, some (call index.toInt.toNat p).2)

def rsWipePlanMarkCompleted : Option (WipePlan String) → Int32 → EspErr × Option (WipePlan String) :=
  rsMark WipePlan.markCompleted

def rsWipePlanMarkFailed (plan : Option (WipePlan String)) (index : Int32) (reason : Option CStr) :
    EspErr × Option (WipePlan String) :=
  rsMark (fun index => WipePlan.markFailed index (match reason with
    | none => "unknown"
    | some reason => reason.toStr.getD "invalid reason string")) plan index

/-- The index that the caller is given comes back as it is. -/
lemma rsMark_nextPending (call : ℕ → WipePlan String → Except EspErr Unit × WipePlan String)
    {plan : WipePlan String} {i : ℕ} (hi : plan.nextPending = some i) (hlt : i < 2 ^ 31) :
    rsMark call (some plan) (rsWipePlanNextPending (some plan)) =
      (code (call i plan).1, some (call i plan).2) := by
  have hnext : rsWipePlanNextPending (some plan) = .ofNat i := by simp [rsWipePlanNextPending, hi]
  have hint : (Int32.ofNat i).toInt = i := Int32.toInt_ofNat_of_lt hlt
  have hneg : ¬ Int32.ofNat i < 0 := by
    rw [Int32.lt_iff_toInt_lt, hint]
    simp
  rw [hnext, rsMark, if_neg hneg, hint, Int.toNat_natCast]

/-! ### What a call changes -/

namespace WipeStatus

/-- The changes of a status. -/
def Step (s s' : WipeStatus) : Prop :=
  s.isFinal = false ∧ s' ≠ pending ∧ (s = inProgress → s'.isFinal = true)

lemma Step.ne_pending {s s' : WipeStatus} (h : s.Step s') : s' ≠ pending := h.2.1

end WipeStatus

/-- What a call makes of the targets. -/
inductive Changed : Op π → List (WipeTarget π) → List (WipeTarget π) → Prop
  | same (o : Op π) (l : List (WipeTarget π)) (h : ∀ path size dir prio, o ≠ .addTarget path size dir prio) :
    Changed o l l
  | marked (o : Op π) (h : ∀ path size dir prio, o ≠ .addTarget path size dir prio)
    (pre : List (WipeTarget π)) (t : WipeTarget π) (post : List (WipeTarget π)) (status : WipeStatus)
    (hstep : t.status.Step status) :
    Changed o (pre ++ t :: post) (pre ++ { t with status := status } :: post)
  | added (path : π) (size : UInt64) (dir : Bool) (prio : WipePriority)
    (pre post : List (WipeTarget π)) (hpre : ∀ t ∈ pre, t.priority.value ≤ prio.value)
    (hpost : ∀ t ∈ post, prio.value < t.priority.value) :
    Changed (.addTarget path size dir prio) (pre ++ post) (pre ++ ⟨path, size, dir, prio, .pending⟩ :: post)

/-- The targets are in the order of their priorities. -/
def WipePlan.Sorted (plan : WipePlan π) : Prop := SortedByKey WipeTarget.rank plan.targets

lemma mark_changed {mayLeave : WipeStatus → Bool} {status : WipeStatus} {index : ℕ} {o : Op π}
    (ho : ∀ path size dir prio, o ≠ .addTarget path size dir prio)
    (hstep : ∀ s, mayLeave s = true → s.Step status) (plan : WipePlan π) :
    Changed o plan.targets (plan.mark mayLeave status index).2.targets := by
  rw [WipePlan.mark]
  split
  · exact .same o _ ho
  · rename_i t ht
    split
    · rename_i hleave
      obtain ⟨pre, post, hsplit, rfl⟩ := Slots.getElem?_eq_some_split ht
      rw [hsplit]
      simpa using Changed.marked o ho pre t post status (hstep _ hleave)
    · exact .same o _ ho

lemma addTarget_changed {plan : WipePlan π} (h : plan.Sorted) (path : π) (size : UInt64) (dir : Bool)
    (prio : WipePriority) :
    Changed (.addTarget path size dir prio) plan.targets (plan.addTarget path size dir prio).targets := by
  obtain ⟨pre, post, hsplit, hsort, hpre, hpost⟩ :=
    sortByKey_concat (a := ⟨path, size, dir, prio, .pending⟩) h
  rw [WipePlan.addTarget, hsort, hsplit]
  exact .added path size dir prio pre post hpre hpost

/-- What a call does to a sorted plan. -/
theorem next_changed (o : Op π) {plan : WipePlan π} (h : plan.Sorted) :
    Changed o plan.targets ((calls π).next o plan).targets := by
  cases o with
  | addTarget path size dir prio => exact addTarget_changed h path size dir prio
  | nextPending => exact .same _ _ (by simp)
  | markInProgress index => exact mark_changed (by simp) (by simp [WipeStatus.Step]) plan
  | markCompleted index => exact mark_changed (by simp) (by simp [WipeStatus.Step]) plan
  | markFailed index reason => exact mark_changed (by simp) (by simp [WipeStatus.Step]) plan
  | markSkipped index => exact mark_changed (by simp) (by simp [WipeStatus.Step]) plan

end ThistleOS.SecureWipe
