import ThistleOS.Kernel.SecureWipe
import Mathlib.Data.Nat.Notation
import Mathlib.Order.Nat

/-!
# The progress of a wipe

The share of the bytes that have been overwritten, or of the targets where no size is known. Sums of sizes are
those of 64 bits.
-/

namespace ThistleOS.SecureWipe

variable {π : Type}

namespace WipePlan

def totalBytes (plan : WipePlan π) : UInt64 := (plan.targets.map (·.sizeBytes)).foldl (· + ·) 0

def completedBytes (plan : WipePlan π) : UInt64 :=
  ((plan.targets.filter (·.status == .completed)).map (·.sizeBytes)).foldl (· + ·) 0

/-- Completed or skipped. -/
def isDone (t : WipeTarget π) : Bool := t.status == .completed || t.status == .skipped

/-- A hundred times the number of targets is no more than 64 bits hold. -/
def progressPercent (plan : WipePlan π) : UInt8 :=
  let total := plan.totalBytes
  if total = 0 then
    if plan.targets.isEmpty then 100
    else
      let done := (plan.targets.filter isDone).length
      let pct := done * 100 / plan.targets.length
      UInt8.ofNat (min pct 100)
  else
    let completed := plan.completedBytes
    let pct := completed * 100 / total
    (min pct 100).toUInt8

def isComplete (plan : WipePlan π) : Bool := !plan.targets.isEmpty && plan.targets.all (·.status.isFinal)

/-! ### The exact share -/

/-- The bytes of targets, as a number. -/
def bytes : List (WipeTarget π) → ℕ
  | [] => 0
  | t :: targets => t.sizeBytes.toNat + bytes targets

/-- The part of the bytes, or of the targets where there are no bytes, that is done, in hundredths. -/
def share (plan : WipePlan π) : ℕ :=
  if bytes plan.targets = 0 then
    if plan.targets = [] then 100 else (plan.targets.filter isDone).length * 100 / plan.targets.length
  else bytes (plan.targets.filter (·.status == .completed)) * 100 / bytes plan.targets

/-- The sums have 64 bits. -/
structure InRange (plan : WipePlan π) : Prop where
  total : bytes plan.targets < 2 ^ 64
  completed : bytes (plan.targets.filter (·.status == .completed)) * 100 < 2 ^ 64

lemma bytes_append (l l' : List (WipeTarget π)) : bytes (l ++ l') = bytes l + bytes l' := by
  induction l with
  | nil => rw [List.nil_append, bytes, Nat.zero_add]
  | cons t l ih => rw [List.cons_append, bytes, bytes, ih, Nat.add_assoc]

lemma bytes_filter_le (p : WipeTarget π → Bool) (l : List (WipeTarget π)) : bytes (l.filter p) ≤ bytes l := by
  induction l with
  | nil => exact Nat.le_refl _
  | cons t l ih =>
    rw [List.filter_cons]
    split_ifs
    · exact Nat.add_le_add_left ih _
    · exact ih.trans (Nat.le_add_left _ _)

/-- Targets that leave out no bytes leave out only what has none. -/
lemma of_bytes_filter_eq {p : WipeTarget π → Bool} {l : List (WipeTarget π)} (h : bytes (l.filter p) = bytes l) :
    ∀ t ∈ l, p t = true ∨ t.sizeBytes.toNat = 0 := by
  induction l with
  | nil => simp
  | cons t l ih =>
    have hle := bytes_filter_le p l
    rw [List.filter_cons] at h
    rw [List.forall_mem_cons]
    split_ifs at h with ht
    · exact ⟨.inl ht, ih (Nat.add_left_cancel h)⟩
    · rw [bytes] at h
      exact ⟨.inr (by omega), ih (by omega)⟩

/-- A sum of 64 bits. -/
lemma toNat_foldl_add (l : List (WipeTarget π)) (acc : UInt64) :
    ((l.map (·.sizeBytes)).foldl (· + ·) acc).toNat = (acc.toNat + bytes l) % 2 ^ 64 := by
  induction l generalizing acc with
  | nil => rw [bytes, Nat.add_zero, Nat.mod_eq_of_lt acc.toNat_lt]; rfl
  | cons t l ih =>
    rw [List.map_cons, List.foldl_cons, ih, UInt64.toNat_add, bytes]
    omega

variable {plan plan' : WipePlan π}

lemma InRange.toNat_totalBytes (h : InRange plan) : plan.totalBytes.toNat = bytes plan.targets := by
  rw [totalBytes, toNat_foldl_add]
  have := h.total
  simp
  omega

lemma InRange.toNat_completedBytes (h : InRange plan) :
    plan.completedBytes.toNat = bytes (plan.targets.filter (·.status == .completed)) := by
  rw [completedBytes, toNat_foldl_add]
  have := h.completed
  simp
  omega

lemma share_le (plan : WipePlan π) : share plan ≤ 100 := by
  have hbytes := bytes_filter_le (·.status == .completed) plan.targets
  have hlength := List.length_filter_le isDone plan.targets
  rw [share]
  split_ifs with hzero hnil
  · exact Nat.le_refl _
  · exact Nat.div_le_of_le_mul (by omega)
  · exact Nat.div_le_of_le_mul (by omega)

/-- The percentage is the share. -/
theorem progressPercent_eq (h : InRange plan) : plan.progressPercent.toNat = share plan := by
  have hle := share_le plan
  have htotal := h.toNat_totalBytes
  have hcompleted := h.toNat_completedBytes
  have hrange := h.completed
  have hzero : plan.totalBytes = 0 ↔ bytes plan.targets = 0 := by
    rw [← UInt64.toNat_inj, htotal]
    rfl
  rw [share] at hle ⊢
  rw [progressPercent]
  simp only [hzero, List.isEmpty_iff]
  split_ifs at hle ⊢ with hbytes hnil
  · rfl
  · rw [Nat.min_eq_left hle, UInt8.toNat_ofNat', Nat.mod_eq_of_lt (by omega)]
  · have hpct : (plan.completedBytes * 100 / plan.totalBytes).toNat =
        bytes (plan.targets.filter (·.status == .completed)) * 100 / bytes plan.targets := by
      have hproduct : (plan.completedBytes * 100).toNat = plan.completedBytes.toNat * 100 % 2 ^ 64 := UInt64.toNat_mul _ _
      rw [UInt64.toNat_div, hproduct, htotal, hcompleted, Nat.mod_eq_of_lt hrange]
    have hmin : min (plan.completedBytes * 100 / plan.totalBytes) 100 = plan.completedBytes * 100 / plan.totalBytes := by
      refine if_pos (UInt64.le_iff_toNat_le.mpr ?_)
      rw [hpct]
      exact hle
    rw [hmin, UInt64.toNat_toUInt8, hpct, Nat.mod_eq_of_lt (by omega)]

/-- All bytes are overwritten, or all targets are done where there are no bytes. -/
lemma of_share_eq (h : share plan = 100) : (bytes plan.targets ≠ 0 ∧ ∀ t ∈ plan.targets, t.sizeBytes.toNat ≠ 0 →
    t.status = .completed) ∨ bytes plan.targets = 0 ∧ ∀ t ∈ plan.targets, isDone t = true := by
  have hbytes := bytes_filter_le (·.status == .completed) plan.targets
  have hlength := List.length_filter_le isDone plan.targets
  rw [share] at h
  split_ifs at h with hzero hnil
  · exact .inr ⟨hzero, by simp [hnil]⟩
  · have hpos : 0 < plan.targets.length := List.length_pos_of_ne_nil hnil
    have hge := (Nat.le_div_iff_mul_le hpos).mp h.ge
    exact .inr ⟨hzero, List.length_filter_eq_length_iff.mp (by omega)⟩
  · have hge := (Nat.le_div_iff_mul_le (Nat.pos_of_ne_zero hzero)).mp h.ge
    have heq : bytes (plan.targets.filter (·.status == .completed)) = bytes plan.targets := by omega
    refine .inl ⟨hzero, fun t ht hsize => ?_⟩
    simpa using (of_bytes_filter_eq heq t ht).resolve_right hsize

lemma isComplete_iff (plan : WipePlan π) :
    plan.isComplete = true ↔ plan.targets ≠ [] ∧ ∀ t ∈ plan.targets, t.status.isFinal = true := by
  simp [isComplete]

/-! ### Marking -/

/-- A call other than `add_target` changes the status of one target that is not done, or nothing. -/
lemma next_marked {o : Op π} (h : ∀ path size dir prio, o ≠ .addTarget path size dir prio) (plan : WipePlan π) :
    Changed o plan.targets ((calls π).next o plan).targets := by
  cases o with
  | addTarget path size dir prio => exact absurd rfl (h path size dir prio)
  | nextPending => exact .same _ _ h
  | markInProgress index => exact mark_changed h (by simp [WipeStatus.Step]) plan
  | markCompleted index => exact mark_changed h (by simp [WipeStatus.Step]) plan
  | markFailed index reason => exact mark_changed h (by simp [WipeStatus.Step]) plan
  | markSkipped index => exact mark_changed h (by simp [WipeStatus.Step]) plan

lemma share_mono (hbytes : bytes plan'.targets = bytes plan.targets)
    (hlength : plan'.targets.length = plan.targets.length)
    (hcompleted : bytes (plan.targets.filter (·.status == .completed)) ≤
      bytes (plan'.targets.filter (·.status == .completed)))
    (hdone : (plan.targets.filter isDone).length ≤ (plan'.targets.filter isDone).length) :
    share plan ≤ share plan' := by
  have hnil : plan'.targets = [] ↔ plan.targets = [] := by
    rw [← List.length_eq_zero_iff, ← List.length_eq_zero_iff, hlength]
  rw [share, share, hbytes, hlength]
  simp only [hnil]
  split_ifs
  · exact Nat.le_refl _
  · exact Nat.div_le_div_right (Nat.mul_le_mul_right 100 hdone)
  · exact Nat.div_le_div_right (Nat.mul_le_mul_right 100 hcompleted)

/-- The share does not decrease when a target is marked. -/
lemma share_le_next {o : Op π} (h : ∀ path size dir prio, o ≠ .addTarget path size dir prio) (plan : WipePlan π) :
    share plan ≤ share ((calls π).next o plan) := by
  have hchanged := next_marked h plan
  generalize (calls π).next o plan = plan' at hchanged
  obtain ⟨targets⟩ := plan
  obtain ⟨targets'⟩ := plan'
  dsimp only at hchanged
  cases hchanged with
  | same => exact Nat.le_refl _
  | added path size dir prio => exact absurd rfl (h path size dir prio)
  | marked _ _ pre t post status hstep =>
    have hopen : t.status ≠ .completed ∧ t.status ≠ .skipped := by
      constructor
      all_goals
        intro heq
        have hfinal := hstep.1
        rw [heq] at hfinal
        cases hfinal
    refine share_mono ?_ ?_ ?_ ?_
    · simp only [bytes_append, bytes]
    · simp only [List.length_append, List.length_cons]
    · simp only [List.filter_append, bytes_append, List.filter_cons, beq_eq_false_iff_ne.mpr hopen.1, Bool.false_eq_true,
        if_false]
      split_ifs
      · exact Nat.add_le_add_left (Nat.le_add_left _ _) _
      · exact Nat.le_refl _
    · have hnot : isDone t = false := by simp [isDone, hopen]
      simp only [List.filter_append, List.length_append, List.filter_cons, hnot, Bool.false_eq_true, if_false]
      split_ifs
      · exact Nat.add_le_add_left (Nat.le_succ _) _
      · exact Nat.le_refl _

/-- A file of 1000 bytes that is overwritten and one of 3000 that is not. -/
def quarter : WipePlan Unit :=
  ⟨[⟨(), 1000, false, .normal, .completed⟩, ⟨(), 3000, false, .normal, .pending⟩]⟩

end WipePlan

end ThistleOS.SecureWipe
