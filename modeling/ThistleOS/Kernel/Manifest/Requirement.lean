import ThistleOS.Kernel.Manifest
import Mathlib.Data.Prod.Lex
import Mathlib.Order.WithBot

/-!
# Version requirements

A requirement is met if its version is at most the current one in the lexicographic order. The check reads a component
that is no number below 2³² as zero, so it can accept a requirement that is not met.
-/

open ThistleOS.ArtifactManifest (parseDecimal)

namespace ThistleOS.Manifests

/-! ### What a requirement asks for -/

/-- The number of a component, however large; no text is zero, and what is no number exceeds every number. -/
def partNumber (text : String) : WithTop ℕ :=
  let digits := (text.toList.dropPrefix? ['+']).getD text.toList
  if text = "" then .some 0
  else if digits.isEmpty || !digits.all Char.isDigit then ⊤
  else .some (digits.foldl (fun n c => 10 * n + (c.toNat - 48)) 0)

/-- A component of a requirement; one that is missing is zero. -/
def component (requirement : String) (i : ℕ) : WithTop ℕ :=
  (((requirement.toList.splitOn '.').map String.ofList)[i]?.map partNumber).getD (.some 0)

/-- The version that a requirement asks for. -/
def demanded (requirement : String) : WithTop ℕ ×ₗ WithTop ℕ ×ₗ WithTop ℕ :=
  toLex (component requirement 0, toLex (component requirement 1, component requirement 2))

def Version.lex (v : Version) : WithTop ℕ ×ₗ WithTop ℕ ×ₗ WithTop ℕ :=
  toLex (.some v.major.toNat, toLex (.some v.minor.toNat, .some v.patch.toNat))

/-! ### What the check reads -/

/-- A number that the check can read. -/
def IsU32 (x : WithTop ℕ) : Prop := x < .some 0x100000000

/-- What it cannot read is zero. -/
def zeroed : WithTop ℕ → ℕ
  | some n => if n < 0x100000000 then n else 0
  | none => 0

lemma toNat_versionPart (text : String) : (versionPart text).toNat = zeroed (partNumber text) := by
  by_cases htext : text = ""
  · subst htext
    rfl
  · rw [versionPart, parseDecimal, partNumber]
    simp only [if_neg htext]
    generalize (text.toList.dropPrefix? ['+']).getD text.toList = digits
    by_cases hbad : (digits.isEmpty || !digits.all Char.isDigit) = true
    · rw [if_pos hbad, if_pos hbad]
      rfl
    · rw [if_neg hbad, if_neg hbad]
      generalize digits.foldl (fun n c => 10 * n + (c.toNat - 48)) 0 = n
      have hzeroed : zeroed (.some n) = if n < 0x100000000 then n else 0 := rfl
      rw [hzeroed]
      split_ifs with hn
      · exact UInt32.toNat_ofNat_of_lt' hn
      · rfl

lemma toNat_part (requirement : String) (i : ℕ) :
    ((((requirement.toList.splitOn '.').map String.ofList)[i]?.map versionPart).getD 0).toNat =
      zeroed (component requirement i) := by
  rw [component]
  cases ((requirement.toList.splitOn '.').map String.ofList)[i]? with
  | none => rfl
  | some text => exact toNat_versionPart text

lemma Version.meets_iff (current req : Version) : current.meets req = true ↔
    req.major.toNat < current.major.toNat ∨ req.major.toNat = current.major.toNat ∧
      (req.minor.toNat < current.minor.toNat ∨ req.minor.toNat = current.minor.toNat ∧
        req.patch.toNat ≤ current.patch.toNat) := by
  unfold Version.meets
  split_ifs with hmajor hminor
  · have hne : req.major.toNat ≠ current.major.toNat := fun h => hmajor (UInt32.toNat_inj.mp h).symm
    simp [hne, UInt32.lt_iff_toNat_lt]
  · have hmajor := not_not.mp hmajor
    have hne : req.minor.toNat ≠ current.minor.toNat := fun h => hminor (UInt32.toNat_inj.mp h).symm
    simp [hmajor, hne, UInt32.lt_iff_toNat_lt]
  · have hmajor := not_not.mp hmajor
    have hminor := not_not.mp hminor
    simp [hmajor, hminor, UInt32.le_iff_toNat_le]

/-- The check compares what it can read. -/
lemma satisfies_iff (current : Version) (requirement : String) : satisfies current requirement = true ↔
    zeroed (component requirement 0) < current.major.toNat ∨
      zeroed (component requirement 0) = current.major.toNat ∧
        (zeroed (component requirement 1) < current.minor.toNat ∨
          zeroed (component requirement 1) = current.minor.toNat ∧
            zeroed (component requirement 2) ≤ current.patch.toNat) := by
  rw [satisfies, Version.meets_iff]
  simp only [required, toNat_part]

/-! ### The two compared -/

/-- A component is read as it is, or as zero while it exceeds every component of a version. -/
lemma zeroed_cases (x : WithTop ℕ) :
    (IsU32 x ∧ x = .some (zeroed x)) ∨ (¬ IsU32 x ∧ zeroed x = 0 ∧ ∀ v : UInt32, WithTop.some v.toNat < x) := by
  cases x with
  | top => exact .inr ⟨not_top_lt, rfl, fun v => WithTop.coe_lt_top _⟩
  | coe n =>
    have hzeroed : zeroed (.some n) = if n < 0x100000000 then n else 0 := rfl
    have hu32 : IsU32 (.some n) ↔ n < 0x100000000 := WithTop.coe_lt_coe
    rw [hu32, hzeroed]
    split_ifs with hn
    · exact .inl ⟨hn, rfl⟩
    · exact .inr ⟨hn, rfl, fun v => WithTop.coe_lt_coe.mpr (Nat.lt_of_lt_of_le v.toNat_lt (Nat.le_of_not_lt hn))⟩

/-- Each component that decides can be read, or what the check makes of the others is above the current version. -/
structure Decided (current : Version) (requirement : String) : Prop where
  major : IsU32 (component requirement 0) ∨ current.major.toNat = 0 ∧
    (current.minor.toNat < zeroed (component requirement 1) ∨
      current.minor.toNat = zeroed (component requirement 1) ∧
        current.patch.toNat < zeroed (component requirement 2))
  minor : component requirement 0 = .some current.major.toNat → IsU32 (component requirement 1) ∨
    current.minor.toNat = 0 ∧ current.patch.toNat < zeroed (component requirement 2)
  patch : component requirement 0 = .some current.major.toNat → component requirement 1 = .some current.minor.toNat →
    IsU32 (component requirement 2)

lemma demanded_le_iff (current : Version) (requirement : String) : demanded requirement ≤ current.lex ↔
    component requirement 0 < .some current.major.toNat ∨ component requirement 0 = .some current.major.toNat ∧
      (component requirement 1 < .some current.minor.toNat ∨ component requirement 1 = .some current.minor.toNat ∧
        component requirement 2 ≤ .some current.patch.toNat) := by
  rw [demanded, Version.lex, Prod.Lex.toLex_le_toLex, Prod.Lex.toLex_le_toLex]

/-- A requirement is accepted exactly if its version is at most the current one, under exactly this condition. -/
theorem satisfies_lex_iff (current : Version) (requirement : String) :
    (satisfies current requirement = true ↔ demanded requirement ≤ current.lex) ↔ Decided current requirement := by
  have hdecided : Decided current requirement ↔ _ ∧ _ ∧ _ :=
    ⟨fun h => ⟨h.major, h.minor, h.patch⟩, fun h => ⟨h.1, h.2.1, h.2.2⟩⟩
  rw [hdecided, satisfies_iff, demanded_le_iff]
  generalize component requirement 0 = a
  generalize component requirement 1 = b
  generalize component requirement 2 = c
  obtain ⟨ha, hax⟩ | ⟨ha, hax, hmajor⟩ := zeroed_cases a
  · generalize zeroed a = x at hax ⊢
    subst hax
    simp only [ha, true_or, true_and, WithTop.coe_lt_coe, WithTop.coe_inj]
    obtain ⟨hb, hbx⟩ | ⟨hb, hbx, hminor⟩ := zeroed_cases b
    · generalize zeroed b = y at hbx ⊢
      subst hbx
      simp only [hb, true_or, implies_true, true_and, WithTop.coe_lt_coe, WithTop.coe_inj]
      obtain ⟨hc, hcx⟩ | ⟨hc, hcx, hpatch⟩ := zeroed_cases c
      · generalize zeroed c = z at hcx ⊢
        subst hcx
        simp only [hc, implies_true, WithTop.coe_le_coe]
      · have hpatch : ¬ c ≤ WithTop.some current.patch.toNat := not_le_of_gt (hpatch current.patch)
        simp only [hc, hcx, hpatch, and_false, or_false, imp_false]
        omega
    · have hminor := hminor current.minor
      simp only [hb, hbx, hminor.ne', not_lt_of_gt hminor, false_or, false_and, or_false, false_implies, implies_true,
        and_true, and_false]
      omega
  · have hmajor := hmajor current.major
    simp only [ha, hax, false_or, hmajor.ne', not_lt_of_gt hmajor, false_and, false_implies, and_true, or_false, iff_false]
    omega

/-- The requirement is 2³², and the current version is below one. -/
theorem satisfies_overflow : satisfies ⟨0, 5, 0⟩ "4294967296.0.0" = true ∧
    ¬ demanded "4294967296.0.0" ≤ Version.lex ⟨0, 5, 0⟩ := by
  constructor
  · decide
  · rw [demanded_le_iff]
    decide

end ThistleOS.Manifests
