import Mathlib.Data.List.Basic
import Mathlib.Order.Nat
import Mathlib.Tactic.Common
import Mathlib.Tactic.IntervalCases

/-!
# Decimals of a fixed width

Numbers written with zeros before them, which are read back digit by digit and compare like the numbers.
-/

namespace ThistleOS.Digits

/-- A number with zeros up to a width. -/
def padded (width n : ℕ) : List Char :=
  List.replicate (width - (Nat.toDigits 10 n).length) '0' ++ Nat.toDigits 10 n

/-- The last digits of a number. -/
def lastDigits : ℕ → ℕ → List Char
  | 0, _ => []
  | width + 1, n => lastDigits width (n / 10) ++ [(n % 10).digitChar]

/-- The number of digits, after those of `acc`. -/
def readDigits : List Char → ℕ → Option ℕ
  | [], acc => some acc
  | c :: cs, acc => if c.isDigit then readDigits cs (10 * acc + (c.toNat - 48)) else none

@[simp] lemma length_lastDigits (width n : ℕ) : (lastDigits width n).length = width := by
  induction width generalizing n with
  | zero => rfl
  | succ width ih => rw [lastDigits, List.length_append, ih, List.length_singleton]

lemma lastDigits_zero (width : ℕ) : lastDigits width 0 = List.replicate width '0' := by
  induction width with
  | zero => rfl
  | succ width ih =>
    rw [lastDigits, Nat.zero_div, ih, List.replicate_succ']
    rfl

/-- A number that has room is written with its last digits. -/
lemma padded_eq {width n : ℕ} (hwidth : 0 < width) (h : n < 10 ^ width) : padded width n = lastDigits width n := by
  induction width generalizing n with
  | zero => cases hwidth
  | succ width ih =>
    rcases Nat.lt_or_ge n 10 with hlt | hge
    · rw [padded, Nat.toDigits_of_lt_base hlt, lastDigits, Nat.div_eq_of_lt hlt, Nat.mod_eq_of_lt hlt, lastDigits_zero,
        List.length_singleton, Nat.add_sub_cancel]
    · have hdigits := Nat.toDigits_of_base_le (by decide : 1 < 10) hge
      have hdiv : n / 10 < 10 ^ width := by
        rw [Nat.pow_succ] at h
        omega
      have hpos : 0 < width := by
        rcases Nat.eq_zero_or_pos width with rfl | hpos
        · exact absurd hge (Nat.not_le.mpr h)
        · exact hpos
      rw [lastDigits, ← ih hpos hdiv, padded, padded, hdigits, List.length_append, List.length_singleton,
        Nat.add_sub_add_right, List.append_assoc]

lemma isDigit_digitChar {d : ℕ} (h : d < 10) : d.digitChar.isDigit = true := by
  interval_cases d <;> rfl

lemma readDigits_append (cs cs' : List Char) (acc : ℕ) :
    readDigits (cs ++ cs') acc = (readDigits cs acc).bind (readDigits cs') := by
  induction cs generalizing acc with
  | nil => rfl
  | cons c cs ih =>
    rw [List.cons_append, readDigits, readDigits]
    split_ifs
    · exact ih _
    · rfl

/-- The digits are read back. -/
lemma readDigits_lastDigits {width n : ℕ} (h : n < 10 ^ width) : readDigits (lastDigits width n) 0 = some n := by
  induction width generalizing n with
  | zero =>
    obtain rfl : n = 0 := by simpa using h
    rfl
  | succ width ih =>
    have hmod : n % 10 < 10 := Nat.mod_lt n (by decide)
    have hdiv : n / 10 < 10 ^ width := by
      rw [Nat.pow_succ] at h
      omega
    rw [lastDigits, readDigits_append, ih hdiv, Option.bind_some, readDigits, if_pos (isDigit_digitChar hmod),
      Nat.toNat_digitChar_sub_48_of_lt_ten hmod, readDigits, Nat.div_add_mod]

lemma readDigits_padded {width n : ℕ} (hwidth : 0 < width) (h : n < 10 ^ width) :
    readDigits (padded width n) 0 = some n := by
  rw [padded_eq hwidth h, readDigits_lastDigits h]

/-! ### Comparison -/

/-- Texts of one length compare as far as they go. -/
lemma append_lt_append {l l' : List Char} (hlength : l.length = l'.length) (h : l < l') (r r' : List Char) :
    l ++ r < l' ++ r' := by
  induction l generalizing l' with
  | nil =>
    obtain rfl := List.eq_nil_of_length_eq_zero hlength.symm
    exact absurd h (List.lt_irrefl _)
  | cons c l ih =>
    match l' with
    | [] => cases hlength
    | c' :: l' =>
      rw [List.cons_append, List.cons_append, List.cons_lt_cons_iff]
      rcases List.cons_lt_cons_iff.mp h with hlt | ⟨heq, hlt⟩
      · exact .inl hlt
      · exact .inr ⟨heq, ih (Nat.succ.inj hlength) hlt⟩

lemma digitChar_lt {d d' : ℕ} (h : d < d') (h' : d' < 10) : d.digitChar < d'.digitChar := by
  rw [Char.lt_def, UInt32.lt_iff_toNat_lt]
  change d.digitChar.toNat < d'.digitChar.toNat
  rw [Nat.toNat_digitChar_of_lt_ten (h.trans h'), Nat.toNat_digitChar_of_lt_ten h']
  omega

lemma lastDigits_lt {width n n' : ℕ} (h : n < n') (h' : n' < 10 ^ width) :
    lastDigits width n < lastDigits width n' := by
  induction width generalizing n n' with
  | zero => simp only [Nat.pow_zero] at h'; omega
  | succ width ih =>
    have hdiv : n' / 10 < 10 ^ width := by
      rw [Nat.pow_succ] at h'
      omega
    rw [lastDigits, lastDigits]
    rcases Nat.lt_or_ge (n / 10) (n' / 10) with hlt | hge
    · exact append_lt_append (by simp) (ih hlt hdiv) _ _
    · have heq : n / 10 = n' / 10 := by omega
      rw [heq]
      exact List.append_left_lt (List.cons_lt_cons_iff.mpr (.inl (digitChar_lt (by omega) (Nat.mod_lt _ (by decide)))))

/-- Numbers that have room compare as they are written. -/
theorem padded_lt {width n n' : ℕ} (hwidth : 0 < width) (h : n < n') (h' : n' < 10 ^ width) (r r' : List Char) :
    padded width n ++ r < padded width n' ++ r' := by
  rw [padded_eq hwidth (h.trans h'), padded_eq hwidth h']
  exact append_lt_append (by simp) (lastDigits_lt h h') r r'

end ThistleOS.Digits
