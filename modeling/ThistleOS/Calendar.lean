import Mathlib.Order.Nat
import Mathlib.Tactic.Common
import Mathlib.Tactic.IntervalCases

/-!
# The Gregorian calendar

Dates from the year 0 on, and the number of days before each. A year that begins in March has its leap day at
its end.
-/

namespace ThistleOS.Calendar

def isLeap (year : ℕ) : Bool := year % 4 == 0 && (year % 100 != 0 || year % 400 == 0)

def yearLength (year : ℕ) : ℕ := if isLeap year then 366 else 365

def monthLength (year : ℕ) : ℕ → ℕ
  | 2 => if isLeap year then 29 else 28
  | 4 | 6 | 9 | 11 => 30
  | _ => 31

/-- The days of the years from the year 0 on. -/
def daysBeforeYear : ℕ → ℕ
  | 0 => 0
  | year + 1 => daysBeforeYear year + yearLength year

/-- The days of the months before the given one, the first of which is 1. -/
def daysBeforeMonth (year : ℕ) : ℕ → ℕ
  | 0 | 1 => 0
  | month + 1 => daysBeforeMonth year month + monthLength year month

structure Date where
  year : ℕ
  month : ℕ
  day : ℕ
  deriving DecidableEq

namespace Date

structure Valid (d : Date) : Prop where
  month_pos : 1 ≤ d.month
  month_le : d.month ≤ 12
  day_pos : 1 ≤ d.day
  day_le : d.day ≤ monthLength d.year d.month

/-- The days before a date, from the first day of the year 0 on. -/
def dayNumber (d : Date) : ℕ := daysBeforeYear d.year + daysBeforeMonth d.year d.month + (d.day - 1)

/-- The days from 1970-01-01 on. -/
def daysFromCivil (d : Date) : ℤ := (d.dayNumber : ℤ) - (⟨1970, 1, 1⟩ : Date).dayNumber

/-- A date is earlier than another. -/
def Before (d d' : Date) : Prop :=
  d.year < d'.year ∨ d.year = d'.year ∧ (d.month < d'.month ∨ d.month = d'.month ∧ d.day < d'.day)

end Date

/-! ### Counting days -/

lemma yearLength_eq (year : ℕ) : yearLength year = 365 + if isLeap year then 1 else 0 := by
  rw [yearLength]
  split_ifs <;> rfl

lemma isLeap_iff (year : ℕ) : isLeap year = true ↔ year % 4 = 0 ∧ (year % 100 ≠ 0 ∨ year % 400 = 0) := by
  simp [isLeap]

/-- The leap years before a year are counted by its quarters and centuries. -/
lemma daysBeforeYear_eq (year : ℕ) :
    daysBeforeYear year + (year + 99) / 100 = 365 * year + (year + 3) / 4 + (year + 399) / 400 := by
  induction year with
  | zero => rfl
  | succ year ih =>
    rw [daysBeforeYear, yearLength_eq]
    split_ifs with hleap
    · rw [isLeap_iff] at hleap
      omega
    · rw [isLeap_iff] at hleap
      omega

lemma daysBeforeYear_mono {year year' : ℕ} (h : year < year') :
    daysBeforeYear year + yearLength year ≤ daysBeforeYear year' := by
  induction year' with
  | zero => cases h
  | succ year' ih =>
    rcases Nat.lt_succ_iff_lt_or_eq.mp h with hlt | rfl
    · exact (ih hlt).trans (Nat.le_add_right _ _)
    · exact Nat.le_refl _

lemma daysBeforeMonth_succ (year : ℕ) {month : ℕ} (h : 1 ≤ month) :
    daysBeforeMonth year (month + 1) = daysBeforeMonth year month + monthLength year month := by
  obtain ⟨month, rfl⟩ := Nat.exists_eq_add_of_le' h
  rfl

lemma daysBeforeMonth_mono (year : ℕ) {month month' : ℕ} (hpos : 1 ≤ month) (h : month < month') :
    daysBeforeMonth year month + monthLength year month ≤ daysBeforeMonth year month' := by
  induction month' with
  | zero => cases h
  | succ month' ih =>
    rcases Nat.lt_succ_iff_lt_or_eq.mp h with hlt | rfl
    · rw [daysBeforeMonth_succ year (hpos.trans (Nat.le_of_lt hlt))]
      exact (ih hlt).trans (Nat.le_add_right _ _)
    · rw [daysBeforeMonth_succ year hpos]

lemma monthLength_le (year month : ℕ) : monthLength year month ≤ 31 := by
  unfold monthLength
  split
  · split_ifs <;> decide
  all_goals decide

/-- A year has as many days as its months. -/
lemma daysBeforeMonth_year (year : ℕ) : daysBeforeMonth year 13 = yearLength year := by
  simp only [daysBeforeMonth, monthLength, yearLength]
  split_ifs <;> rfl

namespace Date

variable {d d' : Date}

lemma Valid.dayNumber_lt (h : d.Valid) : d.dayNumber < daysBeforeYear d.year + yearLength d.year := by
  have hmonth := daysBeforeMonth_mono d.year h.month_pos (Nat.lt_succ_of_le h.month_le)
  rw [daysBeforeMonth_year] at hmonth
  have := h.day_pos
  have := h.day_le
  rw [dayNumber]
  omega

/-- Later dates have greater numbers. -/
theorem dayNumber_strictMono (h : d.Valid) (hlt : d.Before d') : d.dayNumber < d'.dayNumber := by
  rcases hlt with hyear | ⟨hyear, hmonth | ⟨hmonth, hday⟩⟩
  · have := daysBeforeYear_mono hyear
    have := h.dayNumber_lt
    have : daysBeforeYear d'.year ≤ d'.dayNumber := by rw [dayNumber]; omega
    omega
  · have hbefore := daysBeforeMonth_mono d.year h.month_pos hmonth
    have := h.day_pos
    have := h.day_le
    rw [dayNumber, dayNumber, ← hyear]
    omega
  · have := h.day_pos
    rw [dayNumber, dayNumber, ← hyear, ← hmonth]
    omega

lemma before_trichotomy (d d' : Date) : d.Before d' ∨ d = d' ∨ d'.Before d := by
  obtain ⟨y, m, k⟩ := d
  obtain ⟨y', m', k'⟩ := d'
  simp only [Before, Date.mk.injEq]
  omega

end Date

/-! ### Years that begin in March -/

/-- The month of a day of a year that begins in March, where January and February belong to the next year. -/
def marchMonth (doy : ℕ) : ℕ := if (5 * doy + 2) / 153 < 10 then (5 * doy + 2) / 153 + 3 else (5 * doy + 2) / 153 - 9

def marchDate (year doy : ℕ) : Date where
  year := if marchMonth doy ≤ 2 then year + 1 else year
  month := marchMonth doy
  day := doy - (153 * ((5 * doy + 2) / 153) + 2) / 5 + 1

/-- The days of a year that begins in March. -/
def marchLength (year : ℕ) : ℕ := yearLength (year + 1)

lemma marchLength_eq (year : ℕ) : marchLength year = 365 + if isLeap (year + 1) then 1 else 0 :=
  yearLength_eq (year + 1)

/-- The days before the March of a year, but for the first two months. -/
lemma daysBeforeYear_succ_eq (year : ℕ) :
    daysBeforeYear (year + 1) + year / 100 = 365 * year + 366 + year / 4 + year / 400 := by
  have := daysBeforeYear_eq (year + 1)
  omega

/-- Where the months from March to December begin. -/
lemma march_month (year : ℕ) {mp : ℕ} (h : mp < 10) :
    daysBeforeMonth year (mp + 3) = 59 + (if isLeap year then 1 else 0) + (153 * mp + 2) / 5 ∧
      monthLength year (mp + 3) + (153 * mp + 2) / 5 = (153 * (mp + 1) + 2) / 5 := by
  have hfeb : monthLength year 2 = 28 + if isLeap year then 1 else 0 := by
    rw [monthLength]
    split_ifs <;> rfl
  have hmarch : daysBeforeMonth year 3 = 59 + if isLeap year then 1 else 0 := by
    rw [daysBeforeMonth_succ year (by decide), hfeb]
    simp only [daysBeforeMonth, monthLength]
    omega
  interval_cases mp
  all_goals simp only [daysBeforeMonth, monthLength, hmarch, and_true]
  omega

/-- The date of a day of a year that begins in March. -/
theorem marchDate_spec {year doy : ℕ} (h : doy < marchLength year) : (marchDate year doy).Valid ∧
    (marchDate year doy).dayNumber + year / 100 = 365 * year + year / 4 + year / 400 + doy + 60 := by
  have hyear := daysBeforeYear_succ_eq year
  have hnext : daysBeforeYear (year + 1) = daysBeforeYear year + (365 + if isLeap year then 1 else 0) := by
    rw [daysBeforeYear, yearLength_eq]
  rw [marchLength_eq] at h
  obtain ⟨mp, hmp⟩ : ∃ mp, (5 * doy + 2) / 153 = mp := ⟨_, rfl⟩
  have hle : mp ≤ 11 := by
    split_ifs at h
    · omega
    · omega
  rw [marchDate, marchMonth, hmp]
  rcases Nat.lt_or_ge mp 10 with hlt | hge
  · obtain ⟨hbefore, hlength⟩ := march_month year hlt
    have hlate : ¬ mp + 3 ≤ 2 := by omega
    rw [if_pos hlt, if_neg hlate]
    refine ⟨⟨by dsimp only; omega, by dsimp only; omega, by dsimp only; omega, by dsimp only; omega⟩, ?_⟩
    rw [Date.dayNumber]
    dsimp only
    omega
  · have hjanuary : daysBeforeMonth (year + 1) 1 = 0 := rfl
    have hfebruary : daysBeforeMonth (year + 1) 2 = 31 := rfl
    have hlength : monthLength (year + 1) 2 = 28 + if isLeap (year + 1) then 1 else 0 := by
      rw [monthLength]
      split_ifs <;> rfl
    obtain rfl | rfl : mp = 10 ∨ mp = 11 := by omega
    · refine ⟨⟨by simp, by simp, by simp, ?_⟩, ?_⟩
      · simp only [monthLength, Nat.lt_irrefl, if_false]
        omega
      · simp only [Date.dayNumber, Nat.lt_irrefl, if_false, Nat.reduceSub, Nat.reduceLeDiff, if_true, hjanuary]
        omega
    · refine ⟨⟨by simp, by simp, by simp, ?_⟩, ?_⟩
      · simp only [Nat.reduceLT, Nat.reduceSub, Nat.le_refl, if_false, if_true, hlength]
        omega
      · simp only [Date.dayNumber, Nat.reduceLT, Nat.reduceSub, Nat.le_refl, if_false, if_true, hfebruary]
        omega

end ThistleOS.Calendar
