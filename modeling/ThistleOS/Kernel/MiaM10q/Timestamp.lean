import Mathlib.Data.List.Range
import ThistleOS.Calendar
import ThistleOS.Text

/-!
# The time of a position

The date and the time of a sentence become seconds since 1970. The count is right for every valid date; what is no digit
counts as zero, and neither the length of the month nor the range of the time is looked at.
-/

open ThistleOS.Calendar (Date)

namespace ThistleOS.MiaM10q

def isAsciiDigit (b : UInt8) : Bool := 0x30 ≤ b && b ≤ 0x39

def digit (b : UInt8) : ℕ := if isAsciiDigit b then (b - 0x30).toNat else 0

/-- The number of the two digits from `i` on. -/
def twoDigits (bytes : List UInt8) (i : ℕ) : ℕ := digit (bytes.getD i 0) * 10 + digit (bytes.getD (i + 1) 0)

/-- The century of a year in two digits. -/
def fullYear (yy : ℕ) : ℕ := if yy ≥ 70 then 1900 + yy else 2000 + yy

def isLeap (y : ℕ) : Bool := (y % 4 == 0 && y % 100 != 0) || y % 400 == 0

def daysInMonth : List ℕ := [31, 28, 31, 30, 31, 30, 31, 31, 30, 31, 30, 31]

/-- The days from 1970 to the start of the year. -/
def daysOfYears (year : ℕ) : ℕ :=
  (List.range' 1970 (year - 1970)).foldl (fun days y => days + if isLeap y then 366 else 365) 0

/-- The days of the months that are over. -/
def daysOfMonths (year month : ℕ) : ℕ :=
  (List.range' 1 (month - 1)).foldl
    (fun days m => days + (daysInMonth.getD (m - 1) 0 + if m == 2 && isLeap year then 1 else 0)) 0

/-- The seconds of the day. -/
def timeOfDay (timeStr : List UInt8) : ℕ := twoDigits timeStr 0 * 3600 + twoDigits timeStr 2 * 60 + twoDigits timeStr 4

def nmeaToTimestamp (timeStr dateStr : List UInt8) : UInt32 :=
  if timeStr.length < 6 ∨ dateStr.length < 6 then 0
  else
    let mday := twoDigits dateStr 0
    let month := twoDigits dateStr 2
    let year := fullYear (twoDigits dateStr 4)
    if mday = 0 ∨ month = 0 ∨ month > 12 then 0
    else
      let days := daysOfYears year + daysOfMonths year month + (mday - 1)
      UInt32.ofNat (days * 86400 + timeOfDay timeStr)

/-! ### The count of the days -/

lemma isLeap_eq (y : ℕ) : isLeap y = Calendar.isLeap y := by
  rw [Bool.eq_iff_iff, Calendar.isLeap_iff]
  simp only [isLeap, Bool.or_eq_true, Bool.and_eq_true, beq_iff_eq, bne_iff_ne]
  omega

lemma foldl_years (a n : ℕ) :
    (List.range' a n).foldl (fun days y => days + if isLeap y then 366 else 365) 0 + Calendar.daysBeforeYear a =
      Calendar.daysBeforeYear (a + n) := by
  induction n with
  | zero => exact Nat.zero_add _
  | succ n ih =>
    rw [List.range'_concat, List.foldl_append, Nat.one_mul, ← Nat.add_assoc, Calendar.daysBeforeYear, ← ih,
      Calendar.yearLength, ← isLeap_eq]
    simp only [List.foldl_cons, List.foldl_nil]
    omega

lemma daysOfYears_add {year : ℕ} (h : 1970 ≤ year) :
    daysOfYears year + Calendar.daysBeforeYear 1970 = Calendar.daysBeforeYear year := by
  rw [daysOfYears, foldl_years, Nat.add_sub_cancel' h]

lemma monthLength_eq (year : ℕ) {m : ℕ} (hpos : 1 ≤ m) (hle : m ≤ 12) :
    daysInMonth.getD (m - 1) 0 + (if m == 2 && isLeap year then 1 else 0) = Calendar.monthLength year m := by
  rw [isLeap_eq]
  interval_cases m
  case «2» =>
    simp only [Calendar.monthLength]
    split_ifs <;> simp_all [daysInMonth]
  all_goals rfl

lemma foldl_months (year : ℕ) {n : ℕ} (h : n ≤ 12) :
    (List.range' 1 n).foldl
      (fun days m => days + (daysInMonth.getD (m - 1) 0 + if m == 2 && isLeap year then 1 else 0)) 0 =
      Calendar.daysBeforeMonth year (n + 1) := by
  induction n with
  | zero => rfl
  | succ n ih =>
    rw [List.range'_concat, List.foldl_append, ih (Nat.le_of_succ_le h), Nat.one_mul, Nat.add_comm 1 n,
      Calendar.daysBeforeMonth_succ year (Nat.succ_pos n), ← monthLength_eq year (Nat.succ_pos n) h]
    rfl

lemma daysOfMonths_eq (year : ℕ) {month : ℕ} (hpos : 1 ≤ month) (hle : month ≤ 12) :
    daysOfMonths year month = Calendar.daysBeforeMonth year month := by
  rw [daysOfMonths, foldl_months year (by omega), Nat.sub_add_cancel hpos]

/-! ### Valid dates and times -/

def dot : UInt8 := 0x2e

/-- Nothing, or a point and digits. -/
def Fraction (rest : List UInt8) : Prop :=
  rest = [] ∨ ∃ digits, rest = dot :: digits ∧ digits ≠ [] ∧ ∀ b ∈ digits, isAsciiDigit b = true

structure ValidTime (timeStr : List UInt8) : Prop where
  length : 6 ≤ timeStr.length
  digits : ∀ b ∈ timeStr.take 6, isAsciiDigit b = true
  fraction : Fraction (timeStr.drop 6)
  hour : twoDigits timeStr 0 < 24
  min : twoDigits timeStr 2 < 60
  sec : twoDigits timeStr 4 < 60

/-- The date that the first six bytes give. -/
def dateOf (dateStr : List UInt8) : Date := ⟨fullYear (twoDigits dateStr 4), twoDigits dateStr 2, twoDigits dateStr 0⟩

structure ValidDate (dateStr : List UInt8) : Prop where
  length : dateStr.length = 6
  digits : ∀ b ∈ dateStr, isAsciiDigit b = true
  date : (dateOf dateStr).Valid

def Valid (timeStr dateStr : List UInt8) : Prop := ValidTime timeStr ∧ ValidDate dateStr

/-- A valid date and time become their seconds since 1970, and everything else becomes zero. -/
def Faithful (timeStr dateStr : List UInt8) : Prop :=
  (Valid timeStr dateStr →
    ((nmeaToTimestamp timeStr dateStr).toNat : ℤ) = (dateOf dateStr).daysFromCivil * 86400 + timeOfDay timeStr) ∧
  (¬ Valid timeStr dateStr → nmeaToTimestamp timeStr dateStr = 0)

/-- What becomes zero: too few bytes, no day, a month that is none, or the first second of 1970; what is no digit counts as
zero. -/
def Refused (timeStr dateStr : List UInt8) : Prop :=
  timeStr.length < 6 ∨ dateStr.length < 6 ∨ (dateOf dateStr).day = 0 ∨ (dateOf dateStr).month = 0 ∨
    12 < (dateOf dateStr).month ∨ dateOf dateStr = ⟨1970, 1, 1⟩ ∧ timeOfDay timeStr = 0

lemma digit_le (b : UInt8) : digit b ≤ 9 := by
  rw [digit]
  split_ifs with h
  · rw [isAsciiDigit, Bool.and_eq_true, decide_eq_true_eq, decide_eq_true_eq] at h
    rw [UInt8.toNat_sub_of_le _ _ h.1]
    have hle : b.toNat ≤ 57 := h.2
    exact Nat.sub_le_sub_right hle 48
  · exact Nat.zero_le 9

lemma twoDigits_le (bytes : List UInt8) (i : ℕ) : twoDigits bytes i ≤ 99 := by
  have := digit_le (bytes.getD i 0)
  have := digit_le (bytes.getD (i + 1) 0)
  rw [twoDigits]
  omega

lemma timeOfDay_le (timeStr : List UInt8) : timeOfDay timeStr ≤ 362439 := by
  have := twoDigits_le timeStr 0
  have := twoDigits_le timeStr 2
  have := twoDigits_le timeStr 4
  rw [timeOfDay]
  omega

lemma fullYear_bounds {yy : ℕ} (h : yy ≤ 99) : 1970 ≤ fullYear yy ∧ fullYear yy ≤ 2069 := by
  rw [fullYear]
  split_ifs <;> omega

/-- The days of the date that is read, from the first day of 1970 on. -/
def daysOf (d : Date) : ℕ := daysOfYears d.year + daysOfMonths d.year d.month + (d.day - 1)

/-- The date that is read has a day and a month. -/
structure Readable (timeStr dateStr : List UInt8) : Prop where
  time : 6 ≤ timeStr.length
  date : 6 ≤ dateStr.length
  day : 1 ≤ (dateOf dateStr).day
  month : 1 ≤ (dateOf dateStr).month
  month_le : (dateOf dateStr).month ≤ 12

variable {timeStr dateStr : List UInt8}

lemma nmeaToTimestamp_of_not_readable (h : ¬ Readable timeStr dateStr) : nmeaToTimestamp timeStr dateStr = 0 := by
  rw [nmeaToTimestamp]
  simp only []
  by_cases hlength : timeStr.length < 6 ∨ dateStr.length < 6
  · rw [if_pos hlength]
  · rw [if_neg hlength]
    apply if_pos
    by_contra hdate
    simp only [not_or, gt_iff_lt, Nat.not_lt] at hlength hdate
    exact h ⟨hlength.1, hlength.2, Nat.pos_of_ne_zero hdate.1, Nat.pos_of_ne_zero hdate.2.1, hdate.2.2⟩

lemma dateOf_year_bounds (dateStr : List UInt8) : 1970 ≤ (dateOf dateStr).year ∧ (dateOf dateStr).year ≤ 2069 :=
  fullYear_bounds (twoDigits_le dateStr 4)

lemma daysOf_le (h : Readable timeStr dateStr) : daysOf (dateOf dateStr) ≤ 40000 := by
  obtain ⟨hfrom, hto⟩ := dateOf_year_bounds dateStr
  have hadd := daysOfYears_add hfrom
  have hbefore := Calendar.daysBeforeYear_eq (dateOf dateStr).year
  have hbase := Calendar.daysBeforeYear_eq 1970
  have hmonths := Calendar.daysBeforeMonth_mono (dateOf dateStr).year h.month (Nat.lt_succ_of_le h.month_le)
  have hlength := Calendar.yearLength_eq (dateOf dateStr).year
  have hday : (dateOf dateStr).day ≤ 99 := twoDigits_le dateStr 0
  rw [Calendar.daysBeforeMonth_year] at hmonths
  rw [daysOf, daysOfMonths_eq _ h.month h.month_le]
  split_ifs at hlength <;> omega

/-- The seconds fit. -/
lemma toNat_nmeaToTimestamp (h : Readable timeStr dateStr) :
    (nmeaToTimestamp timeStr dateStr).toNat = daysOf (dateOf dateStr) * 86400 + timeOfDay timeStr := by
  have hlength : ¬ (timeStr.length < 6 ∨ dateStr.length < 6) := not_or.mpr ⟨Nat.not_lt.mpr h.time, Nat.not_lt.mpr h.date⟩
  have hdate : ¬ (twoDigits dateStr 0 = 0 ∨ twoDigits dateStr 2 = 0 ∨ twoDigits dateStr 2 > 12) :=
    not_or.mpr ⟨Nat.ne_of_gt h.day, not_or.mpr ⟨Nat.ne_of_gt h.month, Nat.not_lt.mpr h.month_le⟩⟩
  have hdays := daysOf_le h
  have htime := timeOfDay_le timeStr
  rw [nmeaToTimestamp, if_neg hlength]
  simp only [if_neg hdate]
  apply UInt32.toNat_ofNat_of_lt'
  have hsize : UInt32.size = 4294967296 := rfl
  rw [hsize]
  rw [daysOf] at hdays
  show (daysOfYears (dateOf dateStr).year + daysOfMonths (dateOf dateStr).year (dateOf dateStr).month +
    ((dateOf dateStr).day - 1)) * 86400 + timeOfDay timeStr < 4294967296
  omega

lemma daysOf_eq_daysFromCivil (h : Readable timeStr dateStr) :
    (daysOf (dateOf dateStr) : ℤ) = (dateOf dateStr).daysFromCivil := by
  have hadd := daysOfYears_add (dateOf_year_bounds dateStr).1
  have hfirst : (⟨1970, 1, 1⟩ : Date).dayNumber = Calendar.daysBeforeYear 1970 := by
    rw [Date.dayNumber]
    simp only [Calendar.daysBeforeMonth, Nat.sub_self, Nat.add_zero]
  rw [Date.daysFromCivil, Date.dayNumber, hfirst, daysOf, daysOfMonths_eq _ h.month h.month_le, ← hadd]
  omega

/-- The count is zero on its first day only. -/
lemma daysOf_eq_zero_iff (h : Readable timeStr dateStr) : daysOf (dateOf dateStr) = 0 ↔ dateOf dateStr = ⟨1970, 1, 1⟩ := by
  constructor
  · intro hzero
    have hadd := daysOfYears_add (dateOf_year_bounds dateStr).1
    rw [daysOf, daysOfMonths_eq _ h.month h.month_le] at hzero
    have hyear : (dateOf dateStr).year = 1970 := by
      by_contra hne
      have hmono := Calendar.daysBeforeYear_mono (Nat.lt_of_le_of_ne (dateOf_year_bounds dateStr).1 (Ne.symm hne))
      have hlength := Calendar.yearLength_eq 1970
      omega
    have hmonth : (dateOf dateStr).month = 1 := by
      by_contra hne
      have hmono := Calendar.daysBeforeMonth_mono (dateOf dateStr).year (Nat.le_refl 1)
        (Nat.lt_of_le_of_ne h.month (Ne.symm hne))
      have hlength : Calendar.monthLength (dateOf dateStr).year 1 = 31 := rfl
      omega
    have hday : (dateOf dateStr).day = 1 := by
      have := h.day
      omega
    generalize dateOf dateStr = d at hyear hmonth hday
    cases d
    subst hyear hmonth hday
    rfl
  · intro heq
    rw [heq]
    rfl

lemma Valid.readable (h : Valid timeStr dateStr) : Readable timeStr dateStr :=
  ⟨h.1.length, Nat.le_of_eq h.2.length.symm, h.2.date.day_pos, h.2.date.month_pos, h.2.date.month_le⟩

lemma refused_iff : Refused timeStr dateStr ↔
    ¬ Readable timeStr dateStr ∨ dateOf dateStr = ⟨1970, 1, 1⟩ ∧ timeOfDay timeStr = 0 := by
  have hreadable : Readable timeStr dateStr ↔ 6 ≤ timeStr.length ∧ 6 ≤ dateStr.length ∧ 1 ≤ (dateOf dateStr).day ∧
      1 ≤ (dateOf dateStr).month ∧ (dateOf dateStr).month ≤ 12 :=
    ⟨fun h => ⟨h.time, h.date, h.day, h.month, h.month_le⟩, fun h => ⟨h.1, h.2.1, h.2.2.1, h.2.2.2.1, h.2.2.2.2⟩⟩
  rw [hreadable, Refused]
  simp only [not_and_or, Nat.not_le, Nat.lt_one_iff, or_assoc]

/-- Exactly what is refused becomes zero. -/
lemma nmeaToTimestamp_eq_zero_iff : nmeaToTimestamp timeStr dateStr = 0 ↔ Refused timeStr dateStr := by
  rw [refused_iff]
  by_cases h : Readable timeStr dateStr
  · rw [← UInt32.toNat_inj, toNat_nmeaToTimestamp h, ← daysOf_eq_zero_iff h]
    simp only [UInt32.toNat_zero, h, not_true, false_or]
    omega
  · simp only [nmeaToTimestamp_of_not_readable h, h, not_false_eq_true, true_or]

/-- The time is right for exactly the strings that are valid, and those that are refused. -/
theorem faithful_iff (timeStr dateStr : List UInt8) :
    Faithful timeStr dateStr ↔ Valid timeStr dateStr ∨ Refused timeStr dateStr := by
  have hvalid : Valid timeStr dateStr →
      ((nmeaToTimestamp timeStr dateStr).toNat : ℤ) = (dateOf dateStr).daysFromCivil * 86400 + timeOfDay timeStr := by
    intro h
    rw [toNat_nmeaToTimestamp h.readable, ← daysOf_eq_daysFromCivil h.readable]
    omega
  rw [Faithful, nmeaToTimestamp_eq_zero_iff]
  constructor
  · intro h
    by_cases hv : Valid timeStr dateStr
    · exact .inl hv
    · exact .inr (h.2 hv)
  · intro h
    exact ⟨hvalid, fun hv => h.resolve_left hv⟩

/-- The thirtieth of February. -/
theorem not_faithful_february : ¬ Faithful (utf8 "000000") (utf8 "300211") := by
  intro h
  have hinvalid : ¬ Valid (utf8 "000000") (utf8 "300211") := fun hvalid => by
    have hday := hvalid.2.date.day_le
    revert hday
    decide
  exact absurd (h.2 hinvalid) (by decide)

end ThistleOS.MiaM10q
