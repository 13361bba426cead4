import ThistleOS.Calendar
import ThistleOS.Digits

/-!
# Timestamps

The track exporter and the data logger each turn a Unix time into a text. The two find the same date and time,
which the text gives, and the texts are in the order of the times.
-/

open ThistleOS.Calendar ThistleOS.Digits

namespace ThistleOS.Timestamps

/-! ### The two functions -/

/-- `{:04}-{:02}-{:02}T{:02}:{:02}:{:02}Z`, with the text of the year. -/
def iso8601 (year : List Char) (month day hour minute second : ℕ) : List Char :=
  year ++ '-' :: (padded 2 month ++ '-' :: (padded 2 day ++ 'T' :: (padded 2 hour ++ ':' :: (padded 2 minute ++
    ':' :: (padded 2 second ++ ['Z'])))))

/-- A number with a sign, which is one of the characters of the width. -/
def paddedInt (width : ℕ) (n : ℤ) : List Char :=
  if n < 0 then '-' :: padded (width - 1) n.natAbs else padded width n.natAbs

namespace GpsTrack

def unixToIso8601 (ts : UInt32) : List Char :=
  let ts := ts.toNat
  let secsPerDay := 86400
  let days := ts / secsPerDay
  let daySecs := ts % secsPerDay
  let hour := daySecs / 3600
  let minute := daySecs % 3600 / 60
  let second := daySecs % 60
  let days := days + 719468
  let era := days / 146097
  let doe := days - era * 146097
  let yoe := (doe - doe / 1460 + doe / 36524 - doe / 146096) / 365
  let y := yoe + era * 400
  let doy := doe - (365 * yoe + yoe / 4 - yoe / 100)
  let mp := (5 * doy + 2) / 153
  let d := doy - (153 * mp + 2) / 5 + 1
  let m := if mp < 10 then mp + 3 else mp - 9
  let y := if m ≤ 2 then y + 1 else y
  iso8601 (padded 4 y) m d hour minute second

end GpsTrack

namespace DataLogger

def unixToIso8601 (ts : UInt32) : List Char :=
  let secs := ts.toNat
  let daysSinceEpoch : ℤ := (secs / 86400 : ℕ)
  let timeOfDay := secs % 86400
  let hours := timeOfDay / 3600
  let minutes := timeOfDay % 3600 / 60
  let seconds := timeOfDay % 60
  let z := daysSinceEpoch + 719468
  let era := (if z ≥ 0 then z else z - 146096).tdiv 146097
  let doe := (z - era * 146097).toNat
  let yoe := (doe - doe / 1460 + doe / 36524 - doe / 146096) / 365
  let y : ℤ := yoe + era * 400
  let doy := doe - (365 * yoe + yoe / 4 - yoe / 100)
  let mp := (5 * doy + 2) / 153
  let d := doy - (153 * mp + 2) / 5 + 1
  let m := if mp < 10 then mp + 3 else mp - 9
  let y := if m ≤ 2 then y + 1 else y
  iso8601 (paddedInt 4 y) m d hours minutes seconds

end DataLogger

/-! ### Moments -/

structure Moment where
  date : Date
  hour : ℕ
  minute : ℕ
  second : ℕ
  deriving DecidableEq

namespace Moment

structure Valid (w : Moment) : Prop where
  date : w.date.Valid
  hour : w.hour < 24
  minute : w.minute < 60
  second : w.second < 60

/-- The seconds from the beginning of 1970 on. -/
def unixTime (w : Moment) : ℤ := w.date.daysFromCivil * 86400 + w.hour * 3600 + w.minute * 60 + w.second

def text (w : Moment) : List Char :=
  iso8601 (padded 4 w.date.year) w.date.month w.date.day w.hour w.minute w.second

end Moment

/-- The moment that a text denotes: each number at its place, the marks between them. -/
def readIso8601 : List Char → Option Moment
  | [y, y', y'', y''', '-', m, m', '-', d, d', 'T', h, h', ':', n, n', ':', s, s', 'Z'] => do
    let year ← readDigits [y, y', y'', y'''] 0
    let month ← readDigits [m, m'] 0
    let day ← readDigits [d, d'] 0
    let hour ← readDigits [h, h'] 0
    let minute ← readDigits [n, n'] 0
    let second ← readDigits [s, s'] 0
    some ⟨⟨year, month, day⟩, hour, minute, second⟩
  | _ => none

/-! ### The date of a day -/

/-- The year of a day of an era of 400 years, and the day of that year, which begins in March. -/
def yearOfEra (doe : ℕ) : ℕ := (doe - doe / 1460 + doe / 36524 - doe / 146096) / 365

def dayOfYear (doe : ℕ) : ℕ := doe - (365 * yearOfEra doe + yearOfEra doe / 4 - yearOfEra doe / 100)

/-- A day in its century, in its four years and in its year. -/
lemma exists_doe {doe : ℕ} (h : doe < 146097) : ∃ c q r doy, c ≤ 3 ∧ q ≤ 24 ∧ r ≤ 3 ∧ doy ≤ 365 ∧
    (doy = 365 → r = 3 ∧ (q < 24 ∨ c = 3)) ∧ doe = 36524 * c + 1461 * q + 365 * r + doy := by
  refine ⟨min (doe / 36524) 3, (doe - 36524 * min (doe / 36524) 3) / 1461,
    min ((doe - 36524 * min (doe / 36524) 3) % 1461 / 365) 3, _, ?_, ?_, ?_, ?_, ?_, (Nat.add_sub_of_le ?_).symm⟩
  all_goals omega

lemma yearOfEra_eq {doe c q r doy : ℕ} (hc : c ≤ 3) (hq : q ≤ 24) (hr : r ≤ 3) (hdoy : doy ≤ 365)
    (hleap : doy = 365 → r = 3 ∧ (q < 24 ∨ c = 3)) (hdoe : doe = 36524 * c + 1461 * q + 365 * r + doy) :
    yearOfEra doe = 100 * c + 4 * q + r := by
  have hquarters : doe / 1460 = 25 * c + q + if 24 * c + q + 365 * r + doy < 1460 then 0 else 1 := by
    split_ifs <;> omega
  have hcenturies : doe / 36524 = c + if doe = 146096 then 1 else 0 := by
    split_ifs <;> omega
  have hlast : doe / 146096 = if doe = 146096 then 1 else 0 := by
    split_ifs <;> omega
  rw [yearOfEra, hquarters, hcenturies, hlast]
  split_ifs <;> omega

/-- The days of an era are those of its years. -/
lemma era_spec {doe : ℕ} (h : doe < 146097) (era : ℕ) : dayOfYear doe < marchLength (yearOfEra doe + era * 400) ∧
    doe + yearOfEra doe / 100 = 365 * yearOfEra doe + yearOfEra doe / 4 + dayOfYear doe ∧ yearOfEra doe < 400 := by
  obtain ⟨c, q, r, doy, hc, hq, hr, hdoy, hleap, hdoe⟩ := exists_doe h
  have hyoe := yearOfEra_eq hc hq hr hdoy hleap hdoe
  have hquarters : (100 * c + 4 * q + r) / 4 = 25 * c + q := by omega
  have hcenturies : (100 * c + 4 * q + r) / 100 = c := by omega
  have hdoy' : dayOfYear doe = doy := by
    rw [dayOfYear, hyoe, hquarters, hcenturies]
    omega
  rw [hdoy', hyoe, hquarters, hcenturies]
  refine ⟨?_, by omega, by omega⟩
  rw [marchLength_eq]
  split_ifs with hyear
  · omega
  · rw [isLeap_iff] at hyear
    omega

/-! ### The two texts -/

/-- The moment that both functions find. -/
def moment (ts : UInt32) : Moment where
  date := marchDate (yearOfEra ((ts.toNat / 86400 + 719468) % 146097) + (ts.toNat / 86400 + 719468) / 146097 * 400)
    (dayOfYear ((ts.toNat / 86400 + 719468) % 146097))
  hour := ts.toNat % 86400 / 3600
  minute := ts.toNat % 86400 % 3600 / 60
  second := ts.toNat % 86400 % 60

lemma sub_era (days : ℕ) : days - days / 146097 * 146097 = days % 146097 := by
  omega

/-- The differences of the two functions are those of integers. -/
lemma yearOfEra_room {doe : ℕ} (h : doe < 146097) : doe / 1460 ≤ doe ∧
    doe / 146096 ≤ doe - doe / 1460 + doe / 36524 ∧ yearOfEra doe / 100 ≤ 365 * yearOfEra doe + yearOfEra doe / 4 ∧
    365 * yearOfEra doe + yearOfEra doe / 4 - yearOfEra doe / 100 ≤ doe := by
  obtain ⟨-, hspec, -⟩ := era_spec h 0
  omega

lemma gpsTrack_text (ts : UInt32) : GpsTrack.unixToIso8601 ts = (moment ts).text := by
  rw [GpsTrack.unixToIso8601]
  simp only [sub_era]
  rfl

lemma paddedInt_natCast (width n : ℕ) : paddedInt width n = padded width n := by
  rw [paddedInt, if_neg (Int.not_lt.mpr (Int.natCast_nonneg n)), Int.natAbs_natCast]

/-- The count of days is not negative, so its era is that of the natural number. -/
lemma era_eq (days : ℕ) :
    (if ((days : ℤ) + 719468) ≥ 0 then (days : ℤ) + 719468 else days + 719468 - 146096).tdiv 146097 =
      ((days + 719468) / 146097 : ℕ) := by
  rw [if_pos (by omega)]
  exact Int.ofNat_tdiv (days + 719468) 146097

lemma dataLogger_text (ts : UInt32) : DataLogger.unixToIso8601 ts = (moment ts).text := by
  have hdoe (days : ℕ) : ((days : ℤ) + 719468 - ((days + 719468) / 146097 : ℕ) * 146097).toNat =
      (days + 719468) % 146097 := by
    omega
  rw [DataLogger.unixToIso8601]
  simp only [era_eq, hdoe]
  rw [Moment.text, ← paddedInt_natCast 4 (moment ts).date.year]
  congr 2
  change _ = ((if _ then _ else _ : ℕ) : ℤ)
  rw [Nat.cast_ite]
  rfl

lemma moment_valid (ts : UInt32) : (moment ts).Valid := by
  have hdoe : (ts.toNat / 86400 + 719468) % 146097 < 146097 := Nat.mod_lt _ (by decide)
  refine ⟨(marchDate_spec (era_spec hdoe _).1).1, ?_, ?_, ?_⟩
  all_goals
    dsimp only [moment]
    omega

lemma moment_dayNumber (ts : UInt32) : (moment ts).date.dayNumber = ts.toNat / 86400 + 719528 := by
  obtain ⟨days, hdays⟩ : ∃ days, ts.toNat / 86400 + 719468 = days := ⟨_, rfl⟩
  have hdoe : days % 146097 < 146097 := Nat.mod_lt _ (by decide)
  obtain ⟨hlt, hspec, hyear⟩ := era_spec hdoe (days / 146097)
  have hdate := (marchDate_spec hlt).2
  rw [moment, hdays]
  dsimp only
  omega

lemma moment_unixTime (ts : UInt32) : (moment ts).unixTime = ts.toNat := by
  have hepoch : (⟨1970, 1, 1⟩ : Date).dayNumber = 719528 := by decide +kernel
  rw [Moment.unixTime, Date.daysFromCivil, moment_dayNumber, hepoch]
  dsimp only [moment]
  omega

/-- Four digits are enough for the year. -/
lemma moment_year (ts : UInt32) : (moment ts).date.year < 10000 := by
  have hyear := daysBeforeYear_eq (moment ts).date.year
  have hday := moment_dayNumber ts
  have hle : daysBeforeYear (moment ts).date.year ≤ (moment ts).date.dayNumber := by
    rw [Date.dayNumber]
    omega
  have := ts.toNat_lt
  omega

/-! ### Reading and order -/

namespace Moment

variable {w w' : Moment}

lemma Valid.month_lt (h : w.Valid) : w.date.month < 100 := by
  have := h.date.month_le
  omega

lemma Valid.day_lt (h : w.Valid) : w.date.day < 100 := by
  have := monthLength_le w.date.year w.date.month
  have := h.date.day_le
  omega

/-- A moment of four digits is read back from its text. -/
lemma readIso8601_text (h : w.Valid) (hyear : w.date.year < 10000) : readIso8601 w.text = some w := by
  have htwo : 0 < 2 := by decide
  have hhour : w.hour < 100 := h.hour.trans (by decide)
  have hminute : w.minute < 100 := h.minute.trans (by decide)
  have hsecond : w.second < 100 := h.second.trans (by decide)
  have hread := readDigits_padded (by decide : 0 < 4) hyear
  have hread₁ := readDigits_padded htwo h.month_lt
  have hread₂ := readDigits_padded htwo h.day_lt
  have hread₃ := readDigits_padded htwo hhour
  have hread₄ := readDigits_padded htwo hminute
  have hread₅ := readDigits_padded htwo hsecond
  rw [padded_eq (by decide) hyear] at hread
  rw [padded_eq htwo h.month_lt] at hread₁
  rw [padded_eq htwo h.day_lt] at hread₂
  rw [padded_eq htwo hhour] at hread₃
  rw [padded_eq htwo hminute] at hread₄
  rw [padded_eq htwo hsecond] at hread₅
  rw [text, iso8601, padded_eq (by decide) hyear, padded_eq htwo h.month_lt, padded_eq htwo h.day_lt,
    padded_eq htwo hhour, padded_eq htwo hminute, padded_eq htwo hsecond]
  simp only [lastDigits, List.nil_append, List.cons_append] at hread hread₁ hread₂ hread₃ hread₄ hread₅ ⊢
  rw [readIso8601, hread, hread₁, hread₂, hread₃, hread₄, hread₅]
  rfl

/-- A moment is before another. -/
def Before (w w' : Moment) : Prop :=
  w.date.Before w'.date ∨ w.date = w'.date ∧ (w.hour < w'.hour ∨ w.hour = w'.hour ∧
    (w.minute < w'.minute ∨ w.minute = w'.minute ∧ w.second < w'.second))

lemma before_of_unixTime_lt (h : w.Valid) (h' : w'.Valid) (hlt : w.unixTime < w'.unixTime) : w.Before w' := by
  have hhour := h.hour
  have hminute := h.minute
  have hsecond := h.second
  have hhour' := h'.hour
  have hminute' := h'.minute
  have hsecond' := h'.second
  rw [unixTime, unixTime, Date.daysFromCivil, Date.daysFromCivil] at hlt
  rcases Date.before_trichotomy w.date w'.date with hdate | hdate | hdate
  · exact .inl hdate
  · rw [hdate] at hlt
    exact .inr ⟨hdate, by omega⟩
  · have := Date.dayNumber_strictMono h'.date hdate
    omega

/-- Two texts that begin alike compare after that. -/
lemma after_lt {r r' : List Char} (h : r < r') (l : List Char) (c : Char) : l ++ c :: r < l ++ c :: r' :=
  List.append_left_lt (List.cons_lt_cons_iff.mpr (.inr ⟨rfl, h⟩))

/-- Earlier moments have smaller texts. -/
lemma text_lt (h' : w'.Valid) (hyear : w'.date.year < 10000) (hlt : w.Before w') : w.text < w'.text := by
  have htwo : 0 < 2 := by decide
  have hhour : w'.hour < 100 := h'.hour.trans (by decide)
  have hminute : w'.minute < 100 := h'.minute.trans (by decide)
  have hsecond : w'.second < 100 := h'.second.trans (by decide)
  rw [text, text, iso8601, iso8601]
  rcases hlt with (hlt | ⟨heq, hlt | ⟨heq', hlt⟩⟩) | ⟨heq, hlt | ⟨heq', hlt | ⟨heq'', hlt⟩⟩⟩
  · exact padded_lt (by decide) hlt hyear _ _
  · rw [heq]
    exact after_lt (padded_lt htwo hlt h'.month_lt _ _) _ _
  · rw [heq, heq']
    exact after_lt (after_lt (padded_lt htwo hlt h'.day_lt _ _) _ _) _ _
  · rw [heq]
    exact after_lt (after_lt (after_lt (padded_lt htwo hlt hhour _ _) _ _) _ _) _ _
  · rw [heq, heq']
    exact after_lt (after_lt (after_lt (after_lt (padded_lt htwo hlt hminute _ _) _ _) _ _) _ _) _ _
  · rw [heq, heq', heq'']
    exact after_lt (after_lt (after_lt (after_lt (after_lt (padded_lt htwo hlt hsecond _ _) _ _) _ _) _ _) _ _) _ _

end Moment

/-- Both functions write the moment of a time, from which the time is counted, and later times have greater texts. -/
theorem timestamps_are_civil (ts : UInt32) :
    GpsTrack.unixToIso8601 ts = DataLogger.unixToIso8601 ts ∧
      (∃ w : Moment, w.Valid ∧ readIso8601 (GpsTrack.unixToIso8601 ts) = some w ∧ w.unixTime = ts.toNat) ∧
      ∀ ts', ts < ts' → GpsTrack.unixToIso8601 ts < GpsTrack.unixToIso8601 ts' := by
  refine ⟨(gpsTrack_text ts).trans (dataLogger_text ts).symm, ⟨moment ts, moment_valid ts, ?_, moment_unixTime ts⟩, ?_⟩
  · rw [gpsTrack_text]
    exact Moment.readIso8601_text (moment_valid ts) (moment_year ts)
  · intro ts' hlt
    rw [gpsTrack_text, gpsTrack_text]
    refine Moment.text_lt (moment_valid ts') (moment_year ts') ?_
    refine Moment.before_of_unixTime_lt (moment_valid ts) (moment_valid ts') ?_
    rw [moment_unixTime, moment_unixTime]
    exact Int.ofNat_lt.mpr (UInt32.lt_iff_toNat_lt.mp hlt)

example : GpsTrack.unixToIso8601 951782400 = "2000-02-29T00:00:00Z".toList := by decide +kernel

end ThistleOS.Timestamps
