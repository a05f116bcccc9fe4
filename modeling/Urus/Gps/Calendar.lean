/-
This file models the conversion of dates from GPS receivers to GPS weeks, and of GPS weeks to Unix
time, and proves what the two of them give for a date.

The count of days in `make_gps_time` takes away the number of leap seconds where the correction for
the centuries belongs, which is 15. With 18 leap seconds the date comes out three days early, and
the time, whose offset is still that of 15 leap seconds, three seconds.
-/

import Mathlib.Tactic

namespace Urus.Gps.Calendar

/-! ### The code -/

/-- `GPS_LEAPSECONDS_MILLIS`, `AP_SEC_PER_WEEK`, `AP_MSEC_PER_SEC`, `AP_MSEC_PER_WEEK` and
`UNIX_OFFSET_MSEC`. -/
def gpsLeapsecondsMillis : ℕ := 18000
def apSecPerWeek : ℕ := 7 * 86400
def apMsecPerSec : ℕ := 1000
def apMsecPerWeek : ℕ := apSecPerWeek * apMsecPerSec
def unixOffsetMsec : ℕ := 17000 * 86400 + 52 * 10 * apMsecPerWeek - gpsLeapsecondsMillis

/-- A GPS week and the milliseconds since it has begun. -/
structure GpsTime where
  timeWeek : ℕ
  timeWeekMs : ℕ
  deriving DecidableEq

/-- The month with March as the first one, and the year it counts to, as `uint8_t`. -/
def shiftMonth (year mon : ℕ) : ℤ × ℕ :=
  let rmon : ℤ := mon - 2
  if 0 ≥ rmon then (rmon + 12, (year + 2 ^ 8 - 1) % 2 ^ 8) else (rmon, year)

/-- The seconds since the GPS epoch, as `uint32_t`. The first sum is one of `uint64_t`. -/
def gpsSeconds (year mon day hour min sec : ℕ) : ℤ :=
  let (rmon, year) := shiftMonth year mon
  let ret : ℤ := ((year / 4 : ℕ) - (gpsLeapsecondsMillis / 1000 : ℕ) + (367 * rmon).tdiv 12 + day) %
    2 ^ 64 % 2 ^ 32
  let ret : ℤ := (ret + (year * 365 + 10501 : ℕ)) % 2 ^ 32
  let ret : ℤ := (ret * 24 + hour) % 2 ^ 32
  let ret : ℤ := (ret * 60 + min) % 2 ^ 32
  let ret : ℤ := (ret * 60 + sec) % 2 ^ 32
  (ret - 272764785) % 2 ^ 32

/-- `make_gps_time`. -/
def makeGpsTime (bcdDate bcdMilliseconds : ℕ) : GpsTime :=
  let year := bcdDate % 100 % 2 ^ 8
  let mon := bcdDate / 100 % 100 % 2 ^ 8
  let day := bcdDate / 10000 % 2 ^ 8
  let msec := bcdMilliseconds % 1000
  let v := bcdMilliseconds / 1000
  let sec := v % 100
  let min := v / 100 % 100
  let hour := v / 100 / 100 % 100
  let ret := (gpsSeconds year mon day hour min sec).toNat
  { timeWeek := ret / apSecPerWeek % 2 ^ 16
    timeWeekMs := (ret % apSecPerWeek * apMsecPerSec % 2 ^ 32 + msec) % 2 ^ 32 }

/-- `time_epoch_convert`. -/
def timeEpochConvert (gpsWeek gpsMs : ℕ) : ℕ :=
  (unixOffsetMsec + gpsWeek * apMsecPerWeek + gpsMs) % 2 ^ 64

/-! ### Dates -/

/-- A leap year of the Gregorian calendar. -/
def IsLeap (year : ℕ) : Prop := year % 4 = 0 ∧ (year % 100 ≠ 0 ∨ year % 400 = 0)

instance : DecidablePred IsLeap :=
  fun year => inferInstanceAs (Decidable (year % 4 = 0 ∧ (year % 100 ≠ 0 ∨ year % 400 = 0)))

/-- The days of a month. -/
def daysInMonth (year month : ℕ) : ℕ :=
  if month = 2 then if IsLeap year then 29 else 28
  else if month = 4 ∨ month = 6 ∨ month = 9 ∨ month = 11 then 30
  else 31

/-- A date from the first of March 2000 to the end of 2099, and a time of the day. -/
structure UtcInstant where
  year : ℕ
  month : ℕ
  day : ℕ
  hour : ℕ
  minute : ℕ
  second : ℕ
  millisecond : ℕ
  validYear : 2000 ≤ year ∧ year ≤ 2099
  validMonth : 1 ≤ month ∧ month ≤ 12
  validDay : 1 ≤ day ∧ day ≤ daysInMonth year month
  sinceMarch : year = 2000 → 3 ≤ month
  validTime : hour < 24 ∧ minute < 60 ∧ second < 60 ∧ millisecond < 1000

/-- A date as ddmmyy. -/
def UtcInstant.bcdDate (instant : UtcInstant) : ℕ :=
  instant.day * 10000 + instant.month * 100 + instant.year % 100

/-- A time as hhmmssmmm. -/
def UtcInstant.bcdMilliseconds (instant : UtcInstant) : ℕ :=
  instant.hour * 10000000 + instant.minute * 100000 + instant.second * 1000 + instant.millisecond

/-- The days of some years from 1970 on. -/
def daysOfYears : ℕ → ℕ
  | 0 => 0
  | years + 1 => daysOfYears years + if IsLeap (1970 + years) then 366 else 365

/-- The days of the first months of a year. -/
def daysOfMonths (year : ℕ) : ℕ → ℕ
  | 0 => 0
  | months + 1 => daysOfMonths year months + daysInMonth year (months + 1)

/-- The days since the Unix epoch. -/
def UtcInstant.unixDays (instant : UtcInstant) : ℕ :=
  daysOfYears (instant.year - 1970) + daysOfMonths instant.year (instant.month - 1) +
    (instant.day - 1)

/-- The milliseconds since the Unix epoch, without leap seconds. -/
def UtcInstant.unixMilliseconds (instant : UtcInstant) : ℕ :=
  (((instant.unixDays * 24 + instant.hour) * 60 + instant.minute) * 60 + instant.second) * 1000 +
    instant.millisecond

/-! ### Days -/

theorem isLeap_iff {year : ℕ} (range : 2000 ≤ year ∧ year ≤ 2099) : IsLeap year ↔ year % 4 = 0 := by
  unfold IsLeap
  omega

theorem daysOfYears_eq {years : ℕ} (few : years ≤ 100) :
    daysOfYears (30 + years) = 10957 + 365 * years + (years + 3) / 4 := by
  induction years with
  | zero => decide
  | succ years inductionHypothesis =>
    have before := inductionHypothesis (by omega)
    rw [← Nat.add_assoc, daysOfYears, before]
    have leap := isLeap_iff (show 2000 ≤ 1970 + (30 + years) ∧ 1970 + (30 + years) ≤ 2099 by omega)
    by_cases fourth : (1970 + (30 + years)) % 4 = 0
    · rw [if_pos (leap.mpr fourth)]
      omega
    · rw [if_neg fun isLeap => fourth (leap.mp isLeap)]
      omega

/-- The days before a month, counted from the first of March. -/
theorem daysOfMonths_eq (year : ℕ) {month : ℕ} (range : 1 ≤ month ∧ month ≤ 12) :
    (daysOfMonths year (month - 1) : ℤ) =
      if month ≤ 2 then (367 * ((month : ℤ) + 10)).tdiv 12 - 336
      else (367 * ((month : ℤ) - 2)).tdiv 12 + 29 + if IsLeap year then 1 else 0 := by
  obtain ⟨first, last⟩ := range
  by_cases leap : IsLeap year <;> interval_cases month <;>
    simp [daysOfMonths, daysInMonth, leap]

theorem isLeap_next (instant : UtcInstant) :
    IsLeap instant.year ↔ (instant.year - 2000) % 4 = 0 := by
  rw [isLeap_iff instant.validYear]
  have range := instant.validYear
  omega

theorem days_eq (instant : UtcInstant) :
    (((shiftMonth (instant.year % 100) instant.month).2 / 4 : ℕ) : ℤ) +
        (367 * (shiftMonth (instant.year % 100) instant.month).1).tdiv 12 + instant.day +
        ((shiftMonth (instant.year % 100) instant.month).2 * 365 : ℕ) =
      (instant.unixDays : ℤ) - 10957 - 30 + 1 := by
  obtain ⟨firstYear, lastYear⟩ := instant.validYear
  obtain ⟨firstMonth, lastMonth⟩ := instant.validMonth
  obtain ⟨firstDay, -⟩ := instant.validDay
  have since := instant.sinceMarch
  have years : daysOfYears (instant.year - 1970) =
      10957 + 365 * (instant.year - 2000) + (instant.year - 2000 + 3) / 4 := by
    have split : instant.year - 1970 = 30 + (instant.year - 2000) := by omega
    rw [split, daysOfYears_eq (by omega)]
  have months := daysOfMonths_eq instant.year instant.validMonth
  have leap := isLeap_next instant
  have short : instant.year % 100 = instant.year - 2000 := by omega
  unfold UtcInstant.unixDays
  rw [years, short, Nat.cast_add, Nat.cast_add, months]
  by_cases early : instant.month ≤ 2
  · have shifted : shiftMonth (instant.year - 2000) instant.month =
        ((instant.month : ℤ) + 10, instant.year - 2001) := by
      rw [shiftMonth, if_pos (by omega)]
      refine Prod.ext ?_ ?_
      · change (instant.month : ℤ) - 2 + 12 = instant.month + 10
        omega
      · change (instant.year - 2000 + 2 ^ 8 - 1) % 2 ^ 8 = instant.year - 2001
        omega
    rw [shifted, if_pos early]
    dsimp only
    omega
  · have shifted : shiftMonth (instant.year - 2000) instant.month =
        ((instant.month : ℤ) - 2, instant.year - 2000) := by
      rw [shiftMonth, if_neg (by omega)]
    rw [shifted, if_neg early]
    dsimp only
    by_cases isLeap : IsLeap instant.year
    · rw [if_pos isLeap]
      have fourth := leap.mp isLeap
      omega
    · rw [if_neg isLeap]
      have notFourth : ¬(instant.year - 2000) % 4 = 0 := fun fourth => isLeap (leap.mpr fourth)
      omega

theorem daysInMonth_le (year month : ℕ) : daysInMonth year month ≤ 31 := by
  unfold daysInMonth
  split_ifs <;> omega

theorem daysOfMonths_le (year months : ℕ) : daysOfMonths year months ≤ 31 * months := by
  induction months with
  | zero => exact Nat.le_refl 0
  | succ months inductionHypothesis =>
    have month := daysInMonth_le year (months + 1)
    rw [daysOfMonths]
    omega

theorem unixDays_range (instant : UtcInstant) :
    10957 ≤ instant.unixDays ∧ instant.unixDays ≤ 47488 := by
  obtain ⟨firstYear, lastYear⟩ := instant.validYear
  obtain ⟨firstMonth, lastMonth⟩ := instant.validMonth
  have day := instant.validDay.2
  have split : instant.year - 1970 = 30 + (instant.year - 2000) := by omega
  have years := daysOfYears_eq (show instant.year - 2000 ≤ 100 by omega)
  have months := daysOfMonths_le instant.year (instant.month - 1)
  have month := daysInMonth_le instant.year instant.month
  unfold UtcInstant.unixDays
  rw [split, years]
  omega

/-! ### Seconds and milliseconds -/

theorem emod_of_range {value bound : ℤ} (low : 0 ≤ value) (high : value < bound) :
    value % bound = value := Int.emod_eq_of_lt low high

/-- The seconds since the Unix epoch. -/
def UtcInstant.unixSeconds (instant : UtcInstant) : ℕ :=
  ((instant.unixDays * 24 + instant.hour) * 60 + instant.minute) * 60 + instant.second

/-- The seconds since the GPS epoch as the code has them: 315964800 seconds lie between the epochs,
and 259185 are missing. -/
theorem gpsSeconds_eq (instant : UtcInstant) :
    gpsSeconds (instant.year % 100) instant.month instant.day instant.hour instant.minute
        instant.second =
      (instant.unixSeconds : ℤ) - 315964800 - 259185 := by
  have days := days_eq instant
  obtain ⟨low, high⟩ := unixDays_range instant
  obtain ⟨hours, minutes, seconds, -⟩ := instant.validTime
  unfold gpsSeconds UtcInstant.unixSeconds
  dsimp only
  set shifted := shiftMonth (instant.year % 100) instant.month
  have sum : ((shifted.2 / 4 : ℕ) : ℤ) - (gpsLeapsecondsMillis / 1000 : ℕ) +
      (367 * shifted.1).tdiv 12 + instant.day + (shifted.2 * 365 + 10501 : ℕ) =
        (instant.unixDays : ℤ) - 503 := by
    change ((shifted.2 / 4 : ℕ) : ℤ) - (18 : ℕ) + _ + _ + _ = _
    push_cast at days ⊢
    omega
  rw [Int.emod_emod_of_dvd _ (by decide : (2 ^ 32 : ℤ) ∣ 2 ^ 64), Int.emod_add_emod, sum,
    emod_of_range (show (0 : ℤ) ≤ (instant.unixDays : ℤ) - 503 by omega) (by omega),
    emod_of_range (show (0 : ℤ) ≤ ((instant.unixDays : ℤ) - 503) * 24 + instant.hour by omega)
      (by omega),
    emod_of_range (show (0 : ℤ) ≤ (((instant.unixDays : ℤ) - 503) * 24 + instant.hour) * 60 +
      instant.minute by omega) (by omega),
    emod_of_range (show (0 : ℤ) ≤ ((((instant.unixDays : ℤ) - 503) * 24 + instant.hour) * 60 +
      instant.minute) * 60 + instant.second by omega) (by omega),
    emod_of_range (by omega) (by omega)]
  push_cast
  omega

/-- The fields of an encoded date. -/
theorem makeGpsTime_bcd (instant : UtcInstant) :
    makeGpsTime instant.bcdDate instant.bcdMilliseconds =
      { timeWeek := (instant.unixSeconds - 315964800 - 259185) / apSecPerWeek
        timeWeekMs := (instant.unixSeconds - 315964800 - 259185) % apSecPerWeek * apMsecPerSec +
          instant.millisecond } := by
  obtain ⟨low, high⟩ := unixDays_range instant
  obtain ⟨firstYear, lastYear⟩ := instant.validYear
  obtain ⟨firstMonth, lastMonth⟩ := instant.validMonth
  obtain ⟨hours, minutes, seconds, milliseconds⟩ := instant.validTime
  have day := le_trans instant.validDay.2 (daysInMonth_le _ _)
  have isYear : instant.bcdDate % 100 % 2 ^ 8 = instant.year % 100 := by
    unfold UtcInstant.bcdDate
    omega
  have isMonth : instant.bcdDate / 100 % 100 % 2 ^ 8 = instant.month := by
    unfold UtcInstant.bcdDate
    omega
  have isDay : instant.bcdDate / 10000 % 2 ^ 8 = instant.day := by
    unfold UtcInstant.bcdDate
    omega
  have isMillisecond : instant.bcdMilliseconds % 1000 = instant.millisecond := by
    unfold UtcInstant.bcdMilliseconds
    omega
  have isSecond : instant.bcdMilliseconds / 1000 % 100 = instant.second := by
    unfold UtcInstant.bcdMilliseconds
    omega
  have isMinute : instant.bcdMilliseconds / 1000 / 100 % 100 = instant.minute := by
    unfold UtcInstant.bcdMilliseconds
    omega
  have isHour : instant.bcdMilliseconds / 1000 / 100 / 100 % 100 = instant.hour := by
    unfold UtcInstant.bcdMilliseconds
    omega
  have atMost : instant.unixSeconds < 47489 * 86400 := by
    unfold UtcInstant.unixSeconds
    omega
  have some_seconds : ((instant.unixSeconds : ℤ) - 315964800 - 259185).toNat =
      instant.unixSeconds - 315964800 - 259185 := by
    omega
  have weeks : (instant.unixSeconds - 315964800 - 259185) / (7 * 86400) < 2 ^ 16 := by omega
  have inWeek : (instant.unixSeconds - 315964800 - 259185) % (7 * 86400) * 1000 +
      instant.millisecond < 2 ^ 32 := by omega
  unfold makeGpsTime
  dsimp only
  rw [isYear, isMonth, isDay, isMillisecond, isSecond, isMinute, isHour, gpsSeconds_eq,
    some_seconds]
  unfold apSecPerWeek apMsecPerSec
  rw [Nat.mod_eq_of_lt weeks, Nat.mod_eq_of_lt (lt_of_le_of_lt (Nat.le_add_right _ _) inWeek),
    Nat.mod_eq_of_lt inWeek]

/-- For every date the two conversions give a time that is three days and three seconds before the
date. -/
theorem timeEpochConvert_makeGpsTime (instant : UtcInstant) :
    timeEpochConvert (makeGpsTime instant.bcdDate instant.bcdMilliseconds).timeWeek
          (makeGpsTime instant.bcdDate instant.bcdMilliseconds).timeWeekMs ≠
        instant.unixMilliseconds ∧
      timeEpochConvert (makeGpsTime instant.bcdDate instant.bcdMilliseconds).timeWeek
            (makeGpsTime instant.bcdDate instant.bcdMilliseconds).timeWeekMs +
          (3 * 86400 + 3) * 1000 =
        instant.unixMilliseconds := by
  have early : timeEpochConvert (makeGpsTime instant.bcdDate instant.bcdMilliseconds).timeWeek
        (makeGpsTime instant.bcdDate instant.bcdMilliseconds).timeWeekMs +
      (3 * 86400 + 3) * 1000 = instant.unixMilliseconds := by
    obtain ⟨low, high⟩ := unixDays_range instant
    obtain ⟨hours, minutes, seconds, milliseconds⟩ := instant.validTime
    have split : instant.unixMilliseconds = instant.unixSeconds * 1000 + instant.millisecond := rfl
    have range : 10957 * 86400 ≤ instant.unixSeconds ∧ instant.unixSeconds < 47489 * 86400 := by
      unfold UtcInstant.unixSeconds
      omega
    rw [makeGpsTime_bcd, split]
    unfold timeEpochConvert unixOffsetMsec apMsecPerWeek apSecPerWeek apMsecPerSec
      gpsLeapsecondsMillis
    dsimp only
    rw [Nat.mod_eq_of_lt (by omega)]
    omega
  exact ⟨by omega, early⟩

/-- Noon of the leap day of 2004. -/
def leapDay : UtcInstant where
  year := 2004
  month := 2
  day := 29
  hour := 12
  minute := 0
  second := 0
  millisecond := 0
  validYear := by decide
  validMonth := by decide
  validDay := by decide
  sinceMarch := by decide
  validTime := by decide

/-- The Unix time of noon of the leap day of 2004 is 1078056000 seconds. The code gives a time of the
26th of February. -/
theorem leapDay_early :
    leapDay.unixMilliseconds = 1078056000000 ∧
      timeEpochConvert (makeGpsTime leapDay.bcdDate leapDay.bcdMilliseconds).timeWeek
        (makeGpsTime leapDay.bcdDate leapDay.bcdMilliseconds).timeWeekMs = 1077796797000 := by
  decide +kernel

end Urus.Gps.Calendar
