import Ovms.Lib.Calendar
import Ovms.Units.Convert
import Mathlib.Tactic.Ring

/-!
# Dates

`days_from_epoch` and `internal_timegm` (`main/ovms_metrics.cpp`): the number of a day, counted
from the first of January 1970 on, and of a second. An `int` has 32 bits, and so has a `long`; a
sum or product beyond them has no result here. The seconds are added up as a `long`, and get the 64
bits of a `time_t` only then: the last second that has a number is of the year 2038.
-/

open Lib Ovms.Units

namespace Ovms.Metrics

/-! ### The functions -/

/-- `days_from_epoch`, where nothing overflows. -/
def daysFromEpoch (y m d : ℤ) : Option ℤ := do
  let y ← fits (y - if m ≤ 2 then 1 else 0)
  let era := y.tdiv 400
  let years ← imul era 400
  let yoe ← fits (y - years)
  let month ← fits (m + if 2 < m then -3 else 9)
  let scaled ← imul 153 month
  let rounded ← fits (scaled + 2)
  let behind ← fits (rounded.tdiv 5 + d)
  let doy ← fits (behind - 1)
  let days ← imul yoe 365
  let leaps ← fits (days + yoe.tdiv 4)
  let centuries ← fits (leaps - yoe.tdiv 100)
  let doe ← fits (centuries + doy)
  let before ← imul era 146097
  let sum ← fits (before + doe)
  fits (sum - 719468)

/-- `struct tm`. -/
structure Tm where
  year : ℤ
  mon : ℤ
  mday : ℤ
  hour : ℤ
  min : ℤ
  sec : ℤ
  deriving DecidableEq, Repr

/-- The year and the month, with months beyond a year carried. -/
def carryMonths (year month : ℤ) : Option (ℤ × ℤ) := do
  if 11 < month then
    let year ← fits (year + month.tdiv 12)
    return (year, month.tmod 12)
  else if month < 0 then
    let yearsDiff := (← fits (11 - month)).tdiv 12
    let year ← fits (year - yearsDiff)
    let month ← fits (month + 12 * yearsDiff)
    return (year, month)
  else
    return (year, month)

/-- `internal_timegm`, where nothing overflows. -/
def internalTimegm (t : Tm) : Option ℤ := do
  let year ← fits (t.year + 1900)
  let (year, month) ← carryMonths year t.mon
  let month ← fits (month + 1)
  let days ← daysFromEpoch year month t.mday
  let dayHours ← imul 24 days
  let hours ← fits (dayHours + t.hour)
  let hourMinutes ← imul 60 hours
  let minutes ← fits (hourMinutes + t.min)
  let minuteSeconds ← imul 60 minutes
  fits (minuteSeconds + t.sec)

/-! ### What they are for -/

theorem epoch_year : 1 ≤ 1970 := by decide

theorem epoch_month : 1 ≤ 1 ∧ 1 ≤ 12 := by decide

theorem epoch_day : 1 ≤ 1 ∧ 1 ≤ monthLength 1970 1 := by decide

/-- The first of January 1970. -/
def epoch : Date := ⟨1970, 1, 1, epoch_year, epoch_month, epoch_day⟩

/-- The number of a day. -/
def dayNumber (date : Date) : ℤ := date.ordinal - epoch.ordinal

/-- A time of day, in UTC. -/
structure Time where
  date : Date
  hour : ℕ
  minute : ℕ
  second : ℕ
  hour_lt : hour < 24
  minute_lt : minute < 60
  /-- 60 is a leap second -/
  second_le : second ≤ 60

/-- The number of a second. -/
def Time.number (t : Time) : ℤ := ((dayNumber t.date * 24 + t.hour) * 60 + t.minute) * 60 + t.second

/-- A time, broken down. -/
def Time.tm (t : Time) : Tm :=
  ⟨t.date.year - 1900, t.date.month - 1, t.date.day, t.hour, t.minute, t.second⟩

/-! ### Days -/

/-- An `int`, and a `long`. -/
def InRange (x : ℤ) : Prop := -2147483648 ≤ x ∧ x < 2147483648

theorem fits_eq_some_iff {x r : ℤ} : fits x = some r ↔ InRange x ∧ x = r := by
  rw [fits]
  split_ifs with h
  · rw [Option.some_inj]
    exact (and_iff_right h).symm
  · exact iff_of_false (fun h => nomatch h) fun hx => h hx.1

theorem fits_bind_eq_some_iff {x r : ℤ} {f : ℤ → Option ℤ} :
    (fits x).bind f = some r ↔ InRange x ∧ f x = some r := by
  simp only [Option.bind_eq_some_iff, fits_eq_some_iff, and_assoc, exists_and_left,
    exists_eq_left']

theorem ordinal_epoch : (epoch.ordinal : ℤ) = 719163 := by
  have hyear : epoch.year = 1970 := rfl
  have hmonth : epoch.month = 1 := rfl
  have hday : epoch.day = 1 := rfl
  have hyears := daysOfYears_eq (1970 - 1)
  rw [Date.ordinal, hyear, hmonth, hday, Nat.sub_self, daysOfMonths]
  omega

/-- The number of a day, with years that start in March. -/
theorem dayNumber_eq (date : Date) :
    let y : ℤ := date.year - if (date.month : ℤ) ≤ 2 then 1 else 0
    dayNumber date = 365 * y + y / 4 - y / 100 + y / 400 +
      ((153 * (date.month + if (2 : ℤ) < date.month then -3 else 9) + 2) / 5 + date.day - 1) -
      719468 := by
  obtain ⟨year, month, day, hyear, hmonth, hday⟩ := date
  obtain ⟨y, rfl⟩ : ∃ y, year = y + 1 := ⟨year - 1, by omega⟩
  have hyears := daysOfYears_eq y
  have hmonths := @daysOfMonths_eq (y + 1) month hmonth
  have hleaps := leaps_succ y
  rw [dayNumber, ordinal_epoch, Date.ordinal]
  dsimp only
  rw [Nat.add_sub_cancel]
  push_cast
  by_cases h : (2 : ℤ) < month
  · rw [if_pos h, if_pos h] at hmonths
    rw [if_pos h, if_neg (not_le.mpr h), sub_zero]
    omega
  · rw [if_neg h, if_neg h] at hmonths
    rw [if_neg h, if_pos (not_lt.mp h), add_sub_cancel_right]
    omega

theorem monthLength_le (year month : ℕ) : monthLength year month ≤ 31 := by
  rw [monthLength]
  split_ifs <;> decide

theorem exists_era {y : ℤ} (hy : 0 ≤ y) : ∃ e k : ℤ, 0 ≤ e ∧ 0 ≤ k ∧ k < 400 ∧ y = 400 * e + k ∧
    y.tdiv 400 = e ∧ y / 400 = e ∧ y / 4 = 100 * e + k / 4 ∧ y / 100 = 4 * e + k / 100 := by
  refine ⟨y / 400, y % 400, by omega, by omega, by omega, by omega,
    Int.tdiv_eq_ediv_of_nonneg hy, rfl, by omega, by omega⟩

/-- The days of an era, of the years in it and of the months, where they fit. -/
theorem sums_inRange {e k m d a b f r : ℤ} (he : 0 ≤ e) (hk : 0 ≤ k ∧ k < 400)
    (hm : 0 ≤ m ∧ m ≤ 11) (hd : 1 ≤ d ∧ d ≤ 31) (ha : 0 ≤ a ∧ a < 100) (hb : 0 ≤ b ∧ b < 4)
    (hf : 0 ≤ f ∧ f < 338) :
    (InRange (400 * e + k) ∧ InRange (e * 400) ∧ InRange k ∧ InRange m ∧ InRange (153 * m) ∧
        InRange (153 * m + 2) ∧ InRange (f + d) ∧ InRange (f + d - 1) ∧ InRange (k * 365) ∧
        InRange (k * 365 + a) ∧ InRange (k * 365 + a - b) ∧
        InRange (k * 365 + a - b + (f + d - 1)) ∧ InRange (e * 146097) ∧
        InRange (e * 146097 + (k * 365 + a - b + (f + d - 1))) ∧
        InRange (e * 146097 + (k * 365 + a - b + (f + d - 1)) - 719468) ∧
        e * 146097 + (k * 365 + a - b + (f + d - 1)) - 719468 = r) ↔
      e * 146097 + (k * 365 + a - b + (f + d - 1)) < 2147483648 ∧
        e * 146097 + (k * 365 + a - b + (f + d - 1)) - 719468 = r := by
  simp only [InRange]
  omega

/-- **The number of a day is exact where the sum fits.** -/
theorem daysFromEpoch_eq (date : Date) {r : ℤ} :
    daysFromEpoch date.year date.month date.day = some r ↔
      dayNumber date + 719468 < 2147483648 ∧ dayNumber date = r := by
  have hnumber := dayNumber_eq date
  have hday := date.day_mem
  have hlength := monthLength_le date.year date.month
  have hmonth := date.month_mem
  have hyear := date.one_le_year
  -- the year and the month, counted from March on
  obtain ⟨y, hy, hy0⟩ : ∃ y : ℤ, (date.year - if (date.month : ℤ) ≤ 2 then 1 else 0) = y ∧
      0 ≤ y := ⟨_, rfl, by split_ifs <;> omega⟩
  obtain ⟨m, hm, hm0⟩ : ∃ m : ℤ, ((date.month : ℤ) + if (2 : ℤ) < date.month then -3 else 9) = m ∧
      0 ≤ m ∧ m ≤ 11 := ⟨_, rfl, by split_ifs <;> omega⟩
  obtain ⟨e, k, he, hk, hk400, hek, hera, hera', hfour, hhundred⟩ := exists_era hy0
  have hyoe : y - e * 400 = k := by rw [hek]; ring
  dsimp only at hnumber
  rw [hy, hm, hfour, hhundred, hera', hek] at hnumber
  simp only [daysFromEpoch, Option.bind_eq_bind, imul, fits_bind_eq_some_iff, fits_eq_some_iff, hy,
    hm, hera, hyoe]
  rw [Int.tdiv_eq_ediv_of_nonneg (a := k) hk, Int.tdiv_eq_ediv_of_nonneg (a := k) hk,
    Int.tdiv_eq_ediv_of_nonneg (a := 153 * m + 2) (by omega), hek]
  have hsum : dayNumber date = e * 146097 +
      (k * 365 + k / 4 - k / 100 + ((153 * m + 2) / 5 + date.day - 1)) - 719468 := by
    rw [hnumber]
    ring
  rw [hsum, sub_add_cancel]
  exact sums_inRange he ⟨hk, hk400⟩ hm0 (by omega) (by omega) (by omega) (by omega)

/-! ### Seconds -/

theorem Time.number_eq (t : Time) : t.number =
    60 * (60 * (24 * dayNumber t.date + t.hour) + t.minute) + t.second := by
  rw [number]
  omega

theorem le_dayNumber (date : Date) : 365 * ((date.year : ℤ) - 1) - 719468 ≤ dayNumber date := by
  have hnumber := dayNumber_eq date
  have hday := date.day_mem
  have hmonth := date.month_mem
  have hyear := date.one_le_year
  dsimp only at hnumber
  split_ifs at hnumber <;> omega

theorem dayNumber_nonneg {date : Date} (h : 1970 ≤ date.year) : 0 ≤ dayNumber date := by
  have hnumber := dayNumber_eq date
  have hday := date.day_mem
  have hmonth := date.month_mem
  dsimp only at hnumber
  split_ifs at hnumber <;> omega

theorem carryMonths_eq (year : ℤ) {month : ℤ} (h : 0 ≤ month) (h' : month ≤ 11) :
    carryMonths year month = some (year, month) := by
  rw [carryMonths, if_neg (not_lt.mpr h'), if_neg (not_lt.mpr h)]
  rfl

/-- **The number of a second is exact where it fits.** -/
theorem internalTimegm_eq {t : Time} (h : 1970 ≤ t.date.year) {r : ℤ} :
    internalTimegm t.tm = some r ↔ t.number < 2147483648 ∧ t.number = r := by
  have hdays := dayNumber_nonneg h
  have hyear := le_dayNumber t.date
  have hmonth := t.date.month_mem
  have hhour := t.hour_lt
  have hminute := t.minute_lt
  have hsecond := t.second_le
  have hnumber := t.number_eq
  have hcarry := carryMonths_eq t.date.year
    (by omega : (0 : ℤ) ≤ (t.date.month : ℤ) - 1) (by omega)
  simp only [internalTimegm, Time.tm, Option.bind_eq_bind, imul, fits_bind_eq_some_iff,
    sub_add_cancel, hcarry, Option.bind_some]
  simp only [Option.bind_eq_some_iff, fits_eq_some_iff, daysFromEpoch_eq, and_assoc,
    exists_and_left, exists_eq_left']
  rw [← hnumber]
  constructor
  · rintro ⟨-, -, -, -, -, -, -, -, ⟨-, hlt⟩, hr⟩
    exact ⟨hlt, hr⟩
  · rintro ⟨hlt, hr⟩
    simp only [InRange]
    refine ⟨?_, ?_, ?_, ?_, ?_, ?_, ?_, ?_, ?_, hr⟩ <;> omega

/-! ### Both -/

/-- **Days and seconds have exact numbers if and only if the sums fit.** The number of a day, with
the days from the first of March of the year 0 to 1970 added, must fit an `int`; the number of a
second must fit a `long`. The next day has the next number. -/
theorem dates_exact_iff (date : Date) (t : Time) (h : 1970 ≤ t.date.year) :
    (daysFromEpoch date.year date.month date.day = some (dayNumber date) ↔
        dayNumber date + 719468 < 2147483648) ∧
      dayNumber date.next = dayNumber date + 1 ∧
      (internalTimegm t.tm = some t.number ↔ t.number < 2147483648) := by
  refine ⟨(daysFromEpoch_eq date).trans (and_iff_left rfl), ?_,
    (internalTimegm_eq h).trans (and_iff_left rfl)⟩
  rw [dayNumber, date.ordinal_next, dayNumber]
  omega

/-- The last second that fits is this one. -/
def lastSecond : Time :=
  ⟨⟨2038, 1, 19, by decide, epoch_month, by decide⟩, 3, 14, 7, by decide, by decide, by decide⟩

/-- A leap day, and the last second that has a number. -/
theorem dates_exact_leapDay :
    (daysFromEpoch 2000 2 29 = some (dayNumber ⟨2000, 2, 29, by decide, by decide, by decide⟩) ↔
        dayNumber ⟨2000, 2, 29, by decide, by decide, by decide⟩ + 719468 < 2147483648) ∧
      (internalTimegm lastSecond.tm = some lastSecond.number ↔
        lastSecond.number < 2147483648) :=
  have h := dates_exact_iff ⟨2000, 2, 29, by decide, by decide, by decide⟩ lastSecond (by decide)
  ⟨h.1, h.2.2⟩

/-- The second after it has none, though it is a `time_t`. -/
theorem not_dates_exact :
    ¬∀ (date : Date) (t : Time), 1970 ≤ t.date.year → t.number < 9223372036854775808 →
      daysFromEpoch date.year date.month date.day = some (dayNumber date) ∧
        dayNumber date.next = dayNumber date + 1 ∧ internalTimegm t.tm = some t.number := by
  intro hall
  let t : Time :=
    ⟨⟨2038, 1, 19, by decide, by decide, by decide⟩, 3, 14, 8, by decide, by decide, by decide⟩
  have hnumber : t.number = 2147483648 := by
    have hday := dayNumber_eq t.date
    rw [t.number_eq]
    simp [t] at hday ⊢
    omega
  have hsome := (hall t.date t (by decide) (by omega)).2.2
  have hlt := ((internalTimegm_eq (by decide)).mp hsome).1
  omega

end Ovms.Metrics
