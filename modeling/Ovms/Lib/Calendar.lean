import Mathlib.Tactic.IntervalCases

/-!
# The Gregorian Calendar

Dates of the Gregorian calendar, from the year 1 on, and their numbers: the days that have passed
with a date, counted month by month and year by year.
-/

namespace Lib

variable {year month : ℕ}

/-- A leap year. -/
def IsLeap (year : ℕ) : Prop := year % 4 = 0 ∧ (year % 100 ≠ 0 ∨ year % 400 = 0)

instance : DecidablePred IsLeap := fun _ => inferInstanceAs (Decidable (_ ∧ _))

/-- The days of a month. -/
def monthLength (year month : ℕ) : ℕ :=
  if month = 2 then if IsLeap year then 29 else 28
  else if month = 4 ∨ month = 6 ∨ month = 9 ∨ month = 11 then 30
  else 31

/-- The days of the first months of a year. -/
def daysOfMonths (year : ℕ) : ℕ → ℕ
  | 0 => 0
  | months + 1 => daysOfMonths year months + monthLength year (months + 1)

/-- The days of the first years. -/
def daysOfYears : ℕ → ℕ
  | 0 => 0
  | years + 1 => daysOfYears years + daysOfMonths (years + 1) 12

/-- A date. -/
@[ext] structure Date where
  year : ℕ
  month : ℕ
  day : ℕ
  one_le_year : 1 ≤ year
  month_mem : 1 ≤ month ∧ month ≤ 12
  day_mem : 1 ≤ day ∧ day ≤ monthLength year month

theorem one_le_monthLength (year month : ℕ) : 1 ≤ monthLength year month := by
  rw [monthLength]
  split_ifs <;> decide

theorem daysOfMonths_twelve (year : ℕ) :
    daysOfMonths year 12 = 365 + if IsLeap year then 1 else 0 := by
  change 0 + 31 + monthLength year 2 + 31 + 30 + 31 + 30 + 31 + 31 + 30 + 31 + 30 + 31 = _
  rw [monthLength, if_pos rfl]
  split_ifs <;> rfl

/-- The leap years up to a year, and that year. -/
theorem leaps_succ (years : ℕ) : ((years : ℤ) + 1) / 4 - (years + 1) / 100 + (years + 1) / 400 =
    years / 4 - years / 100 + years / 400 + if IsLeap (years + 1) then 1 else 0 := by
  have hleap : IsLeap (years + 1) ↔
      (years + 1) % 4 = 0 ∧ ((years + 1) % 100 ≠ 0 ∨ (years + 1) % 400 = 0) := Iff.rfl
  split_ifs with h
  · rw [hleap] at h
    omega
  · rw [hleap] at h
    omega

/-- The days of a number of years. -/
theorem daysOfYears_eq (years : ℕ) :
    (daysOfYears years : ℤ) = 365 * years + (years / 4 - years / 100 + years / 400) := by
  induction years with
  | zero => rfl
  | succ years ih =>
      have hleaps := leaps_succ years
      rw [daysOfYears, daysOfMonths_twelve]
      push_cast
      omega

/-- The days of the months before one: they are counted from March on, with the days of January
and of February at the end of the year before. -/
theorem daysOfMonths_eq (hmonth : 1 ≤ month ∧ month ≤ 12) :
    (daysOfMonths year (month - 1) : ℤ) =
      (153 * (month + if (2 : ℤ) < month then -3 else 9) + 2) / 5 +
        if (2 : ℤ) < month then 59 + if IsLeap year then 1 else 0 else -306 := by
  obtain ⟨hle, hge⟩ := hmonth
  interval_cases month <;> simp [daysOfMonths, monthLength] <;> split_ifs <;> rfl

namespace Date

variable (date : Date)

/-- The number of a date: that of the first day of the year 1 is 1. -/
def ordinal : ℕ :=
  daysOfYears (date.year - 1) + daysOfMonths date.year (date.month - 1) + date.day

/-- The date of the next day. -/
def next : Date :=
  if hday : date.day < monthLength date.year date.month then
    ⟨date.year, date.month, date.day + 1, date.one_le_year, date.month_mem,
      ⟨Nat.succ_pos _, hday⟩⟩
  else if hmonth : date.month < 12 then
    ⟨date.year, date.month + 1, 1, date.one_le_year, ⟨Nat.succ_pos _, hmonth⟩,
      ⟨Nat.le_refl 1, one_le_monthLength _ _⟩⟩
  else
    ⟨date.year + 1, 1, 1, Nat.succ_pos _, by decide, ⟨Nat.le_refl 1, one_le_monthLength _ _⟩⟩

/-- **The next day has the next number.** -/
theorem ordinal_next : date.next.ordinal = date.ordinal + 1 := by
  obtain ⟨year, month, day, hyear, hmonth, hday⟩ := date
  obtain ⟨y, rfl⟩ : ∃ y, year = y + 1 := ⟨year - 1, by omega⟩
  obtain ⟨m, rfl⟩ : ∃ m, month = m + 1 := ⟨month - 1, by omega⟩
  rw [next]
  split_ifs with hlast hmonths
  · rfl
  · -- the first day of the next month
    have hend : day = monthLength (y + 1) (m + 1) := by
      dsimp only at hlast
      omega
    simp only [ordinal, Nat.add_sub_cancel, daysOfMonths]
    omega
  · -- the first day of the next year
    have hend : day = monthLength (y + 1) (m + 1) := by
      dsimp only at hlast
      omega
    obtain rfl : m = 11 := by
      dsimp only at hmonths
      omega
    simp only [ordinal, Nat.add_sub_cancel, Nat.sub_self, daysOfYears, daysOfMonths]
    omega

end Date

end Lib
