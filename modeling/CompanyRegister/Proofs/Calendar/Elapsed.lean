import Mathlib.Tactic.IntervalCases
import Mathlib.Tactic.Linarith
import CompanyRegister.Calendar.Date

/-!
# Counting days one year and one month at a time

`Date.dayNumber` finds the number of a day by arithmetic on years that begin in March. Here the
days are counted as a calendar on the wall counts them: the days of all years from the year 0 on,
the days of all months of the last year, and the days of the last month (`Date.elapsed`). For the
years from 0 on both counts agree, but for where they begin (`Date.dayNumber_eq_elapsed`).

The two meet in the number of leap days (`leapDays`), which grows by one in each leap year.
-/

namespace CompanyRegister.Calendar

/-! ## Months and years in a row -/

/-- How many days the first `n` months of a year have. -/
def daysOfMonths (year : Int) (n : Nat) : Nat :=
  ((List.range n).map fun month => daysInMonth year (month + 1)).sum

/-- How many days the first `n` years have, the year 0 being the first. -/
def daysOfYears (n : Nat) : Nat :=
  ((List.range n).map fun year : Nat => daysOfMonths year 12).sum

/-- How many days lie between 1 January of the year 0 and a date. -/
def Date.elapsed (d : Date) : Nat :=
  daysOfYears d.year.toNat + daysOfMonths d.year (d.month - 1) + (d.day - 1)

@[simp] theorem daysOfMonths_zero (year : Int) : daysOfMonths year 0 = 0 := rfl

theorem daysOfMonths_succ (year : Int) (n : Nat) :
    daysOfMonths year (n + 1) = daysOfMonths year n + daysInMonth year (n + 1) := by
  rw [daysOfMonths, List.range_succ, List.map_append, List.sum_append]
  simp [daysOfMonths]

/-- A year has 365 days, or 366 with a leap day. -/
theorem daysOfMonths_twelve (year : Int) :
    daysOfMonths year 12 = 365 + if isLeap year then 1 else 0 := by
  simp only [daysOfMonths_succ, daysInMonth]
  cases isLeap year with
  | true => rfl
  | false => rfl

theorem daysOfYears_succ (n : Nat) :
    daysOfYears (n + 1) = daysOfYears n + (365 + if isLeap n then 1 else 0) := by
  rw [daysOfYears, List.range_succ, List.map_append, List.sum_append]
  simp [daysOfYears, daysOfMonths_twelve]

/-- January and February are the last two months of a March year. -/
theorem daysOfMonths_of_winter (year : Int) {month : Nat} (h : 1 ≤ month ∧ month ≤ 2) :
    (daysOfMonths year (month - 1) : Int) + 306 = (153 * monthFromMarch month + 2) / 5 := by
  obtain ⟨hlow, hhigh⟩ := h
  interval_cases month <;> simp [daysOfMonths_succ, daysInMonth, monthFromMarch]

/-- From March on, the months of all years are alike. -/
theorem daysOfMonths_of_march (year : Int) {month : Nat} (h : 3 ≤ month ∧ month ≤ 12) :
    (daysOfMonths year (month - 1) : Int) =
      (153 * monthFromMarch month + 2) / 5 + 59 + if isLeap year then 1 else 0 := by
  obtain ⟨hlow, hhigh⟩ := h
  cases hleap : isLeap year with
  | true => interval_cases month <;> simp [daysOfMonths_succ, daysInMonth, hleap, monthFromMarch]
  | false => interval_cases month <;> simp [daysOfMonths_succ, daysInMonth, hleap, monthFromMarch]

/-! ## Leap days -/

/-- How many leap days there are from the year 1 to a year. -/
def leapDays (year : Int) : Int := year / 4 - year / 100 + year / 400

theorem leapDays_eq_add (year : Int) :
    leapDays year = leapDays (year - 1) + if isLeap year then 1 else 0 := by
  by_cases hleap : isLeap year = true
  · rw [if_pos hleap]
    simp only [isLeap, Bool.and_eq_true, Bool.or_eq_true, beq_iff_eq, bne_iff_ne] at hleap
    simp only [leapDays]
    omega
  · rw [if_neg hleap]
    simp only [isLeap, Bool.and_eq_true, Bool.or_eq_true, beq_iff_eq, bne_iff_ne] at hleap
    simp only [leapDays]
    omega

/-- The year 0 is a leap year too, one more than those from the year 1 on. -/
theorem daysOfYears_eq (n : Nat) : (daysOfYears n : Int) = 365 * n + leapDays (n - 1) + 1 := by
  induction n with
  | zero => rfl
  | succ n ih =>
    have hleap := leapDays_eq_add n
    have hback : ((n + 1 : Nat) : Int) - 1 = n := by omega
    rw [daysOfYears_succ, hback, hleap]
    push_cast
    omega

/-- Four hundred years at a time the leap days are counted right. -/
theorem era_days (year : Int) :
    year / 400 * daysInEra + (year % 400 * 365 + year % 400 / 4 - year % 400 / 100) =
      365 * year + leapDays year := by
  simp only [daysInEra, leapDays]
  omega

/-! ## Days since 1970 -/

namespace Date

theorem elapsed_newYear (n : Nat) : (⟨n, 1, 1⟩ : Date).elapsed = daysOfYears n := rfl

/-- The first day of 1970 is day 719528 after the first day of the year 0. -/
theorem elapsed_epoch : ((⟨1970, 1, 1⟩ : Date).elapsed : Int) = 719528 := by
  have hleap : 365 * 1970 + leapDays (1970 - 1) + 1 = 719528 := by decide
  exact (congrArg Nat.cast (elapsed_newYear 1970)).trans ((daysOfYears_eq 1970).trans hleap)

/-- The number of a day is how many days have passed since the first of 1970. -/
theorem dayNumber_eq_elapsed {d : Date} (hd : d.Valid) (hyear : 0 ≤ d.year) :
    d.dayNumber = d.elapsed - (⟨1970, 1, 1⟩ : Date).elapsed := by
  obtain ⟨year, month, day⟩ := d
  obtain ⟨-, -, hmonth, hmonth', hday, -⟩ := hd
  dsimp only at hmonth hmonth' hday hyear
  obtain ⟨n, rfl⟩ := Int.eq_ofNat_of_zero_le hyear
  have hday' : ((day - 1 : Nat) : Int) = day - 1 := Int.ofNat_sub hday
  rw [elapsed_epoch, elapsed, Int.toNat_natCast]
  push_cast
  rw [daysOfYears_eq, hday']
  simp only [dayNumber, epochShift]
  -- In January and February the leap day of the year is still to come.
  by_cases hwinter : month ≤ 2
  · have hmonths := daysOfMonths_of_winter n ⟨hmonth, hwinter⟩
    have hera := era_days (n - 1)
    rw [if_pos hwinter, ← hmonths]
    linarith
  · have hmonths := daysOfMonths_of_march n ⟨by omega, hmonth'⟩
    have hera := era_days n
    rw [if_neg hwinter, hmonths]
    linarith [leapDays_eq_add n]

end Date

end CompanyRegister.Calendar
