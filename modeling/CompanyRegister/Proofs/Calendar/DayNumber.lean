import Mathlib.Tactic.IntervalCases
import CompanyRegister.Calendar.Instant

/-!
# Days and dates

Counting the days of a date and finding the date of a count are inverse to each other, and every
date that is found is one of the calendar.

The count of days is taken apart once, into four hundred years, centuries, four years, years and
days since March (`MarchCount`); what a count says about its date is then arithmetic with small
digits. The bounds of the digits carry the whole argument: a century has a fourth leap cycle less
a day unless it is the last of its four hundred years, so a day 365 falls only into a leap year.
-/

namespace CompanyRegister.Calendar

namespace Date

/-! ## Years that begin in March -/

/-- The date `day` days after 1 March of a year. -/
def ofMarch (year day : Int) : Date :=
  let month := (5 * day + 2) / 153
  let dayOfMonth := day - (153 * month + 2) / 5 + 1
  if month < 10 then ⟨year, (month + 3).toNat, dayOfMonth.toNat⟩
  else ⟨year + 1, (month - 9).toNat, dayOfMonth.toNat⟩

/-- The digits of a count of days: four hundred years, centuries, leap cycles, years and days. -/
structure MarchCount (n era century cycle year day : Int) : Prop where
  century_bounds : 0 ≤ century ∧ century ≤ 3
  cycle_bounds : 0 ≤ cycle ∧ cycle ≤ 24
  year_bounds : 0 ≤ year ∧ year ≤ 3
  day_bounds : 0 ≤ day ∧ day ≤ 365
  /-- The last day of a leap year. -/
  leap_day : day = 365 → year = 3 ∧ (cycle = 24 → century = 3)
  count : n + epochShift =
    era * daysInEra + century * 36524 + cycle * 1461 + year * 365 + day

/-- Every count of days has digits, and its date is read off them. -/
theorem exists_marchCount (n : Int) : ∃ era century cycle year day,
    MarchCount n era century cycle year day ∧
      ofDayNumber n = ofMarch (era * 400 + century * 100 + cycle * 4 + year) day := by
  have hera : 0 ≤ (n + epochShift) % daysInEra ∧ (n + epochShift) % daysInEra < 146097 := by
    simp only [daysInEra]; omega
  have hcount := Int.emod_add_mul_ediv (n + epochShift) daysInEra
  rw [ofDayNumber]
  generalize (n + epochShift) / daysInEra = era at *
  generalize (n + epochShift) % daysInEra = dayOfEra at *
  -- The last century and the last year of a cycle are a day longer, so their digits stop at 3.
  refine ⟨era, min (dayOfEra / 36524) 3, _, _, _, ⟨?_, ?_, ?_, ?_, ?_, ?_⟩, rfl⟩
  · omega
  · omega
  · omega
  · omega
  · omega
  · rw [← hcount, Int.mul_comm daysInEra]
    omega

/-- The days of a date that is read off the digits of a count are that count. -/
theorem dayNumber_ofMarch {n era century cycle year day : Int}
    (h : MarchCount n era century cycle year day) :
    (ofMarch (era * 400 + century * 100 + cycle * 4 + year) day).dayNumber = n := by
  obtain ⟨hcentury, hcycle, hyear, hday, -, hcount⟩ := h
  have hyears : (era * 400 + century * 100 + cycle * 4 + year) / 400 = era := by omega
  have hyearOfEra : (era * 400 + century * 100 + cycle * 4 + year) % 400 =
      century * 100 + cycle * 4 + year := by omega
  have hmonth : 0 ≤ (5 * day + 2) / 153 ∧ (5 * day + 2) / 153 ≤ 11 := by omega
  have hdays : (153 * ((5 * day + 2) / 153) + 2) / 5 ≤ day := by omega
  unfold ofMarch dayNumber
  generalize hm : (5 * day + 2) / 153 = month at *
  -- Months 10 and 11 after March are January and February of the next year.
  by_cases hlate : month < 10
  · have hmarch : monthFromMarch (month + 3).toNat = month := by
      simp only [monthFromMarch]; omega
    have hthis : ¬ (month + 3).toNat ≤ 2 := by omega
    simp only [if_pos hlate, if_neg hthis, hmarch, hyears, hyearOfEra]
    simp only [daysInEra, epochShift] at *
    omega
  · have hmarch : monthFromMarch (month - 9).toNat = month := by
      simp only [monthFromMarch]; omega
    have hnext : (month - 9).toNat ≤ 2 := by omega
    simp only [if_neg hlate, if_pos hnext, hmarch, Int.add_sub_cancel, hyears, hyearOfEra]
    simp only [daysInEra, epochShift] at *
    omega

/-! ## Dates of the calendar -/

/-- The month of a date that is found is a month, and its day is a day of that month. -/
theorem ofMarch_month_day {n era century cycle year day : Int}
    (h : MarchCount n era century cycle year day) :
    let d := ofMarch (era * 400 + century * 100 + cycle * 4 + year) day
    (1 ≤ d.month ∧ d.month ≤ 12) ∧ 1 ≤ d.day ∧ d.day ≤ daysInMonth d.year d.month := by
  obtain ⟨hcentury, hcycle, hyear, hday, hleap, -⟩ := h
  have hfebruary : day = 365 →
      isLeap (era * 400 + century * 100 + cycle * 4 + year + 1) = true := by
    intro hd
    obtain ⟨rfl, hlast⟩ := hleap hd
    simp only [isLeap, Bool.and_eq_true, Bool.or_eq_true, beq_iff_eq, bne_iff_ne]
    omega
  have hmonth : 0 ≤ (5 * day + 2) / 153 ∧ (5 * day + 2) / 153 ≤ 11 := by omega
  unfold ofMarch
  simp only
  generalize hm : (5 * day + 2) / 153 = month at *
  by_cases hlast : month = 11
  · -- February comes last, and only a day 365 is its twenty-ninth.
    subst hlast
    by_cases hd : day = 365
    · simp [daysInMonth, hfebruary hd, hd]
    · simp only [daysInMonth]
      simp
      split <;> omega
  · obtain ⟨hlow, hhigh⟩ : 0 ≤ month ∧ month ≤ 10 := by omega
    interval_cases month <;> simp [daysInMonth] <;> omega

/-- The year of a date that is found, by the first and last days of the calendar. -/
theorem ofMarch_year {n era century cycle year day : Int}
    (h : MarchCount n era century cycle year day)
    (hfirst : (⟨firstYear, 1, 1⟩ : Date).dayNumber ≤ n)
    (hlast : n ≤ (⟨lastYear, 12, 31⟩ : Date).dayNumber) :
    let d := ofMarch (era * 400 + century * 100 + cycle * 4 + year) day
    firstYear ≤ d.year ∧ d.year ≤ lastYear := by
  obtain ⟨hcentury, hcycle, hyear, hday, -, hcount⟩ := h
  have hstart : (⟨firstYear, 1, 1⟩ : Date).dayNumber = -96465292 := by decide
  have hend : (⟨lastYear, 12, 31⟩ : Date).dayNumber = 95026236 := by decide
  rw [hstart] at hfirst
  rw [hend] at hlast
  simp only [daysInEra, epochShift] at hcount
  unfold ofMarch
  simp only [firstYear, lastYear]
  split
  · dsimp only
    omega
  · -- January and February of the last year belong to the March year before it.
    have hwinter : 306 ≤ day := by omega
    have hera : -656 ≤ era ∧ era ≤ 655 := by omega
    dsimp only
    refine ⟨by omega, ?_⟩
    by_contra hlate
    obtain rfl : era = 655 := by omega
    obtain rfl : century = 1 := by omega
    omega

/-- Finding a date inverts counting its days. -/
@[simp] theorem dayNumber_ofDayNumber (n : Int) : (ofDayNumber n).dayNumber = n := by
  obtain ⟨era, century, cycle, year, day, h, heq⟩ := exists_marchCount n
  rw [heq]
  exact dayNumber_ofMarch h

/-- Every day of the calendar has a date of the calendar. -/
theorem ofDayNumber_valid {n : Int} (hfirst : (⟨firstYear, 1, 1⟩ : Date).dayNumber ≤ n)
    (hlast : n ≤ (⟨lastYear, 12, 31⟩ : Date).dayNumber) : (ofDayNumber n).Valid := by
  obtain ⟨era, century, cycle, year, day, h, heq⟩ := exists_marchCount n
  rw [heq]
  obtain ⟨⟨hm, hm'⟩, hd, hd'⟩ := ofMarch_month_day h
  obtain ⟨hy, hy'⟩ := ofMarch_year h hfirst hlast
  exact ⟨hy, hy', hm, hm', hd, hd'⟩

end Date

end CompanyRegister.Calendar
