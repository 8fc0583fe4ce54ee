import CompanyRegister.Text.Digits

/-!
# Calendar dates

The proleptic Gregorian calendar. A date is counted as the number of days since 1 January 1970,
and found again from that count. Both directions let the year begin in March, so that the leap day
is the last of its year:

    Date ──dayNumber──▶ days since 1970-01-01 ──ofDayNumber──▶ Date

The calendar is kept within the years -262143 to 262142.
-/

namespace CompanyRegister.Calendar

open Text

structure Date where
  year : Int
  month : Nat
  day : Nat
  deriving DecidableEq, Repr

/-- Whether a year has a leap day. -/
def isLeap (year : Int) : Bool := year % 4 == 0 && (year % 100 != 0 || year % 400 == 0)

/-- How many days a month has. -/
def daysInMonth (year : Int) (month : Nat) : Nat :=
  match month with
  | 2 => if isLeap year then 29 else 28
  | 4 | 6 | 9 | 11 => 30
  | _ => 31

/-- No month is longer than 31 days. -/
theorem daysInMonth_le (year : Int) (month : Nat) : daysInMonth year month ≤ 31 := by
  rw [daysInMonth.eq_def]
  split
  · split
    · decide
    · decide
  all_goals decide

def firstYear : Int := -262143

def lastYear : Int := 262142

/-- Whether the calendar has this date. -/
def Date.Valid (d : Date) : Prop :=
  firstYear ≤ d.year ∧ d.year ≤ lastYear ∧ 1 ≤ d.month ∧ d.month ≤ 12 ∧
    1 ≤ d.day ∧ d.day ≤ daysInMonth d.year d.month

instance (d : Date) : Decidable d.Valid := by unfold Date.Valid; infer_instance

/-- Days from 1 March of the year 0 to 1 January 1970. -/
def epochShift : Int := 719468

/-- Days in four hundred years. -/
def daysInEra : Int := 146097

def monthFromMarch (month : Nat) : Int := (month + 9) % 12

/-- Days since 1 January 1970. -/
def Date.dayNumber (d : Date) : Int :=
  let y := if d.month ≤ 2 then d.year - 1 else d.year
  let era := y / 400
  let yearOfEra := y % 400
  let dayOfYear := (153 * monthFromMarch d.month + 2) / 5 + (d.day - 1)
  era * daysInEra + (yearOfEra * 365 + yearOfEra / 4 - yearOfEra / 100 + dayOfYear) - epochShift

/-- The date that is `n` days after 1 January 1970. -/
def Date.ofDayNumber (n : Int) : Date :=
  let shifted := n + epochShift
  let era := shifted / daysInEra
  let dayOfEra := shifted % daysInEra
  let century := min (dayOfEra / 36524) 3
  let dayOfCentury := dayOfEra - century * 36524
  let cycle := dayOfCentury / 1461
  let dayOfCycle := dayOfCentury % 1461
  let yearOfCycle := min (dayOfCycle / 365) 3
  let dayOfYear := dayOfCycle - yearOfCycle * 365
  let y := era * 400 + century * 100 + cycle * 4 + yearOfCycle
  let month := (5 * dayOfYear + 2) / 153
  let day := dayOfYear - (153 * month + 2) / 5 + 1
  if month < 10 then ⟨y, (month + 3).toNat, day.toNat⟩ else ⟨y + 1, (month - 9).toNat, day.toNat⟩

/-- A year: four digits from 0 to 9999, else a sign and at least four digits. -/
def yearText (year : Int) : List Char :=
  if 0 ≤ year ∧ year ≤ 9999 then padded 4 year.toNat
  else (if year < 0 then '-' else '+') :: padded 4 year.natAbs

/-- Year, month and day with hyphens between them. -/
def Date.text (d : Date) : List Char :=
  yearText d.year ++ '-' :: (padded 2 d.month ++ '-' :: padded 2 d.day)

end CompanyRegister.Calendar
