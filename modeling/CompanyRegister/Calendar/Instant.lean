import CompanyRegister.Calendar.Date

/-!
# Instants

An instant is a count of seconds since the start of 1970 (UTC) and of nanoseconds after the second.
The second 60 that some minutes have is no second of the count: an instant in it is the second 59
with a billion nanoseconds more. An instant may have as many behind any other second; it is then
shown as the second after that one (`Instant.settled`).

An instant is written with a `Z` for UTC in two forms that differ in their decimals alone.
-/

namespace CompanyRegister.Calendar

open Text

/-- The start of the calendar, in seconds since 1970. -/
def firstSecond : Int := -8334601228800

/-- The last second of the calendar, in seconds since 1970. -/
def lastSecond : Int := 8210266876799

def nanosInSecond : Nat := 1000000000

def secondsInDay : Nat := 86400

theorem firstSecond_eq : firstSecond = (⟨firstYear, 1, 1⟩ : Date).dayNumber * secondsInDay := by
  decide

theorem lastSecond_eq :
    lastSecond = (⟨lastYear, 12, 31⟩ : Date).dayNumber * secondsInDay + (secondsInDay - 1) := by
  decide

/-- Whether these counts of seconds and nanoseconds make an instant of the calendar. -/
def IsInstant (secs : Int) (nanos : Nat) : Prop :=
  firstSecond ≤ secs ∧ secs ≤ lastSecond ∧ nanos < 2 * nanosInSecond

instance (secs : Int) (nanos : Nat) : Decidable (IsInstant secs nanos) := by
  unfold IsInstant; infer_instance

/-- A moment in time. -/
structure Instant where
  secs : Int
  nanos : Nat
  isInstant : IsInstant secs nanos
  deriving DecidableEq

namespace Instant

/-- The instant with these counts, if there is one. A billion nanoseconds are taken for a second 60
here, so they have to follow a second 59. -/
def ofCounts? (secs : Int) (nanos : Nat) : Option Instant :=
  if h : IsInstant secs nanos ∧ (nanosInSecond ≤ nanos → secs % 60 = 59) then
    some ⟨secs, nanos, h.1⟩
  else none

def epoch : Instant := ⟨0, 0, by decide⟩

/-- The UTC date of an instant. -/
def date (t : Instant) : Date := .ofDayNumber (t.secs / secondsInDay)

/-- Seconds since midnight, a second 60 counted as the one before it. -/
def secondOfDay (t : Instant) : Nat := (t.secs % secondsInDay).toNat

/-- Whether an instant lies in the second after the one that it counts: in a second 60, if that is a
second 59. -/
def isLeapSecond (t : Instant) : Bool := nanosInSecond ≤ t.nanos

/-- Nanoseconds since the shown second began. -/
def subsecond (t : Instant) : Nat := t.nanos % nanosInSecond

/-- The same instant with its nanoseconds cut down to whole milliseconds. -/
def floorMillis (t : Instant) : Instant where
  secs := t.secs
  nanos := t.nanos / 1000000 * 1000000
  isInstant := by
    obtain ⟨hfirst, hlast, hnanos⟩ := t.isInstant
    exact ⟨hfirst, hlast, by omega⟩

/-- The instant that is shown: where a billion nanoseconds follow another second than 59, they are
one second more. -/
def settled (t : Instant) : Instant :=
  if h : t.isLeapSecond = true ∧ t.secs % 60 ≠ 59 then
    { secs := t.secs + 1
      nanos := t.subsecond
      isInstant := by
        obtain ⟨hfirst, hlast, -⟩ := t.isInstant
        refine ⟨?_, ?_, ?_⟩
        · omega
        · have hend : lastSecond % 60 = 59 := by decide
          omega
        · simp only [subsecond, nanosInSecond]
          omega }
  else t

/-! ### Writing -/

/-- Hours, minutes and seconds with colons between them. -/
def clockText (t : Instant) : List Char :=
  let s := t.secondOfDay
  let second := s % 60 + (if t.isLeapSecond then 1 else 0)
  padded 2 (s / 3600) ++ ':' :: (padded 2 (s / 60 % 60) ++ ':' :: padded 2 second)

/-- Date, time and the given decimals of the second. -/
def textWith (decimals : List Char) (t : Instant) : List Char :=
  t.date.text ++ 'T' :: (t.clockText ++ (decimals ++ ['Z']))

/-- The form in which instants are stored: three decimals, cut off. -/
def millisText (t : Instant) : List Char :=
  t.textWith ('.' :: padded 3 (t.subsecond / 1000000))

/-- No decimals, or three, six or nine: the fewest that lose nothing. -/
def exactDecimals (n : Nat) : List Char :=
  if n = 0 then []
  else if n % 1000000 = 0 then '.' :: padded 3 (n / 1000000)
  else if n % 1000 = 0 then '.' :: padded 6 (n / 1000)
  else '.' :: padded 9 n

/-- The form in which documents give instants: nothing is lost. -/
def exactText (t : Instant) : List Char := t.textWith (exactDecimals t.subsecond)

end Instant

end CompanyRegister.Calendar
