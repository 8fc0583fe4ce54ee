import CompanyRegister.Calendar.Written
import CompanyRegister.Proofs.Calendar.DayNumber

/-!
# The strict form reads what is written

An instant is written as date, clock, decimals and `Z`. Each reader of the strict form takes off
the front of a text what the matching writer puts there:

    strictDate (d.text ++ rest)      = some (d, rest)
    strictClock (t.clockText ++ …)   = some (t.clock n, …)
    strict (t.textWith decimals)     = the instant with those decimals

The form has room for four digits of a year, so all this is about the years 0 to 9999. What is read
is what was shown, so it is the instant itself where that is shown as it is (`Instant.IsSettled`).
-/

namespace CompanyRegister.Calendar

open Text

/-! ## Instants and their clocks -/

namespace Instant

/-- Whether an instant is shown as it is. -/
def IsSettled (t : Instant) : Prop := t.isLeapSecond = true → t.secs % 60 = 59

/-- The instant that stored text shows: cut down to milliseconds, as all else of it is cut off. -/
def stored (t : Instant) : Instant := t.floorMillis.settled

instance (t : Instant) : Decidable t.IsSettled := by unfold IsSettled; infer_instance

/-- Whether four digits do for the year of an instant. -/
def HasFourDigitYear (t : Instant) : Prop := 0 ≤ t.date.year ∧ t.date.year ≤ 9999

instance (t : Instant) : Decidable t.HasFourDigitYear := by
  unfold HasFourDigitYear; infer_instance

/-- What the clock of an instant shows, with the nanoseconds that are shown with it. -/
def clock (t : Instant) (nanos : Nat) : Written.Clock where
  hour := t.secondOfDay / 3600
  minute := t.secondOfDay / 60 % 60
  second := t.secondOfDay % 60 + (if t.isLeapSecond then 1 else 0)
  nanos := nanos

/-- The nanoseconds that a second 60 adds to the second before it. -/
def leapNanos (t : Instant) : Nat := if t.isLeapSecond then nanosInSecond else 0

theorem secondOfDay_lt (t : Instant) : t.secondOfDay < secondsInDay := by
  simp only [secondOfDay, secondsInDay]
  omega

theorem subsecond_lt (t : Instant) : t.subsecond < 1000000000 :=
  Nat.mod_lt t.nanos (show 0 < nanosInSecond by decide)

/-- Only a second 59 can be a leap second. -/
theorem second_of_isLeapSecond {t : Instant} (ht : t.IsSettled) (h : t.isLeapSecond = true) :
    t.secondOfDay % 60 = 59 := by
  have hsecs := ht h
  simp only [secondOfDay, secondsInDay]
  omega

theorem clock_valid (t : Instant) (nanos : Nat) : (t.clock nanos).Valid := by
  have hday : t.secondOfDay < 86400 := t.secondOfDay_lt
  refine ⟨?_, ?_, ?_⟩
  · simp only [clock]; omega
  · simp only [clock]; omega
  · simp only [clock]
    split <;> omega

/-- Second 60 is how a clock shows a leap second. -/
theorem clock_second_eq_sixty {t : Instant} (ht : t.IsSettled) (nanos : Nat) :
    (t.clock nanos).second = 60 ↔ t.isLeapSecond = true := by
  simp only [clock]
  split
  · next h =>
    have hlast := second_of_isLeapSecond ht h
    exact iff_of_true (by omega) h
  · next h => exact iff_of_false (by omega) h

/-- Before it is shown, a second 60 is a second 59. -/
theorem min_clock_second {t : Instant} (ht : t.IsSettled) (nanos : Nat) :
    min (t.clock nanos).second 59 = t.secondOfDay % 60 := by
  simp only [clock]
  split
  · next h =>
    have hlast := second_of_isLeapSecond ht h
    omega
  · omega

/-- The days and the seconds of the day make up the count of seconds. -/
theorem secs_eq (t : Instant) :
    t.date.dayNumber * secondsInDay + t.secondOfDay = t.secs := by
  rw [date, Date.dayNumber_ofDayNumber]
  simp only [secondOfDay, secondsInDay]
  omega

/-- The date of an instant is one of the calendar. -/
theorem date_valid (t : Instant) : t.date.Valid := by
  obtain ⟨hfirst, hlast, -⟩ := t.isInstant
  rw [firstSecond_eq] at hfirst
  rw [lastSecond_eq] at hlast
  simp only [secondsInDay] at hfirst hlast
  apply Date.ofDayNumber_valid
  · simp only [secondsInDay]; omega
  · simp only [secondsInDay]; omega

/-- The date and clock of an instant lead back to it. -/
theorem instant?_date_clock {t : Instant} (ht : t.IsSettled) (nanos : Nat) :
    Written.instant? t.date (t.clock nanos) 0 = ofCounts? t.secs (nanos + t.leapNanos) := by
  have hsecond := min_clock_second ht nanos
  have hsixty := clock_second_eq_sixty ht nanos
  have hday : (t.clock nanos).hour * 3600 + (t.clock nanos).minute * 60 + t.secondOfDay % 60 =
      t.secondOfDay := by
    simp only [clock]
    omega
  -- A second 60 counts as the second before it, with its whole length in nanoseconds on top.
  have hnanos : (t.clock nanos).nanos +
      (if (t.clock nanos).second = 60 then nanosInSecond else 0) = nanos + t.leapNanos := by
    simp only [hsixty]
    rfl
  rw [Written.instant?, if_pos ⟨t.date_valid, t.clock_valid nanos⟩]
  simp only [hsecond, hday, hnanos, t.secs_eq, Int.sub_zero]

/-! ### Instants as they are shown -/

theorem isSettled_of_ofCounts? {t : Instant} {secs : Int} {nanos : Nat}
    (h : ofCounts? secs nanos = some t) : t.IsSettled := by
  unfold ofCounts? at h
  split at h
  · next hcounts =>
    cases h
    exact fun hleap => hcounts.2 (of_decide_eq_true hleap)
  · cases h

theorem ofCounts?_of_isSettled {t : Instant} (ht : t.IsSettled) :
    ofCounts? t.secs t.nanos = some t :=
  dif_pos ⟨t.isInstant, fun hleap => ht (decide_eq_true hleap)⟩

theorem settled_of_isSettled {t : Instant} (ht : t.IsSettled) : t.settled = t :=
  dif_neg fun h => h.2 (ht h.1)

/-- An instant that is not shown as it is is shown as the second after. -/
theorem settled_cases (t : Instant) :
    (t.IsSettled ∧ t.settled = t) ∨
      (t.isLeapSecond = true ∧ t.secs % 60 ≠ 59 ∧ t.settled.secs = t.secs + 1 ∧
        t.settled.nanos = t.subsecond) := by
  by_cases h : t.isLeapSecond = true ∧ t.secs % 60 ≠ 59
  · have heq : t.settled = ⟨t.secs + 1, t.subsecond, _⟩ := dif_pos h
    exact .inr ⟨h.1, h.2, by rw [heq], by rw [heq]⟩
  · have ht : t.IsSettled := fun hleap => by_contra fun hne => h ⟨hleap, hne⟩
    exact .inl ⟨ht, settled_of_isSettled ht⟩

theorem isLeapSecond_settled {t : Instant} (h : t.settled.nanos = t.subsecond) :
    t.settled.isLeapSecond = false := by
  have hlt := t.subsecond_lt
  simp only [isLeapSecond, h, nanosInSecond]
  exact decide_eq_false (by omega)

theorem isSettled_settled (t : Instant) : t.settled.IsSettled := by
  obtain ⟨ht, heq⟩ | ⟨-, -, -, hnanos⟩ := t.settled_cases
  · rw [heq]
    exact ht
  · intro hleap
    rw [isLeapSecond_settled hnanos] at hleap
    cases hleap

theorem subsecond_settled (t : Instant) : t.settled.subsecond = t.subsecond := by
  obtain ⟨-, heq⟩ | ⟨-, -, -, hnanos⟩ := t.settled_cases
  · rw [heq]
  · rw [subsecond, hnanos]
    exact Nat.mod_eq_of_lt t.subsecond_lt

/-- Only the second changes, so the minute and the day stay. -/
theorem date_settled (t : Instant) : t.settled.date = t.date := by
  obtain ⟨-, heq⟩ | ⟨-, hne, hsecs, -⟩ := t.settled_cases
  · rw [heq]
  · have hday : (t.secs + 1) / secondsInDay = t.secs / secondsInDay := by
      simp only [secondsInDay]
      omega
    rw [date, hsecs, hday]
    rfl

theorem hasFourDigitYear_settled {t : Instant} :
    t.settled.HasFourDigitYear ↔ t.HasFourDigitYear := by
  rw [HasFourDigitYear, date_settled]
  rfl

theorem clockText_settled (t : Instant) : t.settled.clockText = t.clockText := by
  obtain ⟨-, heq⟩ | ⟨hleap, hne, hsecs, hnanos⟩ := t.settled_cases
  · rw [heq]
  · have hsecond : t.settled.secondOfDay = t.secondOfDay + 1 := by
      simp only [secondOfDay, hsecs, secondsInDay]
      omega
    have hlow : t.secondOfDay % 60 ≠ 59 := by
      simp only [secondOfDay, secondsInDay]
      omega
    have hhour : (t.secondOfDay + 1) / 3600 = t.secondOfDay / 3600 := by omega
    have hminute : (t.secondOfDay + 1) / 60 % 60 = t.secondOfDay / 60 % 60 := by omega
    have hshown : (t.secondOfDay + 1) % 60 = t.secondOfDay % 60 + 1 := by omega
    simp only [clockText, isLeapSecond_settled hnanos, hleap, hsecond, hhour, hminute, hshown,
      Bool.false_eq_true, if_false, if_true, Nat.add_zero]

/-- An instant is written as it is shown. -/
theorem textWith_settled (t : Instant) (ds : List Char) :
    t.settled.textWith ds = t.textWith ds := by
  rw [textWith, textWith, date_settled, clockText_settled]

end Instant

/-! ## Readers and writers -/

namespace Written

theorem char_cons (c : Char) (rest : List Char) : char c (c :: rest) = some rest := by
  simp [char]

/-- As many digits are read as were written. -/
theorem exactly_padded {width n : Nat} (hw : 0 < width) (h : n < tenPower width)
    (rest : List Char) : exactly width (padded width n ++ rest) = some (n, rest) := by
  have hlength := length_padded hw h
  have htake : (padded width n ++ rest).take width = padded width n := List.take_left' hlength
  have hdrop : (padded width n ++ rest).drop width = rest := List.drop_left' hlength
  have hdigits : (padded width n).all Char.isDigit = true :=
    List.all_eq_true.mpr fun c hc => isDigit_of_mem_padded hc
  rw [exactly, htake, hdrop, if_pos ⟨hlength, hdigits⟩, value_padded]

/-- Decimals of any width are read up to the first character that is no digit. -/
theorem decimals_cons {ds rest : List Char} (hne : ds ≠ []) (hds : ∀ c ∈ ds, c.isDigit = true)
    (hrest : ∀ c ∈ rest.head?, c.isDigit = false) :
    decimals ('.' :: (ds ++ rest)) = some (nanosOf ds, rest) := by
  rw [decimals, takeDigits_append hds hrest]
  simp [hne]

/-- Four digits do for the year, and two each for month and day. -/
theorem date_lt_tenPower {d : Date} (hd : d.Valid) (hyear : 0 ≤ d.year ∧ d.year ≤ 9999) :
    d.year.toNat < tenPower 4 ∧ d.month < tenPower 2 ∧ d.day < tenPower 2 := by
  obtain ⟨-, -, -, hmonth, -, hday⟩ := hd
  have hlong := daysInMonth_le d.year d.month
  have hyear' : d.year.toNat ≤ 9999 := by omega
  refine ⟨?_, ?_, ?_⟩
  · exact Nat.lt_of_le_of_lt hyear' (by decide)
  · exact Nat.lt_of_le_of_lt hmonth (by decide)
  · exact Nat.lt_of_le_of_lt (Nat.le_trans hday hlong) (by decide)

/-- The date that is written in four, two and two digits is read. -/
theorem strictDate_text {d : Date} (hd : d.Valid) (hyear : 0 ≤ d.year ∧ d.year ≤ 9999)
    (rest : List Char) : strictDate (d.text ++ rest) = some (d, rest) := by
  obtain ⟨hyear', hmonth', hday'⟩ := date_lt_tenPower hd hyear
  have hback : (d.year.toNat : Int) = d.year := Int.toNat_of_nonneg hyear.1
  rw [Date.text, yearText, if_pos hyear]
  simp only [List.append_assoc, List.cons_append, strictDate, Option.bind_eq_bind,
    exactly_padded (by decide) hyear', exactly_padded (by decide) hmonth',
    exactly_padded (by decide) hday', char_cons, Option.bind_some, hback]
  rfl

/-- The clock that is written in two digits each is read, with any decimals behind it. -/
theorem strictClock_clockText (t : Instant) {ds rest : List Char} {nanos : Nat}
    (hds : decimals (ds ++ rest) = some (nanos, rest)) :
    strictClock (t.clockText ++ (ds ++ rest)) = some (t.clock nanos, rest) := by
  obtain ⟨hhour, hminute, hsecond⟩ := t.clock_valid nanos
  have hsixty : tenPower 2 = 100 := rfl
  rw [Instant.clockText]
  simp only [Instant.clock] at hhour hminute hsecond
  have hhour' : t.secondOfDay / 3600 < tenPower 2 := by omega
  have hminute' : t.secondOfDay / 60 % 60 < tenPower 2 := by omega
  have hsecond' := Nat.lt_of_le_of_lt hsecond (show 60 < tenPower 2 by omega)
  simp only [List.append_assoc, List.cons_append, strictClock, Option.bind_eq_bind, char_cons,
    exactly_padded (by decide) hhour', exactly_padded (by decide) hminute',
    exactly_padded (by decide) hsecond', Option.bind_some, hds]
  rfl

/-- An instant of the years 0 to 9999 is read from what is written, but for its decimals. -/
theorem strict_textWith {t : Instant} (ht : t.IsSettled) (hyear : t.HasFourDigitYear)
    {ds : List Char} {nanos : Nat} (hds : decimals (ds ++ ['Z']) = some (nanos, ['Z'])) :
    strict (t.textWith ds) = Instant.ofCounts? t.secs (nanos + t.leapNanos) := by
  have hoffset : strictOffset ['Z'] = some (0, []) := rfl
  rw [Instant.textWith, strict]
  simp only [Option.bind_eq_bind, strictDate_text t.date_valid hyear, Option.bind_some,
    strictMark, true_or, if_true, strictClock_clockText t hds, hoffset]
  exact Instant.instant?_date_clock ht nanos

end Written

end CompanyRegister.Calendar
