import CompanyRegister.Calendar.Written

/-!
# The grammar of dates and times

What users are told to write is a date with an optional time of three precisions and an optional
zone behind it (`Stamp`). Every stamp has a text and, by its date, time and zone, an instant
(`Stamp.instant?_isSome`); nothing in this module says how a text is read.

Not all stamps are read. Which are is a matter of their form alone (`Stamp.isRead`).
-/

namespace CompanyRegister.Calendar

open Text Written

/-! ## Stamps -/

namespace Grammar

/-- A date of the years for which four digits do. -/
structure ShortDate extends Date where
  valid : toDate.Valid
  year_bounds : 0 ≤ year ∧ year ≤ 9999

/-- The decimals of a second: one or more digits. -/
structure Fraction where
  digits : List Char
  ne_nil : digits ≠ []
  isDigit : ∀ c ∈ digits, c.isDigit = true

/-- The nanoseconds that a fraction of a second stands for, cut off. -/
def Fraction.nanos (f : Fraction) : Nat :=
  value f.digits * nanosInSecond / tenPower f.digits.length

inductive TimeOfDay
  | hour (h : Fin 24)
  | minute (h : Fin 24) (m : Fin 60)
  | second (h : Fin 24) (m : Fin 60) (s : Fin 61) (fraction : Option Fraction)

/-- How far a clock is ahead of UTC or behind it, by less than a day. -/
structure Offset where
  ahead : Bool
  hours : Fin 24
  minutes : Fin 60

def Offset.seconds (o : Offset) : Int :=
  (if o.ahead then 1 else -1) * (o.hours * 3600 + o.minutes * 60 : Nat)

/-- The letter for UTC, or an offset with or without a colon in it. -/
inductive Zone
  | utc
  | offset (o : Offset) (colon : Bool)

def Zone.seconds : Zone → Int
  | .utc => 0
  | .offset o _ => o.seconds

/-- A date, an optional time and an optional zone after the time. -/
structure Stamp where
  date : ShortDate
  time : Option (TimeOfDay × Option Zone)

/-! ### Texts -/

/-- A point and the digits, or nothing. -/
def fractionText : Option Fraction → List Char
  | none => []
  | some f => '.' :: f.digits

def TimeOfDay.text : TimeOfDay → List Char
  | .hour h => padded 2 h
  | .minute h m => padded 2 h ++ ':' :: padded 2 m
  | .second h m s fraction =>
    padded 2 h ++ ':' :: (padded 2 m ++ ':' :: (padded 2 s ++ fractionText fraction))

def signChar : Bool → Char
  | true => '+'
  | false => '-'

def Offset.text (o : Offset) (colon : Bool) : List Char :=
  signChar o.ahead ::
    (padded 2 o.hours ++ ((if colon then [':'] else []) ++ padded 2 o.minutes))

def Zone.text : Zone → List Char
  | .utc => ['Z']
  | .offset o colon => o.text colon

/-- The text of a zone, or nothing. -/
def zoneText : Option Zone → List Char
  | none => []
  | some z => z.text

def Stamp.text (w : Stamp) : List Char :=
  w.date.text ++ match w.time with
    | none => []
    | some (t, z) => 'T' :: (t.text ++ zoneText z)

/-! ### Meanings -/

/-- The nanoseconds of a fraction, or none of them. -/
def fractionNanos : Option Fraction → Nat
  | none => 0
  | some f => f.nanos

def TimeOfDay.clock : TimeOfDay → Clock
  | .hour h => ⟨h, 0, 0, 0⟩
  | .minute h m => ⟨h, m, 0, 0⟩
  | .second h m s fraction => ⟨h, m, s, fractionNanos fraction⟩

/-- How far ahead of UTC a zone is; no zone is UTC. -/
def zoneSeconds : Option Zone → Int
  | none => 0
  | some z => z.seconds

/-- The instant of a stamp. A date without a time is its midnight. -/
def Stamp.instant? (w : Stamp) : Option Instant :=
  match w.time with
  | none => Written.instant? w.date.toDate .midnight 0
  | some (t, z) => Written.instant? w.date.toDate t.clock (zoneSeconds z)

/-- Whether a time is read with a zone: a bare hour is not, hours and minutes not with `Z`. -/
def TimeOfDay.admits : TimeOfDay → Option Zone → Bool
  | _, none => true
  | .hour _, some _ => false
  | .minute _ _, some .utc => false
  | .minute _ _, some (.offset _ _) => true
  | .second _ _ _ _, some _ => true

/-- Whether a stamp is read. -/
def Stamp.isRead (w : Stamp) : Bool :=
  match w.time with
  | none => true
  | some (t, z) => t.admits z

end Grammar

open Grammar

/-! ## Every stamp has an instant -/

theorem Grammar.ShortDate.dayNumber_bounds (d : ShortDate) :
    -1000000 ≤ d.dayNumber ∧ d.dayNumber ≤ 4000000 := by
  obtain ⟨-, -, hmonth, hmonth', hday, hday'⟩ := d.valid
  obtain ⟨hyear, hyear'⟩ := d.year_bounds
  have hlong := daysInMonth_le d.year d.month
  simp only [Date.dayNumber, daysInEra, epochShift, monthFromMarch]
  split <;> omega

/-- The digits of a fraction stand for less than a second. -/
theorem Grammar.fractionNanos_lt (fraction : Option Fraction) :
    fractionNanos fraction < nanosInSecond := by
  cases fraction with
  | none => decide
  | some f =>
    have hlt := value_lt_tenPower f.isDigit
    have hpos : 0 < tenPower f.digits.length := by omega
    show value f.digits * nanosInSecond / tenPower f.digits.length < nanosInSecond
    rw [Nat.div_lt_iff_lt_mul hpos, Nat.mul_comm]
    exact Nat.mul_lt_mul_of_pos_left hlt (by decide)

/-- An offset is a number of whole minutes below a day. -/
theorem Grammar.Offset.seconds_bounds (o : Offset) :
    -86400 < o.seconds ∧ o.seconds < 86400 ∧ o.seconds % 60 = 0 := by
  obtain ⟨ahead, hours, minutes⟩ := o
  cases ahead with
  | true => simp only [Offset.seconds, if_true]; omega
  | false => simp only [Offset.seconds, Bool.false_eq_true, if_false]; omega

theorem Grammar.zoneSeconds_bounds (z : Option Zone) :
    -86400 < zoneSeconds z ∧ zoneSeconds z < 86400 ∧ zoneSeconds z % 60 = 0 := by
  cases z with
  | none => decide
  | some z =>
    cases z with
    | utc => decide
    | offset o colon => exact o.seconds_bounds

namespace Written

/-- A date of four digits with any time of day and any offset below a day is an instant. A second 60
is the second before it with a billion nanoseconds more. -/
theorem exists_instant?_eq (d : ShortDate) {c : Clock} (hc : c.Valid)
    (hnanos : c.nanos < nanosInSecond) {o : Int} (ho : -86400 < o ∧ o < 86400 ∧ o % 60 = 0) :
    ∃ t : Instant, instant? d.toDate c o = some t ∧
      t.secs = d.dayNumber * 86400 + (c.hour * 3600 + c.minute * 60 + min c.second 59 : Nat) - o ∧
      t.nanos = c.nanos + if c.second = 60 then nanosInSecond else 0 := by
  have hbounds := d.dayNumber_bounds
  have hinstant : IsInstant
      (d.dayNumber * secondsInDay + (c.hour * 3600 + c.minute * 60 + min c.second 59 : Nat) - o)
      (c.nanos + if c.second = 60 then nanosInSecond else 0) := by
    obtain ⟨hhour, hminute, hsecond⟩ := hc
    simp only [IsInstant, firstSecond, lastSecond, secondsInDay]
    simp only [nanosInSecond] at *
    refine ⟨by omega, by omega, ?_⟩
    split <;> omega
  -- Offsets are of whole minutes, so a second 60 still follows a second 59.
  have hleap : nanosInSecond ≤ (c.nanos + if c.second = 60 then nanosInSecond else 0) →
      (d.dayNumber * secondsInDay + (c.hour * 3600 + c.minute * 60 + min c.second 59 : Nat) - o) %
        60 = 59 := by
    intro hbillion
    simp only [nanosInSecond, secondsInDay] at *
    split at hbillion
    · omega
    · omega
  refine ⟨⟨_, _, hinstant⟩, ?_, rfl, rfl⟩
  rw [instant?, if_pos ⟨d.valid, hc⟩]
  exact dif_pos ⟨hinstant, hleap⟩

end Written

theorem Grammar.TimeOfDay.clock_valid (t : TimeOfDay) : t.clock.Valid := by
  cases t with
  | hour h => refine ⟨?_, ?_, ?_⟩ <;> simp only [clock] <;> omega
  | minute h m => refine ⟨?_, ?_, ?_⟩ <;> simp only [clock] <;> omega
  | second h m s fraction => refine ⟨?_, ?_, ?_⟩ <;> simp only [clock] <;> omega

theorem Grammar.TimeOfDay.clock_nanos_lt (t : TimeOfDay) : t.clock.nanos < nanosInSecond := by
  cases t with
  | hour h => exact show 0 < nanosInSecond by decide
  | minute h m => exact show 0 < nanosInSecond by decide
  | second h m s fraction => exact fractionNanos_lt fraction

theorem Grammar.Stamp.instant?_isSome (w : Stamp) : w.instant?.isSome = true := by
  obtain ⟨d, time⟩ := w
  match time with
  | none =>
    obtain ⟨t, ht, -, -⟩ := exists_instant?_eq d (c := .midnight) (o := 0) (by decide) (by decide)
      (by decide)
    exact Option.isSome_of_eq_some ht
  | some (time, z) =>
    obtain ⟨t, ht, -, -⟩ :=
      exists_instant?_eq d time.clock_valid time.clock_nanos_lt (zoneSeconds_bounds z)
    exact Option.isSome_of_eq_some ht

/-! ## No blanks in a stamp -/

namespace Grammar

theorem not_isBlank_of_mem_padded {width n : Nat} {c : Char} (h : c ∈ padded width n) :
    isBlank c = false :=
  not_isBlank_of_isDigit (isDigit_of_mem_padded h)

theorem not_isBlank_signChar (ahead : Bool) : isBlank (signChar ahead) = false := by
  cases ahead with
  | true => decide
  | false => decide

theorem not_isBlank_of_mem_date (d : ShortDate) : ∀ c ∈ d.text, isBlank c = false := by
  intro c hc
  rw [Date.text, yearText, if_pos d.year_bounds] at hc
  simp only [List.mem_append, List.mem_cons] at hc
  rcases hc with hc | rfl | hc | rfl | hc
  · exact not_isBlank_of_mem_padded hc
  · decide
  · exact not_isBlank_of_mem_padded hc
  · decide
  · exact not_isBlank_of_mem_padded hc

theorem not_isBlank_of_mem_fraction (fraction : Option Fraction) :
    ∀ c ∈ fractionText fraction, isBlank c = false := by
  cases fraction with
  | none => simp [fractionText]
  | some f =>
    exact List.forall_mem_cons.mpr ⟨by decide, fun c hc => not_isBlank_of_isDigit (f.isDigit c hc)⟩

theorem not_isBlank_of_mem_time (t : TimeOfDay) : ∀ c ∈ t.text, isBlank c = false := by
  intro c hc
  cases t with
  | hour h => exact not_isBlank_of_mem_padded hc
  | minute h m =>
    simp only [TimeOfDay.text, List.mem_append, List.mem_cons] at hc
    rcases hc with hc | rfl | hc
    · exact not_isBlank_of_mem_padded hc
    · decide
    · exact not_isBlank_of_mem_padded hc
  | second h m s fraction =>
    simp only [TimeOfDay.text, List.mem_append, List.mem_cons] at hc
    rcases hc with hc | rfl | hc | rfl | hc | hc
    · exact not_isBlank_of_mem_padded hc
    · decide
    · exact not_isBlank_of_mem_padded hc
    · decide
    · exact not_isBlank_of_mem_padded hc
    · exact not_isBlank_of_mem_fraction fraction c hc

theorem not_isBlank_of_mem_zone (z : Option Zone) : ∀ c ∈ zoneText z, isBlank c = false := by
  intro c hc
  match z with
  | none => cases hc
  | some .utc =>
    rw [List.mem_singleton.mp hc]
    decide
  | some (.offset o colon) =>
    simp only [zoneText, Zone.text, Offset.text, List.mem_append, List.mem_cons] at hc
    rcases hc with rfl | hc | hc | hc
    · exact not_isBlank_signChar o.ahead
    · exact not_isBlank_of_mem_padded hc
    · cases colon with
      | true =>
        rw [List.mem_singleton.mp hc]
        decide
      | false => cases hc
    · exact not_isBlank_of_mem_padded hc

/-- There is no blank in the text of a stamp. -/
theorem Stamp.not_isBlank_of_mem (w : Stamp) : ∀ c ∈ w.text, isBlank c = false := by
  obtain ⟨d, time⟩ := w
  intro c hc
  match time with
  | none =>
    rw [Stamp.text, List.append_nil] at hc
    exact not_isBlank_of_mem_date d c hc
  | some (t, z) =>
    simp only [Stamp.text, List.mem_append, List.mem_cons] at hc
    rcases hc with hc | rfl | hc | hc
    · exact not_isBlank_of_mem_date d c hc
    · decide
    · exact not_isBlank_of_mem_time t c hc
    · exact not_isBlank_of_mem_zone z c hc

end Grammar

end CompanyRegister.Calendar
