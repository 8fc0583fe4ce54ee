import CompanyRegister.Text.Blank
import CompanyRegister.Calendar.Instant

/-!
# Reading dates and times

A date may stand alone, be followed by an hour, or by hours and minutes with or without seconds,
and after a time an offset from UTC may follow. Without an offset the time is UTC.

There are two forms. The strict one has a fixed count of digits everywhere and demands the
offset. The lenient one allows blanks before each number, fewer digits, signed years, and an offset
without a colon, and demands a time with at least hours and minutes before an offset.
`Instant.parse?` tries the strict one first and then the shapes of the lenient one in turn.

Every reader below takes the text and gives a value and what is left of the text.
-/

namespace CompanyRegister.Calendar

open Text

namespace Written

/-! ### Pieces -/

def char (c : Char) : List Char → Option (List Char)
  | d :: rest => if d = c then some rest else none
  | [] => none

/-- A number of one to `width` digits, after any blanks. -/
def number (width : Nat) (text : List Char) : Option (Nat × List Char) :=
  let text := trimStart text
  let ds := (text.take width).takeWhile Char.isDigit
  if ds = [] then none else some (value ds, text.drop ds.length)

/-- A number of exactly `width` digits. -/
def exactly (width : Nat) (text : List Char) : Option (Nat × List Char) :=
  let ds := text.take width
  if ds.length = width ∧ ds.all Char.isDigit = true then some (value ds, text.drop width) else none

/-- A number of one or more digits. -/
def anyNumber (text : List Char) : Option (Nat × List Char) :=
  let (ds, rest) := takeDigits text
  if ds = [] then none else some (value ds, rest)

/-- A year: one to four digits, or a sign and any number of digits, after any blanks. -/
def year (text : List Char) : Option (Int × List Char) :=
  match trimStart text with
  | '-' :: rest => (anyNumber rest).map fun (n, rest) => (-(n : Int), rest)
  | '+' :: rest => (anyNumber rest).map fun (n, rest) => ((n : Int), rest)
  | text => (number 4 text).map fun (n, rest) => ((n : Int), rest)

def sign : List Char → Option (Int × List Char)
  | c :: rest =>
    if c = '+' then some (1, rest)
    else if c = '-' ∨ c = '\u2212' then some (-1, rest)
    else none
  | [] => none

/-- Nanoseconds given by the digits after a point, of which the first nine count. -/
def nanosOf (ds : List Char) : Nat :=
  value (ds.take 9) * tenPower (9 - ds.length)

/-- Decimals of a second: nothing, or a point and one or more digits. -/
def decimals : List Char → Option (Nat × List Char)
  | '.' :: rest =>
    let (ds, rest) := takeDigits rest
    if ds = [] then none else some (nanosOf ds, rest)
  | text => some (0, text)

/-! ### Times -/

/-- A time of day as read: nothing is checked yet. -/
structure Clock where
  hour : Nat
  minute : Nat
  second : Nat
  nanos : Nat
  deriving DecidableEq, Repr

/-- Whether a day has this time; a second 60 is allowed in every minute. -/
def Clock.Valid (c : Clock) : Prop := c.hour ≤ 23 ∧ c.minute ≤ 59 ∧ c.second ≤ 60

instance (c : Clock) : Decidable c.Valid := by unfold Clock.Valid; infer_instance

def Clock.midnight : Clock := ⟨0, 0, 0, 0⟩

/-- The instant of a date and time that are `offset` seconds ahead of UTC. -/
def instant? (d : Date) (c : Clock) (offset : Int) : Option Instant :=
  if d.Valid ∧ c.Valid then
    let second := min c.second 59
    let nanos := c.nanos + (if c.second = 60 then nanosInSecond else 0)
    let secs := d.dayNumber * secondsInDay + (c.hour * 3600 + c.minute * 60 + second : Nat)
    Instant.ofCounts? (secs - offset) nanos
  else none

/-! ### The strict form -/

/-- Four, two and two digits with hyphens between them. -/
def strictDate (text : List Char) : Option (Date × List Char) := do
  let (y, text) ← exactly 4 text
  let text ← char '-' text
  let (m, text) ← exactly 2 text
  let text ← char '-' text
  let (d, text) ← exactly 2 text
  return (⟨y, m, d⟩, text)

/-- Two, two and two digits with colons between them, and decimals. -/
def strictClock (text : List Char) : Option (Clock × List Char) := do
  let (h, text) ← exactly 2 text
  let text ← char ':' text
  let (m, text) ← exactly 2 text
  let text ← char ':' text
  let (s, text) ← exactly 2 text
  let (n, text) ← decimals text
  return (⟨h, m, s, n⟩, text)

/-- The letter or blank between a date and a time. -/
def strictMark : List Char → Option (List Char)
  | c :: rest => if c = 'T' ∨ c = 't' ∨ c = ' ' then some rest else none
  | [] => none

/-- The offset in seconds that a sign, hours and minutes stand for, if it is less than a day. -/
def offset? (s : Int) (hours minutes : Nat) : Option Int :=
  if hours ≤ 23 ∧ minutes ≤ 59 then some (s * (hours * 3600 + minutes * 60 : Nat)) else none

/-- `Z`, or a sign with two digits, a colon and two digits. -/
def strictOffset : List Char → Option (Int × List Char)
  | [] => none
  | c :: rest =>
    if c = 'Z' ∨ c = 'z' then some (0, rest)
    else do
      let (s, text) ← sign (c :: rest)
      let (h, text) ← exactly 2 text
      let text ← char ':' text
      let (m, text) ← exactly 2 text
      let o ← offset? s h m
      return (o, text)

/-- Date, time and offset, and nothing else. -/
def strict (text : List Char) : Option Instant := do
  let (d, text) ← strictDate text
  let text ← strictMark text
  let (c, text) ← strictClock text
  let (o, text) ← strictOffset text
  if text = [] then instant? d c o else none

/-! ### The lenient form -/

/-- Year, month and day with hyphens between them. -/
def date (text : List Char) : Option (Date × List Char) := do
  let (y, text) ← year text
  let text ← char '-' text
  let (m, text) ← number 2 text
  let text ← char '-' text
  let (d, text) ← number 2 text
  return (⟨y, m, d⟩, text)

/-- Hours and minutes with a colon between them. -/
def hourMinute (text : List Char) : Option (Clock × List Char) := do
  let (h, text) ← number 2 text
  let text ← char ':' text
  let (m, text) ← number 2 text
  return (⟨h, m, 0, 0⟩, text)

/-- Hours, minutes and seconds with colons between them, and decimals. -/
def fullClock (text : List Char) : Option (Clock × List Char) := do
  let (c, text) ← hourMinute text
  let text ← char ':' text
  let (s, text) ← number 2 text
  let (n, text) ← decimals text
  return (⟨c.hour, c.minute, s, n⟩, text)

/-- After any blanks a sign, two digits, any colons and blanks, and two digits. -/
def offset (text : List Char) : Option (Int × List Char) := do
  let (s, text) ← sign (trimStart text)
  let (h, text) ← exactly 2 text
  let (m, text) ← exactly 2 (text.dropWhile fun c => c == ':' || isBlank c)
  let o ← offset? s h m
  return (o, text)

/-- Exactly two digits for the hour. -/
def bareHour (text : List Char) : Option (Clock × List Char) := do
  let (h, text) ← exactly 2 text
  return (⟨h, 0, 0, 0⟩, text)

/-- No offset: UTC. -/
def noOffset (text : List Char) : Option (Int × List Char) := some (0, text)

/-- No time: midnight. -/
def noClock (text : List Char) : Option (Clock × List Char) := some (.midnight, text)

/-- The shape of a date with what may follow it. -/
structure Shape where
  /-- What stands between the date and the time. -/
  mark : List Char → Option (List Char)
  clock : List Char → Option (Clock × List Char)
  offset : List Char → Option (Int × List Char)

/-- Read a text that is wholly of one shape. -/
def Shape.read (shape : Shape) (text : List Char) : Option Instant := do
  let (d, text) ← date text
  let text ← shape.mark text
  let (c, text) ← shape.clock text
  let (o, text) ← shape.offset text
  if text = [] then instant? d c o else none

/-- The lenient shapes, in the order in which they are tried. Where no mark stands between date and
time, blanks before the hour may. -/
def shapes : List Shape :=
  [⟨char 'T', fullClock, offset⟩,
    ⟨char 'T', hourMinute, offset⟩,
    ⟨char 'T', fullClock, noOffset⟩,
    ⟨some, fullClock, noOffset⟩,
    ⟨char 'T', hourMinute, noOffset⟩,
    ⟨some, hourMinute, noOffset⟩,
    ⟨char 'T', bareHour, noOffset⟩,
    ⟨some, noClock, noOffset⟩]

/-- Read a text without outer blanks: strictly, else in the first lenient shape that fits. -/
def readTrimmed (text : List Char) : Option Instant :=
  strict text <|> shapes.findSome? fun shape => shape.read text

end Written

/-- The instant that a text gives, outer blanks aside. -/
def Instant.parse? (s : List Char) : Option Instant := Written.readTrimmed (trim s)

end CompanyRegister.Calendar
