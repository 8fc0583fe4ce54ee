import CompanyRegister.Proofs.Calendar.Grammar
import CompanyRegister.Proofs.Calendar.Strict
import CompanyRegister.Proofs.Text.Plain

/-!
# Stamps are read by their meaning

The readers know no stamps; they try the strict form and eight lenient shapes in turn. Here they are
run on the text of any stamp:

    parse? w.text = if w.isRead then w.instant? else none

so the stamps that are read are read by their meaning, whichever reader gets to them first. A bare
hour is read without a zone only, and `Z` behind seconds only (`stamp_read_iff`).

The readers are run in three layers. A number reader takes the digits that were padded; with these
a time reader takes the text of a time or fails in it (`readTrimmed_hour`, `readTrimmed_minute`,
`readTrimmed_second`); what is left is the zone, on which `readZone` is a small table.
-/

namespace CompanyRegister.Calendar

open Text Written Grammar

namespace Written

/-! ## Numbers and dates -/

theorem trimStart_padded (width n : Nat) (rest : List Char) :
    trimStart (padded width n ++ rest) = padded width n ++ rest := by
  obtain ⟨c, ds, heq, hc⟩ := exists_padded_eq_cons width n
  rw [heq]
  exact dropWhile_eq_self (isBlank_of_head?_cons (not_isBlank_of_isDigit hc))

/-- A number of at most `width` digits takes all that were written. -/
theorem number_padded {width n : Nat} (hw : 0 < width) (h : n < tenPower width)
    (rest : List Char) : number width (padded width n ++ rest) = some (n, rest) := by
  have hlength := length_padded hw h
  have htake : (padded width n ++ rest).take width = padded width n := List.take_left' hlength
  have hdigits : (padded width n).takeWhile Char.isDigit = padded width n :=
    List.takeWhile_eq_self_iff.mpr fun _ hc => isDigit_of_mem_padded hc
  have hne : padded width n ≠ [] := List.ne_nil_of_length_pos (by omega)
  rw [number, trimStart_padded]
  simp only [htake, hdigits, if_neg hne, value_padded, List.drop_left]

theorem year_padded {n : Nat} (h : n < tenPower 4) (rest : List Char) :
    year (padded 4 n ++ rest) = some ((n : Int), rest) := by
  obtain ⟨c, ds, heq, hc⟩ := exists_padded_eq_cons 4 n
  rw [year, trimStart_padded]
  split
  · next hminus =>
    rw [heq] at hminus
    cases hminus
    cases hc
  · next hplus =>
    rw [heq] at hplus
    cases hplus
    cases hc
  · rw [number_padded (by decide) h]
    rfl

/-- The lenient form reads a date of four digits as the strict one does. -/
theorem date_text (d : ShortDate) (rest : List Char) :
    date (d.text ++ rest) = some (d.toDate, rest) := by
  obtain ⟨hyear, hmonth, hday⟩ := date_lt_tenPower d.valid d.year_bounds
  have hback : (d.year.toNat : Int) = d.year := Int.toNat_of_nonneg d.year_bounds.1
  rw [Date.text, yearText, if_pos d.year_bounds]
  simp only [List.append_assoc, List.cons_append, date, Option.bind_eq_bind,
    year_padded hyear, number_padded (by decide) hmonth, number_padded (by decide) hday,
    char_cons, Option.bind_some, hback]
  rfl

/-! ## What follows the date -/

/-- What a reader of offsets makes of what follows the time. -/
def readZone (offset : List Char → Option (Int × List Char)) (d : Date) (c : Clock)
    (text : List Char) : Option Instant := do
  let (o, text) ← offset text
  if text = [] then instant? d c o else none

/-- What readers of times and of offsets make of what follows the mark. -/
def readTime (clock : List Char → Option (Clock × List Char))
    (offset : List Char → Option (Int × List Char)) (d : Date) (text : List Char) :
    Option Instant := do
  let (c, text) ← clock text
  readZone offset d c text

theorem readTime_of_some {clock : List Char → Option (Clock × List Char)}
    {text rest : List Char} {c : Clock} (h : clock text = some (c, rest))
    (offset : List Char → Option (Int × List Char)) (d : Date) :
    readTime clock offset d text = readZone offset d c rest := by
  rw [readTime, h]
  rfl

theorem readTime_of_none {clock : List Char → Option (Clock × List Char)} {text : List Char}
    (h : clock text = none) (offset : List Char → Option (Int × List Char)) (d : Date) :
    readTime clock offset d text = none := by
  rw [readTime, h]
  rfl

theorem strict_text (d : ShortDate) {text rest : List Char} (h : strictMark text = some rest) :
    strict (d.text ++ text) = readTime strictClock strictOffset d.toDate rest := by
  rw [strict, strictDate_text d.valid d.year_bounds]
  simp only [Option.bind_eq_bind, Option.bind_some, h]
  rfl

theorem Shape.read_text {mark : List Char → Option (List Char)} (d : ShortDate)
    {text rest : List Char} (h : mark text = some rest)
    (clock : List Char → Option (Clock × List Char))
    (offset : List Char → Option (Int × List Char)) :
    Shape.read ⟨mark, clock, offset⟩ (d.text ++ text) = readTime clock offset d.toDate rest := by
  rw [Shape.read, date_text]
  simp only [Option.bind_eq_bind, Option.bind_some, h]
  rfl

theorem Shape.read_text_of_none {mark : List Char → Option (List Char)} (d : ShortDate)
    {text : List Char} (h : mark text = none)
    (clock : List Char → Option (Clock × List Char))
    (offset : List Char → Option (Int × List Char)) :
    Shape.read ⟨mark, clock, offset⟩ (d.text ++ text) = none := by
  rw [Shape.read, date_text]
  simp only [Option.bind_eq_bind, Option.bind_some, h]
  rfl

/-- Where no mark stands between date and time, nothing is taken. -/
theorem Shape.read_text_unmarked (d : ShortDate) (text : List Char)
    (clock : List Char → Option (Clock × List Char))
    (offset : List Char → Option (Int × List Char)) :
    Shape.read ⟨some, clock, offset⟩ (d.text ++ text) = readTime clock offset d.toDate text :=
  Shape.read_text d rfl clock offset

theorem findSome?_cons_eq_orElse {α β : Type} (f : α → Option β) (a : α) (l : List α) :
    (a :: l).findSome? f = (f a <|> l.findSome? f) := by
  cases h : f a with
  | none => simp [h]
  | some b => simp [h]

theorem readTrimmed_eq (text : List Char) :
    readTrimmed text =
      (strict text <|>
        Shape.read ⟨char 'T', fullClock, offset⟩ text <|>
        Shape.read ⟨char 'T', hourMinute, offset⟩ text <|>
        Shape.read ⟨char 'T', fullClock, noOffset⟩ text <|>
        Shape.read ⟨some, fullClock, noOffset⟩ text <|>
        Shape.read ⟨char 'T', hourMinute, noOffset⟩ text <|>
        Shape.read ⟨some, hourMinute, noOffset⟩ text <|>
        Shape.read ⟨char 'T', bareHour, noOffset⟩ text <|>
        Shape.read ⟨some, noClock, noOffset⟩ text) := by
  simp only [readTrimmed, shapes, findSome?_cons_eq_orElse, List.findSome?_nil]
  simp

/-- Behind a `T` the shapes without a mark fail, and the others are left in their order. -/
theorem readTrimmed_mark (d : ShortDate) (text : List Char) :
    readTrimmed (d.text ++ 'T' :: text) =
      (readTime strictClock strictOffset d.toDate text <|>
        readTime fullClock offset d.toDate text <|>
        readTime hourMinute offset d.toDate text <|>
        readTime fullClock noOffset d.toDate text <|>
        readTime hourMinute noOffset d.toDate text <|>
        readTime bareHour noOffset d.toDate text) := by
  have hmark : char 'T' ('T' :: text) = some text := char_cons 'T' text
  -- A `T` is no digit, and a shape without a time does not get past it.
  have hminute : hourMinute ('T' :: text) = none := rfl
  have hfull : fullClock ('T' :: text) = none := rfl
  have hnone : readTime noClock noOffset d.toDate ('T' :: text) = none := rfl
  rw [readTrimmed_eq, strict_text d (show strictMark ('T' :: text) = some text from rfl)]
  simp only [Shape.read_text d hmark, Shape.read_text_unmarked, readTime_of_none hfull,
    readTime_of_none hminute, hnone, Option.orElse_eq_orElse, Option.orElse_eq_or, Option.none_or,
    Option.or_none]

/-- Behind a blank the shapes with a mark fail. -/
theorem readTrimmed_blank (d : ShortDate) (text : List Char) :
    readTrimmed (d.text ++ ' ' :: text) =
      (readTime strictClock strictOffset d.toDate text <|>
        readTime fullClock noOffset d.toDate (' ' :: text) <|>
        readTime hourMinute noOffset d.toDate (' ' :: text)) := by
  have hmark : char 'T' (' ' :: text) = none := rfl
  have hnone : readTime noClock noOffset d.toDate (' ' :: text) = none := rfl
  rw [readTrimmed_eq, strict_text d (show strictMark (' ' :: text) = some text from rfl)]
  simp only [Shape.read_text_of_none d hmark, Shape.read_text_unmarked, hnone,
    Option.orElse_eq_orElse, Option.orElse_eq_or, Option.none_or, Option.or_none]

/-- A date alone is of the last shape only. -/
theorem readTrimmed_date (d : ShortDate) : readTrimmed d.text = instant? d.toDate .midnight 0 := by
  have hstrict : strict (d.text ++ []) = none := by
    rw [strict, strictDate_text d.valid d.year_bounds]
    rfl
  have hmark : char 'T' [] = none := rfl
  have hfull : readTime fullClock noOffset d.toDate [] = none := rfl
  have hminute : readTime hourMinute noOffset d.toDate [] = none := rfl
  have hdate : readTime noClock noOffset d.toDate [] = instant? d.toDate .midnight 0 := rfl
  rw [← List.append_nil d.text, readTrimmed_eq, hstrict]
  simp only [Shape.read_text_of_none d hmark, Shape.read_text_unmarked, hfull, hminute, hdate,
    Option.orElse_eq_orElse, Option.orElse_eq_or, Option.none_or]

/-! ## Times -/

/-- What may follow a time: nothing that would be read as more of it. -/
def EndsTime (text : List Char) : Prop :=
  ∀ c ∈ text.head?, c.isDigit = false ∧ c ≠ ':' ∧ c ≠ '.'

theorem number_fin {k : Nat} (n : Fin k) (hk : k ≤ 100) (rest : List Char) :
    number 2 (padded 2 n ++ rest) = some (n.val, rest) :=
  number_padded (by decide) (show n.val < 100 by omega) rest

theorem exactly_fin {k : Nat} (n : Fin k) (hk : k ≤ 100) (rest : List Char) :
    exactly 2 (padded 2 n ++ rest) = some (n.val, rest) :=
  exactly_padded (by decide) (show n.val < 100 by omega) rest

theorem char_colon_of_endsTime {text : List Char} (h : EndsTime text) : char ':' text = none := by
  cases text with
  | nil => rfl
  | cons c text => exact if_neg (h c rfl).2.1

/-- Of the digits of a fraction the first nine count, which cuts its nanoseconds off. -/
theorem nanosOf_digits (f : Fraction) : nanosOf f.digits = f.nanos := by
  have hbillion : nanosInSecond = tenPower 9 := rfl
  rw [nanosOf, Fraction.nanos, hbillion]
  -- Up to nine digits are filled up with zeros; of more than nine the rest is divided away.
  by_cases hshort : f.digits.length ≤ 9
  · have hpower : tenPower 9 = tenPower (9 - f.digits.length) * tenPower f.digits.length := by
      rw [← tenPower_add, Nat.sub_add_cancel hshort]
    rw [List.take_of_length_le hshort, hpower, ← Nat.mul_assoc,
      Nat.mul_div_cancel _ (tenPower_pos _)]
  · have hpower : tenPower f.digits.length = tenPower (f.digits.length - 9) * tenPower 9 := by
      rw [← tenPower_add, Nat.sub_add_cancel (by omega)]
    have hlong : value f.digits =
        value (f.digits.take 9) * tenPower (f.digits.length - 9) + value (f.digits.drop 9) := by
      rw [← List.length_drop, ← value_append, List.take_append_drop]
    have hrest : value (f.digits.drop 9) < tenPower (f.digits.length - 9) := by
      rw [← List.length_drop]
      exact value_lt_tenPower fun c hc => f.isDigit c (List.mem_of_mem_drop hc)
    have hnone : 9 - f.digits.length = 0 := by omega
    rw [hpower, Nat.mul_div_mul_right _ _ (tenPower_pos 9), hlong, hnone, Nat.add_comm,
      Nat.add_mul_div_right _ _ (tenPower_pos _), Nat.div_eq_of_lt hrest, Nat.zero_add]
    exact Nat.mul_one _

theorem decimals_fractionText (fraction : Option Fraction) {rest : List Char}
    (hrest : EndsTime rest) :
    decimals (fractionText fraction ++ rest) = some (fractionNanos fraction, rest) := by
  cases fraction with
  | none =>
    rw [fractionText, List.nil_append, decimals.eq_def]
    split
    · next fraction => exact absurd rfl (hrest '.' rfl).2.2
    · rfl
  | some f =>
    rw [fractionText, List.cons_append,
      decimals_cons f.ne_nil f.isDigit fun c hc => (hrest c hc).1, nanosOf_digits]
    rfl

/-- Hours and minutes are taken, whatever follows. -/
theorem hourMinute_text (h : Fin 24) (m : Fin 60) (rest : List Char) :
    hourMinute (padded 2 h ++ ':' :: (padded 2 m ++ rest)) = some (⟨h, m, 0, 0⟩, rest) := by
  simp only [hourMinute, Option.bind_eq_bind, number_fin h (by decide), char_cons,
    number_fin m (by decide), Option.bind_some]
  rfl

theorem bareHour_text (h : Fin 24) (rest : List Char) :
    bareHour (padded 2 h ++ rest) = some (⟨h, 0, 0, 0⟩, rest) := by
  simp only [bareHour, Option.bind_eq_bind, exactly_fin h (by decide), Option.bind_some]
  rfl

variable {rest : List Char}

/-- Without a colon no minutes are read. -/
theorem hourMinute_hour (h : Fin 24) (hrest : EndsTime rest) :
    hourMinute (padded 2 h ++ rest) = none := by
  simp only [hourMinute, Option.bind_eq_bind, number_fin h (by decide),
    char_colon_of_endsTime hrest, Option.bind_some, Option.bind_none]

theorem fullClock_hour (h : Fin 24) (hrest : EndsTime rest) :
    fullClock (padded 2 h ++ rest) = none := by
  rw [fullClock, hourMinute_hour h hrest]
  rfl

theorem strictClock_hour (h : Fin 24) (hrest : EndsTime rest) :
    strictClock (padded 2 h ++ rest) = none := by
  simp only [strictClock, Option.bind_eq_bind, exactly_fin h (by decide),
    char_colon_of_endsTime hrest, Option.bind_some, Option.bind_none]

/-- Without a second colon no seconds are read. -/
theorem fullClock_minute (h : Fin 24) (m : Fin 60) (hrest : EndsTime rest) :
    fullClock (padded 2 h ++ ':' :: (padded 2 m ++ rest)) = none := by
  simp only [fullClock, Option.bind_eq_bind, hourMinute_text,
    char_colon_of_endsTime hrest, Option.bind_some, Option.bind_none]

theorem strictClock_minute (h : Fin 24) (m : Fin 60) (hrest : EndsTime rest) :
    strictClock (padded 2 h ++ ':' :: (padded 2 m ++ rest)) = none := by
  simp only [strictClock, Option.bind_eq_bind, exactly_fin h (by decide), char_cons,
    exactly_fin m (by decide), char_colon_of_endsTime hrest, Option.bind_some, Option.bind_none]

theorem fullClock_second (h : Fin 24) (m : Fin 60) (s : Fin 61) (fraction : Option Fraction)
    (hrest : EndsTime rest) :
    fullClock ((TimeOfDay.second h m s fraction).text ++ rest) =
      some ((TimeOfDay.second h m s fraction).clock, rest) := by
  simp only [TimeOfDay.text, List.append_assoc, List.cons_append, fullClock, Option.bind_eq_bind,
    hourMinute_text, char_cons, number_fin s (by decide), decimals_fractionText fraction hrest,
    Option.bind_some]
  rfl

theorem strictClock_second (h : Fin 24) (m : Fin 60) (s : Fin 61) (fraction : Option Fraction)
    (hrest : EndsTime rest) :
    strictClock ((TimeOfDay.second h m s fraction).text ++ rest) =
      some ((TimeOfDay.second h m s fraction).clock, rest) := by
  simp only [TimeOfDay.text, List.append_assoc, List.cons_append, strictClock,
    Option.bind_eq_bind, exactly_fin h (by decide), exactly_fin m (by decide),
    exactly_fin s (by decide), char_cons, decimals_fractionText fraction hrest, Option.bind_some]
  rfl

/-! ## Zones -/

/-- A time without a zone is read where none is asked for. -/
theorem readZone_noOffset (d : Date) (c : Clock) (text : List Char) :
    readZone noOffset d c text = if text = [] then instant? d c 0 else none := rfl

theorem sign_text (ahead : Bool) (rest : List Char) :
    sign (signChar ahead :: rest) = some (if ahead then 1 else -1, rest) := by
  cases ahead with
  | true => rfl
  | false => rfl

theorem offset?_eq (o : Grammar.Offset) :
    offset? (if o.ahead then 1 else -1) o.hours o.minutes = some o.seconds :=
  if_pos ⟨by omega, by omega⟩

/-- Colons and blanks in front of the minutes are skipped. -/
theorem dropWhile_colon_padded (colon : Bool) (n : Nat) :
    ((if colon then [':'] else []) ++ padded 2 n).dropWhile (fun c => c == ':' || isBlank c) =
      padded 2 n := by
  obtain ⟨c, ds, heq, hc⟩ := exists_padded_eq_cons 2 n
  have hcolon : (c == ':') = false := by
    rw [beq_eq_false_iff_ne]
    rintro rfl
    cases hc
  have hkept : (padded 2 n).dropWhile (fun c => c == ':' || isBlank c) = padded 2 n := by
    rw [heq, List.dropWhile_cons_of_neg]
    simp [hcolon, not_isBlank_of_isDigit hc]
  cases colon with
  | true => exact hkept
  | false => exact hkept

/-- The lenient form reads an offset with and without a colon. -/
theorem offset_text (o : Grammar.Offset) (colon : Bool) :
    offset (o.text colon) = some (o.seconds, []) := by
  have hsign : trimStart (o.text colon) = o.text colon := by
    exact dropWhile_eq_self (isBlank_of_head?_cons (not_isBlank_signChar o.ahead))
  have hminutes := exactly_fin o.minutes (by decide) []
  rw [List.append_nil] at hminutes
  rw [offset, hsign, Grammar.Offset.text]
  simp only [Option.bind_eq_bind, sign_text, exactly_fin o.hours (by decide),
    dropWhile_colon_padded, hminutes, offset?_eq, Option.bind_some]
  rfl

/-- The strict form demands the colon. -/
theorem strictOffset_text (o : Grammar.Offset) (colon : Bool) :
    strictOffset (o.text colon) = if colon then some (o.seconds, []) else none := by
  have hzulu : ¬ (signChar o.ahead = 'Z' ∨ signChar o.ahead = 'z') := by
    cases o.ahead with
    | true => decide
    | false => decide
  have hminutes := exactly_fin o.minutes (by decide) []
  rw [List.append_nil] at hminutes
  rw [Grammar.Offset.text, strictOffset, if_neg hzulu]
  simp only [Option.bind_eq_bind, sign_text, exactly_fin o.hours (by decide), Option.bind_some]
  cases colon with
  | true =>
    simp only [if_true, List.singleton_append, char_cons, hminutes, offset?_eq, Option.bind_some]
    rfl
  | false =>
    obtain ⟨c, ds, heq, hc⟩ := exists_padded_eq_cons 2 o.minutes
    have hcolon : char ':' (padded 2 o.minutes) = none := by
      rw [heq]
      apply if_neg
      rintro rfl
      cases hc
    simp only [Bool.false_eq_true, if_false, List.nil_append, hcolon, Option.bind_none]

/-- The zones that the lenient form reads. -/
theorem readZone_offset (d : Date) (c : Clock) (z : Option Zone) :
    readZone offset d c (zoneText z) =
      match z with
      | some (.offset o _) => instant? d c o.seconds
      | _ => none := by
  match z with
  | none => rfl
  | some .utc => rfl
  | some (.offset o colon) =>
    simp only [zoneText, Zone.text, readZone, offset_text]
    rfl

/-- The zones that the strict form reads. -/
theorem readZone_strictOffset (d : Date) (c : Clock) (z : Option Zone) :
    readZone strictOffset d c (zoneText z) =
      match z with
      | some .utc => instant? d c 0
      | some (.offset o true) => instant? d c o.seconds
      | _ => none := by
  match z with
  | none => rfl
  | some .utc => rfl
  | some (.offset o true) =>
    simp only [zoneText, Zone.text, readZone, strictOffset_text]
    rfl
  | some (.offset o false) =>
    simp only [zoneText, Zone.text, readZone, strictOffset_text]
    rfl

theorem endsTime_zoneText (z : Option Zone) : EndsTime (zoneText z) := by
  match z with
  | none => rintro c ⟨⟩
  | some .utc =>
    rintro c ⟨⟩
    decide
  | some (.offset o _) =>
    rintro c ⟨⟩
    cases o.ahead with
    | true => decide
    | false => decide

theorem zoneText_eq_nil_iff (z : Option Zone) : zoneText z = [] ↔ z = none := by
  match z with
  | none => simp [zoneText]
  | some .utc => simp [zoneText, Zone.text]
  | some (.offset o colon) => simp [zoneText, Zone.text, Grammar.Offset.text]

/-! ## Stamps are read by their meaning -/

variable (d : ShortDate) (z : Option Zone)

/-- A bare hour is read without a zone. -/
theorem readTrimmed_hour (h : Fin 24) :
    readTrimmed (d.text ++ 'T' :: ((TimeOfDay.hour h).text ++ zoneText z)) =
      if (TimeOfDay.hour h).admits z then
        instant? d.toDate (TimeOfDay.hour h).clock (zoneSeconds z) else none := by
  have hend := endsTime_zoneText z
  rw [readTrimmed_mark, TimeOfDay.text, readTime_of_none (strictClock_hour h hend),
    readTime_of_none (fullClock_hour h hend), readTime_of_none (hourMinute_hour h hend),
    readTime_of_none (fullClock_hour h hend), readTime_of_none (hourMinute_hour h hend),
    readTime_of_some (bareHour_text h _), readZone_noOffset]
  simp only [zoneText_eq_nil_iff]
  cases z with
  | none => rfl
  | some z => simp [TimeOfDay.admits]

/-- Hours and minutes are read without a zone and with an offset. -/
theorem readTrimmed_minute (h : Fin 24) (m : Fin 60) :
    readTrimmed (d.text ++ 'T' :: ((TimeOfDay.minute h m).text ++ zoneText z)) =
      if (TimeOfDay.minute h m).admits z then
        instant? d.toDate (TimeOfDay.minute h m).clock (zoneSeconds z) else none := by
  have hend := endsTime_zoneText z
  have hbare : readTime bareHour noOffset d.toDate
      (padded 2 h ++ ':' :: (padded 2 m ++ zoneText z)) = none := by
    rw [readTime_of_some (bareHour_text h _)]
    rfl
  rw [readTrimmed_mark, TimeOfDay.text, List.append_assoc, List.cons_append,
    readTime_of_none (strictClock_minute h m hend), readTime_of_none (fullClock_minute h m hend),
    readTime_of_none (fullClock_minute h m hend), readTime_of_some (hourMinute_text h m _),
    readTime_of_some (hourMinute_text h m _), hbare, readZone_offset, readZone_noOffset]
  simp only [zoneText_eq_nil_iff]
  cases z with
  | none => simp [TimeOfDay.admits, TimeOfDay.clock, zoneSeconds]
  | some z =>
    cases z with
    | utc => simp [TimeOfDay.admits]
    | offset o colon => simp [TimeOfDay.admits, TimeOfDay.clock, zoneSeconds, Zone.seconds]

/-- Hours, minutes and seconds are read with every zone. -/
theorem readTrimmed_second (h : Fin 24) (m : Fin 60) (s : Fin 61) (fraction : Option Fraction) :
    readTrimmed (d.text ++ 'T' :: ((TimeOfDay.second h m s fraction).text ++ zoneText z)) =
      instant? d.toDate (TimeOfDay.second h m s fraction).clock (zoneSeconds z) := by
  have hend := endsTime_zoneText z
  have hminute : ∀ offset,
      readTime hourMinute offset d.toDate ((TimeOfDay.second h m s fraction).text ++ zoneText z) =
        readZone offset d.toDate ⟨h, m, 0, 0⟩
          (':' :: (padded 2 s ++ (fractionText fraction ++ zoneText z))) := by
    intro offset
    rw [TimeOfDay.text]
    simp only [List.append_assoc, List.cons_append]
    exact readTime_of_some (hourMinute_text h m _) offset d.toDate
  have hbare : readTime bareHour noOffset d.toDate
      ((TimeOfDay.second h m s fraction).text ++ zoneText z) = none := by
    rw [TimeOfDay.text, List.append_assoc, readTime_of_some (bareHour_text h _)]
    rfl
  rw [readTrimmed_mark, readTime_of_some (strictClock_second h m s fraction hend),
    readTime_of_some (fullClock_second h m s fraction hend),
    readTime_of_some (fullClock_second h m s fraction hend), hminute, hminute, hbare,
    readZone_strictOffset, readZone_offset, readZone_noOffset, readZone_noOffset]
  -- What hours and minutes leave begins with a colon, and no offset does.
  have hcolon : readZone offset d.toDate ⟨h, m, 0, 0⟩
      (':' :: (padded 2 s ++ (fractionText fraction ++ zoneText z))) = none := rfl
  simp only [zoneText_eq_nil_iff, hcolon]
  cases z with
  | none => simp [zoneSeconds]
  | some z =>
    cases z with
    | utc => simp [zoneSeconds, Zone.seconds]
    | offset o colon => cases colon <;> simp [zoneSeconds, Zone.seconds]

/-- A stamp is read by its meaning or not at all. -/
theorem readTrimmed_text (w : Stamp) :
    readTrimmed w.text = if w.isRead then w.instant? else none := by
  obtain ⟨d, time⟩ := w
  cases time with
  | none =>
    have hread : (Stamp.mk d none).isRead = true := rfl
    rw [Stamp.text, List.append_nil, hread, if_pos rfl]
    exact readTrimmed_date d
  | some tz =>
    obtain ⟨t, z⟩ := tz
    cases t with
    | hour h => exact readTrimmed_hour d z h
    | minute h m => exact readTrimmed_minute d z h m
    | second h m s fraction =>
      have hadmits : (TimeOfDay.second h m s fraction).admits z = true := by
        cases z with
        | none => rfl
        | some z => rfl
      exact (readTrimmed_second d z h m s fraction).trans (if_pos hadmits).symm

end Written

namespace Instant

/-- A stamp is read by its meaning or not at all. -/
theorem parse?_text (w : Stamp) : parse? w.text = if w.isRead then w.instant? else none := by
  have htrim : trim w.text = w.text :=
    trim_eq_self (fun c hc => w.not_isBlank_of_mem c (List.mem_of_mem_head? hc))
      (fun c hc => w.not_isBlank_of_mem c (List.mem_of_mem_getLast? hc))
  rw [parse?, htrim, readTrimmed_text]

end Instant

/-- Which stamps are read. Blanks around a stamp change nothing. -/
theorem stamp_read_iff (w : Stamp) {front tail : List Char}
    (hfront : ∀ c ∈ front, isBlank c = true) (htail : ∀ c ∈ tail, isBlank c = true) :
    Instant.parse? (front ++ (w.text ++ tail)) = Instant.parse? w.text ∧
      ((Instant.parse? w.text).isSome = true ↔ w.isRead = true) := by
  constructor
  · rw [Instant.parse?, Instant.parse?, trim, trim, strip_wrapped w.text hfront htail]
  · rw [Instant.parse?_text]
    cases w.isRead with
    | true => simpa using w.instant?_isSome
    | false => simp

/-- The first of March 2024. -/
def marchFirst : ShortDate := ⟨⟨2024, 3, 1⟩, by decide, by decide⟩

theorem stamp_read_between_blanks :
    (∀ c ∈ [' '], isBlank c = true) ∧ (∀ c ∈ ['\n'], isBlank c = true) ∧
      Instant.parse? ([' '] ++ ((Stamp.mk marchFirst none).text ++ ['\n'])) =
        Instant.parse? (Stamp.mk marchFirst none).text ∧
      ((Instant.parse? (Stamp.mk marchFirst none).text).isSome = true ↔
        (Stamp.mk marchFirst none).isRead = true) :=
  have hfront : ∀ c ∈ [' '], isBlank c = true := List.forall_mem_singleton.mpr rfl
  have htail : ∀ c ∈ ['\n'], isBlank c = true := List.forall_mem_singleton.mpr rfl
  ⟨hfront, htail, stamp_read_iff (Stamp.mk marchFirst none) hfront htail⟩

/-- Behind hours and minutes `Z` is not read. -/
theorem zulu_after_minutes_not_read :
    (Stamp.mk marchFirst (some (.minute 9 30, some .utc))).text = "2024-03-01T09:30Z".toList ∧
      Instant.parse? "2024-03-01T09:30Z".toList = none := by
  decide +kernel

end CompanyRegister.Calendar
