import CompanyRegister.Proofs.Calendar.Strict

/-!
# Reading written instants

Instants are stored with three decimals. Which of them can be read again is decided by the year
alone: the stored text of the years 0 to 9999 is of the strict form and gives the instant that it
shows (`Instant.stored`), and the stored text of any other year is of no form at all.

The second half needs all lenient shapes to fail. A text of a lenient shape has only digits, blanks
and a few marks (`IsLenient`), for that is all that the readers take off its front; the letter `Z`
at the end of a stored text is none of them.

In documents instants have as many decimals as it takes to lose nothing, and those of the years 0 to
9999 are read again as they are shown (`parse?_exactText_of_year`).
-/

namespace CompanyRegister.Calendar

open Text

namespace Written

/-! ## What lenient readers take -/

/-- The characters of which texts of the lenient shapes are made. -/
def IsLenient (c : Char) : Prop :=
  c.isDigit = true ∨ isBlank c = true ∨ c ∈ ['-', '+', '\u2212', ':', 'T', '.']

/-- A reader that leaves `rest` of a text has taken lenient characters off its front. -/
def Takes (text rest : List Char) : Prop := ∃ front, text = front ++ rest ∧ ∀ c ∈ front, IsLenient c

namespace Takes

theorem refl (text : List Char) : Takes text text := ⟨[], rfl, by simp⟩

theorem trans {a b c : List Char} (h : Takes a b) (h' : Takes b c) : Takes a c := by
  obtain ⟨front, rfl, hfront⟩ := h
  obtain ⟨back, rfl, hback⟩ := h'
  refine ⟨front ++ back, (List.append_assoc ..).symm, ?_⟩
  intro x hx
  rcases List.mem_append.mp hx with hx | hx
  · exact hfront x hx
  · exact hback x hx

instance : Trans Takes Takes Takes := ⟨trans⟩

theorem cons {c : Char} {rest : List Char} (h : IsLenient c) : Takes (c :: rest) rest :=
  ⟨[c], rfl, by simpa using h⟩

theorem dropWhile {p : Char → Bool} (h : ∀ c, p c = true → IsLenient c) (text : List Char) :
    Takes text (text.dropWhile p) :=
  ⟨text.takeWhile p, (List.takeWhile_append_dropWhile ..).symm, fun c hc => h c (by
    simpa using List.all_eq_true.mp List.all_takeWhile c hc)⟩

theorem trimStart (text : List Char) : Takes text (trimStart text) :=
  dropWhile (fun _ h => Or.inr (Or.inl h)) text

/-- Digits at the front of a text may be taken. -/
theorem of_prefix {ds text : List Char} (h : ds <+: text) (hds : ∀ c ∈ ds, c.isDigit = true) :
    Takes text (text.drop ds.length) := by
  obtain ⟨rest, rfl⟩ := h
  rw [List.drop_left]
  exact ⟨ds, rfl, fun c hc => Or.inl (hds c hc)⟩

end Takes

theorem takes_char {c : Char} (hc : IsLenient c) {text rest : List Char}
    (h : char c text = some rest) : Takes text rest := by
  cases text with
  | nil => simp [char] at h
  | cons d text =>
    simp only [char] at h
    split at h
    · next hd =>
      cases h
      exact hd ▸ Takes.cons hc
    · cases h

theorem takes_number {width n : Nat} {text rest : List Char}
    (h : number width text = some (n, rest)) : Takes text rest := by
  simp only [number] at h
  split at h
  · cases h
  · cases h
    apply (Takes.trimStart text).trans
    apply Takes.of_prefix ((List.takeWhile_prefix _).trans (List.take_prefix ..))
    exact fun c hc => List.all_eq_true.mp List.all_takeWhile c hc

theorem takes_exactly {width n : Nat} {text rest : List Char}
    (h : exactly width text = some (n, rest)) : Takes text rest := by
  simp only [exactly] at h
  split at h
  · next hds =>
    cases h
    have hdigits := Takes.of_prefix (List.take_prefix width text) (List.all_eq_true.mp hds.2)
    rwa [hds.1] at hdigits
  · cases h

theorem takes_takeDigits (text : List Char) : Takes text (takeDigits text).2 :=
  Takes.dropWhile (fun _ h => Or.inl h) text

theorem takes_anyNumber {n : Nat} {text rest : List Char}
    (h : anyNumber text = some (n, rest)) : Takes text rest := by
  simp only [anyNumber] at h
  split at h
  · cases h
  · cases h
    exact takes_takeDigits text

theorem takes_year {y : Int} {text rest : List Char} (h : year text = some (y, rest)) :
    Takes text rest := by
  apply (Takes.trimStart text).trans
  rw [year] at h
  split at h
  · next signed heq =>
    obtain ⟨⟨n, r⟩, hn, hr⟩ := Option.map_eq_some_iff.mp h
    cases hr
    rw [heq]
    exact (Takes.cons (by simp [IsLenient])).trans (takes_anyNumber hn)
  · next signed heq =>
    obtain ⟨⟨n, r⟩, hn, hr⟩ := Option.map_eq_some_iff.mp h
    cases hr
    rw [heq]
    exact (Takes.cons (by simp [IsLenient])).trans (takes_anyNumber hn)
  · obtain ⟨⟨n, r⟩, hn, hr⟩ := Option.map_eq_some_iff.mp h
    cases hr
    exact takes_number hn

theorem takes_sign {s : Int} {text rest : List Char} (h : sign text = some (s, rest)) :
    Takes text rest := by
  cases text with
  | nil => simp [sign] at h
  | cons c text =>
    simp only [sign] at h
    split at h
    · next hc => cases h; exact Takes.cons (by simp [IsLenient, hc])
    · split at h
      · next hc =>
        cases h
        rcases hc with rfl | rfl
        · exact Takes.cons (by simp [IsLenient])
        · exact Takes.cons (by simp [IsLenient])
      · cases h

theorem takes_decimals {n : Nat} {text rest : List Char} (h : decimals text = some (n, rest)) :
    Takes text rest := by
  rw [decimals.eq_def] at h
  split at h
  · next fraction =>
    dsimp only at h
    split at h
    · cases h
    · cases h
      exact (Takes.cons (by simp [IsLenient])).trans (takes_takeDigits fraction)
  · cases h
    exact Takes.refl text

/-! ## Texts of the lenient shapes -/

theorem isLenient_dash : IsLenient '-' := by simp [IsLenient]

theorem isLenient_colon : IsLenient ':' := by simp [IsLenient]

theorem isLenient_mark : IsLenient 'T' := by simp [IsLenient]

/-- The letter that stands for UTC is of no lenient shape. -/
theorem not_isLenient_zulu : ¬ IsLenient 'Z' := by
  unfold IsLenient
  decide

theorem takes_date {d : Date} {text rest : List Char} (h : date text = some (d, rest)) :
    Takes text rest := by
  simp only [date, Option.bind_eq_bind, Option.bind_eq_some_iff, Prod.exists] at h
  obtain ⟨y, r₁, hyear, r₂, hdash, m, r₃, hmonth, r₄, hdash', day, r₅, hday, heq⟩ := h
  cases heq
  calc Takes text r₁ := takes_year hyear
    Takes _ r₂ := takes_char isLenient_dash hdash
    Takes _ r₃ := takes_number hmonth
    Takes _ r₄ := takes_char isLenient_dash hdash'
    Takes _ rest := takes_number hday

theorem takes_hourMinute {c : Clock} {text rest : List Char}
    (h : hourMinute text = some (c, rest)) : Takes text rest := by
  simp only [hourMinute, Option.bind_eq_bind, Option.bind_eq_some_iff, Prod.exists] at h
  obtain ⟨hour, r₁, hhour, r₂, hcolon, m, r₃, hminute, heq⟩ := h
  cases heq
  calc Takes text r₁ := takes_number hhour
    Takes _ r₂ := takes_char isLenient_colon hcolon
    Takes _ rest := takes_number hminute

theorem takes_fullClock {c : Clock} {text rest : List Char}
    (h : fullClock text = some (c, rest)) : Takes text rest := by
  simp only [fullClock, Option.bind_eq_bind, Option.bind_eq_some_iff, Prod.exists] at h
  obtain ⟨hm, r₁, hhm, r₂, hcolon, s, r₃, hsecond, n, r₄, hdecimals, heq⟩ := h
  cases heq
  calc Takes text r₁ := takes_hourMinute hhm
    Takes _ r₂ := takes_char isLenient_colon hcolon
    Takes _ r₃ := takes_number hsecond
    Takes _ rest := takes_decimals hdecimals

theorem takes_bareHour {c : Clock} {text rest : List Char}
    (h : bareHour text = some (c, rest)) : Takes text rest := by
  simp only [bareHour, Option.bind_eq_bind, Option.bind_eq_some_iff, Prod.exists] at h
  obtain ⟨hour, r₁, hhour, heq⟩ := h
  cases heq
  exact takes_exactly hhour

theorem takes_offset {o : Int} {text rest : List Char} (h : offset text = some (o, rest)) :
    Takes text rest := by
  simp only [offset, Option.bind_eq_bind, Option.bind_eq_some_iff, Prod.exists] at h
  obtain ⟨s, r₁, hsign, hour, r₂, hhour, m, r₃, hminute, o', ho, heq⟩ := h
  cases heq
  have hgap : ∀ c, (c == ':' || isBlank c) = true → IsLenient c := by
    intro c hc
    rcases Bool.or_eq_true_iff.mp hc with hc | hc
    · exact eq_of_beq hc ▸ isLenient_colon
    · exact Or.inr (Or.inl hc)
  calc Takes text (Text.trimStart text) := Takes.trimStart text
    Takes _ r₁ := takes_sign hsign
    Takes _ r₂ := takes_exactly hhour
    Takes _ (r₂.dropWhile fun c => c == ':' || isBlank c) := Takes.dropWhile hgap r₂
    Takes _ rest := takes_exactly hminute

/-- What a shape reads between date and time, as time and as offset is lenient. -/
structure Shape.IsLenient (shape : Shape) : Prop where
  mark : ∀ {text rest}, shape.mark text = some rest → Takes text rest
  clock : ∀ {text c rest}, shape.clock text = some (c, rest) → Takes text rest
  offset : ∀ {text o rest}, shape.offset text = some (o, rest) → Takes text rest

/-- All shapes that are tried are lenient. -/
theorem isLenient_of_mem_shapes {shape : Shape} (h : shape ∈ shapes) : shape.IsLenient := by
  have hmark : ∀ {text rest}, char 'T' text = some rest → Takes text rest :=
    fun h => takes_char isLenient_mark h
  have hnone : ∀ {text rest : List Char}, some text = some rest → Takes text rest := by
    intro text rest h
    cases h
    exact Takes.refl text
  have hutc : ∀ {text : List Char} {o rest}, noOffset text = some (o, rest) → Takes text rest := by
    intro text o rest h
    cases h
    exact Takes.refl text
  have hmidnight : ∀ {text : List Char} {c rest}, noClock text = some (c, rest) →
      Takes text rest := by
    intro text c rest h
    cases h
    exact Takes.refl text
  simp only [shapes, List.mem_cons, List.not_mem_nil, or_false] at h
  rcases h with rfl | rfl | rfl | rfl | rfl | rfl | rfl | rfl
  · exact ⟨hmark, takes_fullClock, takes_offset⟩
  · exact ⟨hmark, takes_hourMinute, takes_offset⟩
  · exact ⟨hmark, takes_fullClock, hutc⟩
  · exact ⟨hnone, takes_fullClock, hutc⟩
  · exact ⟨hmark, takes_hourMinute, hutc⟩
  · exact ⟨hnone, takes_hourMinute, hutc⟩
  · exact ⟨hmark, takes_bareHour, hutc⟩
  · exact ⟨hnone, hmidnight, hutc⟩

/-- A text that a lenient shape reads has lenient characters only. -/
theorem isLenient_of_read {shape : Shape} (hshape : shape.IsLenient) {text : List Char}
    {t : Instant} (h : shape.read text = some t) : ∀ c ∈ text, IsLenient c := by
  simp only [Shape.read, Option.bind_eq_bind, Option.bind_eq_some_iff, Prod.exists] at h
  obtain ⟨d, r₁, hdate, r₂, hmark, c, r₃, hclock, o, r₄, hoffset, hend⟩ := h
  -- A shape reads to the end of a text, so all of the text was taken.
  split at hend
  · next hnil =>
    have htaken : Takes text r₄ := calc
      Takes text r₁ := takes_date hdate
      Takes _ r₂ := hshape.mark hmark
      Takes _ r₃ := hshape.clock hclock
      Takes _ r₄ := hshape.offset hoffset
    obtain ⟨front, rfl, hfront⟩ := htaken
    simpa [hnil] using hfront
  · cases hend

/-- No lenient shape reads a text with the letter for UTC in it. -/
theorem read_eq_none_of_zulu {text : List Char} (h : 'Z' ∈ text) :
    (shapes.findSome? fun shape => shape.read text) = none := by
  rw [List.findSome?_eq_none_iff]
  intro shape hshape
  cases hread : shape.read text with
  | none => rfl
  | some t =>
    have hall := isLenient_of_read (isLenient_of_mem_shapes hshape) hread
    exact absurd (hall 'Z' h) not_isLenient_zulu

/-! ## What is read is shown as it is -/

theorem isSettled_of_instant? {d : Date} {c : Clock} {offset : Int} {t : Instant}
    (h : instant? d c offset = some t) : t.IsSettled := by
  unfold instant? at h
  split at h
  · exact Instant.isSettled_of_ofCounts? h
  · cases h

theorem isSettled_of_strict {text : List Char} {t : Instant} (h : strict text = some t) :
    t.IsSettled := by
  simp only [strict, Option.bind_eq_bind, Option.bind_eq_some_iff, Prod.exists] at h
  obtain ⟨d, r₁, -, r₂, -, c, r₃, -, o, r₄, -, hend⟩ := h
  split at hend
  · exact isSettled_of_instant? hend
  · cases hend

theorem isSettled_of_read {shape : Shape} {text : List Char} {t : Instant}
    (h : shape.read text = some t) : t.IsSettled := by
  simp only [Shape.read, Option.bind_eq_bind, Option.bind_eq_some_iff, Prod.exists] at h
  obtain ⟨d, r₁, -, r₂, -, c, r₃, -, o, r₄, -, hend⟩ := h
  split at hend
  · exact isSettled_of_instant? hend
  · cases hend

end Written

/-! ## Stored texts -/

open Written

namespace Instant

theorem isSettled_of_parse? {text : List Char} {t : Instant} (h : parse? text = some t) :
    t.IsSettled := by
  rcases (Option.orElse_eq_some _ _ _).mp h with hstrict | ⟨-, hlenient⟩
  · exact isSettled_of_strict hstrict
  · obtain ⟨shape, -, hread⟩ := List.exists_of_findSome?_eq_some hlenient
    exact isSettled_of_read hread

theorem zulu_mem_textWith (t : Instant) (ds : List Char) : 'Z' ∈ t.textWith ds := by
  simp [textWith]

/-- The text of a year begins with a digit or, where four digits do not do, with a sign. -/
theorem head?_yearText (year : Int) : ∃ c rest, yearText year = c :: rest ∧
    (0 ≤ year ∧ year ≤ 9999 → c.isDigit = true) ∧
    (¬ (0 ≤ year ∧ year ≤ 9999) → c = '-' ∨ c = '+') := by
  rw [yearText]
  split
  · next h =>
    obtain ⟨c, rest, heq, hc⟩ := exists_padded_eq_cons 4 year.toNat
    exact ⟨c, rest, heq, fun _ => hc, fun hn => absurd h hn⟩
  · next h =>
    refine ⟨_, _, rfl, fun hy => absurd hy h, fun _ => ?_⟩
    split
    · exact Or.inl rfl
    · exact Or.inr rfl

/-- A written instant has no blanks around it. -/
theorem trim_textWith (t : Instant) (ds : List Char) : trim (t.textWith ds) = t.textWith ds := by
  obtain ⟨c, rest, heq, hdigit, hsign⟩ := head?_yearText t.date.year
  apply trim_eq_self
  · intro d hd
    simp only [textWith, Date.text, heq, List.cons_append, List.head?_cons, Option.mem_def,
      Option.some.injEq] at hd
    subst hd
    by_cases hyear : 0 ≤ t.date.year ∧ t.date.year ≤ 9999
    · exact not_isBlank_of_isDigit (hdigit hyear)
    · rcases hsign hyear with rfl | rfl
      · decide
      · decide
  · intro d hd
    simp only [textWith] at hd
    simp [List.getLast?_append, List.getLast?_cons] at hd
    subst hd
    decide

/-- The strict form has no room for a year with a sign. -/
theorem strict_textWith_of_signed {t : Instant} (h : ¬ t.HasFourDigitYear)
    (ds : List Char) : strict (t.textWith ds) = none := by
  obtain ⟨c, rest, heq, -, hsign⟩ := head?_yearText t.date.year
  have hc : c.isDigit = false := by
    rcases hsign h with rfl | rfl
    · decide
    · decide
  have hyear : ∀ text, exactly 4 (c :: text) = none := by
    intro text
    simp [exactly, hc]
  rw [strict, strictDate, textWith, Date.text, heq]
  simp only [List.cons_append, hyear, Option.bind_eq_bind, Option.bind_none]

/-- Reading a written instant of the years 0 to 9999. -/
theorem parse?_textWith {t : Instant} (ht : t.IsSettled) (hyear : t.HasFourDigitYear)
    {ds : List Char} {nanos : Nat} (hds : decimals (ds ++ ['Z']) = some (nanos, ['Z']))
    {u : Instant} (hu : ofCounts? t.secs (nanos + t.leapNanos) = some u) :
    parse? (t.textWith ds) = some u := by
  rw [parse?, trim_textWith, readTrimmed, strict_textWith ht hyear hds, hu]
  rfl

/-- Written instants of all other years are not read. -/
theorem parse?_textWith_of_signed {t : Instant} (h : ¬ t.HasFourDigitYear)
    (ds : List Char) :
    parse? (t.textWith ds) = none := by
  rw [parse?, trim_textWith, readTrimmed, strict_textWith_of_signed h,
    read_eq_none_of_zulu (zulu_mem_textWith t ds)]
  rfl

/-- Up to nine decimals stand for a count of parts of a second. -/
theorem decimals_padded {width n : Nat} (hw : 0 < width) (hnine : width ≤ 9)
    (h : n < tenPower width) :
    decimals ('.' :: padded width n ++ ['Z']) = some (n * tenPower (9 - width), ['Z']) := by
  have hlength : (padded width n).length = width := length_padded hw h
  have hne : padded width n ≠ [] := List.ne_nil_of_length_pos (by omega)
  have hnanos : nanosOf (padded width n) = n * tenPower (9 - width) := by
    rw [nanosOf, List.take_of_length_le (by omega), value_padded, hlength]
  rw [List.cons_append, decimals_cons hne (fun _ => isDigit_of_mem_padded) (by simp), hnanos]

/-- Three decimals stand for whole milliseconds. -/
theorem decimals_millis {n : Nat} (h : n < 1000) :
    decimals ('.' :: padded 3 n ++ ['Z']) = some (n * 1000000, ['Z']) :=
  decimals_padded (by omega) (by omega) (show n < tenPower 3 from h)

/-- The nanoseconds that are shown and the second 60 make up those of the instant. -/
theorem subsecond_add_leapNanos (t : Instant) : t.subsecond + t.leapNanos = t.nanos := by
  obtain ⟨-, -, hnanos⟩ := t.isInstant
  simp only [nanosInSecond] at hnanos
  by_cases hleap : t.isLeapSecond = true
  · have hlow : 1000000000 ≤ t.nanos := of_decide_eq_true hleap
    simp only [subsecond, leapNanos, if_pos hleap, nanosInSecond]
    omega
  · have hhigh : ¬ 1000000000 ≤ t.nanos := fun h => hleap (decide_eq_true h)
    simp only [subsecond, leapNanos, if_neg hleap, nanosInSecond]
    omega

/-- The milliseconds that are written and the second 60 make up the instant cut down. -/
theorem nanos_floorMillis (t : Instant) :
    t.floorMillis.nanos = t.subsecond / 1000000 * 1000000 + t.leapNanos := by
  have hsum := t.subsecond_add_leapNanos
  have hleap : t.leapNanos = 0 ∨ t.leapNanos = 1000000000 := by
    unfold leapNanos
    split
    · exact .inr rfl
    · exact .inl rfl
  show t.nanos / 1000000 * 1000000 = _
  omega

/-- Nothing that is cut off is written. -/
theorem millisText_floorMillis (t : Instant) : t.floorMillis.millisText = t.millisText := by
  have hleap : t.floorMillis.isLeapSecond = t.isLeapSecond := by
    simp only [isLeapSecond, floorMillis, nanosInSecond]
    exact decide_eq_decide.mpr (by omega)
  have hmillis : t.floorMillis.subsecond / 1000000 = t.subsecond / 1000000 := by
    simp only [subsecond, floorMillis, nanosInSecond]
    omega
  have hclock : t.floorMillis.clockText = t.clockText := by
    rw [clockText, clockText, hleap]
    rfl
  rw [millisText, millisText, textWith, textWith, hclock, hmillis]
  rfl

theorem floorMillis_of_millis {t : Instant} (h : t.nanos / 1000000 * 1000000 = t.nanos) :
    t.floorMillis = t := by
  cases t
  simp only [floorMillis] at h ⊢
  simp only [h]

theorem floorMillis_stored (t : Instant) : t.stored.floorMillis = t.stored := by
  apply floorMillis_of_millis
  obtain ⟨-, heq⟩ | ⟨-, -, -, hnanos⟩ := t.floorMillis.settled_cases
  · rw [stored, heq]
    show t.nanos / 1000000 * 1000000 / 1000000 * 1000000 = t.nanos / 1000000 * 1000000
    omega
  · rw [stored, hnanos]
    simp only [subsecond, floorMillis, nanosInSecond]
    omega

theorem isSettled_stored (t : Instant) : t.stored.IsSettled := isSettled_settled _

theorem stored_stored (t : Instant) : t.stored.stored = t.stored :=
  (congrArg settled t.floorMillis_stored).trans (settled_of_isSettled t.isSettled_stored)

theorem hasFourDigitYear_stored {t : Instant} : t.stored.HasFourDigitYear ↔ t.HasFourDigitYear :=
  hasFourDigitYear_settled

/-- What is stored is shown. -/
theorem millisText_stored (t : Instant) : t.stored.millisText = t.millisText := by
  rw [stored, millisText, subsecond_settled, textWith_settled]
  exact t.millisText_floorMillis

/-- A stored instant whose year has four digits is read again. -/
theorem parse?_millisText_of_year {t : Instant} (h : t.HasFourDigitYear) :
    parse? t.millisText = some t.stored := by
  have hmillis : t.stored.subsecond / 1000000 < 1000 := by
    have hlt := t.stored.subsecond_lt
    omega
  rw [← millisText_stored]
  apply parse?_textWith t.isSettled_stored (hasFourDigitYear_stored.mpr h) (decimals_millis hmillis)
  rw [← nanos_floorMillis, floorMillis_stored]
  exact ofCounts?_of_isSettled t.isSettled_stored

/-- Instants that are stored are read again, as the stored text shows them, if four digits do for
their year; otherwise they are not. -/
theorem parse?_millisText (t : Instant) :
    parse? t.millisText =
      if 0 ≤ t.date.year ∧ t.date.year ≤ 9999 then some t.floorMillis.settled else none := by
  split
  · next hyear => exact parse?_millisText_of_year hyear
  · next hyear => exact parse?_textWith_of_signed hyear _

/-- A third of a second after 09:30:05 on 1 March 2024, counted from 09:30:04. -/
def late : Instant := ⟨1709285404, 1333333333, by decide⟩

/-- It is stored as the second that it lies in, and the count from the second before is lost. -/
theorem parse?_millisText_late :
    late.HasFourDigitYear ∧ late.millisText = "2024-03-01T09:30:05.333Z".toList ∧
      parse? late.millisText = ofCounts? 1709285405 333000000 ∧
      parse? late.millisText ≠ some late.floorMillis := by
  have hyear : late.HasFourDigitYear := by decide
  have hread := parse?_millisText_of_year hyear
  refine ⟨hyear, by decide +kernel, ?_, ?_⟩
  · rw [hread]
    decide
  · rw [hread]
    decide

/-! ## Instants in documents -/

/-- However many decimals it takes, they are read as the nanoseconds that they stand for. -/
theorem decimals_exactDecimals {n : Nat} (h : n < 1000000000) :
    decimals (exactDecimals n ++ ['Z']) = some (n, ['Z']) := by
  rw [exactDecimals]
  split
  · next hzero =>
    subst hzero
    rfl
  · split
    · next hmillis =>
      have hback : n / 1000000 * tenPower (9 - 3) = n := by
        show n / 1000000 * 1000000 = n
        omega
      rw [decimals_padded (by omega) (by omega) (show n / 1000000 < 1000 by omega), hback]
    · split
      · next hmicros =>
        have hback : n / 1000 * tenPower (9 - 6) = n := by
          show n / 1000 * 1000 = n
          omega
        rw [decimals_padded (by omega) (by omega) (show n / 1000 < 1000000 by omega), hback]
      · rw [decimals_padded (by omega) (by omega) (show n < 1000000000 from h)]
        exact congrArg (fun k => some (k, ['Z'])) (Nat.mul_one n)

theorem exactText_settled (t : Instant) : t.settled.exactText = t.exactText := by
  rw [exactText, exactText, subsecond_settled, textWith_settled]

/-- An instant of the years 0 to 9999 is read again from a document as it is shown. -/
theorem parse?_exactText_of_year {t : Instant} (h : t.HasFourDigitYear) :
    parse? t.exactText = some t.settled := by
  have ht := t.isSettled_settled
  rw [← exactText_settled]
  apply parse?_textWith ht (hasFourDigitYear_settled.mpr h)
    (decimals_exactDecimals t.settled.subsecond_lt)
  rw [subsecond_add_leapNanos]
  exact ofCounts?_of_isSettled ht

end Instant

end CompanyRegister.Calendar
