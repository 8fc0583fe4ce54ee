import CompanyRegister.Proofs.Calendar.Elapsed
import CompanyRegister.Proofs.Calendar.Stamps

/-!
# Times with an offset

A date and time with an offset is the instant that the same date and time is in UTC, less the
offset. It does not matter how the offset is written, nor which of the readers takes the text: the
grammar has one meaning for each stamp. The instant in UTC is found by counting days
(`Date.elapsed`) and the seconds of the day; a fraction is cut off behind nine digits.
-/

namespace CompanyRegister.Calendar

open Text Written Grammar

namespace Written

/-- Blanks in front of a time are skipped. -/
theorem fullClock_blank (text : List Char) : fullClock (' ' :: text) = fullClock text := rfl

theorem hourMinute_blank (text : List Char) : hourMinute (' ' :: text) = hourMinute text := rfl

/-- A time behind a blank is read as it is behind a `T`, if no zone follows. -/
theorem readTrimmed_blank_second (d : ShortDate) (h : Fin 24) (m : Fin 60) (s : Fin 61)
    (fraction : Option Fraction) :
    readTrimmed (d.text ++ ' ' :: (TimeOfDay.second h m s fraction).text) =
      instant? d.toDate (TimeOfDay.second h m s fraction).clock 0 := by
  have hend : EndsTime [] := endsTime_zoneText none
  have hstrict := strictClock_second h m s fraction hend
  have hfull := fullClock_second h m s fraction hend
  rw [List.append_nil] at hstrict hfull
  have hminute : readTime hourMinute noOffset d.toDate
      (' ' :: (TimeOfDay.second h m s fraction).text) = none := by
    rw [readTime, hourMinute_blank, TimeOfDay.text, hourMinute_text]
    rfl
  rw [readTrimmed_blank, readTime_of_some hstrict, hminute,
    readTime_of_some ((fullClock_blank _).trans hfull)]
  simp only [readZone_noOffset]
  simp [readZone, strictOffset]

end Written

namespace Instant

variable (d : ShortDate) (h : Fin 24) (m : Fin 60) (s : Fin 61) (fraction : Option Fraction)

theorem parse?_second (z : Option Zone) :
    parse? (d.text ++ 'T' :: ((TimeOfDay.second h m s fraction).text ++ zoneText z)) =
      instant? d.toDate (TimeOfDay.second h m s fraction).clock (zoneSeconds z) := by
  have hread : (Stamp.mk d (some (.second h m s fraction, z))).isRead = true := by
    cases z with
    | none => rfl
    | some z => rfl
  exact (parse?_text ⟨d, some (.second h m s fraction, z)⟩).trans (if_pos hread)

theorem trim_blank_second :
    trim (d.text ++ ' ' :: (TimeOfDay.second h m s fraction).text) =
      d.text ++ ' ' :: (TimeOfDay.second h m s fraction).text := by
  have hdate : d.text ≠ [] := by simp [Date.text]
  have htime : (TimeOfDay.second h m s fraction).text ≠ [] := by simp [TimeOfDay.text]
  apply trim_eq_self
  · intro c hc
    rw [List.head?_append, Option.mem_def, Option.or_eq_some_iff] at hc
    rcases hc with hc | ⟨hnil, -⟩
    · exact not_isBlank_of_mem_date d c (List.mem_of_mem_head? hc)
    · exact absurd (List.head?_eq_none_iff.mp hnil) hdate
  · intro c hc
    rw [List.append_cons, List.getLast?_append, Option.mem_def, Option.or_eq_some_iff] at hc
    rcases hc with hc | ⟨hnil, -⟩
    · exact not_isBlank_of_mem_time _ c (List.mem_of_mem_getLast? hc)
    · exact absurd (List.getLast?_eq_none_iff.mp hnil) htime

theorem parse?_blank_second :
    parse? (d.text ++ ' ' :: (TimeOfDay.second h m s fraction).text) =
      instant? d.toDate (TimeOfDay.second h m s fraction).clock 0 := by
  rw [parse?, trim_blank_second, readTrimmed_blank_second]

end Instant

/-- Where a second is no second 60, the instant counts days and seconds since 1970, less the
offset. -/
theorem exists_instant?_second (d : ShortDate) (h : Fin 24) (m : Fin 60) (s : Fin 60)
    (fraction : Option Fraction) (z : Option Zone) :
    ∃ t : Instant,
      instant? d.toDate (TimeOfDay.second h m s.castSucc fraction).clock (zoneSeconds z) = some t ∧
      t.secs = ((d.elapsed : Int) - (⟨1970, 1, 1⟩ : Date).elapsed) * 86400 +
        (h * 3600 + m * 60 + s : Nat) - zoneSeconds z ∧
      t.nanos = fractionNanos fraction := by
  obtain ⟨t, ht, hsecs, hnanos⟩ := exists_instant?_eq d
    (TimeOfDay.second h m s.castSucc fraction).clock_valid
    (TimeOfDay.second h m s.castSucc fraction).clock_nanos_lt (zoneSeconds_bounds z)
  have hmin : min s.val 59 = s.val := by omega
  have hlast : s.val ≠ 60 := by omega
  rw [Date.dayNumber_eq_elapsed d.valid d.year_bounds.1] at hsecs
  simp only [TimeOfDay.clock, Fin.val_castSucc, hmin] at hsecs
  have hnoleap : ¬ (TimeOfDay.second h m s.castSucc fraction).clock.second = 60 := hlast
  rw [if_neg hnoleap] at hnanos
  exact ⟨t, ht, hsecs, hnanos⟩

/-- A date and a time to the second with `Z` is the number of seconds since 1970, its fraction cut
off. Without a zone, behind a `T` or a blank, it is the same; with an offset, written in either way,
it is that less the offset. -/
theorem parse?_with_offset (d : ShortDate) (h : Fin 24) (m : Fin 60) (s : Fin 60)
    (fraction : Option Fraction) :
    let time := (TimeOfDay.second h m s.castSucc fraction).text
    ∃ t : Instant, Instant.parse? (d.text ++ 'T' :: (time ++ ['Z'])) = some t ∧
      t.secs = ((d.elapsed : Int) - (⟨1970, 1, 1⟩ : Date).elapsed) * 86400 +
        (h * 3600 + m * 60 + s : Nat) ∧
      t.nanos = fractionNanos fraction ∧
      Instant.parse? (d.text ++ 'T' :: time) = some t ∧
      Instant.parse? (d.text ++ ' ' :: time) = some t ∧
      ∀ (o : Grammar.Offset) (colon : Bool), ∃ u : Instant,
        Instant.parse? (d.text ++ 'T' :: (time ++ o.text colon)) = some u ∧
          u.secs = t.secs - o.seconds ∧ u.nanos = t.nanos := by
  intro time
  obtain ⟨t, ht, hsecs, hnanos⟩ := exists_instant?_second d h m s fraction none
  -- `Z`, no zone behind a `T` and no zone behind a blank all come to the offset zero.
  have hutc : instant? d.toDate (TimeOfDay.second h m s.castSucc fraction).clock 0 = some t := ht
  have hzulu : Instant.parse? (d.text ++ 'T' :: (time ++ ['Z'])) = some t :=
    (Instant.parse?_second d h m s.castSucc fraction (some .utc)).trans hutc
  have hnone : Instant.parse? (d.text ++ 'T' :: time) = some t := by
    rw [← List.append_nil time]
    exact (Instant.parse?_second d h m s.castSucc fraction none).trans hutc
  have hblank : Instant.parse? (d.text ++ ' ' :: time) = some t :=
    (Instant.parse?_blank_second d h m s.castSucc fraction).trans hutc
  rw [zoneSeconds, Int.sub_zero] at hsecs
  refine ⟨t, hzulu, hsecs, hnanos, hnone, hblank, ?_⟩
  intro o colon
  obtain ⟨u, hu, husecs, hunanos⟩ :=
    exists_instant?_second d h m s fraction (some (.offset o colon))
  have hoffset : Instant.parse? (d.text ++ 'T' :: (time ++ o.text colon)) = some u :=
    (Instant.parse?_second d h m s.castSucc fraction (some (.offset o colon))).trans hu
  refine ⟨u, hoffset, ?_, ?_⟩
  · rw [husecs, hsecs]
    rfl
  · rw [hunanos, hnanos]

/-- An offset may lead out of the years that have four digits. -/
example : (Instant.parse? "0000-01-01T00:00:00.5+0001".toList).map (fun t => (t.secs, t.nanos)) =
    some (-62167219260, 500000000) := by
  decide

end CompanyRegister.Calendar
