import CompanyRegister.Proofs.Json.Reading
import CompanyRegister.Proofs.Money.Numerals

/-!
# Whole amounts in documents

A document may give a whole amount as a number or as a text, and the two are read on different ways:
the number is multiplied with its sign, the text has its magnitude worked out first and its sign put
on last. The least amount that there is room for is no whole number of units, so the two ways end at
the same number on either side (`number_read_as_text`).
-/

namespace CompanyRegister.Money

open Text

/-! ## Numbers -/

theorem ofWhole?_eq_some_iff {n : Int} {m : Money} :
    ofWhole? n = some m ↔ m.units.toInt = n * scale := by
  rw [ofWhole?, ofUnits?, Option.map_eq_some_iff]
  constructor
  · rintro ⟨w, hw, rfl⟩
    exact word64?_eq_some_iff.mp hw
  · intro h
    exact ⟨m.units, word64?_eq_some_iff.mpr h, rfl⟩

/-- A number in a document is read as that many whole units. -/
theorem readDocument_signed {n : Int} (hlow : -(Json.maxNegated : Int) ≤ n)
    (hhigh : n ≤ (Json.maxSignificand : Int)) (m : Money) :
    readDocument (signed n) = .ok m ↔ m.units.toInt = n * scale := by
  have hhead : Json.readHead (signed n) = .ok (.number (.whole n), []) := by
    have hend : Json.EndsNumber [] := by simp [Json.EndsNumber]
    have h := Json.readHead_signed hlow hhigh hend
    rwa [List.append_nil] at h
  rw [readDocument, read, hhead, ← ofWhole?_eq_some_iff]
  cases hwhole : ofWhole? n with
  | none =>
    simp only [bind, Except.bind, ofHead, hwhole]
    simp
  | some m' =>
    simp only [bind, Except.bind, ofHead, hwhole]
    show Except.ok m' = Except.ok m ↔ _
    simp

/-! ## Texts -/

/-- A whole number as a numeral. -/
def Numeral.ofInt (n : Int) : Numeral where
  sign := if n < 0 then some .minus else none
  whole := digits n.natAbs
  fraction := none
  isDigit := by
    rw [Option.getD_none, List.append_nil]
    exact fun _ => isDigit_of_mem_digits
  ne_nil := by
    rw [Option.getD_none, List.append_nil]
    exact digits_ne_nil n.natAbs

theorem Numeral.text_ofInt (n : Int) : (ofInt n).text = signed n := by
  cases n with
  | ofNat k => exact List.append_nil (digits k)
  | negSucc k =>
    have hsign : (ofInt (Int.negSucc k)).sign = some .minus := if_pos (Int.negSucc_lt_zero k)
    rw [text, hsign]
    exact congrArg ('-' :: ·) (List.append_nil (digits (k + 1)))

theorem not_isBlank_of_mem_signed {n : Int} : ∀ c ∈ signed n, isBlank c = false := by
  intro c hc
  cases n with
  | ofNat k => exact not_isBlank_of_isDigit (isDigit_of_mem_digits hc)
  | negSucc k =>
    rcases List.mem_cons.mp hc with rfl | hc
    · decide
    · exact not_isBlank_of_isDigit (isDigit_of_mem_digits hc)

theorem trim_signed (n : Int) : trim (signed n) = signed n := by
  apply trim_eq_self
  · intro c hc
    exact not_isBlank_of_mem_signed c (List.mem_of_head? hc)
  · intro c hc
    exact not_isBlank_of_mem_signed c (List.mem_of_getLast? hc)

theorem Numeral.tenThousandths_ofInt (n : Int) :
    tenThousandths (ofInt n).whole (ofInt n).decimals = n.natAbs * scale := by
  have hnone : Text.value [] = 0 := rfl
  show tenThousandths (digits n.natAbs) [] = n.natAbs * scale
  rw [tenThousandths, value_digits, hnone, Nat.zero_mul, Nat.add_zero]

theorem Numeral.signed_ofInt (n : Int) :
    (if (ofInt n).sign = some .minus then -((n.natAbs * scale : Nat) : Int)
      else ((n.natAbs * scale : Nat) : Int)) = n * scale := by
  have hsign : (ofInt n).sign = some .minus ↔ n < 0 := by simp [ofInt]
  rw [if_congr hsign rfl rfl, Int.natCast_mul, scale]
  split <;> omega

/-- The text of a whole number is read as that many whole units. -/
theorem parse_signed (n : Int) (m : Money) :
    parse (signed n) = .ok m ↔ m.units.toInt = n * scale := by
  have hshort : ¬ places < (Numeral.ofInt n).decimals.length := Nat.not_lt_zero places
  rw [parse, trim_signed, ← Numeral.text_ofInt, Numeral.parseTrimmed_text, if_neg hshort,
    Numeral.tenThousandths_ofInt]
  split
  · next hrange =>
    -- The magnitude that has room only with a minus sign is no whole number of units.
    have hmax := maxValue_toInt
    have hlow := Int64.le_toInt m.units
    have hhigh := Int64.toInt_lt m.units
    have hscale : (scale : Int) = 10000 := rfl
    rw [Int.natCast_mul, hscale] at hrange
    rw [hscale]
    constructor
    · intro h
      cases h
    · intro h
      omega
  · next hrange =>
    have hunits := toInt_signed ((Numeral.ofInt n).sign = some .minus) (Int.not_lt.mp hrange)
    rw [Numeral.signed_ofInt] at hunits ⊢
    constructor
    · rintro ⟨⟩
      exact hunits
    · intro h
      obtain ⟨units⟩ := m
      rw [← Int64.toInt_inj.mp (h.trans hunits.symm)]

/-- A whole number and its text give the same amount, or are both refused. -/
theorem number_read_as_text {n : Int} (hlow : -2 ^ 63 ≤ n) (hhigh : n < 2 ^ 64) (m : Money) :
    (readDocument (signed n) = .ok m ↔ readDocument (Json.quote (signed n)) = .ok m) ∧
      (readDocument (signed n) = .ok m ↔ m.units.toInt = n * 10000) := by
  have hnegated : -(Json.maxNegated : Int) ≤ n := by
    rw [Json.maxNegated]
    omega
  have hsignificand : n ≤ (Json.maxSignificand : Int) := by
    rw [Json.maxSignificand]
    omega
  have hnumber := readDocument_signed hnegated hsignificand m
  have htext : readDocument (Json.quote (signed n)) = .ok m ↔ m.units.toInt = n * scale := by
    rw [readDocument_quote, ← parse_signed]
    cases parse (signed n) <;> simp [Except.mapError]
  exact ⟨hnumber.trans htext.symm, hnumber⟩

/-- The least whole number that is an amount, and the one below it. -/
theorem least_whole_read_as_text :
    readDocument "-922337203685477".toList = .ok ⟨-9223372036854770000⟩ ∧
      readDocument "\"-922337203685477\"".toList = .ok ⟨-9223372036854770000⟩ ∧
      ∀ m, readDocument "-922337203685478".toList ≠ .ok m ∧
        readDocument "\"-922337203685478\"".toList ≠ .ok m := by
  have hlast : signed (-922337203685477) = "-922337203685477".toList := by decide +kernel
  have hbeyond : signed (-922337203685478) = "-922337203685478".toList := by decide +kernel
  have hread := number_read_as_text (n := -922337203685477) (by norm_num) (by norm_num)
    ⟨-9223372036854770000⟩
  rw [hlast] at hread
  have hnumber := hread.2.mpr (by decide)
  refine ⟨hnumber, hread.1.mp hnumber, fun m => ?_⟩
  have hrefused := number_read_as_text (n := -922337203685478) (by norm_num) (by norm_num) m
  rw [hbeyond] at hrefused
  have hnone : readDocument "-922337203685478".toList ≠ .ok m := by
    intro h
    have hunits := hrefused.2.mp h
    have hlow := Int64.le_toInt m.units
    omega
  exact ⟨hnone, mt hrefused.1.mpr hnone⟩

end CompanyRegister.Money
