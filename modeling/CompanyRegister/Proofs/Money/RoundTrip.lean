import Mathlib.Data.List.Basic
import CompanyRegister.Company.Document
import CompanyRegister.Proofs.Json.Quotation

/-!
# Reading written amounts

The text of an amount has an optional minus sign, the whole part without leading zeros, a point and
exactly four digits. Reading takes these parts off again and finds the magnitude that was written;
what remains is whether that magnitude is an amount. It is for every amount but one: the most
negative amount is written with a magnitude one above the largest amount, and since the sign is put
on last, its text is refused (`text_read_back`).
-/

namespace CompanyRegister.Money

open Text

/-- The most negative amount. -/
def least : Money := ⟨Int64.minValue⟩

/-! ## Magnitudes -/

theorem maxValue_toInt : Int64.maxValue.toInt = 9223372036854775807 := by decide

theorem least_toInt : least.units.toInt = -9223372036854775808 := by decide

theorem eq_least_iff (m : Money) : m = least ↔ m.units.toInt = -9223372036854775808 := by
  constructor
  · rintro rfl
    exact least_toInt
  · intro h
    obtain ⟨units⟩ := m
    exact congrArg Money.mk (Int64.toInt_inj.mp (h.trans least_toInt.symm))

/-- The magnitude of an amount is beyond the largest amount for the most negative one alone. -/
theorem lt_natAbs_iff (m : Money) :
    Int64.maxValue.toInt < m.units.toInt.natAbs ↔ m = least := by
  have hlow := Int64.le_toInt m.units
  have hhigh := Int64.toInt_lt m.units
  rw [eq_least_iff, maxValue_toInt]
  omega

/-- An amount is its magnitude with its sign. -/
theorem ofInt_natAbs (m : Money) :
    (if decide (m.units.toInt < 0) = true then -Int64.ofInt m.units.toInt.natAbs
      else Int64.ofInt m.units.toInt.natAbs) = m.units := by
  rw [← Int64.ofInt_neg]
  split
  · next h =>
    have habs : -(m.units.toInt.natAbs : Int) = m.units.toInt := by
      have := of_decide_eq_true h
      omega
    rw [habs, Int64.ofInt_toInt]
  · next h =>
    have habs : (m.units.toInt.natAbs : Int) = m.units.toInt := by
      have := of_decide_eq_false (Bool.eq_false_iff.mpr h)
      omega
    rw [habs, Int64.ofInt_toInt]

/-- Ten-thousandths in a number given by its digits before and after the point. -/
def tenThousandths (whole fraction : List Char) : Nat :=
  value whole * scale + value fraction * tenPower (places - fraction.length)

theorem value_fillPlaces (fraction : List Char) :
    value (fillPlaces fraction) = value fraction * tenPower (places - fraction.length) := by
  rw [fillPlaces, value_append, value_replicate_zero, List.length_replicate, Nat.add_zero]

theorem value_fillPlaces_lt {fraction : List Char} (hdigits : ∀ c ∈ fraction, c.isDigit = true)
    (hplaces : fraction.length ≤ places) : value (fillPlaces fraction) < scale := by
  have hfilled : ∀ c ∈ fillPlaces fraction, c.isDigit = true := by
    intro c hc
    rcases List.mem_append.mp hc with hc | hc
    · exact hdigits c hc
    · rw [List.eq_of_mem_replicate hc]
      decide
  have hlength : (fillPlaces fraction).length = places := by
    rw [fillPlaces, List.length_append, List.length_replicate, Nat.add_sub_cancel' hplaces]
  have hlt := value_lt_tenPower hfilled
  rwa [hlength] at hlt

theorem word64?_eq_some_iff {n : Int} {w : Int64} : word64? n = some w ↔ w.toInt = n := by
  rw [word64?]
  constructor
  · intro h
    split at h
    · next hrange =>
      cases h
      exact Int64.toInt_ofInt_of_le hrange.1 (Int.lt_of_le_of_lt hrange.2 (by decide))
    · cases h
  · rintro rfl
    have hhigh : w.toInt ≤ Int64.maxValue.toInt := by
      have := Int64.toInt_lt w
      rw [maxValue_toInt]
      omega
    rw [if_pos ⟨Int64.le_toInt w, hhigh⟩, Int64.ofInt_toInt]

theorem toInt_of_checked {e : ParseError} {n : Int} {w : Int64} (h : checked e n = .ok w) :
    w.toInt = n := by
  rw [checked] at h
  split at h
  · next hword =>
    cases h
    exact word64?_eq_some_iff.mp hword
  · cases h

theorem checked_eq (e : ParseError) (n : Nat) :
    checked e n =
      if Int64.maxValue.toInt < n then .error e else .ok (Int64.ofInt n) := by
  have hlow : Int64.minValue.toInt ≤ n := Int.le_trans (by decide) (Int.natCast_nonneg n)
  rw [checked, word64?]
  by_cases h : Int64.maxValue.toInt < n
  · rw [if_pos h, if_neg fun hn => Int.not_lt.mpr hn.2 h]
  · rw [if_neg h, if_pos ⟨hlow, Int.not_lt.mp h⟩]

theorem toInt_ofInt_natCast {n : Nat} (h : (n : Int) ≤ Int64.maxValue.toInt) :
    (Int64.ofInt n).toInt = n := by
  rw [maxValue_toInt] at h
  apply Int64.toInt_ofInt_of_le
  · omega
  · omega

/-- The checked steps find the ten-thousandths that a number has, and refuse a number that has more
of them than there is room for. No step before the last is refused otherwise, since none has a
greater result than the last. -/
theorem magnitude_eq (t whole : List Char) {fraction : List Char}
    (hdigits : ∀ c ∈ fraction, c.isDigit = true) (hplaces : fraction.length ≤ places) :
    magnitude t whole fraction =
      if Int64.maxValue.toInt < tenThousandths whole fraction then
        .error (.outOfRange (String.ofList t))
      else .ok (Int64.ofInt (tenThousandths whole fraction)) := by
  have hlt := value_fillPlaces_lt hdigits hplaces
  rw [tenThousandths, ← value_fillPlaces, magnitude, checked_eq, checked_eq]
  generalize value whole = w at *
  generalize value (fillPlaces fraction) = f at *
  have hscaled : w ≤ w * scale := Nat.le_mul_of_pos_right w (by decide)
  have hf : (f : Int) ≤ Int64.maxValue.toInt := Int.le_trans (Int.ofNat_le.mpr (Nat.le_of_lt hlt))
    (by decide)
  rw [if_neg (Int.not_lt.mpr hf)]
  by_cases hw : Int64.maxValue.toInt < w
  · rw [if_pos hw, if_pos (by omega)]
    rfl
  rw [if_neg hw]
  simp only [bind, Except.bind]
  rw [toInt_ofInt_natCast (Int.not_lt.mp hw), toInt_ofInt_natCast hf, ← Int.natCast_mul, checked_eq]
  by_cases hbeyond : Int64.maxValue.toInt < (w * scale : Nat)
  · rw [if_pos hbeyond, if_pos (by omega)]
  rw [if_neg hbeyond]
  simp only
  rw [toInt_ofInt_natCast (Int.not_lt.mp hbeyond), ← Int.natCast_add, checked_eq]

theorem length_places (n : Nat) : (padded places (n % scale)).length = places :=
  length_padded (by decide) (Nat.mod_lt n (by decide))

/-- A number is put together again from its whole part and its four decimal places. -/
theorem tenThousandths_digits (n : Nat) :
    tenThousandths (digits (n / scale)) (padded places (n % scale)) = n := by
  rw [tenThousandths, length_places, value_digits, value_padded, Nat.sub_self]
  show n / scale * scale + n % scale * 1 = n
  rw [Nat.mul_one, Nat.mul_comm]
  exact Nat.div_add_mod n scale

/-! ## Parts of a text -/

theorem splitSign_of_isDigit {c : Char} (h : c.isDigit = true) (text : List Char) :
    splitSign (c :: text) = (false, c :: text) := by
  rw [splitSign.eq_def]
  split
  · next heq => cases heq; cases h
  · next heq => cases heq; cases h
  · rfl

theorem splitPoint_append {whole : List Char} (h : ∀ c ∈ whole, c.isDigit = true)
    (fraction : List Char) : splitPoint (whole ++ '.' :: fraction) = (whole, fraction) := by
  induction whole with
  | nil => rfl
  | cons c whole ih =>
    have hc := h c List.mem_cons_self
    have hpoint : c ≠ '.' := by
      rintro rfl
      revert hc
      decide
    rw [List.cons_append, splitPoint.eq_def]
    split
    · next heq => cases heq
    · next heq => exact absurd (List.cons.inj heq).1 hpoint
    · next heq =>
      cases heq
      rw [ih fun d hd => h d (List.mem_cons_of_mem c hd)]

/-- The text of an amount without its sign. -/
def unsignedText (n : Nat) : List Char :=
  digits (n / scale) ++ '.' :: padded places (n % scale)

theorem text_eq (m : Money) :
    m.text = (if m.units.toInt < 0 then ['-'] else []) ++ unsignedText m.units.toInt.natAbs := by
  rw [text, List.append_assoc]
  rfl

theorem head?_unsignedText (n : Nat) :
    ∃ c rest, unsignedText n = c :: rest ∧ c.isDigit = true := by
  obtain ⟨c, ds, hds⟩ := List.exists_cons_of_ne_nil (digits_ne_nil (n / scale))
  refine ⟨c, ds ++ '.' :: padded places (n % scale), ?_, ?_⟩
  · rw [unsignedText, hds]
    rfl
  · exact isDigit_of_mem_digits (hds ▸ List.mem_cons_self)

theorem splitSign_text (m : Money) :
    splitSign m.text =
      (decide (m.units.toInt < 0), unsignedText m.units.toInt.natAbs) := by
  rw [text_eq]
  split
  · next h => rw [decide_eq_true h]; rfl
  · next h =>
    obtain ⟨c, rest, heq, hc⟩ := head?_unsignedText m.units.toInt.natAbs
    rw [decide_eq_false h, List.nil_append, heq, splitSign_of_isDigit hc]

/-- The text of an amount neither begins nor ends with a blank. -/
theorem trim_text (m : Money) : trim m.text = m.text := by
  have hfraction : padded places (m.units.toInt.natAbs % scale) ≠ [] := by
    intro h
    have hlength := length_places m.units.toInt.natAbs
    rw [h] at hlength
    cases hlength
  apply trim_eq_self
  · intro c hc
    rw [text_eq] at hc
    obtain ⟨d, rest, heq, hd⟩ := head?_unsignedText m.units.toInt.natAbs
    rw [heq] at hc
    split at hc
    · cases hc
      decide
    · cases hc
      exact not_isBlank_of_isDigit hd
  · intro c hc
    rw [text_eq, unsignedText, ← List.append_assoc, List.append_cons,
      List.getLast?_append_of_ne_nil _ hfraction] at hc
    exact not_isBlank_of_isDigit (isDigit_of_mem_padded (List.mem_of_getLast? hc))

/-! ## Reading -/

/-- The text of an amount is read as that amount, and the text of the most negative amount is
refused as out of range. -/
theorem parse_text (m : Money) :
    parse m.text =
      if m = least then .error (.outOfRange (String.ofList m.text)) else .ok m := by
  have hdigits : ((digits (m.units.toInt.natAbs / scale) ++
      padded places (m.units.toInt.natAbs % scale)).all Char.isDigit) = true := by
    rw [List.all_append, Bool.and_eq_true, List.all_eq_true, List.all_eq_true]
    exact ⟨fun _ => isDigit_of_mem_digits, fun _ => isDigit_of_mem_padded⟩
  have hsplit : splitPoint (unsignedText m.units.toInt.natAbs) =
      (digits (m.units.toInt.natAbs / scale), padded places (m.units.toInt.natAbs % scale)) :=
    splitPoint_append (fun _ => isDigit_of_mem_digits) _
  have htext : m.text ≠ [] := by
    rw [text_eq, unsignedText]
    simp
  rw [parse, trim_text, parseTrimmed, splitSign_text]
  simp only [hsplit, htext, if_false, hdigits, digits_ne_nil, false_and, not_true, or_self,
    length_places, Nat.lt_irrefl]
  rw [magnitude_eq m.text _ (fun _ => isDigit_of_mem_padded) (Nat.le_of_eq (length_places _)),
    tenThousandths_digits]
  by_cases h : m = least
  · rw [if_pos ((lt_natAbs_iff m).mpr h), if_pos h]
    rfl
  · rw [if_neg (mt (lt_natAbs_iff m).mp h), if_neg h]
    exact congrArg (fun units => Except.ok (Money.mk units)) (ofInt_natAbs m)

/-- A quoted text is read from a document as the text is read. -/
theorem readDocument_quote (s : List Char) :
    readDocument (Json.quote s) =
      (parse s).mapError fun e => .here (.refused e.message) [] := by
  have hhead : Json.readHead (Json.quote s) = .ok (.text s, []) := by
    have h := Json.readHead_quote s []
    rwa [List.append_nil] at h
  rw [readDocument, read, hhead]
  cases hparse : parse s with
  | error e =>
    have hread : ofHead (.text s) = .error (.refused e.message) := by
      rw [ofHead, hparse]
      rfl
    simp only [bind, Except.bind, hread]
    rfl
  | ok m =>
    have hread : ofHead (.text s) = .ok m := by
      rw [ofHead, hparse]
      rfl
    simp only [bind, Except.bind, hread]
    rfl

theorem readDocument_quote_text (m : Money) :
    readDocument (Json.quote m.text) =
      if m = least then .error (.here (.refused (ParseError.outOfRange
        (String.ofList m.text)).message) []) else .ok m := by
  rw [readDocument_quote, parse_text]
  split <;> rfl

/-- Every amount but the most negative one is read back from its text, alone or quoted in a
document. -/
theorem text_read_back (m : Money) :
    (parse m.text = .ok m ↔ m ≠ least) ∧
      (readDocument (Json.quote m.text) = .ok m ↔ m ≠ least) := by
  rw [parse_text, readDocument_quote_text]
  by_cases h : m = least
  · simp [h]
  · simp [h]

/-- The text of the most negative amount is refused. -/
theorem least_not_read_back :
    least.text = "-922337203685477.5808".toList ∧
      parse least.text = .error (.outOfRange "-922337203685477.5808") := by
  have htext : least.text = "-922337203685477.5808".toList := by decide +kernel
  refine ⟨htext, ?_⟩
  rw [parse_text, if_pos rfl, htext]
  rfl

end CompanyRegister.Money
