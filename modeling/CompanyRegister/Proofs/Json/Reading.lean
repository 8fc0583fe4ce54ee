import CompanyRegister.Proofs.Json.Quotation

/-!
# Reading written values

Each reader of a value takes off the front of a text what the matching writer puts there, and any
gap before it:

    wholeNumber lo hi … (gap ++ signed n ++ rest) = (n, rest)
    stringValue (gap ++ quote s ++ rest)          = (s, rest)

A number has no mark at its end, so what follows it must be no part of a number (`EndsNumber`).
-/

namespace CompanyRegister

namespace Text

theorem digitChar_ne_zero {n : Nat} (hn : 0 < n) (h : n < 10) : digitChar n ≠ '0' := by
  intro heq
  have hvalue := digitValue_digitChar h
  rw [heq] at hvalue
  exact absurd hvalue (Nat.ne_of_lt hn)

/-- The digits of a number begin with a digit, and with a zero for zero alone. -/
theorem exists_digits_eq (n : Nat) :
    ∃ c ds, digits n = c :: ds ∧ c.isDigit = true ∧ (∀ d ∈ ds, d.isDigit = true) ∧
      (0 < n → c ≠ '0') := by
  obtain ⟨c, ds, hds⟩ := List.exists_cons_of_ne_nil (digits_ne_nil n)
  have hdigits : ∀ d ∈ c :: ds, d.isDigit = true := by
    intro d hd
    rw [← hds] at hd
    exact isDigit_of_mem_digits hd
  refine ⟨c, ds, hds, hdigits c List.mem_cons_self,
    fun d hd => hdigits d (List.mem_cons_of_mem c hd), ?_⟩
  clear hdigits
  -- The first digit is that of the number with its last digit taken off.
  induction n using Nat.strongRecOn generalizing ds with
  | ind n ih =>
    intro hn
    rw [digits] at hds
    split at hds
    · next hten =>
      cases hds
      exact digitChar_ne_zero hn hten
    · next hten =>
      obtain ⟨d, es, hes⟩ := List.exists_cons_of_ne_nil (digits_ne_nil (n / 10))
      rw [hes] at hds
      cases hds
      exact ih (n / 10) (by omega) es hes (by omega)

end Text

namespace Json

open Text

variable {α : Type} {gap text rest : List Char}

/-! ## Gaps -/

/-- Whether a text is nothing but a gap. -/
def AllGap (text : List Char) : Prop := ∀ c ∈ text, isGap c = true

theorem allGap_nil : AllGap [] := List.forall_mem_nil _

theorem skipGap_append (hgap : AllGap gap) (text : List Char) :
    skipGap (gap ++ text) = skipGap text :=
  List.dropWhile_append_of_pos hgap

theorem skipGap_cons {c : Char} (hc : isGap c = false) (text : List Char) :
    skipGap (c :: text) = c :: text := by
  rw [skipGap, List.dropWhile_cons_of_neg (by simp [hc])]

theorem skipGap_eq_nil (hgap : AllGap gap) : skipGap gap = [] := by
  have h := skipGap_append hgap []
  rwa [List.append_nil] at h

theorem not_isGap_of_isDigit {c : Char} (h : c.isDigit = true) : isGap c = false := by
  rw [isGap]
  rw [Bool.eq_false_iff]
  intro hgap
  simp only [Bool.or_eq_true, beq_iff_eq] at hgap
  rcases hgap with ((rfl | rfl) | rfl) | rfl <;> cases h

theorem readHead_gap (hgap : AllGap gap) (text : List Char) :
    readHead (gap ++ text) = readHead text := by
  unfold readHead
  rw [skipGap_append hgap]

/-! ## Numbers -/

/-- Whether a number before a text has ended. -/
def EndsNumber (rest : List Char) : Prop :=
  ∀ c ∈ rest.head?, c.isDigit = false ∧ c ≠ '.' ∧ c ≠ 'e' ∧ c ≠ 'E'

theorem endsNumber_gap (hgap : AllGap gap) (h : EndsNumber rest) : EndsNumber (gap ++ rest) := by
  cases gap with
  | nil => exact h
  | cons d gap =>
    intro c hc
    cases hc
    have hd := hgap d List.mem_cons_self
    simp only [isGap, Bool.or_eq_true, beq_iff_eq] at hd
    rcases hd with ((rfl | rfl) | rfl) | rfl <;> decide

theorem startsWithDigit_of_endsNumber (h : EndsNumber rest) : startsWithDigit rest = false := by
  cases rest with
  | nil => rfl
  | cons c rest => exact (h c rfl).1

theorem le_foldl_value (ds : List Char) (n : Nat) :
    n ≤ ds.foldl (fun n c => 10 * n + digitValue c) n := by
  induction ds generalizing n with
  | nil => exact Nat.le_refl n
  | cons c ds ih => exact Nat.le_trans (by omega) (ih (10 * n + digitValue c))

/-- The significand takes digits for as long as the number that they make is small enough. -/
theorem takeSignificand_append {n : Nat} {ds : List Char} (hds : ∀ c ∈ ds, c.isDigit = true)
    (hle : ds.foldl (fun n c => 10 * n + digitValue c) n ≤ maxSignificand)
    (hend : EndsNumber rest) :
    takeSignificand n (ds ++ rest) = (ds.foldl (fun n c => 10 * n + digitValue c) n, rest) := by
  induction ds generalizing n with
  | nil =>
    cases rest with
    | nil => rfl
    | cons c rest => simp [takeSignificand, (hend c rfl).1]
  | cons c ds ih =>
    have hc := hds c List.mem_cons_self
    have hnext : 10 * n + digitValue c ≤ maxSignificand :=
      Nat.le_trans (le_foldl_value ds (10 * n + digitValue c)) hle
    rw [List.cons_append, takeSignificand]
    simp only [hc, hnext, decide_true, Bool.and_self, if_true]
    exact ih (fun d hd => hds d (List.mem_cons_of_mem c hd)) hle

/-- Behind a number that has ended nothing more is looked for. -/
theorem afterWhole_of_endsNumber (negative : Bool) (n : Nat) (hend : EndsNumber rest) :
    afterWhole negative n rest =
      if negative then
        if 0 < n ∧ n ≤ maxNegated then .ok (.whole (-(n : Int)), rest)
        else .ok (.real (-(UInt64.ofNat n).toFloat), rest)
      else .ok (.whole n, rest) := by
  rw [afterWhole.eq_def]
  split
  · exact absurd rfl (hend _ rfl).2.1
  · exact absurd rfl (hend _ rfl).2.2.1
  · exact absurd rfl (hend _ rfl).2.2.2
  · rfl

theorem readNumber_digits (negative : Bool) {n : Nat} (hn : n ≤ maxSignificand)
    (hend : EndsNumber rest) :
    readNumber negative (digits n ++ rest) = afterWhole negative n rest := by
  obtain ⟨c, ds, hdigits, hc, hds, hzero⟩ := exists_digits_eq n
  have hvalue : ds.foldl (fun n c => 10 * n + digitValue c) (digitValue c) = n := by
    have h := value_digits n
    rw [hdigits, value, List.foldl_cons] at h
    simpa using h
  rw [hdigits, List.cons_append, readNumber.eq_def]
  split
  · next heq => cases heq
  · next heq =>
    cases heq
    -- A zero in front is the whole number.
    obtain rfl : n = 0 := Nat.eq_zero_of_not_pos fun hpos => hzero hpos rfl
    obtain rfl : ds = [] := by
      rw [digits, if_pos (by omega)] at hdigits
      exact (List.cons.inj hdigits).2.symm
    rw [List.nil_append, startsWithDigit_of_endsNumber hend]
    rfl
  · next heq =>
    obtain ⟨rfl, rfl⟩ := List.cons.inj heq
    rw [if_pos hc, takeSignificand_append hds (by omega) hend, hvalue]
    simp only [startsWithDigit_of_endsNumber hend, Bool.false_eq_true, if_false]

/-- A text that begins with a digit is read as a number. -/
theorem readHead_of_isDigit {c : Char} (hc : c.isDigit = true) (text : List Char) :
    readHead (c :: text) = (readNumber false (c :: text)).map fun r => (.number r.1, r.2) := by
  unfold readHead
  rw [skipGap_cons (not_isGap_of_isDigit hc)]
  split
  · next heq => cases heq
  · next heq => cases heq; cases hc
  · next heq => cases heq; cases hc
  · next heq => cases heq; cases hc
  · next heq => cases heq; cases hc
  · next heq => cases heq; cases hc
  · next heq => cases heq; cases hc
  · next heq => cases heq; cases hc
  · next heq =>
    cases heq
    rw [if_pos hc]
    cases readNumber false (c :: text) <;> rfl

theorem readHead_minus (text : List Char) :
    readHead ('-' :: text) = (readNumber true text).map fun r => (.number r.1, r.2) := by
  unfold readHead
  rw [skipGap_cons rfl]
  show (readNumber true text).bind _ = _
  cases readNumber true text <;> rfl

/-- A written whole number is read as it was, from the least number of 64 bits with a sign up to the
largest without one. -/
theorem readHead_signed {n : Int} (hlow : -(maxNegated : Int) ≤ n)
    (hhigh : n ≤ (maxSignificand : Int)) (hend : EndsNumber rest) :
    readHead (signed n ++ rest) = .ok (.number (.whole n), rest) := by
  cases n with
  | ofNat k =>
    obtain ⟨c, ds, hdigits, hc, -, -⟩ := exists_digits_eq k
    have hread := readHead_of_isDigit hc (ds ++ rest)
    have hk : k ≤ maxSignificand := Int.ofNat_le.mp hhigh
    rw [← List.cons_append, ← hdigits, readNumber_digits false hk hend,
      afterWhole_of_endsNumber false k hend] at hread
    exact hread
  | negSucc k =>
    show readHead ('-' :: (digits (k + 1) ++ rest)) = _
    have hk : k + 1 ≤ maxNegated := by omega
    have hk' : k + 1 ≤ maxSignificand := Nat.le_trans hk (by decide)
    rw [readHead_minus, readNumber_digits true hk' hend,
      afterWhole_of_endsNumber true (k + 1) hend, if_pos rfl, if_pos ⟨Nat.succ_pos k, hk⟩]
    rfl

/-! ## Values of one kind -/

theorem accepted_of_readHead {expected : String} {accept : Head → Option (Except Cause α)}
    {h : Head} {a : α} (hread : readHead text = .ok (h, rest)) (haccept : accept h = some (.ok a)) :
    accepted expected accept text = .ok (a, rest) := by
  rw [accepted, hread]
  simp only [bind, Except.bind, haccept]
  rfl

theorem wholeNumber_signed (hgap : AllGap gap) {lo hi n : Int} {expected : String}
    (hrange : lo ≤ n ∧ n ≤ hi) (hn : n.natAbs ≤ maxNegated) (hend : EndsNumber rest) :
    wholeNumber lo hi expected (gap ++ (signed n ++ rest)) = .ok (n, rest) := by
  have hsmall : maxNegated ≤ maxSignificand := by decide
  apply accepted_of_readHead
  · rw [readHead_gap hgap]
    exact readHead_signed (by omega) (by omega) hend
  · exact congrArg some (if_pos hrange)

theorem stringValue_quote (hgap : AllGap gap) (s rest : List Char) :
    stringValue (gap ++ (quote s ++ rest)) = .ok (s, rest) := by
  apply accepted_of_readHead
  · rw [readHead_gap hgap]
    exact readHead_quote s rest
  · rfl

/-- Whether a text begins with a value that is not `null`. -/
def StartsValue (text : List Char) : Prop := ∃ c rest, text = c :: rest ∧ isGap c = false ∧ c ≠ 'n'

theorem startsValue_quote (s : List Char) : StartsValue (quote s) := by
  refine ⟨'"', _, rfl, rfl, ?_⟩
  decide

theorem startsValue_signed (n : Int) : StartsValue (signed n) := by
  cases n with
  | ofNat k =>
    obtain ⟨c, ds, hdigits, hc, -, -⟩ := exists_digits_eq k
    refine ⟨c, ds, hdigits, not_isGap_of_isDigit hc, ?_⟩
    rintro rfl
    cases hc
  | negSucc k =>
    refine ⟨'-', _, rfl, rfl, ?_⟩
    decide

variable {reader : List Char → Except Fault (α × List Char)}

theorem nullable_null (hgap : AllGap gap) (rest : List Char) :
    nullable reader (gap ++ (['n', 'u', 'l', 'l'] ++ rest)) = .ok (none, rest) := by
  unfold nullable
  rw [skipGap_append hgap]
  rfl

/-- What is not `null` is left to the reader of values. -/
theorem nullable_of_startsValue (hgap : AllGap gap) (htext : StartsValue text) (rest : List Char) :
    nullable reader (gap ++ (text ++ rest)) =
      (reader (gap ++ (text ++ rest))).map fun r => (some r.1, r.2) := by
  obtain ⟨c, tail, rfl, hc, hn⟩ := htext
  unfold nullable
  rw [skipGap_append hgap, List.cons_append, skipGap_cons hc]
  split
  · next heq => exact absurd (List.cons.inj heq).1 hn
  · cases reader (gap ++ c :: (tail ++ rest)) <;> rfl

theorem nullable_value (hgap : AllGap gap) (htext : StartsValue text) {a : α}
    (hread : reader (gap ++ (text ++ rest)) = .ok (a, rest)) :
    nullable reader (gap ++ (text ++ rest)) = .ok (some a, rest) := by
  rw [nullable_of_startsValue hgap htext, hread]
  rfl

/-! ## Objects -/

theorem nextMember_gap (isFirst : Bool) (hgap : AllGap gap) (text : List Char) :
    nextMember isFirst (gap ++ text) = nextMember isFirst text := by
  unfold nextMember
  rw [skipGap_append hgap]

theorem skipGap_string (hgap : AllGap gap) (text : List Char) :
    skipGap (gap ++ '"' :: text) = '"' :: text := by
  rw [skipGap_append hgap, skipGap_cons rfl]

/-- A key is read as a string; one that is no string is refused. -/
theorem nextMember_string_first (hgap : AllGap gap) (text : List Char) :
    nextMember true (gap ++ '"' :: text) =
      (unquote text).map fun r => (.key r.1, r.2) := by
  unfold nextMember
  rw [skipGap_string hgap]
  split
  · next heq => cases heq
  · next heq => cases heq
  · next heq =>
    cases heq
    simp only [if_true]
    cases unquote text <;> rfl

theorem nextMember_string_later (hgap : AllGap gap) (text : List Char) :
    nextMember false (',' :: (gap ++ '"' :: text)) =
      (unquote text).map fun r => (.key r.1, r.2) := by
  unfold nextMember
  rw [skipGap_cons rfl]
  split
  · next heq => cases heq
  · next heq => cases heq
  · next heq =>
    cases heq
    simp only [Bool.false_eq_true, if_false, if_true, skipGap_string hgap]
    cases unquote text <;> rfl

theorem quote_append (s rest : List Char) :
    quote s ++ rest = '"' :: (s.flatMap quoteChar ++ '"' :: rest) := by
  rw [quote, List.cons_append, List.append_assoc, List.singleton_append]

theorem nextMember_first (hgap : AllGap gap) (name rest : List Char) :
    nextMember true (gap ++ (quote name ++ rest)) = .ok (.key name, rest) := by
  rw [quote_append, nextMember_string_first hgap, unquote_quoted]
  rfl

theorem nextMember_later (hgap : AllGap gap) (name rest : List Char) :
    nextMember false (',' :: (gap ++ (quote name ++ rest))) = .ok (.key name, rest) := by
  rw [quote_append, nextMember_string_later hgap, unquote_quoted]
  rfl

theorem nextMember_close (isFirst : Bool) (hgap : AllGap gap) (rest : List Char) :
    nextMember isFirst (gap ++ '\x7d' :: rest) = .ok (.close, '\x7d' :: rest) := by
  unfold nextMember
  rw [skipGap_append hgap]
  rfl

theorem colon_gap (hgap : AllGap gap) (rest : List Char) :
    colon (gap ++ ':' :: rest) = .ok rest := by
  unfold colon
  rw [skipGap_append hgap]
  rfl

theorem endOfDocument_gap (hgap : AllGap gap) : endOfDocument gap = .ok () := by
  unfold endOfDocument
  rw [skipGap_eq_nil hgap]

end Json

end CompanyRegister
