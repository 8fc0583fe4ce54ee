import CompanyRegister.Proofs.Json.Grammar

/-!
# Readers that go by the value alone

A member of an object is read without a look at what follows it. `Steady reader text` says so: the
reader takes `text` off the front of a longer text with one and the same result, or refuses every
text that begins with it. Only the end of a number has to be told (`EndsNumber`).

Numbers are the long part. Each of their readers takes a row of digits and hands what is left to the
next (`takeSignificand_row`, `takeExponent_row`, `afterPoint_row`), so steadiness is carried back
from the exponent to the first digit. Lists and objects are refused at their opening bracket by
every reader that wants something else, however much they hold (`IsValue.head`).
-/

namespace CompanyRegister.Json

open Text

variable {α β : Type} {text rest : List Char}

/-! ## Steady readers -/

/-- The reader takes a text as `a?` says, whatever stands behind it. -/
def Gives (reader : List Char → Except Fault (α × List Char)) (text : List Char) (a? : Option α) :
    Prop :=
  ∀ rest, EndsNumber rest → (reader (text ++ rest)).toOption = a?.map fun a => (a, rest)

/-- What the reader makes of a text does not depend on what stands behind it. -/
def Steady (reader : List Char → Except Fault (α × List Char)) (text : List Char) : Prop :=
  ∃ a?, Gives reader text a?

/-- What the reader makes of a text on its own. -/
def outcome (reader : List Char → Except Fault (α × List Char)) (text : List Char) : Option α :=
  (reader text).toOption.map Prod.fst

theorem endsNumber_nil : EndsNumber [] := by
  intro c hc
  cases hc

/-- A text is read within a longer one as it is read on its own. -/
theorem Steady.toOption_eq {reader : List Char → Except Fault (α × List Char)}
    (h : Steady reader text) (hend : EndsNumber rest) :
    (reader (text ++ rest)).toOption = (outcome reader text).map fun a => (a, rest) := by
  obtain ⟨a?, ha⟩ := h
  have halone := ha [] endsNumber_nil
  rw [List.append_nil] at halone
  rw [ha rest hend, outcome, halone, Option.map_map, Option.map_map]
  rfl

section Composing

variable {first second : List Char → Except Fault (α × List Char)}

theorem steady_of_error (h : ∀ rest, EndsNumber rest → ∃ f, first (text ++ rest) = .error f) :
    Steady first text := by
  refine ⟨none, fun rest hend => ?_⟩
  obtain ⟨f, hf⟩ := h rest hend
  rw [hf]
  rfl

theorem steady_of_ok (a : α)
    (h : ∀ rest, EndsNumber rest → first (text ++ rest) = .ok (a, rest)) : Steady first text := by
  refine ⟨some a, fun rest hend => ?_⟩
  rw [h rest hend]
  rfl

/-- A reader that leaves the end of a text to another is steady if that one is. -/
theorem steady_append (front : List Char) {back : List Char}
    (h : ∀ rest, EndsNumber rest → first (front ++ (back ++ rest)) = second (back ++ rest))
    (hsteady : Steady second back) : Steady first (front ++ back) := by
  obtain ⟨a?, ha⟩ := hsteady
  refine ⟨a?, fun rest hend => ?_⟩
  rw [List.append_assoc, h rest hend]
  exact ha rest hend

theorem Steady.map {reader : List Char → Except Fault (α × List Char)} (h : Steady reader text)
    (g : α → β) : Steady (fun text => (reader text).map fun r => (g r.1, r.2)) text := by
  obtain ⟨a?, ha⟩ := h
  refine ⟨a?.map g, fun rest hend => ?_⟩
  rw [toOption_map, ha rest hend, Option.map_map, Option.map_map]
  rfl

end Composing

/-! ## Rows of digits -/

theorem takeSignificand_of_not_digit (n : Nat) (h : startsWithDigit rest = false) :
    takeSignificand n rest = (n, rest) := by
  cases rest with
  | nil => rfl
  | cons c rest =>
    have hc : c.isDigit = false := h
    simp [takeSignificand, hc]

/-- The significand takes the digits that it has room for, and leaves the others. -/
theorem takeSignificand_row {ds : List Char} (hds : ∀ c ∈ ds, c.isDigit = true) (n : Nat) :
    ∃ m left, (∀ c ∈ left, c.isDigit = true) ∧ left.length ≤ ds.length ∧
      ∀ rest, startsWithDigit rest = false →
        takeSignificand n (ds ++ rest) = (m, left ++ rest) := by
  induction ds generalizing n with
  | nil =>
    exact ⟨n, [], List.forall_mem_nil _, Nat.le_refl _,
      fun rest hrest => takeSignificand_of_not_digit n hrest⟩
  | cons c ds ih =>
    by_cases hroom : 10 * n + digitValue c ≤ maxSignificand
    · obtain ⟨m, left, hleft, hlength, htake⟩ :=
        ih (fun d hd => hds d (List.mem_cons_of_mem c hd)) (10 * n + digitValue c)
      refine ⟨m, left, hleft, Nat.le_succ_of_le hlength, fun rest hrest => ?_⟩
      rw [List.cons_append, takeSignificand]
      simp only [hds c List.mem_cons_self, hroom, decide_true, Bool.and_self, if_true]
      exact htake rest hrest
    · refine ⟨n, c :: ds, hds, Nat.le_refl _, fun rest _ => ?_⟩
      rw [List.cons_append, takeSignificand]
      simp only [hroom, decide_false, Bool.and_false, Bool.false_eq_true, if_false]

/-- An exponent takes all digits, or stops at one that passes the largest. -/
theorem takeExponent_row {ds : List Char} (hds : ∀ c ∈ ds, c.isDigit = true) (n : Nat) :
    (∃ m, ∀ rest, startsWithDigit rest = false → takeExponent n (ds ++ rest) = (some m, rest)) ∨
      ∃ left, (∀ c ∈ left, c.isDigit = true) ∧
        ∀ rest, takeExponent n (ds ++ rest) = (none, left ++ rest) := by
  induction ds generalizing n with
  | nil =>
    refine .inl ⟨n, fun rest hrest => ?_⟩
    cases rest with
    | nil => rfl
    | cons c rest =>
      have hc : c.isDigit = false := hrest
      simp [takeExponent, hc]
  | cons c ds ih =>
    have hothers : ∀ d ∈ ds, d.isDigit = true := fun d hd => hds d (List.mem_cons_of_mem c hd)
    have hstep : ∀ rest, takeExponent n (c :: ds ++ rest) =
        if 10 * n + digitValue c ≤ maxExponent then
          takeExponent (10 * n + digitValue c) (ds ++ rest)
        else (none, ds ++ rest) := by
      intro rest
      rw [List.cons_append, takeExponent]
      simp only [hds c List.mem_cons_self, if_true]
    by_cases hroom : 10 * n + digitValue c ≤ maxExponent
    · simp only [hstep, if_pos hroom]
      exact ih hothers _
    · simp only [hstep, if_neg hroom]
      exact .inr ⟨ds, hothers, fun rest => rfl⟩

theorem takeDigits_row {ds : List Char} (hds : ∀ c ∈ ds, c.isDigit = true)
    (h : startsWithDigit rest = false) : takeDigits (ds ++ rest) = (ds, rest) := by
  apply takeDigits_append hds
  intro c hc
  cases rest with
  | nil => cases hc
  | cons d rest =>
    cases hc
    exact h

theorem startsWithDigit_append {ds : List Char} (hds : ∀ c ∈ ds, c.isDigit = true) (hne : ds ≠ [])
    (rest : List Char) : startsWithDigit (ds ++ rest) = true := by
  obtain ⟨c, ds, rfl⟩ := List.exists_cons_of_ne_nil hne
  exact hds c List.mem_cons_self

/-! ## Numbers -/

namespace DigitRow

theorem isDigit (ds : DigitRow) : ∀ c ∈ ds.text, c.isDigit = true :=
  List.forall_mem_cons.mpr ⟨ds.isDigit_first, ds.isDigit_others⟩

theorem text_ne_nil (ds : DigitRow) : ds.text ≠ [] := List.cons_ne_nil _ _

end DigitRow

theorem steady_real (negative : Bool) (n : Nat) (e : Int) : Steady (real negative n e) [] := by
  cases hscale : scale? (UInt64.ofNat n).toFloat e with
  | none => exact steady_of_error fun rest _ => ⟨_, by rw [real, hscale]⟩
  | some x => exact steady_of_ok _ fun rest _ => by rw [real, hscale]; rfl

theorem exponentSign_text (sign : Sign) (ds : DigitRow) (rest : List Char) :
    exponentSign (sign.text ++ (ds.text ++ rest)) = (sign.isMinus, ds.text ++ rest) := by
  cases sign with
  | plus => rfl
  | minus => rfl
  | none =>
    have hsign : ∀ c, c.isDigit = false → ds.first ≠ c := by
      rintro c hc rfl
      exact absurd ds.isDigit_first (by simp [hc])
    show exponentSign (ds.first :: (ds.others ++ rest)) = (false, ds.first :: (ds.others ++ rest))
    rw [exponentSign.eq_def]
    split
    · next heq => exact absurd (List.cons.inj heq).1 (hsign '+' rfl)
    · next heq => exact absurd (List.cons.inj heq).1 (hsign '-' rfl)
    · rfl

theorem steady_afterExponentLetter (negative : Bool) (n : Nat) (e : Int) (sign : Sign)
    (ds : DigitRow) : Steady (afterExponentLetter negative n e) (sign.text ++ ds.text) := by
  rcases takeExponent_row ds.isDigit_others (digitValue ds.first) with
    ⟨m, htake⟩ | ⟨left, hleft, htake⟩
  · rw [← List.append_nil (sign.text ++ ds.text)]
    refine steady_append _ ?_ (steady_real negative n (if sign.isMinus then e - m else e + m))
    intro rest hend
    rw [List.nil_append, afterExponentLetter, List.append_assoc, exponentSign_text]
    simp only [DigitRow.text, List.cons_append, ds.isDigit_first, if_true,
      htake rest (startsWithDigit_of_endsNumber hend)]
  · -- The exponent is beyond all: what is left of its digits is passed over.
    have hread : ∀ rest, EndsNumber rest →
        afterExponentLetter negative n e ((sign.text ++ ds.text) ++ rest) =
          if n ≠ 0 ∧ sign.isMinus = false then .error (.here .numberOutOfRange (left ++ rest))
          else .ok (.real (if negative then -0.0 else 0.0), rest) := by
      intro rest hend
      rw [afterExponentLetter, List.append_assoc, exponentSign_text]
      simp only [DigitRow.text, List.cons_append, ds.isDigit_first, if_true, htake rest,
        takeDigits_row hleft (startsWithDigit_of_endsNumber hend)]
    by_cases hrange : n ≠ 0 ∧ sign.isMinus = false
    · exact steady_of_error fun rest hend => ⟨_, by rw [hread rest hend, if_pos hrange]⟩
    · exact steady_of_ok _ fun rest hend => by rw [hread rest hend, if_neg hrange]

theorem steady_withExponent (negative : Bool) (n : Nat) (e : Int) (x : Option Exponent) :
    Steady (withExponent negative n e) (exponentText x) := by
  cases x with
  | none =>
    refine steady_append [] ?_ (steady_real negative n e)
    intro rest hend
    rw [List.nil_append, List.nil_append, withExponent.eq_def]
    split
    · exact absurd rfl (hend _ rfl).2.2.1
    · exact absurd rfl (hend _ rfl).2.2.2
    · rfl
  | some x =>
    refine steady_append [x.letter] ?_
      (steady_afterExponentLetter negative n e x.sign x.digits)
    intro rest _
    rcases x.isLetter with hletter | hletter <;> rw [hletter] <;> rfl

theorem startsWithDigit_exponentText (x : Option Exponent) (hend : EndsNumber rest) :
    startsWithDigit (exponentText x ++ rest) = false := by
  cases x with
  | none => exact startsWithDigit_of_endsNumber hend
  | some x =>
    show x.letter.isDigit = false
    rcases x.isLetter with hletter | hletter <;> rw [hletter] <;> rfl

/-- The digits behind the point lower the exponent, each of them that the significand takes by
one. -/
theorem afterPoint_row (negative : Bool) (n : Nat) (e : Int) (ds : DigitRow) :
    ∃ m e', ∀ rest, startsWithDigit rest = false →
      afterPoint negative n e (ds.text ++ rest) = withExponent negative m e' rest := by
  obtain ⟨m, left, hleft, hlength, htake⟩ := takeSignificand_row ds.isDigit n
  refine ⟨m, e - ((ds.text.length - left.length : Nat) : Int), fun rest hrest => ?_⟩
  have htaken : (ds.text ++ rest).length - (left ++ rest).length =
      ds.text.length - left.length := by
    rw [List.length_append, List.length_append]
    omega
  rw [afterPoint, htake rest hrest]
  simp only [htaken]
  by_cases hnil : left = []
  · have hpos : ¬ ds.text.length - left.length = 0 := by
      rw [hnil]
      exact Nat.succ_ne_zero _
    simp only [hnil, List.nil_append, hrest, Bool.false_eq_true, if_false]
    rw [if_neg (by simpa [hnil] using hpos)]
  · rw [if_pos (startsWithDigit_append hleft hnil rest), takeDigits_row hleft hrest]

theorem steady_afterPoint (negative : Bool) (n : Nat) (e : Int) (ds : DigitRow)
    (x : Option Exponent) : Steady (afterPoint negative n e) (ds.text ++ exponentText x) := by
  obtain ⟨m, e', hread⟩ := afterPoint_row negative n e ds
  refine steady_append _ ?_ (steady_withExponent negative m e' x)
  intro rest hend
  exact hread _ (startsWithDigit_exponentText x hend)

theorem startsWithDigit_fractionText (f : Option DigitRow) (x : Option Exponent)
    (hend : EndsNumber rest) : startsWithDigit (fractionText f x ++ rest) = false := by
  cases f with
  | none => exact startsWithDigit_exponentText x hend
  | some ds => rfl

theorem steady_afterWhole_end (negative : Bool) (n : Nat) : Steady (afterWhole negative n) [] := by
  have hread : ∀ rest, EndsNumber rest → afterWhole negative n ([] ++ rest) = _ :=
    fun rest hend => afterWhole_of_endsNumber negative n hend
  cases negative with
  | false => exact steady_of_ok _ hread
  | true =>
    by_cases hrange : 0 < n ∧ n ≤ maxNegated
    · exact steady_of_ok _ fun rest hend => by rw [hread rest hend, if_pos rfl, if_pos hrange]; rfl
    · exact steady_of_ok _ fun rest hend => by rw [hread rest hend, if_pos rfl, if_neg hrange]; rfl

theorem steady_afterWhole (negative : Bool) (n : Nat) (f : Option DigitRow)
    (x : Option Exponent) : Steady (afterWhole negative n) (fractionText f x) := by
  cases f with
  | some ds =>
    exact steady_append ['.'] (fun _ _ => rfl) (steady_afterPoint negative n 0 ds x)
  | none =>
    cases x with
    | none => exact steady_afterWhole_end negative n
    | some x =>
      refine steady_append [x.letter] ?_
        (steady_afterExponentLetter negative n 0 x.sign x.digits)
      intro rest _
      rcases x.isLetter with hletter | hletter <;> rw [hletter] <;> rfl

theorem exponentText_ne_point (x : Option Exponent) (hend : EndsNumber rest) (text : List Char) :
    exponentText x ++ rest ≠ '.' :: text := by
  intro heq
  cases x with
  | none =>
    rw [show rest = '.' :: text from heq] at hend
    exact absurd rfl (hend _ rfl).2.1
  | some x =>
    have hletter : x.letter = '.' := (List.cons.inj heq).1
    rcases x.isLetter with he | he <;> rw [he] at hletter <;> cases hletter

theorem steady_afterFull (negative : Bool) (n : Nat) {ds : List Char}
    (hds : ∀ c ∈ ds, c.isDigit = true) (f : Option DigitRow) (x : Option Exponent) :
    Steady (afterFull negative n) (ds ++ fractionText f x) := by
  cases f with
  | some y =>
    have hfront : ds ++ fractionText (some y) x = (ds ++ ['.']) ++ (y.text ++ exponentText x) :=
      (List.append_assoc ds ['.'] _).symm
    rw [hfront]
    refine steady_append _ ?_ (steady_afterPoint negative n ds.length y x)
    intro rest _
    rw [afterFull, List.append_assoc, takeDigits_row hds rfl]
    rfl
  | none =>
    show Steady (afterFull negative n) (ds ++ exponentText x)
    refine steady_append _ ?_ (steady_withExponent negative n ds.length x)
    intro rest hend
    rw [afterFull, takeDigits_row hds (startsWithDigit_exponentText x hend)]
    dsimp only
    split
    · next heq => exact absurd heq (exponentText_ne_point x hend _)
    · rfl

/-- A number is read the same way whatever stands behind it. -/
theorem steady_readNumber (negative : Bool) (n : Numeral) :
    Steady (readNumber negative) n.unsigned := by
  obtain ⟨m, left, hleft, -, htake⟩ :=
    takeSignificand_row n.whole.isDigit_others (digitValue n.whole.first)
  have hread : n.whole.first ≠ '0' → ∀ rest, startsWithDigit rest = false →
      readNumber negative (n.whole.text ++ rest) =
        if startsWithDigit (left ++ rest) then afterFull negative m (left ++ rest)
        else afterWhole negative m (left ++ rest) := by
    intro hzero rest hrest
    show readNumber negative (n.whole.first :: (n.whole.others ++ rest)) = _
    rw [readNumber.eq_def]
    split
    · next heq => cases heq
    · next heq => exact absurd (List.cons.inj heq).1 hzero
    · next heq =>
      obtain ⟨rfl, rfl⟩ := List.cons.inj heq
      rw [if_pos n.whole.isDigit_first, htake rest hrest]
  by_cases hzero : n.whole.first = '0'
  · -- A zero in front is the only digit before the point.
    have hwhole : n.whole.text = ['0'] := by
      rw [DigitRow.text, hzero, n.shortest hzero]
    rw [Numeral.unsigned, hwhole]
    refine steady_append _ ?_ (steady_afterWhole negative 0 n.fraction n.exponent)
    intro rest hend
    show readNumber negative ('0' :: (fractionText n.fraction n.exponent ++ rest)) = _
    rw [readNumber, startsWithDigit_fractionText n.fraction n.exponent hend]
    rfl
  · by_cases hnil : left = []
    · subst hnil
      refine steady_append _ ?_ (steady_afterWhole negative m n.fraction n.exponent)
      intro rest hend
      have hstart := startsWithDigit_fractionText n.fraction n.exponent hend
      rw [hread hzero _ hstart, List.nil_append, hstart]
      rfl
    · obtain ⟨a?, ha⟩ := steady_afterFull negative m hleft n.fraction n.exponent
      refine ⟨a?, fun rest hend => ?_⟩
      rw [Numeral.unsigned, List.append_assoc,
        hread hzero _ (startsWithDigit_fractionText n.fraction n.exponent hend),
        if_pos (startsWithDigit_append hleft hnil _), ← List.append_assoc]
      exact ha rest hend

/-! ## Values -/

theorem Numeral.steady_readHead (n : Numeral) : Steady readHead n.text := by
  rw [Numeral.text]
  cases n.negative with
  | true =>
    rw [if_pos rfl]
    obtain ⟨a?, ha⟩ := (steady_readNumber true n).map Head.number
    refine ⟨a?, fun rest hend => ?_⟩
    rw [List.cons_append, readHead_minus]
    exact ha rest hend
  | false =>
    rw [if_neg Bool.false_ne_true]
    obtain ⟨a?, ha⟩ := (steady_readNumber false n).map Head.number
    refine ⟨a?, fun rest hend => ?_⟩
    have hfirst := readHead_of_isDigit n.whole.isDigit_first
      (n.whole.others ++ fractionText n.fraction n.exponent ++ rest)
    exact (congrArg Except.toOption hfirst).trans (ha rest hend)

theorem steady_readHead_string (parts : List Part) : Steady readHead ('"' :: partsText parts) := by
  have hread : ∀ rest, readHead ('"' :: (partsText parts ++ rest)) =
      (unquote (partsText parts ++ rest)).map fun r => (.text r.1, r.2) := by
    intro rest
    unfold readHead
    rw [skipGap_cons rfl]
    show (unquote (partsText parts ++ rest)).bind _ = _
    cases unquote (partsText parts ++ rest) <;> rfl
  have hsteady : Steady unquote (partsText parts) :=
    ⟨decode parts, fun rest _ => unquote_parts parts rest⟩
  obtain ⟨a?, ha⟩ := hsteady.map Head.text
  refine ⟨a?, fun rest hend => ?_⟩
  rw [List.cons_append, hread]
  exact ha rest hend

/-- Whether a text is read up to an opening bracket and no further. -/
def OpensBracket (text : List Char) : Prop :=
  ∃ h inside, Head.isOpen h = true ∧ ∀ rest, readHead (text ++ rest) = .ok (h, inside ++ rest)

/-- A value is read to its end the same way whatever stands behind it, or it is a list or an
object. -/
theorem IsValue.head (h : IsValue text) : Steady readHead text ∨ OpensBracket text := by
  cases h with
  | wordNull => exact .inl (steady_of_ok .null fun rest _ => rfl)
  | wordTrue => exact .inl (steady_of_ok (.boolean true) fun rest _ => rfl)
  | wordFalse => exact .inl (steady_of_ok (.boolean false) fun rest _ => rfl)
  | number n => exact .inl n.steady_readHead
  | string parts => exact .inl (steady_readHead_string parts)
  | list gap elements _ => exact .inr ⟨.list, _, rfl, fun rest => rfl⟩
  | object gap members _ => exact .inr ⟨.object, _, rfl, fun rest => rfl⟩

/-! ## Readers of one value -/

variable {reader : List Char → Except Fault (α × List Char)} {take : Head → Option α}

/-- Whether a reader goes by the head of a value, and takes neither lists nor objects. -/
structure GoesByHead (reader : List Char → Except Fault (α × List Char))
    (take : Head → Option α) : Prop where
  toOption_eq : ∀ text, (reader text).toOption =
    (readHead text).toOption.bind fun r => (take r.1).map fun a => (a, r.2)
  no_bracket : ∀ h, Head.isOpen h = true → take h = none

theorem GoesByHead.steady (hreader : GoesByHead reader take) (h : IsValue text) :
    Steady reader text := by
  rcases h.head with ⟨head?, hhead⟩ | ⟨head, inside, hopen, hhead⟩
  · refine ⟨head?.bind take, fun rest hend => ?_⟩
    rw [hreader.toOption_eq, hhead rest hend]
    cases head? <;> rfl
  · refine ⟨none, fun rest _ => ?_⟩
    rw [hreader.toOption_eq, hhead rest]
    show (take head).map _ = none
    rw [hreader.no_bracket head hopen]
    rfl

theorem GoesByHead.gap (hreader : GoesByHead reader take) {gap : List Char} (hgap : AllGap gap)
    (text : List Char) : (reader (gap ++ text)).toOption = (reader text).toOption := by
  rw [hreader.toOption_eq, hreader.toOption_eq, readHead_gap hgap]

theorem goesByHead_accepted {expected : String} {accept : Head → Option (Except Cause α)}
    (h : ∀ head, Head.isOpen head = true → accept head = none) :
    GoesByHead (accepted expected accept) fun head => (accept head).bind Except.toOption where
  toOption_eq text := by
    rw [accepted]
    cases hread : readHead text with
    | error f => rfl
    | ok r =>
      simp only [bind, Except.bind, Except.toOption, Option.bind_some]
      cases accept r.1 with
      | none => rfl
      | some taken => cases taken <;> rfl
  no_bracket head hopen := by rw [h head hopen]; rfl

theorem accepts_no_bracket {accept : Head → Option (Except Cause α)} (hlist : accept .list = none)
    (hobject : accept .object = none) : ∀ head, Head.isOpen head = true → accept head = none := by
  intro head hopen
  cases head with
  | list => exact hlist
  | object => exact hobject
  | _ => cases hopen

theorem goesByHead_wholeNumber (lo hi : Int) (expected : String) :
    ∃ take, GoesByHead (wholeNumber lo hi expected) take :=
  ⟨_, goesByHead_accepted (accepts_no_bracket rfl rfl)⟩

theorem goesByHead_floatNumber : ∃ take, GoesByHead floatNumber take :=
  ⟨_, goesByHead_accepted (accepts_no_bracket rfl rfl)⟩

theorem goesByHead_stringValue : ∃ take, GoesByHead stringValue take :=
  ⟨_, goesByHead_accepted (accepts_no_bracket rfl rfl)⟩

/-! ## Values that may be missing -/

theorem IsValue.eq_null_or_startsValue (h : IsValue text) :
    text = ['n', 'u', 'l', 'l'] ∨ StartsValue text := by
  cases h with
  | wordNull => exact .inl rfl
  | wordTrue => exact .inr ⟨'t', _, rfl, rfl, by decide⟩
  | wordFalse => exact .inr ⟨'f', _, rfl, rfl, by decide⟩
  | string parts => exact .inr ⟨'"', _, rfl, rfl, by decide⟩
  | list gap elements _ => exact .inr ⟨'[', _, rfl, rfl, by decide⟩
  | object gap members _ => exact .inr ⟨'\x7b', _, rfl, rfl, by decide⟩
  | number n =>
    right
    rw [Numeral.text]
    split
    · exact ⟨'-', _, rfl, rfl, by decide⟩
    · have hdigit := n.whole.isDigit_first
      refine ⟨n.whole.first, _, rfl, not_isGap_of_isDigit hdigit, ?_⟩
      intro heq
      rw [heq] at hdigit
      cases hdigit

/-- Whether what a reader makes of a value depends neither on the gap before it nor on what stands
behind it. -/
structure ReadsValues (reader : List Char → Except Fault (α × List Char)) : Prop where
  steady : ∀ text, IsValue text → Steady reader text
  gap : ∀ gap text, AllGap gap → (reader (gap ++ text)).toOption = (reader text).toOption

namespace ReadsValues

theorem toOption_eq (h : ReadsValues reader) {gap : List Char} (hgap : AllGap gap)
    (hvalue : IsValue text) (hend : EndsNumber rest) :
    (reader (gap ++ (text ++ rest))).toOption = (outcome reader text).map fun a => (a, rest) := by
  rw [h.gap gap _ hgap]
  exact (h.steady text hvalue).toOption_eq hend

theorem map (h : ReadsValues reader) (g : α → β) :
    ReadsValues fun text => (reader text).map fun r => (g r.1, r.2) where
  steady text hvalue := (h.steady text hvalue).map g
  gap gap text hgap := by
    rw [toOption_map, toOption_map, h.gap gap text hgap]

end ReadsValues

/-- A value that may be missing is `null`, or is taken for what it is. -/
theorem GoesByHead.readsValues_nullable (hreader : GoesByHead reader take) :
    ReadsValues (nullable reader) where
  steady text hvalue := by
    rcases hvalue.eq_null_or_startsValue with rfl | hstart
    · exact steady_of_ok none fun rest _ => nullable_null allGap_nil rest
    · obtain ⟨a?, ha⟩ := hreader.steady hvalue
      refine ⟨a?.map some, fun rest hend => ?_⟩
      have hread : nullable reader (text ++ rest) = _ :=
        nullable_of_startsValue allGap_nil hstart rest
      rw [hread, toOption_map, List.nil_append, ha rest hend, Option.map_map, Option.map_map]
      rfl
  gap gap text hgap := by
    unfold nullable
    rw [skipGap_append hgap]
    split
    · rfl
    · rw [toOption_bind, toOption_bind, hreader.gap hgap]

end CompanyRegister.Json
