import Mathlib.Algebra.Order.Field.Basic
import Mathlib.Data.Nat.Digits.Lemmas
import Mathlib.Data.Rat.Cast.Order
import CompanyRegister.Proofs.InOrder
import CompanyRegister.Proofs.Money.RoundTrip

/-!
# The decimal grammar of amounts

An amount is written as a decimal numeral: an optional sign, digits, and at most one point, with at
least one digit before or behind it (`Numeral`). A numeral has a text, and by its digits a value,
which is a rational number and may be anything; nothing in the first section says how a text is
read.

What reading comes to is a matter of the numeral alone (`Reads`): `parse s = r ↔ Reads (trim s) r`.
-/

namespace CompanyRegister.Money

open Text

/-! ## Numerals -/

inductive Sign
  | plus
  | minus
  deriving DecidableEq

def Sign.char : Sign → Char
  | plus => '+'
  | minus => '-'

def signText : Option Sign → List Char
  | none => []
  | some s => [s.char]

/-- A point and the digits behind it, or nothing. -/
def pointText : Option (List Char) → List Char
  | none => []
  | some ds => '.' :: ds

/-- A decimal numeral. Digits may be missing before the point or behind it, but not both. -/
structure Numeral where
  sign : Option Sign
  whole : List Char
  fraction : Option (List Char)
  isDigit : ∀ c ∈ whole ++ fraction.getD [], c.isDigit = true
  ne_nil : whole ++ fraction.getD [] ≠ []

namespace Numeral

variable (n : Numeral)

def text : List Char := signText n.sign ++ (n.whole ++ pointText n.fraction)

/-- The digits behind the point. -/
def decimals : List Char := n.fraction.getD []

/-- The number that a numeral stands for: that of all its digits, by the power of ten for those
behind the point, and with its sign. -/
def value : ℚ :=
  (if n.sign = some .minus then -1 else 1) *
    ((Nat.ofDigits 10 ((n.whole ++ n.decimals).map digitValue).reverse : ℕ) /
      10 ^ n.decimals.length)

end Numeral

/-- What reading a text without outer blanks comes to. -/
inductive Reads (t : List Char) : Except ParseError Money → Prop
  | empty : t = [] → Reads t (.error .empty)
  | invalid : t ≠ [] → (∀ n : Numeral, n.text ≠ t) → Reads t (.error (.invalid (String.ofList t)))
  | tooPrecise {n : Numeral} : n.text = t → 4 < n.decimals.length →
      Reads t (.error (.tooPrecise (String.ofList t)))
  | outOfRange {n : Numeral} : n.text = t → n.decimals.length ≤ 4 →
      (Int64.maxValue.toInt : ℚ) < |n.value| * 10000 →
        Reads t (.error (.outOfRange (String.ofList t)))
  | amount {n : Numeral} {m : Money} : n.text = t → n.decimals.length ≤ 4 →
      |n.value| * 10000 ≤ (Int64.maxValue.toInt : ℚ) → (m.units.toInt : ℚ) = n.value * 10000 →
        Reads t (.ok m)

/-! ## Parts of a text -/

/-- A text is taken apart into a sign and the rest, and put together again from them. -/
theorem exists_sign (t : List Char) : ∃ sign, t = signText sign ++ (splitSign t).2 := by
  rw [splitSign.eq_def]
  split
  · exact ⟨some .minus, rfl⟩
  · exact ⟨some .plus, rfl⟩
  · exact ⟨none, rfl⟩

/-- A number is taken apart into the digits before and after its point, and put together again from
them. -/
theorem exists_fraction (text : List Char) :
    ∃ fraction, text = (splitPoint text).1 ++ pointText fraction ∧
      (splitPoint text).2 = fraction.getD [] := by
  fun_induction splitPoint text with
  | case1 => exact ⟨none, rfl, rfl⟩
  | case2 rest => exact ⟨some rest, rfl, rfl⟩
  | case3 c rest _ ih =>
    obtain ⟨fraction, htext, hfraction⟩ := ih
    exact ⟨fraction, congrArg (c :: ·) htext, hfraction⟩

theorem splitPoint_of_digits {whole : List Char} (h : ∀ c ∈ whole, c.isDigit = true) :
    splitPoint whole = (whole, []) := by
  fun_induction splitPoint whole with
  | case1 => rfl
  | case2 rest => exact absurd (h '.' List.mem_cons_self) (by decide)
  | case3 c rest _ ih => rw [ih fun d hd => h d (List.mem_cons_of_mem c hd)]

namespace Numeral

variable (n : Numeral)

theorem isDigit_whole : ∀ c ∈ n.whole, c.isDigit = true :=
  fun c hc => n.isDigit c (List.mem_append_left _ hc)

theorem isDigit_decimals : ∀ c ∈ n.decimals, c.isDigit = true :=
  fun c hc => n.isDigit c (List.mem_append_right _ hc)

theorem splitPoint_unsigned :
    splitPoint (n.whole ++ pointText n.fraction) = (n.whole, n.decimals) := by
  rw [decimals]
  cases n.fraction with
  | none =>
    rw [pointText, List.append_nil]
    exact splitPoint_of_digits n.isDigit_whole
  | some ds => exact splitPoint_append n.isDigit_whole ds

/-- Behind its sign a numeral begins with a digit or its point. -/
theorem splitSign_text :
    splitSign n.text = (decide (n.sign = some .minus), n.whole ++ pointText n.fraction) := by
  rw [text]
  cases n.sign with
  | some s => cases s <;> rfl
  | none =>
    have hne := n.ne_nil
    have hdigit := n.isDigit_whole
    cases hwhole : n.whole with
    | cons c whole =>
      rw [hwhole] at hdigit
      exact splitSign_of_isDigit (hdigit c List.mem_cons_self) _
    | nil =>
      rw [hwhole] at hne
      cases hfraction : n.fraction with
      | some ds => rfl
      | none =>
        rw [hfraction] at hne
        exact absurd rfl hne

theorem text_ne_nil : n.text ≠ [] := by
  intro h
  have hsplit := n.splitSign_text
  rw [h] at hsplit
  obtain ⟨hwhole, hpoint⟩ := List.append_eq_nil_iff.mp (congrArg Prod.snd hsplit).symm
  apply n.ne_nil
  cases hfraction : n.fraction with
  | none => rw [hwhole]; rfl
  | some ds =>
    rw [hfraction] at hpoint
    cases hpoint

/-! ## Values -/

theorem ofDigits_reverse (ds : List Char) :
    Nat.ofDigits 10 (ds.map digitValue).reverse = Text.value ds := by
  induction ds with
  | nil => rfl
  | cons c ds ih =>
    rw [List.map_cons, List.reverse_cons, Nat.ofDigits_append, ih, Nat.ofDigits_singleton,
      List.length_reverse, List.length_map, value_cons, Nat.add_comm, Nat.mul_comm]
    rfl

theorem tenPower_eq (k : Nat) : tenPower k = 10 ^ k := rfl

/-- A numeral with no more than four decimals stands for a whole number of ten-thousandths. -/
theorem value_mul (h : n.decimals.length ≤ places) :
    n.value * 10000 =
      (if n.sign = some .minus then -1 else 1) * (tenThousandths n.whole n.decimals : ℚ) := by
  have hplaces : (10 : ℚ) ^ n.decimals.length * 10 ^ (places - n.decimals.length) = 10000 := by
    rw [← pow_add, Nat.add_sub_cancel' h]
    norm_num [places]
  have hne : (10 : ℚ) ^ n.decimals.length ≠ 0 := pow_ne_zero _ (by norm_num)
  rw [Numeral.value, ofDigits_reverse, value_append, tenThousandths, tenPower_eq, tenPower_eq,
    mul_assoc]
  congr 1
  rw [div_mul_eq_mul_div, div_eq_iff hne]
  push_cast [scale]
  rw [← hplaces]
  ring

theorem abs_value_mul (h : n.decimals.length ≤ places) :
    |n.value| * 10000 = (tenThousandths n.whole n.decimals : ℚ) := by
  have hmul : |n.value| * 10000 = |n.value * 10000| := by
    rw [abs_mul]
    norm_num
  rw [hmul, n.value_mul h, abs_mul, Nat.abs_cast]
  split <;> norm_num

/-! ## Reading -/

/-- How a numeral is read: it has to have no more than four decimals, and no more ten-thousandths
than an amount may have. -/
theorem parseTrimmed_text :
    parseTrimmed n.text =
      if places < n.decimals.length then .error (.tooPrecise (String.ofList n.text))
      else if Int64.maxValue.toInt < tenThousandths n.whole n.decimals then
        .error (.outOfRange (String.ofList n.text))
      else .ok ⟨Int64.ofInt (if n.sign = some .minus then -tenThousandths n.whole n.decimals
        else tenThousandths n.whole n.decimals)⟩ := by
  have hdigits : (n.whole ++ n.decimals).all Char.isDigit = true :=
    List.all_eq_true.mpr n.isDigit
  have hne : ¬ (n.whole = [] ∧ n.decimals = []) :=
    fun h => n.ne_nil (List.append_eq_nil_iff.mpr h)
  rw [parseTrimmed, splitSign_text]
  simp only [splitPoint_unsigned, n.text_ne_nil, hne, hdigits, not_true, or_self, if_false,
    decide_eq_true_eq]
  split
  · rfl
  · next hplaces =>
    rw [magnitude_eq _ _ n.isDigit_decimals (Nat.not_lt.mp hplaces)]
    split
    · rfl
    · show Except.ok _ = Except.ok _
      split
      · rw [Int64.ofInt_neg]
      · rfl

end Numeral

/-- A text of digits around at most one point, with an optional sign before them, is that of a
numeral. -/
theorem exists_numeral {t : List Char}
    (hne : (splitPoint (splitSign t).2).1 ++ (splitPoint (splitSign t).2).2 ≠ [])
    (hdigits : ∀ c ∈ (splitPoint (splitSign t).2).1 ++ (splitPoint (splitSign t).2).2,
      c.isDigit = true) : ∃ n : Numeral, n.text = t := by
  obtain ⟨sign, hsign⟩ := exists_sign t
  obtain ⟨fraction, hpoint, hfraction⟩ := exists_fraction (splitSign t).2
  rw [hfraction] at hne hdigits
  refine ⟨⟨sign, (splitPoint (splitSign t).2).1, fraction, hdigits, hne⟩, ?_⟩
  rw [Numeral.text, ← hpoint, ← hsign]

theorem parseTrimmed_of_not_numeral {t : List Char} (hne : t ≠ [])
    (h : ∀ n : Numeral, n.text ≠ t) : parseTrimmed t = .error (.invalid (String.ofList t)) := by
  rw [parseTrimmed]
  simp only [if_neg hne]
  apply if_pos
  by_contra hparts
  obtain ⟨hsome, hall⟩ := not_or.mp hparts
  obtain ⟨n, hn⟩ := exists_numeral (mt List.append_eq_nil_iff.mp hsome)
    (List.all_eq_true.mp (not_not.mp hall))
  exact h n hn

/-- The ten-thousandths of a numeral with its sign, as a word of 64 bits if there is room. -/
theorem toInt_signed {k : Nat} (negative : Prop) [Decidable negative]
    (h : (k : Int) ≤ Int64.maxValue.toInt) :
    (Int64.ofInt (if negative then -k else k)).toInt = if negative then -(k : Int) else k := by
  rw [maxValue_toInt] at h
  apply Int64.toInt_ofInt_of_le
  · split <;> omega
  · split <;> omega

/-- Every text has an outcome, and reading finds it. -/
theorem reads_parseTrimmed (t : List Char) : Reads t (parseTrimmed t) := by
  by_cases hempty : t = []
  · rw [hempty]
    exact .empty rfl
  by_cases hnumeral : ∃ n : Numeral, n.text = t
  case neg =>
    have hnone : ∀ n : Numeral, n.text ≠ t := fun n hn => hnumeral ⟨n, hn⟩
    rw [parseTrimmed_of_not_numeral hempty hnone]
    exact .invalid hempty hnone
  obtain ⟨n, rfl⟩ := hnumeral
  rw [n.parseTrimmed_text]
  split
  case isTrue hplaces => exact .tooPrecise rfl hplaces
  next hplaces =>
  have hplaces' : n.decimals.length ≤ places := Nat.not_lt.mp hplaces
  have habs := n.abs_value_mul hplaces'
  split
  case isTrue hrange =>
    apply Reads.outOfRange rfl hplaces'
    rw [habs]
    exact_mod_cast hrange
  next hrange =>
  have hrange' : (tenThousandths n.whole n.decimals : Int) ≤ Int64.maxValue.toInt :=
    Int.not_lt.mp hrange
  apply Reads.amount rfl hplaces'
  · rw [habs]
    exact_mod_cast hrange'
  · rw [toInt_signed _ hrange', n.value_mul hplaces']
    split <;> push_cast <;> ring

/-- No text has another outcome. -/
theorem parseTrimmed_of_reads {t : List Char} {r : Except ParseError Money} (h : Reads t r) :
    parseTrimmed t = r := by
  cases h with
  | empty ht =>
    rw [ht]
    rfl
  | invalid hne hnone => exact parseTrimmed_of_not_numeral hne hnone
  | @tooPrecise n ht h =>
    subst ht
    have hplaces : places < n.decimals.length := h
    rw [n.parseTrimmed_text, if_pos hplaces]
  | @outOfRange n ht h hrange =>
    subst ht
    have hplaces : n.decimals.length ≤ places := h
    rw [n.abs_value_mul hplaces] at hrange
    rw [n.parseTrimmed_text, if_neg (Nat.not_lt.mpr hplaces), if_pos (by exact_mod_cast hrange)]
  | @amount n m ht h hrange hm =>
    subst ht
    have hplaces : n.decimals.length ≤ places := h
    rw [n.abs_value_mul hplaces] at hrange
    have hrange' : (tenThousandths n.whole n.decimals : Int) ≤ Int64.maxValue.toInt := by
      exact_mod_cast hrange
    rw [n.parseTrimmed_text, if_neg (Nat.not_lt.mpr hplaces), if_neg (Int.not_lt.mpr hrange')]
    rw [n.value_mul hplaces] at hm
    obtain ⟨units⟩ := m
    congr 2
    rw [← Int64.toInt_inj, toInt_signed _ hrange']
    have hcast : ((if n.sign = some .minus then -(tenThousandths n.whole n.decimals : Int)
        else tenThousandths n.whole n.decimals : Int) : ℚ) = units.toInt := by
      rw [hm]
      split <;> push_cast <;> ring
    exact_mod_cast hcast

/-! ## Steps in 64 bits -/

/-- The steps that are checked are exact. -/
theorem toInt_magnitude {t whole fraction : List Char} {m : Int64}
    (h : magnitude t whole fraction = .ok m) :
    m.toInt = value whole * scale + value (fillPlaces fraction) := by
  obtain ⟨wholeUnits, hwhole, h⟩ := exists_of_bind_eq_ok h
  obtain ⟨fractionUnits, hfraction, h⟩ := exists_of_bind_eq_ok h
  obtain ⟨scaled, hscaled, h⟩ := exists_of_bind_eq_ok h
  rw [toInt_of_checked h, toInt_of_checked hscaled, toInt_of_checked hwhole,
    toInt_of_checked hfraction]

/-- The step that puts the sign on is not checked, but it has room, as a magnitude is never
negative. -/
theorem toInt_neg_magnitude {t whole fraction : List Char} {m : Int64}
    (h : magnitude t whole fraction = .ok m) : (-m).toInt = -m.toInt := by
  have hlow : 0 ≤ m.toInt := by
    rw [toInt_magnitude h]
    positivity
  have hhigh := Int64.toInt_lt m
  rw [Int64.toInt_neg]
  apply Int.bmod_eq_of_le <;> omega

/-- Amounts are read by their grammar: a text without outer blanks is empty, no numeral, a numeral
with too many decimals, one whose value is out of range, or one that is read as exactly its value.
No step of it overflows: all but the last are checked, and the last has room for its result. -/
theorem parse_eq_iff_reads (s : List Char) :
    (∀ r, parse s = r ↔ Reads (trim s) r) ∧
      ∀ t whole fraction m, magnitude t whole fraction = .ok m → (-m).toInt = -m.toInt := by
  refine ⟨fun r => ⟨?_, parseTrimmed_of_reads⟩, fun _ _ _ _ => toInt_neg_magnitude⟩
  rintro rfl
  exact reads_parseTrimmed (trim s)

end CompanyRegister.Money
