import CompanyRegister.Text.Blank
import CompanyRegister.Text.Digits

/-!
# Amounts of money

An amount is a whole number of ten-thousandths of the currency unit, so sums and comparisons are
exact. It is written with four decimal places and read from any plain decimal number with at most
four.

    text ──Money.parse──▶ Money ──Money.text──▶ text

Reading takes the magnitude first and the sign last. The most negative amount has a magnitude that
is no amount itself, so its text alone is refused as out of range.
-/

namespace CompanyRegister

/-- An amount, counted in ten-thousandths of the currency unit. -/
structure Money where
  units : Int64
  deriving DecidableEq, Repr

namespace Money

open Text

/-- Ten-thousandths in one currency unit. -/
def scale : Nat := 10000

def places : Nat := 4

def zero : Money := ⟨0⟩

/-- A number in 64 bits with a sign, if there is room for it. -/
def word64? (n : Int) : Option Int64 :=
  if Int64.minValue.toInt ≤ n ∧ n ≤ Int64.maxValue.toInt then some (Int64.ofInt n) else none

/-- The amount of `n` ten-thousandths, if it is one. -/
def ofUnits? (n : Int) : Option Money := (word64? n).map Money.mk

/-- The amount of `n` whole currency units, if it is one. -/
def ofWhole? (n : Int) : Option Money := ofUnits? (n * scale)

/-- The amount nearest to a floating point number; a half goes away from zero.

The number of ten-thousandths is compared with the bounds as a floating point number. The upper
bound is not one and counts as the next one, `2 ^ 63`, which then stands for the largest amount. -/
def ofFloat? (x : Float) : Option Money :=
  if x.isFinite then
    let scaled := (x * 10000.0).round
    if scaled < -9223372036854775808.0 || scaled > 9223372036854775808.0 then none
    else some ⟨scaled.toInt64⟩
  else none

/-! ### Writing -/

/-- The amount with its sign, the whole part, a point and four decimal places. -/
def text (m : Money) : List Char :=
  let magnitude := m.units.toInt.natAbs
  (if m.units.toInt < 0 then ['-'] else []) ++ digits (magnitude / scale) ++ '.' ::
    padded places (magnitude % scale)

/-! ### Reading -/

/-- Why a text is no amount. All but the first carry the text without its outer blanks. -/
inductive ParseError
  | empty
  | invalid (text : String)
  | tooPrecise (text : String)
  | outOfRange (text : String)
  deriving DecidableEq, Repr

def ParseError.message : ParseError → String
  | .empty => "money amount cannot be empty"
  | .invalid text => s!"invalid money amount `{text}`"
  | .tooPrecise text => s!"money amount `{text}` has more than 4 decimal places"
  | .outOfRange text => s!"money amount `{text}` is out of range"

/-- Whether a text begins with a minus sign, and the text without its sign. -/
def splitSign : List Char → Bool × List Char
  | '-' :: rest => (true, rest)
  | '+' :: rest => (false, rest)
  | text => (false, text)

/-- What stands before and after the first point; without a point nothing stands after it. -/
def splitPoint : List Char → List Char × List Char
  | [] => ([], [])
  | '.' :: rest => ([], rest)
  | c :: rest => (c :: (splitPoint rest).1, (splitPoint rest).2)

/-- A number in 64 bits with a sign; `e` if there is no room for it. -/
def checked (e : ParseError) (n : Int) : Except ParseError Int64 :=
  match word64? n with
  | some w => .ok w
  | none => .error e

/-- Digits after the point with zeros behind them, up to all four places. -/
def fillPlaces (fraction : List Char) : List Char :=
  fraction ++ List.replicate (places - fraction.length) '0'

/-- Ten-thousandths in the number that `t` gives by its digits before and after the point. They are
worked out in 64 bits, and every step is checked. -/
def magnitude (t whole fraction : List Char) : Except ParseError Int64 := do
  let wholeUnits ← checked (.outOfRange (String.ofList t)) (value whole)
  let fractionUnits ← checked (.invalid (String.ofList t)) (value (fillPlaces fraction))
  let scaled ← checked (.outOfRange (String.ofList t)) (wholeUnits.toInt * scale)
  checked (.outOfRange (String.ofList t)) (scaled.toInt + fractionUnits.toInt)

/-- Read an amount from a text without outer blanks. -/
def parseTrimmed (t : List Char) : Except ParseError Money :=
  let (negative, number) := splitSign t
  let (whole, fraction) := splitPoint number
  if t = [] then .error .empty
  else if (whole = [] ∧ fraction = []) ∨ ¬ (whole ++ fraction).all Char.isDigit then
    .error (.invalid (String.ofList t))
  else if places < fraction.length then .error (.tooPrecise (String.ofList t))
  else do
    let m ← magnitude t whole fraction
    return ⟨if negative then -m else m⟩

/-- Read an amount: outer blanks, an optional sign, digits, and at most one point with at most four
digits after it. -/
def parse (s : List Char) : Except ParseError Money := parseTrimmed (trim s)

def sort (ms : List Money) : List Money := ms.mergeSort fun a b => a.units ≤ b.units

end Money

end CompanyRegister
