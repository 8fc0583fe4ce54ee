import CompanyRegister.Decimal.Double
import CompanyRegister.Text.Blank
import CompanyRegister.Text.Digits

/-!
# Numerals in text

A text stands for a number if it is a numeral between blanks: a sign, digits with at most one point,
and an exponent, all but the digits optional. A numeral of digits alone is a whole number if it fits
into 64 bits; every other one is a double, which in turn counts as the whole number that it is.
-/

namespace CompanyRegister.Store

open Text

/-- A decimal numeral, `significand * 10 ^ exponent`, negated when `negative`. -/
structure Numeral where
  negative : Bool
  significand : Nat
  exponent : Int
  /-- Whether it is spelled with digits alone. -/
  isWhole : Bool
  deriving DecidableEq, Repr

namespace Numeral

/-- The blanks around numerals. -/
def isBlank (c : Char) : Bool := c == ' ' || ('\t' ≤ c && c ≤ '\r')

/-- Whether a text begins with a minus sign, and the text without its sign. -/
def splitSign : List Char → Bool × List Char
  | '-' :: rest => (true, rest)
  | '+' :: rest => (false, rest)
  | text => (false, text)

/-- The digits behind a point, and the rest; without a point there are none. -/
def fraction : List Char → List Char × List Char
  | '.' :: rest => takeDigits rest
  | text => ([], text)

/-- The exponent that makes up the whole of a text; the empty text is the exponent nought. -/
def exponent? : List Char → Option Int
  | [] => some 0
  | c :: rest =>
    if c = 'e' ∨ c = 'E' then
      let (negative, ds) := splitSign rest
      if ds ≠ [] ∧ ds.all Char.isDigit then
        let n : Nat := value ds
        some (if negative then -n else n)
      else none
    else none

/-- The numeral that makes up the whole of a text, blanks aside. -/
def parse? (text : List Char) : Option Numeral :=
  let (negative, number) := splitSign (strip isBlank text)
  let (whole, rest) := takeDigits number
  let (decimals, tail) := fraction rest
  if whole = [] ∧ decimals = [] then none
  else (exponent? tail).map fun e =>
    { negative := negative
      significand := value (whole ++ decimals)
      exponent := e - decimals.length
      isWhole := rest.isEmpty }

/-- The largest power of ten that needs working out: beyond it every number is infinite, and below
its inverse nought. -/
def farPower : Nat := 400

/-- The double nearest to a numeral. -/
def toFloat (n : Numeral) : Float :=
  let top := n.exponent + (digits n.significand).length
  let x : Float :=
    if n.significand = 0 ∨ top < -farPower then 0.0
    else if farPower < top then Float.ofScientific 1 false farPower
    else Float.ofScientific n.significand (n.exponent < 0) n.exponent.natAbs
  if n.negative then -x else x

/-- The whole number that a numeral of digits alone spells. -/
def toInt (n : Numeral) : Int :=
  if n.negative then -(n.significand : Int) else n.significand

end Numeral

end CompanyRegister.Store
