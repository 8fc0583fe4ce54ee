import CompanyRegister.Decimal.Layout
import CompanyRegister.Store.Cell
import CompanyRegister.Store.Definition
import CompanyRegister.Store.Numeral

/-!
# Conversion of cells

A column converts a cell to its affinity where that loses nothing, so a text that is a numeral
becomes a number in a column of numbers, and a number becomes a text in a column of texts. Missing
values and bytes are never converted.

The checks of a column look at the converted cell.
-/

namespace CompanyRegister.Store

open Text

/-- Whether a whole number fits into 64 bits. -/
def fitsWord (n : Int) : Bool := Int64.minValue.toInt ≤ n && n ≤ Int64.maxValue.toInt

/-- The whole number that a double is, if it lies within 64 bits and is not the least of them. -/
def wholeOfFloat? (x : Float) : Option Int :=
  (Decimal.toInt? x).filter fun n => Int64.minValue.toInt < n && n ≤ Int64.maxValue.toInt

/-- A double in a column of doubles: there is one zero. -/
def plainZero (x : Float) : Float := if Decimal.toInt? x = some 0 then 0.0 else x

namespace Cell

/-- A double as a whole number if it is one. -/
def wholeIfExact (x : Float) : Cell :=
  match wholeOfFloat? x with
  | some n => int n
  | none => real x

def toInteger : Cell → Cell
  | real x => wholeIfExact x
  | text s =>
    match Numeral.parse? s.toList with
    | some n => if n.isWhole ∧ fitsWord n.toInt then int n.toInt else wholeIfExact n.toFloat
    | none => text s
  | c => c

def toReal : Cell → Cell
  | int n => real (Float.ofInt n)
  | real x => real (plainZero x)
  | text s =>
    match Numeral.parse? s.toList with
    | some n => real (plainZero n.toFloat)
    | none => text s
  | c => c

def toText : Cell → Cell
  | int n => text (String.ofList (signed n))
  | real x => text (String.ofList (Decimal.stored.text x))
  | c => c

end Cell

/-- The cell that a column of an affinity holds when it is given `c`. -/
def Affinity.convert : Affinity → Cell → Cell
  | integer, c => c.toInteger
  | real, c => c.toReal
  | text, c => c.toText
  | blob, c => c

/-- Whether a cell fulfils a check. Texts and bytes come after all numbers; the length of bytes is
their number. -/
def Check.admits : Check → Cell → Bool
  | _, .null => true
  | between low high, .int n => low ≤ n && n ≤ high
  | between low high, .real x => Decimal.isBetween low high x
  | between _ _, _ => false
  | maxLength n, .text s => (Cell.counted s).length ≤ n
  | maxLength n, .blob bytes => bytes.length ≤ n
  | maxLength n, .int k => (signed k).length ≤ n
  | maxLength n, .real x => (Decimal.stored.text x).length ≤ n

/-- The cell that an SQL literal stands for: a number, or a text in quotes. Any other literal is
missing. -/
def literalCell (sql : String) : Cell :=
  match sql.toList with
  | '\'' :: rest => .text (String.ofList (rest.takeWhile (· ≠ '\'')))
  | cs =>
    match Numeral.parse? cs with
    | some n => if n.isWhole ∧ fitsWord n.toInt then .int n.toInt else .real n.toFloat
    | none => .null

end CompanyRegister.Store
