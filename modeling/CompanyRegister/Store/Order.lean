import CompanyRegister.Decimal.Double
import CompanyRegister.Store.Cell
import CompanyRegister.Store.Definition

/-!
# Comparing cells

Cells of all kinds are in one order: missing values come first, then numbers, texts and bytes. A
whole number and a double are compared as the numbers that they are. Texts are in the order of their
characters, bytes in that of their values.

A number that is asked for in a column of texts is a text.
-/

namespace CompanyRegister.Decimal

/-- Whether the number that `x` is is at most `n`. -/
def isAtMost (n : Int) (x : Float) : Bool :=
  match read x with
  | .finite negative m q =>
    let r := Ratio.ofScaled m q
    (if negative then -(r.num : Int) else r.num) ≤ n * r.den
  | .infinite negative => negative
  | .notANumber => false

/-- Whether the number that `x` is is at least `n`. -/
def isAtLeast (n : Int) (x : Float) : Bool :=
  match read x with
  | .finite negative m q =>
    let r := Ratio.ofScaled m q
    n * r.den ≤ (if negative then -(r.num : Int) else r.num)
  | .infinite negative => !negative
  | .notANumber => false

end CompanyRegister.Decimal

namespace CompanyRegister.Store

open Text

namespace Cell

/-- Where the cells of a kind stand among those of other kinds. -/
def Kind.rank : Kind → Nat
  | null => 0
  | integer | real => 1
  | text => 2
  | blob => 3

def le : Cell → Cell → Bool
  | int n, int k => n ≤ k
  | int n, real y => Decimal.isAtLeast n y
  | real x, int k => Decimal.isAtMost k x
  | real x, real y => x ≤ y
  | text s, text t => s ≤ t
  | blob xs, blob ys => xs ≤ ys
  | a, b => a.kind.rank ≤ b.kind.rank

/-- Whether two cells are one value. A missing value is the same as no other. -/
def equals (a b : Cell) : Bool := !a.isNull && a.le b && b.le a

/-- Whether a cell is the number `n`, as a whole number or as a double. -/
def isNumber (n : Int) : Cell → Bool
  | int k => k == n
  | real x => Decimal.toInt? x == some n
  | _ => false

end Cell

/-- Whether a cell in a column of an affinity equals the number `n`. -/
def Affinity.isNumber (n : Int) : Affinity → Cell → Bool
  | text, .text s => s == String.ofList (signed n)
  | text, _ => false
  | _, c => c.isNumber n

end CompanyRegister.Store
