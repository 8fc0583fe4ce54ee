import CompanyRegister.Decimal.Shortest

/-!
# Where the point and the exponent go

A layout says how the digits of a double are set: for which magnitudes the number is written out,
how the exponent of the others looks, whether a whole number keeps its point, and the names of what
is not a number. `Layout.text` is the one function that writes; each format of the library is one
value of `Layout`.
-/

namespace CompanyRegister.Decimal

open Text

structure Layout where
  /-- The digits to write: the fewest that read back, or a fixed count. -/
  choose : Nat → Int → Numeral
  /-- Whether a number `0.d₁d₂… * 10 ^ k` is written out, given `k`. -/
  writtenOut : Int → Bool
  /-- Whether a whole number that is written out ends in `.0`. -/
  wholeKeepsPoint : Bool
  /-- Whether a single digit before an exponent is followed by `.0`. -/
  mantissaKeepsPoint : Bool
  /-- The least count of exponent digits. -/
  exponentWidth : Nat
  /-- Whether the zero below zero keeps its sign. -/
  signedZero : Bool
  infinity : List Char

/-- Digits with the point after the first `k`, written out with zeros where digits are missing. -/
def writeOut (keepPoint : Bool) (ds : List Char) (k : Int) : List Char :=
  if k ≤ 0 then '0' :: '.' :: (List.replicate (-k).toNat '0' ++ ds)
  else
    let whole := ds.take k.toNat ++ List.replicate (k.toNat - ds.length) '0'
    match ds.drop k.toNat with
    | [] => if keepPoint then whole ++ ['.', '0'] else whole
    | fraction => whole ++ '.' :: fraction

/-- Digits with the point after the first, and the power of ten. -/
def writeScientific (keepPoint : Bool) (width : Nat) (ds : List Char) (k : Int) : List Char :=
  let mantissa := match ds with
    | [] => []
    | [d] => if keepPoint then [d, '.', '0'] else [d]
    | d :: fraction => d :: '.' :: fraction
  let e := k - 1
  mantissa ++ 'e' :: (if e < 0 then '-' else '+') :: padded width e.natAbs

def Layout.text (l : Layout) (x : Float) : List Char :=
  match read x with
  | .notANumber => ['N', 'a', 'N']
  | .infinite negative => (if negative then ['-'] else []) ++ l.infinity
  | .finite negative 0 _ =>
    (if negative && l.signedZero then ['-'] else []) ++
      if l.wholeKeepsPoint then ['0', '.', '0'] else ['0']
  | .finite negative m q =>
    let d := l.choose m q
    (if negative then ['-'] else []) ++
      if l.writtenOut d.point then writeOut l.wholeKeepsPoint d.figures d.point
      else writeScientific l.mantissaKeepsPoint l.exponentWidth d.figures d.point

/-- Numbers in documents: the fewest digits; written out from a hundred-thousandth up to sixteen
digits before the point, with an exponent beyond. -/
def document : Layout where
  choose := shortest .toEven
  writtenOut k := -5 < k && k ≤ 16
  wholeKeepsPoint := true
  mantissaKeepsPoint := false
  exponentWidth := 1
  signedZero := true
  infinity := ['i', 'n', 'f']

/-- Numbers in running text: the fewest digits, always written out. -/
def plain : Layout where
  choose := shortest .up
  writtenOut _ := true
  wholeKeepsPoint := false
  mantissaKeepsPoint := false
  exponentWidth := 1
  signedZero := true
  infinity := ['i', 'n', 'f']

/-- Numbers stored as text: fifteen digits; written out from a ten-thousandth up to fifteen digits
before the point. -/
def stored : Layout where
  choose := significant 15
  writtenOut k := -4 < k && k ≤ 15
  wholeKeepsPoint := true
  mantissaKeepsPoint := true
  exponentWidth := 2
  signedZero := false
  infinity := ['I', 'n', 'f']

end CompanyRegister.Decimal
