import CompanyRegister.Text.Digits

/-!
# The exact value of a double

A double is a whole number times a power of two, `m * 2 ^ q`. Everything that prints doubles or
compares them with whole numbers works on `m` and `q` in exact arithmetic.
-/

namespace CompanyRegister.Decimal

open Text

def twoPower (n : Nat) : Nat := Nat.pow 2 n

/-- What a double stands for. -/
inductive Reading
  | notANumber
  | infinite (negative : Bool)
  /-- The number `m * 2 ^ q`, negated when `negative`. -/
  | finite (negative : Bool) (m : Nat) (q : Int)
  deriving DecidableEq, Repr

/-- The sign, exponent and fraction fields of a double, read off its bits. -/
def readBits (bits : Nat) : Reading :=
  let negative := bits / twoPower 63 % 2 == 1
  let exponent : Nat := bits / twoPower 52 % twoPower 11
  let fraction : Nat := bits % twoPower 52
  if exponent = twoPower 11 - 1 then
    if fraction = 0 then .infinite negative else .notANumber
  else if exponent = 0 then .finite negative fraction (-1074)
  else .finite negative (twoPower 52 + fraction) ((exponent : Int) - 1075)

def read (x : Float) : Reading := readBits x.toBits.toNat

/-- A non-negative rational number, `num / den`. -/
structure Ratio where
  num : Nat
  den : Nat
  deriving DecidableEq, Repr

/-- The ratio `m * 2 ^ q`. -/
def Ratio.ofScaled (m : Nat) (q : Int) : Ratio :=
  if 0 ≤ q then ⟨m * twoPower q.toNat, 1⟩ else ⟨m, twoPower (-q).toNat⟩

def Ratio.shift (r : Ratio) (k : Int) : Ratio :=
  if 0 ≤ k then ⟨r.num * tenPower k.toNat, r.den⟩ else ⟨r.num, r.den * tenPower (-k).toNat⟩

/-- The whole number that `x` is, if it is one. -/
def toInt? (x : Float) : Option Int :=
  match read x with
  | .finite negative m q =>
    let r := Ratio.ofScaled m q
    if r.num % r.den = 0 then
      let n : Int := r.num / r.den
      some (if negative then -n else n)
    else none
  | _ => none

/-- Whether the number that `x` is lies between `low` and `high`, both included. -/
def isBetween (low high : Int) (x : Float) : Bool :=
  match read x with
  | .finite negative m q =>
    let r := Ratio.ofScaled m q
    let n : Int := if negative then -r.num else r.num
    low * r.den ≤ n && n ≤ high * r.den
  | _ => false

end CompanyRegister.Decimal
