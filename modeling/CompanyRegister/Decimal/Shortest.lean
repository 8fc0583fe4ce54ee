import CompanyRegister.Decimal.Double

/-!
# The fewest digits that read back

Many decimals round to the same double: all those in an interval around it. `shortest` finds one
with as few digits as possible and, among those, the nearest. For each count of digits the
candidates are the two neighbours of the double on that decimal grid; if any point of the grid lies
in the interval, one of the neighbours does.

`significant` keeps a given count of digits instead and rounds the rest away.
-/

namespace CompanyRegister.Decimal

open Text

/-- A positive decimal number: `0.d₁d₂…dₙ` times `10 ^ point`, with `d₁` and `dₙ` not zero. -/
structure Numeral where
  figures : List Char
  point : Int
  deriving DecidableEq, Repr

/-- Which of two equally near neighbours is taken. -/
inductive Tie
  | toEven
  | up
  deriving DecidableEq, Repr

/-- The least `j ≤ fuel` for which `num * 10 ^ j` reaches `den`. -/
def leadingZeros (num den : Nat) : Nat → Nat
  | 0 => 0
  | fuel + 1 => if den ≤ num then 0 else leadingZeros (num * 10) den fuel + 1

/-- The `k` with `10 ^ (k - 1) ≤ r < 10 ^ k`, for a positive ratio that no double is below. -/
def Ratio.point (r : Ratio) : Int :=
  if r.den ≤ r.num then (digits (r.num / r.den)).length
  else 1 - (leadingZeros r.num r.den 400 : Int)

/-- The decimal `c * 10 ^ k`, written without trailing zeros. -/
def Numeral.ofScaled (c : Nat) (k : Int) : Numeral :=
  let ds := digits c
  ⟨(ds.reverse.dropWhile (· == '0')).reverse, ds.length + k⟩

/-- The reals that round to a double, as ratios: the ends, the double itself, and whether the ends
belong to it. -/
structure Interval where
  lower : Ratio
  centre : Ratio
  upper : Ratio
  closed : Bool

/-- The interval around `m * 2 ^ q`. Below a power of two the neighbours are half as far apart. -/
def interval (m : Nat) (q : Int) : Interval :=
  let below := if m = twoPower 52 ∧ -1074 < q then 1 else 2
  ⟨.ofScaled (4 * m - below) (q - 2), .ofScaled (4 * m) (q - 2), .ofScaled (4 * m + 2) (q - 2),
    m % 2 == 0⟩

def Interval.holds (i : Interval) (c : Nat) : Bool :=
  let low := c * i.lower.den
  let high := c * i.upper.den
  if i.closed then i.lower.num ≤ low && high ≤ i.upper.num
  else i.lower.num < low && high < i.upper.num

def Interval.shift (i : Interval) (k : Int) : Interval :=
  ⟨i.lower.shift k, i.centre.shift k, i.upper.shift k, i.closed⟩

/-- The neighbour of the centre, among the whole numbers in the interval, that is nearest to it. -/
def Interval.nearest? (i : Interval) (tie : Tie) : Option Nat :=
  let c := i.centre.num / i.centre.den
  let twice := 2 * (i.centre.num % i.centre.den)
  let upper :=
    i.centre.den < twice ||
      (i.centre.den == twice && (match tie with | .toEven => c % 2 == 1 | .up => true))
  match i.holds c, i.holds (c + 1) with
  | true, true => some (if upper then c + 1 else c)
  | true, false => some c
  | false, true => some (c + 1)
  | false, false => none

/-- Try `n`, `n + 1`, … digits, at most `fuel` counts. -/
def shortestFrom (i : Interval) (tie : Tie) (point : Int) : Nat → Nat → Numeral
  | _, 0 => ⟨[], 0⟩
  | n, fuel + 1 =>
    match (i.shift (n - point)).nearest? tie with
    | some c => .ofScaled c (point - n)
    | none => shortestFrom i tie point (n + 1) fuel

/-- The shortest decimal that reads back as `m * 2 ^ q`; seventeen digits always do. -/
def shortest (tie : Tie) (m : Nat) (q : Int) : Numeral :=
  let i := interval m q
  shortestFrom i tie i.centre.point 1 17

/-- `m * 2 ^ q` rounded to `count` digits, a half upward. -/
def significant (count : Nat) (m : Nat) (q : Int) : Numeral :=
  let r := Ratio.ofScaled m q
  let k : Int := count - r.point
  let s := r.shift k
  .ofScaled ((2 * s.num + s.den) / (2 * s.den)) (-k)

end CompanyRegister.Decimal
