import CompanyRegister.Text.Digits
import CompanyRegister.Json.Fault

/-!
# Numbers in JSON documents

A number without point and exponent is a whole number if it fits: up to `2 ^ 64 - 1` above zero and
down to `- 2 ^ 63` below. Every other number, and a zero below zero, is a double.

A double is worked out from a significand of at most 64 bits and a power of ten. Digits that the
significand has no room for are left out: before the point each of them raises the exponent by one.
The significand is then multiplied with or divided by the power of ten in double arithmetic, which
rounds twice, so the result may be the neighbour of the nearest double.
-/

namespace CompanyRegister.Json

open Text

inductive Number
  | whole (n : Int)
  | real (x : Float)

/-- The largest significand: the largest whole number of 64 bits without a sign. -/
def maxSignificand : Nat := 18446744073709551615

/-- The size of the least whole number of 64 bits with a sign. -/
def maxNegated : Nat := 9223372036854775808

/-- The largest exponent that can be spelled. -/
def maxExponent : Nat := 2147483647

def startsWithDigit : List Char → Bool
  | c :: _ => c.isDigit
  | [] => false

/-- Read digits onto a significand for as long as it has room for the next. -/
def takeSignificand (significand : Nat) : List Char → Nat × List Char
  | [] => (significand, [])
  | c :: text =>
    let next := 10 * significand + digitValue c
    if c.isDigit && next ≤ maxSignificand then takeSignificand next text
    else (significand, c :: text)

/-- The double nearest to `10 ^ n`. -/
def powerOfTen (n : Nat) : Float := Float.ofScientific 1 false n

/-- A double times a power of ten, in steps of at most `10 ^ 308`; `none` beyond the doubles. -/
def scale? (x : Float) (e : Int) : Option Float :=
  if 308 < e then
    if x == 0.0 then some x else none
  else if 0 ≤ e then
    let y := x * powerOfTen e.toNat
    if y.isInf then none else some y
  else if -308 ≤ e then some (x / powerOfTen (-e).toNat)
  else if x == 0.0 then some x
  else scale? (x / powerOfTen 308) (e + 308)
termination_by e.natAbs
decreasing_by omega

/-- The number `significand * 10 ^ e` with its sign, at the end of its text. -/
def real (negative : Bool) (significand : Nat) (e : Int) (rest : List Char) : Reading Number :=
  match scale? (UInt64.ofNat significand).toFloat e with
  | some x => .ok (.real (if negative then -x else x), rest)
  | none => .error (.here .numberOutOfRange rest)

/-- Read the digits of an exponent; `none` when they pass the largest, with the rest behind the
digit that did. -/
def takeExponent (e : Nat) : List Char → Option Nat × List Char
  | [] => (some e, [])
  | c :: text =>
    if c.isDigit then
      let next := 10 * e + digitValue c
      if next ≤ maxExponent then takeExponent next text else (none, text)
    else (some e, c :: text)

/-- Whether an exponent is below zero, and the text without its sign. -/
def exponentSign : List Char → Bool × List Char
  | '+' :: text => (false, text)
  | '-' :: text => (true, text)
  | text => (false, text)

/-- Read what follows the letter of an exponent. -/
def afterExponentLetter (negative : Bool) (significand : Nat) (e : Int) (text : List Char) :
    Reading Number :=
  let (below, text) := exponentSign text
  match text with
  | [] => .error (.here .endInValue [])
  | c :: rest =>
    if c.isDigit then
      match takeExponent (digitValue c) rest with
      | (some n, rest) => real negative significand (if below then e - n else e + n) rest
      | (none, rest) =>
        if significand ≠ 0 ∧ below = false then .error (.here .numberOutOfRange rest)
        else .ok (.real (if negative then -0.0 else 0.0), (takeDigits rest).2)
    else .error (.next .invalidNumber text)

def withExponent (negative : Bool) (significand : Nat) (e : Int) (text : List Char) :
    Reading Number :=
  match text with
  | 'e' :: rest | 'E' :: rest => afterExponentLetter negative significand e rest
  | _ => real negative significand e text

def afterPoint (negative : Bool) (significand : Nat) (e : Int) (text : List Char) :
    Reading Number :=
  let (significand, rest) := takeSignificand significand text
  let taken := text.length - rest.length
  if startsWithDigit rest then withExponent negative significand (e - taken) (takeDigits rest).2
  else if taken = 0 then
    .error (if rest = [] then .here .endInValue [] else .next .invalidNumber rest)
  else withExponent negative significand (e - taken) rest

/-- Read what follows the digits before the point, when the significand has taken them all. -/
def afterWhole (negative : Bool) (significand : Nat) (text : List Char) : Reading Number :=
  match text with
  | '.' :: rest => afterPoint negative significand 0 rest
  | 'e' :: rest | 'E' :: rest => afterExponentLetter negative significand 0 rest
  | _ =>
    if negative then
      if 0 < significand ∧ significand ≤ maxNegated then .ok (.whole (-(significand : Int)), text)
      else .ok (.real (-(UInt64.ofNat significand).toFloat), text)
    else .ok (.whole significand, text)

/-- Read what is left of the digits before the point, when the significand has no room for it. -/
def afterFull (negative : Bool) (significand : Nat) (text : List Char) : Reading Number :=
  let (extra, rest) := takeDigits text
  match rest with
  | '.' :: rest => afterPoint negative significand extra.length rest
  | _ => withExponent negative significand extra.length rest

/-- Read a number behind its minus sign, if it has one. -/
def readNumber (negative : Bool) (text : List Char) : Reading Number :=
  match text with
  | [] => .error (.here .endInValue [])
  | '0' :: rest =>
    if startsWithDigit rest then .error (.next .invalidNumber rest)
    else afterWhole negative 0 rest
  | c :: rest =>
    if c.isDigit then
      let (significand, rest) := takeSignificand (digitValue c) rest
      if startsWithDigit rest then afterFull negative significand rest
      else afterWhole negative significand rest
    else .error (.next .invalidNumber text)

end CompanyRegister.Json
