import CompanyRegister.Calendar.Instant
import CompanyRegister.Money

/-!
# Company records

A record is what the register keeps of one company. Only the user who entered it and the time of
entry are always there. A record that has not been stored yet has no id.

Two rules hold for every stored record: the name is short enough, and the tax rate is a number.
`Company.validate` gives the first rule that a record breaks.
-/

namespace CompanyRegister

open Calendar

/-- The record of one company. -/
structure Company where
  companyId : Option Int16
  companyName : Option String
  baseRate : Option Money
  defaultCurrencyId : Option Int16
  enterUserId : Int32
  enterDate : Instant
  taxRate : Option Float
  companyGroupId : Option Int32

/-- A rule that an input or a record breaks. -/
inductive Violation
  | nameTooLong (max actual : Nat)
  | missingField (field : String)
  | invalidDate (field value : String)
  | nonFiniteNumber (field : String)
  | malformed (reason : String)
  deriving DecidableEq, Repr

def Violation.message : Violation → String
  | .nameTooLong max actual => s!"companyName must be at most {max} characters, got {actual}"
  | .missingField field => s!"{field} is required"
  | .invalidDate field value => s!"{field} must be a valid ISO 8601 date string, got `{value}`"
  | .nonFiniteNumber field => s!"{field} must be a finite number"
  | .malformed reason => s!"malformed company input: {reason}"

def Violation.messages (vs : List Violation) : String := "; ".intercalate (vs.map message)

namespace Company

/-- The most characters that a name may have. -/
def maxNameLength : Nat := 60

/-- The base rate of a record that was given none. -/
def initialBaseRate : Money := .zero

/-- The currency of a record that was given none. -/
def initialCurrencyId : Int16 := 1

def nameViolation? : Option String → Option Violation
  | some name =>
    if maxNameLength < name.length then some (.nameTooLong maxNameLength name.length) else none
  | none => none

def taxRateViolation? : Option Float → Option Violation
  | some rate => if rate.isFinite then none else some (.nonFiniteNumber "taxRate")
  | none => none

/-- A record without an id, entered by a user at a given time, with nothing else said. -/
def enteredAt (user : Int32) (date : Instant) : Company where
  companyId := none
  companyName := none
  baseRate := some initialBaseRate
  defaultCurrencyId := some initialCurrencyId
  enterUserId := user
  enterDate := date
  taxRate := none
  companyGroupId := none

def violation? (c : Company) : Option Violation :=
  nameViolation? c.companyName <|> taxRateViolation? c.taxRate

/-- Refuse a record that breaks a rule. -/
def validate (c : Company) : Except Violation Unit :=
  match c.violation? with
  | some v => .error v
  | none => .ok ()

end Company

end CompanyRegister
