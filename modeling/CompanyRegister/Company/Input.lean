import CompanyRegister.Calendar.Written
import CompanyRegister.Company.Record

/-!
# Inputs

An input is what someone hands in to be recorded. Everything in it may be missing, and the date is
a text. `Input.violations` collects every rule that an input breaks, in the order of the fields; an
input without violations becomes a record by `Input.toCompany`.
-/

namespace CompanyRegister

open Calendar

/-- The fields of a record as they are handed in. -/
structure Input where
  companyId : Option Int16 := none
  companyName : Option String := none
  baseRate : Option Money := none
  defaultCurrencyId : Option Int16 := none
  enterUserId : Option Int32 := none
  enterDate : Option String := none
  taxRate : Option Float := none
  companyGroupId : Option Int32 := none

namespace Input

def userViolation? : Option Int32 → Option Violation
  | none => some (.missingField "enterUserId")
  | some _ => none

def dateViolation? : Option String → Option Violation
  | none => some (.missingField "enterDate")
  | some value =>
    match Instant.parse? value.toList with
    | none => some (.invalidDate "enterDate" value)
    | some _ => none

def violations (i : Input) : List Violation :=
  (Company.nameViolation? i.companyName).toList ++ (userViolation? i.enterUserId).toList ++
    (dateViolation? i.enterDate).toList ++ (Company.taxRateViolation? i.taxRate).toList

/-- Refuse an input that breaks a rule, with all that it breaks. -/
def validate (i : Input) : Except (List Violation) Unit :=
  match i.violations with
  | [] => .ok ()
  | vs => .error vs

/-- The record that an input describes once its user and date are known. A base rate and a currency
that it does not give take their initial values. -/
def record (i : Input) (user : Int32) (date : Instant) : Company :=
  { Company.enteredAt user date with
    companyId := i.companyId
    companyName := i.companyName
    baseRate := some (i.baseRate.getD Company.initialBaseRate)
    defaultCurrencyId := some (i.defaultCurrencyId.getD Company.initialCurrencyId)
    taxRate := i.taxRate
    companyGroupId := i.companyGroupId }

/-- The record that an input describes, or all rules that it breaks. -/
def toCompany (i : Input) : Except (List Violation) Company :=
  match i.violations with
  | [] =>
    match i.enterUserId, i.enterDate.bind fun value => Instant.parse? value.toList with
    | some user, some date => .ok (i.record user date)
    | none, _ => .error [.missingField "enterUserId"]
    | _, none => .error [.missingField "enterDate"]
  | vs => .error vs

end Input

end CompanyRegister
