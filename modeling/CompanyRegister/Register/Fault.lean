import CompanyRegister.Company.Record
import CompanyRegister.Store.Fault

/-!
# Faults of the register

Why an operation on the register fails: the record breaks a rule, the register does not allow what
was asked, the database is not ready, or a stored row cannot be read.
-/

namespace CompanyRegister.Register

inductive Fault
  | rule (v : Violation)
  | store (f : Store.Fault)
  | notFound (id : Int16)
  | idTaken (id : Int16)
  /-- A record without an id where one is needed. -/
  | idMissing
  /-- No small whole number is left above the largest id. -/
  | idsExhausted
  /-- A stored row that is no record. -/
  | unreadable (reason : String)
  | notUpToDate (expected actual : Nat)
  | tableMissing (table : String)
  | columnMissing (table column : String)
  deriving DecidableEq, Repr

def Fault.message : Fault → String
  | rule v => v.message
  | store f => f.message
  | notFound id => s!"company not found: {id}"
  | idTaken id => s!"company id already exists: {id}"
  | idMissing => "company has not been persisted yet (companyId is unset)"
  | idsExhausted => "no free smallint value left for a generated companyId"
  | unreadable reason => s!"invalid persisted company data: {reason}"
  | notUpToDate expected actual =>
    s!"connection is not initialized (expected schema version {expected}, got {actual})"
  | tableMissing table => s!"required table is missing: {table}"
  | columnMissing table column => s!"required column is missing: {table}.{column}"

end CompanyRegister.Register
