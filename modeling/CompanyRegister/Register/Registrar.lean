import CompanyRegister.Company.Input
import CompanyRegister.Register.Operations

/-!
# The registrar

The registrar takes inputs and records to a repository. An input is refused with all the rules that
it breaks before anything is written; what was written is read back, and it is the record as it is
kept that is handed out.
-/

namespace CompanyRegister.Registrar

open Store Register

inductive Deed
  | registered
  | updated
  deriving DecidableEq, Repr

def Deed.word : Deed → String
  | registered => "registered"
  | updated => "updated"

inductive Fault
  | rejected (vs : List Violation)
  | register (f : Register.Fault)
  /-- The repository does not find what it has just written. -/
  | lost (deed : Deed)
  deriving DecidableEq, Repr

def Fault.message : Fault → String
  | rejected vs =>
    let reasons := Violation.messages vs
    s!"company input rejected: {reasons}"
  | register f => f.message
  | lost deed =>
    s!"inconsistent company state: {deed.word} company not found in read-back"

/-- The record of an id as it is kept after a deed. -/
def readBack (r : Repository) (deed : Deed) (id : Int16) (d : Database) : Outcome Fault Company :=
  ((r.find id d).mapError .register).andThen fun found d =>
    .ofAnswer d (match found with
      | some c => .ok c
      | none => .error (.lost deed))

def register (r : Repository) (i : Input) (d : Database) : Outcome Fault Company :=
  match i.toCompany with
  | .error vs => ⟨.error (.rejected vs), d, [.inputRejected vs.length]⟩
  | .ok c => ((r.create c d).mapError .register).andThen (readBack r .registered)

def update (r : Repository) (c : Company) (d : Database) : Outcome Fault Company :=
  ((r.update c d).mapError .register).andThen fun _ d =>
    match c.companyId with
    | none => .ofAnswer d (.error (.register .idMissing))
    | some id => readBack r .updated id d

def get (r : Repository) (id : Int16) (d : Database) : Outcome Fault (Option Company) :=
  (r.find id d).mapError .register

def list (r : Repository) (q : Query) (d : Database) : Outcome Fault (List Company) :=
  (r.list q d).mapError .register

def remove (r : Repository) (id : Int16) (d : Database) : Outcome Fault Unit :=
  (r.delete id d).mapError .register

end CompanyRegister.Registrar
