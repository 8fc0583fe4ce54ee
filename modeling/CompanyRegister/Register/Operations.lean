import CompanyRegister.Register.Row
import CompanyRegister.Store.Migration
import CompanyRegister.Store.Selection

/-!
# Operations on the register

The register is the table of companies in a database. `Register.ready` says whether a database
carries it; the operations create, update, find, list and delete records.

    Company ──create──▶ id        Query ──list──▶ records in ascending order of their ids

A record is validated before anything is written. `Repository` gathers the operations, so that who
works with records need not know where they are kept.
-/

namespace CompanyRegister.Register

open Store

/-! ### Readiness -/

/-- Refuse a database that is not up to date, or lacks the table or one of its columns. -/
def ready (d : Database) : Except Fault Unit := do
  let version ← d.versionNumber.mapError .store
  if version ≠ Migration.latest then throw (.notUpToDate Migration.latest version)
  match d.table tableName with
  | .error _ => throw (.tableMissing tableName)
  | .ok t =>
    match Company.entity.storageColumns.find? fun c => !t.hasColumn c with
    | some column => throw (.columnMissing tableName column)
    | none => return ()

/-! ### Operations -/

/-- Why a record could not be added: an id that is taken, or no fresh id in range. -/
def createFault (given : Option Int16) (f : Store.Fault) : Fault :=
  match given, f with
  | some id, .keyTaken _ _ => .idTaken id
  | none, .checkFailed _ => .idsExhausted
  | _, f => .store f

/-- Add a record, and give the id that its row holds. -/
def create (c : Company) (d : Database) : Outcome Fault Int16 :=
  match c.validate with
  | .error v => .ofAnswer d (.error (.rule v))
  | .ok () =>
    match d.insertReturning tableName c.cells Field.companyId.column with
    | .error f => .ofAnswer d (.error (createFault c.companyId f))
    | .ok (cell, d) =>
      match Company.int16OfCell .companyId cell with
      | .error f => .ofAnswer d (.error f)
      | .ok id => ⟨.ok id, d, [.companyCreated id.toInt]⟩

/-- Replace the records that have the id of `c`. -/
def update (c : Company) (d : Database) : Outcome Fault Unit :=
  match c.companyId with
  | none => .ofAnswer d (.error .idMissing)
  | some id =>
    match c.validate with
    | .error v => .ofAnswer d (.error (.rule v))
    | .ok () =>
      match d.update tableName Field.companyId.column id.toInt c.plainCells with
      | .error f => .ofAnswer d (.error (.store f))
      | .ok (0, d) => .ofAnswer d (.error (.notFound id))
      | .ok (_ + 1, d) => ⟨.ok (), d, [.companyUpdated id.toInt]⟩

/-- The selection of the rows that have an id, its place still open. -/
def rowsOfId : Selection Operand where
  columns := Field.columns
  condition := some (Field.companyId.column, .place)

/-- The record that has an id, if there is one. -/
def find (id : Int16) (d : Database) : Except Fault (Option Company) := do
  match ← (d.run tableName rowsOfId [id.toInt]).mapError .store with
  | cs :: _ => return some (← Company.ofCells cs)
  | [] => return none

/-- Which records to list. -/
structure Query where
  group : Option Int32 := none
  limit : Option Nat := none
  offset : Nat := 0
  deriving DecidableEq, Repr

/-- The condition that a query puts on rows, and the value for its place. -/
def Query.condition (q : Query) : Option (String × Operand) × List Int :=
  match q.group with
  | some g => (some (Field.companyGroupId.column, .place), [g.toInt])
  | none => (none, [])

/-- The part of the rows that a query asks for, and the values for the places in it. An offset needs
a limit in front of it; in a query without one that limit is none. -/
def Query.part (q : Query) : Option (Store.Part Operand) × List Int :=
  match q.limit with
  | some n =>
    if 0 < q.offset then (some ⟨.place, some .place⟩, [n, q.offset])
    else (some ⟨.place, none⟩, [n])
  | none =>
    if 0 < q.offset then (some ⟨.number (-1), some .place⟩, [q.offset])
    else (none, [])

/-- The records that a query asks for, up to the first row that cannot be read. -/
def list (q : Query) (d : Database) : Except Fault (List Company) := do
  let (condition, groups) := q.condition
  let (part, bounds) := q.part
  let selection := ⟨Field.columns, condition, some Field.companyId.column, part⟩
  let rows ← (d.run tableName selection (groups ++ bounds)).mapError .store
  rows.mapM Company.ofCells

def delete (id : Int16) (d : Database) : Outcome Fault Unit :=
  match d.delete tableName Field.companyId.column id.toInt with
  | .error f => .ofAnswer d (.error (.store f))
  | .ok (0, d) => .ofAnswer d (.error (.notFound id))
  | .ok (_ + 1, d) => ⟨.ok (), d, [.companyDeleted id.toInt]⟩

/-! ### Repositories -/

/-- A list of records with the report of it. -/
def reportList (q : Query) (d : Database) : Outcome Fault (List Company) :=
  match list q d with
  | .ok cs => ⟨.ok cs, d, [.companiesListed cs.length]⟩
  | .error f => .ofAnswer d (.error f)

/-- A keeper of records. -/
structure Repository where
  create : Company → Database → Outcome Fault Int16
  update : Company → Database → Outcome Fault Unit
  find : Int16 → Database → Outcome Fault (Option Company)
  list : Query → Database → Outcome Fault (List Company)
  delete : Int16 → Database → Outcome Fault Unit

/-- The keeper that works on the register of a database. -/
def repository : Repository where
  create := create
  update := update
  find id d := .ofAnswer d (find id d)
  list := reportList
  delete := delete

end CompanyRegister.Register
