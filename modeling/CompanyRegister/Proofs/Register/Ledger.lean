import CompanyRegister.Proofs.Calendar.Strict
import CompanyRegister.Proofs.Register.Selection
import CompanyRegister.Register.Registrar

/-!
# Ledgers

A ledger is a register without a database: which record there is under which id, and nothing else.
It says what the operations of a repository and of the registrar are meant to do.

    Request ──onDatabase──▶ Reply       what the database does
            ──onLedger────▶ Reply       what is meant

A record is kept under its id with its time of entry cut down to milliseconds, as the text shows it
that is stored (`Company.kept`).
-/

namespace CompanyRegister

open Calendar Store

/-- The record that is kept under an id when `c` is written. -/
def Company.kept (c : Company) (id : Int16) : Company :=
  { c with
    companyId := some id
    enterDate := c.enterDate.stored
    taxRate := c.taxRate.map plainZero }

namespace Register

/-- All ids in ascending order. -/
def ids : List Int16 := (List.range' 0 65536).map fun n : Nat => Int16.ofInt ((n : Int) - 32768)

/-- Whether a record belongs to the group of a query. -/
def Query.wants (q : Query) (c : Company) : Bool :=
  match q.group with
  | some g => c.companyGroupId == some g
  | none => true

/-! ## The operations -/

/-- The records by their ids. All of them in ascending order of the ids are `Ledger.records`. -/
abbrev Ledger : Type := Int16 → Option Company

namespace Ledger

def empty : Ledger := fun _ => none

def put (m : Ledger) (id : Int16) (c : Company) : Ledger := fun n => if n = id then some c else m n

def erase (m : Ledger) (id : Int16) : Ledger := fun n => if n = id then none else m n

def records (m : Ledger) : List Company := ids.filterMap m

def lastId? (m : Ledger) : Option Int16 := (ids.filter fun id => (m id).isSome).getLast?

/-- The id of a record that brings none: one more than the largest, if there is such an id, and one
in an empty ledger. -/
def nextId? (m : Ledger) : Option Int16 :=
  match m.lastId? with
  | none => some 1
  | some id => if id.toInt + 1 ≤ 32767 then some (.ofInt (id.toInt + 1)) else none

/-- Add a record, and give its id. -/
def create (m : Ledger) (c : Company) : Except Fault Int16 × Ledger :=
  match c.validate with
  | .error v => (.error (.rule v), m)
  | .ok () =>
    match c.companyId with
    | some id =>
      if (m id).isSome then (.error (.idTaken id), m) else (.ok id, m.put id (c.kept id))
    | none =>
      match m.nextId? with
      | some id => (.ok id, m.put id (c.kept id))
      | none => (.error .idsExhausted, m)

/-- Replace the record that has the id of `c`, and give it as it is kept. -/
def update (m : Ledger) (c : Company) : Except Fault Company × Ledger :=
  match c.companyId with
  | none => (.error .idMissing, m)
  | some id =>
    match c.validate with
    | .error v => (.error (.rule v), m)
    | .ok () =>
      if (m id).isSome then (.ok (c.kept id), m.put id (c.kept id)) else (.error (.notFound id), m)

def delete (m : Ledger) (id : Int16) : Except Fault Unit × Ledger :=
  if (m id).isSome then (.ok (), m.erase id) else (.error (.notFound id), m)

def list (m : Ledger) (q : Query) : List Company := q.page (m.records.filter q.wants)

/-- Add the record that an input describes, and give it as it is kept. -/
def register (m : Ledger) (i : Input) : Except Registrar.Fault Company × Ledger :=
  match i.toCompany with
  | .error vs => (.error (.rejected vs), m)
  | .ok c =>
    match m.create c with
    | (.error f, m) => (.error (.register f), m)
    | (.ok id, m) => (.ok (c.kept id), m)

end Ledger

/-! ## Requests -/

/-- What can be asked of a register: the first five directly of its repository, the others of the
registrar. -/
inductive Request
  | create (c : Company)
  | update (c : Company)
  | find (id : Int16)
  | list (q : Query)
  | delete (id : Int16)
  | register (i : Input)
  | replace (c : Company)
  | get (id : Int16)
  | browse (q : Query)
  | remove (id : Int16)

inductive Value
  | id (id : Int16)
  | done
  | record (c : Company)
  | found (c : Option Company)
  | records (cs : List Company)

inductive Reply
  | direct (a : Except Fault Value)
  | served (a : Except Registrar.Fault Value)

/-- A reply of the repository with the database afterwards. -/
def Reply.ofRepository {α : Type} (value : α → Value) (o : Outcome Fault α) : Reply × Database :=
  (.direct (o.answer.map value), o.database)

def Reply.ofRegistrar {α : Type} (value : α → Value) (o : Outcome Registrar.Fault α) :
    Reply × Database :=
  (.served (o.answer.map value), o.database)

namespace Request

/-- What a database replies and becomes. -/
def onDatabase : Request → Database → Reply × Database
  | create c, d => Reply.ofRepository .id (repository.create c d)
  | update c, d => Reply.ofRepository (fun _ => .done) (repository.update c d)
  | find id, d => Reply.ofRepository .found (repository.find id d)
  | list q, d => Reply.ofRepository .records (repository.list q d)
  | delete id, d => Reply.ofRepository (fun _ => .done) (repository.delete id d)
  | register i, d => Reply.ofRegistrar .record (Registrar.register repository i d)
  | replace c, d => Reply.ofRegistrar .record (Registrar.update repository c d)
  | get id, d => Reply.ofRegistrar .found (Registrar.get repository id d)
  | browse q, d => Reply.ofRegistrar .records (Registrar.list repository q d)
  | remove id, d => Reply.ofRegistrar (fun _ => .done) (Registrar.remove repository id d)

def onLedger : Request → Ledger → Reply × Ledger
  | create c, m => (.direct ((m.create c).1.map .id), (m.create c).2)
  | update c, m => (.direct ((m.update c).1.map fun _ => .done), (m.update c).2)
  | find id, m => (.direct (.ok (.found (m id))), m)
  | list q, m => (.direct (.ok (.records (m.list q))), m)
  | delete id, m => (.direct ((m.delete id).1.map fun _ => .done), (m.delete id).2)
  | register i, m => (.served ((m.register i).1.map .record), (m.register i).2)
  | replace c, m => (.served (((m.update c).1.mapError .register).map .record), (m.update c).2)
  | get id, m => (.served (.ok (.found (m id))), m)
  | browse q, m => (.served (.ok (.records (m.list q))), m)
  | remove id, m =>
    (.served (((m.delete id).1.mapError .register).map fun _ => .done), (m.delete id).2)

/-- Whether a request hands in a record for writing. -/
def Offers (r : Request) (c : Company) : Prop :=
  match r with
  | create given | update given | replace given => given = c
  | register i => i.toCompany = .ok c
  | _ => False

/-- Whether four digits do for the year of every record that is handed in for writing. -/
def HasFourDigitYears (r : Request) : Prop := ∀ c, r.Offers c → c.enterDate.HasFourDigitYear

end Request

/-- All replies to requests that are made one after the other, and what becomes of the register. -/
def runAll {ρ σ : Type} (step : ρ → σ → Reply × σ) : List ρ → σ → List Reply × σ
  | [], s => ([], s)
  | r :: rs, s =>
    let (reply, s) := step r s
    let (replies, s) := runAll step rs s
    (reply :: replies, s)

/-- What a database replies at a time. -/
def Request.onDatabaseAt (r : Instant × Request) (d : Database) : Reply × Database :=
  r.2.onDatabase { d with now := r.1 }

end Register

end CompanyRegister
