import CompanyRegister.Log.Event
import CompanyRegister.Store.Table

/-!
# Databases

A database has a version, which says how far its table has been brought up to date, and at most one
table. The version is any number that a database can carry, also one that means nothing.

What an operation on a database comes to is an `Outcome`: the answer, the database afterwards and
the events on the way. An operation may fail and have changed the database all the same.
-/

namespace CompanyRegister.Store

open Calendar

structure Database where
  version : Int := 0
  table? : Option Table := none
  /-- The time at which rows are added. -/
  now : Instant := .epoch

namespace Database

def empty : Database := {}

def table (d : Database) (name : String) : Except Fault Table :=
  match d.table? with
  | some t => if t.name = name then .ok t else .error (.noSuchTable name)
  | none => .error (.noSuchTable name)

def withTable (d : Database) (t : Table) : Database := { d with table? := some t }

/-- The version as a count. -/
def versionNumber (d : Database) : Except Fault Nat :=
  if d.version < 0 then .error (.outOfRange d.version 0) else .ok d.version.toNat

/-- Add a row to a table, and give its number. -/
def insert (d : Database) (table : String) (values : Cells) : Except Fault (Int × Database) := do
  let (id, t) ← (← d.table table).insert d.now values
  return (id, d.withTable t)

/-- Add a row to a table, and say what it holds in a column. -/
def insertReturning (d : Database) (table : String) (values : Cells) (column : String) :
    Except Fault (Cell × Database) := do
  let (cell, t) ← (← d.table table).insertReturning d.now values column
  return (cell, d.withTable t)

/-- Change the rows of a table that hold a number in a column, and say how many there are. -/
def update (d : Database) (table column : String) (n : Int) (values : Cells) :
    Except Fault (Nat × Database) := do
  let (count, t) ← (← d.table table).update column n values
  return (count, d.withTable t)

/-- Take the rows out of a table that hold a number in a column, and say how many there were. -/
def delete (d : Database) (table column : String) (n : Int) : Except Fault (Nat × Database) := do
  let (count, t) ← (← d.table table).delete column n
  return (count, d.withTable t)

end Database

/-- What an operation on a database comes to. -/
structure Outcome (ε α : Type) where
  answer : Except ε α
  database : Database
  events : List Log.Event := []

namespace Outcome

variable {ε δ α β : Type}

/-- An operation that gives an answer and changes nothing. -/
def ofAnswer (d : Database) (answer : Except ε α) : Outcome ε α where
  answer := answer
  database := d

/-- Go on with the answer, if there is one. -/
def andThen (o : Outcome ε α) (next : α → Database → Outcome ε β) : Outcome ε β :=
  match o.answer with
  | .error e => ⟨.error e, o.database, o.events⟩
  | .ok a =>
    let last := next a o.database
    { last with events := o.events ++ last.events }

/-- The same with another kind of fault. -/
def mapError (f : ε → δ) (o : Outcome ε α) : Outcome δ α :=
  ⟨o.answer.mapError f, o.database, o.events⟩

end Outcome

end CompanyRegister.Store
