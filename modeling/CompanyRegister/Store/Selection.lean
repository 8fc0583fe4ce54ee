import CompanyRegister.Store.Database

/-!
# Selections

A selection asks a table for rows: for all of them or for those that hold a number in a column, in
the order of a column or as they come, and of these for all or for a part. Its numbers are operands,
written out or left open. An open place takes a value when the selection is run; the values go to
the places in the order in which these stand: the condition first, then the limit and the offset.

    Selection Operand ──fill?──▶ Selection Int ──rowsOf──▶ rows

There is no offset without a limit, but a negative limit is none.
-/

namespace CompanyRegister.Store

/-- A number in a selection. -/
inductive Operand
  | number (n : Int)
  /-- A place for a value. -/
  | place
  deriving DecidableEq, Repr

/-- Which part of the rows is asked for. -/
structure Part (ν : Type) where
  limit : ν
  offset : Option ν
  deriving DecidableEq, Repr

structure Selection (ν : Type) where
  columns : List String
  /-- A column, and the number that it must hold. -/
  condition : Option (String × ν) := none
  /-- The column whose cells the rows are in the order of; as they come, they are in that of their
  numbers. -/
  order : Option String := none
  part : Option (Part ν) := none
  deriving DecidableEq, Repr

/-! ### Filling places -/

/-- The number that an operand stands for, and the values for the places behind it. -/
def Operand.fill? : Operand → List Int → Option (Int × List Int)
  | number n, values => some (n, values)
  | place, value :: values => some (value, values)
  | place, [] => none

def Part.fill? (p : Part Operand) (values : List Int) : Option (Part Int × List Int) := do
  let (limit, values) ← p.limit.fill? values
  match p.offset with
  | none => return (⟨limit, none⟩, values)
  | some o =>
    let (offset, values) ← o.fill? values
    return (⟨limit, some offset⟩, values)

namespace Selection

def fillCondition? (s : Selection Operand) (values : List Int) :
    Option (Option (String × Int) × List Int) :=
  match s.condition with
  | none => some (none, values)
  | some (column, o) => (o.fill? values).map fun (n, values) => (some (column, n), values)

def fillPart? (s : Selection Operand) (values : List Int) : Option (Option (Part Int) × List Int) :=
  match s.part with
  | none => some (none, values)
  | some p => (p.fill? values).map fun (p, values) => (some p, values)

/-- The selection with its places filled, if there are as many values as places. -/
def fill? (s : Selection Operand) (values : List Int) : Option (Selection Int) := do
  let (condition, values) ← s.fillCondition? values
  let (part, values) ← s.fillPart? values
  if values = [] then some ⟨s.columns, condition, s.order, part⟩ else none

/-- How many values a selection takes. -/
def places (s : Selection Operand) : Nat :=
  let operands := s.condition.toList.map Prod.snd ++
    s.part.toList.flatMap fun p => p.limit :: p.offset.toList
  operands.count .place

end Selection

/-! ### Rows of a selection -/

/-- The part of a list that is asked for; a negative offset is nought. -/
def Part.of {α : Type} (p : Part Int) (xs : List α) : List α :=
  let rest := xs.drop (p.offset.getD 0).toNat
  if p.limit < 0 then rest else rest.take p.limit.toNat

/-- Rows in the order of the cells of a column, those with equal cells as they come. -/
def sortedBy (order : Option String) (rows : List Cells) : List Cells :=
  match order with
  | some column => rows.mergeSort fun a b => (a.cell column).le (b.cell column)
  | none => rows

namespace Table

/-- Whether a row fulfils the condition of a selection. -/
def admits (t : Table) (s : Selection Int) (cs : Cells) : Bool :=
  match s.condition with
  | some (column, n) => t.holds column n cs
  | none => true

/-- The rows that a selection asks for, of those that are read. -/
def rowsOf (t : Table) (s : Selection Int) (rows : Rows Cells) : List Cells :=
  let wanted := sortedBy s.order ((rows.entries.map Prod.snd).filter (t.admits s))
  match s.part with
  | some p => p.of wanted
  | none => wanted

/-- Run a selection with values for its places. -/
def run (t : Table) (s : Selection Operand) (values : List Int) : Except Fault (List Cells) := do
  let rows ← t.select s.columns
  t.requireColumns (s.condition.toList.map Prod.fst ++ s.order.toList)
  match s.fill? values with
  | some s => return t.rowsOf s rows
  | none => throw (.valuesMismatched values.length s.places)

end Table

/-- Run a selection on a table of a database. -/
def Database.run (d : Database) (table : String) (s : Selection Operand) (values : List Int) :
    Except Fault (List Cells) := do
  (← d.table table).run s values

end CompanyRegister.Store
