import CompanyRegister.Calendar.Instant
import CompanyRegister.Store.Conversion
import CompanyRegister.Store.Fault
import CompanyRegister.Store.Order
import CompanyRegister.Store.Rows

/-!
# Tables

A table has columns, indexes and rows. A row has a number, which the table chooses unless there is a
key: the cell of the key column is the number. The cells of the other columns are kept by name.

A row that is added or changed is first made complete, each cell converted by its column, and then
checked: the columns that must have a value, then all checks in the order of the columns, then the
key, then the columns that are unique. A statement that fails gives no table, so the table stays as
it was.

Rows are changed and taken out by what they hold in a column, not by their numbers: without a key
any number of rows may hold one id.
-/

namespace CompanyRegister.Store

open Calendar

/-- Cells by the names of their columns. -/
abbrev Cells := List (String × Cell)

/-- The cell of a column; a column that is not there has none. -/
def Cells.cell (cs : Cells) (column : String) : Cell := (cs.lookup column).getD .null

namespace Column

/-- Whether the column can be the number of its rows. A primary key that is no whole number is a
column like others, but unique. -/
def isKey (c : Column) : Bool := c.presence == .primaryKey && c.affinity == .integer

/-- What the column holds in a row added at a time that says nothing about it. -/
def initial (now : Instant) (c : Column) : Cell :=
  match c.default with
  | some (.literal sql) => literalCell sql
  | some .now => .text (String.ofList now.millisText)
  | none => .null

/-- The first check of the column that a cell does not fulfil. -/
def failedCheck? (c : Column) (cell : Cell) : Option Fault :=
  (c.checks.find? fun k => !k.admits cell).map fun k =>
    .checkFailed (String.ofList (k.text c.name.toList))

end Column

structure Table where
  name : String
  columns : List Column
  indexes : List Index
  rows : Rows Cells

namespace Table

/-- The table that a definition describes, without rows. -/
def ofDefinition (d : TableDefinition) : Table where
  name := d.name
  columns := d.columns
  indexes := d.indexes
  rows := .empty

/-- The definition that the table would be made from. -/
def definition (t : Table) : TableDefinition where
  name := t.name
  columns := t.columns
  indexes := t.indexes

def columnNames (t : Table) : List String := t.columns.map Column.name

def hasColumn (t : Table) (column : String) : Bool := t.columnNames.contains column

/-- The column that is the number of the rows. -/
def key? (t : Table) : Option Column := t.columns.find? Column.isKey

def isKey (t : Table) (c : Column) : Bool := t.key? == some c

def plainColumns (t : Table) : List Column := t.columns.filter fun c => !t.isKey c

/-- The cells of a row in the order of the columns. -/
def wholeRow (t : Table) (id : Int) (cells : Cells) : List (Column × Cell) :=
  t.columns.map fun c => (c, if t.isKey c then .int id else cells.cell c.name)

/-- All cells of a row by name. -/
def fullCells (t : Table) (id : Int) (cells : Cells) : Cells :=
  (t.wholeRow id cells).map fun (c, cell) => (c.name, cell)

/-- What a column converts its values to; one that is not there converts nothing. -/
def affinityOf (t : Table) (column : String) : Affinity :=
  ((t.columns.find? fun c => c.name == column).map Column.affinity).getD .blob

/-- Whether a row, given by all its cells, holds a number in a column. -/
def holds (t : Table) (column : String) (n : Int) (cs : Cells) : Bool :=
  (t.affinityOf column).isNumber n (cs.cell column)

/-! ### Conditions on rows -/

/-- Refuse names that are not names of columns. -/
def requireColumns (t : Table) (names : List String) : Except Fault Unit :=
  match names.find? fun n => !t.hasColumn n with
  | some n => .error (.noSuchColumn n)
  | none => .ok ()

/-- Refuse a statement that names no column, or one that the table does not have. -/
def requireNamed (t : Table) (values : Cells) : Except Fault Unit :=
  if values.isEmpty then .error .nothingNamed else t.requireColumns (values.map Prod.fst)

/-- The first column that must have a value and has none. -/
def missingValue? (t : Table) (row : List (Column × Cell)) : Option Fault :=
  (row.find? fun (c, cell) => c.presence == .required && cell.isNull).map fun (c, _) =>
    .valueMissing t.name c.name

/-- The first check that does not hold. -/
def failedCheck? (row : List (Column × Cell)) : Option Fault :=
  row.findSome? fun (c, cell) => c.failedCheck? cell

/-- The key, if another row has the number. -/
def takenKey? (t : Table) (id : Int) (others : Rows Cells) : Option Fault :=
  if others.contains id then t.key?.map fun c => .keyTaken t.name [c.name] else none

/-- The columns that no two rows are the same in, the last index first. -/
def uniqueColumns (t : Table) : List (List String) :=
  (t.indexes.filter Index.unique).reverse.map Index.columns ++
    (t.plainColumns.filter fun c => c.presence == .primaryKey).map fun c => [c.name]

/-- Whether two rows, given by all their cells, are the same in columns. -/
def sameIn (columns : List String) (a b : Cells) : Bool :=
  columns.all fun column => (a.cell column).equals (b.cell column)

/-- The first unique columns that another row is the same in. -/
def repeated? (t : Table) (id : Int) (cells : Cells) (others : Rows Cells) : Option Fault :=
  let row := t.fullCells id cells
  (t.uniqueColumns.find? fun columns =>
    others.entries.any fun e => sameIn columns row (t.fullCells e.1 e.2)).map (.keyTaken t.name)

/-- The constraint that a row breaks among other rows. -/
def violated? (t : Table) (id : Int) (cells : Cells) (others : Rows Cells) : Option Fault :=
  let row := t.wholeRow id cells
  t.missingValue? row <|> failedCheck? row <|> t.takenKey? id others <|> t.repeated? id cells others

/-- Refuse a row that breaks a constraint among other rows. -/
def require (t : Table) (id : Int) (cells : Cells) (others : Rows Cells) : Except Fault Unit :=
  match t.violated? id cells others with
  | some f => .error f
  | none => .ok ()

/-- The number that a cell of the key column gives. -/
def idOfCell (c : Cell) : Except Fault Int :=
  match c.toInteger with
  | .int n => .ok n
  | _ => .error .keyNotWhole

/-- What the values say about the key. -/
def keyCell? (t : Table) (values : Cells) : Option Cell :=
  t.key?.bind fun c => values.lookup c.name

/-! ### Reading rows -/

/-- The rows with the cells of all columns, as a reader sees them. -/
def fullRows (t : Table) : Rows Cells := t.rows.map t.fullCells

/-- The rows with all their cells, for a reader of these columns. -/
def select (t : Table) (columns : List String) : Except Fault (Rows Cells) := do
  t.requireColumns columns
  return t.fullRows

/-! ### Changing rows -/

/-- The number of a row that is added: the one given, or a fresh one. -/
def newId (t : Table) (values : Cells) : Except Fault Int :=
  match t.keyCell? values with
  | none | some .null => .ok t.rows.freshId
  | some c => idOfCell c

def newCells (t : Table) (now : Instant) (values : Cells) : Cells :=
  t.plainColumns.map fun c =>
    (c.name, c.affinity.convert ((values.lookup c.name).getD (c.initial now)))

/-- Add a row at a time, with the values given, and say which number it has. -/
def insert (t : Table) (now : Instant) (values : Cells) : Except Fault (Int × Table) := do
  t.requireNamed values
  let id ← t.newId values
  let cells := t.newCells now values
  t.require id cells t.rows
  return (id, { t with rows := t.rows.put id cells })

/-- What the row of a number holds in a column. -/
def cellAt (t : Table) (column : String) (id : Int) : Cell :=
  Cells.cell ((t.rows.get? id).elim [] (t.fullCells id)) column

/-- Add a row, and say what it holds in a column. -/
def insertReturning (t : Table) (now : Instant) (values : Cells) (column : String) :
    Except Fault (Cell × Table) := do
  t.requireColumns [column]
  let (id, t) ← t.insert now values
  return (t.cellAt column id, t)

def changedId (t : Table) (id : Int) (values : Cells) : Except Fault Int :=
  match t.keyCell? values with
  | none => .ok id
  | some c => idOfCell c

def changedCells (t : Table) (cells values : Cells) : Cells :=
  t.plainColumns.map fun c =>
    (c.name, match values.lookup c.name with
      | some v => c.affinity.convert v
      | none => cells.cell c.name)

/-- Change the row of a number, if there is one. -/
def changeRow (values : Cells) (t : Table) (id : Int) : Except Fault Table :=
  match t.rows.get? id with
  | none => .ok t
  | some cells => do
    let new ← t.changedId id values
    let cells := t.changedCells cells values
    let others := t.rows.erase id
    t.require new cells others
    return { t with rows := others.put new cells }

/-- The numbers of the rows that hold a number in a column. -/
def holders (t : Table) (column : String) (n : Int) : List Int :=
  (t.fullRows.entries.filter fun e => t.holds column n e.2).map Prod.fst

/-- Change the rows that hold a number in a column, one after the other, and say how many there
are. -/
def update (t : Table) (column : String) (n : Int) (values : Cells) :
    Except Fault (Nat × Table) := do
  t.requireNamed values
  t.requireColumns [column]
  let ids := t.holders column n
  return (ids.length, ← ids.foldlM (changeRow values) t)

/-- Take out the rows that hold a number in a column, and say how many there were. -/
def delete (t : Table) (column : String) (n : Int) : Except Fault (Nat × Table) := do
  t.requireColumns [column]
  let ids := t.holders column n
  return (ids.length, { t with rows := ids.foldl Rows.erase t.rows })

/-! ### Changing columns and indexes -/

/-- Add a column at the end. Rows that are there hold its default in it. -/
def addColumn (t : Table) (now : Instant) (c : Column) : Except Fault Table :=
  if t.hasColumn c.name then .error (.columnExists c.name)
  else .ok { t with
    columns := t.columns ++ [c]
    rows := t.rows.map fun _ cells => cells ++ [(c.name, c.initial now)] }

/-- Whether two rows are the same in columns. -/
def repeats (t : Table) (columns : List String) : Bool :=
  t.fullRows.entries.any fun e =>
    (t.fullRows.erase e.1).entries.any fun other => sameIn columns e.2 other.2

/-- Add an index. The rows that are there must differ where the index is unique. -/
def addIndex (t : Table) (i : Index) : Except Fault Table := do
  if (t.indexes.map Index.name).contains i.name then throw (.indexExists i.name)
  t.requireColumns i.columns
  if i.unique && t.repeats i.columns then throw (.keyTaken t.name i.columns)
  return { t with indexes := t.indexes ++ [i] }

/-- Take out a column that is no primary key, its cells and the indexes over it. -/
def dropColumn? (t : Table) (column : String) : Option Table :=
  if !t.hasColumn column ||
      t.columns.any fun c => c.name == column && c.presence == .primaryKey then
    none
  else some { t with
    columns := t.columns.filter fun c => c.name != column
    indexes := t.indexes.filter fun i => !i.columns.contains column
    rows := t.rows.map fun _ cells => cells.filter fun (n, _) => n != column }

end Table

end CompanyRegister.Store
