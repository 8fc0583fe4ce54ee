import CompanyRegister.Text.Digits

/-!
# Table definitions

A table is defined by its columns and indexes. A column has an affinity, which says what its values
are converted to; it may be the key, may have a default, and may have checks on its values.

A definition is a value: `Store.Table` is made from it, and `TableDefinition.text` writes it as the
SQL statements that would make the same table.
-/

namespace CompanyRegister.Store

open Text

/-- What a column converts its values to where that loses nothing. -/
inductive Affinity
  | integer
  | real
  | text
  /-- No conversion. -/
  | blob
  deriving DecidableEq, Repr

/-- Whether a column must have a value. -/
inductive Presence
  /-- The key of the table, which every row has. -/
  | primaryKey
  | nullable
  | required
  deriving DecidableEq, Repr

/-- What a column holds in a row that says nothing about it. -/
inductive Default
  /-- The value of an SQL literal. -/
  | literal (sql : String)
  /-- The time at which the row is added. -/
  | now
  deriving DecidableEq, Repr

/-- A condition on the values of a column. A missing value fulfils every condition. -/
inductive Check
  | between (low high : Int)
  | maxLength (n : Nat)
  deriving DecidableEq, Repr

def Check.smallRange : Check := .between (-32768) 32767

structure Column where
  name : String
  affinity : Affinity
  presence : Presence := .nullable
  default : Option Default := none
  checks : List Check := []
  deriving DecidableEq, Repr

structure Index where
  name : String
  columns : List String
  unique : Bool := false
  deriving DecidableEq, Repr

structure TableDefinition where
  name : String
  columns : List Column
  indexes : List Index := []
  deriving DecidableEq, Repr

/-! ### Definitions as SQL -/

/-- The name of an affinity as a column type. -/
def Affinity.name : Affinity → String
  | integer => "INTEGER"
  | real => "REAL"
  | text => "TEXT"
  | blob => "BLOB"

/-- How the presence of a column is spelled. -/
def Presence.text : Presence → String
  | primaryKey => "PRIMARY KEY"
  | nullable => "NULL"
  | required => "NOT NULL"

/-- The expression for the current time, in the form in which instants are stored. -/
def nowExpression : String := "(strftime('%Y-%m-%dT%H:%M:%fZ', 'now'))"

/-- The value of a default as an SQL expression. -/
def Default.text : Default → String
  | literal sql => sql
  | now => nowExpression

/-- A check on the column of that name as an SQL condition. -/
def Check.text (column : List Char) : Check → List Char
  | between low high =>
    column ++ " IS NULL OR ".toList ++ column ++ " BETWEEN ".toList ++ signed low ++
      " AND ".toList ++ signed high
  | maxLength n =>
    column ++ " IS NULL OR length(".toList ++ column ++ ") <= ".toList ++ digits n

namespace Column

/-- The parts of the definition of a column. -/
def clauses (c : Column) : List (List Char) :=
  let name := c.name.toList
  [name, c.affinity.name.toList, c.presence.text.toList] ++
    c.default.toList.map (fun d => "DEFAULT ".toList ++ d.text.toList) ++
    c.checks.map (fun k => "CHECK (".toList ++ k.text name ++ [')'])

def text (c : Column) : List Char := [' '].intercalate c.clauses

end Column

namespace Index

/-- What a statement says of an index behind its name: the table and the columns. -/
def body (table : List Char) (i : Index) : List Char :=
  " ON ".toList ++ table ++ " (".toList ++
    ", ".toList.intercalate (i.columns.map String.toList) ++ [')']

/-- The beginning of a statement that makes an index. -/
def creation (i : Index) : List Char :=
  if i.unique then "CREATE UNIQUE INDEX ".toList else "CREATE INDEX ".toList

/-- The statement that makes an index on a table unless it is there. -/
def text (table : List Char) (i : Index) : List Char :=
  i.creation ++ "IF NOT EXISTS ".toList ++ i.name.toList ++ i.body table ++ [';']

end Index

namespace TableDefinition

/-- What a statement says of a table behind its name: the columns, one a line. -/
def body (d : TableDefinition) : List Char :=
  " (\n    ".toList ++ ",\n    ".toList.intercalate (d.columns.map Column.text) ++ "\n)".toList

/-- The statement that makes the table unless it is there. -/
def tableText (d : TableDefinition) : List Char :=
  "CREATE TABLE IF NOT EXISTS ".toList ++ d.name.toList ++ d.body ++ [';']

/-- The statements that make the table and its indexes, each ended by a line feed. -/
def text (d : TableDefinition) : List Char :=
  (d.tableText :: d.indexes.map (Index.text d.name.toList)).flatMap (· ++ ['\n'])

end TableDefinition

end CompanyRegister.Store
