import CompanyRegister.Store.Cell

/-!
# Faults of the store

Why a statement on a database fails. The first three are the constraints of a table; they are told
apart by whoever wrote the row.
-/

namespace CompanyRegister.Store

inductive Fault
  /-- A check of the table does not hold. -/
  | checkFailed (condition : String)
  /-- A column that must have a value has none. -/
  | valueMissing (table column : String)
  /-- The key of another row, or its cells in columns that are unique. -/
  | keyTaken (table : String) (columns : List String)
  /-- A key that is no whole number. -/
  | keyNotWhole
  /-- A statement that names no column at all. -/
  | nothingNamed
  | noSuchTable (table : String)
  | tableExists (table : String)
  | noSuchColumn (column : String)
  | columnExists (column : String)
  | indexExists (index : String)
  /-- More or fewer values than a statement has places for. -/
  | valuesMismatched (given places : Nat)
  /-- A number that the reader has no room for, at a place of the row. -/
  | outOfRange (n : Int) (place : Nat)
  /-- A cell of another kind than the reader asked for, at a place of the row. -/
  | wrongKind (kind : Cell.Kind) (place : Nat) (column : String)
  /-- A database made by a newer version. -/
  | versionTooNew (version latest : Nat)
  /-- A file that cannot be opened. -/
  | cannotOpen (path : String)
  /-- A file that holds something else. -/
  | notADatabase
  /-- A file with tables that an older version has made. -/
  | tablesNotRead (version : Int)
  deriving DecidableEq, Repr

def Fault.message : Fault → String
  | checkFailed condition => s!"CHECK constraint failed: {condition}"
  | valueMissing table column => s!"NOT NULL constraint failed: {table}.{column}"
  | keyTaken table columns =>
    let names := ", ".intercalate (columns.map fun column => s!"{table}.{column}")
    s!"UNIQUE constraint failed: {names}"
  | keyNotWhole => "datatype mismatch"
  | nothingNamed => "syntax error"
  | noSuchTable table => s!"no such table: {table}"
  | tableExists table => s!"table {table} already exists"
  | noSuchColumn column => s!"no such column: {column}"
  | columnExists column => s!"duplicate column name: {column}"
  | indexExists index => s!"index {index} already exists"
  | valuesMismatched given places =>
    s!"Wrong number of parameters passed to query. Got {given}, needed {places}"
  | outOfRange n place => s!"Integer {n} out of range at index {place}"
  | wrongKind kind place column =>
    s!"Invalid column type {kind.name} at index: {place}, name: {column}"
  | versionTooNew version latest =>
    s!"database schema version {version} is newer than supported {latest}"
  | cannotOpen path => s!"unable to open database file: {path}"
  | notADatabase => "file is not a database"
  | tablesNotRead version => s!"tables of database schema version {version} cannot be migrated"

/-- What lies behind a file that is not opened. -/
def Fault.cause? : Fault → Option String
  | cannotOpen _ => some "Error code 14: Unable to open the database file"
  | notADatabase => some "Error code 26: File opened that is not a database file"
  | _ => none

end CompanyRegister.Store
