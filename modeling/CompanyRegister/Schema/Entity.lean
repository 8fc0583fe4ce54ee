import CompanyRegister.Schema.Relation
import CompanyRegister.Schema.Rule
import CompanyRegister.Store.Definition

/-!
# Entities

An entity says how records of one kind are kept in a table: which property is kept in which column,
which indexes the table has and how records are related to those of other entities.

    Entity ──Entity.definition──▶ Store.TableDefinition ──text──▶ SQL

The table has the mapped columns first and then the join columns of the relations.
-/

namespace CompanyRegister

/-- How a property is kept in a column. -/
structure Entity.Column where
  property : String
  column : String
  /-- The type that the column is declared with. -/
  sqlType : String
  type : ColumnType
  nullable : Bool := false
  /-- The most characters of a string. -/
  length : Option Nat := none
  /-- The binary precision of a floating point number. -/
  precision : Option Nat := none
  default : Option Store.Default := none
  isPrimary : Bool := false
  /-- Whether the store chooses the value of a new record. -/
  isGenerated : Bool := false
  deriving DecidableEq, Repr

/-- An index over properties. -/
structure Entity.Index where
  name : String
  properties : List String
  unique : Bool := false
  deriving DecidableEq, Repr

/-- A column that holds the key of a related record. -/
structure Entity.JoinColumn where
  name : String
  /-- The property of the related entity that the column points at. -/
  references : String
  deriving DecidableEq, Repr

/-- How an entity is related to another. -/
structure Entity.Relation where
  kind : RelationKind
  property : String
  target : String
  /-- The property of the target that points back. -/
  inverse : String
  joinColumn : Option Entity.JoinColumn := none
  deriving DecidableEq, Repr

/-- How records of one kind are kept. -/
structure Entity where
  name : String
  table : String
  schema : Option String := none
  columns : List Entity.Column
  indexes : List Entity.Index := []
  relations : List Entity.Relation := []
  deriving DecidableEq, Repr

namespace Entity

namespace Column

/-- The rules that values of a column keep. -/
def rules (c : Column) : List Rule := rulesFor c.type c.nullable c.length

/-- Whether a new record may leave the column out. -/
def hasDefault (c : Column) : Bool := c.default.isSome || c.isGenerated || c.nullable

/-- What a column of this declared type converts its values to. Amounts of money are kept as counts
of ten-thousandths, so they are whole numbers as well. -/
def affinity (c : Column) : Store.Affinity :=
  if c.sqlType ∈ ["varchar", "nvarchar", "char", "nchar", "text", "datetime", "date"] then .text
  else if c.sqlType ∈ ["float", "real"] then .real
  else if c.sqlType ∈ ["varbinary", "binary", "image"] then .blob
  else .integer

/-- Whether a column must have a value. -/
def presence (c : Column) : Store.Presence :=
  if c.isPrimary then .primaryKey else if c.nullable then .nullable else .required

/-- The checks on a column: the range of a small whole number and the length of a string. -/
def checks (c : Column) : List Store.Check :=
  (if c.sqlType = "smallint" then [.smallRange] else []) ++
    c.length.toList.map Store.Check.maxLength

/-- The column of the table. -/
def definition (c : Column) : Store.Column where
  name := c.column
  affinity := c.affinity
  presence := c.presence
  default := c.default
  checks := c.checks

end Column

/-- A join column holds a key or nothing. -/
def JoinColumn.definition (j : JoinColumn) : Store.Column where
  name := j.name
  affinity := .integer

def column? (e : Entity) (property : String) : Option Column :=
  e.columns.find? fun c => c.property == property

/-- The column that identifies a record. -/
def primaryKey? (e : Entity) : Option Column := e.columns.find? Column.isPrimary

def qualifiedTable (e : Entity) : String :=
  match e.schema with
  | some schema => s!"{schema}.{e.table}"
  | none => e.table

def joinColumns (e : Entity) : List JoinColumn := e.relations.filterMap Relation.joinColumn

/-- The names of all columns of the table. -/
def storageColumns (e : Entity) : List String :=
  e.columns.map Column.column ++ e.joinColumns.map JoinColumn.name

/-- The index over the columns of its properties. Properties without a column are left out. -/
def indexDefinition (e : Entity) (i : Index) : Store.Index where
  name := i.name
  columns := (i.properties.filterMap e.column?).map Column.column
  unique := i.unique

/-- The table that records are kept in. -/
def definition (e : Entity) : Store.TableDefinition where
  name := e.table
  columns := e.columns.map Column.definition ++ e.joinColumns.map JoinColumn.definition
  indexes := e.indexes.map e.indexDefinition

/-- The statements that make the table, under a comment with its qualified name. -/
def ddl (e : Entity) : List Char :=
  "-- ".toList ++ e.qualifiedTable.toList ++ '\n' :: e.definition.text

/-! ### Description -/

/-- A text with blanks behind it up to a width. -/
def padEnd (width : Nat) (text : List Char) : List Char :=
  text ++ List.replicate (width - text.length) ' '

/-- The declared type of a column with its precision. -/
def Column.typeLabel (c : Column) : List Char :=
  c.sqlType.toList ++
    match c.precision with
    | some n => '(' :: (Text.digits n ++ [')'])
    | none => []

/-- A column on one line: its property, its name, its type and its rules. -/
def Column.describe (c : Column) : List Char :=
  [' ', ' '] ++ padEnd 20 c.property.toList ++ ' ' :: (padEnd 18 c.column.toList ++
    ' ' :: (padEnd 12 c.typeLabel ++ ' ' ::
      ((if c.hasDefault then [] else "no-default ".toList) ++
        [' '].intercalate (c.rules.map Rule.text))))

/-- A relation on one line: its property, its kind and both of its ends. -/
def Relation.describe (r : Relation) : List Char :=
  [' ', ' '] ++ padEnd 20 r.property.toList ++ " @".toList ++ r.kind.name.toList ++
    '(' :: (r.target.toList ++ ") <-> ".toList ++ r.target.toList ++ '.' :: r.inverse.toList)

/-- An entity in words: its columns and relations, and the statements that make its table. -/
def describe (e : Entity) : List Char :=
  e.name.toList ++ " (".toList ++ e.qualifiedTable.toList ++ ")\n\n".toList ++
    (e.columns.map Column.describe ++ e.relations.map Relation.describe).flatMap (· ++ ['\n']) ++
    '\n' :: e.ddl

end Entity

end CompanyRegister
