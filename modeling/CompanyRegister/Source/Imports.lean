import CompanyRegister.Schema.Relation
import CompanyRegister.Schema.Rule
import CompanyRegister.Text.Pieces

/-!
# Imports

An annotated source imports the decorators it uses and no longer imports what was dropped from it:
other entities, relations, join columns and indexes.

`ValidatorImports` collects the decorators while columns are read and gives their names in one fixed
order. `filterImports` goes through an import block line by line.
-/

namespace CompanyRegister.Source

open Text

/-! ### Imports that are added -/

/-- Which decorators a source uses. -/
structure ValidatorImports where
  string : Bool := false
  number : Bool := false
  date : Bool := false
  boolean : Bool := false
  optional : Bool := false
  deriving DecidableEq, Repr

namespace ValidatorImports

/-- The imports with those of one more column. -/
def register (v : ValidatorImports) (type : ColumnType) (optional : Bool) : ValidatorImports :=
  { string := v.string || type == .string
    number := v.number || type == .number
    date := v.date || type == .date
    boolean := v.boolean || type == .boolean
    optional := v.optional || optional }

/-- The names to import. The rule on lengths comes with the one on strings, needed or not. -/
def names (v : ValidatorImports) : List (List Char) :=
  (if v.string then [Rule.isString.name, (Rule.maxLength 0).name] else []) ++
    (if v.number then [Rule.isNumber.name] else []) ++
    (if v.date then [Rule.isDateString.name] else []) ++
    (if v.boolean then [Rule.isBoolean.name] else []) ++
    (if v.optional then [Rule.isOptional.name] else [])

def statement (v : ValidatorImports) : List Char :=
  "import \x7b ".toList ++ [',', ' '].intercalate v.names ++
    " \x7d from 'class-validator';".toList

end ValidatorImports

/-! ### Imports that are dropped -/

/-- The names that an annotated source does not import. -/
def droppedNames : List (List Char) :=
  ["JoinColumn".toList, "Index".toList] ++ RelationKind.all.map fun k => k.name.toList

/-- The name on a line of an import list. -/
def importedName (line : List Char) : List Char :=
  strip (fun c => c == ' ' || c == ',' || c == '\t') line

/-- Whether a line of an import block stays: it imports nothing from a neighbouring file and is no
dropped name. -/
def keepsImport (line : List Char) : Bool :=
  !contains "./".toList line && !droppedNames.contains (importedName line)

/-- An import block without the lines that do not stay. -/
def filterImports (block : List Char) : List Char := unlines ((lines block).filter keepsImport)

end CompanyRegister.Source
