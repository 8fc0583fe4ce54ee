import CompanyRegister.Source.Fault
import CompanyRegister.Schema.Rule
import CompanyRegister.Text.Pieces
import CompanyRegister.Text.Word

/-!
# Field lines

A field line declares one property of an entity: a name, perhaps a question mark, a colon, a type,
perhaps an initial value, and perhaps a semicolon. The type is a union of members; `null` and
`undefined` say that the value may be missing, and the first other member gives the column type.

    companyName?: string | null = 'x';

`FieldLine.parse?` takes such a line apart. Two edits put it right for the annotated source:
`markOptional` adds the question mark and `initialise` the initial value.
-/

namespace CompanyRegister.Source

open Text

/-- A field line, taken apart. -/
structure FieldLine where
  property : List Char
  /-- Whether a question mark follows the name. -/
  marked : Bool
  /-- The members of the union, without outer blanks. -/
  members : List (List Char)
  deriving DecidableEq, Repr

/-- A column as its field line declares it. -/
structure Declaration where
  property : List Char
  type : ColumnType
  optional : Bool
  deriving DecidableEq, Repr

namespace FieldLine

/-- Whether a character may stand in a type. -/
def isTypeChar (c : Char) : Bool := c != ';' && c != '='

/-- Whether a text may follow the type: an initial value up to a semicolon, the semicolon, and
blanks, each of them if need be. -/
def isEnding : List Char → Bool
  | [] => true
  | c :: rest =>
    let rest := if c = '=' then (rest.dropWhile (· != ';')).drop 1 else rest
    isAllBlank rest

/-- The text without the question mark it begins with, and whether it began with one. -/
def takeMark : List Char → Bool × List Char
  | '?' :: rest => (true, rest)
  | text => (false, text)

/-- Take apart what follows the colon. -/
def afterColon? (property : List Char) (marked : Bool) (text : List Char) : Option FieldLine :=
  let type := text.takeWhile isTypeChar
  if type ≠ [] ∧ isEnding (text.dropWhile isTypeChar) = true then
    some ⟨property, marked, (type.splitOn '|').map trim⟩
  else none

/-- Take apart what follows the name. -/
def afterName? (property text : List Char) : Option FieldLine :=
  let (marked, text) := takeMark text
  match trimStart text with
  | ':' :: text => afterColon? property marked text
  | _ => none

/-- Take a field line apart. -/
def parse? (line : List Char) : Option FieldLine :=
  match trimStart line with
  | [] => none
  | c :: text =>
    if isNameStart c then
      afterName? (c :: text.takeWhile isNameRest) (text.dropWhile isNameRest)
    else none

/-- Whether a union member says that the value may be missing. -/
def isMissing (member : List Char) : Bool :=
  member == "null".toList || member == "undefined".toList

/-- Whether the value of a field may be missing. -/
def isOptional (f : FieldLine) : Bool := f.members.any isMissing || f.marked

/-- The member that gives the type: the first that does not say that the value may be missing. -/
def typeName (f : FieldLine) : List Char :=
  (f.members.find? fun m => !isMissing m).getD "null".toList

/-- The column that a field declares. -/
def declaration (f : FieldLine) : Except Fault Declaration :=
  match ColumnType.ofName? f.typeName with
  | some type => .ok ⟨f.property, type, f.isOptional⟩
  | none => .error (.unsupportedType f.property f.typeName)

end FieldLine

/-- Read the column that a line declares. -/
def Declaration.parse (line : List Char) : Except Fault Declaration :=
  match FieldLine.parse? line with
  | some f => f.declaration
  | none => .error (.missingField (trim line))

/-! ### Editing -/

/-- A question mark in front of the first colon, unless one is there. -/
def markOptional (line : List Char) : List Char :=
  match cut? [':'] line with
  | some (name, rest) =>
    if (trimEnd name).getLast? = some '?' then line else name ++ '?' :: ':' :: rest
  | none => line

/-- An initial value in place of the semicolons at the end. -/
def initialise (value line : List Char) : List Char :=
  dropEndWhile (· == ';') line ++ " = ".toList ++ value ++ [';']

end CompanyRegister.Source
