import CompanyRegister.Text.Blank
import CompanyRegister.Text.Digits

/-!
# Column types and validation rules

A column has the type that its property is declared with. The type, whether a value may be missing
and the most characters it may have decide the rules a value must keep; each rule is written as a
decorator in front of the property.

`rulesFor` is the one place that says which rules a column has and in which order.
-/

namespace CompanyRegister

open Text

/-- What kind of value a column holds. -/
inductive ColumnType
  | string
  | number
  | date
  | boolean
  /-- Values that no rule is about, such as binary ones. -/
  | other
  deriving DecidableEq, Repr

/-- A rule on the values of a column. -/
inductive Rule
  | isOptional
  | isString
  | maxLength (n : Nat)
  | isNumber
  | isDateString
  | isBoolean
  deriving DecidableEq, Repr

namespace ColumnType

/-- The column type that a property type names, if it names one. -/
def ofName? (name : List Char) : Option ColumnType :=
  let name := trim name
  if name = "string".toList then some .string
  else if name = "number".toList then some .number
  else if name = "Date".toList then some .date
  else if name = "boolean".toList then some .boolean
  else if name = "Buffer".toList then some .other
  else none

/-- The rule that every value of a type keeps. -/
def rule? : ColumnType → Option Rule
  | .string => some .isString
  | .number => some .isNumber
  | .date => some .isDateString
  | .boolean => some .isBoolean
  | .other => none

end ColumnType

namespace Rule

/-- The name of the decorator of a rule. -/
def name : Rule → List Char
  | .isOptional => "IsOptional".toList
  | .isString => "IsString".toList
  | .maxLength _ => "MaxLength".toList
  | .isNumber => "IsNumber".toList
  | .isDateString => "IsDateString".toList
  | .isBoolean => "IsBoolean".toList

/-- The argument of the decorator of a rule. -/
def argument : Rule → List Char
  | .maxLength n => digits n
  | _ => []

/-- A rule as a decorator. -/
def text (r : Rule) : List Char := '@' :: (r.name ++ '(' :: (r.argument ++ [')']))

end Rule

/-- The rules of a column in the order in which they are written. A length is a rule on strings
alone. -/
def rulesFor (type : ColumnType) (optional : Bool) (length : Option Nat) : List Rule :=
  (if optional then [.isOptional] else []) ++ type.rule?.toList ++
    (if type = .string then (length.map Rule.maxLength).toList else [])

end CompanyRegister
