/-!
# Faults in entity sources

Why an entity source cannot be annotated. All but the first are about one block of the source.
-/

namespace CompanyRegister.Source

/-- Why a source or one of its blocks is refused. -/
inductive Fault
  | noColumns
  | unsupportedType (property typeName : List Char)
  | missingField (line : List Char)
  | malformedOptions (line : List Char)
  | malformedLength (line : List Char)
  deriving DecidableEq, Repr

def Fault.message : Fault → String
  | .noColumns => "entity source declares no columns"
  | .unsupportedType property typeName =>
    let property := String.ofList property
    let typeName := String.ofList typeName
    s!"field `{property}` has unsupported type `{typeName}`"
  | .missingField line =>
    let line := String.ofList line
    s!"column block has no field declaration: `{line}`"
  | .malformedOptions line =>
    let line := String.ofList line
    s!"malformed column options object: `{line}`"
  | .malformedLength line =>
    let line := String.ofList line
    s!"malformed column length: `{line}`"

end CompanyRegister.Source
