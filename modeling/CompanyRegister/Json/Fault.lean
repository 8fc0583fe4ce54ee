import CompanyRegister.Decimal.Layout
import CompanyRegister.Text.Pieces
import CompanyRegister.Text.Quoted

/-!
# Faults in JSON documents

A document is refused for a cause at a place. Readers work on what is left of the text, so a place
is given by that rest and a number of bytes to go beyond it; line and column are worked out once,
from the whole text. Lines count from one, and the column is the number of bytes since the last
line feed.

Some faults are noticed inside an open bracket without a place of their own. They get one when the
bracket has been left, see `Fault.placedAt`.
-/

namespace CompanyRegister.Json

open Text

/-! ### Causes -/

/-- What stood where something else was expected. -/
inductive Found
  | null
  | boolean (b : Bool)
  | integer (n : Int)
  | real (x : Float)
  | text (s : List Char)
  | list
  | object

def Found.message : Found → String
  | .null => "null"
  | .boolean b => s!"boolean `{b}`"
  | .integer n => s!"integer `{n}`"
  | .real x =>
    let number := String.ofList (Decimal.document.text x)
    s!"floating point `{number}`"
  | .text s => "string " ++ String.ofList (quoted s)
  | .list => "sequence"
  | .object => "map"

/-- Why a document is refused. -/
inductive Cause
  | endInValue
  | endInString
  | endInList
  | endInObject
  | valueExpected
  | wordExpected
  | invalidNumber
  | numberOutOfRange
  | controlCharacter
  | invalidEscape
  | loneSurrogate
  | halfSurrogatePair
  | keyExpected
  | colonExpected
  | commaOrBraceExpected
  | commaOrBracketExpected
  | trailingComma
  | trailingCharacters
  | invalidType (found : Found) (expected : String)
  | invalidValue (found : Found) (expected : String)
  | unknownField (name : String) (known : List String)
  | duplicateField (name : String)
  | invalidLength (length : Nat) (expected : String)
  | refused (reason : String)

/-- Names between backticks, with commas between them. -/
def namesText (names : List String) : String :=
  ", ".intercalate (names.map fun n => s!"`{n}`")

def Cause.message : Cause → String
  | .endInValue => "EOF while parsing a value"
  | .endInString => "EOF while parsing a string"
  | .endInList => "EOF while parsing a list"
  | .endInObject => "EOF while parsing an object"
  | .valueExpected => "expected value"
  | .wordExpected => "expected ident"
  | .invalidNumber => "invalid number"
  | .numberOutOfRange => "number out of range"
  | .controlCharacter => "control character (\\u0000-\\u001F) found while parsing a string"
  | .invalidEscape => "invalid escape"
  | .loneSurrogate => "lone leading surrogate in hex escape"
  | .halfSurrogatePair => "unexpected end of hex escape"
  | .keyExpected => "key must be a string"
  | .colonExpected => "expected `:`"
  | .commaOrBraceExpected => "expected `,` or `\x7d`"
  | .commaOrBracketExpected => "expected `,` or `]`"
  | .trailingComma => "trailing comma"
  | .trailingCharacters => "trailing characters"
  | .invalidType found expected => s!"invalid type: {found.message}, expected {expected}"
  | .invalidValue found expected => s!"invalid value: {found.message}, expected {expected}"
  | .unknownField name known => s!"unknown field `{name}`, expected one of {namesText known}"
  | .duplicateField name => s!"duplicate field `{name}`"
  | .invalidLength length expected => s!"invalid length {length}, expected {expected}"
  | .refused reason => reason

/-! ### Places -/

/-- A place in a document: `ahead` bytes into what is left of it. -/
structure Place where
  rest : List Char
  ahead : Nat

/-- Line and column after `n` bytes of a text that begins in the given line and column. -/
def lineColumn (line column : Nat) : List Char → Nat → Nat × Nat
  | [], _ => (line, column)
  | c :: text, n =>
    if n = 0 then (line, column)
    else if c = '\n' then lineColumn (line + 1) 0 text (n - 1)
    else if n < c.utf8Size then (line, column + n)
    else lineColumn line (column + c.utf8Size) text (n - c.utf8Size)

/-- Line and column of a place in the text `whole`; no place is behind its end. -/
def Place.lineColumn (p : Place) (whole : List Char) : Nat × Nat :=
  Json.lineColumn 1 0 whole (byteCount whole - byteCount p.rest + p.ahead)

/-- A cause and, once it is known, its place. -/
structure Fault where
  cause : Cause
  place : Option Place

/-- A fault at the first unread character. -/
def Fault.here (cause : Cause) (rest : List Char) : Fault := ⟨cause, some ⟨rest, 0⟩⟩

/-- A fault one byte behind the first unread character. -/
def Fault.next (cause : Cause) (rest : List Char) : Fault := ⟨cause, some ⟨rest, 1⟩⟩

/-- A fault whose place is not known yet. -/
def Fault.unplaced (cause : Cause) : Fault := ⟨cause, none⟩

/-- The fault, with a place if it had none. -/
def Fault.placedAt (f : Fault) (rest : List Char) : Fault :=
  match f.place with
  | some _ => f
  | none => .here f.cause rest

def Fault.message (f : Fault) (whole : List Char) : String :=
  match f.place with
  | some p =>
    let (line, column) := p.lineColumn whole
    s!"{f.cause.message} at line {line} column {column}"
  | none => f.cause.message

/-- What a reader gives: a value and what is left of the text, or a fault. -/
abbrev Reading (α : Type) := Except Fault (α × List Char)

end CompanyRegister.Json
