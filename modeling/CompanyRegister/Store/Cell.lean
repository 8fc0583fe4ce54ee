import CompanyRegister.Text.Pieces

/-!
# Cells

A cell is what a row of a table holds in one column. Any cell may stand in any column; a column
only prefers cells of its own affinity (`Store.Conversion`).
-/

namespace CompanyRegister.Store

/-- What a row holds in one column. -/
inductive Cell
  | null
  | int (n : Int)
  | real (x : Float)
  | text (s : String)
  | blob (bytes : List UInt8)
  deriving Repr

namespace Cell

inductive Kind
  | null
  | integer
  | real
  | text
  | blob
  deriving DecidableEq, Repr

/-- The name of a kind in messages. -/
def Kind.name : Kind → String
  | null => "Null"
  | integer => "Integer"
  | real => "Real"
  | text => "Text"
  | blob => "Blob"

def kind : Cell → Kind
  | null => .null
  | int _ => .integer
  | real _ => .real
  | text _ => .text
  | blob _ => .blob

def isNull (c : Cell) : Bool := c.kind == .null

/-- The cell for a double. What is no number is no value. -/
def ofFloat (x : Float) : Cell := if x.isNaN then null else real x

/-- The cell for a value that may be missing. -/
def ofOption {α : Type} (f : α → Cell) : Option α → Cell
  | some a => f a
  | none => null

/-- The characters of a text that count for its length: those before the first NUL. -/
def counted (s : String) : List Char := s.toList.takeWhile (· ≠ '\x00')

end Cell

end CompanyRegister.Store
