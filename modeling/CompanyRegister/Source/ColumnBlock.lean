import CompanyRegister.Source.Entry
import CompanyRegister.Source.FieldLine

/-!
# Column blocks

A column block is what an entity source says about one column: the lines of its decorators and, as
the last, its field line.

    block ──ColumnBlock.parse──▶ ColumnBlock ──render──▶ block with validation decorators

Rendering keeps every line but the field line as it is and puts the decorators of the rules in front
of the field line. Lines at the end that are too short to say anything, such as the brace that ends
the class, do not count.
-/

namespace CompanyRegister.Source

open Text

/-- How sources are annotated. -/
structure Options where
  /-- A default that holds one of these is a function of the database and no initial value. -/
  ignoredMarkers : List (List Char)
  deriving DecidableEq, Repr

namespace Options

/-- The markers that count when none are given. -/
def standard : Options := ⟨["XUtils".toList]⟩

/-- Whether a default is a function of the database. -/
def ignores (o : Options) (value : List Char) : Bool :=
  o.ignoredMarkers.any fun marker => contains marker value

end Options

/-- A column with the lines it was declared on. -/
structure ColumnBlock where
  lines : List (List Char)
  property : List Char
  type : ColumnType
  optional : Bool
  maxLength : Option Nat
  default : Option (List Char)
  deriving DecidableEq, Repr

/-- What the options of a column say, as far as they have been read. -/
structure Entries where
  maxLength : Option Nat := none
  default : Option (List Char) := none
  deriving DecidableEq, Repr

/-- Whether a line is too short to say anything. -/
def isShort (line : List Char) : Bool := byteCount (trim line) < 2

/-- The lines without the short ones at the end. -/
def dropShortTail (ls : List (List Char)) : List (List Char) :=
  (ls.reverse.dropWhile isShort).reverse

/-- Whether a line begins the decorator of a column. -/
def beginsColumn (line : List Char) : Bool :=
  startsWith "@Column".toList line || startsWith "@Primary".toList line

namespace Entries

/-- Read the length that a line may hold. -/
def readLength (e : Entries) (line : List Char) : Except Fault (Option Nat) :=
  if beginsColumn line ∧ '\x7b' ∈ line ∧ '\x7d' ∈ line then lengthInOptions line
  else if contains "length: ".toList line then (lengthOnLine line).map some
  else .ok e.maxLength

/-- Read one line: its default if it has one, and for a string what is left of it for a length. -/
def readLine (o : Options) (type : ColumnType) (e : Entries) (raw : List Char) :
    Except Fault Entries :=
  let line := trim raw
  let (line, default) :=
    if contains defaultFunction line then
      let (head, value) := splitDefault line
      (head, if o.ignores value then none else some value)
    else (line, e.default)
  if type = .string then (e.readLength line).map fun n => ⟨n, default⟩
  else .ok ⟨e.maxLength, default⟩

/-- Read lines in turn; what a later line says replaces what an earlier one said. -/
def readLines (o : Options) (type : ColumnType) :
    Entries → List (List Char) → Except Fault Entries
  | e, [] => .ok e
  | e, l :: ls =>
    match e.readLine o type l with
    | .ok e => readLines o type e ls
    | .error f => .error f

end Entries

namespace ColumnBlock

def parse (o : Options) (block : List Char) : Except Fault ColumnBlock :=
  let ls := (Text.lines block).dropWhile isAllBlank
  let body := dropShortTail ls
  match body.getLast? with
  | none => .error (.missingField (trim block))
  | some fieldLine =>
    match Declaration.parse fieldLine with
    | .error f => .error f
    | .ok d =>
      match Entries.readLines o d.type {} body with
      | .error f => .error f
      | .ok e => .ok
        { lines := ls
          property := d.property
          type := d.type
          optional := d.optional
          maxLength := e.maxLength
          default := e.default.filter (· ≠ []) }

/-- The rules of a column in the order in which they are written. -/
def rules (b : ColumnBlock) : List Rule :=
  (if b.optional then [.isOptional] else []) ++ b.type.rule?.toList ++
    (b.maxLength.map Rule.maxLength).toList

/-- The block without the index decorators in front of the entity it begins. A block that does not
begin with one stays as it is. -/
def stripIndex (b : ColumnBlock) : ColumnBlock :=
  let fromEntity := b.lines.dropWhile fun l => !startsWith "@Entity".toList l
  if (b.lines.head?.any (contains "@Index".toList)) ∧ fromEntity ≠ [] then
    { b with lines := fromEntity }
  else b

/-- The field line of a column with its question mark and initial value. -/
def renderField (b : ColumnBlock) (line : List Char) : List Char :=
  let line := if b.optional then markOptional line else line
  match b.default with
  | some value => initialise value line
  | none => line

/-- The lines of the block, with the decorators of the rules in front of the field line. -/
def renderLines (b : ColumnBlock) : List (List Char) :=
  let body := dropShortTail b.lines
  match body.getLast? with
  | none => []
  | some field =>
    let indent := field.takeWhile isBlank
    body.dropLast ++ b.rules.map (fun r => indent ++ r.text) ++ [b.renderField field]

/-- The block with its validation decorators. -/
def render (b : ColumnBlock) : List Char := unlines b.renderLines

end ColumnBlock

end CompanyRegister.Source
