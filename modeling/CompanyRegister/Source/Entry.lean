import CompanyRegister.Source.Fault
import CompanyRegister.Text.Blank
import CompanyRegister.Text.Digits
import CompanyRegister.Text.Pieces

/-!
# Entries of column options

The decorator of a column may carry an options object, on one line or with one entry a line. Two
entries matter: `length`, the most characters of a string, and `default`, the value that the
database gives a column.

The length is looked for in the last object of a line that holds one (`lengthInOptions`), or on a
line of its own (`lengthOnLine`). The default is cut off its line (`splitDefault`), and what stood
before it is closed again, so that the length can still be looked for there.
-/

namespace CompanyRegister.Source

open Text

/-! ### Length -/

/-- Whether a character ends the value of an entry. -/
def endsValue (c : Char) : Bool := c == ',' || isBlank c

/-- The value of an entry and what follows it: all up to a comma or a blank; there must be some. -/
def entryValue? (text : List Char) : Option (List Char × List Char) :=
  let v := text.takeWhile fun c => !endsValue c
  if v = [] then none else some (v, text.dropWhile fun c => !endsValue c)

/-- The text without one quote that it begins with, if it begins with one. -/
def dropQuote : List Char → List Char
  | c :: text => if c = '"' ∨ c = '\'' then text else c :: text
  | [] => []

/-- What follows a colon with blanks around it. -/
def afterColon? (text : List Char) : Option (List Char) :=
  match trimStart text with
  | ':' :: text => some (trimStart text)
  | _ => none

/-- The value of a length entry that the text begins with; its key may stand in quotes. -/
def entryLength? (text : List Char) : Option (List Char) := do
  let text ← after? "length".toList (dropQuote text)
  let text ← afterColon? (dropQuote text)
  let (v, _) ← entryValue? text
  return v

/-- The value of the first length entry that stands behind a comma or a blank. -/
def laterLength? : List Char → Option (List Char)
  | [] => none
  | c :: text =>
    match if endsValue c then entryLength? text else none with
    | some v => some v
    | none => laterLength? text

/-- The value of the first length entry of an options object. -/
def lengthValue? (body : List Char) : Option (List Char) :=
  match entryLength? body with
  | some v => some v
  | none => laterLength? body

/-- What stands between the braces of a line, opening and closing ones alike. -/
def braceSegments (line : List Char) : List (List Char) :=
  (line.map fun c => if c = '\x7d' then '\x7b' else c).splitOn '\x7b'

/-- The length in the last options object of a line; `none` when the object has no length. -/
def lengthInOptions (line : List Char) : Except Fault (Option Nat) :=
  match (braceSegments line).reverse with
  | _ :: body :: _ :: _ =>
    match lengthValue? body with
    | none => .ok none
    | some v =>
      match word32? v with
      | some n => .ok (some n)
      | none => .error (.malformedLength line)
  | _ => .error (.malformedOptions line)

/-- The value of a length entry that the text begins with and that nothing but a comma and blanks
follow. -/
def lastEntryLength? (text : List Char) : Option (List Char) := do
  let text ← after? "length".toList text
  let text ← afterColon? text
  let (v, rest) ← entryValue? text
  match trimStart rest with
  | [] => return v
  | ',' :: rest => if isAllBlank rest then return v else none
  | _ => none

/-- The value of the first length entry that ends its line. -/
def lineLength? : List Char → Option (List Char)
  | [] => none
  | c :: text =>
    match lastEntryLength? (c :: text) with
    | some v => some v
    | none => lineLength? text

/-- The length on a line of its own. -/
def lengthOnLine (line : List Char) : Except Fault Nat :=
  match (lineLength? line).bind word32? with
  | some n => .ok n
  | none => .error (.malformedLength line)

/-! ### Default -/

/-- What a default entry begins with. -/
def defaultKey : List Char := "default: ".toList

/-- What a default entry that is a function begins with. -/
def defaultFunction : List Char := "default: (".toList

/-- Whether a character around a default belongs to the way it is written. -/
def wrapsDefault (c : Char) : Bool :=
  c == '(' || c == ')' || c == ' ' || c == '=' || c == '>' || c == '\x7d' || c == '\x7b' ||
    c == '"' || c == ',' || c == '\n'

/-- Cut a default off its line: the line without it, its object closed again, and the bare value. -/
def splitDefault (line : List Char) : List Char × List Char :=
  match cut? defaultKey line with
  | some (head, tail) =>
    (if head = [] then [] else head ++ ['\x7d', ')'], strip wrapsDefault tail)
  | none => (line, [])

end CompanyRegister.Source
