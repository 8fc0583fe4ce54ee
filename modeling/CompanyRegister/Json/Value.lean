import CompanyRegister.Json.Number
import CompanyRegister.Json.Quotation

/-!
# Values in JSON documents

The readers here take one value of a wanted kind, with blanks before it. A value of another kind is
refused: it is read as far as it must be to name it, and the place is the one reached.

Lists and objects are left to those who know their members; this module has the steps: what may
stand before a member, and where the reader is when the bracket is left early.
-/

namespace CompanyRegister.Json

open Text

/-- The characters that may stand between the parts of a document. -/
def isGap (c : Char) : Bool := c == ' ' || c == '\n' || c == '\t' || c == '\r'

def skipGap (text : List Char) : List Char := text.dropWhile isGap

/-- Read the rest of a word such as `null`. -/
def word : List Char → List Char → Except Fault (List Char)
  | [], text => .ok text
  | _ :: _, [] => .error (.here .endInValue [])
  | w :: ws, c :: text => if c = w then word ws text else .error (.next .wordExpected (c :: text))

/-! ### Values of any kind -/

/-- A value, of which a bracket stands for all that it holds; behind an opening bracket the text is
left as it is. -/
inductive Head
  | null
  | boolean (b : Bool)
  | number (n : Number)
  | text (s : List Char)
  | list
  | object

/-- Read a value up to its end, or up to and with an opening bracket. -/
def readHead (text : List Char) : Except Fault (Head × List Char) :=
  match skipGap text with
  | [] => .error (.next .endInValue [])
  | 'n' :: rest => do return (.null, ← word ['u', 'l', 'l'] rest)
  | 't' :: rest => do return (.boolean true, ← word ['r', 'u', 'e'] rest)
  | 'f' :: rest => do return (.boolean false, ← word ['a', 'l', 's', 'e'] rest)
  | '-' :: rest => do
    let (n, rest) ← readNumber true rest
    return (.number n, rest)
  | '"' :: rest => do
    let (s, rest) ← unquote rest
    return (.text s, rest)
  | '[' :: rest => .ok (.list, rest)
  | '\x7b' :: rest => .ok (.object, rest)
  | c :: rest =>
    if c.isDigit then do
      let (n, rest) ← readNumber false (c :: rest)
      return (.number n, rest)
    else .error (.next .valueExpected (c :: rest))

def Head.found : Head → Found
  | .null => .null
  | .boolean b => .boolean b
  | .number (.whole n) => .integer n
  | .number (.real x) => .real x
  | .text s => .text s
  | .list => .list
  | .object => .object

def Head.isOpen : Head → Bool
  | .list | .object => true
  | _ => false

/-- The text after a value that was refused: an opening bracket has not been read. -/
def Head.refusedAt (h : Head) (text rest : List Char) : List Char :=
  if h.isOpen then skipGap text else rest

/-- Take a value that `accept` takes; refuse any other as no `expected`. -/
def accepted {α : Type} (expected : String) (accept : Head → Option (Except Cause α))
    (text : List Char) : Except Fault (α × List Char) := do
  let (h, rest) ← readHead text
  match accept h with
  | some (.ok a) => return (a, rest)
  | some (.error cause) => .error (.here cause rest)
  | none => .error (.here (.invalidType h.found expected) (h.refusedAt text rest))

/-! ### Values of one kind -/

/-- A whole number from `lo` to `hi`. -/
def wholeNumber (lo hi : Int) (expected : String) : List Char → Except Fault (Int × List Char) :=
  accepted expected fun
    | .number (.whole n) =>
      some (if lo ≤ n ∧ n ≤ hi then .ok n
        else .error (.invalidValue (.integer n) expected))
    | _ => none

def floatNumber : List Char → Except Fault (Float × List Char) :=
  accepted "f64" fun
    | .number (.whole n) => some (.ok (Float.ofInt n))
    | .number (.real x) => some (.ok x)
    | _ => none

def stringValue : List Char → Except Fault (List Char × List Char) :=
  accepted "a string" fun
    | .text s => some (.ok s)
    | _ => none

def nullable {α : Type} (reader : List Char → Except Fault (α × List Char)) (text : List Char) :
    Except Fault (Option α × List Char) :=
  match skipGap text with
  | 'n' :: rest => do return (none, ← word ['u', 'l', 'l'] rest)
  | _ => do
    let (a, rest) ← reader text
    return (some a, rest)

/-! ### Brackets -/

/-- What stands before the next member of an object: a key, or the closing brace. -/
inductive Member
  | key (name : List Char)
  | close

/-- Read up to the end of the next key, or up to the closing brace, which is left unread. -/
def nextMember (isFirst : Bool) (text : List Char) : Except Fault (Member × List Char) :=
  let key (text : List Char) : Except Fault (Member × List Char) :=
    match text with
    | '"' :: rest => do
      let (s, rest) ← unquote rest
      return (.key s, rest)
    | '\x7d' :: _ => .error (.next .trailingComma text)
    | [] => .error (.next .endInValue [])
    | _ => .error (.next .keyExpected text)
  match skipGap text with
  | [] => .error (.next .endInObject [])
  | '\x7d' :: rest => .ok (.close, '\x7d' :: rest)
  | c :: rest =>
    if isFirst then key (c :: rest)
    else if c = ',' then key (skipGap rest)
    else .error (.next .commaOrBraceExpected (c :: rest))

def colon (text : List Char) : Except Fault (List Char) :=
  match skipGap text with
  | ':' :: rest => .ok rest
  | [] => .error (.next .endInObject [])
  | text => .error (.next .colonExpected text)

/-- Whether an element of a list follows; if so the text is left at it, else at the closing
bracket. -/
def nextElement (isFirst : Bool) (text : List Char) : Except Fault (Bool × List Char) :=
  match skipGap text with
  | [] => .error (.next .endInList [])
  | ']' :: rest => .ok (false, ']' :: rest)
  | c :: rest =>
    if isFirst then .ok (true, c :: rest)
    else if c = ',' then
      match skipGap rest with
      | [] => .error (.next .endInValue [])
      | ']' :: rest => .error (.next .trailingComma (']' :: rest))
      | rest => .ok (true, rest)
    else .error (.next .commaOrBracketExpected (c :: rest))

def closeObject (text : List Char) : Except Fault (List Char) :=
  match skipGap text with
  | '\x7d' :: rest => .ok rest
  | [] => .error (.next .endInObject [])
  | ',' :: rest => .error (.next .trailingComma (',' :: rest))
  | text => .error (.next .trailingCharacters text)

def closeList (text : List Char) : Except Fault (List Char) :=
  match skipGap text with
  | ']' :: rest => .ok rest
  | [] => .error (.next .endInList [])
  | ',' :: rest =>
    match skipGap rest with
    | ']' :: rest => .error (.next .trailingComma (']' :: rest))
    | rest => .error (.next .trailingCharacters rest)
  | text => .error (.next .trailingCharacters text)

/-- Where the reader is when an object is left early: behind its brace if that follows. -/
def leftObject (text : List Char) : List Char :=
  match skipGap text with
  | '\x7d' :: rest => rest
  | text => text

/-- Where the reader is when a list is left early: behind its bracket if that follows, or behind a
comma and the gap after it. -/
def leftList (text : List Char) : List Char :=
  match skipGap text with
  | ']' :: rest => rest
  | ',' :: rest => skipGap rest
  | text => text

/-- Nothing but a gap may follow the value of a document. -/
def endOfDocument (text : List Char) : Except Fault Unit :=
  match skipGap text with
  | [] => .ok ()
  | text => .error (.next .trailingCharacters text)

end CompanyRegister.Json
