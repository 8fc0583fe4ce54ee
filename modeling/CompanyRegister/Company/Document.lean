import CompanyRegister.Company.Input
import CompanyRegister.Json.Value

/-!
# Records and inputs as JSON documents

An input is read from a JSON object whose members are the eight fields in any order, each at most
once, or from a list of the eight in their order. A field that is `null` or left out is missing.

    text ──Input.ofJson──▶ Input ──toCompany──▶ Company ──toJson──▶ text

A record is written as an object of its eight fields in order, on one line or one field a line.
-/

namespace CompanyRegister

open Json Text Calendar

/-! ### Fields -/

inductive Field
  | companyId
  | companyName
  | baseRate
  | defaultCurrencyId
  | enterUserId
  | enterDate
  | taxRate
  | companyGroupId
  deriving DecidableEq, Repr

namespace Field

def all : List Field :=
  [companyId, companyName, baseRate, defaultCurrencyId, enterUserId, enterDate, taxRate,
    companyGroupId]

/-- The name of a field in documents. -/
def name : Field → String
  | companyId => "companyId"
  | companyName => "companyName"
  | baseRate => "baseRate"
  | defaultCurrencyId => "defaultCurrencyId"
  | enterUserId => "enterUserId"
  | enterDate => "enterDate"
  | taxRate => "taxRate"
  | companyGroupId => "companyGroupId"

def ofName? (s : List Char) : Option Field := all.find? fun f => f.name.toList = s

theorem mem_all (f : Field) : f ∈ all := by
  cases f <;> decide

end Field

/-! ### Reading amounts -/

namespace Money

/-- What an amount is called when another value stands in its place. -/
def expectation : String := "a currency amount as a number or decimal string"

/-- The amount that a JSON value gives: whole units, a number of units, or a text. -/
def ofHead (h : Head) : Except Cause Money :=
  match h with
  | .number (.whole n) =>
    match ofWhole? n with
    | some m => .ok m
    | none => .error (.refused s!"money amount {n} is out of range")
  | .number (.real x) =>
    match ofFloat? x with
    | some m => .ok m
    | none =>
      let number := String.ofList (Decimal.plain.text x)
      .error (.refused s!"money amount {number} is out of range")
  | .text s => (parse s).mapError fun e => .refused e.message
  | h => .error (.invalidType h.found expectation)

/-- Read an amount. A bracket is entered and left again before it is refused. -/
def read (text : List Char) : Except Fault (Money × List Char) := do
  let (h, rest) ← readHead text
  match ofHead h with
  | .ok m => return (m, rest)
  | .error cause =>
    .error (.here cause (match h with
      | .list => leftList rest
      | .object => leftObject rest
      | _ => rest))

def readDocument (text : List Char) : Except Fault Money := do
  let (m, rest) ← read text
  endOfDocument rest
  return m

end Money

/-! ### Reading inputs -/

namespace Input

/-- Read the value of a field into an input. -/
def readField (f : Field) (i : Input) (text : List Char) : Except Fault (Input × List Char) :=
  let small := nullable (wholeNumber (-32768) 32767 "i16")
  let medium := nullable (wholeNumber (-2147483648) 2147483647 "i32")
  match f with
  | .companyId => do
    let (v, rest) ← small text
    return ({ i with companyId := v.map Int.toInt16 }, rest)
  | .companyName => do
    let (v, rest) ← nullable stringValue text
    return ({ i with companyName := v.map String.ofList }, rest)
  | .baseRate => do
    let (v, rest) ← nullable Money.read text
    return ({ i with baseRate := v }, rest)
  | .defaultCurrencyId => do
    let (v, rest) ← small text
    return ({ i with defaultCurrencyId := v.map Int.toInt16 }, rest)
  | .enterUserId => do
    let (v, rest) ← medium text
    return ({ i with enterUserId := v.map Int.toInt32 }, rest)
  | .enterDate => do
    let (v, rest) ← nullable stringValue text
    return ({ i with enterDate := v.map String.ofList }, rest)
  | .taxRate => do
    let (v, rest) ← nullable floatNumber text
    return ({ i with taxRate := v }, rest)
  | .companyGroupId => do
    let (v, rest) ← medium text
    return ({ i with companyGroupId := v.map Int.toInt32 }, rest)

/-- What an input is called when another value stands in its place. -/
def expectation : String := "struct CompanyInput"

/-- The field that a key names, if it has not been given before. -/
def fieldOfKey (given : List Field) (key : List Char) : Except Fault Field :=
  match Field.ofName? key with
  | none => .error (.unplaced (.unknownField (String.ofList key) (Field.all.map Field.name)))
  | some f =>
    if f ∈ given then .error (.unplaced (.duplicateField f.name)) else .ok f

/-- Leave an object for a fault in it. -/
def leaveObject {α : Type} (rest : List Char) : Except Fault α → Except Fault α
  | .ok a => .ok a
  | .error f => .error (f.placedAt (leftObject rest))

/-- Read members up to the closing brace. Each new member is a field not given before, so there are
no more than `free` of them. -/
def readMembers (free : Nat) (given : List Field) (i : Input) (text : List Char) :
    Except Fault (Input × List Char) := do
  match ← nextMember given.isEmpty text with
  | (.close, rest) => return (i, rest)
  | (.key key, rest) =>
    let f ← leaveObject rest (fieldOfKey given key)
    let rest ← colon rest
    let (i, rest) ← readField f i rest
    match free with
    | 0 => return (i, rest)
    | free + 1 => readMembers free (f :: given) i rest

/-- Read the elements of a list into the fields, in order. -/
def readElements : List Field → Nat → Input → List Char → Except Fault (Input × List Char)
  | [], _, i, text => .ok (i, text)
  | f :: fields, count, i, text => do
    match ← nextElement (count == 0) text with
    | (true, rest) =>
      let (i, rest) ← readField f i rest
      readElements fields (count + 1) i rest
    | (false, rest) =>
      .error (.here (.invalidLength count s!"{expectation} with 8 elements") (leftList rest))

/-- Read an input: an object or a list. -/
def read (text : List Char) : Except Fault (Input × List Char) := do
  let (h, rest) ← readHead text
  match h with
  | .object =>
    let (i, rest) ← readMembers Field.all.length [] {} rest
    return (i, ← closeObject rest)
  | .list =>
    let (i, rest) ← readElements Field.all 0 {} rest
    return (i, ← closeList rest)
  | h => .error (.here (.invalidType h.found expectation) rest)

def readDocument (text : List Char) : Except Fault Input := do
  let (i, rest) ← read text
  endOfDocument rest
  return i

/-- The input that a JSON text gives; a text that gives none is one violation. -/
def ofJson (text : List Char) : Except (List Violation) Input :=
  (readDocument text).mapError fun f => [.malformed (f.message text)]

end Input

/-! ### Writing records -/

namespace Company

def jsonOption {α : Type} (f : α → List Char) : Option α → List Char
  | some a => f a
  | none => ['n', 'u', 'l', 'l']

/-- A number, or `null` for what is no number. -/
def jsonFloat (x : Float) : List Char :=
  if x.isFinite then Decimal.document.text x else ['n', 'u', 'l', 'l']

def jsonField (c : Company) : Field → List Char
  | .companyId => jsonOption (fun n => signed n.toInt) c.companyId
  | .companyName => jsonOption (fun s => quote s.toList) c.companyName
  | .baseRate => jsonOption (fun m => quote m.text) c.baseRate
  | .defaultCurrencyId => jsonOption (fun n => signed n.toInt) c.defaultCurrencyId
  | .enterUserId => signed c.enterUserId.toInt
  | .enterDate => quote c.enterDate.exactText
  | .taxRate => jsonOption jsonFloat c.taxRate
  | .companyGroupId => jsonOption (fun n => signed n.toInt) c.companyGroupId

/-- Names and values of all fields, `gap` after each colon. -/
def jsonMembers (gap : List Char) (c : Company) : List (List Char) :=
  Field.all.map fun f => quote f.name.toList ++ ':' :: (gap ++ c.jsonField f)

/-- The record as a JSON object on one line, without blanks. -/
def toJson (c : Company) : List Char :=
  '\x7b' :: ([','].intercalate (c.jsonMembers []) ++ ['\x7d'])

/-- The record as a JSON object with one field a line. -/
def toPrettyJson (c : Company) : List Char :=
  ['\x7b', '\n', ' ', ' '] ++ [',', '\n', ' ', ' '].intercalate (c.jsonMembers [' ']) ++
    ['\n', '\x7d']

end Company

end CompanyRegister
