import CompanyRegister.Store.Migration
import CompanyRegister.Text.Pieces

/-!
# Scripts

A script is SQL text that makes a table, its columns and its indexes. It is cut into words, commas,
semicolons and the texts in parentheses; what stands between these, blanks and comments, says
nothing. The text in the parentheses of a table is cut in the same way.

    text ──tokens──▶ List Token ──read──▶ List Statement ──Statement.run──▶ Database

A script is read if it is made of statements that make one of the changes of a migration, with the
clauses of a column in the order in which `Column.text` writes them. A check is kept as the
condition that is written, so it has to be spelled as `Check.text` spells it: that text is what a
row is told that breaks it.
-/

namespace CompanyRegister.Store.Script

/-! ### Tokens -/

inductive Token
  | word (w : String)
  /-- The text in a pair of parentheses. -/
  | group (text : List Char)
  | comma
  | semicolon
  /-- Quotes or parentheses that are not closed. -/
  | torn
  deriving DecidableEq, Repr

/-- Where in a script a reader stands. -/
inductive Place
  /-- In a word, whose characters so far are given from the last to the first; between two words
  there are none. -/
  | word (read : List Char) (quoted : Bool)
  /-- In a comment, which the end of the line ends. -/
  | comment
  /-- In parentheses, with those inside that are still open. -/
  | group (read : List Char) (depth : Nat) (quoted : Bool)

/-- The beginning of a script, or where a word is behind. -/
def Place.start : Place := .word [] false

/-- The word that ends here, if one does. -/
def wordOf (read : List Char) : List Token :=
  if read.isEmpty then [] else [.word (String.ofList read.reverse)]

/-- What a character ends, and where it leads. -/
def step : Place → Char → List Token × Place
  | .comment, c => ([], if c = '\n' then .start else .comment)
  | .word read quoted, c =>
    if c = '\'' then ([], .word (c :: read) (!quoted))
    else if quoted then ([], .word (c :: read) true)
    else if c.isWhitespace then (wordOf read, .start)
    else if c = ',' then (wordOf read ++ [.comma], .start)
    else if c = ';' then (wordOf read ++ [.semicolon], .start)
    else if c = '(' then (wordOf read, .group [] 0 false)
    else if c = '-' ∧ read.head? = some '-' then (wordOf read.tail, .comment)
    else ([], .word (c :: read) false)
  | .group read depth quoted, c =>
    if c = '\'' then ([], .group (c :: read) depth (!quoted))
    else if quoted then ([], .group (c :: read) depth true)
    else if c = '(' then ([], .group (c :: read) (depth + 1) false)
    else if c = ')' then
      match depth with
      | 0 => ([.group read.reverse], .start)
      | depth + 1 => ([], .group (c :: read) depth false)
    else ([], .group (c :: read) depth false)

/-- What the end of the text ends. -/
def Place.last : Place → List Token
  | .word read false => wordOf read
  | .comment => []
  | _ => [.torn]

/-- The tokens of a text from a place on. -/
def tokensFrom : Place → List Char → List Token
  | p, [] => p.last
  | p, c :: text => (step p c).1 ++ tokensFrom (step p c).2 text

def tokens (text : List Char) : List Token := tokensFrom .start text

/-! ### Names and numbers -/

/-- Words that are no names. -/
def reserved : List String :=
  ["ADD", "ALL", "ALTER", "AND", "AS", "AUTOINCREMENT", "BETWEEN", "CASE", "CHECK", "COLLATE",
    "COMMIT", "CONSTRAINT", "CREATE", "DEFAULT", "DEFERRABLE", "DELETE", "DISTINCT", "DROP", "ELSE",
    "ESCAPE", "EXISTS", "FOREIGN", "FROM", "GROUP", "HAVING", "IN", "INDEX", "INSERT", "INTERSECT",
    "INTO", "IS", "ISNULL", "JOIN", "LIMIT", "NOT", "NOTHING", "NOTNULL", "NULL", "ON", "OR",
    "ORDER", "PRIMARY", "REFERENCES", "RETURNING", "SELECT", "SET", "TABLE", "THEN", "TO",
    "TRANSACTION", "UNION", "UNIQUE", "UPDATE", "USING", "VALUES", "WHEN", "WHERE"]

/-- Whether a word may name a table, a column or an index without quotes. -/
def isName (w : String) : Bool :=
  w.toList.head?.any (fun c => c.isAlpha || c == '_') &&
    w.toList.all (fun c => c.isAlphanum || c == '_') &&
    !reserved.any fun r => r.toList == w.toList.map Char.toUpper

/-- The number that a word of digits spells. -/
def natural? (w : String) : Option Nat :=
  if w.toList ≠ [] ∧ w.toList.all Char.isDigit then some (Text.value w.toList) else none

/-- The whole number that a word spells. -/
def whole? (w : String) : Option Int :=
  match w.toList with
  | '-' :: ds => (natural? (String.ofList ds)).map Int.negOfNat
  | _ => (natural? w).map Int.ofNat

/-! ### Columns -/

/-- The affinity that has this name. -/
def affinity? (w : String) : Option Affinity :=
  [Affinity.integer, .real, .text, .blob].find? fun a => a.name == w

/-- What the first clauses say about missing values, and the other clauses. -/
def takePresence : List Token → Presence × List Token
  | .word "PRIMARY" :: .word "KEY" :: rest => (.primaryKey, rest)
  | .word "NOT" :: .word "NULL" :: rest => (.required, rest)
  | .word "NULL" :: rest => (.nullable, rest)
  | rest => (.nullable, rest)

/-- The default that the first clause gives, if it gives one, and the other clauses. -/
def takeDefault? : List Token → Option (Option Default × List Token)
  | .word "DEFAULT" :: .word sql :: rest => some (some (.literal sql), rest)
  | .word "DEFAULT" :: .group text :: rest =>
    if '(' :: (text ++ [')']) = nowExpression.toList then some (some .now, rest) else none
  | rest => some (none, rest)

/-- The check that has the numbers of a condition. -/
def checkOf? : List Token → Option Check
  | [.word _, .word "IS", .word "NULL", .word "OR", .word _, .word "BETWEEN", .word low,
      .word "AND", .word high] => do return .between (← whole? low) (← whole? high)
  | [.word _, .word "IS", .word "NULL", .word "OR", .word "length", .group _, .word "<=",
      .word n] => (natural? n).map .maxLength
  | _ => none

/-- The check on the column of that name that a condition is the text of. -/
def check? (column condition : List Char) : Option Check :=
  (checkOf? (tokens condition)).filter fun k => k.text column == condition

def checks? (column : List Char) : List Token → Option (List Check)
  | [] => some []
  | .word "CHECK" :: .group condition :: rest =>
    (check? column condition).bind fun k => (checks? column rest).map (k :: ·)
  | _ => none

/-- The column that a definition describes. -/
def column? : List Token → Option Column
  | .word name :: .word type :: clauses => do
    guard (isName name)
    let affinity ← affinity? type
    let (presence, clauses) := takePresence clauses
    let (default, clauses) ← takeDefault? clauses
    let checks ← checks? name.toList clauses
    return { name, affinity, presence, default, checks }
  | _ => none

/-- The columns of a table: names that differ, and at most one primary key. -/
def columns? (text : List Char) : Option (List Column) := do
  let columns ← ((tokens text).splitOn .comma).mapM column?
  guard (columns.map Column.name).Nodup
  guard ((columns.filter fun c => c.presence == .primaryKey).length ≤ 1)
  return columns

/-! ### Statements -/

/-- A change, which may be asked for only where what it makes is not there. -/
structure Statement where
  change : Change
  unlessThere : Bool := false
  deriving DecidableEq, Repr

/-- Whether the next words ask for a change only where what it makes is not there. -/
def unlessThere : List Token → Bool × List Token
  | .word "IF" :: .word "NOT" :: .word "EXISTS" :: rest => (true, rest)
  | rest => (false, rest)

/-- The table that is made, without indexes. -/
def table? : List Token → Option Change
  | [.word name, .group text] => do
    guard (isName name)
    return .createTable { name, columns := ← columns? text }
  | _ => none

/-- A name by itself. -/
def name? : List Token → Option String
  | [.word name] => if isName name then some name else none
  | _ => none

/-- The index that is made. -/
def index? (unique : Bool) : List Token → Option Change
  | [.word name, .word "ON", .word table, .group text] => do
    guard (isName name && isName table)
    return .addIndex table { name, unique, columns := ← ((tokens text).splitOn .comma).mapM name? }
  | _ => none

/-- The column that a table is given. It may be missing and has no default, so the rows that are
there need no values for it. -/
def addition? : List Token → Option Change
  | .word table :: .word "ADD" :: .word "COLUMN" :: definition => do
    guard (isName table)
    let column ← column? definition
    guard (column = { name := column.name, affinity := column.affinity })
    return .addColumn table column
  | _ => none

/-- A change that what follows the beginning of a statement makes. -/
def making (change? : List Token → Option Change) (rest : List Token) : Option Statement :=
  (change? (unlessThere rest).2).map fun change => ⟨change, (unlessThere rest).1⟩

def statement? : List Token → Option Statement
  | .word "CREATE" :: .word "TABLE" :: rest => making table? rest
  | .word "CREATE" :: .word "INDEX" :: rest => making (index? false) rest
  | .word "CREATE" :: .word "UNIQUE" :: .word "INDEX" :: rest => making (index? true) rest
  | .word "ALTER" :: .word "TABLE" :: rest => (addition? rest).map fun change => ⟨change, false⟩
  | _ => none

/-- The statements of a script. -/
def read (text : List Char) : Option (List Statement) :=
  (((tokens text).splitOn .semicolon).filter fun ts => !ts.isEmpty).mapM statement?

/-! ### Execution -/

/-- Whether a database has what a change makes. -/
def isThere (d : Database) : Change → Bool
  | .createTable definition => d.table?.any fun t => t.name == definition.name
  | .addColumn _ _ => false
  | .addIndex _ i => d.table?.any fun t => (t.indexes.map Index.name).contains i.name

def Statement.run (d : Database) (s : Statement) : Except Fault Database :=
  if s.unlessThere && isThere d s.change then .ok d else s.change.apply d

/-- Execute a script that can be read on a database. -/
def run (text : List Char) (d : Database) : Option (Except Fault Database) :=
  (read text).map fun statements => statements.foldlM Statement.run d

/-! ### Migrations -/

/-- The columns in the script of the first migration. -/
def companyListColumns : List Char := Text.unlines <| List.map String.toList
  ["",
    "    CompanyId INTEGER PRIMARY KEY",
    "        CHECK (CompanyId IS NULL OR CompanyId BETWEEN -32768 AND 32767),",
    "    CompanyName TEXT NULL",
    "        CHECK (CompanyName IS NULL OR length(CompanyName) <= 60),",
    "    BaseRate INTEGER NULL DEFAULT 0,",
    "    DefaultCurrencyId INTEGER NULL DEFAULT 1",
    "        CHECK (DefaultCurrencyId IS NULL OR DefaultCurrencyId BETWEEN -32768 AND 32767),",
    "    EnterUserId INTEGER NOT NULL,",
    "    EnterDate TEXT NOT NULL DEFAULT (strftime('%Y-%m-%dT%H:%M:%fZ', 'now')),",
    "    TaxRate REAL NULL",
    ""]

/-- The script of the first migration. -/
def companyList : List Char :=
  "-- dbo.Company_List\n".toList ++
    "-- BaseRate holds ten-thousandths of the currency unit (SQL money scale).\n".toList ++
    "CREATE TABLE Company_List (".toList ++ companyListColumns ++ ");\n\n".toList ++
    "CREATE UNIQUE INDEX PK_Locations ON Company_List (CompanyId);\n".toList

/-- The script of the second migration. -/
def companyGroup : List Char :=
  "-- Many-to-one join column: CompanyGroupId -> CompanyGroups.companyGroupId\n".toList ++
    "ALTER TABLE Company_List ADD COLUMN CompanyGroupId INTEGER NULL;\n\n".toList ++
    "CREATE INDEX IX_Company_List_CompanyGroupId ON Company_List (CompanyGroupId);\n".toList

end CompanyRegister.Store.Script
