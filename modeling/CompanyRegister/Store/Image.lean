import CompanyRegister.Store.Migration
import CompanyRegister.Text.Pieces

/-!
# Database files

A database is kept in a file of pages. The first page has a header and the list of all tables and
indexes; every table and every index has a page of its own. `image` writes a database whose table
has no rows. Of a file that is there the version is read, and whether it has tables at all.

    Database ──image──▶ bytes ──ofBytes──▶ Database without its table
-/

namespace CompanyRegister.Store.Image

abbrev Bytes := List UInt8

def pageSize : Nat := 4096

/-- Bytes in the header of the file. -/
def headerSize : Nat := 100

/-- Numbers that four bytes can spell. -/
def wordSize : Nat := 4294967296

/-- The text that every database file begins with, and the byte behind it. -/
def magic : Bytes := ("SQLite format 3".toList.map fun c => UInt8.ofNat c.toNat) ++ [0]

/-- A number in a fixed count of bytes, the most significant first. -/
def fixed (width n : Nat) : Bytes :=
  (List.range width).map fun k => UInt8.ofNat (n / Nat.pow 256 (width - 1 - k))

/-- Groups of seven bits, each marked to be followed by another. -/
def groups (n : Nat) : Bytes :=
  if n = 0 then [] else groups (n / 128) ++ [UInt8.ofNat (128 + n % 128)]
termination_by n
decreasing_by omega

/-- A number in as few bytes as it needs: seven bits each, the last byte unmarked. -/
def varying (n : Nat) : Bytes := groups (n / 128) ++ [UInt8.ofNat (n % 128)]

def bytesOf (text : List Char) : Bytes := (String.ofList text).toUTF8.toList

/-! ### Tables and indexes -/

/-- What the first page says of a table or an index. -/
structure Entry where
  kind : String
  name : String
  table : String
  sql : List Char

/-- The entries of a table and its indexes. -/
def entriesOf (t : Table) : List Entry :=
  { kind := "table", name := t.name, table := t.name,
    sql := "CREATE TABLE ".toList ++ t.name.toList ++ t.definition.body } ::
  t.indexes.map fun i =>
    { kind := "index", name := i.name, table := t.name,
      sql := i.creation ++ i.name.toList ++ i.body t.name.toList }

/-- What tells the type of a text. -/
def textType (bytes : Bytes) : Bytes := varying (13 + 2 * bytes.length)

/-- An entry as a record: the types of its five values, then the values. The page that belongs to
the entry fits into one byte. -/
def Entry.record (e : Entry) (page : Nat) : Bytes :=
  let kind := bytesOf e.kind.toList
  let name := bytesOf e.name.toList
  let table := bytesOf e.table.toList
  let sql := bytesOf e.sql
  let types := textType kind ++ textType name ++ textType table ++ [1] ++ textType sql
  varying (1 + types.length) ++ types ++ kind ++ name ++ table ++ fixed 1 page ++ sql

/-- An entry as a cell: the size of its record, its number and the record. -/
def Entry.cell (e : Entry) (number : Nat) : Bytes :=
  let record := e.record (number + 1)
  varying record.length ++ varying number ++ record

/-! ### Pages -/

inductive PageKind
  | table
  | index

/-- The byte that tells the kind of a page whose cells lie in the page itself. -/
def PageKind.mark : PageKind → UInt8
  | .table => 13
  | .index => 10

/-- Where cells begin that fill a page from its end, the first one last. -/
def cellStarts (stop : Nat) : List Bytes → List Nat
  | [] => []
  | c :: cs => (stop - c.length) :: cellStarts (stop - c.length) cs

/-- A page with cells, behind what already stands on it. -/
def page (kind : PageKind) (front : Bytes) (cells : List Bytes) : Bytes :=
  let starts := cellStarts pageSize cells
  let content := (cells.reverse).flatten
  let head := front ++ [kind.mark] ++ fixed 2 0 ++ fixed 2 cells.length ++
    fixed 2 (starts.getLast?.getD pageSize) ++ [0] ++ starts.flatMap (fixed 2)
  head ++ List.replicate (pageSize - head.length - content.length) 0 ++ content

/-- The header of a file of some pages. -/
def header (version : Int) (pages : Nat) : Bytes :=
  magic ++ fixed 2 pageSize ++ [1, 1, 0, 64, 32, 32] ++ fixed 4 1 ++ fixed 4 pages ++ fixed 8 0 ++
    fixed 4 1 ++ fixed 4 4 ++ fixed 8 0 ++ fixed 4 1 ++ fixed 4 (version % wordSize).toNat ++
    fixed 28 0 ++ fixed 4 1 ++ fixed 4 3046000

def Entry.pageKind (e : Entry) : PageKind := if e.kind = "table" then .table else .index

/-- The file of a database whose table has no rows. -/
def image (d : Database) : Bytes :=
  let entries := (d.table?.map entriesOf).getD []
  let cells := (entries.zipIdx 1).map fun (e, number) => e.cell number
  page .table (header d.version (1 + entries.length)) cells ++
    entries.flatMap fun e => page e.pageKind [] []

/-! ### Reading -/

/-- The number that some bytes spell, the most significant first. -/
def number (bytes : Bytes) : Nat := bytes.foldl (fun n b => 256 * n + b.toNat) 0

/-- The number in `width` bytes of a file from a place on. -/
def numberAt (content : Bytes) (place width : Nat) : Nat :=
  number ((content.drop place).take width)

def versionOf (content : Bytes) : Int := (numberAt content 60 4 : Int).bmod wordSize

/-- Whether the first page has no entries. -/
def isBare (content : Bytes) : Bool :=
  numberAt content headerSize 1 == 13 && numberAt content (headerSize + 3) 2 == 0

/-- The database in a file, without its table. A file without content is a database without a table.
Tables are not read, so an older database that has some is refused. -/
def ofBytes (content : Bytes) : Except Fault Database :=
  if content = [] then .ok .empty
  else if headerSize ≤ content.length ∧ content.take magic.length = magic then
    let version := versionOf content
    if 0 ≤ version ∧ version < Migration.latest ∧ isBare content = false then
      .error (.tablesNotRead version)
    else .ok { version := version }
  else .error .notADatabase

/-! ### Opening -/

/-- Open the database in a file with this content: bring it up to date, and give the new content if
that has changed it. -/
def openFile (content : Bytes) : Outcome Fault Unit × Option Bytes :=
  match ofBytes content with
  | .error f => (Database.refuseOpening "file" f, none)
  | .ok d =>
    let o := d.openAs "file"
    (o, if o.database.version = d.version then none else some (image o.database))

end CompanyRegister.Store.Image
