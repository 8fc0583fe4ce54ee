import CompanyRegister.Calendar.Written
import CompanyRegister.Company.Document
import CompanyRegister.Register.Fault
import CompanyRegister.Schema.Company
import CompanyRegister.Store.Table

/-!
# Records as rows

A record is kept as one row, each field in a column of its own.

    Company ──Company.cells──▶ cells ──Company.ofCells──▶ Company

Amounts are kept as counts of ten-thousandths and instants as texts with milliseconds. Reading
refuses a cell of the wrong kind, a number that the field has no room for, a text that is no
instant, and a row that breaks a rule of records; nothing is guessed.
-/

namespace CompanyRegister

open Calendar Store

/-- The table that keeps the records. -/
def Register.tableName : String := Company.entity.table

namespace Field

/-- The column that keeps a field. -/
def column : Field → String
  | companyId => "CompanyId"
  | companyName => "CompanyName"
  | baseRate => "BaseRate"
  | defaultCurrencyId => "DefaultCurrencyId"
  | enterUserId => "EnterUserId"
  | enterDate => "EnterDate"
  | taxRate => "TaxRate"
  | companyGroupId => "CompanyGroupId"

def columns : List String := all.map column

/-- The place of a field in a row that is read. -/
def place (f : Field) : Nat := all.idxOf f

end Field

namespace Company

/-! ### Writing -/

/-- What a record keeps in the column of a field. -/
def cell (c : Company) : Field → Cell
  | .companyId => .ofOption (fun n => .int n.toInt) c.companyId
  | .companyName => .ofOption .text c.companyName
  | .baseRate => .ofOption (fun m => .int m.units.toInt) c.baseRate
  | .defaultCurrencyId => .ofOption (fun n => .int n.toInt) c.defaultCurrencyId
  | .enterUserId => .int c.enterUserId.toInt
  | .enterDate => .text (String.ofList c.enterDate.millisText)
  | .taxRate => .ofOption .ofFloat c.taxRate
  | .companyGroupId => .ofOption (fun n => .int n.toInt) c.companyGroupId

/-- The cells of the given fields by column. -/
def cellsOf (c : Company) (fields : List Field) : Cells := fields.map fun f => (f.column, c.cell f)

def cells (c : Company) : Cells := c.cellsOf Field.all

/-- The cells of a record other than its id. -/
def plainCells (c : Company) : Cells := c.cellsOf (Field.all.erase .companyId)

/-! ### Reading -/

/-- The fault of a cell that is of the wrong kind for a field. -/
def wrongKind (f : Field) (c : Cell) : Register.Fault :=
  .store (.wrongKind c.kind f.place f.column)

/-- Read a whole number between two bounds. -/
def wholeOfCell (low high : Int) (f : Field) : Cell → Except Register.Fault Int
  | .int n => if low ≤ n ∧ n ≤ high then .ok n else .error (.store (.outOfRange n f.place))
  | c => .error (wrongKind f c)

def int16OfCell (f : Field) (c : Cell) : Except Register.Fault Int16 :=
  (wholeOfCell Int16.minValue.toInt Int16.maxValue.toInt f c).map Int16.ofInt

def int32OfCell (f : Field) (c : Cell) : Except Register.Fault Int32 :=
  (wholeOfCell Int32.minValue.toInt Int32.maxValue.toInt f c).map Int32.ofInt

def moneyOfCell (f : Field) (c : Cell) : Except Register.Fault Money :=
  (wholeOfCell Int64.minValue.toInt Int64.maxValue.toInt f c).map fun n => ⟨Int64.ofInt n⟩

def textOfCell (f : Field) : Cell → Except Register.Fault String
  | .text s => .ok s
  | c => .error (wrongKind f c)

/-- Read a floating point number; a whole number is one as well. -/
def floatOfCell (f : Field) : Cell → Except Register.Fault Float
  | .real x => .ok x
  | .int n => .ok (Float.ofInt n)
  | c => .error (wrongKind f c)

/-- Read a value that may be missing. -/
def optionOfCell {α : Type} (read : Field → Cell → Except Register.Fault α) (f : Field) :
    Cell → Except Register.Fault (Option α)
  | .null => .ok none
  | c => (read f c).map some

def instantOfText (s : String) : Except Register.Fault Instant :=
  match Instant.parse? s.toList with
  | some t => .ok t
  | none =>
    let table := Register.tableName
    let column := Field.enterDate.column
    .error (.unreadable s!"invalid date `{s}` in {table}.{column}")

/-- Read a record from the cells of a row. The id and the instant go first. -/
def ofCells (cs : Cells) : Except Register.Fault Company := do
  let cellOf (f : Field) := cs.cell f.column
  let id ← int16OfCell .companyId (cellOf .companyId)
  let date ← instantOfText (← textOfCell .enterDate (cellOf .enterDate))
  let name ← optionOfCell textOfCell .companyName (cellOf .companyName)
  let rate ← optionOfCell moneyOfCell .baseRate (cellOf .baseRate)
  let currency ← optionOfCell int16OfCell .defaultCurrencyId (cellOf .defaultCurrencyId)
  let user ← int32OfCell .enterUserId (cellOf .enterUserId)
  let tax ← optionOfCell floatOfCell .taxRate (cellOf .taxRate)
  let group ← optionOfCell int32OfCell .companyGroupId (cellOf .companyGroupId)
  let c : Company :=
    { companyId := some id
      companyName := name
      baseRate := rate
      defaultCurrencyId := currency
      enterUserId := user
      enterDate := date
      taxRate := tax
      companyGroupId := group }
  c.validate.mapError .rule
  return c

end Company

end CompanyRegister
