import CompanyRegister.Store.Database

/-!
# Migrations

A database is brought up to date by migrations, each of which raises the version by one. A list of
changes makes a migration; either all migrations that are due succeed or the database stays as it
was.
-/

namespace CompanyRegister.Store

inductive Change
  | createTable (d : TableDefinition)
  | addColumn (table : String) (c : Column)
  | addIndex (table : String) (i : Index)
  deriving DecidableEq, Repr

def Change.apply (d : Database) : Change → Except Fault Database
  | createTable definition =>
    if d.table?.isSome then .error (.tableExists definition.name)
    else .ok (d.withTable (.ofDefinition definition))
  | addColumn table c => do return d.withTable (← (← d.table table).addColumn d.now c)
  | addIndex table i => do return d.withTable (← (← d.table table).addIndex i)

/-- A step from one version to the next. -/
structure Migration where
  version : Nat
  name : String
  changes : List Change
  deriving DecidableEq, Repr

namespace Migration

/-- Make all changes of a migration and record its version. -/
def apply (m : Migration) (d : Database) : Except Fault Database := do
  return { ← m.changes.foldlM Change.apply d with version := m.version }

def tableName : String := "Company_List"

/-- The table of companies in its first form. -/
def firstForm : TableDefinition where
  name := tableName
  columns := [
    { name := "CompanyId", affinity := .integer, presence := .primaryKey,
      checks := [.smallRange] },
    { name := "CompanyName", affinity := .text, checks := [.maxLength 60] },
    { name := "BaseRate", affinity := .integer, default := some (.literal "0") },
    { name := "DefaultCurrencyId", affinity := .integer, default := some (.literal "1"),
      checks := [.smallRange] },
    { name := "EnterUserId", affinity := .integer, presence := .required },
    { name := "EnterDate", affinity := .text, presence := .required, default := some .now },
    { name := "TaxRate", affinity := .real }]
  indexes := [{ name := "PK_Locations", columns := ["CompanyId"], unique := true }]

/-- The column that says to which group a company belongs. -/
def groupColumn : Column := { name := "CompanyGroupId", affinity := .integer }

def groupIndex : Index :=
  { name := "IX_Company_List_CompanyGroupId", columns := ["CompanyGroupId"] }

/-- There is a table of companies. -/
def companyList : Migration where
  version := 1
  name := "company_list"
  changes := [.createTable firstForm]

/-- Companies belong to groups. -/
def companyGroup : Migration where
  version := 2
  name := "company_group"
  changes := [.addColumn tableName groupColumn, .addIndex tableName groupIndex]

def all : List Migration := [companyList, companyGroup]

/-- The version of a database that is up to date. -/
def latest : Nat := all.getLast?.elim 0 version

/-- Run migrations one after the other, up to the first that fails, and report each. -/
def run : List Migration → Database → Except Fault Database × List Log.Event
  | [], d => (.ok d, [])
  | m :: ms, d =>
    match m.apply d with
    | .error f => (.error f, [])
    | .ok d =>
      let (result, events) := run ms d
      (result, .migrated m.version m.name :: events)

end Migration

namespace Database

/-- Bring a database up to date, and give the number of migrations that it took. -/
def migrate (d : Database) : Outcome Fault Nat :=
  match d.versionNumber with
  | .error f => .ofAnswer d (.error f)
  | .ok version =>
    if Migration.latest < version then
      .ofAnswer d (.error (.versionTooNew version Migration.latest))
    else
      let due := Migration.all.filter fun m => version < m.version
      match Migration.run due d with
      | (.ok new, events) => ⟨.ok due.length, new, events⟩
      | (.error f, events) => ⟨.error f, d, events⟩

/-- Open a database: bring it up to date and report how that went. -/
def openAs (mode : String) (d : Database) : Outcome Fault Unit :=
  let o := d.migrate
  match o.answer with
  | .ok n =>
    ⟨.ok (), o.database, .storeOpening mode :: (o.events ++ [.storeOpened mode n])⟩
  | .error f =>
    ⟨.error f, o.database, .storeOpening mode :: (o.events ++ [.storeNotReady mode f.message])⟩

/-- Report a database that cannot be opened at all, or whose content is none. -/
def refuseOpening (mode : String) (f : Fault) : Outcome Fault Unit :=
  let reason : Log.Event := match f with
    | .cannotOpen _ => .storeNotOpened mode f.message
    | _ => .storeNotReady mode f.message
  ⟨.error f, empty, [.storeOpening mode, reason]⟩

def openInMemory : Outcome Fault Unit := empty.openAs "memory"

end Database

end CompanyRegister.Store
