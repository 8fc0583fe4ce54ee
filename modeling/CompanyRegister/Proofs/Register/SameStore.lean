import CompanyRegister.Proofs.Register.Refinement
import CompanyRegister.Proofs.Store.Scripts

/-!
# Two ways to one store

The table of companies is made by migrations, or by executing the statements of the entity. Both
tables have the same columns, and the same columns are unique in them, so no sequence of statements
tells the two stores apart (`history_eq`).

    d  ──statement──▶ e
    │                 │
    Alike           Alike      the same answers, the same dumps
    │                 │
    d' ──statement──▶ e'

The clocks of the two need not agree, as long as every row that is added gives its date.
-/

namespace CompanyRegister

open Calendar Store

namespace Store.Table

/-! ## Indexes and clocks -/

/-- The table with other indexes. -/
def withIndexes (t : Table) (is : List Index) : Table := { t with indexes := is }

/-- Whether the values give all that a new row would take from the clock. -/
def DatedBy (t : Table) (values : Cells) : Prop :=
  ∀ c ∈ t.columns, c.default = some .now → (values.lookup c.name).isSome = true

variable {t : Table} {is : List Index} {values : Cells} {α : Type}

@[simp] theorem withIndexes_rows : (t.withIndexes is).rows = t.rows := rfl

/-- Then the cells of the row are the same at any time. -/
theorem newCells_of_datedBy (h : t.DatedBy values) (now now' : Instant) :
    t.newCells now values = t.newCells now' values := by
  refine List.map_congr_left fun c hc => ?_
  have hinitial : (values.lookup c.name).getD (c.initial now) =
      (values.lookup c.name).getD (c.initial now') := by
    cases hvalue : values.lookup c.name with
    | some v => rfl
    | none =>
      have hnow : c.default ≠ some .now := by
        intro hdefault
        have hgiven := h c (List.mem_filter.mp hc).1 hdefault
        rw [hvalue] at hgiven
        cases hgiven
      simp only [Option.getD_none, Column.initial]
      split
      · rfl
      · next hdefault => exact absurd hdefault hnow
      · rfl
  rw [hinitial]

/-- Whether two tables have the same rows, the first with all else that `t` has, and the second with
other indexes. -/
def Beside (t : Table) (is : List Index) (u u' : Table) : Prop :=
  ∃ rows, u = { t with rows } ∧ u' = { t with rows }.withIndexes is

/-- One answer, and tables with the same rows. -/
def BesideWith (t : Table) (is : List Index) (r r' : α × Table) : Prop :=
  r.1 = r'.1 ∧ t.Beside is r.2 r'.2

section Beside

variable (hunique : (t.withIndexes is).uniqueColumns = t.uniqueColumns)
include hunique

/-- Constraints are read off the columns and off those that no two rows may be the same in. -/
theorem require_withIndexes (id : Int) (cells : Cells) (others : Rows Cells) :
    (t.withIndexes is).require id cells others = t.require id cells others := by
  unfold require violated? repeated?
  rw [hunique]
  rfl

theorem parallel_insert (h : t.DatedBy values) (now now' : Instant) :
    Parallel (t.BesideWith is) (t.insert now values) ((t.withIndexes is).insert now' values) := by
  have hcells : (t.withIndexes is).newCells now' values = t.newCells now values :=
    newCells_of_datedBy h now' now
  simp only [insert, hcells, require_withIndexes hunique]
  exact .after (t.requireNamed values) fun _ => .after (t.newId values) fun id =>
    .after (t.require id _ _) fun _ => .ok ⟨rfl, _, rfl, rfl⟩

theorem parallel_insertReturning (h : t.DatedBy values) (now now' : Instant) (column : String) :
    Parallel (t.BesideWith is) (t.insertReturning now values column)
      ((t.withIndexes is).insertReturning now' values column) := by
  rw [insertReturning, insertReturning]
  refine .after (t.requireColumns [column]) fun _ => ?_
  refine (parallel_insert hunique h now now').bind ?_
  rintro ⟨id, u⟩ ⟨id', u'⟩ ⟨rfl, rows, rfl, rfl⟩
  exact .ok ⟨rfl, rows, rfl, rfl⟩

theorem parallel_changeRow {u u' : Table} (id : Int) (h : t.Beside is u u') :
    Parallel (t.Beside is) (changeRow values u id) (changeRow values u' id) := by
  obtain ⟨rows, rfl, rfl⟩ := h
  rw [changeRow, changeRow]
  cases hget : rows.get? id with
  | none =>
    simp only [withIndexes_rows, hget]
    exact .ok ⟨rows, rfl, rfl⟩
  | some cells =>
    simp only [withIndexes_rows, hget]
    refine .after (changedId { t with rows } id values) fun new => ?_
    rw [require_withIndexes (t := { t with rows }) hunique]
    exact .after (require { t with rows } new _ _) fun _ => .ok ⟨_, rfl, rfl⟩

theorem parallel_update (column : String) (n : Int) :
    Parallel (t.BesideWith is) (t.update column n values)
      ((t.withIndexes is).update column n values) := by
  rw [update, update]
  refine .after (t.requireNamed values) fun _ => .after (t.requireColumns [column]) fun _ => ?_
  have hstep : ∀ u u' id, t.Beside is u u' →
      Parallel (t.Beside is) (changeRow values u id) (changeRow values u' id) :=
    fun _ _ id h => parallel_changeRow hunique id h
  have hall := Parallel.foldlM hstep (t.holders column n) ⟨t.rows, rfl, rfl⟩
  exact hall.bind fun _ _ h => .ok ⟨rfl, h⟩

end Beside

theorem parallel_delete (column : String) (n : Int) :
    Parallel (t.BesideWith is) (t.delete column n) ((t.withIndexes is).delete column n) := by
  rw [delete, delete]
  exact .after (t.requireColumns [column]) fun _ => .ok ⟨rfl, _, rfl, rfl⟩

end Store.Table

namespace Register

/-! ## Databases that are alike -/

/-- The table of companies as the definition of the entity makes it, with the given rows. -/
def definedTable (rows : Rows Cells) : Table :=
  { Table.ofDefinition Company.entity.definition with rows }

/-- It is the table that migrations make, less the index over the groups. -/
theorem definedTable_eq (rows : Rows Cells) :
    definedTable rows = (table rows).withIndexes Company.entity.definition.indexes := by
  have hcolumns : Company.entity.definition.columns = (table .empty).columns := by decide
  rw [definedTable, Table.ofDefinition, hcolumns]
  rfl

/-- Two databases of one version and with the same rows, the table of the first made by migrations
and that of the second from the definition of the entity. -/
structure Alike (d d' : Database) : Prop where
  version_eq : d.version = d'.version
  tables : ∃ rows, d.table? = some (table rows) ∧ d'.table? = some (definedTable rows)

namespace Alike

variable {d d' : Database} {ε δ α β : Type}

theorem table_eq (h : Alike d d') : ∃ rows, d.table tableName = .ok (table rows) ∧
    d'.table tableName = .ok ((table rows).withIndexes Company.entity.definition.indexes) := by
  obtain ⟨rows, htable, hdefined⟩ := h.tables
  have hname : (table rows).name = tableName := rfl
  rw [definedTable_eq] at hdefined
  refine ⟨rows, ?_, ?_⟩
  · rw [Database.table, htable]
    exact if_pos hname
  · rw [Database.table, hdefined]
    exact if_pos hname

/-- One answer, and databases that are alike. -/
def AlikeWith (r r' : α × Database) : Prop := r.1 = r'.1 ∧ Alike r.2 r'.2

theorem parallel_withTable (h : Alike d d') {rows : Rows Cells}
    {x x' : Except Store.Fault (α × Table)}
    (hx : Parallel ((table rows).BesideWith Company.entity.definition.indexes) x x') :
    Parallel AlikeWith (x.map fun r => (r.1, d.withTable r.2))
      (x'.map fun r => (r.1, d'.withTable r.2)) := by
  refine hx.map ?_
  rintro ⟨a, u⟩ ⟨a', u'⟩ ⟨rfl, new, rfl, rfl⟩
  exact ⟨rfl, h.version_eq, new, rfl, congrArg some (definedTable_eq new).symm⟩

/-- Both tables have the same key, which is all that is unique in them. -/
theorem uniqueColumns_defined (rows : Rows Cells) :
    ((table rows).withIndexes Company.entity.definition.indexes).uniqueColumns =
      (table rows).uniqueColumns := by
  have hindexes : (Company.entity.definition.indexes.filter Index.unique) =
      ((table .empty).indexes.filter Index.unique) := by decide
  unfold Table.uniqueColumns
  exact congrArg (fun is => (is.reverse.map Index.columns) ++ _) hindexes

/-- The only column whose default is the time is that of the dates. -/
theorem datedBy_table {rows : Rows Cells} {values : Cells}
    (h : (values.lookup Field.enterDate.column).isSome = true) : (table rows).DatedBy values := by
  have hcolumns : ∀ c ∈ (table .empty).columns, c.default = some .now →
      c.name = Field.enterDate.column := by decide
  intro c hc hdefault
  rw [hcolumns c hc hdefault]
  exact h

theorem parallel_insert (h : Alike d d') {values : Cells}
    (hdate : (values.lookup Field.enterDate.column).isSome = true) :
    Parallel AlikeWith (d.insert tableName values) (d'.insert tableName values) := by
  obtain ⟨rows, htable, htable'⟩ := h.table_eq
  rw [Database.insert_of_table htable, Database.insert_of_table htable']
  exact h.parallel_withTable
    (Table.parallel_insert (uniqueColumns_defined rows) (datedBy_table hdate) d.now d'.now)

theorem parallel_insertReturning (h : Alike d d') {values : Cells}
    (hdate : (values.lookup Field.enterDate.column).isSome = true) (column : String) :
    Parallel AlikeWith (d.insertReturning tableName values column)
      (d'.insertReturning tableName values column) := by
  obtain ⟨rows, htable, htable'⟩ := h.table_eq
  rw [Database.insertReturning_of_table htable, Database.insertReturning_of_table htable']
  exact h.parallel_withTable (Table.parallel_insertReturning (uniqueColumns_defined rows)
    (datedBy_table hdate) d.now d'.now column)

theorem parallel_update (h : Alike d d') (column : String) (n : Int) (values : Cells) :
    Parallel AlikeWith (d.update tableName column n values)
      (d'.update tableName column n values) := by
  obtain ⟨rows, htable, htable'⟩ := h.table_eq
  rw [Database.update_of_table htable, Database.update_of_table htable']
  exact h.parallel_withTable (Table.parallel_update (uniqueColumns_defined rows) column n)

theorem parallel_delete (h : Alike d d') (column : String) (n : Int) :
    Parallel AlikeWith (d.delete tableName column n) (d'.delete tableName column n) := by
  obtain ⟨rows, htable, htable'⟩ := h.table_eq
  rw [Database.delete_of_table htable, Database.delete_of_table htable']
  exact h.parallel_withTable (Table.parallel_delete column n)

theorem run_eq (h : Alike d d') (s : Selection Operand) (values : List Int) :
    d.run tableName s values = d'.run tableName s values := by
  obtain ⟨rs, htable, htable'⟩ := h.table_eq
  rw [Database.run, Database.run, htable, htable']
  rfl

theorem ready_eq (h : Alike d d') : ready d = ready d' := by
  obtain ⟨rs, htable, htable'⟩ := h.table_eq
  rw [ready, ready, Database.versionNumber, Database.versionNumber, h.version_eq, htable, htable']
  rfl

/-! ## Operations -/

/-- Two operations give one answer and leave databases that are alike. -/
structure Agree (o o' : Outcome ε α) : Prop where
  answer_eq : o.answer = o'.answer
  alike : Alike o.database o'.database

theorem Agree.mapError {o o' : Outcome ε α} (h : Agree o o') (f : ε → δ) :
    Agree (o.mapError f) (o'.mapError f) where
  answer_eq := congrArg (Except.mapError f) h.answer_eq
  alike := h.alike

theorem Agree.andThen {o o' : Outcome ε α} (h : Agree o o')
    {next : α → Database → Outcome ε β}
    (hnext : ∀ a e e', Alike e e' → Agree (next a e) (next a e')) :
    Agree (o.andThen next) (o'.andThen next) := by
  have halike := h.alike
  rw [Outcome.andThen, Outcome.andThen, ← h.answer_eq]
  cases o.answer with
  | error e => exact ⟨rfl, halike⟩
  | ok a => exact ⟨(hnext a _ _ halike).answer_eq, (hnext a _ _ halike).alike⟩

theorem agree_ofAnswer (h : Alike d d') (a : Except ε α) :
    Agree (Outcome.ofAnswer d a) (Outcome.ofAnswer d' a) := ⟨rfl, h⟩

theorem agree_create (h : Alike d d') (c : Company) : Agree (create c d) (create c d') := by
  have hdate : (c.cells.lookup Field.enterDate.column).isSome = true := by
    rw [lookup_cells]
    rfl
  rw [create, create]
  cases c.validate with
  | error v => exact h.agree_ofAnswer _
  | ok =>
    have hinsert := h.parallel_insertReturning hdate Field.companyId.column
    dsimp only
    generalize d.insertReturning tableName c.cells Field.companyId.column = x,
      d'.insertReturning tableName c.cells Field.companyId.column = x' at hinsert ⊢
    cases hinsert with
    | error f => exact h.agree_ofAnswer _
    | @ok r r' hnew =>
      obtain ⟨cell, e⟩ := r
      obtain ⟨cell', e'⟩ := r'
      obtain ⟨rfl, hnew⟩ := hnew
      dsimp only
      cases Company.int16OfCell .companyId cell with
      | error f => exact hnew.agree_ofAnswer _
      | ok id => exact ⟨rfl, hnew⟩

theorem agree_update (h : Alike d d') (c : Company) : Agree (update c d) (update c d') := by
  rw [update, update]
  cases c.companyId with
  | none => exact h.agree_ofAnswer _
  | some id =>
    dsimp only
    cases c.validate with
    | error v => exact h.agree_ofAnswer _
    | ok =>
      have hupdate := h.parallel_update Field.companyId.column id.toInt c.plainCells
      dsimp only
      generalize d.update tableName Field.companyId.column id.toInt c.plainCells = x,
        d'.update tableName Field.companyId.column id.toInt c.plainCells = x' at hupdate ⊢
      cases hupdate with
      | error f => exact h.agree_ofAnswer _
      | @ok r r' hnew =>
        obtain ⟨count, e⟩ := r
        obtain ⟨count', e'⟩ := r'
        obtain ⟨rfl, hnew⟩ := hnew
        cases count with
        | zero => exact hnew.agree_ofAnswer _
        | succ n => exact ⟨rfl, hnew⟩

theorem agree_delete (h : Alike d d') (id : Int16) : Agree (delete id d) (delete id d') := by
  rw [delete, delete]
  have hdelete := h.parallel_delete Field.companyId.column id.toInt
  generalize d.delete tableName Field.companyId.column id.toInt = x,
    d'.delete tableName Field.companyId.column id.toInt = x' at hdelete ⊢
  cases hdelete with
  | error f => exact h.agree_ofAnswer _
  | @ok r r' hnew =>
    obtain ⟨count, e⟩ := r
    obtain ⟨count', e'⟩ := r'
    obtain ⟨rfl, hnew⟩ := hnew
    cases count with
    | zero => exact hnew.agree_ofAnswer _
    | succ n => exact ⟨rfl, hnew⟩

theorem agree_find (h : Alike d d') (id : Int16) :
    Agree (repository.find id d) (repository.find id d') := by
  have hfind : find id d = find id d' := by rw [find, find, h.run_eq]
  exact ⟨hfind, h⟩

theorem agree_list (h : Alike d d') (q : Query) : Agree (reportList q d) (reportList q d') := by
  have hlist : list q d = list q d' := by
    rw [list, list]
    simp only [h.run_eq]
  rw [reportList, reportList, hlist]
  cases list q d' with
  | error f => exact h.agree_ofAnswer _
  | ok cs => exact ⟨rfl, h⟩

theorem agree_readBack (h : Alike d d') (deed : Registrar.Deed) (id : Int16) :
    Agree (Registrar.readBack repository deed id d) (Registrar.readBack repository deed id d') :=
  ((h.agree_find id).mapError _).andThen fun _ _ _ hnew => hnew.agree_ofAnswer _

theorem agree_register (h : Alike d d') (i : Input) :
    Agree (Registrar.register repository i d) (Registrar.register repository i d') := by
  rw [Registrar.register, Registrar.register]
  cases i.toCompany with
  | error vs => exact ⟨rfl, h⟩
  | ok c =>
    exact ((h.agree_create c).mapError _).andThen fun id _ _ hnew => hnew.agree_readBack _ id

theorem agree_replace (h : Alike d d') (c : Company) :
    Agree (Registrar.update repository c d) (Registrar.update repository c d') := by
  refine ((h.agree_update c).mapError _).andThen fun _ e e' hnew => ?_
  cases c.companyId with
  | none => exact hnew.agree_ofAnswer _
  | some id => exact hnew.agree_readBack _ id

theorem Agree.direct {o o' : Outcome Fault α} (h : Agree o o') (value : α → Value) :
    (Reply.ofRepository value o).1 = (Reply.ofRepository value o').1 ∧
      Alike (Reply.ofRepository value o).2 (Reply.ofRepository value o').2 :=
  ⟨congrArg (fun a : Except Fault α => Reply.direct (a.map value)) h.answer_eq, h.alike⟩

theorem Agree.served {o o' : Outcome Registrar.Fault α} (h : Agree o o') (value : α → Value) :
    (Reply.ofRegistrar value o).1 = (Reply.ofRegistrar value o').1 ∧
      Alike (Reply.ofRegistrar value o).2 (Reply.ofRegistrar value o').2 :=
  ⟨congrArg (fun a : Except Registrar.Fault α => Reply.served (a.map value)) h.answer_eq, h.alike⟩

theorem onDatabase (h : Alike d d') (r : Request) :
    (r.onDatabase d).1 = (r.onDatabase d').1 ∧ Alike (r.onDatabase d).2 (r.onDatabase d').2 := by
  cases r with
  | create c => exact (h.agree_create c).direct _
  | update c => exact (h.agree_update c).direct _
  | find id => exact (h.agree_find id).direct _
  | list q => exact (h.agree_list q).direct _
  | delete id => exact (h.agree_delete id).direct _
  | register i => exact (h.agree_register i).served _
  | replace c => exact (h.agree_replace c).served _
  | get id => exact ((h.agree_find id).mapError _).served _
  | browse q => exact ((h.agree_list q).mapError _).served _
  | remove id => exact ((h.agree_delete id).mapError _).served _

end Alike

/-! ## Statements -/

/-- What is asked of a store: whether the register can work on it, a request to the register, or to
write cells past the register. -/
inductive Statement
  | ready
  | request (r : Request)
  | insert (values : Cells)
  /-- Write cells to the rows that hold a number in a column. -/
  | update (column : String) (n : Int) (values : Cells)

inductive Answer
  | checked (a : Except Fault Unit)
  | replied (r : Reply)
  /-- The number of the row that was added. -/
  | added (a : Except Store.Fault Int)
  /-- How many rows there were to change. -/
  | changed (a : Except Store.Fault Nat)

/-- The answer of a statement and the database afterwards, which a fault leaves as it was. -/
def Answer.ofStatement {α : Type} (answer : Except Store.Fault α → Answer) (d : Database) :
    Except Store.Fault (α × Database) → Answer × Database
  | .error f => (answer (.error f), d)
  | .ok (a, e) => (answer (.ok a), e)

namespace Statement

def on : Statement → Database → Answer × Database
  | ready, d => (.checked (Register.ready d), d)
  | request r, d => (.replied (r.onDatabase d).1, (r.onDatabase d).2)
  | insert values, d => Answer.ofStatement Answer.added d (d.insert tableName values)
  | update column n values, d =>
    Answer.ofStatement .changed d (d.update tableName column n values)

/-- Whether a row that the statement adds past the register gives its date, if only as missing. -/
def GivesDate : Statement → Prop
  | insert values => (values.lookup Field.enterDate.column).isSome = true
  | _ => True

end Statement

/-- All that a reader sees of the table: the names of its columns and its rows with all cells. -/
def dump (d : Database) : Option (List String × Rows Cells) :=
  d.table?.map fun t => (t.columnNames, t.fullRows)

/-- The answers to statements that are made one after the other, each at its time, and what there is
to see after each. -/
def history : List (Instant × Statement) → Database →
    List (Answer × Option (List String × Rows Cells))
  | [], _ => []
  | (now, s) :: rest, d =>
    let (answer, d) := s.on { d with now }
    (answer, dump d) :: history rest d

namespace Alike

variable {d d' : Database} {α : Type}

theorem dump_eq (h : Alike d d') : dump d = dump d' := by
  obtain ⟨rows, htable, hdefined⟩ := h.tables
  rw [dump, dump, htable, hdefined, definedTable_eq]
  rfl

theorem ofStatement (h : Alike d d') (answer : Except Store.Fault α → Answer)
    {x x' : Except Store.Fault (α × Database)} (hx : Parallel AlikeWith x x') :
    (Answer.ofStatement answer d x).1 = (Answer.ofStatement answer d' x').1 ∧
      Alike (Answer.ofStatement answer d x).2 (Answer.ofStatement answer d' x').2 := by
  cases hx with
  | error f => exact ⟨rfl, h⟩
  | ok hnew => exact ⟨congrArg (fun a => answer (.ok a)) hnew.1, hnew.2⟩

/-- One statement gets one answer from both databases and leaves them alike. -/
theorem on (h : Alike d d') {s : Statement} (hs : s.GivesDate) :
    (s.on d).1 = (s.on d').1 ∧ Alike (s.on d).2 (s.on d').2 := by
  cases s with
  | ready => exact ⟨congrArg Answer.checked h.ready_eq, h⟩
  | request r => exact ⟨congrArg Answer.replied (h.onDatabase r).1, (h.onDatabase r).2⟩
  | insert values => exact h.ofStatement _ (h.parallel_insert hs)
  | update column n values => exact h.ofStatement _ (h.parallel_update column n values)

/-- So do all statements of a sequence, at whatever times they are made. -/
theorem history_eq {xs ys : List (Instant × Statement)} (h : Alike d d')
    (hsame : xs.map Prod.snd = ys.map Prod.snd) (hdate : ∀ s ∈ xs.map Prod.snd, s.GivesDate) :
    history xs d = history ys d' := by
  induction xs generalizing ys d d' with
  | nil =>
    rw [List.map_eq_nil_iff.mp hsame.symm]
    rfl
  | cons x xs ih =>
    obtain ⟨now, s⟩ := x
    cases ys with
    | nil => cases hsame
    | cons y ys =>
      obtain ⟨now', s'⟩ := y
      obtain ⟨rfl, hrest⟩ := List.cons.inj hsame
      rw [List.map_cons, List.forall_mem_cons] at hdate
      -- Alike is nothing about the clocks, so each statement may set them to times of its own.
      have hclocks : Alike { d with now } { d' with now := now' } := ⟨h.version_eq, h.tables⟩
      obtain ⟨hanswer, halike⟩ := hclocks.on hdate.1
      rw [history, history]
      simp only [hanswer, halike.dump_eq, ih halike hrest hdate.2]

end Alike

/-! ## Both stores -/

/-- The definition of the entity can be written and executed. -/
theorem isPlain_definition : Company.entity.definition.IsPlain where
  name := by decide +kernel
  ne_nil := by decide
  columns := by
    have hcolumns : Company.entity.definition.columns = Migration.lastColumns := by decide
    exact hcolumns ▸ Migration.isPlain_of_mem_lastColumns
  distinct := by decide
  key := by decide
  indexes := by
    have hindexes : Company.entity.definition.indexes = [Migration.keyIndex] := by decide
    rw [hindexes, List.forall_mem_singleton]
    exact ⟨by decide +kernel, by decide, by decide +kernel⟩

theorem indexesFit_definition : Company.entity.definition.IndexesFit where
  distinct := by decide
  columns := by decide

/-- The store whose table is made by the statements of the entity. -/
def definedStore (now : Instant) : Database where
  version := Migration.latest
  table? := some (definedTable .empty)
  now := now

theorem run_entity (now : Instant) :
    Script.run Company.entity.ddl { version := Migration.latest, now } =
      some (.ok (definedStore now)) :=
  Entity.run_ddl (by decide) isPlain_definition indexesFit_definition rfl

theorem alike_new (now now' : Instant) :
    Alike ({ now } : Database).migrate.database (definedStore now') := by
  rw [migrate_new, Ledger.database, Ledger.rows_empty]
  exact ⟨rfl, .empty, rfl, rfl⟩

/-- The statements of the entity can be executed on a database that is up to date and has no table.
Then this database and a new one that is migrated give the same answers and show the same rows,
whatever is asked of them, if no date is left to the clocks. -/
theorem history_of_definedStore (now now' : Instant) {xs ys : List (Instant × Statement)}
    (hsame : xs.map Prod.snd = ys.map Prod.snd) (hdate : ∀ s ∈ xs.map Prod.snd, s.GivesDate) :
    ∃ defined, Script.run Company.entity.ddl { version := Migration.latest, now := now' } =
        some (.ok defined) ∧
      dump ({ now } : Database).migrate.database = dump defined ∧
      history xs ({ now } : Database).migrate.database = history ys defined :=
  ⟨definedStore now', run_entity now', (alike_new now now').dump_eq,
    (alike_new now now').history_eq hsame hdate⟩

/-- A row past the register, with a number as its name and a text as its key, and what becomes of it
when its date is taken away and its group is asked for. -/
def strayRow : List Statement :=
  [.insert [("CompanyId", .text " 7 "), ("CompanyName", .int 12), ("EnterUserId", .real 1.5),
      ("EnterDate", .text "1970-01-01T00:00:00.000Z"), ("CompanyGroupId", .blob [1])],
    .update "CompanyId" 7 [("EnterDate", .null)],
    .request (.list { group := some 1 })]

theorem history_of_strayRow :
    (∀ s ∈ strayRow, s.GivesDate) ∧
      ∃ defined, Script.run Company.entity.ddl { version := 2 } = some (.ok defined) ∧
        dump ({} : Database).migrate.database = dump defined ∧
        history (strayRow.map fun s => (.epoch, s)) ({} : Database).migrate.database =
          history (strayRow.map fun s => (⟨86400, 0, by decide⟩, s)) defined := by
  have hdate : ∀ s ∈ strayRow, s.GivesDate := by
    simp [strayRow, Statement.GivesDate, Field.column]
  have hstatements : ∀ now : Instant, (strayRow.map fun s => (now, s)).map Prod.snd = strayRow :=
    fun _ => rfl
  exact ⟨hdate, history_of_definedStore .epoch .epoch
    ((hstatements .epoch).trans (hstatements ⟨86400, 0, by decide⟩).symm)
    (by rwa [hstatements])⟩

end Register

end CompanyRegister
