import CompanyRegister.Proofs.InOrder
import CompanyRegister.Proofs.Register.Row
import CompanyRegister.Proofs.Store.Constraints

/-!
# Databases that keep ledgers

A ledger `m` whose records are all kept records (`Ledger.Kept`) is kept by one database at a time,
`m.database now`: the records in ascending order of their ids, each in one row. Every operation on
that database does what the operation on the ledger does, and leaves the database of the ledger
that this leaves.

    m ──────operation──────▶ m'
    │                        │
    database             database
    ▼                        ▼
    d ──────operation──────▶ d'

Only reading can differ: a record whose date cannot be read is in the ledger all the same
(`Company.asRead`).
-/

namespace CompanyRegister

open Calendar Store

/-! ## Statements on databases -/

namespace Store.Database

variable {d : Database} {name : String} {t : Table}

theorem table_eq_ok_iff : d.table name = .ok t ↔ d.table? = some t ∧ t.name = name := by
  constructor
  · intro h
    unfold table at h
    split at h
    · next t' ht' =>
      split at h
      · next hname =>
        cases h
        exact ⟨ht', hname⟩
      · cases h
    · cases h
  · rintro ⟨h, hname⟩
    rw [table, h]
    exact if_pos hname

/-- What is done to a table of a database. -/
theorem insertReturning_of_table (h : d.table name = .ok t) (values : Cells) (column : String) :
    d.insertReturning name values column =
      (t.insertReturning d.now values column).map fun r => (r.1, d.withTable r.2) := by
  rw [insertReturning, h]
  simp only [bind, Except.bind]
  cases t.insertReturning d.now values column <;> rfl

theorem insert_of_table (h : d.table name = .ok t) (values : Cells) :
    d.insert name values = (t.insert d.now values).map fun r => (r.1, d.withTable r.2) := by
  rw [insert, h]
  simp only [bind, Except.bind]
  cases t.insert d.now values <;> rfl

theorem update_of_table (h : d.table name = .ok t) (column : String) (n : Int) (values : Cells) :
    d.update name column n values =
      (t.update column n values).map fun r => (r.1, d.withTable r.2) := by
  rw [update, h]
  simp only [bind, Except.bind]
  cases t.update column n values <;> rfl

theorem delete_of_table (h : d.table name = .ok t) (column : String) (n : Int) :
    d.delete name column n = (t.delete column n).map fun r => (r.1, d.withTable r.2) := by
  rw [delete, h]
  simp only [bind, Except.bind]
  cases t.delete column n <;> rfl

/-- A statement that succeeds has done so on the table, and the database has the new one. -/
theorem exists_of_insert {e : Database} {values : Cells} {n : Int}
    (h : d.insert name values = .ok (n, e)) : ∃ t t', d.table name = .ok t ∧
      t.insert d.now values = .ok (n, t') ∧ e = d.withTable t' := by
  obtain ⟨t, htable, h⟩ := exists_of_bind_eq_ok h
  obtain ⟨⟨k, t'⟩, hinsert, h⟩ := exists_of_bind_eq_ok h
  cases h
  exact ⟨t, t', htable, hinsert, rfl⟩

theorem exists_of_insertReturning {e : Database} {values : Cells} {column : String} {c : Cell}
    (h : d.insertReturning name values column = .ok (c, e)) : ∃ t t' n, d.table name = .ok t ∧
      t.insert d.now values = .ok (n, t') ∧ c = t'.cellAt column n ∧ e = d.withTable t' := by
  obtain ⟨t, htable, h⟩ := exists_of_bind_eq_ok h
  obtain ⟨⟨k, t'⟩, hinsert, h⟩ := exists_of_bind_eq_ok h
  cases h
  obtain ⟨n, hinsert, hcell⟩ := Table.insertReturning_cases hinsert
  exact ⟨t, t', n, htable, hinsert, hcell, rfl⟩

/-- To be told what a new row holds changes nothing about adding it. -/
theorem insert_of_insertReturning {e : Database} {values : Cells} {column : String} {c : Cell}
    (h : d.insertReturning name values column = .ok (c, e)) :
    ∃ n, d.insert name values = .ok (n, e) := by
  obtain ⟨t, t', n, htable, hinsert, -, rfl⟩ := exists_of_insertReturning h
  refine ⟨n, ?_⟩
  rw [insert_of_table htable, hinsert]
  rfl

theorem exists_of_update {e : Database} {column : String} {n : Int} {values : Cells} {count : Nat}
    (h : d.update name column n values = .ok (count, e)) : ∃ t t', d.table name = .ok t ∧
      t.update column n values = .ok (count, t') ∧ e = d.withTable t' := by
  obtain ⟨t, htable, h⟩ := exists_of_bind_eq_ok h
  obtain ⟨⟨k, t'⟩, hupdate, h⟩ := exists_of_bind_eq_ok h
  cases h
  exact ⟨t, t', htable, hupdate, rfl⟩

theorem exists_of_delete {e : Database} {column : String} {n : Int} {count : Nat}
    (h : d.delete name column n = .ok (count, e)) : ∃ t t', d.table name = .ok t ∧
      t.delete column n = .ok (count, t') ∧ e = d.withTable t' := by
  obtain ⟨t, htable, h⟩ := exists_of_bind_eq_ok h
  obtain ⟨⟨k, t'⟩, hdelete, h⟩ := exists_of_bind_eq_ok h
  cases h
  exact ⟨t, t', htable, hdelete, rfl⟩

/-- A table that is put in its own place changes nothing. -/
theorem withTable_of_table (h : d.table name = .ok t) : d.withTable t = d := by
  rw [withTable, ← (table_eq_ok_iff.mp h).1]

end Store.Database

namespace Register

/-! ## Ids -/

theorem toInt_ofInt_sub {n : Nat} (h : n < 65536) :
    (Int16.ofInt ((n : Int) - 32768)).toInt = (n : Int) - 32768 :=
  Int16.toInt_ofInt_of_le (by omega) (by omega)

theorem mem_ids (id : Int16) : id ∈ ids := by
  obtain ⟨hlow, hhigh⟩ := toInt_mem_smallRange id
  -- There are too many ids to look at them one by one, so the place of this one is given.
  have hplace : (id.toInt + 32768).toNat ∈ List.range' 0 65536 :=
    List.mem_range'_1.mpr ⟨Nat.zero_le _, by omega⟩
  have heq : ((id.toInt + 32768).toNat : Int) - 32768 = id.toInt := by omega
  rw [ids, List.mem_map]
  exact ⟨_, hplace, by rw [heq, Int16.ofInt_toInt]⟩

theorem ids_ascending : ids.Pairwise fun a b => a.toInt < b.toInt := by
  rw [ids, List.pairwise_map]
  refine (List.pairwise_lt_range' (s := 0) (n := 65536)).imp_of_mem fun ha hb hlt => ?_
  have hbound := (List.mem_range'_1.mp hb).2
  rw [toInt_ofInt_sub (by omega), toInt_ofInt_sub (by omega)]
  omega

namespace Ledger

/-! ## The rows of a ledger -/

/-- The row of an id, if there is a record. -/
def row? (m : Ledger) (id : Int16) : Option (Int × Cells) :=
  (m id).map fun c => (id.toInt, c.plainCells)

/-- The records as rows. -/
def rows (m : Ledger) : Rows Cells where
  entries := ids.filterMap m.row?
  ascending := by
    refine List.pairwise_filterMap.mpr (ids_ascending.imp ?_)
    intro a b hlt x hx y hy
    obtain ⟨c, -, rfl⟩ := Option.map_eq_some_iff.mp hx
    obtain ⟨c', -, rfl⟩ := Option.map_eq_some_iff.mp hy
    exact hlt

/-- The database that keeps a ledger. -/
def database (m : Ledger) (now : Instant) : Database where
  version := 2
  table? := some (table m.rows)
  now := now

/-- Whether all records are records that were written. -/
def Kept (m : Ledger) : Prop :=
  ∀ id c, m id = some c → ∃ w : Company, w.validate = .ok () ∧ c = w.kept id

theorem lookup_rows (m : Ledger) (xs : List Int16) (id : Int16) :
    (xs.filterMap m.row?).lookup id.toInt =
      if id ∈ xs then (m id).map Company.plainCells else none := by
  -- The induction is over any list of ids, since those behind the first are no longer all.
  induction xs with
  | nil => rfl
  | cons x xs ih =>
    by_cases heq : id = x
    · subst heq
      rw [if_pos List.mem_cons_self]
      cases hm : m id with
      | none =>
        rw [List.filterMap_cons_none (by rw [row?, hm]; rfl), ih, hm]
        split <;> rfl
      | some c =>
        rw [List.filterMap_cons_some (b := (id.toInt, c.plainCells)) (by rw [row?, hm]; rfl),
          List.lookup_cons_self]
        rfl
    · have hmem : id ∈ x :: xs ↔ id ∈ xs := by simp [heq]
      have hne : (id.toInt == x.toInt) = false :=
        beq_eq_false_iff_ne.mpr fun h => heq (Int16.toInt_inj.mp h)
      simp only [hmem]
      cases hm : m x with
      | none => rw [List.filterMap_cons_none (by rw [row?, hm]; rfl), ih]
      | some c =>
        rw [List.filterMap_cons_some (b := (x.toInt, c.plainCells)) (by rw [row?, hm]; rfl),
          List.lookup_cons, hne]
        exact ih

theorem get?_rows (m : Ledger) (id : Int16) :
    m.rows.get? id.toInt = (m id).map Company.plainCells := by
  rw [Rows.get?, rows, lookup_rows, if_pos (mem_ids id)]

/-- There is no row whose number is no id. -/
theorem get?_rows_eq_none {m : Ledger} {n : Int} (h : ∀ id : Int16, id.toInt ≠ n) :
    m.rows.get? n = none := by
  rw [Rows.get?, List.lookup_eq_none_iff]
  intro e he
  obtain ⟨id, -, hrow⟩ := List.mem_filterMap.mp he
  obtain ⟨c, -, rfl⟩ := Option.map_eq_some_iff.mp hrow
  exact bne_iff_ne.mpr (Ne.symm (h id))

theorem contains_rows (m : Ledger) (id : Int16) :
    m.rows.contains id.toInt = (m id).isSome := by
  rw [Rows.contains, get?_rows, Option.isSome_map]

/-- Rows are those of a ledger if they are at all ids, and there are no others. -/
theorem rows_eq {m : Ledger} {r : Rows Cells}
    (hids : ∀ id : Int16, r.get? id.toInt = (m id).map Company.plainCells)
    (hothers : ∀ n : Int, (∀ id : Int16, id.toInt ≠ n) → r.get? n = none) : m.rows = r := by
  refine Rows.ext_get? fun n => ?_
  by_cases h : ∃ id : Int16, id.toInt = n
  · obtain ⟨id, rfl⟩ := h
    rw [get?_rows, hids]
  · have hne : ∀ id : Int16, id.toInt ≠ n := fun id hid => h ⟨id, hid⟩
    rw [get?_rows_eq_none hne, hothers n hne]

theorem rows_empty : empty.rows = .empty :=
  rows_eq (fun id => Rows.get?_empty id.toInt) fun n _ => Rows.get?_empty n

theorem rows_put (m : Ledger) (id : Int16) (c : Company) :
    (m.put id c).rows = m.rows.put id.toInt c.plainCells := by
  refine rows_eq (fun n => ?_) fun n hn => ?_
  · by_cases h : n = id
    · subst h
      rw [Rows.get?_put_self, put, if_pos rfl]
      rfl
    · rw [Rows.get?_put_of_ne _ _ fun hn => h (Int16.toInt_inj.mp hn), get?_rows, put, if_neg h]
  · rw [Rows.get?_put_of_ne _ _ (Ne.symm (hn id)), get?_rows_eq_none hn]

theorem rows_erase (m : Ledger) (id : Int16) : (m.erase id).rows = m.rows.erase id.toInt := by
  refine rows_eq (fun n => ?_) fun n hn => ?_
  · by_cases h : n = id
    · subst h
      rw [Rows.get?_erase_self, erase, if_pos rfl]
      rfl
    · rw [Rows.get?_erase_of_ne _ fun hn => h (Int16.toInt_inj.mp hn), get?_rows, erase, if_neg h]
  · rw [Rows.get?_erase_of_ne _ (Ne.symm (hn id)), get?_rows_eq_none hn]

/-! ## Fresh ids -/

theorem entries_rows (m : Ledger) : m.rows.entries.map Prod.fst =
    (ids.filter fun id => (m id).isSome).map Int16.toInt := by
  show (ids.filterMap m.row?).map Prod.fst = _
  induction ids with
  | nil => rfl
  | cons id ids ih =>
    cases hm : m id with
    | none =>
      rw [List.filterMap_cons_none (by rw [row?, hm]; rfl), ih,
        List.filter_cons_of_neg (by simp [hm])]
    | some c =>
      rw [List.filterMap_cons_some (b := (id.toInt, c.plainCells)) (by rw [row?, hm]; rfl),
        List.map_cons, ih, List.filter_cons_of_pos (by simp [hm]), List.map_cons]

theorem lastId?_rows (m : Ledger) : m.rows.lastId? = m.lastId?.map Int16.toInt := by
  rw [Rows.lastId?, ← List.getLast?_map, entries_rows, List.getLast?_map, lastId?]

/-- A fresh number is the next id, or above all ids. -/
theorem freshId_rows (m : Ledger) :
    match m.nextId? with
    | some id => m.rows.freshId = id.toInt
    | none => 32767 < m.rows.freshId := by
  rw [Rows.freshId, nextId?, lastId?_rows]
  cases m.lastId? with
  | none => rfl
  | some id =>
    have hlow := (toInt_mem_smallRange id).1
    by_cases h : id.toInt + 1 ≤ 32767
    · simp only [Option.map_some, if_pos h]
      exact (Int16.toInt_ofInt_of_le (by omega) (by omega)).symm
    · simp only [Option.map_some, if_neg h]
      omega

theorem nextId?_eq_none {m : Ledger} {id : Int16} (h : m.nextId? = some id) : m id = none := by
  have hfresh := freshId_rows m
  rw [h] at hfresh
  have hcontains := m.rows.contains_freshId
  rw [hfresh, contains_rows] at hcontains
  simpa using hcontains

end Ledger

/-! ## Statements on the table -/

section Statements

variable {rows : Rows Cells} {c : Company}

theorem rows_table : (table rows).rows = rows := rfl

theorem isEmpty_cellsOf {fields : List Field} (h : fields ≠ []) :
    (c.cellsOf fields).isEmpty = false := by
  cases fields with
  | nil => exact absurd rfl h
  | cons f fields => rfl

/-- Values of fields name columns, and a table that has those of a record has them. -/
theorem requireNamed_cellsOf {t : Table} (ht : t.requireColumns Field.columns = .ok ())
    {fields : List Field} (h : fields ≠ []) : t.requireNamed (c.cellsOf fields) = .ok () := by
  have hnames : ∀ n ∈ (c.cellsOf fields).map Prod.fst, n ∈ Field.columns := by
    intro n hn
    obtain ⟨e, he, rfl⟩ := List.mem_map.mp hn
    obtain ⟨f, -, rfl⟩ := List.mem_map.mp he
    exact List.mem_map_of_mem (Field.mem_all f)
  rw [Table.requireNamed, isEmpty_cellsOf h, requireColumns_of_mem ht hnames]
  rfl

theorem keyCell?_cells : (table rows).keyCell? c.cells = some (c.cell .companyId) :=
  lookup_cells c .companyId

theorem keyCell?_plainCells : (table rows).keyCell? c.plainCells = none :=
  Field.lookup_column_of_not_mem c.cell (f := .companyId) (by decide)

theorem newId_table : (table rows).newId c.cells =
    .ok (c.companyId.elim rows.freshId Int16.toInt) := by
  rw [Table.newId, keyCell?_cells, Company.cell]
  cases c.companyId <;> rfl

/-- Adding a row to any table, step by step. -/
theorem Table.insert_eq {t : Table} {values cells : Cells} {now : Instant} {n : Int}
    (hnamed : t.requireNamed values = .ok ()) (hid : t.newId values = .ok n)
    (hcells : t.newCells now values = cells) :
    t.insert now values =
      (t.require n cells t.rows).map fun _ => (n, { t with rows := t.rows.put n cells }) := by
  rw [Table.insert, hnamed, hid, hcells]
  simp only [bind, Except.bind]
  cases t.require n cells t.rows <;> rfl

/-- Changing a row of any table without changing its number. -/
theorem Table.changeRow_eq {t : Table} {values old cells : Cells} {n : Int}
    (hkey : t.keyCell? values = none) (hget : t.rows.get? n = some old)
    (hcells : t.changedCells old values = cells) :
    Table.changeRow values t n =
      (t.require n cells (t.rows.erase n)).map fun _ => { t with rows := t.rows.put n cells } := by
  rw [Table.changeRow, hget]
  simp only [bind, Except.bind, Table.changedId, hkey, hcells, Rows.put_erase]
  cases t.require n cells (t.rows.erase n) <;> rfl

/-- A valid record is added unless its number is taken. -/
theorem insert_table (h : c.validate = .ok ()) (now : Instant) {id : Int16}
    (hid : c.companyId.elim rows.freshId Int16.toInt = id.toInt) :
    (table rows).insert now c.cells =
      if rows.contains id.toInt then .error (.keyTaken tableName [Field.companyId.column])
      else .ok (id.toInt, table (rows.put id.toInt (c.kept id).plainCells)) := by
  have hnamed : (table rows).requireNamed c.cells = .ok () :=
    requireNamed_cellsOf (requireColumns_table Field.all) (by decide)
  have hnewId : (table rows).newId c.cells = .ok id.toInt := newId_table.trans (congrArg _ hid)
  have hkept : (c.kept id).companyId = some id := rfl
  have hrequire := require_table rows (Company.validate_kept h id) hkept rows
  rw [Table.insert_eq hnamed hnewId (newCells_table h now id), rows_table, hrequire]
  cases rows.contains id.toInt
  · rfl
  · rfl

/-- No record is added above all ids. -/
theorem insert_table_of_large (h : c.validate = .ok ()) (now : Instant) {n : Int}
    (hn : c.companyId.elim rows.freshId Int16.toInt = n) (hlarge : 32767 < n) :
    ∃ text, (table rows).insert now c.cells = .error (.checkFailed text) := by
  have hnamed : (table rows).requireNamed c.cells = .ok () :=
    requireNamed_cellsOf (requireColumns_table Field.all) (by decide)
  have hnewId : (table rows).newId c.cells = .ok n := newId_table.trans (congrArg _ hn)
  -- The cells other than the id are the same under any id, so any will do here.
  obtain ⟨text, htext⟩ := require_table_of_large rows hlarge (c.kept 0) rows
  refine ⟨text, ?_⟩
  rw [Table.insert_eq hnamed hnewId (newCells_table h now 0), rows_table, htext]
  rfl

theorem requireId_table :
    (table rows).requireColumns [Field.companyId.column] = .ok () :=
  requireColumns_table [.companyId]

/-- Its row is then said to hold the number as its id. -/
theorem insertReturning_table (h : c.validate = .ok ()) (now : Instant) {id : Int16}
    (hid : c.companyId.elim rows.freshId Int16.toInt = id.toInt) :
    (table rows).insertReturning now c.cells Field.companyId.column =
      if rows.contains id.toInt then .error (.keyTaken tableName [Field.companyId.column])
      else .ok (.int id.toInt, table (rows.put id.toInt (c.kept id).plainCells)) := by
  have hcell : (table (rows.put id.toInt (c.kept id).plainCells)).cellAt Field.companyId.column
      id.toInt = .int id.toInt :=
    isNumbered_table.cellAt_eq (rows.get?_put_self id.toInt _)
  rw [Table.insertReturning, requireId_table, insert_table h now hid]
  cases rows.contains id.toInt with
  | true => rfl
  | false => exact congrArg (fun cell => Except.ok (cell, _)) hcell

theorem insertReturning_table_of_large (h : c.validate = .ok ()) (now : Instant) {n : Int}
    (hn : c.companyId.elim rows.freshId Int16.toInt = n) (hlarge : 32767 < n) :
    ∃ text, (table rows).insertReturning now c.cells Field.companyId.column =
      .error (.checkFailed text) := by
  obtain ⟨text, hinsert⟩ := insert_table_of_large h now hn hlarge
  refine ⟨text, ?_⟩
  rw [Table.insertReturning, requireId_table, hinsert]
  rfl

/-- A valid record takes the place of the one that has its number, if there is one. -/
theorem update_table (h : c.validate = .ok ()) (id : Int16) :
    (table rows).update Field.companyId.column id.toInt c.plainCells =
      if rows.contains id.toInt then .ok (1, table (rows.put id.toInt (c.kept id).plainCells))
      else .ok (0, table rows) := by
  have hnamed : (table rows).requireNamed c.plainCells = .ok () :=
    requireNamed_cellsOf (requireColumns_table Field.all) (by decide)
  have hkept : (c.kept id).companyId = some id := rfl
  have hfree : (rows.erase id.toInt).contains id.toInt = false := by
    rw [Rows.contains, Rows.get?_erase_self]
    rfl
  have hrequire :=
    require_table rows (Company.validate_kept h id) hkept (rows.erase id.toInt)
  rw [hfree] at hrequire
  rw [Table.update, hnamed, requireId_table, isNumbered_table.holders_eq, rows_table, Rows.contains]
  cases hget : rows.get? id.toInt with
  | none => rfl
  | some old =>
    have hchange : Table.changeRow c.plainCells (table rows) id.toInt =
        .ok (table (rows.put id.toInt (c.kept id).plainCells)) := by
      rw [Table.changeRow_eq keyCell?_plainCells hget (changedCells_table h id old), rows_table,
        hrequire]
      rfl
    simp only [Option.isSome_some, if_true, List.foldlM_cons, List.foldlM_nil, hchange, bind,
      Except.bind, pure, Except.pure, List.length_singleton]

/-- The row of an id goes, if there is one. -/
theorem delete_table (n : Int) :
    (table rows).delete Field.companyId.column n =
      if rows.contains n then .ok (1, table (rows.erase n)) else .ok (0, table rows) := by
  rw [Table.delete, requireId_table, isNumbered_table.holders_eq, rows_table]
  cases rows.contains n <;> rfl

end Statements

/-! ## Operations of the repository -/

section Operations

variable {d : Database} {rows : Rows Cells} {c : Company} {id : Int16}

theorem create_of_valid (h : c.validate = .ok ()) (d : Database) :
    create c d =
      match d.insertReturning tableName c.cells Field.companyId.column with
      | .error f => .ofAnswer d (.error (createFault c.companyId f))
      | .ok (cell, d) =>
        match Company.int16OfCell .companyId cell with
        | .error f => .ofAnswer d (.error f)
        | .ok id => ⟨.ok id, d, [.companyCreated id.toInt]⟩ := by
  unfold create
  cases hvalid : c.validate with
  | error v => cases h.symm.trans hvalid
  | ok u => rfl

/-- A new record goes in its place if that is free. -/
theorem create_of_free (htable : d.table tableName = .ok (table rows)) (h : c.validate = .ok ())
    (hid : c.companyId.elim rows.freshId Int16.toInt = id.toInt)
    (hfree : rows.contains id.toInt = false) :
    create c d = ⟨.ok id, d.withTable (table (rows.put id.toInt (c.kept id).plainCells)),
      [.companyCreated id.toInt]⟩ := by
  have hinsert := insertReturning_table h d.now hid
  rw [hfree] at hinsert
  have hnumber : Company.int16OfCell .companyId (.int id.toInt) = .ok id :=
    Company.int16OfCell_eq_ok_iff.mpr rfl
  rw [create_of_valid h, Database.insertReturning_of_table htable, hinsert]
  simp only [Bool.false_eq_true, if_false, Except.map, hnumber]

theorem create_of_taken (htable : d.table tableName = .ok (table rows)) (h : c.validate = .ok ())
    (hid : c.companyId = some id) (htaken : rows.contains id.toInt = true) :
    create c d = .ofAnswer d (.error (.idTaken id)) := by
  have hnumber : c.companyId.elim rows.freshId Int16.toInt = id.toInt := by rw [hid]; rfl
  have hinsert := insertReturning_table h d.now hnumber
  rw [htaken] at hinsert
  rw [create_of_valid h, Database.insertReturning_of_table htable, hinsert, hid]
  rfl

/-- There is no fresh id above all ids. -/
theorem create_of_large (htable : d.table tableName = .ok (table rows)) (h : c.validate = .ok ())
    (hid : c.companyId = none) (hlarge : 32767 < rows.freshId) :
    create c d = .ofAnswer d (.error .idsExhausted) := by
  have hnumber : c.companyId.elim rows.freshId Int16.toInt = rows.freshId := by rw [hid]; rfl
  obtain ⟨text, hinsert⟩ := insertReturning_table_of_large h d.now hnumber hlarge
  rw [create_of_valid h, Database.insertReturning_of_table htable, hinsert, hid]
  rfl

theorem update_of_valid (hid : c.companyId = some id) (h : c.validate = .ok ()) (d : Database) :
    update c d =
      match d.update tableName Field.companyId.column id.toInt c.plainCells with
      | .error f => .ofAnswer d (.error (.store f))
      | .ok (0, d) => .ofAnswer d (.error (.notFound id))
      | .ok (_ + 1, d) => ⟨.ok (), d, [.companyUpdated id.toInt]⟩ := by
  unfold update
  rw [hid]
  cases hvalid : c.validate with
  | error v => cases h.symm.trans hvalid
  | ok u => rfl

/-- A valid record takes the place of the one that has its id, if there is one. -/
theorem update_of_table (htable : d.table tableName = .ok (table rows))
    (hid : c.companyId = some id) (h : c.validate = .ok ()) :
    update c d =
      if rows.contains id.toInt then
        ⟨.ok (), d.withTable (table (rows.put id.toInt (c.kept id).plainCells)),
          [.companyUpdated id.toInt]⟩
      else .ofAnswer d (.error (.notFound id)) := by
  rw [update_of_valid hid h, Database.update_of_table htable, update_table h]
  cases rows.contains id.toInt with
  | true => rfl
  | false =>
    simp only [Except.map, Bool.false_eq_true, if_false, Database.withTable_of_table htable]

theorem delete_of_table (htable : d.table tableName = .ok (table rows)) (id : Int16) :
    delete id d =
      if rows.contains id.toInt then
        ⟨.ok (), d.withTable (table (rows.erase id.toInt)), [.companyDeleted id.toInt]⟩
      else .ofAnswer d (.error (.notFound id)) := by
  rw [delete, Database.delete_of_table htable, delete_table]
  cases rows.contains id.toInt with
  | true => rfl
  | false =>
    simp only [Bool.false_eq_true, if_false, Except.map, Database.withTable_of_table htable]

end Operations

/-- An operation on a database gives the answer, and leaves the database of the ledger. -/
structure Does {ε α : Type} (o : Outcome ε α) (now : Instant) (answer : Except ε α)
    (m : Ledger) : Prop where
  answer_eq : o.answer = answer
  database_eq : o.database = m.database now

theorem database_put (m : Ledger) (now : Instant) (id : Int16) (c : Company) :
    (m.database now).withTable (table (m.rows.put id.toInt c.plainCells)) =
      (m.put id c).database now := by
  unfold Ledger.database
  rw [Ledger.rows_put]
  rfl

theorem table_database (m : Ledger) (now : Instant) :
    (m.database now).table tableName = .ok (table m.rows) := by
  have hname : (table m.rows).name = tableName := rfl
  unfold Ledger.database Database.table
  exact if_pos hname

/-- A new record goes in its place. -/
theorem create_of_insert {c : Company} (h : c.validate = .ok ()) {m : Ledger} {now : Instant}
    {id : Int16} (hid : c.companyId.elim m.rows.freshId Int16.toInt = id.toInt)
    (hfree : m id = none) :
    Does (create c (m.database now)) now (.ok id) (m.put id (c.kept id)) := by
  have hcontains : m.rows.contains id.toInt = false := by rw [Ledger.contains_rows, hfree]; rfl
  rw [create_of_free (table_database m now) h hid hcontains, database_put]
  exact ⟨rfl, rfl⟩

theorem create_database (m : Ledger) (now : Instant) (c : Company) :
    Does (create c (m.database now)) now (m.create c).1 (m.create c).2 := by
  have htable := table_database m now
  rw [Ledger.create]
  cases hvalid : c.validate with
  | error v =>
    rw [create, hvalid]
    exact ⟨rfl, rfl⟩
  | ok u =>
    cases hid : c.companyId with
    | some id =>
      have hnumber : c.companyId.elim m.rows.freshId Int16.toInt = id.toInt := by rw [hid]; rfl
      dsimp only
      cases hm : m id with
      | none => exact create_of_insert hvalid hnumber hm
      | some old =>
        have htaken : m.rows.contains id.toInt = true := by rw [Ledger.contains_rows, hm]; rfl
        rw [create_of_taken htable hvalid hid htaken]
        exact ⟨rfl, rfl⟩
    | none =>
      -- A record without an id gets a fresh number: the next id, or one above all ids.
      have hnumber : c.companyId.elim m.rows.freshId Int16.toInt = m.rows.freshId := by
        rw [hid]
        rfl
      have hfresh := m.freshId_rows
      cases hnext : m.nextId? with
      | some id =>
        rw [hnext] at hfresh
        exact create_of_insert hvalid (hnumber.trans hfresh) (Ledger.nextId?_eq_none hnext)
      | none =>
        rw [hnext] at hfresh
        rw [create_of_large htable hvalid hid hfresh]
        exact ⟨rfl, rfl⟩

theorem update_database (m : Ledger) (now : Instant) (c : Company) :
    Does (update c (m.database now)) now ((m.update c).1.map fun _ => ()) (m.update c).2 := by
  rw [Ledger.update]
  cases hid : c.companyId with
  | none =>
    rw [update, hid]
    exact ⟨rfl, rfl⟩
  | some id =>
    cases hvalid : c.validate with
    | error v =>
      rw [update, hid]
      dsimp only
      rw [hvalid]
      exact ⟨rfl, rfl⟩
    | ok u =>
      rw [update_of_table (table_database m now) hid hvalid, Ledger.contains_rows, database_put]
      dsimp only
      cases m id with
      | none => exact ⟨rfl, rfl⟩
      | some old => exact ⟨rfl, rfl⟩

theorem delete_database (m : Ledger) (now : Instant) (id : Int16) :
    Does (delete id (m.database now)) now (m.delete id).1 (m.delete id).2 := by
  have herase : (m.database now).withTable (table (m.rows.erase id.toInt)) =
      (m.erase id).database now := by
    unfold Ledger.database
    rw [Ledger.rows_erase]
    rfl
  rw [delete_of_table (table_database m now), Ledger.contains_rows, herase, Ledger.delete]
  cases m id with
  | none => exact ⟨rfl, rfl⟩
  | some old => exact ⟨rfl, rfl⟩

/-! ## Reading -/

namespace Ledger

/-- What the record of a ledger reads as once it is a row. -/
theorem ofCells_fullCells {m : Ledger} (hm : m.Kept) {id : Int16} {c : Company}
    (h : m id = some c) : Company.ofCells c.cells = c.asRead := by
  obtain ⟨w, hw, rfl⟩ := hm id c h
  exact Company.ofCells_cells rfl (Company.validate_kept hw id) (Instant.stored_stored _)

theorem companyId_eq {m : Ledger} (hm : m.Kept) {id : Int16} {c : Company}
    (h : m id = some c) : c.companyId = some id := by
  obtain ⟨w, -, rfl⟩ := hm id c h
  rfl

end Ledger

theorem find_database {m : Ledger} (hm : m.Kept) (now : Instant) (id : Int16) :
    find id (m.database now) = (m id).elim (.ok none) fun c => c.asRead.map some := by
  have hrow : (table m.rows).fullRows.get? id.toInt = (m id).map Company.cells := by
    rw [Table.fullRows, Rows.get?_map]
    show (m.rows.get? id.toInt).map _ = _
    rw [Ledger.get?_rows, Option.map_map]
    cases h : m id with
    | none => rfl
    | some c => exact congrArg some (fullCells_table (Ledger.companyId_eq hm h))
  rw [isNumbered_table.find_eq (table_database m now) (requireColumns_table _), hrow]
  cases h : m id with
  | none => rfl
  | some c =>
    simp only [Option.map_some, Option.elim_some, Ledger.ofCells_fullCells hm h]

namespace Ledger

theorem exists_of_mem_records {m : Ledger} {c : Company} (h : c ∈ m.records) :
    ∃ id, m id = some c := by
  obtain ⟨id, -, hid⟩ := List.mem_filterMap.mp h
  exact ⟨id, hid⟩

theorem mem_records {m : Ledger} {id : Int16} {c : Company} (h : m id = some c) :
    c ∈ m.records :=
  List.mem_filterMap.mpr ⟨id, mem_ids id, h⟩

/-- Readers see the records in their order. -/
theorem entries_fullCells {m : Ledger} (hm : m.Kept) :
    (m.rows.map (table m.rows).fullCells).entries.map Prod.snd = m.records.map Company.cells := by
  show ((ids.filterMap m.row?).map fun e => (e.1, (table m.rows).fullCells e.1 e.2)).map _ = _
  rw [List.map_map, List.map_filterMap, records, List.map_filterMap]
  congr 1
  funext id
  rw [row?]
  cases h : m id with
  | none => rfl
  | some c =>
    have hcells : (table m.rows).fullCells id.toInt c.plainCells = c.cells :=
      fullCells_table (companyId_eq hm h)
    exact congrArg some hcells

end Ledger

namespace Query

theorem admits_cells (q : Query) (c : Company) : q.admits c.cells = q.wants c := by
  have hcell : Cells.cell c.cells Field.companyGroupId.column = c.cell .companyGroupId := by
    rw [Cells.cell, lookup_cells]
    rfl
  rw [admits, wants]
  cases q.group with
  | none => rfl
  | some g =>
    dsimp only
    rw [hcell, Company.cell]
    cases c.companyGroupId with
    | none => rfl
    | some n =>
      show (n.toInt == g.toInt) = (some n == some g)
      rw [Bool.eq_iff_iff, beq_iff_eq, beq_iff_eq, Option.some.injEq, Int32.toInt_inj]

theorem page_map {α β : Type} (q : Query) (f : α → β) (xs : List α) :
    q.page (xs.map f) = (q.page xs).map f := by
  rw [page, page]
  cases q.limit with
  | none => exact List.map_drop.symm
  | some n =>
    dsimp only
    rw [List.map_take, List.map_drop]

theorem mem_of_mem_page {α : Type} {q : Query} {xs : List α} {x : α} (h : x ∈ q.page xs) :
    x ∈ xs := by
  rw [page] at h
  split at h
  · exact List.mem_of_mem_drop (List.mem_of_mem_take h)
  · exact List.mem_of_mem_drop h

end Query

theorem mapM_ofCells {cs : List Company} (h : ∀ c ∈ cs, Company.ofCells c.cells = c.asRead) :
    (cs.map Company.cells).mapM Company.ofCells = cs.mapM Company.asRead := by
  induction cs with
  | nil => rfl
  | cons c cs ih =>
    rw [List.map_cons, List.mapM_cons, List.mapM_cons, h c List.mem_cons_self,
      ih fun c' hc' => h c' (List.mem_cons_of_mem c hc')]

theorem list_database {m : Ledger} (hm : m.Kept) (now : Instant) (q : Query) :
    list q (m.database now) = (m.list q).mapM Company.asRead := by
  have hrows : list q (m.database now) =
      (q.page (((m.rows.map (table m.rows).fullCells).entries.map Prod.snd).filter
        q.admits)).mapM Company.ofCells :=
    isNumbered_table.list_eq (table_database m now) (requireColumns_table _) q
  have hfilter : (m.records.map Company.cells).filter q.admits =
      (m.records.filter q.wants).map Company.cells := by
    rw [List.filter_map]
    exact congrArg _ (List.filter_congr fun c _ => q.admits_cells c)
  rw [hrows, Ledger.entries_fullCells hm, hfilter, Query.page_map, Ledger.list]
  refine mapM_ofCells fun c hc => ?_
  obtain ⟨id, hid⟩ :=
    Ledger.exists_of_mem_records (List.mem_filter.mp (Query.mem_of_mem_page hc)).1
  exact Ledger.ofCells_fullCells hm hid

end Register

end CompanyRegister
