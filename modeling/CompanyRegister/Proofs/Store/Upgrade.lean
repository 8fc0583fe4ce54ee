import CompanyRegister.Store.Migration

/-!
# Bringing databases up to date

A database can be in any version, and its table need not be the one that the version stands for: it
may be missing, of the first form, of the second, or have lost columns since (`Table.Arises`).
Migrating such a database either succeeds and keeps every row, or leaves the database as it was.

What a migration can do is said once: the first makes a table where there is none, the second turns
a table `t` into `t.grouped`. Everything about `migrate` is then a matter of the version.
-/

namespace CompanyRegister.Store

open Calendar

namespace Cells

theorem cell_append_of_ne {cs : Cells} {column other : String} {x : Cell} (h : column ≠ other) :
    Cells.cell (cs ++ [(other, x)]) column = cs.cell column := by
  have hnone : [(other, x)].lookup column = none := by
    rw [List.lookup_cons, beq_eq_false_iff_ne.mpr h]
    rfl
  rw [Cells.cell, List.lookup_append, hnone, Option.or_none]
  rfl

theorem cell_append_of_not_mem {cs : Cells} {column : String} {x : Cell}
    (h : column ∉ cs.map Prod.fst) : Cells.cell (cs ++ [(column, x)]) column = x := by
  have hnone : cs.lookup column = none := by
    rw [List.lookup_eq_none_iff]
    intro e he
    refine bne_iff_ne.mpr fun heq => h ?_
    exact heq ▸ List.mem_map_of_mem he
  rw [Cells.cell, List.lookup_append, hnone, Option.none_or, List.lookup_cons_self]
  rfl

end Cells

namespace Table

theorem hasColumn_iff {t : Table} {column : String} :
    t.hasColumn column = true ↔ ∃ c ∈ t.columns, c.name = column := by
  simp [hasColumn, columnNames]

theorem requireColumns_eq_ok_iff {t : Table} {names : List String} :
    t.requireColumns names = .ok () ↔ ∀ n ∈ names, t.hasColumn n = true := by
  rw [requireColumns]
  constructor
  · intro h
    split at h
    · cases h
    · next hnone => simpa using hnone
  · intro h
    have hnone : (names.find? fun n => !t.hasColumn n) = none := by simpa using h
    rw [hnone]

/-! ## Tables that arise -/

/-- Whether the rows have exactly a cell for each column that is no key. -/
def RowsFit (t : Table) : Prop :=
  ∀ e ∈ t.rows.entries, e.2.map Prod.fst = t.plainColumns.map Column.name

/-- The tables that a database can hold: made by migrations, with any rows, less any columns that
were dropped since. -/
inductive Arises : Table → Prop
  | made (now : Instant) {n : Nat} {d : Database} {t : Table}
      (hrun : (Migration.run (Migration.all.take n) { now }).1 = .ok d)
      (htable : d.table? = some t) : Arises t
  | filled {t : Table} (h : Arises t) (rows : Rows Cells) (hfit : RowsFit { t with rows }) :
      Arises { t with rows }
  | narrowed {t t' : Table} (h : Arises t) {column : String}
      (hdrop : t.dropColumn? column = some t') : Arises t'

/-- The table as the second migration leaves it. -/
def grouped (t : Table) : Table where
  name := t.name
  columns := t.columns ++ [Migration.groupColumn]
  indexes := t.indexes ++ [Migration.groupIndex]
  rows := t.rows.map fun _ cells => cells ++ [(Migration.groupColumn.name, .null)]

/-- What holds of every table that arises. -/
structure Sound (t : Table) : Prop where
  name_eq : t.name = Migration.tableName
  rows_fit : t.RowsFit
  /-- The index over the groups goes with its column. -/
  group_index : ∀ i ∈ t.indexes, i.name = Migration.groupIndex.name →
    i = Migration.groupIndex ∧ t.hasColumn Migration.groupColumn.name = true

theorem hasColumn_grouped (t : Table) :
    t.grouped.hasColumn Migration.groupColumn.name = true :=
  hasColumn_iff.mpr ⟨_, List.mem_append_right _ List.mem_cons_self, rfl⟩

theorem key?_grouped (t : Table) : t.grouped.key? = t.key? := by
  rw [key?, key?, grouped, List.find?_append]
  exact Option.or_none

theorem isKey_grouped (t : Table) (c : Column) : t.grouped.isKey c = t.isKey c := by
  rw [isKey, isKey, key?_grouped]

theorem not_isKey_groupColumn (t : Table) : t.isKey Migration.groupColumn = false := by
  rw [isKey, beq_eq_false_iff_ne]
  intro hkey
  cases List.find?_some hkey

theorem plainColumns_grouped (t : Table) :
    t.grouped.plainColumns = t.plainColumns ++ [Migration.groupColumn] := by
  simp only [plainColumns, isKey_grouped]
  rw [grouped, List.filter_append]
  simp [not_isKey_groupColumn]

/-- Rows that fit still do when all of them and the columns grow by the same column. -/
theorem rowsFit_grouped {t : Table} (h : t.RowsFit) : t.grouped.RowsFit := by
  intro e he
  obtain ⟨r, hr, rfl⟩ := List.mem_map.mp he
  rw [plainColumns_grouped, List.map_append, List.map_append, h r hr]
  rfl

theorem sound_grouped {t : Table} (h : t.Sound) : t.grouped.Sound where
  name_eq := h.name_eq
  rows_fit := rowsFit_grouped h.rows_fit
  group_index i hi hname := by
    refine ⟨?_, hasColumn_grouped t⟩
    rcases List.mem_append.mp hi with hi | hi
    · exact (h.group_index i hi hname).1
    · exact List.mem_singleton.mp hi

theorem sound_firstForm : (ofDefinition Migration.firstForm).Sound where
  name_eq := rfl
  rows_fit e he := by cases he
  group_index i hi hname := by
    simp only [ofDefinition, Migration.firstForm, List.mem_singleton] at hi
    subst hi
    exact absurd hname (by decide)

theorem hasColumn_filter {t : Table} {column other : String} {indexes : List Index}
    {rows : Rows Cells} (hne : other ≠ column) (h : t.hasColumn other = true) :
    hasColumn { t with
      columns := t.columns.filter fun c => c.name != column, indexes, rows } other = true := by
  obtain ⟨c, hc, rfl⟩ := hasColumn_iff.mp h
  exact hasColumn_iff.mpr ⟨c, List.mem_filter.mpr ⟨hc, bne_iff_ne.mpr hne⟩, rfl⟩

/-- The key stays. -/
theorem key?_dropColumn {t t' : Table} {column : String} (hdrop : t.dropColumn? column = some t') :
    t'.key? = t.key? := by
  rw [dropColumn?] at hdrop
  split at hdrop
  · cases hdrop
  · next hcolumns =>
    cases hdrop
    rw [Bool.or_eq_true, not_or, Bool.not_eq_true (List.any _ _), List.any_eq_false] at hcolumns
    have hkept : ∀ c ∈ t.columns, (c.isKey && c.name != column) = c.isKey := by
      intro c hc
      have hprimary := hcolumns.2 c hc
      simp only [Column.isKey]
      grind
    rw [key?, key?, ← List.head?_filter, ← List.head?_filter, List.filter_filter]
    exact congrArg List.head? (List.filter_congr hkept)

/-- Dropping a column takes its cells and the indexes over it along. -/
theorem sound_dropColumn {t t' : Table} (h : t.Sound) {column : String}
    (hdrop : t.dropColumn? column = some t') : t'.Sound := by
  have hkeeps := key?_dropColumn hdrop
  rw [dropColumn?] at hdrop
  split at hdrop
  · cases hdrop
  · cases hdrop
    refine ⟨h.name_eq, ?_, ?_⟩
    · intro e he
      obtain ⟨r, hr, rfl⟩ := List.mem_map.mp he
      -- Cells and columns go by the same name, so what is left of them fits again.
      have hcells : (r.2.filter fun x => x.1 != column).map Prod.fst =
          (r.2.map Prod.fst).filter (· != column) := by
        rw [List.filter_map]
        rfl
      have hcolumns : ((t.columns.filter fun c => c.name != column).filter
          fun c => !(t.key? == some c)).map Column.name =
            (t.plainColumns.map Column.name).filter (· != column) := by
        rw [plainColumns, List.filter_map, List.filter_filter, List.filter_filter]
        exact congrArg _ (List.filter_congr fun c _ => Bool.and_comm _ _)
      rw [plainColumns]
      simp only [isKey, hkeeps]
      exact hcells.trans ((congrArg _ (h.rows_fit r hr)).trans hcolumns.symm)
    · intro i hi hname
      -- An index that stays is not over the column that goes.
      obtain ⟨hi, hover⟩ := List.mem_filter.mp hi
      obtain ⟨rfl, hgroup⟩ := h.group_index i hi hname
      refine ⟨rfl, hasColumn_filter ?_ hgroup⟩
      rintro rfl
      exact absurd hover (by decide)

end Table

namespace Migration

/-! ## What a migration does -/

theorem apply_companyList_of_none {d : Database} (h : d.table? = none) :
    companyList.apply d =
      .ok { d with version := 1, table? := some (.ofDefinition firstForm) } := by
  simp [apply, companyList, Change.apply, h, Database.withTable, bind, Except.bind, pure,
    Except.pure]

theorem apply_companyList_of_some {d : Database} {t : Table} (h : d.table? = some t) :
    companyList.apply d = .error (.tableExists tableName) := by
  simp [apply, companyList, Change.apply, h, bind, Except.bind, firstForm]

theorem apply_companyGroup_of_none {d : Database} (h : d.table? = none) :
    companyGroup.apply d = .error (.noSuchTable tableName) := by
  simp [apply, companyGroup, Change.apply, Database.table, h, bind, Except.bind]

theorem apply_companyGroup_of_column {d : Database} {t : Table} (h : d.table? = some t)
    (ht : t.Sound) (hcolumn : t.hasColumn groupColumn.name = true) :
    companyGroup.apply d = .error (.columnExists groupColumn.name) := by
  simp [apply, companyGroup, Change.apply, Database.table, h, ht.name_eq, Table.addColumn,
    hcolumn, bind, Except.bind]

theorem apply_companyGroup {d : Database} {t : Table} (h : d.table? = some t) (ht : t.Sound)
    (hcolumn : t.hasColumn groupColumn.name = false) :
    companyGroup.apply d = .ok { d with version := 2, table? := some t.grouped } := by
  -- The name of the index is free: an index of this name would have gone with the column.
  have hindex : (t.indexes.map Index.name).contains groupIndex.name = false := by
    rw [Bool.eq_false_iff]
    intro hmem
    obtain ⟨i, hi, hname⟩ := List.mem_map.mp (List.contains_iff_mem.mp hmem)
    have hgroup := (ht.group_index i hi hname).2
    rw [hcolumn] at hgroup
    cases hgroup
  -- The column of the index is there, for the change before has added it.
  have hrequired : t.grouped.requireColumns groupIndex.columns = .ok () := by
    simp only [Table.requireColumns, groupIndex, List.find?_cons, List.find?_nil]
    rw [show t.grouped.hasColumn "CompanyGroupId" = true from t.hasColumn_grouped]
    rfl
  have hadded : t.addColumn d.now groupColumn = .ok { t.grouped with indexes := t.indexes } := by
    rw [Table.addColumn, hcolumn]
    rfl
  have hindexed :
      { t.grouped with indexes := t.indexes }.addIndex groupIndex = .ok t.grouped := by
    rw [Table.addIndex, hindex]
    exact hrequired ▸ rfl
  have hname : t.grouped.name = tableName := ht.name_eq
  simp only [apply, companyGroup, List.foldlM_cons, List.foldlM_nil, Change.apply, Database.table,
    h, ht.name_eq, if_true, hadded, bind, Except.bind, pure, Except.pure, Database.withTable]
  rw [if_pos hname]
  simp only [hindexed]
  rfl

/-- Without their reports, migrations are one after the other. -/
theorem run_fst (ms : List Migration) (d : Database) :
    (run ms d).1 = ms.foldlM (fun d m => m.apply d) d := by
  induction ms generalizing d with
  | nil => rfl
  | cons m ms ih =>
    rw [run, List.foldlM_cons]
    cases hm : m.apply d with
    | error f => rfl
    | ok d' => exact ih d'

theorem run_cons_of_error {m : Migration} {ms : List Migration} {d : Database} {f : Fault}
    (h : m.apply d = .error f) : (run (m :: ms) d).1 = .error f := by
  rw [run_fst, List.foldlM_cons, h]
  rfl

theorem run_companyList {d : Database} (h : d.table? = none) :
    (run [companyList] d).1 =
      .ok { d with version := 1, table? := some (.ofDefinition firstForm) } := by
  rw [run_fst, List.foldlM_cons, apply_companyList_of_none h]
  rfl

theorem run_companyGroup {d : Database} {t : Table} (h : d.table? = some t) (ht : t.Sound)
    (hcolumn : t.hasColumn groupColumn.name = false) :
    (run [companyGroup] d).1 = .ok { d with version := 2, table? := some t.grouped } := by
  rw [run_fst, List.foldlM_cons, apply_companyGroup h ht hcolumn]
  rfl

theorem run_all {d : Database} (h : d.table? = none) :
    (run all d).1 =
      .ok { d with version := 2, table? := some (Table.ofDefinition firstForm).grouped } := by
  have hgroup := apply_companyGroup
    (d := { d with version := 1, table? := some (.ofDefinition firstForm) }) rfl
    Table.sound_firstForm rfl
  rw [run_fst, all, List.foldlM_cons, apply_companyList_of_none h]
  exact (congrArg (· >>= pure) hgroup).trans rfl

end Migration

namespace Table

/-- Every table that arises is sound. -/
theorem Arises.sound {t : Table} (h : t.Arises) : t.Sound := by
  induction h with
  | @made now n d t hrun htable =>
    match n, hrun with
    | 0, hrun =>
      cases hrun
      cases htable
    | 1, hrun =>
      cases (Migration.run_companyList rfl).symm.trans hrun
      cases htable
      exact sound_firstForm
    -- There are two migrations, so two or more are all of them.
    | n + 2, hrun =>
      have htake : Migration.all.take (n + 2) = Migration.all := List.take_of_length_le (by
        simp [Migration.all])
      rw [htake] at hrun
      cases (Migration.run_all rfl).symm.trans hrun
      cases htable
      exact sound_grouped sound_firstForm
  | filled h rows hfit ih => exact ⟨ih.name_eq, hfit, ih.group_index⟩
  | narrowed h hdrop ih => exact sound_dropColumn ih hdrop

/-- A row without a cell for the groups shows none once there is a column for them. -/
theorem fullCells_grouped {t : Table} (hcolumn : t.hasColumn Migration.groupColumn.name = false)
    {id : Int} {cells : Cells} (hcells : Migration.groupColumn.name ∉ cells.map Prod.fst) :
    t.grouped.fullCells id (cells ++ [(Migration.groupColumn.name, .null)]) =
      t.fullCells id cells ++ [(Migration.groupColumn.name, .null)] := by
  -- The new cell stands behind the others, and no column of the table has its name.
  have hold : ∀ c ∈ t.columns,
      Cells.cell (cells ++ [(Migration.groupColumn.name, .null)]) c.name = cells.cell c.name := by
    intro c hc
    refine Cells.cell_append_of_ne fun heq => ?_
    rw [hasColumn_iff.mpr ⟨c, hc, heq⟩] at hcolumn
    cases hcolumn
  have hnew : Cells.cell (cells ++ [(Migration.groupColumn.name, .null)])
      Migration.groupColumn.name = .null := Cells.cell_append_of_not_mem hcells
  have hcolumns : t.grouped.columns = t.columns ++ [Migration.groupColumn] := rfl
  simp only [fullCells, wholeRow, hcolumns, List.map_append, List.map_cons, List.map_nil, hnew,
    isKey_grouped, not_isKey_groupColumn, Bool.false_eq_true, if_false]
  congr 1
  rw [List.map_map, List.map_map]
  refine List.map_congr_left fun c hc => ?_
  simp only [Function.comp_apply, hold c hc]

/-- Columns at the end take nothing from the rows: a reader sees one more empty cell in each. -/
theorem fullRows_grouped {t : Table} (h : t.RowsFit)
    (hcolumn : t.hasColumn Migration.groupColumn.name = false) :
    t.grouped.fullRows =
      t.fullRows.map fun _ cells => cells ++ [(Migration.groupColumn.name, .null)] := by
  ext1
  simp only [fullRows, Rows.map, grouped, List.map_map]
  refine List.map_congr_left fun e he => ?_
  have hcells : Migration.groupColumn.name ∉ e.2.map Prod.fst := by
    rw [h e he]
    intro hmem
    obtain ⟨c, hc, hname⟩ := List.mem_map.mp hmem
    rw [hasColumn_iff.mpr ⟨c, (List.mem_filter.mp hc).1, hname⟩] at hcolumn
    cases hcolumn
  exact congrArg (Prod.mk e.1) (fullCells_grouped hcolumn hcells)

end Table

namespace Database

/-! ## What becomes of a database -/

/-- The databases that can be brought up to date. -/
def Upgradable (d : Database) : Prop :=
  d.version = 2 ∨
  (d.version = 1 ∧ ∃ t, d.table? = some t ∧ t.hasColumn Migration.groupColumn.name = false) ∨
  (d.version = 0 ∧ d.table? = none)

/-- Whether all tables of the database are sound. -/
def Sound (d : Database) : Prop := ∀ t, d.table? = some t → t.Sound

/-- The migrations that a version is short of. -/
def due (n : Nat) : List Migration := Migration.all.filter fun m => n < m.version

/-- A version that is not too new runs the migrations that are due: all or none. -/
theorem migrate_of_le {d : Database} {n : Nat} (hversion : d.version = n)
    (hn : n ≤ Migration.latest) :
    d.migrate.answer = ((Migration.run (due n) d).1.map fun _ => (due n).length) ∧
      d.migrate.database = (Migration.run (due n) d).1.toOption.getD d := by
  have hnumber : d.versionNumber = .ok n := by
    rw [versionNumber, hversion, if_neg (Int.not_lt.mpr (Int.natCast_nonneg n)), Int.toNat_natCast]
  rw [migrate, hnumber]
  simp only [if_neg (Nat.not_lt.mpr hn)]
  rw [← due]
  rcases Migration.run (due n) d with ⟨_ | new, events⟩
  · exact ⟨rfl, rfl⟩
  · exact ⟨rfl, rfl⟩

/-- A version that is too new, or none at all, is refused. -/
theorem migrate_of_odd {d : Database} (h : d.version < 0 ∨ (Migration.latest : Int) < d.version) :
    ∃ f, d.migrate.answer = .error f ∧ d.migrate.database = d := by
  rw [migrate, versionNumber]
  by_cases hneg : d.version < 0
  · rw [if_pos hneg]
    exact ⟨_, rfl, rfl⟩
  · have hnew : Migration.latest < d.version.toNat := by omega
    rw [if_neg hneg]
    simp only [if_pos hnew]
    exact ⟨_, rfl, rfl⟩

/-- What bringing a database up to date comes to, when it can be done. -/
def upgraded (d : Database) : Database :=
  if d.version = 2 then d
  else
    { d with
      version := 2
      table? := some (d.table?.getD (.ofDefinition Migration.firstForm)).grouped }

theorem migrate_of_upgradable {d : Database} (hsound : d.Sound) (h : d.Upgradable) :
    d.migrate.answer = .ok (2 - d.version).toNat ∧ d.migrate.database = d.upgraded := by
  obtain hversion | ⟨hversion, t, htable, hcolumn⟩ | ⟨hversion, htable⟩ := h
  · have hdue : Migration.run (due 2) d = (.ok d, []) := rfl
    have hmigrate := migrate_of_le (n := 2) hversion (by decide)
    rw [hdue] at hmigrate
    rw [upgraded, if_pos hversion, hversion]
    exact hmigrate
  · have hmigrate := migrate_of_le (n := 1) hversion (by decide)
    rw [show due 1 = [Migration.companyGroup] from rfl,
      Migration.run_companyGroup htable (hsound t htable) hcolumn] at hmigrate
    rw [upgraded, hversion, htable]
    exact hmigrate
  · have hmigrate := migrate_of_le (n := 0) hversion (by decide)
    rw [show due 0 = Migration.all from rfl, Migration.run_all htable] at hmigrate
    rw [upgraded, hversion, htable]
    exact hmigrate

theorem migrate_of_run_error {d : Database} {n : Nat} (hversion : d.version = n)
    (hn : n ≤ Migration.latest) {f : Fault} (hrun : (Migration.run (due n) d).1 = .error f) :
    ∃ f, d.migrate.answer = .error f ∧ d.migrate.database = d := by
  obtain ⟨hanswer, hdatabase⟩ := migrate_of_le hversion hn
  rw [hrun] at hanswer hdatabase
  exact ⟨f, hanswer, hdatabase⟩

/-- A migration that cannot be made undoes those before it. -/
theorem migrate_of_not_upgradable {d : Database} (hsound : d.Sound) (h : ¬ d.Upgradable) :
    ∃ f, d.migrate.answer = .error f ∧ d.migrate.database = d := by
  by_cases hodd : d.version < 0 ∨ (Migration.latest : Int) < d.version
  · exact migrate_of_odd hodd
  · have hlatest : (Migration.latest : Int) = 2 := rfl
    have hversions : d.version = 0 ∨ d.version = 1 ∨ d.version = 2 := by omega
    rcases hversions with hversion | hversion | hversion
    · cases htable : d.table? with
      | none => exact absurd (.inr (.inr ⟨hversion, htable⟩)) h
      | some t =>
        have happly := Migration.apply_companyList_of_some htable
        exact migrate_of_run_error (n := 0) hversion (by decide)
          (Migration.run_cons_of_error happly)
    · cases htable : d.table? with
      | none =>
        have happly := Migration.apply_companyGroup_of_none htable
        exact migrate_of_run_error (n := 1) hversion (by decide)
          (Migration.run_cons_of_error happly)
      | some t =>
        cases hcolumn : t.hasColumn Migration.groupColumn.name with
        | false => exact absurd (.inr (.inl ⟨hversion, t, htable, hcolumn⟩)) h
        | true =>
          have happly := Migration.apply_companyGroup_of_column htable (hsound t htable) hcolumn
          exact migrate_of_run_error (n := 1) hversion (by decide)
            (Migration.run_cons_of_error happly)
    · exact absurd (.inl hversion) h

theorem sound_of_arises {d : Database} (h : ∀ t, d.table? = some t → t.Arises) : d.Sound :=
  fun t ht => (h t ht).sound

theorem version_upgraded (d : Database) : d.upgraded.version = 2 := by
  rw [upgraded]
  split
  · assumption
  · rfl

/-- A table loses no row and no cell, and has no group in a column that is new. -/
theorem fullRows_upgraded {d : Database} (hsound : d.Sound) (h : d.Upgradable) {t : Table}
    (htable : d.table? = some t) :
    ∃ t', d.upgraded.table? = some t' ∧
      t'.fullRows = if d.version = 1
        then t.fullRows.map fun _ cells => cells ++ [(Migration.groupColumn.name, .null)]
        else t.fullRows := by
  obtain hversion | ⟨hversion, t₁, htable₁, hcolumn⟩ | ⟨-, hnone⟩ := h
  · have hne : ¬ d.version = 1 := by omega
    rw [upgraded, if_pos hversion, if_neg hne]
    exact ⟨t, htable, rfl⟩
  · cases htable.symm.trans htable₁
    have hne : ¬ d.version = 2 := by omega
    rw [upgraded, if_neg hne, if_pos hversion, htable]
    exact ⟨_, rfl, Table.fullRows_grouped (hsound t htable).rows_fit hcolumn⟩
  · cases htable.symm.trans hnone

/-- An upgrade of a database, whatever its version says and whatever its table is, does all that is
due or nothing. A database that is up to date stays so. -/
theorem migrate_all_or_nothing {d : Database} (h : ∀ t, d.table? = some t → t.Arises) :
    (∀ n, d.migrate.answer = .ok n →
      d.migrate.database.version = 2 ∧ (n : Int) = 2 - d.version ∧
      (∀ t, d.table? = some t → ∃ t', d.migrate.database.table? = some t' ∧
        t'.fullRows = if d.version = 1
          then t.fullRows.map fun _ cells => cells ++ [("CompanyGroupId", .null)]
          else t.fullRows) ∧
      d.migrate.database.migrate.answer = .ok 0 ∧
      d.migrate.database.migrate.database = d.migrate.database) ∧
    (∀ f, d.migrate.answer = .error f → d.migrate.database = d) ∧
    ((∃ n, d.migrate.answer = .ok n) ↔
      d.version = 2 ∨
      (d.version = 1 ∧ ∃ t, d.table? = some t ∧ t.hasColumn "CompanyGroupId" = false) ∨
      (d.version = 0 ∧ d.table? = none)) := by
  have hsound := sound_of_arises h
  by_cases hup : d.Upgradable
  · obtain ⟨hanswer, hdatabase⟩ := migrate_of_upgradable hsound hup
    have hversion : d.version ≤ 2 := by
      rcases hup with hv | ⟨hv, -⟩ | ⟨hv, -⟩ <;> omega
    refine ⟨fun n hn => ?_, fun f hf => ?_, fun _ => hup, fun _ => ⟨_, hanswer⟩⟩
    · cases hn.symm.trans hanswer
      -- The second time nothing is due.
      have hagain := migrate_of_le (n := 2) (version_upgraded d) (by decide)
      rw [show Migration.run (due 2) d.upgraded = (.ok d.upgraded, []) from rfl] at hagain
      rw [hdatabase]
      refine ⟨version_upgraded d, ?_, ?_, hagain⟩
      · exact Int.toNat_of_nonneg (by omega)
      · exact fun t ht => fullRows_upgraded hsound hup ht
    · cases hf.symm.trans hanswer
  · obtain ⟨f, hanswer, hdatabase⟩ := migrate_of_not_upgradable hsound hup
    refine ⟨fun n hn => ?_, fun _ _ => hdatabase, fun ⟨n, hn⟩ => ?_, fun hup' => absurd hup' hup⟩
    · cases hn.symm.trans hanswer
    · cases hn.symm.trans hanswer

/-- A database that was made when there were no groups. -/
def withoutGroups : Database where
  version := 1
  table? := some { Table.ofDefinition Migration.firstForm with
    rows := Rows.empty.put 7 [
      ("CompanyName", .text "Acme"), ("BaseRate", .int 125000), ("DefaultCurrencyId", .int 1),
      ("EnterUserId", .int 1), ("EnterDate", .text "2024-03-15T00:00:00.000Z"),
      ("TaxRate", .null)] }

theorem migrate_withoutGroups :
    withoutGroups.migrate.answer = .ok 1 ∧
    ∃ t, withoutGroups.migrate.database.table? = some t ∧
      t.fullRows.get? 7 = some [
        ("CompanyId", .int 7), ("CompanyName", .text "Acme"), ("BaseRate", .int 125000),
        ("DefaultCurrencyId", .int 1), ("EnterUserId", .int 1),
        ("EnterDate", .text "2024-03-15T00:00:00.000Z"), ("TaxRate", .null),
        ("CompanyGroupId", .null)] := by
  have harises : ∀ t, withoutGroups.table? = some t → t.Arises := by
    intro t ht
    cases ht
    refine .filled (.made .epoch (n := 1) rfl rfl) _ ?_
    intro e he
    cases List.mem_singleton.mp he
    rfl
  obtain ⟨hok, -, hiff⟩ := migrate_all_or_nothing harises
  obtain ⟨n, hn⟩ := hiff.mpr (.inr (.inl ⟨rfl, _, rfl, rfl⟩))
  obtain ⟨-, hcount, hrows, -⟩ := hok n hn
  have hone : n = 1 := Int.ofNat.inj hcount
  obtain ⟨t, htable, hfull⟩ := hrows _ rfl
  refine ⟨hone ▸ hn, t, htable, ?_⟩
  rw [hfull]
  rfl

end Database

end CompanyRegister.Store
