import CompanyRegister.Proofs.Register.Faults
import CompanyRegister.Proofs.Store.Constraints

/-!
# What was written is found

The registrar reads back what it has written, and has a fault for not finding it
(`Registrar.Fault.lost`). It never comes to that: the id that a record is added under is
read from the row, and a change of rows says nothing about their ids, so the selection of the rows
with this id is not empty.

    c ──create──▶ id        a row whose cell of the id is id.toInt (`HasRow`) ──find──▶ c

This holds of every table that the register is ready to work on. Its columns may convert and check
whatever they do, or nothing; its rows may hold anything, and may be numbered by their ids, by
another column or by none.
-/

namespace CompanyRegister

open Calendar Store

namespace Store.Outcome

variable {ε δ α β : Type}

theorem answer_andThen (o : Outcome ε α) (next : α → Database → Outcome ε β) :
    (o.andThen next).answer = o.answer >>= fun a => (next a o.database).answer := by
  unfold andThen
  cases o.answer <;> rfl

theorem answer_of_mapError {o : Outcome ε α} {f : ε → δ} {a : α}
    (h : (o.mapError f).answer = .ok a) : o.answer = .ok a := by
  unfold mapError at h
  cases hanswer : o.answer with
  | error e =>
    rw [hanswer] at h
    cases h
  | ok b =>
    rw [hanswer] at h
    cases h
    rfl

end Store.Outcome

namespace Store

/-! ## Cells of rows -/

/-- A column of texts holds no numbers. -/
theorem Affinity.ne_text_of_convert {a : Affinity} {c : Cell} {n : Int}
    (h : a.convert c = .int n) : a ≠ .text := by
  rintro rfl
  cases c <;> cases h

namespace Table

variable {t : Table} {name : String} {k : Column} {cells values : Cells}

/-- Of columns of one name it is the first whose cell is found. -/
theorem lookup_columns (cell : Column → Cell) (name : String) (columns : List Column) :
    (columns.map fun c => (c.name, cell c)).lookup name =
      (columns.find? fun c => c.name == name).map cell := by
  induction columns with
  | nil => rfl
  | cons c columns ih =>
    rw [List.map_cons, List.lookup_cons]
    by_cases hname : c.name = name
    · rw [List.find?_cons_of_pos (by simpa using hname), hname, beq_self_eq_true]
      rfl
    · rw [List.find?_cons_of_neg (by simpa using hname), beq_eq_false_iff_ne.mpr (Ne.symm hname)]
      exact ih

theorem exists_find?_of_hasColumn (h : t.hasColumn name = true) :
    ∃ k, (t.columns.find? fun c => c.name == name) = some k := by
  obtain ⟨c, hc, hname⟩ := List.mem_map.mp (List.contains_iff_mem.mp h)
  exact Option.isSome_iff_exists.mp (List.find?_isSome.mpr ⟨c, hc, by simpa using hname⟩)

theorem affinity_of_isKey (h : t.isKey k = true) : k.affinity = .integer := by
  have hkey : k.isKey = true := List.find?_some (eq_of_beq h)
  exact eq_of_beq (Bool.and_eq_true_iff.mp hkey).2

section Found

variable (hfind : (t.columns.find? fun c => c.name == name) = some k)

include hfind

theorem affinityOf_of_find : t.affinityOf name = k.affinity := by
  rw [affinityOf, hfind]
  rfl

/-- A row holds its number in the key, and in any other column what is kept under the name. -/
theorem cell_fullCells (n : Int) (cells : Cells) :
    (t.fullCells n cells).cell name = if t.isKey k then .int n else cells.cell name := by
  have hname : k.name = name := by simpa using List.find?_some hfind
  have hcells : t.fullCells n cells =
      t.columns.map fun c => (c.name, if t.isKey c then .int n else cells.cell c.name) := by
    rw [fullCells, wholeRow, List.map_map]
    rfl
  rw [Cells.cell, hcells, lookup_columns, hfind, Option.map_some, hname]
  rfl

theorem lookup_plainColumns (hplain : t.isKey k = false) (cell : Column → Cell) :
    (t.plainColumns.map fun c => (c.name, cell c)).lookup name = some (cell k) := by
  obtain ⟨hname, before, after, hcolumns, hbefore⟩ := List.find?_eq_some_iff_append.mp hfind
  have hearlier : ((before.filter fun c => !t.isKey c).find? fun c => c.name == name) = none :=
    List.find?_eq_none.mpr fun c hc => by simpa using hbefore c (List.mem_of_mem_filter hc)
  have hfound : (t.plainColumns.find? fun c => c.name == name) = some k := by
    rw [plainColumns, hcolumns, List.filter_append, List.filter_cons_of_pos (by simp [hplain]),
      List.find?_append, hearlier, Option.none_or]
    exact List.find?_cons_of_pos hname
  rw [lookup_columns, hfound]
  rfl

/-- What a new row keeps in a column is what the column has made of it. -/
theorem exists_cell_newCells (hplain : t.isKey k = false) (now : Instant) (values : Cells) :
    ∃ c, (t.newCells now values).cell name = k.affinity.convert c := by
  rw [newCells, Cells.cell, lookup_plainColumns hfind hplain]
  exact ⟨_, rfl⟩

/-- A change of a row leaves what it says nothing about. -/
theorem cell_changedCells (hplain : t.isKey k = false) (hvalues : values.lookup name = none) :
    (t.changedCells cells values).cell name = cells.cell name := by
  have hname : k.name = name := by simpa using List.find?_some hfind
  rw [changedCells, Cells.cell, lookup_plainColumns hfind hplain, hname, hvalues]
  rfl

/-- If values say nothing about a key, they leave a row its number. -/
theorem changedId_of_key (hkey : t.isKey k = true) (hvalues : values.lookup name = none)
    (n : Int) : t.changedId n values = .ok n := by
  have hname : k.name = name := by simpa using List.find?_some hfind
  have hcell : t.keyCell? values = none := by
    rw [keyCell?, eq_of_beq hkey, Option.bind_some, hname, hvalues]
  rw [changedId, hcell]

end Found

end Table

end Store

namespace Register

/-! ## Tables with a row that has an id -/

/-- Whether a row of a table has an id, be it a record or not. -/
def HasRow (t : Table) (id : Int16) : Prop :=
  ∃ n cells, t.rows.get? n = some cells ∧ HasId t id (t.fullCells n cells)

namespace HasRow

variable {t t' : Table} {id : Int16} {values : Cells}

theorem withId_ne_nil (h : HasRow t id) : withId id t ≠ [] := by
  obtain ⟨n, cells, hrow, hid⟩ := h
  have hmem : (n, t.fullCells n cells) ∈ t.fullRows.entries := by
    rw [Rows.mem_entries_iff, Table.fullRows, Rows.get?_map, hrow]
    rfl
  exact List.ne_nil_of_mem (mem_withId.mpr ⟨n, hmem, hid⟩)

theorem of_holders {count : Nat}
    (h : count + 1 = (t.holders Field.companyId.column id.toInt).length) : HasRow t id := by
  obtain ⟨n, hn⟩ := List.exists_mem_of_length_pos (Nat.lt_of_lt_of_eq (Nat.succ_pos count) h)
  obtain ⟨⟨n, cs⟩, he, rfl⟩ := List.mem_map.mp hn
  obtain ⟨hmem, hholds⟩ := List.mem_filter.mp he
  rw [Rows.mem_entries_iff, Table.fullRows, Rows.get?_map] at hmem
  obtain ⟨cells, hrow, rfl⟩ := Option.map_eq_some_iff.mp hmem
  exact ⟨n, cells, hrow, holds_iff_hasId.mp hholds⟩

/-- A row that is added has the id that it is said to hold. -/
theorem of_insert {now : Instant} {n : Int}
    (hcolumn : t.hasColumn Field.companyId.column = true)
    (hinsert : t.insert now values = .ok (n, t'))
    (hcell : t'.cellAt Field.companyId.column n = .int id.toInt) : HasRow t' id := by
  obtain ⟨k, hfind⟩ := Table.exists_find?_of_hasColumn hcolumn
  obtain ⟨-, rfl⟩ := Table.insert_cases hinsert
  have hrow := Rows.get?_put_self t.rows n (t.newCells now values)
  rw [Table.cellAt, hrow] at hcell
  have hheld : (t.fullCells n (t.newCells now values)).cell Field.companyId.column =
      .int id.toInt := hcell
  have haffinity : t.affinityOf Field.companyId.column ≠ .text := by
    rw [Table.affinityOf_of_find hfind]
    rw [Table.cell_fullCells hfind] at hheld
    -- A key is of whole numbers, and any other column has converted what it holds.
    cases hkey : t.isKey k with
    | true =>
      rw [Table.affinity_of_isKey hkey]
      intro h
      cases h
    | false =>
      obtain ⟨c, hc⟩ := Table.exists_cell_newCells hfind hkey now values
      rw [if_neg (Bool.eq_false_iff.mp hkey), hc] at hheld
      exact Affinity.ne_text_of_convert hheld
  refine ⟨n, _, hrow, ?_⟩
  show HasId t id (t.fullCells n (t.newCells now values))
  rw [HasId, if_neg haffinity]
  exact .inl hheld

/-- A change of a row that says nothing about ids leaves one that has an id. Where rows are numbered
by another column it may move the row, but not to the place of another. -/
theorem of_changeRow (h : HasRow t id) (hcolumn : t.hasColumn Field.companyId.column = true)
    (hvalues : values.lookup Field.companyId.column = none) {m : Int}
    (hchange : Table.changeRow values t m = .ok t') : HasRow t' id := by
  obtain ⟨n, cells, hrow, hid⟩ := h
  obtain ⟨k, hfind⟩ := Table.exists_find?_of_hasColumn hcolumn
  obtain ⟨-, rfl⟩ | ⟨new, old, hold, hnew, hrequire, rfl⟩ := Table.changeRow_cases hchange
  · exact ⟨n, cells, hrow, hid⟩
  by_cases hn : n = m
  · subst hn
    cases hold.symm.trans hrow
    have hsame : (t.fullCells new (t.changedCells cells values)).cell Field.companyId.column =
        (t.fullCells n cells).cell Field.companyId.column := by
      rw [Table.cell_fullCells hfind, Table.cell_fullCells hfind]
      cases hkey : t.isKey k with
      | true =>
        cases (Table.changedId_of_key hfind hkey hvalues n).symm.trans hnew
        rfl
      | false => exact Table.cell_changedCells hfind hkey hvalues
    refine ⟨new, _, Rows.get?_put_self _ _ _, ?_⟩
    show HasId t id (t.fullCells new (t.changedCells cells values))
    rw [HasId, hsame]
    exact hid
  · have hother : (t.rows.erase m).get? n = some cells := by
      rw [Rows.get?_erase_of_ne _ hn, hrow]
    have hne : n ≠ new := by
      rintro rfl
      cases hkey : t.key? with
      | none =>
        rw [Table.changedId, Table.keyCell?, hkey] at hnew
        cases hnew
        exact hn rfl
      | some c =>
        have hkeyed : t.key? ≠ none := by
          rw [hkey]
          exact Option.some_ne_none c
        have hfree := Table.not_contains_of_require hrequire hkeyed
        rw [Rows.contains, hother] at hfree
        cases hfree
    refine ⟨n, cells, ?_, hid⟩
    rw [Rows.get?_put_of_ne _ _ hne, hother]

/-- So does a statement that changes rows and says nothing about ids. -/
theorem of_update (h : HasRow t id) (hcolumn : t.hasColumn Field.companyId.column = true)
    (hvalues : values.lookup Field.companyId.column = none) {column : String} {n : Int}
    {count : Nat} (hupdate : t.update column n values = .ok (count, t')) :
    HasRow t' id ∧ t'.name = t.name ∧ t'.columns = t.columns := by
  refine Table.update_induction (P := fun u => HasRow u id ∧ u.name = t.name ∧
    u.columns = t.columns) ?_ ⟨h, rfl, rfl⟩ hupdate
  rintro u m u' ⟨hu, hname, hcolumns⟩ hchange
  have hcolumn' : u.hasColumn Field.companyId.column = true := by
    rw [Table.hasColumn, Table.columnNames, hcolumns]
    exact hcolumn
  refine ⟨hu.of_changeRow hcolumn' hvalues hchange, ?_⟩
  obtain ⟨-, rfl⟩ | ⟨new, old, -, -, -, rfl⟩ := Table.changeRow_cases hchange
  · exact ⟨hname, hcolumns⟩
  · exact ⟨hname, hcolumns⟩

end HasRow

/-! ## Writing and reading back -/

/-- A database on which the register works. -/
structure Serves (d : Database) (t : Table) : Prop where
  table_eq : d.table tableName = .ok t
  columns : t.requireColumns Field.columns = .ok ()

theorem exists_serves {d : Database} (hready : ready d = .ok ()) : ∃ t, Serves d t := by
  obtain ⟨t, htable, hcolumns⟩ := exists_table_of_ready hready
  exact ⟨t, htable, hcolumns⟩

namespace Serves

variable {d : Database} {t : Table}

/-- With another table of the same columns it still does. -/
theorem withTable (h : Serves d t) {t' : Table} (hname : t'.name = t.name)
    (hcolumns : t'.columns = t.columns) : Serves (d.withTable t') t' where
  table_eq := Database.table_eq_ok_iff.mpr
    ⟨rfl, hname.trans (Database.table_eq_ok_iff.mp h.table_eq).2⟩
  columns := by
    refine Table.requireColumns_eq_ok_iff.mpr fun n hn => ?_
    rw [Table.hasColumn, Table.columnNames, hcolumns]
    exact Table.requireColumns_eq_ok_iff.mp h.columns n hn

theorem hasColumn_id (h : Serves d t) : t.hasColumn Field.companyId.column = true :=
  Table.requireColumns_eq_ok_iff.mp h.columns _ (List.mem_map_of_mem (Field.mem_all .companyId))

/-- Where a row has an id, the id is found, if perhaps not as a record. -/
theorem find_ne_none (h : Serves d t) {id : Int16} (hrow : HasRow t id) : find id d ≠ .ok none := by
  rw [find_eq h.table_eq h.columns]
  cases hrows : withId id t with
  | nil => exact absurd hrows hrow.withId_ne_nil
  | cons cs rest =>
    dsimp only
    cases Company.ofCells cs with
    | error f => nofun
    | ok c => nofun

/-- Adding a record leaves a row with the id that is given back. -/
theorem exists_of_create (h : Serves d t) {c : Company} {id : Int16}
    (hcreate : (create c d).answer = .ok id) :
    ∃ t', Serves (create c d).database t' ∧ HasRow t' id := by
  unfold create at hcreate ⊢
  cases hvalid : c.validate with
  | error v =>
    rw [hvalid] at hcreate
    cases hcreate
  | ok =>
    rw [hvalid] at hcreate
    cases hinsert : d.insertReturning tableName c.cells Field.companyId.column with
    | error f =>
      rw [hinsert] at hcreate
      cases hcreate
    | ok r =>
      obtain ⟨cell, e⟩ := r
      obtain ⟨t₁, t', n, htable, hrow, hcell, rfl⟩ := Database.exists_of_insertReturning hinsert
      cases h.table_eq.symm.trans htable
      rw [hinsert] at hcreate
      dsimp only at hcreate ⊢
      cases hid : Company.int16OfCell .companyId cell with
      | error f =>
        rw [hid] at hcreate
        cases hcreate
      | ok k =>
        rw [hid] at hcreate
        cases hcreate
        have hheld := hcell.symm.trans (Company.int16OfCell_eq_ok_iff.mp hid)
        refine ⟨t', ?_, .of_insert h.hasColumn_id hrow hheld⟩
        obtain ⟨-, rfl⟩ := Table.insert_cases hrow
        exact h.withTable rfl rfl

/-- Changing a record leaves a row with its id. -/
theorem exists_of_update (h : Serves d t) {c : Company} {id : Int16} (hid : c.companyId = some id)
    (hupdate : (update c d).answer = .ok ()) :
    ∃ t', Serves (update c d).database t' ∧ HasRow t' id := by
  unfold update at hupdate ⊢
  rw [hid] at hupdate ⊢
  dsimp only at hupdate ⊢
  cases hvalid : c.validate with
  | error v =>
    rw [hvalid] at hupdate
    cases hupdate
  | ok =>
    rw [hvalid] at hupdate
    cases hresult : d.update tableName Field.companyId.column id.toInt c.plainCells with
    | error f =>
      rw [hresult] at hupdate
      cases hupdate
    | ok r =>
      obtain ⟨count, e⟩ := r
      obtain ⟨t₁, t', htable, hrows, rfl⟩ := Database.exists_of_update hresult
      cases h.table_eq.symm.trans htable
      rw [hresult] at hupdate
      cases count with
      | zero => cases hupdate
      | succ count =>
        have hthere : HasRow t id := .of_holders (Table.update_cases hrows).1
        have hvalues : c.plainCells.lookup Field.companyId.column = none :=
          Field.lookup_column_of_not_mem c.cell (by decide)
        obtain ⟨hrow, hname, hcolumns⟩ := hthere.of_update h.hasColumn_id hvalues hrows
        exact ⟨t', h.withTable hname hcolumns, hrow⟩

/-- Reading back fails only for a row that is no record. -/
theorem failsOnly_readBack (h : Serves d t) {id : Int16} (hrow : HasRow t id)
    (deed : Registrar.Deed) :
    FailsOnly (fun f => ∃ g : Fault, g.IsOfRow ∧ f = .register g)
      (Registrar.readBack repository deed id d).answer := by
  unfold Registrar.readBack
  rw [Outcome.answer_andThen]
  refine FailsOnly.bind ?_ fun found hfound => ?_
  · exact (failsOnly_find h.table_eq h.columns id).mapError fun g hg => ⟨g, hg, rfl⟩
  · cases found with
    | none => exact absurd (Outcome.answer_of_mapError hfound) (h.find_ne_none hrow)
    | some c => exact .ok c

end Serves

/-! ## The registrar -/

section Registrar

variable {d : Database} {t : Table} (h : Serves d t)

include h

/-- What is registered is found. -/
theorem failsOnly_register (i : Input) :
    FailsOnly (fun f => ∀ deed, f ≠ .lost deed) (Registrar.register repository i d).answer := by
  unfold Registrar.register
  cases i.toCompany with
  | error vs => exact .error nofun
  | ok c =>
    dsimp only
    rw [Outcome.answer_andThen]
    refine FailsOnly.bind ?_ fun id hid => ?_
    · have hany : FailsOnly (fun _ => True) (create c d).answer := fun _ _ => trivial
      exact hany.mapError fun g _ => nofun
    · obtain ⟨t', hserves, hrow⟩ := h.exists_of_create (Outcome.answer_of_mapError hid)
      refine (hserves.failsOnly_readBack hrow .registered).mono ?_
      rintro _ ⟨g, -, rfl⟩
      nofun

omit h in
theorem failsOnly_update_of_id {c : Company} {id : Int16} (hid : c.companyId = some id) :
    FailsOnly (· ≠ .idMissing) (update c d).answer := by
  rw [update, hid]
  dsimp only
  cases c.validate with
  | error v => exact .error (by rintro ⟨⟩)
  | ok =>
    cases d.update tableName Field.companyId.column id.toInt c.plainCells with
    | error f => exact .error (by rintro ⟨⟩)
    | ok r =>
      obtain ⟨count, e⟩ := r
      cases count with
      | zero => exact .error (by rintro ⟨⟩)
      | succ n => exact .ok ()

/-- What is changed is found, and had an id. -/
theorem failsOnly_registrarUpdate {c : Company} {id : Int16} (hid : c.companyId = some id) :
    FailsOnly (fun f => (∀ deed, f ≠ .lost deed) ∧ f ≠ .register .idMissing)
      (Registrar.update repository c d).answer := by
  unfold Registrar.update
  rw [Outcome.answer_andThen]
  refine FailsOnly.bind ?_ fun _ hupdate => ?_
  · refine (failsOnly_update_of_id hid).mapError fun g hg => ⟨nofun, ?_⟩
    rintro ⟨⟩
    exact hg rfl
  · obtain ⟨t', hserves, hrow⟩ := h.exists_of_update hid (Outcome.answer_of_mapError hupdate)
    rw [hid]
    refine (hserves.failsOnly_readBack hrow .updated).mono ?_
    rintro _ ⟨g, hg, rfl⟩
    refine ⟨nofun, ?_⟩
    rintro ⟨⟩
    cases hg

end Registrar

/-- A record without an id is refused before anything is written. -/
theorem update_of_noId {c : Company} (hid : c.companyId = none) (d : Database) :
    Registrar.update repository c d = .ofAnswer d (.error (.register .idMissing)) := by
  have hupdate : repository.update c d = .ofAnswer d (.error .idMissing) := by
    show update c d = _
    rw [update, hid]
  rw [Registrar.update, hupdate]
  rfl

/-- On every database that is ready, whatever its table holds, what the registrar has written is
found again; and a record is refused for having no id only before anything is written. -/
theorem written_found {d : Database} (hready : ready d = .ok ()) :
    (∀ i deed, (Registrar.register repository i d).answer ≠ .error (.lost deed)) ∧
      (∀ c deed, (Registrar.update repository c d).answer ≠ .error (.lost deed)) ∧
      ∀ c, (Registrar.update repository c d).answer = .error (.register .idMissing) →
        Registrar.update repository c d = ⟨.error (.register .idMissing), d, []⟩ := by
  obtain ⟨t, h⟩ := exists_serves hready
  refine ⟨?_, ?_, ?_⟩
  · intro i deed hanswer
    exact failsOnly_register h i _ hanswer deed rfl
  · intro c deed hanswer
    cases hid : c.companyId with
    | none =>
      rw [update_of_noId hid] at hanswer
      cases hanswer
    | some id => exact (failsOnly_registrarUpdate h hid _ hanswer).1 deed rfl
  · intro c hanswer
    cases hid : c.companyId with
    | none => exact update_of_noId hid d
    | some id => exact absurd rfl (failsOnly_registrarUpdate h hid _ hanswer).2

/-- A database whose rows have numbers of their own: no column is a key, none converts or checks
anything, and two rows have one id. -/
def bareDatabase : Database where
  version := 2
  table? := some {
    name := tableName
    columns := Field.all.map fun f => ⟨f.column, .blob, .nullable, none, []⟩
    indexes := []
    rows := (Rows.empty.put 1 [(Field.companyId.column, .int 7)]).put 2
      [(Field.companyId.column, .int 7)] }

/-- A record with the id 7 is added there as the row of number 3, and records are changed that have
this id, whatever their numbers. -/
theorem written_found_bare :
    ready bareDatabase = .ok () ∧
      (∀ deed, (Registrar.register repository
        { companyId := some 7, enterUserId := some 7, enterDate := some "2024-02-29" }
        bareDatabase).answer ≠ .error (.lost deed)) ∧
      ∀ deed, (Registrar.update repository { looseCompany 8 with companyId := some 7 }
        bareDatabase).answer ≠ .error (.lost deed) := by
  have hready : ready bareDatabase = .ok () := rfl
  obtain ⟨hregister, hupdate, -⟩ := written_found hready
  exact ⟨hready, hregister _, hupdate _⟩

end Register

end CompanyRegister
