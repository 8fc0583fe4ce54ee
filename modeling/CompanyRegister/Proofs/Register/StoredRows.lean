import CompanyRegister.Proofs.Register.SameStore
import CompanyRegister.Proofs.Store.Constraints

/-!
# What every stored row fulfils

Rows come into the table of companies by requests to the register and by statements past it, with
cells of any kind. What outlasts the adding, changing and taking out of rows outlasts all of these
(`Persists`). So it is with the constraints of the table (`Intact`): whatever was asked of a
database, all rows fulfil them. A reader then sees distinct small numbers as ids, a user and a date
in every row, short names and small currencies.
-/

namespace CompanyRegister.Register

open Calendar Store

theorem table_eq_ok {d : Database} {rows : Rows Cells} (h : d.table? = some (table rows)) :
    d.table tableName = .ok (table rows) :=
  Database.table_eq_ok_iff.mpr ⟨h, rfl⟩

/-! ## What writing preserves -/

/-- Whether a property of databases outlasts whatever is written to the table of companies. -/
structure Persists (P : Database → Prop) : Prop where
  insert {d e : Database} {values : Cells} {n : Int} (h : P d)
    (hinsert : d.insert tableName values = .ok (n, e)) : P e
  update {d e : Database} {column : String} {n : Int} {values : Cells} {count : Nat} (h : P d)
    (hupdate : d.update tableName column n values = .ok (count, e)) : P e
  delete {d e : Database} {column : String} {n : Int} {count : Nat} (h : P d)
    (hdelete : d.delete tableName column n = .ok (count, e)) : P e

namespace Persists

variable {P : Database → Prop} (hP : Persists P) {d : Database} {α β ε : Type}

include hP

theorem create (h : P d) (c : Company) : P (Register.create c d).database := by
  unfold Register.create
  cases c.validate with
  | error v => exact h
  | ok =>
    dsimp only
    cases hinsert : d.insertReturning tableName c.cells Field.companyId.column with
    | error f => exact h
    | ok r =>
      obtain ⟨cell, e⟩ := r
      obtain ⟨n, hadded⟩ := Database.insert_of_insertReturning hinsert
      have hnew := hP.insert h hadded
      dsimp only
      cases Company.int16OfCell .companyId cell with
      | error f => exact hnew
      | ok id => exact hnew

theorem replace (h : P d) (c : Company) : P (Register.update c d).database := by
  unfold Register.update
  cases c.companyId with
  | none => exact h
  | some id =>
    dsimp only
    cases c.validate with
    | error v => exact h
    | ok =>
      dsimp only
      cases hupdate : d.update tableName Field.companyId.column id.toInt c.plainCells with
      | error f => exact h
      | ok r =>
        obtain ⟨count, e⟩ := r
        have hnew := hP.update h hupdate
        cases count with
        | zero => exact hnew
        | succ n => exact hnew

theorem remove (h : P d) (id : Int16) : P (Register.delete id d).database := by
  unfold Register.delete
  cases hdelete : d.delete tableName Field.companyId.column id.toInt with
  | error f => exact h
  | ok r =>
    obtain ⟨count, e⟩ := r
    have hnew := hP.delete h hdelete
    cases count with
    | zero => exact hnew
    | succ n => exact hnew

omit hP in
theorem reportList (h : P d) (q : Query) : P (Register.reportList q d).database := by
  unfold Register.reportList
  cases Register.list q d with
  | error f => exact h
  | ok cs => exact h

omit hP in
theorem andThen {o : Outcome ε α} (h : P o.database) {next : α → Database → Outcome ε β}
    (hnext : ∀ a e, P e → P (next a e).database) : P (o.andThen next).database := by
  unfold Outcome.andThen
  cases o.answer with
  | error f => exact h
  | ok a => exact hnext a o.database h

omit hP in
theorem readBack (h : P d) (deed : Registrar.Deed) (id : Int16) :
    P (Registrar.readBack repository deed id d).database := by
  unfold Registrar.readBack
  apply andThen
  · exact h
  · intro found e he
    exact he

theorem onDatabase (h : P d) (r : Request) : P (r.onDatabase d).2 := by
  cases r with
  | create c => exact hP.create h c
  | update c => exact hP.replace h c
  | find id => exact h
  | list q => exact reportList h q
  | delete id => exact hP.remove h id
  | register i =>
    show P (Registrar.register repository i d).database
    unfold Registrar.register
    cases i.toCompany with
    | error vs => exact h
    | ok c =>
      apply andThen
      · exact hP.create h c
      · intro id e he
        exact readBack he .registered id
  | replace c =>
    show P (Registrar.update repository c d).database
    apply andThen
    · exact hP.replace h c
    · intro _ e he
      cases c.companyId with
      | none => exact he
      | some id => exact readBack he .updated id
  | get id => exact h
  | browse q => exact reportList h q
  | remove id => exact hP.remove h id

/-- So it outlasts every statement. -/
theorem on (h : P d) (s : Statement) : P (s.on d).2 := by
  cases s with
  | ready => exact h
  | request r => exact hP.onDatabase h r
  | insert values =>
    show P (Answer.ofStatement Answer.added d (d.insert tableName values)).2
    cases hinsert : d.insert tableName values with
    | error f => exact h
    | ok r => exact hP.insert h hinsert
  | update column n values =>
    show P (Answer.ofStatement Answer.changed d (d.update tableName column n values)).2
    cases hupdate : d.update tableName column n values with
    | error f => exact h
    | ok r => exact hP.update h hupdate

end Persists

/-! ## Rows that fulfil the constraints -/

/-- Whether a database holds the table of companies, and all its rows fulfil the constraints. -/
def Intact (d : Database) : Prop :=
  ∃ rows, d.table? = some (table rows) ∧ (table rows).Conforms

namespace Intact

variable {d e : Database}

theorem exists_table (h : Intact d) :
    ∃ rows, d.table tableName = .ok (table rows) ∧ (table rows).Conforms := by
  obtain ⟨rows, htable, hrows⟩ := h
  exact ⟨rows, table_eq_ok htable, hrows⟩

theorem insert (h : Intact d) {values : Cells} {n : Int}
    (hinsert : d.insert tableName values = .ok (n, e)) : Intact e := by
  obtain ⟨rows, htable, hrows⟩ := h.exists_table
  obtain ⟨t, t', ht, hinsert, rfl⟩ := Database.exists_of_insert hinsert
  cases htable.symm.trans ht
  have hnew := Table.conforms_insert hrows hinsert
  obtain ⟨-, rfl⟩ := Table.insert_cases hinsert
  exact ⟨_, rfl, hnew⟩

theorem update (h : Intact d) {column : String} {n : Int} {values : Cells} {count : Nat}
    (hupdate : d.update tableName column n values = .ok (count, e)) : Intact e := by
  obtain ⟨rows, htable, hrows⟩ := h.exists_table
  obtain ⟨t, t', ht, hupdate, rfl⟩ := Database.exists_of_update hupdate
  cases htable.symm.trans ht
  have hchange : ∀ u id u', (∃ rows, u = table rows ∧ u.Conforms) →
      Table.changeRow values u id = .ok u' → ∃ rows, u' = table rows ∧ u'.Conforms := by
    rintro _ id u' ⟨rows, rfl, hrows⟩ hchange
    have hnew := Table.conforms_changeRow hrows hchange
    obtain ⟨-, rfl⟩ | ⟨new, old, -, -, -, rfl⟩ := Table.changeRow_cases hchange
    · exact ⟨rows, rfl, hnew⟩
    · exact ⟨_, rfl, hnew⟩
  obtain ⟨new, rfl, hnew⟩ := Table.update_induction hchange ⟨rows, rfl, hrows⟩ hupdate
  exact ⟨new, rfl, hnew⟩

theorem delete (h : Intact d) {column : String} {n : Int} {count : Nat}
    (hdelete : d.delete tableName column n = .ok (count, e)) : Intact e := by
  obtain ⟨rows, htable, hrows⟩ := h.exists_table
  obtain ⟨t, t', ht, hdelete, rfl⟩ := Database.exists_of_delete hdelete
  cases htable.symm.trans ht
  have herase : ∀ (u : Table) id, (∃ rows, u = table rows ∧ u.Conforms) →
      ∃ rows, { u with rows := u.rows.erase id } = table rows ∧
        Table.Conforms { u with rows := u.rows.erase id } := by
    rintro _ id ⟨rows, rfl, hrows⟩
    exact ⟨_, rfl, Table.conforms_erase hrows id⟩
  obtain ⟨new, rfl, hnew⟩ := Table.delete_induction herase ⟨rows, rfl, hrows⟩ hdelete
  exact ⟨new, rfl, hnew⟩

theorem persists : Persists Intact where
  insert h hinsert := h.insert hinsert
  update h hupdate := h.update hupdate
  delete h hdelete := h.delete hdelete

end Intact

/-! ## Any number of statements -/

/-- The database that statements leave which are made one after the other, each at its time. -/
def after : List (Instant × Statement) → Database → Database
  | [], d => d
  | (now, s) :: rest, d => after rest (s.on { d with now }).2

theorem intact_after {d : Database} (h : Intact d) (xs : List (Instant × Statement)) :
    Intact (after xs d) := by
  induction xs generalizing d with
  | nil => exact h
  | cons x xs ih =>
    -- The table is the same at any time, and so are its rows.
    have hclock : Intact { d with now := x.1 } := h
    exact ih (Intact.persists.on hclock x.2)

theorem intact_new (now : Instant) : Intact ({ now } : Database).migrate.database := by
  rw [migrate_new]
  refine ⟨Ledger.empty.rows, rfl, ?_⟩
  intro e he
  rw [Ledger.rows_empty] at he
  cases he

/-! ## What readers see -/

/-- What holds of the cells of every row that is read. -/
structure Storable (cs : Cells) : Prop where
  user_given : cs.cell Field.enterUserId.column ≠ .null
  date_given : cs.cell Field.enterDate.column ≠ .null
  name_short : cs.cell Field.companyName.column = .null ∨
    ∃ k, (cs.cell Field.companyName.column).length? = some k ∧ k ≤ 60
  currency_small : cs.cell Field.defaultCurrencyId.column = .null ∨
    ∃ v, (cs.cell Field.defaultCurrencyId.column).number? = some v ∧ -32768 ≤ v ∧ v ≤ 32767

/-- A row that breaks no constraint has a small number, and its cells can be stored. -/
theorem storable_of_conforms {rows : Rows Cells} {n : Int} {cells : Cells}
    (h : (table rows).violated? n cells .empty = none) :
    (-32768 ≤ n ∧ n ≤ 32767) ∧ Storable ((table rows).fullCells n cells) := by
  have hfield : ∀ f : Field,
      (f.storedAs.presence = .required → ((table rows).fullCells n cells).cell f.column ≠ .null) ∧
        ∀ k ∈ f.storedAs.checks, k.admits (((table rows).fullCells n cells).cell f.column) := by
    intro f
    rw [cell_fullCells]
    apply Table.violated?_eq_none_iff.mp h
      (f.storedAs, if f = .companyId then .int n else cells.cell f.column)
    rw [wholeRow_eq]
    exact List.mem_map_of_mem (Field.mem_all f)
  have hid : Check.smallRange.admits (.int n) = true := by
    have hkey := (hfield .companyId).2 .smallRange (List.mem_singleton.mpr rfl)
    rwa [cell_fullCells, if_pos rfl] at hkey
  have hcurrency := (hfield .defaultCurrencyId).2 .smallRange (List.mem_singleton.mpr rfl)
  refine ⟨admits_smallRange.mp hid, ?_⟩
  exact {
    user_given := (hfield .enterUserId).1 rfl
    date_given := (hfield .enterDate).1 rfl
    name_short := Check.admits_maxLength_iff.mp
      ((hfield .companyName).2 (.maxLength 60) (List.mem_singleton.mpr rfl))
    currency_small := by simpa using Check.admits_between_iff.mp hcurrency }

/-- Whatever was asked of a new database, the rows that are read have distinct small numbers as ids,
and cells that can be stored. -/
theorem rows_storable (now : Instant) (xs : List (Instant × Statement)) :
    ∃ rows, dump (after xs ({ now } : Database).migrate.database) = some (Field.columns, rows) ∧
      (∃ ids : List Int,
        rows.entries.map (fun e => e.2.cell Field.companyId.column) = ids.map Cell.int ∧
          ids.Nodup ∧ ∀ n ∈ ids, -32768 ≤ n ∧ n ≤ 32767) ∧
      ∀ e ∈ rows.entries, Storable e.2 := by
  obtain ⟨rows, htable, hrows⟩ := intact_after (intact_new now) xs
  have hcolumns : (table rows).columnNames = Field.columns := by
    show (table .empty).columnNames = _
    decide
  refine ⟨(table rows).fullRows, ?_, ⟨rows.entries.map Prod.fst, ?_, ?_, ?_⟩, ?_⟩
  · rw [dump, htable, Option.map_some, hcolumns]
  · rw [Table.fullRows, Rows.map, List.map_map, List.map_map]
    apply List.map_congr_left
    intro e _
    show Cells.cell ((table rows).fullCells e.1 e.2) Field.companyId.column = .int e.1
    rw [cell_fullCells, if_pos rfl]
  · rw [List.Nodup, List.pairwise_map]
    exact rows.ascending.imp Int.ne_of_lt
  · intro n hn
    obtain ⟨e, he, rfl⟩ := List.mem_map.mp hn
    exact (storable_of_conforms (hrows e he)).1
  · intro e he
    obtain ⟨r, hr, rfl⟩ := List.mem_map.mp he
    exact (storable_of_conforms (hrows r hr)).2

end CompanyRegister.Register
