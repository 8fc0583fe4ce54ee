import CompanyRegister.Proofs.Register.Faults

/-!
# Readiness

The register works on a database only if it has found it ready: it looks at the version, then for
the table, then for the columns, and refuses the database for the first thing that is amiss
(`Refuses`).

A database in use has become what it is from a new one, through migrations and statements, or past
the register, where its version may be set and columns or the table dropped (`Step`, `Reachable`).
Of all such databases those that are ready are just those of version 2 that have the table with all
columns of records, and no operation on one of them fails for want of a table or a column.
-/

namespace CompanyRegister

open Calendar Store

namespace Store.Table

/-! ## Rows that fit -/

variable {t : Table} {cells : Cells}

theorem names_newCells (t : Table) (now : Instant) (values : Cells) :
    (t.newCells now values).map Prod.fst = t.plainColumns.map Column.name := by
  rw [newCells, List.map_map]
  rfl

theorem names_changedCells (t : Table) (old values : Cells) :
    (t.changedCells old values).map Prod.fst = t.plainColumns.map Column.name := by
  rw [changedCells, List.map_map]
  rfl

theorem rowsFit_put (h : t.RowsFit) (hcells : cells.map Prod.fst = t.plainColumns.map Column.name)
    (id : Int) : RowsFit { t with rows := t.rows.put id cells } := by
  intro e he
  rcases Rows.mem_put he with rfl | he
  · exact hcells
  · exact h e he

theorem rowsFit_erase (h : t.RowsFit) (id : Int) :
    RowsFit { t with rows := t.rows.erase id } := by
  intro e he
  exact h e (Rows.mem_erase he)

end Store.Table

namespace Register

/-! ## Databases in use -/

/-- What can happen to a database: through the register, past it, or with time. -/
inductive Step (d : Database) : Database → Prop
  | clock (now : Instant) : Step d { d with now }
  | version (n : Int) : Step d { d with version := n }
  | migrate : Step d d.migrate.database
  | dropColumn {t t' : Table} {column : String} (htable : d.table? = some t)
      (hdrop : t.dropColumn? column = some t') : Step d (d.withTable t')
  | dropTable : Step d { d with table? := none }
  | statement (s : Statement) : Step d (s.on d).2

inductive Reachable : Database → Prop
  | new (now : Instant) : Reachable { now }
  | step {d e : Database} (h : Reachable d) (hstep : Step d e) : Reachable e

/-- A sound table with other rows that fit. -/
theorem sound_withRows {t : Table} (h : t.Sound) {rows : Rows Cells}
    (hfit : Table.RowsFit { t with rows }) : Table.Sound { t with rows } :=
  ⟨h.name_eq, hfit, h.group_index⟩

section Sound

variable {d e : Database}

theorem sound_insert (h : d.Sound) {values : Cells} {n : Int}
    (hinsert : d.insert tableName values = .ok (n, e)) : e.Sound := by
  obtain ⟨t, t', htable, hrow, rfl⟩ := Database.exists_of_insert hinsert
  obtain ⟨-, rfl⟩ := Table.insert_cases hrow
  have ht := h t (Database.table_eq_ok_iff.mp htable).1
  rintro _ ⟨⟩
  exact sound_withRows ht (Table.rowsFit_put ht.rows_fit (Table.names_newCells t _ _) n)

theorem sound_update (h : d.Sound) {column : String} {n : Int} {values : Cells} {count : Nat}
    (hupdate : d.update tableName column n values = .ok (count, e)) : e.Sound := by
  obtain ⟨t, t', htable, hrow, rfl⟩ := Database.exists_of_update hupdate
  have ht := h t (Database.table_eq_ok_iff.mp htable).1
  have hchange : ∀ u id u', Table.Sound u → Table.changeRow values u id = .ok u' → u'.Sound := by
    intro u id u' hu hchange
    obtain ⟨-, rfl⟩ | ⟨new, old, -, -, -, rfl⟩ := Table.changeRow_cases hchange
    · exact hu
    · exact sound_withRows hu (Table.rowsFit_put (Table.rowsFit_erase hu.rows_fit id)
        (Table.names_changedCells u _ _) new)
  rintro _ ⟨⟩
  exact Table.update_induction hchange ht hrow

theorem sound_delete (h : d.Sound) {column : String} {n : Int} {count : Nat}
    (hdelete : d.delete tableName column n = .ok (count, e)) : e.Sound := by
  obtain ⟨t, t', htable, hrow, rfl⟩ := Database.exists_of_delete hdelete
  have ht := h t (Database.table_eq_ok_iff.mp htable).1
  have herase : ∀ (u : Table) id, u.Sound → Table.Sound { u with rows := u.rows.erase id } :=
    fun u id hu => sound_withRows hu (Table.rowsFit_erase hu.rows_fit id)
  rintro _ ⟨⟩
  exact Table.delete_induction herase ht hrow

theorem persists_sound : Persists Database.Sound where
  insert h hinsert := sound_insert h hinsert
  update h hupdate := sound_update h hupdate
  delete h hdelete := sound_delete h hdelete

theorem sound_migrate (h : d.Sound) : d.migrate.database.Sound := by
  by_cases hup : d.Upgradable
  · rw [(Database.migrate_of_upgradable h hup).2, Database.upgraded]
    split
    · exact h
    · rintro _ ⟨⟩
      cases htable : d.table? with
      | none => exact Table.sound_grouped Table.sound_firstForm
      | some t => exact Table.sound_grouped (h t htable)
  · obtain ⟨f, -, hdatabase⟩ := Database.migrate_of_not_upgradable h hup
    rw [hdatabase]
    exact h

/-- One step keeps a database sound. -/
theorem sound_step (h : d.Sound) (hstep : Step d e) : e.Sound := by
  cases hstep with
  | clock now => exact h
  | version n => exact h
  | migrate => exact sound_migrate h
  | dropColumn htable hdrop =>
    rintro _ ⟨⟩
    exact Table.sound_dropColumn (h _ htable) hdrop
  | dropTable =>
    rintro _ ⟨⟩
  | statement s => exact persists_sound.on h s

/-- So all databases in use are. -/
theorem Reachable.sound (h : Reachable d) : d.Sound := by
  induction h with
  | new now => rintro _ ⟨⟩
  | step _ hstep ih => exact sound_step ih hstep

end Sound

/-! ## What a database is refused for -/

/-- The first thing that is amiss with a database. -/
inductive Refuses (d : Database) : Fault → Prop
  | noVersion (hversion : d.version < 0) : Refuses d (.store (.outOfRange d.version 0))
  | otherVersion {n : Nat} (hversion : d.version = n) (hother : n ≠ 2) :
      Refuses d (.notUpToDate 2 n)
  | noTable (hversion : d.version = 2) (hnone : d.table? = none) :
      Refuses d (.tableMissing "Company_List")
  | noColumn {t : Table} {before after : List String} {column : String} (hversion : d.version = 2)
      (htable : d.table? = some t)
      (hcolumns : Company.entity.storageColumns = before ++ column :: after)
      (hbefore : ∀ c ∈ before, t.hasColumn c = true) (hmissing : t.hasColumn column = false) :
      Refuses d (.columnMissing "Company_List" column)

/-- Whether a database is of the latest version and has the table with all columns. -/
def IsComplete (d : Database) : Prop :=
  d.version = 2 ∧ ∃ t, d.table? = some t ∧
    ∀ column ∈ Company.entity.storageColumns, t.hasColumn column = true

section Look

variable {d : Database}

theorem ready_of_version (h : d.version = 2) :
    ready d = match d.table tableName with
      | .error _ => .error (.tableMissing tableName)
      | .ok t =>
        match Company.entity.storageColumns.find? fun c => !t.hasColumn c with
        | some column => .error (.columnMissing tableName column)
        | none => .ok () := by
  rw [ready, Database.versionNumber, h]
  rfl

theorem ready_of_complete (hd : d.Sound) (h : IsComplete d) : ready d = .ok () := by
  obtain ⟨hversion, t, htable, hall⟩ := h
  have hname : t.name = tableName := (hd t htable).name_eq
  have hnone : (Company.entity.storageColumns.find? fun c => !t.hasColumn c) = none := by
    rw [List.find?_eq_none]
    intro c hc
    rw [hall c hc]
    decide
  rw [ready_of_version hversion, Database.table, htable]
  simp only [if_pos hname, hnone]

theorem ready_of_refuses (hd : d.Sound) {f : Fault} (h : Refuses d f) :
    ready d = .error f := by
  cases h with
  | noVersion hversion =>
    rw [ready, Database.versionNumber, if_pos hversion]
    rfl
  | @otherVersion n hversion hother =>
    have hnumber : d.versionNumber = .ok n := by
      rw [Database.versionNumber, hversion, if_neg (Int.not_lt.mpr (Int.natCast_nonneg n)),
        Int.toNat_natCast]
    have hlatest : n ≠ Migration.latest := hother
    rw [ready, hnumber]
    simp only [bind, Except.bind, Except.mapError, if_pos hlatest]
    rfl
  | noTable hversion hnone =>
    rw [ready_of_version hversion, Database.table, hnone]
    rfl
  | @noColumn t before after column hversion htable hcolumns hbefore hmissing =>
    have hname : t.name = tableName := (hd t htable).name_eq
    have hfirst : (Company.entity.storageColumns.find? fun c => !t.hasColumn c) = some column := by
      rw [List.find?_eq_some_iff_append]
      refine ⟨by rw [hmissing]; rfl, before, after, hcolumns, ?_⟩
      intro c hc
      rw [hbefore c hc]
      rfl
    rw [ready_of_version hversion, Database.table, htable]
    simp only [if_pos hname, hfirst]
    rfl

/-- A database is complete, or something is amiss. -/
theorem complete_or_refuses (d : Database) : IsComplete d ∨ ∃ f, Refuses d f := by
  by_cases hneg : d.version < 0
  · exact .inr ⟨_, .noVersion hneg⟩
  by_cases hversion : d.version = 2
  · cases htable : d.table? with
    | none => exact .inr ⟨_, .noTable hversion htable⟩
    | some t =>
      cases hfirst : Company.entity.storageColumns.find? fun c => !t.hasColumn c with
      | none =>
        refine .inl ⟨hversion, t, htable, ?_⟩
        intro column hcolumn
        simpa using List.find?_eq_none.mp hfirst column hcolumn
      | some column =>
        obtain ⟨hmissing, before, after, hcolumns, hbefore⟩ :=
          List.find?_eq_some_iff_append.mp hfirst
        refine .inr ⟨_, .noColumn hversion htable hcolumns ?_ (by simpa using hmissing)⟩
        intro c hc
        simpa using hbefore c hc
  · refine .inr ⟨_, .otherVersion (n := d.version.toNat) ?_ ?_⟩
    · omega
    · omega

theorem ready_iff (hd : d.Sound) : ready d = .ok () ↔ IsComplete d := by
  constructor
  · intro h
    obtain hcomplete | ⟨f, hf⟩ := complete_or_refuses d
    · exact hcomplete
    · rw [ready_of_refuses hd hf] at h
      cases h
  · exact ready_of_complete hd

theorem refused_iff (hd : d.Sound) {f : Fault} : ready d = .error f ↔ Refuses d f := by
  constructor
  · intro h
    obtain hcomplete | ⟨g, hg⟩ := complete_or_refuses d
    · rw [ready_of_complete hd hcomplete] at h
      cases h
    · rw [ready_of_refuses hd hg] at h
      cases h
      exact hg
  · exact ready_of_refuses hd

end Look

/-! ## Ready databases -/

/-- A database in use is ready just if it is of version 2 and has the table with all columns of
records; else it is refused for the first thing that is amiss. No operation on a database that is
ready fails for want of a table or a column. -/
theorem ready_exact {d : Database} (h : Reachable d) :
    (ready d = .ok () ↔ d.version = 2 ∧ ∃ t, d.table? = some t ∧
      ∀ column ∈ Company.entity.storageColumns, t.hasColumn column = true) ∧
    (∀ f, ready d = .error f ↔ Refuses d f) ∧
    (ready d = .ok () → ∀ f : Fault, f.IsAbsence →
      (∀ c, (repository.create c d).answer ≠ .error f) ∧
      (∀ c, (repository.update c d).answer ≠ .error f) ∧
      (∀ id, (repository.find id d).answer ≠ .error f) ∧
      (∀ q, (repository.list q d).answer ≠ .error f) ∧
      ∀ id, (repository.delete id d).answer ≠ .error f) := by
  refine ⟨ready_iff h.sound, fun f => refused_iff h.sound, ?_⟩
  intro hready f hf
  obtain ⟨t, htable, hcolumns⟩ := exists_table_of_ready hready
  refine ⟨?_, ?_, ?_, ?_, ?_⟩
  · intro c hanswer
    exact failsOnly_create htable hcolumns c f hanswer hf
  · intro c hanswer
    exact failsOnly_replace htable hcolumns c f hanswer hf
  · intro id hanswer
    exact (failsOnly_find htable hcolumns id f hanswer).not_isAbsence hf
  · intro q hanswer
    exact (failsOnly_reportList htable hcolumns q f hanswer).not_isAbsence hf
  · intro id hanswer
    exact failsOnly_delete htable hcolumns id f hanswer hf

/-- A new database that has been brought up to date. -/
def upToDate : Database := ({} : Database).migrate.database

/-- The same without the column of tax rates. -/
def withoutTaxRate : Database :=
  upToDate.withTable (((table .empty).dropColumn? "TaxRate").getD (table .empty))

theorem ready_upToDate_not_withoutTaxRate :
    Reachable upToDate ∧ ready upToDate = .ok () ∧ Reachable withoutTaxRate ∧
      ready withoutTaxRate = .error (.columnMissing "Company_List" "TaxRate") := by
  have hnew : Reachable upToDate := .step (.new .epoch) .migrate
  have htable : upToDate.table? = some (table .empty) := by
    rw [upToDate, migrate_new, Ledger.database, Ledger.rows_empty]
  have hversion : upToDate.version = 2 := by
    rw [upToDate, migrate_new]
    rfl
  have hdrop : (table .empty).dropColumn? "TaxRate" =
      some (((table .empty).dropColumn? "TaxRate").getD (table .empty)) := rfl
  have hnarrowed : Reachable withoutTaxRate := .step hnew (.dropColumn htable hdrop)
  refine ⟨hnew, (ready_exact hnew).1.mpr ⟨hversion, _, htable, by decide⟩, hnarrowed, ?_⟩
  refine ((ready_exact hnarrowed).2.1 _).mpr ?_
  have hcolumns : Company.entity.storageColumns =
      ["CompanyId", "CompanyName", "BaseRate", "DefaultCurrencyId", "EnterUserId", "EnterDate"] ++
        "TaxRate" :: ["CompanyGroupId"] := by decide
  exact .noColumn hversion rfl hcolumns (by decide) (by decide)

end Register

end CompanyRegister
