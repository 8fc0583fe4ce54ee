import CompanyRegister.Proofs.Register.Reading

/-!
# What operations fail with

Whether an operation of the repository fails depends on what a table holds; what it can fail with
depends on its columns alone. If the table has those of a record, no operation fails for want of a
table or a column (`Fault.IsAbsence`): writing fails for what the row would be (`IsRefusal`), and
reading for what a row is (`Fault.IsOfRow`).
-/

namespace CompanyRegister

open Calendar Store

namespace Register

/-! ## Kinds of faults -/

/-- A fault for want of a table or a column. -/
inductive Fault.IsAbsence : Fault → Prop
  | noSuchTable (table : String) : IsAbsence (.store (.noSuchTable table))
  | noSuchColumn (column : String) : IsAbsence (.store (.noSuchColumn column))
  | tableMissing (table : String) : IsAbsence (.tableMissing table)
  | columnMissing (table column : String) : IsAbsence (.columnMissing table column)

/-- A fault of a row that is read: it is no record. -/
inductive Fault.IsOfRow : Fault → Prop
  | outOfRange (n : Int) (place : Nat) : IsOfRow (.store (.outOfRange n place))
  | wrongKind (kind : Cell.Kind) (place : Nat) (column : String) :
      IsOfRow (.store (.wrongKind kind place column))
  | unreadable (reason : String) : IsOfRow (.unreadable reason)
  | rule (v : Violation) : IsOfRow (.rule v)

theorem Fault.IsOfRow.not_isAbsence {f : Fault} (h : f.IsOfRow) : ¬ f.IsAbsence := by
  cases h <;> nofun

/-- A fault of a row that is written. -/
inductive IsRefusal : Store.Fault → Prop
  | checkFailed (condition : String) : IsRefusal (.checkFailed condition)
  | valueMissing (table column : String) : IsRefusal (.valueMissing table column)
  | keyTaken (table : String) (columns : List String) : IsRefusal (.keyTaken table columns)
  | keyNotWhole : IsRefusal .keyNotWhole

theorem IsRefusal.not_isAbsence {f : Store.Fault} (h : IsRefusal f) :
    ¬ Fault.IsAbsence (.store f) := by
  cases h <;> nofun

end Register

namespace Company

open Register

/-! ## Reading rows -/

section Cells

variable {f : Field} {c : Cell}

theorem failsOnly_wholeOfCell (low high : Int) :
    FailsOnly Fault.IsOfRow (wholeOfCell low high f c) := by
  cases c with
  | int n =>
    rw [wholeOfCell]
    split
    · exact .ok n
    · exact .error (.outOfRange n _)
  | _ => exact .error (.wrongKind _ _ _)

theorem failsOnly_textOfCell : FailsOnly Fault.IsOfRow (textOfCell f c) := by
  cases c with
  | text s => exact .ok s
  | _ => exact .error (.wrongKind _ _ _)

theorem failsOnly_floatOfCell : FailsOnly Fault.IsOfRow (floatOfCell f c) := by
  cases c with
  | real x => exact .ok x
  | int n => exact .ok _
  | _ => exact .error (.wrongKind _ _ _)

theorem failsOnly_optionOfCell {α : Type} {read : Field → Cell → Except Register.Fault α}
    (hread : FailsOnly Fault.IsOfRow (read f c)) :
    FailsOnly Fault.IsOfRow (optionOfCell read f c) := by
  rw [optionOfCell.eq_def]
  split
  · exact .ok none
  · exact hread.map some

theorem failsOnly_instantOfText (s : String) : FailsOnly Fault.IsOfRow (instantOfText s) := by
  rw [instantOfText]
  split
  · next t _ => exact .ok t
  · exact .error (.unreadable _)

end Cells

theorem failsOnly_ofCells (cs : Cells) : FailsOnly Fault.IsOfRow (ofCells cs) := by
  have hint16 : ∀ f c, FailsOnly Fault.IsOfRow (int16OfCell f c) :=
    fun _ _ => (failsOnly_wholeOfCell _ _).map _
  have hint32 : ∀ f c, FailsOnly Fault.IsOfRow (int32OfCell f c) :=
    fun _ _ => (failsOnly_wholeOfCell _ _).map _
  have hmoney : ∀ f c, FailsOnly Fault.IsOfRow (moneyOfCell f c) :=
    fun _ _ => (failsOnly_wholeOfCell _ _).map _
  refine (hint16 _ _).bind fun id _ => ?_
  refine failsOnly_textOfCell.bind fun s _ => ?_
  refine (failsOnly_instantOfText s).bind fun date _ => ?_
  refine (failsOnly_optionOfCell failsOnly_textOfCell).bind fun name _ => ?_
  refine (failsOnly_optionOfCell (hmoney _ _)).bind fun rate _ => ?_
  refine (failsOnly_optionOfCell (hint16 _ _)).bind fun currency _ => ?_
  refine (hint32 _ _).bind fun user _ => ?_
  refine (failsOnly_optionOfCell failsOnly_floatOfCell).bind fun tax _ => ?_
  refine (failsOnly_optionOfCell (hint32 _ _)).bind fun group _ => ?_
  refine FailsOnly.bind ?_ fun _ _ => .ok _
  generalize Company.validate _ = valid
  cases valid with
  | error v => exact .error (.rule v)
  | ok => exact .ok ()

end Company

namespace Register

/-! ## Writing rows -/

section Writing

variable {t : Table} {values : Cells}

theorem failsOnly_require (n : Int) (cells : Cells) (others : Rows Cells) :
    FailsOnly IsRefusal (t.require n cells others) := by
  intro f hf
  rw [Table.require] at hf
  split at hf
  · next g hviolated =>
    cases hf
    rw [Table.violated?] at hviolated
    rcases (Option.orElse_eq_some _ _ _).mp hviolated with hmissing | ⟨-, hviolated⟩
    · obtain ⟨e, -, rfl⟩ := Option.map_eq_some_iff.mp hmissing
      exact .valueMissing _ _
    rcases (Option.orElse_eq_some _ _ _).mp hviolated with hcheck | ⟨-, hviolated⟩
    · obtain ⟨e, -, he⟩ := List.exists_of_findSome?_eq_some hcheck
      obtain ⟨k, -, rfl⟩ := Option.map_eq_some_iff.mp he
      exact .checkFailed _
    rcases (Option.orElse_eq_some _ _ _).mp hviolated with htaken | ⟨-, hrepeated⟩
    · rw [Table.takenKey?] at htaken
      split at htaken
      · obtain ⟨c, -, rfl⟩ := Option.map_eq_some_iff.mp htaken
        exact .keyTaken _ _
      · cases htaken
    · obtain ⟨columns, -, rfl⟩ := Option.map_eq_some_iff.mp hrepeated
      exact .keyTaken _ _
  · cases hf

theorem failsOnly_idOfCell (c : Cell) : FailsOnly IsRefusal (Table.idOfCell c) := by
  rw [Table.idOfCell]
  split
  · next n _ => exact .ok n
  · exact .error .keyNotWhole

theorem failsOnly_insert (hnamed : t.requireNamed values = .ok ()) (now : Instant) :
    FailsOnly IsRefusal (t.insert now values) := by
  rw [Table.insert, hnamed]
  refine FailsOnly.bind (.ok ()) fun _ _ => ?_
  refine FailsOnly.bind ?_ fun id _ => ?_
  · rw [Table.newId]
    split
    · exact .ok _
    · exact .ok _
    · exact failsOnly_idOfCell _
  · exact (failsOnly_require id _ _).bind fun _ _ => .ok _

theorem failsOnly_insertReturning (hnamed : t.requireNamed values = .ok ()) {column : String}
    (hcolumn : t.requireColumns [column] = .ok ()) (now : Instant) :
    FailsOnly IsRefusal (t.insertReturning now values column) := by
  rw [Table.insertReturning, hcolumn]
  exact FailsOnly.bind (.ok ()) fun _ _ => (failsOnly_insert hnamed now).bind fun _ _ => .ok _

theorem failsOnly_changeRow (values : Cells) (t : Table) (id : Int) :
    FailsOnly IsRefusal (Table.changeRow values t id) := by
  rw [Table.changeRow]
  split
  · exact .ok t
  · refine FailsOnly.bind ?_ fun new _ => (failsOnly_require new _ _).bind fun _ _ => .ok _
    rw [Table.changedId]
    split
    · exact .ok _
    · exact failsOnly_idOfCell _

theorem failsOnly_update (hnamed : t.requireNamed values = .ok ()) {column : String}
    (hcolumn : t.requireColumns [column] = .ok ()) (n : Int) :
    FailsOnly IsRefusal (t.update column n values) := by
  rw [Table.update, hnamed, hcolumn]
  refine FailsOnly.bind (.ok ()) fun _ _ => FailsOnly.bind (.ok ()) fun _ _ => ?_
  exact (FailsOnly.foldlM (failsOnly_changeRow values) _ t).bind fun _ _ => .ok _

end Writing

/-! ## Operations -/

section Operations

variable {d : Database} {t : Table} (htable : d.table tableName = .ok t)
  (hcolumns : t.requireColumns Field.columns = .ok ())

include hcolumns in
theorem requireId_of_columns : t.requireColumns [Field.companyId.column] = .ok () :=
  requireColumns_of_mem hcolumns fun _ hn =>
    List.mem_singleton.mp hn ▸ List.mem_map_of_mem (Field.mem_all .companyId)

include htable hcolumns

theorem failsOnly_find (id : Int16) : FailsOnly Fault.IsOfRow (find id d) := by
  rw [find_eq htable hcolumns]
  cases withId id t with
  | nil => exact .ok none
  | cons cs rest => exact (Company.failsOnly_ofCells cs).map some

theorem failsOnly_list (q : Query) : FailsOnly Fault.IsOfRow (list q d) := by
  rw [list_eq htable hcolumns]
  exact .mapM Company.failsOnly_ofCells _

theorem failsOnly_reportList (q : Query) : FailsOnly Fault.IsOfRow (reportList q d).answer := by
  have hlist := failsOnly_list htable hcolumns q
  rw [reportList]
  cases hanswer : list q d with
  | error f => exact .error (hlist f hanswer)
  | ok cs => exact .ok cs

theorem failsOnly_create (c : Company) :
    FailsOnly (fun f => ¬ f.IsAbsence) (create c d).answer := by
  rw [create]
  cases c.validate with
  | error v => exact .error (by rintro ⟨⟩)
  | ok =>
    have hnamed : t.requireNamed c.cells = .ok () := requireNamed_cellsOf hcolumns (by decide)
    have hinsert : FailsOnly IsRefusal
        (d.insertReturning tableName c.cells Field.companyId.column) := by
      rw [Database.insertReturning_of_table htable]
      exact (failsOnly_insertReturning hnamed (requireId_of_columns hcolumns) d.now).map _
    dsimp only
    cases hanswer : d.insertReturning tableName c.cells Field.companyId.column with
    | error f =>
      refine .error ?_
      have hf := hinsert f hanswer
      rw [createFault.eq_def]
      split
      · rintro ⟨⟩
      · rintro ⟨⟩
      · exact hf.not_isAbsence
    | ok r =>
      have hid : FailsOnly Fault.IsOfRow (Company.int16OfCell .companyId r.1) :=
        (Company.failsOnly_wholeOfCell _ _).map _
      dsimp only
      cases hnumber : Company.int16OfCell .companyId r.1 with
      | error f => exact .error (hid f hnumber).not_isAbsence
      | ok id => exact .ok id

theorem failsOnly_replace (c : Company) :
    FailsOnly (fun f => ¬ f.IsAbsence) (update c d).answer := by
  rw [update]
  cases c.companyId with
  | none => exact .error (by rintro ⟨⟩)
  | some id =>
    dsimp only
    cases c.validate with
    | error v => exact .error (by rintro ⟨⟩)
    | ok =>
      have hnamed : t.requireNamed c.plainCells = .ok () :=
        requireNamed_cellsOf hcolumns (by decide)
      have hupdate : FailsOnly IsRefusal
          (d.update tableName Field.companyId.column id.toInt c.plainCells) := by
        rw [Database.update_of_table htable]
        exact (failsOnly_update hnamed (requireId_of_columns hcolumns) id.toInt).map _
      dsimp only
      cases hanswer : d.update tableName Field.companyId.column id.toInt c.plainCells with
      | error f => exact .error (hupdate f hanswer).not_isAbsence
      | ok r =>
        obtain ⟨count, e⟩ := r
        cases count with
        | zero => exact .error (by rintro ⟨⟩)
        | succ n => exact .ok ()

theorem failsOnly_delete (id : Int16) :
    FailsOnly (fun f => ¬ f.IsAbsence) (delete id d).answer := by
  rw [delete, Database.delete_of_table htable, Table.delete, requireId_of_columns hcolumns]
  simp only [bind, Except.bind, pure, Except.pure, Except.map]
  cases (t.holders Field.companyId.column id.toInt).length with
  | zero => exact .error (by rintro ⟨⟩)
  | succ n => exact .ok ()

end Operations

end Register

end CompanyRegister
