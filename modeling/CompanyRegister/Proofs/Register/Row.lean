import CompanyRegister.Proofs.Calendar.Stored
import CompanyRegister.Proofs.Company.Validation
import CompanyRegister.Proofs.Decimal.Zero
import CompanyRegister.Proofs.Register.Ledger
import CompanyRegister.Proofs.Store.Upgrade

/-!
# Records in rows

Each field of a record has a column of the table of companies (`Field.storedAs`). What the table
makes of the cells of a valid record `c` under an id is the row of `c.kept id`: the columns convert
nothing but the tax rate, no check fails but that on the id, and reading the row gives the record
back, unless its date cannot be read.

    c.cells ─newCells─▶ (c.kept id).plainCells ─fullCells─▶ (c.kept id).cells ─ofCells─▶ record

Everything is proved field by field, and for the row from its fields.
-/

namespace CompanyRegister

open Calendar Store

namespace Register

/-- The table of companies with the given rows. -/
def table (rows : Rows Cells) : Table :=
  { (Table.ofDefinition Migration.firstForm).grouped with rows }

end Register

namespace Field

/-! ## Columns of fields -/

/-- The column of the table that keeps a field. -/
def storedAs (f : Field) : Column :=
  (Register.table .empty).columns.get ⟨f.place, by cases f <;> decide⟩

theorem column_injective {f g : Field} (h : f.column = g.column) : f = g := by
  cases f <;> cases g <;> first | rfl | exact absurd h (by decide)

theorem name_storedAs (f : Field) : f.storedAs.name = f.column := by
  cases f <;> rfl

/-- The fields other than the id. -/
def plain : List Field := all.erase companyId

theorem mem_plain {f : Field} : f ∈ plain ↔ f ≠ companyId := by
  cases f <;> decide

/-- The value that stands at the column of a field. -/
theorem lookup_column {α : Type} {fields : List Field} (g : Field → α) {f : Field}
    (h : f ∈ fields) : (fields.map fun f => (f.column, g f)).lookup f.column = some (g f) := by
  induction fields with
  | nil => cases h
  | cons e fields ih =>
    rw [List.map_cons, List.lookup_cons]
    by_cases heq : f = e
    · subst heq
      rw [beq_self_eq_true]
    · rw [beq_eq_false_iff_ne.mpr fun hc => heq (column_injective hc)]
      exact ih ((List.mem_cons.mp h).resolve_left heq)

theorem lookup_column_of_not_mem {α : Type} {fields : List Field} (g : Field → α) {f : Field}
    (h : f ∉ fields) : (fields.map fun f => (f.column, g f)).lookup f.column = none := by
  rw [List.lookup_eq_none_iff]
  intro e he
  obtain ⟨f', hf', rfl⟩ := List.mem_map.mp he
  exact bne_iff_ne.mpr fun hc => h (column_injective hc ▸ hf')

end Field

namespace Register

variable {rows : Rows Cells}

theorem columns_table : (table rows).columns = Field.all.map Field.storedAs := by
  show (table .empty).columns = _
  decide

theorem plainColumns_table : (table rows).plainColumns = Field.plain.map Field.storedAs := by
  show (table .empty).plainColumns = _
  decide

theorem isKey_table (f : Field) : (table rows).isKey f.storedAs = (f == .companyId) := by
  show (table .empty).isKey f.storedAs = _
  cases f <;> decide

theorem hasColumn_table (f : Field) : (table rows).hasColumn f.column = true := by
  show (table .empty).hasColumn f.column = true
  cases f <;> decide

theorem requireColumns_table (fields : List Field) :
    (table rows).requireColumns (fields.map Field.column) = .ok () :=
  Table.requireColumns_eq_ok_iff.mpr (List.forall_mem_map.mpr fun f _ => hasColumn_table f)

end Register

namespace Company

/-! ## What columns make of records -/

theorem validate_eq_ok_iff {c : Company} : c.validate = .ok () ↔
    (∀ s, c.companyName = some s → s.length ≤ maxNameLength) ∧
      (∀ x, c.taxRate = some x → x.isFinite = true) := by
  have hname : nameViolation? c.companyName = none ↔
      ∀ s, c.companyName = some s → s.length ≤ maxNameLength := by
    cases c.companyName with
    | none => simp [nameViolation?]
    | some s => simp [nameViolation?]
  have hrate : taxRateViolation? c.taxRate = none ↔
      ∀ x, c.taxRate = some x → x.isFinite = true := by
    cases c.taxRate with
    | none => simp [taxRateViolation?]
    | some x => simp [taxRateViolation?]
  rw [validate_eq_ok_iff_violation?, violation?, ← hname, ← hrate]
  cases nameViolation? c.companyName <;> simp

/-- Cutting down a time of entry leaves its year. -/
theorem hasFourDigitYear_kept {c : Company} {id : Int16} :
    (c.kept id).enterDate.HasFourDigitYear ↔ c.enterDate.HasFourDigitYear := by
  rw [kept]
  exact Instant.hasFourDigitYear_stored

theorem validate_kept {c : Company} (h : c.validate = .ok ()) (id : Int16) :
    (c.kept id).validate = .ok () := by
  obtain ⟨hname, hrate⟩ := validate_eq_ok_iff.mp h
  refine validate_eq_ok_iff.mpr ⟨hname, fun x hx => ?_⟩
  obtain ⟨y, hy, rfl⟩ := Option.map_eq_some_iff.mp hx
  exact isFinite_plainZero (hrate y hy)

/-- The cell of a finite number is that number. -/
theorem ofFloat_eq_real {x : Float} (h : x.isFinite = true) : Cell.ofFloat x = .real x := by
  rw [Cell.ofFloat, Decimal.isNaN_eq_false h]
  rfl

/-- A column holds what the kept record says. -/
theorem convert_cell {c : Company} (h : c.validate = .ok ()) (id : Int16) {f : Field}
    (hf : f ≠ .companyId) : f.storedAs.affinity.convert (c.cell f) = (c.kept id).cell f := by
  cases f with
  | companyId => exact absurd rfl hf
  | companyName => cases hname : c.companyName <;> simp [cell, kept, hname] <;> rfl
  | baseRate => cases hrate : c.baseRate <;> simp [cell, kept, hrate] <;> rfl
  | defaultCurrencyId => cases hcur : c.defaultCurrencyId <;> simp [cell, kept, hcur] <;> rfl
  | enterUserId => rfl
  | enterDate =>
    simp only [cell, kept, Instant.millisText_stored]
    rfl
  | taxRate =>
    cases hrate : c.taxRate with
    | none => simp [cell, kept, hrate]; rfl
    | some x =>
      have hx := (validate_eq_ok_iff.mp h).2 x hrate
      simp only [cell, kept, hrate, Option.map_some, Cell.ofOption, ofFloat_eq_real hx,
        ofFloat_eq_real (isFinite_plainZero hx)]
      rfl
  | companyGroupId => cases hgroup : c.companyGroupId <;> simp [cell, kept, hgroup] <;> rfl

end Company

namespace Register

variable {rows : Rows Cells}

theorem cells_eq (c : Company) : c.cells = Field.all.map fun f => (f.column, c.cell f) := rfl

theorem plainCells_eq (c : Company) :
    c.plainCells = Field.plain.map fun f => (f.column, c.cell f) := rfl

theorem lookup_cells (c : Company) (f : Field) : c.cells.lookup f.column = some (c.cell f) :=
  Field.lookup_column c.cell (Field.mem_all f)

theorem lookup_plainCells (c : Company) {f : Field} (hf : f ≠ .companyId) :
    c.plainCells.lookup f.column = some (c.cell f) :=
  Field.lookup_column c.cell (Field.mem_plain.mpr hf)

theorem newCells_table {c : Company} (h : c.validate = .ok ()) (now : Instant) (id : Int16) :
    (table rows).newCells now c.cells = (c.kept id).plainCells := by
  rw [Table.newCells, plainColumns_table, List.map_map, plainCells_eq]
  refine List.map_congr_left fun f hf => ?_
  rw [Function.comp_apply, Field.name_storedAs, lookup_cells, Option.getD_some,
    Company.convert_cell h id (Field.mem_plain.mp hf)]

theorem changedCells_table {c : Company} (h : c.validate = .ok ()) (id : Int16) (old : Cells) :
    (table rows).changedCells old c.plainCells = (c.kept id).plainCells := by
  rw [Table.changedCells, plainColumns_table, List.map_map, plainCells_eq (c.kept id)]
  refine List.map_congr_left fun f hf => ?_
  have hplain := Field.mem_plain.mp hf
  rw [Function.comp_apply, Field.name_storedAs, lookup_plainCells c hplain]
  exact congrArg (Prod.mk f.column) (Company.convert_cell h id hplain)

/-- A reader sees the number of the row in the column of the key. -/
theorem wholeRow_eq (n : Int) (cells : Cells) :
    (table rows).wholeRow n cells = Field.all.map fun f =>
      (f.storedAs, if f = .companyId then .int n else cells.cell f.column) := by
  rw [Table.wholeRow, columns_table, List.map_map]
  apply List.map_congr_left
  intro f _
  rw [Function.comp_apply, isKey_table, Field.name_storedAs]
  by_cases hf : f = .companyId
  · rw [if_pos hf, if_pos (beq_iff_eq.mpr hf)]
  · rw [if_neg hf, if_neg (fun h => hf (beq_iff_eq.mp h))]

theorem cell_fullCells {rows : Rows Cells} (n : Int) (cells : Cells) (f : Field) :
    Cells.cell ((table rows).fullCells n cells) f.column =
      if f = .companyId then .int n else cells.cell f.column := by
  have hcells : (table rows).fullCells n cells = Field.all.map fun f =>
      (f.column, if f = .companyId then .int n else cells.cell f.column) := by
    rw [Table.fullCells, wholeRow_eq, List.map_map]
    apply List.map_congr_left
    intro f _
    exact congrArg (·, _) (Field.name_storedAs f)
  rw [hcells, Cells.cell, Field.lookup_column _ (Field.mem_all f), Option.getD_some]

/-- The rows of the table of companies are numbered by their ids. -/
theorem isNumbered_table : IsNumbered (table rows) where
  id_cell n cells := by rw [cell_fullCells, if_pos rfl]
  id_affinity := by
    show (table .empty).affinityOf _ = _
    decide
  group_affinity := by
    show (table .empty).affinityOf _ = _
    decide

theorem wholeRow_table (n : Int) (c : Company) :
    (table rows).wholeRow n c.plainCells =
      Field.all.map fun f => (f.storedAs, if f = .companyId then .int n else c.cell f) := by
  rw [wholeRow_eq]
  apply List.map_congr_left
  intro f _
  by_cases hf : f = .companyId
  · rw [if_pos hf, if_pos hf]
  · rw [if_neg hf, if_neg hf, Cells.cell, lookup_plainCells c hf]
    rfl

/-- The row of a record that has an id is all its cells. -/
theorem wholeRow_of_id {c : Company} {id : Int16} (h : c.companyId = some id) :
    (table rows).wholeRow id.toInt c.plainCells =
      Field.all.map fun f => (f.storedAs, c.cell f) := by
  rw [wholeRow_table]
  refine List.map_congr_left fun f _ => ?_
  split
  · next hf =>
    subst hf
    rw [Company.cell, h]
    rfl
  · rfl

theorem fullCells_table {c : Company} {id : Int16} (h : c.companyId = some id) :
    (table rows).fullCells id.toInt c.plainCells = c.cells := by
  rw [Table.fullCells, wholeRow_of_id h, List.map_map, cells_eq]
  exact List.map_congr_left fun f _ => congrArg (·, c.cell f) (Field.name_storedAs f)

/-! ## Conditions on rows of records -/

/-- Small whole numbers are in range. -/
theorem admits_smallRange {n : Int} : Check.smallRange.admits (.int n) = true ↔
    -32768 ≤ n ∧ n ≤ 32767 := by
  simp [Check.smallRange, Check.admits]

theorem toInt_mem_smallRange (n : Int16) : -32768 ≤ n.toInt ∧ n.toInt ≤ 32767 :=
  ⟨n.le_toInt, Int.le_of_lt_add_one n.toInt_lt⟩

/-- No check of a column fails on the cell of a valid record. -/
theorem failedCheck?_cell {c : Company} (h : c.validate = .ok ()) (f : Field) :
    f.storedAs.failedCheck? (c.cell f) = none := by
  have hsmall : ∀ n : Option Int16,
      Check.smallRange.admits (.ofOption (fun n => .int n.toInt) n) = true := by
    intro n
    cases n with
    | none => rfl
    | some n => exact admits_smallRange.mpr (toInt_mem_smallRange n)
  have hname : ∀ s, c.companyName = some s → (Check.maxLength 60).admits (.text s) = true := by
    intro s hs
    -- The check counts a name up to its first NUL, so never more than validation does.
    have hlength : s.length ≤ 60 := (Company.validate_eq_ok_iff.mp h).1 s hs
    have hcounted : (Cell.counted s).length ≤ s.toList.length :=
      (List.takeWhile_prefix _).length_le
    rw [String.length_toList] at hcounted
    exact decide_eq_true (Nat.le_trans hcounted hlength)
  have hfind : ∀ k : Check, f.storedAs.checks = [k] → k.admits (c.cell f) = true →
      f.storedAs.failedCheck? (c.cell f) = none := by
    intro k hk hadmits
    rw [Column.failedCheck?, hk, List.find?_cons, hadmits]
    rfl
  cases f with
  | companyId => exact hfind _ rfl (hsmall c.companyId)
  | companyName =>
    refine hfind _ rfl ?_
    rw [Company.cell]
    cases hs : c.companyName with
    | none => rfl
    | some s => exact hname s hs
  | defaultCurrencyId => exact hfind _ rfl (hsmall c.defaultCurrencyId)
  | baseRate => rfl
  | enterUserId => rfl
  | enterDate => rfl
  | taxRate => rfl
  | companyGroupId => rfl

/-- The columns that must have a value have one. -/
theorem missingValue?_table (n : Int) (c : Company) :
    (table rows).missingValue? ((table rows).wholeRow n c.plainCells) = none := by
  have hfield : ∀ f : Field, (f.storedAs.presence == .required &&
      (if f = .companyId then Cell.int n else c.cell f).isNull) = false := by
    intro f
    cases f <;> rfl
  rw [Table.missingValue?, wholeRow_table, Option.map_eq_none_iff, List.find?_eq_none]
  intro e he
  obtain ⟨f, -, rfl⟩ := List.mem_map.mp he
  exact Bool.eq_false_iff.mp (hfield f)

theorem uniqueColumns_table : (table rows).uniqueColumns = [[Field.companyId.column]] := by
  show (table .empty).uniqueColumns = _
  decide

theorem equals_int_iff {n k : Int} : (Cell.int n).equals (.int k) = true ↔ n = k := by
  simp [Cell.equals, Cell.isNull, Cell.kind, Cell.le]
  omega

/-- What is unique is the id, so rows with other numbers are in nobody's way. -/
theorem repeated?_table {others : Rows Cells} {n : Int} (h : others.contains n = false)
    (cells : Cells) : (table rows).repeated? n cells others = none := by
  rw [Table.repeated?, uniqueColumns_table, Option.map_eq_none_iff, List.find?_eq_none]
  intro columns hcolumns
  rw [List.mem_singleton.mp hcolumns, List.any_eq_true]
  rintro ⟨e, he, hsame⟩
  have hequal : (Cell.int n).equals (.int e.1) = true := by
    simpa [Table.sameIn, cell_fullCells] using hsame
  have hget : others.get? e.1 = some e.2 := Rows.mem_entries_iff.mp he
  rw [equals_int_iff.mp hequal, Rows.contains, hget] at h
  cases h

/-- Only the key can be in the way of a valid record. -/
theorem require_table (rows : Rows Cells) {c : Company} (h : c.validate = .ok ()) {id : Int16}
    (hid : c.companyId = some id) (others : Rows Cells) :
    (table rows).require id.toInt c.plainCells others =
      if others.contains id.toInt then .error (.keyTaken tableName [Field.companyId.column])
      else .ok () := by
  have hchecks : Table.failedCheck? ((table rows).wholeRow id.toInt c.plainCells) = none := by
    rw [Table.failedCheck?, wholeRow_of_id hid, List.findSome?_eq_none_iff]
    intro e he
    obtain ⟨f, -, rfl⟩ := List.mem_map.mp he
    exact failedCheck?_cell h f
  rw [Table.require, Table.violated?, missingValue?_table, hchecks, Table.takenKey?]
  cases htaken : others.contains id.toInt with
  | true => rfl
  | false =>
    rw [repeated?_table htaken]
    rfl

/-- A number above all ids is refused. -/
theorem require_table_of_large (rows : Rows Cells) {n : Int} (h : 32767 < n) (c : Company)
    (others : Rows Cells) :
    ∃ text, (table rows).require n c.plainCells others = .error (.checkFailed text) := by
  have hadmits : Check.smallRange.admits (.int n) = false := by
    rw [Bool.eq_false_iff]
    exact fun hn => Int.not_lt.mpr (admits_smallRange.mp hn).2 h
  -- The key is the first column, so its check is the first to fail.
  have hkey : ∃ text,
      Field.companyId.storedAs.failedCheck? (.int n) = some (.checkFailed text) := by
    rw [Column.failedCheck?, show Field.companyId.storedAs.checks = [.smallRange] from rfl,
      List.find?_cons, hadmits]
    exact ⟨_, rfl⟩
  obtain ⟨text, htext⟩ := hkey
  have hchecks : Table.failedCheck? ((table rows).wholeRow n c.plainCells) =
      some (.checkFailed text) := by
    rw [Table.failedCheck?, wholeRow_table, Field.all, List.map_cons, List.findSome?_cons,
      if_pos rfl]
    simp only [htext]
  refine ⟨text, ?_⟩
  rw [Table.require, Table.violated?, missingValue?_table, hchecks]
  rfl

end Register

namespace Company

/-! ## Reading rows of records -/

/-- What reading a row gives if the row is that of `c`: the record, if its date can be read. -/
def asRead (c : Company) : Except Register.Fault Company :=
  (instantOfText (String.ofList c.enterDate.millisText)).map fun _ => c

theorem instantOfText_of_year {t : Instant} (h : t.HasFourDigitYear) :
    instantOfText (String.ofList t.millisText) = .ok t.stored := by
  rw [instantOfText, String.toList_ofList, Instant.parse?_millisText_of_year h]

theorem asRead_of_year {c : Company} (h : c.enterDate.HasFourDigitYear) : c.asRead = .ok c := by
  rw [asRead, instantOfText_of_year h]
  rfl

theorem asRead_of_not_year {c : Company} (h : ¬ c.enterDate.HasFourDigitYear) :
    ∃ reason, c.asRead = .error (.unreadable reason) := by
  have hnone : Instant.parse? c.enterDate.millisText = none :=
    Instant.parse?_textWith_of_signed h _
  rw [asRead, instantOfText, String.toList_ofList, hnone]
  exact ⟨_, rfl⟩

section Cells

variable {f : Field} {c : Cell}

theorem wholeOfCell_eq_ok_iff {low high n : Int} :
    wholeOfCell low high f c = .ok n ↔ c = .int n ∧ low ≤ n ∧ n ≤ high := by
  cases c with
  | int k =>
    rw [wholeOfCell]
    split
    · next h =>
      constructor
      · intro heq
        cases heq
        exact ⟨rfl, h⟩
      · rintro ⟨heq, -⟩
        cases heq
        rfl
    · next h =>
      constructor
      · intro heq
        cases heq
      · rintro ⟨heq, hn⟩
        cases heq
        exact absurd hn h
  | _ => simp [wholeOfCell]

/-- A number of a type that holds all whole numbers between two bounds is read from its own cell,
and from no other. -/
theorem mapOfCell_eq_ok_iff {α : Type} {low high : Int} {ofInt : Int → α} {toInt : α → Int}
    (hofInt : ∀ a, ofInt (toInt a) = a) (hbounds : ∀ a, low ≤ toInt a ∧ toInt a ≤ high)
    (htoInt : ∀ n, low ≤ n → n ≤ high → toInt (ofInt n) = n) {a : α} :
    (wholeOfCell low high f c).map ofInt = .ok a ↔ c = .int (toInt a) := by
  constructor
  · intro h
    cases hwhole : wholeOfCell low high f c with
    | error e =>
      rw [hwhole] at h
      cases h
    | ok n =>
      rw [hwhole] at h
      cases h
      obtain ⟨hc, hlow, hhigh⟩ := wholeOfCell_eq_ok_iff.mp hwhole
      rw [htoInt n hlow hhigh]
      exact hc
  · rintro rfl
    rw [wholeOfCell_eq_ok_iff.mpr ⟨rfl, hbounds a⟩]
    exact congrArg Except.ok (hofInt a)

theorem int16OfCell_eq_ok_iff {n : Int16} : int16OfCell f c = .ok n ↔ c = .int n.toInt :=
  mapOfCell_eq_ok_iff Int16.ofInt_toInt (fun n => ⟨n.minValue_le_toInt, n.toInt_le⟩)
    fun _ hlow hhigh => Int16.toInt_ofInt_of_le hlow (Int.lt_of_le_of_lt hhigh (by decide))

theorem int32OfCell_eq_ok_iff {n : Int32} : int32OfCell f c = .ok n ↔ c = .int n.toInt :=
  mapOfCell_eq_ok_iff Int32.ofInt_toInt (fun n => ⟨n.minValue_le_toInt, n.toInt_le⟩)
    fun _ hlow hhigh => Int32.toInt_ofInt_of_le hlow (Int.lt_of_le_of_lt hhigh (by decide))

theorem moneyOfCell_eq_ok_iff {m : Money} : moneyOfCell f c = .ok m ↔ c = .int m.units.toInt := by
  refine @mapOfCell_eq_ok_iff f c Money _ _ _ (fun m => m.units.toInt) ?_ ?_ ?_ m
  · exact fun m => congrArg Money.mk m.units.ofInt_toInt
  · exact fun m => ⟨m.units.minValue_le_toInt, m.units.toInt_le⟩
  · exact fun n hlow hhigh =>
      Int64.toInt_ofInt_of_le hlow (Int.lt_of_le_of_lt hhigh (by decide))

end Cells

/-- A value that may be missing is read again if it is when it is there. -/
theorem optionOfCell_ofOption {α : Type} {read : Field → Cell → Except Register.Fault α} {f : Field}
    {cellOf : α → Cell} {a? : Option α}
    (hread : ∀ a, a? = some a → read f (cellOf a) = .ok a ∧ cellOf a ≠ .null) :
    optionOfCell read f (.ofOption cellOf a?) = .ok a? := by
  cases a? with
  | none => rfl
  | some a =>
    obtain ⟨hok, hnull⟩ := hread a rfl
    rw [Cell.ofOption, optionOfCell.eq_def]
    split
    · next heq => exact absurd heq hnull
    · rw [hok]
      rfl

/-- The row of a record that is kept is read again as that record. -/
theorem ofCells_cells {c : Company} {id : Int16} (hid : c.companyId = some id)
    (hvalid : c.validate = .ok ()) (hstored : c.enterDate.stored = c.enterDate) :
    ofCells c.cells = c.asRead := by
  have hcell : ∀ f : Field, Cells.cell c.cells f.column = c.cell f := by
    intro f
    rw [Cells.cell, Register.lookup_cells]
    rfl
  -- Every field but the date is read again from its cell.
  have hname : optionOfCell textOfCell .companyName (c.cell .companyName) = .ok c.companyName :=
    optionOfCell_ofOption fun s _ => ⟨rfl, by simp⟩
  have hrate : optionOfCell moneyOfCell .baseRate (c.cell .baseRate) = .ok c.baseRate :=
    optionOfCell_ofOption fun m _ => ⟨moneyOfCell_eq_ok_iff.mpr rfl, by simp⟩
  have hcurrency : optionOfCell int16OfCell .defaultCurrencyId (c.cell .defaultCurrencyId) =
      .ok c.defaultCurrencyId :=
    optionOfCell_ofOption fun n _ => ⟨int16OfCell_eq_ok_iff.mpr rfl, by simp⟩
  have htax : optionOfCell floatOfCell .taxRate (c.cell .taxRate) = .ok c.taxRate := by
    refine optionOfCell_ofOption fun x hx => ?_
    rw [ofFloat_eq_real ((validate_eq_ok_iff.mp hvalid).2 x hx)]
    exact ⟨rfl, by simp⟩
  have hgroup : optionOfCell int32OfCell .companyGroupId (c.cell .companyGroupId) =
      .ok c.companyGroupId :=
    optionOfCell_ofOption fun n _ => ⟨int32OfCell_eq_ok_iff.mpr rfl, by simp⟩
  have hkey : int16OfCell .companyId (c.cell .companyId) = .ok id := by
    rw [cell, hid]
    exact int16OfCell_eq_ok_iff.mpr rfl
  have huser : int32OfCell .enterUserId (c.cell .enterUserId) = .ok c.enterUserId :=
    int32OfCell_eq_ok_iff.mpr rfl
  have hdate : textOfCell .enterDate (c.cell .enterDate) =
      .ok (String.ofList c.enterDate.millisText) := rfl
  have hself : { c with companyId := some id } = c := by rw [← hid]
  -- The date is read right after the id, so it alone decides whether there is a record.
  by_cases hyear : c.enterDate.HasFourDigitYear
  · have hinstant := instantOfText_of_year hyear
    rw [hstored] at hinstant
    simp only [ofCells, hcell, hkey, hdate, hinstant, hname, hrate, hcurrency, huser, htax, hgroup,
      bind, Except.bind]
    rw [asRead_of_year hyear, hself, hvalid]
    rfl
  · obtain ⟨reason, hreason⟩ := asRead_of_not_year hyear
    cases hinstant : instantOfText (String.ofList c.enterDate.millisText) with
    | ok t =>
      rw [asRead, hinstant] at hreason
      cases hreason
    | error f =>
      simp only [ofCells, hcell, hkey, hdate, hinstant, asRead, bind, Except.bind, Except.map]

end Company

end CompanyRegister
