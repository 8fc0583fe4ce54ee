import CompanyRegister.Proofs.Decimal.Whole
import CompanyRegister.Proofs.InOrder
import CompanyRegister.Proofs.Register.StoredRows

/-!
# What is read of a row

Any cell may stand in any column of a row, and what is read is what stands there (`Company.Shows`):
`ofCells_eq_ok_iff` says that a row is read as a record exactly if it shows the record, field by
field, and the record breaks no rule. A row that shows none is refused.

So it is with every table that the register is ready to work on, whatever its columns convert and
check: what is found under an id, and what is listed, are records that rows show.
-/

namespace CompanyRegister

open Calendar Store

namespace Company

/-! ## Cells that show values -/

/-- Whether a cell shows a tax rate. -/
inductive ShowsRate : Cell → Option Float → Prop
  | missing : ShowsRate .null none
  | double (x : Float) : ShowsRate (.real x) (some x)
  /-- A whole number is made a double, and is that number if any double is. -/
  | whole {n : Int} {x : Float} (hx : x = .ofInt n)
      (hexact : (∃ y, Decimal.toInt? y = some n) → Decimal.toInt? x = some n) :
      ShowsRate (.int n) (some x)

/-- Whether a row shows a record: each field in its own column, as it is. -/
structure Shows (c : Company) (cs : Cells) : Prop where
  id : ∃ id, c.companyId = some id ∧ cs.cell Field.companyId.column = .int id.toInt
  name : cs.cell Field.companyName.column = .ofOption .text c.companyName
  base_rate : cs.cell Field.baseRate.column = .ofOption (fun m => .int m.units.toInt) c.baseRate
  currency : cs.cell Field.defaultCurrencyId.column =
    .ofOption (fun n => .int n.toInt) c.defaultCurrencyId
  user : cs.cell Field.enterUserId.column = .int c.enterUserId.toInt
  date : ∃ s, cs.cell Field.enterDate.column = .text s ∧ Instant.parse? s.toList = some c.enterDate
  tax_rate : ShowsRate (cs.cell Field.taxRate.column) c.taxRate
  group : cs.cell Field.companyGroupId.column = .ofOption (fun n => .int n.toInt) c.companyGroupId
  valid : c.validate = .ok ()

/-! ## Reading cells -/

section Cells

variable {f : Field} {c : Cell}

theorem textOfCell_eq_ok_iff {s : String} : textOfCell f c = .ok s ↔ c = .text s := by
  cases c <;> simp [textOfCell]

theorem instantOfText_eq_ok_iff {s : String} {t : Instant} :
    instantOfText s = .ok t ↔ Instant.parse? s.toList = some t := by
  rw [instantOfText]
  cases Instant.parse? s.toList <;> simp

/-- A value that may be missing is read from its cell or from none. -/
theorem optionOfCell_eq_ok_iff {α : Type} {read : Field → Cell → Except Register.Fault α}
    {cellOf : α → Cell} (hread : ∀ c a, read f c = .ok a ↔ c = cellOf a)
    (hnull : ∀ a, cellOf a ≠ .null) {a? : Option α} :
    optionOfCell read f c = .ok a? ↔ c = .ofOption cellOf a? := by
  by_cases hc : c = .null
  · subst hc
    cases a? with
    | none => simp [optionOfCell, Cell.ofOption]
    | some a =>
      have hne : Cell.null ≠ .ofOption cellOf (some a) := (hnull a).symm
      simp [optionOfCell, hne]
  · have hsome : optionOfCell read f c = (read f c).map some := by
      rw [optionOfCell.eq_def]
      cases c with
      | null => exact absurd rfl hc
      | _ => rfl
    rw [hsome]
    cases a? with
    | none =>
      constructor
      · intro h
        cases hcell : read f c <;> rw [hcell] at h <;> cases h
      · exact fun h => absurd h hc
    | some a =>
      rw [Cell.ofOption, ← hread]
      cases read f c <;> simp [Except.map]

theorem rateOfCell_eq_ok_iff {rate : Option Float} :
    optionOfCell floatOfCell f c = .ok rate ↔ ShowsRate c rate := by
  constructor
  · intro h
    cases c with
    | null =>
      cases h
      exact .missing
    | int n =>
      cases h
      exact .whole rfl Decimal.toInt?_ofInt
    | real x =>
      cases h
      exact .double x
    | text s => cases h
    | blob bytes => cases h
  · intro h
    cases h with
    | missing => rfl
    | double x => rfl
    | whole hx _ => rw [hx]; rfl

end Cells

/-! ## Reading rows -/

/-- A row is read as a record exactly if it shows that record. -/
theorem ofCells_eq_ok_iff {cs : Cells} {c : Company} : ofCells cs = .ok c ↔ c.Shows cs := by
  have hname : ∀ c a?, optionOfCell textOfCell .companyName c = .ok a? ↔ c = .ofOption .text a? :=
    fun _ _ => optionOfCell_eq_ok_iff (fun _ _ => textOfCell_eq_ok_iff) fun _ => nofun
  have hbase : ∀ c a?, optionOfCell moneyOfCell .baseRate c = .ok a? ↔
      c = .ofOption (fun m => .int m.units.toInt) a? :=
    fun _ _ => optionOfCell_eq_ok_iff (fun _ _ => moneyOfCell_eq_ok_iff) fun _ => nofun
  have hcurrency : ∀ c a?, optionOfCell int16OfCell .defaultCurrencyId c = .ok a? ↔
      c = .ofOption (fun n => .int n.toInt) a? :=
    fun _ _ => optionOfCell_eq_ok_iff (fun _ _ => int16OfCell_eq_ok_iff) fun _ => nofun
  have hgroup : ∀ c a?, optionOfCell int32OfCell .companyGroupId c = .ok a? ↔
      c = .ofOption (fun n => .int n.toInt) a? :=
    fun _ _ => optionOfCell_eq_ok_iff (fun _ _ => int32OfCell_eq_ok_iff) fun _ => nofun
  constructor
  · intro h
    obtain ⟨id, hid, h⟩ := exists_of_bind_eq_ok h
    obtain ⟨s, hs, h⟩ := exists_of_bind_eq_ok h
    obtain ⟨t, ht, h⟩ := exists_of_bind_eq_ok h
    obtain ⟨n, hn, h⟩ := exists_of_bind_eq_ok h
    obtain ⟨b, hb, h⟩ := exists_of_bind_eq_ok h
    obtain ⟨k, hk, h⟩ := exists_of_bind_eq_ok h
    obtain ⟨u, hu, h⟩ := exists_of_bind_eq_ok h
    obtain ⟨x, hx, h⟩ := exists_of_bind_eq_ok h
    obtain ⟨g, hg, h⟩ := exists_of_bind_eq_ok h
    obtain ⟨⟨⟩, hvalid, h⟩ := exists_of_bind_eq_ok h
    cases h
    refine ⟨⟨id, rfl, int16OfCell_eq_ok_iff.mp hid⟩, (hname _ _).mp hn, (hbase _ _).mp hb,
      (hcurrency _ _).mp hk, int32OfCell_eq_ok_iff.mp hu,
      ⟨s, textOfCell_eq_ok_iff.mp hs, instantOfText_eq_ok_iff.mp ht⟩, rateOfCell_eq_ok_iff.mp hx,
      (hgroup _ _).mp hg, ?_⟩
    generalize Company.validate _ = valid at hvalid ⊢
    cases valid with
    | error v => cases hvalid
    | ok => rfl
  · intro h
    obtain ⟨id, hid, hidcell⟩ := h.id
    obtain ⟨s, hs, ht⟩ := h.date
    have hself : { c with companyId := some id } = c := by rw [← hid]
    rw [ofCells]
    simp only [bind, Except.bind, int16OfCell_eq_ok_iff.mpr hidcell, textOfCell_eq_ok_iff.mpr hs,
      instantOfText_eq_ok_iff.mpr ht, (hname _ _).mpr h.name, (hbase _ _).mpr h.base_rate,
      (hcurrency _ _).mpr h.currency, int32OfCell_eq_ok_iff.mpr h.user,
      rateOfCell_eq_ok_iff.mpr h.tax_rate, (hgroup _ _).mpr h.group]
    rw [hself, h.valid]
    rfl

end Company

namespace Register

/-! ## Reading tables -/

/-- Whether a row has an id: as a number, or as a numeral where ids are texts. -/
def HasId (t : Table) (id : Int16) (cs : Cells) : Prop :=
  let cell := cs.cell Field.companyId.column
  if t.affinityOf Field.companyId.column = .text then
    cell = .text (String.ofList (Text.signed id.toInt))
  else cell = .int id.toInt ∨ ∃ x, cell = .real x ∧ Decimal.toInt? x = some id.toInt

theorem holds_iff_hasId {t : Table} {id : Int16} {cs : Cells} :
    t.holds Field.companyId.column id.toInt cs = true ↔ HasId t id cs := by
  rw [Table.holds, HasId]
  generalize cs.cell Field.companyId.column = c
  cases ha : t.affinityOf Field.companyId.column with
  | text => cases c <;> simp [Affinity.isNumber]
  | _ => simp [Affinity.isNumber, Cell.isNumber_iff]

/-- A row with an id that is read is read as a record with that id. -/
theorem companyId_of_shows {t : Table} {id : Int16} {cs : Cells} {c : Company}
    (hid : HasId t id cs) (h : c.Shows cs) : c.companyId = some id := by
  obtain ⟨k, hk, hcell⟩ := h.id
  simp only [HasId, hcell] at hid
  split at hid
  · cases hid
  · rcases hid with heq | ⟨x, hx, -⟩
    · rw [hk, Int16.toInt_inj.mp (Cell.int.inj heq)]
    · cases hx

theorem exists_table_of_ready {d : Database} (h : ready d = .ok ()) :
    ∃ t, d.table tableName = .ok t ∧ t.requireColumns Field.columns = .ok () := by
  rw [ready] at h
  obtain ⟨version, -, h⟩ := exists_of_bind_eq_ok h
  dsimp only at h
  by_cases hversion : version ≠ Migration.latest
  · rw [if_pos hversion] at h
    cases h
  · rw [if_neg hversion] at h
    cases htable : d.table tableName with
    | error f =>
      rw [htable] at h
      cases h
    | ok t =>
      have hstorage : Company.entity.storageColumns = Field.columns := by decide
      refine ⟨t, rfl, ?_⟩
      rw [Table.requireColumns]
      cases hmissing : Field.columns.find? fun n => !t.hasColumn n with
      | none => rfl
      | some column =>
        simp only [htable, hstorage, hmissing] at h
        cases h

theorem mem_withId {t : Table} {id : Int16} {cs : Cells} :
    cs ∈ withId id t ↔ ∃ n, (n, cs) ∈ t.fullRows.entries ∧ HasId t id cs := by
  rw [withId, List.mem_filter, holds_iff_hasId]
  simp

theorem mem_of_mem_wanted {q : Query} {t : Table} {cs : Cells} (h : cs ∈ q.wanted t) :
    ∃ n, (n, cs) ∈ t.fullRows.entries := by
  rw [Query.wanted, sortedBy, List.mem_mergeSort] at h
  obtain ⟨e, he, rfl⟩ := List.mem_map.mp (List.mem_filter.mp h).1
  exact ⟨e.1, he⟩

/-- Whatever a table holds that the register is ready to work on: no record is found only if no row
has the id; a record that is found has the id, and a row shows it; and rows show all records that
are listed. -/
theorem read_as_shown {d : Database} (hready : ready d = .ok ()) :
    ∃ t, d.table tableName = .ok t ∧
      (∀ id, (find id d = .ok none ↔ ∀ n cs, (n, cs) ∈ t.fullRows.entries → ¬ HasId t id cs) ∧
        ∀ c, find id d = .ok (some c) →
          c.companyId = some id ∧ ∃ n cs, (n, cs) ∈ t.fullRows.entries ∧ c.Shows cs) ∧
      ∀ q records, list q d = .ok records →
        ∀ c ∈ records, ∃ n cs, (n, cs) ∈ t.fullRows.entries ∧ c.Shows cs := by
  obtain ⟨t, htable, hcolumns⟩ := exists_table_of_ready hready
  refine ⟨t, htable, fun id => ?_, ?_⟩
  · rw [find_eq htable hcolumns]
    cases hrows : withId id t with
    | nil =>
      constructor
      · refine ⟨fun _ n cs hmem hid => ?_, fun _ => rfl⟩
        have hwith : cs ∈ withId id t := mem_withId.mpr ⟨n, hmem, hid⟩
        rw [hrows] at hwith
        cases hwith
      · intro c h
        cases h
    | cons cs rest =>
      have hwith : cs ∈ withId id t := by
        rw [hrows]
        exact List.mem_cons_self
      obtain ⟨n, hmem, hid⟩ := mem_withId.mp hwith
      constructor
      · constructor
        · intro h
          cases hread : Company.ofCells cs <;> simp only [hread] at h <;> cases h
        · intro h
          exact absurd hid (h n cs hmem)
      · intro c h
        cases hread : Company.ofCells cs with
        | error f =>
          simp only [hread] at h
          cases h
        | ok c' =>
          simp only [hread] at h
          cases h
          have hshows := Company.ofCells_eq_ok_iff.mp hread
          exact ⟨companyId_of_shows hid hshows, n, cs, hmem, hshows⟩
  · intro q records hlist c hc
    rw [list_eq htable hcolumns] at hlist
    obtain ⟨cs, hcs, hread⟩ := exists_of_mem_mapM hlist hc
    obtain ⟨n, hmem⟩ := mem_of_mem_wanted (Query.mem_of_mem_page hcs)
    exact ⟨n, cs, hmem, Company.ofCells_eq_ok_iff.mp hread⟩

/-- A table with the columns of a record that converts and checks nothing but the id. -/
def looseTable (rows : Rows Cells) : Table where
  name := tableName
  columns := ⟨Field.companyId.column, .integer, .primaryKey, none, []⟩ ::
    (Field.all.erase .companyId).map fun f => ⟨f.column, .blob, .nullable, none, []⟩
  indexes := []
  rows := rows

/-- A database with one row, in which somebody has put a tax rate. -/
def looseDatabase (rate : Cell) : Database where
  version := 2
  table? := some (looseTable (Rows.empty.put 1 [(Field.enterUserId.column, .int 7),
    (Field.enterDate.column, .text "1970-01-01T00:00:00.000Z"), (Field.taxRate.column, rate)]))

/-- What is read of that row when the rate is a whole number. -/
def looseCompany (n : Int) : Company where
  companyId := some 1
  companyName := none
  baseRate := none
  defaultCurrencyId := none
  enterUserId := 7
  enterDate := .epoch
  taxRate := some (.ofInt n)
  companyGroupId := none

theorem ready_looseDatabase (rate : Cell) : ready (looseDatabase rate) = .ok () := by
  rfl

/-- The one row of the database, as it is read. -/
theorem shows_looseCompany {n : Int} (hfinite : (Float.ofInt n).isFinite = true) :
    (looseCompany n).Shows [(Field.companyId.column, .int 1), (Field.companyName.column, .null),
      (Field.baseRate.column, .null), (Field.defaultCurrencyId.column, .null),
      (Field.enterUserId.column, .int 7),
      (Field.enterDate.column, .text "1970-01-01T00:00:00.000Z"),
      (Field.taxRate.column, .int n), (Field.companyGroupId.column, .null)] where
  id := ⟨1, rfl, rfl⟩
  name := rfl
  base_rate := rfl
  currency := rfl
  user := rfl
  date := ⟨_, rfl, by rfl⟩
  tax_rate := .whole rfl Decimal.toInt?_ofInt
  group := rfl
  valid := Company.validate_eq_ok_iff.mpr ⟨nofun, fun x hx => by cases hx; exact hfinite⟩

theorem find_looseDatabase {n : Int} (hfinite : (Float.ofInt n).isFinite = true) :
    find 1 (looseDatabase (.int n)) = .ok (some (looseCompany n)) := by
  obtain ⟨t, htable, hcolumns⟩ := exists_table_of_ready (ready_looseDatabase (.int n))
  have hread := Company.ofCells_eq_ok_iff.mpr (shows_looseCompany hfinite)
  rw [find_eq htable hcolumns]
  cases htable
  exact congrArg (Except.map some) hread

theorem read_as_shown_loose :
    ready (looseDatabase (.int 8)) = .ok () ∧
      find 1 (looseDatabase (.int 8)) = .ok (some (looseCompany 8)) ∧
      (looseCompany 8).companyId = some 1 ∧ (looseCompany 8).taxRate.bind Decimal.toInt? = some 8 ∧
      ∃ cs, (looseCompany 8).Shows cs := by
  have hready := ready_looseDatabase (.int 8)
  have hfound := find_looseDatabase (n := 8) (by decide)
  obtain ⟨t, -, hfind, -⟩ := read_as_shown hready
  obtain ⟨hid, n, cs, -, hshows⟩ := (hfind 1).2 _ hfound
  exact ⟨hready, hfound, hid, by decide, cs, hshows⟩

/-- Not every whole number is a double: what is read of a tax rate can be another number. -/
theorem tax_rate_rounded :
    ready (looseDatabase (.int 9007199254740993)) = .ok () ∧
      find 1 (looseDatabase (.int 9007199254740993)) =
        .ok (some (looseCompany 9007199254740993)) ∧
      (looseCompany 9007199254740993).taxRate.bind Decimal.toInt? = some 9007199254740992 :=
  ⟨ready_looseDatabase _, find_looseDatabase (by decide), by decide⟩

end Register

end CompanyRegister
