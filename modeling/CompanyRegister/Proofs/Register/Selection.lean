import CompanyRegister.Proofs.Store.Upgrade
import CompanyRegister.Register.Operations

/-!
# What is selected

A query becomes a selection with open places and a list of values, put together differently for each
of the four ways in which limit and offset may be given, with and without a group. All of them come
to the same: the rows of the group in the order of their ids, then the part of them behind the offset
and up to the limit (`list_eq`).

In a table whose rows have their numbers as ids, the rows are in that order as they come, and no two
have one id (`IsNumbered`).
-/

namespace CompanyRegister.Store

theorem Cell.isNumber_iff {n : Int} {c : Cell} :
    c.isNumber n = true ↔ c = .int n ∨ ∃ x, c = .real x ∧ Decimal.toInt? x = some n := by
  cases c <;> simp [Cell.isNumber]

end CompanyRegister.Store

namespace CompanyRegister.Register

open Store

/-! ## Queries as selections -/

namespace Query

/-- The part of a list that a query asks for. -/
def page {α : Type} (q : Query) (xs : List α) : List α :=
  match q.limit with
  | some n => (xs.drop q.offset).take n
  | none => xs.drop q.offset

/-- The selection of a query, its places still open. -/
def selection (q : Query) : Selection Operand :=
  ⟨Field.columns, q.condition.1, some Field.companyId.column, q.part.1⟩

/-- The values for the places, in their order. -/
def values (q : Query) : List Int := q.condition.2 ++ q.part.2

/-- The condition of a query with its place filled. -/
def filledCondition (q : Query) : Option (String × Int) :=
  q.group.map fun g => (Field.companyGroupId.column, g.toInt)

/-- The part of a query with its places filled. -/
def filledPart (q : Query) : Option (Store.Part Int) :=
  match q.limit with
  | some n => some ⟨n, if 0 < q.offset then some (q.offset : Int) else none⟩
  | none => if 0 < q.offset then some ⟨-1, some (q.offset : Int)⟩ else none

def filled (q : Query) : Selection Int :=
  ⟨Field.columns, q.filledCondition, some Field.companyId.column, q.filledPart⟩

/-- The value of the condition goes to its place, whatever comes behind it. -/
theorem fillCondition?_selection (q : Query) (bounds : List Int) :
    q.selection.fillCondition? (q.condition.2 ++ bounds) = some (q.filledCondition, bounds) := by
  rw [Selection.fillCondition?, selection, condition, filledCondition]
  cases q.group with
  | none => rfl
  | some g => rfl

/-- The values of the bounds go to their places, and none is left. -/
theorem fillPart?_selection (q : Query) :
    q.selection.fillPart? q.part.2 = some (q.filledPart, []) := by
  rw [Selection.fillPart?, selection, part, filledPart]
  cases q.limit with
  | none =>
    by_cases hoffset : 0 < q.offset
    · simp only [if_pos hoffset]
      rfl
    · simp only [if_neg hoffset]
  | some n =>
    by_cases hoffset : 0 < q.offset
    · simp only [if_pos hoffset]
      rfl
    · simp only [if_neg hoffset]
      rfl

theorem fill?_selection (q : Query) : q.selection.fill? q.values = some q.filled := by
  rw [Selection.fill?, values, fillCondition?_selection]
  simp only [Option.bind_eq_bind, Option.bind_some, fillPart?_selection]
  rfl

/-- A limit of minus one is none, and no offset is an offset of nought. -/
theorem part_filled {α : Type} (q : Query) (xs : List α) :
    (match q.filledPart with
      | some p => p.of xs
      | none => xs) = q.page xs := by
  rw [filledPart, page]
  cases q.limit with
  | none =>
    by_cases hoffset : 0 < q.offset
    · simp only [if_pos hoffset]
      rfl
    · simp only [if_neg hoffset]
      rw [Nat.eq_zero_of_not_pos hoffset, List.drop_zero]
  | some n =>
    have hlimit : ¬ (n : Int) < 0 := Int.not_lt.mpr (Int.natCast_nonneg n)
    by_cases hoffset : 0 < q.offset
    · simp only [if_pos hoffset, Store.Part.of, if_neg hlimit, Option.getD_some, Int.toNat_natCast]
    · simp only [if_neg hoffset, Store.Part.of, if_neg hlimit, Option.getD_none, Int.toNat_zero,
        Int.toNat_natCast]
      rw [Nat.eq_zero_of_not_pos hoffset]

end Query

/-! ## Rows of any table -/

/-- The rows that have an id, as they come. -/
def withId (id : Int16) (t : Table) : List Cells :=
  (t.fullRows.entries.map Prod.snd).filter (t.holds Field.companyId.column id.toInt)

/-- The rows of the group of a query in the order of their ids. -/
def Query.wanted (q : Query) (t : Table) : List Cells :=
  sortedBy (some Field.companyId.column)
    ((t.fullRows.entries.map Prod.snd).filter (t.admits q.filled))

/-- A table that has the columns of a record has those that a selection of its rows names. -/
theorem requireColumns_of_mem {t : Table} (h : t.requireColumns Field.columns = .ok ())
    {names : List String} (hnames : ∀ n ∈ names, n ∈ Field.columns) :
    t.requireColumns names = .ok () :=
  Table.requireColumns_eq_ok_iff.mpr fun n hn =>
    Table.requireColumns_eq_ok_iff.mp h n (hnames n hn)

theorem run_selection (q : Query) (t : Table) :
    t.run q.selection q.values =
      (t.requireColumns Field.columns).map fun _ => q.page (q.wanted t) := by
  have hnamed : ∀ n ∈ q.selection.condition.toList.map Prod.fst ++ q.selection.order.toList,
      n ∈ Field.columns := by
    intro n hn
    rw [Query.selection, Query.condition] at hn
    have hgroup : Field.companyGroupId.column ∈ Field.columns := by decide
    have hid : Field.companyId.column ∈ Field.columns := by decide
    cases hg : q.group with
    | none =>
      simp only [hg, Option.toList_none, List.map_nil, List.nil_append, Option.toList_some,
        List.mem_singleton] at hn
      exact hn ▸ hid
    | some g =>
      simp only [hg, Option.toList_some, List.map_cons, List.map_nil, List.mem_append,
        List.mem_singleton] at hn
      rcases hn with rfl | rfl
      · exact hgroup
      · exact hid
  rw [Table.run, Table.select]
  show ((t.requireColumns Field.columns >>= fun _ => _) >>= fun _ => _) = _
  cases hcolumns : t.requireColumns Field.columns with
  | error f => rfl
  | ok =>
    have hpart : t.rowsOf q.filled t.fullRows = q.page (q.wanted t) := q.part_filled _
    simp only [bind, Except.bind, pure, Except.pure, requireColumns_of_mem hcolumns hnamed,
      q.fill?_selection]
    exact congrArg Except.ok hpart

theorem run_rowsOfId (id : Int16) (t : Table) :
    t.run rowsOfId [id.toInt] =
      (t.requireColumns Field.columns).map fun _ => withId id t := by
  have hnamed : ∀ n ∈ rowsOfId.condition.toList.map Prod.fst ++ rowsOfId.order.toList,
      n ∈ Field.columns := by decide
  rw [Table.run, Table.select]
  show ((t.requireColumns Field.columns >>= fun _ => _) >>= fun _ => _) = _
  cases hcolumns : t.requireColumns Field.columns with
  | error f => rfl
  | ok =>
    simp only [bind, Except.bind, pure, Except.pure, requireColumns_of_mem hcolumns hnamed]
    rfl

section Tables

variable {d : Database} {t : Table} (htable : d.table tableName = .ok t)
  (hcolumns : t.requireColumns Field.columns = .ok ())

include htable hcolumns

/-- However limit and offset are given, a list is read from the part of the rows of the group that
lies behind the offset and up to the limit. -/
theorem list_eq (q : Query) : list q d = (q.page (q.wanted t)).mapM Company.ofCells := by
  have hlist : list q d =
      ((d.run tableName q.selection q.values).mapError .store).bind fun rows =>
        rows.mapM Company.ofCells := rfl
  rw [hlist, Database.run, htable]
  show ((t.run q.selection q.values).mapError Fault.store).bind _ = _
  rw [run_selection, hcolumns]
  rfl

/-- A record is read from the first row that has its id. -/
theorem find_eq (id : Int16) :
    find id d = match withId id t with
      | cs :: _ => (Company.ofCells cs).map some
      | [] => .ok none := by
  have hrows : d.run tableName rowsOfId [id.toInt] = .ok (withId id t) := by
    rw [Database.run, htable]
    show t.run rowsOfId [id.toInt] = _
    rw [run_rowsOfId, hcolumns]
    rfl
  rw [find, hrows]
  show (match withId id t with
    | cs :: _ => _
    | [] => _) = _
  cases withId id t with
  | nil => rfl
  | cons cs rest =>
    dsimp only
    cases Company.ofCells cs <;> rfl

end Tables

/-! ## Rows that are numbered by their ids -/

/-- Whether a row belongs to the group of a query. -/
def Query.admits (q : Query) (cs : Cells) : Bool :=
  match q.group with
  | some g => (cs.cell Field.companyGroupId.column).isNumber g.toInt
  | none => true

/-- Whether the rows of a table have their numbers as ids. -/
structure IsNumbered (t : Table) : Prop where
  id_cell : ∀ n cells, Cells.cell (t.fullCells n cells) Field.companyId.column = .int n
  id_affinity : t.affinityOf Field.companyId.column = .integer
  group_affinity : t.affinityOf Field.companyGroupId.column = .integer

namespace IsNumbered

variable {t : Table}

/-- The rows are in the order of their ids as they come. -/
theorem wanted_eq (h : IsNumbered t) (q : Query) :
    q.wanted t = (t.fullRows.entries.map Prod.snd).filter q.admits := by
  have hadmits : t.admits q.filled = q.admits := by
    funext cs
    rw [Table.admits, Query.filled, Query.filledCondition, Query.admits]
    cases q.group with
    | none => rfl
    | some g =>
      exact congrArg (Affinity.isNumber g.toInt · (cs.cell Field.companyGroupId.column))
        h.group_affinity
  rw [Query.wanted, hadmits, sortedBy]
  refine List.mergeSort_of_pairwise (List.Pairwise.filter _ ?_)
  rw [Table.fullRows, Rows.map, List.map_map, List.pairwise_map]
  refine t.rows.ascending.imp fun {a b} hlt => ?_
  rw [Function.comp_apply, Function.comp_apply, h.id_cell, h.id_cell]
  exact decide_eq_true (Int.le_of_lt hlt)

/-- At most one row has an id: the one of that number. -/
theorem filter_holds (h : IsNumbered t) (n : Int) :
    (t.fullRows.entries.filter fun e => t.holds Field.companyId.column n e.2) =
      ((t.fullRows.get? n).map fun cs => (n, cs)).toList := by
  have hfilter : (t.fullRows.entries.filter fun e => t.holds Field.companyId.column n e.2) =
      t.fullRows.entries.filter fun e => e.1 == n := by
    refine List.filter_congr fun e he => ?_
    obtain ⟨r, -, rfl⟩ := List.mem_map.mp he
    rw [Table.holds, h.id_affinity]
    show (Cells.cell (t.fullCells r.1 r.2) Field.companyId.column).isNumber n = _
    rw [h.id_cell]
    rfl
  rw [hfilter, Rows.filter_eq_toList t.fullRows.ascending]
  rfl

theorem withId_eq (h : IsNumbered t) (id : Int16) :
    withId id t = (t.fullRows.get? id.toInt).toList := by
  have hwith : withId id t =
      (t.fullRows.entries.filter fun e =>
        t.holds Field.companyId.column id.toInt e.2).map Prod.snd := by
    rw [withId, List.filter_map]
    rfl
  rw [hwith, h.filter_holds]
  cases t.fullRows.get? id.toInt <;> rfl

theorem holders_eq (h : IsNumbered t) (n : Int) :
    t.holders Field.companyId.column n = if t.rows.contains n then [n] else [] := by
  rw [Table.holders, h.filter_holds, Table.fullRows, Rows.get?_map, Rows.contains]
  cases t.rows.get? n <;> rfl

theorem cellAt_eq (h : IsNumbered t) {n : Int} {cells : Cells} (hrow : t.rows.get? n = some cells) :
    t.cellAt Field.companyId.column n = .int n := by
  rw [Table.cellAt, hrow]
  exact h.id_cell n cells

section Databases

variable {d : Database} (h : IsNumbered t) (htable : d.table tableName = .ok t)
  (hcolumns : t.requireColumns Field.columns = .ok ())

include h htable hcolumns

/-- A record is read from the row that has its id as its number. -/
theorem find_eq (id : Int16) : find id d = match t.fullRows.get? id.toInt with
    | some cs => (Company.ofCells cs).map some
    | none => .ok none := by
  rw [Register.find_eq htable hcolumns, h.withId_eq]
  cases t.fullRows.get? id.toInt <;> rfl

theorem list_eq (q : Query) : list q d =
    (q.page ((t.fullRows.entries.map Prod.snd).filter q.admits)).mapM Company.ofCells := by
  rw [Register.list_eq htable hcolumns, h.wanted_eq]

end Databases

end IsNumbered

end CompanyRegister.Register
