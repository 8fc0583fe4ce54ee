import CompanyRegister.Proofs.InOrder
import CompanyRegister.Proofs.Register.StoredRows

/-!
# Pages of a list

What the list of a query is for any rows of the table, whoever wrote them: the rows of the group in
ascending order of their ids, those before the offset dropped and no more taken than the limit, read
one after the other. A row that cannot be read ends only the lists whose part of the rows it is in.

So the pages of a list, one behind the other, are the list.
-/

namespace CompanyRegister.Register

open Store

/-! ## The rows of a group -/

/-- Whether the cell of the group is the number of a group, as a whole number or as a double. -/
def InGroup (g : Int32) (cs : Cells) : Prop :=
  cs.cell Field.companyGroupId.column = .int g.toInt ∨
    ∃ x, cs.cell Field.companyGroupId.column = .real x ∧ Decimal.toInt? x = some g.toInt

/-- Whether a list holds the rows of a group with their ids, or all rows, in ascending order. -/
structure AreRowsOf (rows : Rows Cells) (group : Option Int32) (es : List (Int × Cells)) :
    Prop where
  ascending : es.Pairwise fun a b => a.1 < b.1
  id_cell : ∀ n cs, (n, cs) ∈ es → cs.cell Field.companyId.column = .int n
  mem_iff : ∀ n cs, (n, cs) ∈ es ↔
    (table rows).fullRows.get? n = some cs ∧ ∀ g, group = some g → InGroup g cs

theorem Query.admits_iff {q : Query} {cs : Cells} :
    q.admits cs = true ↔ ∀ g, q.group = some g → InGroup g cs := by
  rw [Query.admits]
  cases q.group with
  | none => simp
  | some g => simp [Cell.isNumber_iff, InGroup]

/-- The rows that a query admits are the rows of its group. -/
theorem areRowsOf_filter (rows : Rows Cells) (q : Query) :
    AreRowsOf rows q.group ((table rows).fullRows.entries.filter fun e => q.admits e.2) := by
  refine ⟨(table rows).fullRows.ascending.filter _, ?_, ?_⟩
  · intro n cs hmem
    obtain ⟨e, -, he⟩ := List.mem_map.mp (List.mem_filter.mp hmem).1
    cases he
    show Cells.cell ((table rows).fullCells e.1 e.2) Field.companyId.column = .int e.1
    rw [cell_fullCells, if_pos rfl]
  · intro n cs
    rw [List.mem_filter, Rows.mem_entries_iff, Query.admits_iff]

theorem list_of_table {d : Database} {rows : Rows Cells} (htable : d.table? = some (table rows))
    (q : Query) :
    list q d = (q.page (((table rows).fullRows.entries.filter fun e => q.admits e.2).map
      Prod.snd)).mapM Company.ofCells := by
  rw [isNumbered_table.list_eq (table_eq_ok htable) (requireColumns_table _), List.filter_map]
  rfl

/-! ## Pages -/

/-- As many elements at a time as a page has, page by page. -/
theorem flatten_pages {α : Type} (xs : List α) (k n : Nat) :
    ((List.range n).map fun i => (xs.drop (i * k)).take k).flatten = xs.take (n * k) := by
  induction n with
  | zero => simp
  | succ n ih =>
    rw [List.range_succ, List.map_append, List.flatten_append, ih, Nat.succ_mul, List.take_add]
    simp

/-- The page of a list that has been read is a page of its records. -/
theorem mapM_page {ε α β : Type} {read : α → Except ε β} {xs : List α} {ys : List β}
    (h : xs.mapM read = .ok ys) (i k : Nat) :
    ((xs.drop i).take k).mapM read = .ok ((ys.drop i).take k) := by
  rw [mapM_eq_ok_iff] at h ⊢
  exact List.forall₂_take k (List.forall₂_drop i h)

/-- A list is read from the rows of its group that lie behind its offset and up to its limit, in
ascending order of the ids and up to the first that cannot be read. If a list can be read as a
whole, its pages are its parts: one behind the other they give it again. -/
theorem list_paged {d : Database} {rows : Rows Cells} (htable : d.table? = some (table rows))
    (group : Option Int32) :
    ∃ es, AreRowsOf rows group es ∧
      (∀ limit offset, ReadsInOrder Company.ofCells
        (Query.page ⟨group, limit, offset⟩ (es.map Prod.snd)) (list ⟨group, limit, offset⟩ d)) ∧
      ∀ cs, list ⟨group, none, 0⟩ d = .ok cs → ∀ k n, cs.length ≤ n * k →
        ∃ pages, ((List.range n).mapM fun i => list ⟨group, some k, i * k⟩ d) = .ok pages ∧
          pages.flatten = cs := by
  refine ⟨_, areRowsOf_filter rows ⟨group, none, 0⟩, ?_, ?_⟩
  · intro limit offset
    rw [list_of_table htable]
    exact readsInOrder_mapM _ _
  · intro cs hlist k n hlength
    rw [list_of_table htable] at hlist
    refine ⟨(List.range n).map fun i => (cs.drop (i * k)).take k, ?_, ?_⟩
    · rw [mapM_eq_ok_iff, List.forall₂_map_right_iff, List.forall₂_same]
      intro i _
      rw [list_of_table htable]
      exact mapM_page hlist (i * k) k
    · rw [flatten_pages, List.take_of_length_le hlength]

/-- A second company, entered as `acme`. -/
def acmeBranch : Company := { acme with companyId := some 8 }

/-- The rows of the two. -/
def acmeRows : Rows Cells := (Rows.empty.put 7 acme.plainCells).put 8 acmeBranch.plainCells

def acmeDatabase : Database := { version := 2, table? := some (table acmeRows), now := .epoch }

theorem pages_of_acme :
    acmeDatabase.table? = some (table acmeRows) ∧
      list ⟨none, none, 0⟩ acmeDatabase = .ok [acme, acmeBranch] ∧
      ∃ pages, ((List.range 3).mapM fun i => list ⟨none, some 1, i * 1⟩ acmeDatabase) =
          .ok pages ∧
        pages.flatten = [acme, acmeBranch] := by
  have htable : acmeDatabase.table? = some (table acmeRows) := rfl
  have hread : ∀ c : Company, c.companyId.isSome → c.validate = .ok () → c.enterDate = .epoch →
      Company.ofCells c.cells = .ok c := by
    intro c hid hvalid hdate
    obtain ⟨id, hid⟩ := Option.isSome_iff_exists.mp hid
    have hstored : c.enterDate.stored = c.enterDate := by
      rw [hdate]
      decide
    have hyear : c.enterDate.HasFourDigitYear := by
      rw [hdate]
      decide
    rw [Company.ofCells_cells hid hvalid hstored, Company.asRead_of_year hyear]
  have hlist : list ⟨none, none, 0⟩ acmeDatabase = .ok [acme, acmeBranch] := by
    rw [list_of_table htable]
    show [acme.cells, acmeBranch.cells].mapM Company.ofCells = _
    rw [mapM_eq_ok_iff]
    exact .cons (hread acme rfl rfl rfl) (.cons (hread acmeBranch rfl rfl rfl) .nil)
  obtain ⟨es, -, -, hpages⟩ := list_paged htable none
  exact ⟨htable, hlist, hpages _ hlist 1 3 (by decide)⟩

end CompanyRegister.Register
