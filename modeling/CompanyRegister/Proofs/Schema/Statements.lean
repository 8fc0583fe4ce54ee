import Mathlib.Data.List.Forall2
import CompanyRegister.Proofs.Text.LineBlocks
import CompanyRegister.Proofs.Text.Plain
import CompanyRegister.Schema.Company

/-!
# The statements of an entity

The statements that make the table of an entity are laid out in lines: a comment, the statement that
makes the table with one column a line, and one line for each index.

    -- schema.table
    CREATE TABLE IF NOT EXISTS table (
        column TYPE constraints,
        column TYPE constraints
    );
    CREATE UNIQUE INDEX IF NOT EXISTS index ON table (column, column);

The columns are the storage columns of the entity, one for one and in their order; the constraints of
each say what the entity declares of it (`Entity.Column.Constrained`), and an index has the column of
each of its properties. All of this is `Entity.WrittenAs`, and `ddl_written` proves it of every entity
that fits on lines and whose indexes are over its own properties.
-/

namespace CompanyRegister

open Text

/-! ## Constraints -/

namespace Store.Column

/-- The parts of a column definition behind its name and its type. -/
def constraints (c : Store.Column) : List (List Char) := c.clauses.drop 2

theorem text_eq (c : Store.Column) :
    c.text = [' '].intercalate (c.name.toList :: c.affinity.name.toList :: c.constraints) := rfl

theorem constraints_eq (c : Store.Column) :
    c.constraints = c.presence.text.toList ::
      (c.default.toList.map (fun d => "DEFAULT ".toList ++ d.text.toList) ++
        c.checks.map fun k => "CHECK (".toList ++ k.text c.name.toList ++ [')']) := rfl

end Store.Column

namespace Entity.Column

/-- The check that the values of a column are small whole numbers. -/
def rangeCheck (c : Entity.Column) : List Char :=
  "CHECK (".toList ++ c.column.toList ++ " IS NULL OR ".toList ++ c.column.toList ++
    " BETWEEN -32768 AND 32767)".toList

/-- The check that the values of a column have at most so many characters. -/
def lengthCheck (c : Entity.Column) (n : Nat) : List Char :=
  "CHECK (".toList ++ c.column.toList ++ " IS NULL OR length(".toList ++ c.column.toList ++
    ") <= ".toList ++ digits n ++ [')']

/-- Whether the constraints of a column say what the entity declares of it. -/
structure Constrained (c : Entity.Column) (constraints : List (List Char)) : Prop where
  notNull : "NOT NULL".toList ∈ constraints ↔ c.isPrimary = false ∧ c.nullable = false
  primaryKey : "PRIMARY KEY".toList ∈ constraints ↔ c.isPrimary = true
  default : (∃ k ∈ constraints, "DEFAULT ".toList <+: k) ↔ c.default.isSome = true
  defaultValue : ∀ d ∈ c.default, "DEFAULT ".toList ++ d.text.toList ∈ constraints
  range : c.rangeCheck ∈ constraints ↔ c.sqlType = "smallint"
  length : ∀ n, c.lengthCheck n ∈ constraints ↔ c.length = some n

variable (c : Entity.Column)

theorem lengthCheck_injective {m n : Nat} (h : c.lengthCheck m = c.lengthCheck n) : m = n := by
  unfold lengthCheck at h
  have hdigits := List.append_cancel_left (List.append_cancel_right h)
  have hvalue := congrArg value hdigits
  rwa [value_digits, value_digits] at hvalue

theorem eq_of_append_digits {a b ds es : List Char} {x y : Char}
    (hds : ∀ c ∈ ds, c.isDigit = true) (hes : ∀ c ∈ es, c.isDigit = true)
    (h : a ++ [x, ' '] ++ ds = b ++ [y, ' '] ++ es) : x = y := by
  have hlast : ∀ (a : List Char) (x : Char), ∀ c ∈ (a ++ [x, ' ']).getLast?, c.isDigit = false := by
    intro a x c hc
    rw [List.getLast?_append_of_ne_nil a (by simp)] at hc
    cases hc
    rfl
  have hfront := congrArg (dropEndWhile Char.isDigit) h
  rw [dropEndWhile_append hds (hlast a x), dropEndWhile_append hes (hlast b y)] at hfront
  have hsigns := (List.append_inj' hfront rfl).2
  exact (List.cons.inj hsigns).1

/-- What is in front of the number at the end tells the two checks apart. -/
theorem rangeCheck_ne_lengthCheck (n : Nat) : c.rangeCheck ≠ c.lengthCheck n := by
  intro h
  unfold rangeCheck lengthCheck at h
  have hrange : " BETWEEN -32768 AND 32767)".toList =
      " BETWEEN -32768 AN".toList ++ ['D', ' '] ++ "32767".toList ++ [')'] := by decide
  have hlength : ") <= ".toList = ") <".toList ++ ['=', ' '] := by decide
  rw [hrange, hlength, ← List.append_assoc, ← List.append_assoc, ← List.append_assoc,
    ← List.append_assoc] at h
  have hbound : ∀ d ∈ "32767".toList, d.isDigit = true := List.all_eq_true.mp (by decide)
  have hsign := eq_of_append_digits hbound (fun d => isDigit_of_mem_digits)
    (List.append_cancel_right h)
  exact absurd hsign (by decide)

theorem smallRange_text :
    "CHECK (".toList ++ Store.Check.smallRange.text c.column.toList ++ [')'] = c.rangeCheck := by
  have hbounds : " BETWEEN ".toList ++ (signed (-32768) ++ (" AND ".toList ++
      (signed 32767 ++ [')']))) = " BETWEEN -32768 AND 32767)".toList := by decide +kernel
  unfold rangeCheck Store.Check.smallRange Store.Check.text
  rw [← hbounds]
  simp only [List.append_assoc]

theorem maxLength_text (n : Nat) :
    "CHECK (".toList ++ (Store.Check.maxLength n).text c.column.toList ++ [')'] =
      c.lengthCheck n := by
  unfold lengthCheck Store.Check.text
  simp only [List.append_assoc]

/-- A constraint is about missing values or the key, a default, a range or a length. -/
theorem mem_constraints_iff {k : List Char} :
    k ∈ c.definition.constraints ↔ k = c.presence.text.toList ∨
      (∃ d ∈ c.default, k = "DEFAULT ".toList ++ d.text.toList) ∨
      (c.sqlType = "smallint" ∧ k = c.rangeCheck) ∨ ∃ n ∈ c.length, k = c.lengthCheck n := by
  have hchecks : k ∈ c.checks.map (fun k => "CHECK (".toList ++ k.text c.column.toList ++ [')']) ↔
      (c.sqlType = "smallint" ∧ k = c.rangeCheck) ∨ ∃ n ∈ c.length, k = c.lengthCheck n := by
    rw [checks, List.map_append, List.mem_append]
    refine or_congr ?_ ?_
    · by_cases hsmall : c.sqlType = "smallint"
      · rw [if_pos hsmall, List.map_singleton, smallRange_text, List.mem_singleton]
        exact (and_iff_right hsmall).symm
      · rw [if_neg hsmall]
        simp [hsmall]
    · cases c.length with
      | none => simp
      | some n =>
        simp only [Option.toList_some, List.map_singleton, maxLength_text]
        simp
  have hdefaults : k ∈ c.default.toList.map (fun d => "DEFAULT ".toList ++ d.text.toList) ↔
      ∃ d ∈ c.default, k = "DEFAULT ".toList ++ d.text.toList := by
    cases c.default with
    | none => simp
    | some d => simp
  rw [Store.Column.constraints_eq, List.mem_cons, List.mem_append]
  exact or_congr Iff.rfl (or_congr hdefaults hchecks)

/-! ### Telling constraints apart -/

theorem head?_presence : c.presence.text.toList.head? = some 'P' ∨
    c.presence.text.toList.head? = some 'N' := by
  cases c.presence with
  | primaryKey => exact Or.inl rfl
  | nullable => exact Or.inr rfl
  | required => exact Or.inr rfl

theorem head?_rangeCheck : c.rangeCheck.head? = some 'C' := rfl

theorem head?_lengthCheck (n : Nat) : (c.lengthCheck n).head? = some 'C' := rfl

theorem head?_default (text : List Char) : ("DEFAULT ".toList ++ text).head? = some 'D' := rfl

variable {k : List Char}

theorem mem_constraints_presence_iff (hk : k.head? = some 'P' ∨ k.head? = some 'N') :
    k ∈ c.definition.constraints ↔ k = c.presence.text.toList := by
  rw [mem_constraints_iff]
  refine ⟨fun h => ?_, Or.inl⟩
  rcases h with h | ⟨d, -, rfl⟩ | ⟨-, rfl⟩ | ⟨n, -, rfl⟩
  · exact h
  · simp at hk
  · simp [head?_rangeCheck] at hk
  · simp [head?_lengthCheck] at hk

theorem mem_constraints_default_iff (hk : k.head? = some 'D') :
    k ∈ c.definition.constraints ↔ ∃ d ∈ c.default, k = "DEFAULT ".toList ++ d.text.toList := by
  rw [mem_constraints_iff]
  refine ⟨fun h => ?_, fun h => Or.inr (Or.inl h)⟩
  rcases h with rfl | h | ⟨-, rfl⟩ | ⟨n, -, rfl⟩
  · rcases c.head?_presence with h | h <;> simp [h] at hk
  · exact h
  · simp [head?_rangeCheck] at hk
  · simp [head?_lengthCheck] at hk

theorem mem_constraints_check_iff (hk : k.head? = some 'C') :
    k ∈ c.definition.constraints ↔
      (c.sqlType = "smallint" ∧ k = c.rangeCheck) ∨ ∃ n ∈ c.length, k = c.lengthCheck n := by
  rw [mem_constraints_iff]
  refine ⟨fun h => ?_, fun h => Or.inr (Or.inr h)⟩
  rcases h with rfl | ⟨d, -, rfl⟩ | h
  · rcases c.head?_presence with h | h <;> simp [h] at hk
  · simp at hk
  · exact h

theorem constrained_definition : c.Constrained c.definition.constraints where
  notNull := by
    rw [mem_constraints_presence_iff c (Or.inr rfl)]
    cases hprimary : c.isPrimary <;> cases hnullable : c.nullable <;>
      simp only [presence, hprimary, hnullable] <;> decide
  primaryKey := by
    rw [mem_constraints_presence_iff c (Or.inl rfl)]
    cases hprimary : c.isPrimary <;> cases hnullable : c.nullable <;>
      simp only [presence, hprimary, hnullable] <;> decide
  default := by
    constructor
    · rintro ⟨k, hk, text, rfl⟩
      obtain ⟨d, hd, -⟩ := (mem_constraints_default_iff c (head?_default text)).mp hk
      exact Option.isSome_of_mem hd
    · intro h
      obtain ⟨d, hd⟩ := Option.isSome_iff_exists.mp h
      exact ⟨_, (mem_constraints_default_iff c (head?_default _)).mpr ⟨d, hd, rfl⟩,
        List.prefix_append _ _⟩
  defaultValue := by
    intro d hd
    exact (mem_constraints_default_iff c (head?_default _)).mpr ⟨d, hd, rfl⟩
  range := by
    rw [mem_constraints_check_iff c c.head?_rangeCheck]
    constructor
    · rintro (⟨hsmall, -⟩ | ⟨n, -, h⟩)
      · exact hsmall
      · exact absurd h (c.rangeCheck_ne_lengthCheck n)
    · exact fun hsmall => Or.inl ⟨hsmall, rfl⟩
  length := by
    intro n
    rw [mem_constraints_check_iff c (c.head?_lengthCheck n)]
    constructor
    · rintro (⟨-, h⟩ | ⟨m, hm, h⟩)
      · exact absurd h.symm (c.rangeCheck_ne_lengthCheck n)
      · rwa [c.lengthCheck_injective h]
    · exact fun hn => Or.inr ⟨n, hn, rfl⟩

end Entity.Column

/-! ## Lines -/

namespace Entity

/-- What stands in front of a column definition. -/
def indent : List Char := "    ".toList

/-- Column definitions as lines: indented, and a comma behind each but the last. -/
def definitionLines : List (List Char) → List (List Char)
  | [] => []
  | [d] => [indent ++ d]
  | d :: ds => (indent ++ d ++ [',']) :: definitionLines ds

/-- The definition of a mapped column: its name, its type and its constraints. -/
def Column.sql (c : Entity.Column) : List Char :=
  [' '].intercalate (c.column.toList :: c.affinity.name.toList :: c.definition.constraints)

/-- The definition of a join column, which holds a key or nothing. -/
def JoinColumn.sql (j : JoinColumn) : List Char := j.name.toList ++ " INTEGER NULL".toList

/-- The definitions of all columns, the mapped ones first. -/
def definitions (e : Entity) : List (List Char) :=
  e.columns.map Column.sql ++ e.joinColumns.map JoinColumn.sql

/-- The statement that makes an index over some columns. -/
def indexSql (e : Entity) (i : Entity.Index) (columns : List String) : List Char :=
  (if i.unique then "CREATE UNIQUE INDEX IF NOT EXISTS " else "CREATE INDEX IF NOT EXISTS ").toList ++
    i.name.toList ++ " ON ".toList ++ e.table.toList ++ " (".toList ++
    ", ".toList.intercalate (columns.map String.toList) ++ ");".toList

/-- Whether nothing that an entity puts into its statements goes over a line end. -/
structure OneLine (e : Entity) : Prop where
  table : '\n' ∉ e.table.toList
  schema : ∀ s ∈ e.schema, '\n' ∉ s.toList
  columns : ∀ c ∈ e.columns, '\n' ∉ c.column.toList
  defaults : ∀ c ∈ e.columns, ∀ sql, c.default = some (.literal sql) → '\n' ∉ sql.toList
  joinColumns : ∀ j ∈ e.joinColumns, '\n' ∉ j.name.toList
  indexes : ∀ i ∈ e.indexes, '\n' ∉ i.name.toList

/-- Whether every index is over properties of the entity. -/
def IndexesDeclared (e : Entity) : Prop :=
  ∀ i ∈ e.indexes, ∀ p ∈ i.properties, ∃ c ∈ e.columns, c.property = p

/-- The statement of an index lists the column of each of its properties. -/
def Indexed (e : Entity) (i : Entity.Index) (statement : List Char) : Prop :=
  ∃ columns, statement = e.indexSql i columns ∧
    List.Forall₂ (fun p name => ∃ c, e.column? p = some c ∧ c.column = name) i.properties columns

/-- Whether a text has the statements of an entity: the lines between the parentheses are `body`, and
those of the indexes `statements`. A table without columns has a blank line in their place. -/
structure WrittenAs (e : Entity) (text : List Char) (body statements : List (List Char)) : Prop where
  layout : lines text =
    ("-- ".toList ++ e.qualifiedTable.toList) ::
      ("CREATE TABLE IF NOT EXISTS ".toList ++ e.table.toList ++ " (".toList) ::
        (body ++ ");".toList :: (statements ++ [[]]))
  definitions : body.filter (fun l => !isAllBlank l) = definitionLines e.definitions
  named : List.Forall₂ (fun name d => name.toList ++ [' '] <+: d) e.storageColumns e.definitions
  constrained : ∀ c ∈ e.columns, c.Constrained c.definition.constraints
  indexed : List.Forall₂ e.Indexed e.indexes statements

/-! ### Column definitions -/

section Definitions

variable {e : Entity} {c : Entity.Column}

theorem JoinColumn.sql_eq (j : JoinColumn) :
    j.sql = [' '].intercalate (j.name.toList :: "INTEGER".toList :: ["NULL".toList]) := by
  rw [List.intercalate_cons_cons, List.intercalate_cons_cons, List.intercalate_singleton,
    List.append_assoc]
  rfl

theorem definitions_eq (e : Entity) :
    e.definition.columns.map Store.Column.text = e.definitions := by
  have hjoin : Store.Column.text ∘ JoinColumn.definition = JoinColumn.sql :=
    funext fun j => j.sql_eq.symm
  rw [definition, List.map_append, List.map_map, List.map_map, hjoin]
  rfl

/-- Each definition begins with the name of its column. -/
theorem named_definitions (e : Entity) :
    List.Forall₂ (fun name d => name.toList ++ [' '] <+: d) e.storageColumns e.definitions := by
  rw [storageColumns, definitions]
  refine List.rel_append ?_ ?_
  · rw [List.forall₂_map_left_iff, List.forall₂_map_right_iff, List.forall₂_same]
    intro c _
    rw [Column.sql, List.intercalate_cons_cons]
    exact List.prefix_append _ _
  · rw [List.forall₂_map_left_iff, List.forall₂_map_right_iff, List.forall₂_same]
    intro j _
    rw [JoinColumn.sql_eq, List.intercalate_cons_cons]
    exact List.prefix_append _ _

theorem not_mem_affinity (a : Store.Affinity) : '\n' ∉ a.name.toList := by
  cases a <;> decide

theorem not_mem_constraint (hname : '\n' ∉ c.column.toList)
    (hdefault : ∀ sql, c.default = some (.literal sql) → '\n' ∉ sql.toList) :
    ∀ k ∈ c.definition.constraints, '\n' ∉ k := by
  intro k hk
  rcases c.mem_constraints_iff.mp hk with rfl | ⟨d, hd, rfl⟩ | ⟨-, rfl⟩ | ⟨n, -, rfl⟩
  · cases c.presence <;> decide
  · cases d with
    | literal sql => simp [Store.Default.text, hdefault sql hd]
    | now => decide
  · unfold Column.rangeCheck
    simp [hname]
  · have hdigits : '\n' ∉ digits n := fun h => absurd (isDigit_of_mem_digits h) (by decide)
    unfold Column.lengthCheck
    simp [hname, hdigits]

theorem not_mem_definition (h : e.OneLine) : ∀ d ∈ e.definitions, '\n' ∉ d := by
  rw [definitions, List.forall_mem_append]
  constructor
  · intro d hd hmem
    obtain ⟨c, hc, rfl⟩ := List.mem_map.mp hd
    have hconstraints := not_mem_constraint (h.columns c hc) (h.defaults c hc)
    rcases mem_intercalate hmem with hmem | ⟨part, hpart, hmem⟩
    · exact absurd hmem (by decide)
    · rcases List.mem_cons.mp hpart with rfl | hpart
      · exact h.columns c hc hmem
      rcases List.mem_cons.mp hpart with rfl | hpart
      · exact not_mem_affinity c.affinity hmem
      · exact hconstraints part hpart hmem
  · intro d hd hmem
    obtain ⟨j, hj, rfl⟩ := List.mem_map.mp hd
    rcases List.mem_append.mp hmem with hmem | hmem
    · exact h.joinColumns j hj hmem
    · exact absurd hmem (by decide)

/-- A definition has a type, so it is never blank. -/
theorem isAllBlank_definition (e : Entity) : ∀ d ∈ e.definitions, isAllBlank d = false := by
  have hsays : ∀ {d : List Char} {c : Char}, c ∈ d → isBlank c = false → isAllBlank d = false := by
    intro d c hc hblank
    rw [isAllBlank, List.all_eq_false]
    exact ⟨c, hc, by simp [hblank]⟩
  rw [definitions, List.forall_mem_append]
  constructor
  · intro d hd
    obtain ⟨c, -, rfl⟩ := List.mem_map.mp hd
    have hname : c.affinity.name.toList.all isBlank = false := by
      cases c.affinity <;> decide
    obtain ⟨x, hx, hblank⟩ := List.all_eq_false.mp hname
    exact hsays (mem_intercalate_of_mem (List.mem_cons_of_mem _ List.mem_cons_self) hx)
      (Bool.eq_false_iff.mpr hblank)
  · intro d hd
    obtain ⟨j, -, rfl⟩ := List.mem_map.mp hd
    have hx : 'I' ∈ " INTEGER NULL".toList := by decide
    exact hsays (List.mem_append_right _ hx) (by decide)

end Definitions

/-! ### Indexes -/

section Indexes

variable {e : Entity} {i : Entity.Index}

theorem forall₂_filterMap {α β : Type} {f : α → Option β} {xs : List α}
    (h : ∀ x ∈ xs, ∃ y, f x = some y) :
    List.Forall₂ (fun x y => f x = some y) xs (xs.filterMap f) := by
  induction xs with
  | nil => exact .nil
  | cons x xs ih =>
    rw [List.forall_mem_cons] at h
    obtain ⟨y, hy⟩ := h.1
    rw [List.filterMap_cons_some hy]
    exact .cons hy (ih h.2)

/-- No property of an index is dropped if all are declared. -/
theorem indexColumns (h : ∀ p ∈ i.properties, ∃ c ∈ e.columns, c.property = p) :
    List.Forall₂ (fun p name => ∃ c, e.column? p = some c ∧ c.column = name) i.properties
      (e.indexDefinition i).columns := by
  have hfound : ∀ p ∈ i.properties, ∃ c, e.column? p = some c := by
    intro p hp
    obtain ⟨c, hc, hproperty⟩ := h p hp
    apply Option.isSome_iff_exists.mp
    rw [column?, List.find?_isSome]
    exact ⟨c, hc, beq_iff_eq.mpr hproperty⟩
  rw [indexDefinition, List.forall₂_map_right_iff]
  exact (forall₂_filterMap hfound).imp fun p c hc => ⟨c, hc, rfl⟩

theorem indexSql_eq (e : Entity) (i : Entity.Index) :
    (e.indexDefinition i).text e.table.toList = e.indexSql i (e.indexDefinition i).columns := by
  unfold indexSql Store.Index.text Store.Index.body Store.Index.creation indexDefinition
  cases i.unique <;> simp

theorem not_mem_indexSql (h : e.OneLine) (hi : i ∈ e.indexes) :
    '\n' ∉ e.indexSql i (e.indexDefinition i).columns := by
  have hcolumns : '\n' ∉ [',', ' '].intercalate
      ((e.indexDefinition i).columns.map String.toList) := by
    intro hmem
    rcases mem_intercalate hmem with hmem | ⟨name, hname, hmem⟩
    · exact absurd hmem (by decide)
    · obtain ⟨column, hcolumn, rfl⟩ := List.mem_map.mp hname
      obtain ⟨c, hc, rfl⟩ := List.mem_map.mp hcolumn
      obtain ⟨p, -, hfind⟩ := List.mem_filterMap.mp hc
      exact h.columns c (List.mem_of_find?_eq_some hfind) hmem
  unfold indexSql
  cases i.unique <;> simp [h.indexes i hi, h.table, hcolumns]

end Indexes

/-! ### All lines -/

theorem lines_definitions {ds : List (List Char)} (h : ∀ d ∈ ds, '\n' ∉ d) :
    lines (indent ++ ",\n    ".toList.intercalate ds) =
      if ds = [] then [indent] else definitionLines ds := by
  have hindent : '\n' ∉ indent := by decide
  fun_induction definitionLines ds with
  | case1 => rfl
  | case2 d =>
    have hd := h d List.mem_cons_self
    rw [List.intercalate_singleton, if_neg (List.cons_ne_nil d [])]
    exact lines_of_not_mem (by simp [hindent, hd])
  | case3 d ds hne ih =>
    rw [List.forall_mem_cons] at h
    have hds : ds ≠ [] := fun heq => hne heq
    have hsep : ",\n    ".toList = ',' :: '\n' :: indent := by decide
    have htext : indent ++ ",\n    ".toList.intercalate (d :: ds) =
        (indent ++ d ++ [',']) ++ '\n' :: (indent ++ ",\n    ".toList.intercalate ds) := by
      rw [List.intercalate_cons_of_ne_nil hds, hsep]
      simp
    rw [htext, lines_append_cons, ih h.2, if_neg hds, if_neg (List.cons_ne_nil d ds),
      lines_of_not_mem (by simp [hindent, h.1]), List.singleton_append]

theorem isAllBlank_definitionLines {ds : List (List Char)} (h : ∀ d ∈ ds, isAllBlank d = false) :
    ∀ l ∈ definitionLines ds, isAllBlank l = false := by
  have hline : ∀ {d : List Char}, isAllBlank d = false → ∀ tail,
      isAllBlank (indent ++ d ++ tail) = false := by
    intro d hd tail
    rw [isAllBlank] at hd ⊢
    rw [List.all_append, List.all_append, hd, Bool.and_false, Bool.false_and]
  fun_induction definitionLines ds with
  | case1 => exact List.forall_mem_nil _
  | case2 d =>
    rw [List.forall_mem_singleton] at h ⊢
    exact List.append_nil (indent ++ d) ▸ hline h []
  | case3 d ds hne ih =>
    rw [List.forall_mem_cons] at h ⊢
    exact ⟨hline h.1 [','], ih h.2⟩

/-- The lines between the parentheses are those of the definitions, but for the blank one of a table
without columns. -/
theorem filter_lines_definitions {ds : List (List Char)} (h : ∀ d ∈ ds, isAllBlank d = false) :
    (if ds = [] then [indent] else definitionLines ds).filter (fun l => !isAllBlank l) =
      definitionLines ds := by
  split
  · next hnil =>
    rw [hnil]
    rfl
  · rw [List.filter_eq_self]
    intro l hl
    rw [isAllBlank_definitionLines h l hl, Bool.not_false]

theorem not_mem_qualifiedTable {e : Entity} (h : e.OneLine) : '\n' ∉ e.qualifiedTable.toList := by
  rw [qualifiedTable]
  cases hschema : e.schema with
  | none => exact h.table
  | some schema =>
    have hdot : '\n' ∉ ".".toList := by decide
    have hschema := h.schema schema hschema
    show '\n' ∉ (schema ++ "." ++ e.table).toList
    rw [String.toList_append, String.toList_append, List.mem_append, List.mem_append, not_or,
      not_or]
    exact ⟨⟨hschema, hdot⟩, h.table⟩

/-- The statement that makes the table, line by line. -/
theorem lines_tableText {e : Entity} (h : e.OneLine) :
    lines e.definition.tableText =
      ("CREATE TABLE IF NOT EXISTS ".toList ++ e.table.toList ++ " (".toList) ::
        ((if e.definitions = [] then [indent] else definitionLines e.definitions) ++
          [");".toList]) := by
  have hopen : " (\n    ".toList = " (".toList ++ '\n' :: indent := by decide
  have hclose : "\n)".toList ++ [';'] = '\n' :: ");".toList := by decide
  have htext : e.definition.tableText =
      ("CREATE TABLE IF NOT EXISTS ".toList ++ e.table.toList ++ " (".toList) ++ '\n' ::
        ((indent ++ ",\n    ".toList.intercalate e.definitions) ++ '\n' :: ");".toList) := by
    rw [← hclose, ← definitions_eq]
    unfold Store.TableDefinition.tableText Store.TableDefinition.body
    rw [hopen]
    simp [definition]
  have hhead : '\n' ∉ "CREATE TABLE IF NOT EXISTS ".toList ++ e.table.toList ++ " (".toList := by
    simp [h.table]
  rw [htext, lines_append_cons, lines_append_cons, lines_definitions (not_mem_definition h),
    lines_of_not_mem hhead, lines_of_not_mem (by decide : '\n' ∉ ");".toList)]
  rfl

/-- The statements of an entity whose names and defaults fit on lines and whose indexes are over its
own properties: a comment, the table with one storage column a line, and one line for each index over
the columns of its properties. -/
theorem ddl_written {e : Entity} (hlines : e.OneLine) (hindexes : e.IndexesDeclared) :
    ∃ body statements, e.WrittenAs e.ddl body statements := by
  refine ⟨if e.definitions = [] then [indent] else definitionLines e.definitions,
    e.indexes.map fun i => e.indexSql i (e.indexDefinition i).columns, ?_, ?_, ?_, ?_, ?_⟩
  · have hcomment : '\n' ∉ "-- ".toList ++ e.qualifiedTable.toList := by
      simp [not_mem_qualifiedTable hlines]
    have hstatements : e.definition.indexes.map (Store.Index.text e.definition.name.toList) =
        e.indexes.map fun i => e.indexSql i (e.indexDefinition i).columns := by
      rw [definition, List.map_map]
      exact List.map_congr_left fun i _ => e.indexSql_eq i
    have honeLine : ∀ s ∈ e.indexes.map fun i => e.indexSql i (e.indexDefinition i).columns,
        '\n' ∉ s := by
      intro s hs
      obtain ⟨i, hi, rfl⟩ := List.mem_map.mp hs
      exact not_mem_indexSql hlines hi
    rw [ddl, lines_append_cons, lines_of_not_mem hcomment, List.singleton_append,
      Store.TableDefinition.text, List.flatMap_cons, List.append_assoc, List.singleton_append,
      lines_append_cons, lines_tableText hlines, hstatements, lines, splitOn_flatMap honeLine]
    simp only [List.cons_append, List.append_assoc, List.nil_append]
  · exact filter_lines_definitions e.isAllBlank_definition
  · exact e.named_definitions
  · exact fun c _ => c.constrained_definition
  · rw [List.forall₂_map_right_iff, List.forall₂_same]
    exact fun i hi => ⟨_, rfl, indexColumns (hindexes i hi)⟩

/-- The entity of companies is written so, with eight columns and one index. -/
theorem company_ddl_written :
    Company.entity.OneLine ∧ Company.entity.IndexesDeclared ∧
      ∃ body statements, Company.entity.WrittenAs Company.entity.ddl body statements ∧
        Company.entity.definitions.length = 8 ∧ statements.length = 1 := by
  have hlines : Company.entity.OneLine := by
    refine ⟨by decide, by decide, by decide, ?_, by decide, by decide⟩
    simp [Company.entity]
  have hindexes : Company.entity.IndexesDeclared := by
    simp [IndexesDeclared, Company.entity]
  obtain ⟨body, statements, hwritten⟩ := ddl_written hlines hindexes
  exact ⟨hlines, hindexes, body, statements, hwritten, hwritten.named.length_eq.symm,
    hwritten.indexed.length_eq.symm⟩

end Entity

end CompanyRegister
