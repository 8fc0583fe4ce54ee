import CompanyRegister.Proofs.Source.Columns

/-!
# Decorators and their imports

Which decorators are imported is worked out from the types of the columns while they are read, and
which are written from the rules of each column when it is rendered. The two agree
(`ImportsAgree`): what is written is imported, and what is imported is written for some column, but
for the decorator on lengths, which is imported with the one on strings. A column has a length only
if it holds strings (`ColumnBlock.Sound`), so a length never lacks its import.

The names are imported in one order, that of `ValidatorImports.kinds`, each at most once.
-/

namespace CompanyRegister.Source

open Text

/-! ## What is imported -/

namespace ValidatorImports

/-- One rule of each kind, in the order in which their decorators are imported. -/
def kinds : List Rule :=
  [.isString, .maxLength 0, .isNumber, .isDateString, .isBoolean, .isOptional]

/-- Whether the decorator of a rule is imported. -/
def has (v : ValidatorImports) : Rule → Bool
  | .isString => v.string
  | .maxLength _ => v.string
  | .isNumber => v.number
  | .isDateString => v.date
  | .isBoolean => v.boolean
  | .isOptional => v.optional

theorem names_eq (v : ValidatorImports) : v.names = (kinds.filter v.has).map Rule.name := by
  have hcons : ∀ (p : Rule → Bool) (r : Rule) (rs : List Rule),
      ((r :: rs).filter p).map Rule.name =
        (if p r = true then [r.name] else []) ++ (rs.filter p).map Rule.name := by
    intro p r rs
    cases h : p r <;> simp [h]
  simp only [names, kinds, hcons, List.filter_nil, List.map_nil, List.append_nil, has]
  by_cases hstring : v.string = true
  · simp only [hstring, if_true, List.cons_append, List.nil_append, List.append_assoc]
    rfl
  · simp only [hstring, List.append_assoc]
    rfl

/-- Rules whose decorators have one name are imported together. -/
theorem has_eq_of_name_eq (v : ValidatorImports) {r k : Rule} (h : r.name = k.name) :
    v.has r = v.has k := by
  cases r <;> cases k <;> first | rfl | exact absurd (String.toList_inj.mp h) (by decide)

theorem exists_kind (r : Rule) : ∃ k ∈ kinds, k.name = r.name := by
  cases r with
  | maxLength n => exact ⟨.maxLength 0, by decide, rfl⟩
  | isOptional => exact ⟨.isOptional, by decide, rfl⟩
  | isString => exact ⟨.isString, by decide, rfl⟩
  | isNumber => exact ⟨.isNumber, by decide, rfl⟩
  | isDateString => exact ⟨.isDateString, by decide, rfl⟩
  | isBoolean => exact ⟨.isBoolean, by decide, rfl⟩

theorem name_mem_names {v : ValidatorImports} {r : Rule} :
    r.name ∈ v.names ↔ v.has r = true := by
  rw [names_eq, List.mem_map]
  constructor
  · rintro ⟨k, hk, hname⟩
    rw [← v.has_eq_of_name_eq hname]
    exact (List.mem_filter.mp hk).2
  · intro h
    obtain ⟨k, hk, hname⟩ := exists_kind r
    rw [← v.has_eq_of_name_eq hname] at h
    exact ⟨k, List.mem_filter.mpr ⟨hk, h⟩, hname⟩

theorem names_sublist (v : ValidatorImports) : v.names.Sublist (kinds.map Rule.name) := by
  rw [names_eq]
  exact List.filter_sublist.map Rule.name

/-- Every name that is imported is that of a rule. -/
theorem exists_rule {v : ValidatorImports} {n : List Char} (hn : n ∈ v.names) :
    ∃ r : Rule, r.name = n := by
  obtain ⟨r, -, hr⟩ := List.mem_map.mp (v.names_sublist.subset hn)
  exact ⟨r, hr⟩

theorem nodup_names (v : ValidatorImports) : v.names.Nodup :=
  v.names_sublist.nodup (by decide)

/-! ## What columns need -/

/-- The imports of a single column. -/
def ofColumn (c : ColumnBlock) : ValidatorImports := register {} c.type c.optional

theorem has_register (v : ValidatorImports) (c : ColumnBlock) (r : Rule) :
    (v.register c.type c.optional).has r = (v.has r || (ofColumn c).has r) := by
  cases r <;> simp [register, has, ofColumn]

/-- A decorator is imported exactly if some column needs it, whatever the order of the columns. -/
theorem has_usedBy (cs : List ColumnBlock) (r : Rule) :
    (usedBy cs).has r = cs.any fun c => (ofColumn c).has r := by
  have hfold : ∀ v : ValidatorImports,
      (cs.foldl (fun v c => v.register c.type c.optional) v).has r =
        (v.has r || cs.any fun c => (ofColumn c).has r) := by
    induction cs with
    | nil => simp
    | cons c cs ih =>
      intro v
      rw [List.foldl_cons, ih, has_register, List.any_cons, Bool.or_assoc]
  have hnone : ({} : ValidatorImports).has r = false := by cases r <;> rfl
  rw [usedBy, hfold, hnone, Bool.false_or]

end ValidatorImports

/-! ## What is written -/

namespace ColumnBlock

open ValidatorImports

theorem mem_rules_iff {c : ColumnBlock} {r : Rule} :
    r ∈ c.rules ↔ r = .isOptional ∧ c.optional = true ∨ c.type.rule? = some r ∨
      ∃ n, c.maxLength = some n ∧ r = .maxLength n := by
  rw [rules, List.mem_append, List.mem_append, Option.mem_toList, Option.mem_toList]
  cases c.optional <;> cases c.maxLength <;> simp [eq_comm, or_assoc]

/-- A column needs the decorator of every rule it has. -/
theorem has_of_mem_rules {c : ColumnBlock} (hc : c.Sound) {r : Rule} (h : r ∈ c.rules) :
    (ofColumn c).has r = true := by
  rcases mem_rules_iff.mp h with ⟨rfl, hoptional⟩ | htype | ⟨n, hn, rfl⟩
  · exact hoptional
  · revert htype
    cases ht : c.type with
    | other => intro h; cases h
    | string | number | date | boolean =>
      intro h
      cases h
      simp [ofColumn, register, has, ht]
  · have ht : c.type = .string := by
      by_contra hne
      rw [hc.length hne] at hn
      cases hn
    simp [ofColumn, register, has, ht]

/-- A column has a rule for every decorator it needs, except for a length. -/
theorem exists_rule_of_has {c : ColumnBlock} {k : Rule} (h : (ofColumn c).has k = true)
    (hlength : k.name ≠ (Rule.maxLength 0).name) : ∃ r ∈ c.rules, r.name = k.name := by
  refine ⟨k, mem_rules_iff.mpr ?_, rfl⟩
  cases k with
  | maxLength n => exact absurd rfl hlength
  | isOptional => exact Or.inl ⟨rfl, h⟩
  | isString | isNumber | isDateString | isBoolean =>
    refine Or.inr (Or.inl ?_)
    revert h
    cases ht : c.type <;> simp [ofColumn, register, has, ht, ColumnType.rule?]

end ColumnBlock

/-! ## Agreement -/

/-- Names that are imported and names of the decorators that are put in agree. -/
structure ImportsAgree (names put : List (List Char)) : Prop where
  imported : ∀ n ∈ put, n ∈ names
  inserted : ∀ n ∈ names, n ≠ (Rule.maxLength 0).name → n ∈ put
  maxLength : (Rule.maxLength 0).name ∈ names ↔ Rule.isString.name ∈ names
  nodup : names.Nodup
  ordered : names.Sublist (ValidatorImports.kinds.map Rule.name)

theorem importsAgree_usedBy {columns : List ColumnBlock} (h : ∀ c ∈ columns, c.Sound) :
    ImportsAgree (usedBy columns).names (columns.flatMap fun c => c.rules.map Rule.name) where
  imported := by
    intro n hn
    obtain ⟨c, hc, hn⟩ := List.mem_flatMap.mp hn
    obtain ⟨r, hr, rfl⟩ := List.mem_map.mp hn
    rw [ValidatorImports.name_mem_names, ValidatorImports.has_usedBy, List.any_eq_true]
    exact ⟨c, hc, ColumnBlock.has_of_mem_rules (h c hc) hr⟩
  inserted := by
    intro n hn hlength
    rw [ValidatorImports.names_eq, List.mem_map] at hn
    obtain ⟨k, hk, rfl⟩ := hn
    have hhas := (List.mem_filter.mp hk).2
    rw [ValidatorImports.has_usedBy, List.any_eq_true] at hhas
    obtain ⟨c, hc, hneeds⟩ := hhas
    exact List.mem_flatMap.mpr
      ⟨c, hc, List.mem_map.mpr (ColumnBlock.exists_rule_of_has hneeds hlength)⟩
  maxLength := by
    rw [ValidatorImports.name_mem_names, ValidatorImports.name_mem_names]
    rfl
  nodup := ValidatorImports.nodup_names _
  ordered := ValidatorImports.names_sublist _

end CompanyRegister.Source
