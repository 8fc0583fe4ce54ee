import CompanyRegister.Proofs.Source.Rendering

/-!
# Imports and decorators of an annotated source

What an annotated source imports is read from its lines: from a line such as

    `import { IsString, MaxLength } from 'class-validator';`

the names between the braces (`importedNames?`), and from the line of a decorator its name
(`decoratorName?`). The lines themselves are known (`lines_assemble`), and each column has lines of
its own, the decorators that are put in, and its field line (`ColumnLayout`). So the agreement of
imports and rules (`importsAgree_usedBy`) is one of what is read from the text that is written.
-/

namespace CompanyRegister.Source

open Text

/-! ## What is read from a line -/

/-- The names that a line imports from a module, if it is an import statement for that module. -/
def importedNames? (origin line : List Char) : Option (List (List Char)) :=
  match after? "import \x7b".toList line with
  | none => none
  | some rest =>
    match cut? ['\x7d'] rest with
    | none => none
    | some (names, rest) =>
      if rest = " from '".toList ++ origin ++ "';".toList then
        some (((names.splitOn ',').map trim).filter fun n => !n.isEmpty)
      else none

/-- The name of the decorator on a line, if there is one. -/
def decoratorName? (line : List Char) : Option (List Char) :=
  match cut? ['('] (trimStart line) with
  | some ('@' :: name, _) => some name
  | _ => none

/-- The module that the decorators are imported from. -/
def validatorOrigin : List Char := "class-validator".toList

theorem names_ne_nil {v : ValidatorImports} : ∀ n ∈ v.names, n ≠ [] := by
  intro n hn
  obtain ⟨r, rfl⟩ := ValidatorImports.exists_rule hn
  cases r <;> exact List.cons_ne_nil _ _

/-- What stands between the braces of a statement is read as its names. -/
theorem filter_map_trim_names (v : ValidatorImports) :
    ((([' '] ++ ([',', ' '].intercalate v.names ++ [' '])).splitOn ',').map trim).filter
      (fun n => !n.isEmpty) = v.names := by
  by_cases hnone : v.names = []
  · rw [hnone]
    rfl
  · have hread := map_trim_splitOn (c := ',') [' '] [] [' '] [' '] (by decide) (by decide) hnone
      (plain_names v)
    rw [List.nil_append] at hread
    rw [hread]
    apply List.filter_eq_self.mpr
    intro n hn
    cases n with
    | nil => exact absurd rfl (names_ne_nil [] hn)
    | cons c n => rfl

/-- The names of an import statement are read back. -/
theorem importedNames?_statement (v : ValidatorImports) :
    importedNames? validatorOrigin v.statement = some v.names := by
  have hbrace : '\x7d' ∉ [' '] ++ ([',', ' '].intercalate v.names ++ [' ']) := by
    simp [not_mem_joinedNames (c := '\x7d') (by decide) (by decide) v]
  have hopen : "import \x7b ".toList = "import \x7b".toList ++ [' '] := by simp
  have hclose : " \x7d from 'class-validator';".toList =
      [' '] ++ '\x7d' :: " from 'class-validator';".toList := by simp
  have hstatement : v.statement = "import \x7b".toList ++
      ([' '] ++ ([',', ' '].intercalate v.names ++ [' ']) ++
        '\x7d' :: " from 'class-validator';".toList) := by
    have hparts : v.statement = "import \x7b".toList ++ [' '] ++ [',', ' '].intercalate v.names ++
        ([' '] ++ '\x7d' :: " from 'class-validator';".toList) :=
      congrArg₂ (· ++ [',', ' '].intercalate v.names ++ ·) hopen hclose
    rw [hparts]
    simp only [List.append_assoc]
  have hfrom : " from 'class-validator';".toList =
      " from '".toList ++ validatorOrigin ++ "';".toList := by
    unfold validatorOrigin
    simp
  rw [importedNames?, after?_eq_some_iff.mpr hstatement]
  dsimp only
  rw [cut?_append_cons hbrace]
  dsimp only
  rw [if_pos hfrom, filter_map_trim_names]

/-- The decorator of a rule is read behind any indent. -/
theorem decoratorName?_text {indent : List Char} (hindent : isAllBlank indent = true) (r : Rule) :
    decoratorName? (indent ++ r.text) = some r.name := by
  have htrim : trimStart (indent ++ r.text) = r.text :=
    dropWhile_append_of_head? (List.all_eq_true.mp hindent) (isBlank_of_head?_cons (by decide))
  have hparen : '(' ∉ '@' :: r.name := by
    rw [List.mem_cons, not_or]
    exact ⟨by decide, not_mem_of_forall isPlain_of_mem_ruleName (by decide)⟩
  have hcut : cut? ['('] r.text = some ('@' :: r.name, r.argument ++ [')']) :=
    cut?_append_cons hparen (r.argument ++ [')'])
  rw [decoratorName?, htrim, hcut]
  rfl

/-! ## Columns line by line -/

/-- A column as it stands in an annotated source: lines of its own, the lines that are put in, and
the field line. -/
structure ColumnLayout where
  above : List (List Char)
  inserted : List (List Char)
  field : List Char

def ColumnLayout.lines (w : ColumnLayout) : List (List Char) := w.above ++ w.inserted ++ [w.field]

/-- Whether a column is laid out so: its lines stay, but for short ones at the end, the last of them
is edited as its field line, and the decorators of its rules are put in front of that. -/
def ColumnLayout.Of (c : ColumnBlock) (w : ColumnLayout) : Prop :=
  ∃ field shorts, c.lines = w.above ++ field :: shorts ∧ (∀ s ∈ shorts, isShort s = true) ∧
    w.inserted = c.rules.map (fun r => field.takeWhile isBlank ++ r.text) ∧
    w.field = c.renderField field

theorem exists_layout {c : ColumnBlock} (hc : c.Sound) :
    ∃ w, ColumnLayout.Of c w ∧ c.renderLines = w.lines := by
  obtain ⟨field, hfield, -⟩ := hc.field
  obtain ⟨above, shorts, hlines, hshort, hshorts⟩ := exists_of_getLast?_dropShortTail hfield
  exact ⟨⟨above, _, _⟩, ⟨field, shorts, hlines, hshorts, rfl, rfl⟩,
    ColumnBlock.renderLines_of_lines hlines hshort hshorts⟩

theorem exists_layouts {columns : List ColumnBlock} (h : ∀ c ∈ columns, c.Sound) :
    ∃ ws, List.Forall₂ ColumnLayout.Of columns ws ∧
      columns.flatMap (fun c => c.renderLines ++ [[]]) = ws.flatMap fun w => w.lines ++ [[]] := by
  induction columns with
  | nil => exact ⟨[], .nil, rfl⟩
  | cons c columns ih =>
    rw [List.forall_mem_cons] at h
    obtain ⟨w, hw, hlines⟩ := exists_layout h.1
    obtain ⟨ws, hws, hrest⟩ := ih h.2
    refine ⟨w :: ws, .cons hw hws, ?_⟩
    rw [List.flatMap_cons, List.flatMap_cons, hlines, hrest]

theorem names_of_layout {c : ColumnBlock} {w : ColumnLayout} (h : ColumnLayout.Of c w) :
    w.inserted.map decoratorName? = (c.rules.map Rule.name).map some := by
  obtain ⟨field, shorts, -, -, hinserted, -⟩ := h
  rw [hinserted, List.map_map, List.map_map]
  exact List.map_congr_left fun r _ => decoratorName?_text List.all_takeWhile r

/-- The decorators that are put in are those of the rules. -/
theorem names_of_layouts {columns : List ColumnBlock} {ws : List ColumnLayout}
    (h : List.Forall₂ ColumnLayout.Of columns ws) :
    (ws.flatMap ColumnLayout.inserted).map decoratorName? =
      (columns.flatMap fun c => c.rules.map Rule.name).map some := by
  induction h with
  | nil => rfl
  | cons hw _ ih =>
    rw [List.flatMap_cons, List.flatMap_cons, List.map_append, List.map_append,
      names_of_layout hw, ih]

/-! ## Agreement -/

/-- An annotated source has the lines of its imports, one import statement more, and its columns
with decorators put in; the names read from that statement agree with those read from these
decorators. -/
theorem annotate_imports_agree {o : Options} {source out : List Char}
    (h : annotate o source = .ok out) :
    ∃ columns ws line names put, readColumns o source = .ok columns ∧
      List.Forall₂ ColumnLayout.Of columns ws ∧
      lines out = lines (filterImports (importBlock (sourceBlocks source))) ++ line :: [] ::
        (ws.flatMap (fun w => w.lines ++ [[]]) ++ [['\x7d']]) ∧
      importedNames? validatorOrigin line = some names ∧
      (ws.flatMap ColumnLayout.inserted).map decoratorName? = put.map some ∧
      ImportsAgree names put := by
  rw [annotate] at h
  cases hread : readColumns o source with
  | error f =>
    rw [hread] at h
    cases h
  | ok columns =>
    rw [hread] at h
    cases h
    have hsound := sound_of_readColumns hread
    obtain ⟨ws, hws, hlines⟩ := exists_layouts hsound
    refine ⟨columns, ws, _, _, _, rfl, hws, ?_, importedNames?_statement (usedBy columns),
      names_of_layouts hws, importsAgree_usedBy hsound⟩
    rw [lines_assemble hsound (linewise_of_readColumns hread), hlines]

/-- A number, then a text that may be missing, at the end of a class. -/
def twoColumns : List Char :=
  "@Column()\nrank: number;\n\n@Column()\nlabel: string | null;\n\x7d".toList

def rankColumn : ColumnBlock where
  lines := ["@Column()", "rank: number;"].map String.toList
  property := "rank".toList
  type := .number
  optional := false
  maxLength := none
  default := none

def labelColumn : ColumnBlock where
  lines := ["@Column()", "label: string | null;", "\x7d"].map String.toList
  property := "label".toList
  type := .string
  optional := true
  maxLength := none
  default := none

theorem readColumns_twoColumns :
    readColumns .standard twoColumns = .ok [rankColumn, labelColumn] := by
  rfl

theorem annotate_twoColumns :
    annotate .standard twoColumns = .ok (assemble [] [rankColumn, labelColumn]) ∧
      ImportsAgree (["IsString", "MaxLength", "IsNumber", "IsOptional"].map String.toList)
        (["IsNumber", "IsOptional", "IsString"].map String.toList) := by
  have h : annotate .standard twoColumns = .ok (assemble [] [rankColumn, labelColumn]) := by
    rw [annotate, readColumns_twoColumns]
    rfl
  obtain ⟨columns, ws, line, names, put, hcolumns, hws, hlines, hnames, hput, hagree⟩ :=
    annotate_imports_agree h
  cases readColumns_twoColumns.symm.trans hcolumns
  have hline : line = (usedBy [rankColumn, labelColumn]).statement := by
    have hkept : lines (filterImports (importBlock (sourceBlocks twoColumns))) = [[]] := by rfl
    have hout : (lines (assemble [] [rankColumn, labelColumn])).head? = some [] ∧
        (lines (assemble [] [rankColumn, labelColumn])).tail.head? =
          some (usedBy [rankColumn, labelColumn]).statement := by decide +kernel
    rw [hlines, hkept] at hout
    exact Option.some.inj hout.2
  rw [hline, importedNames?_statement] at hnames
  rw [names_of_layouts hws] at hput
  cases hnames
  have hput' := List.map_injective_iff.mpr (fun _ _ => Option.some.inj) hput
  rw [← hput'] at hagree
  exact ⟨h, hagree⟩

end CompanyRegister.Source
