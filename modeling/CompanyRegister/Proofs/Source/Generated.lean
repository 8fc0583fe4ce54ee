import CompanyRegister.Proofs.Source.Columns
import CompanyRegister.Proofs.Source.Fields

/-!
# Columns as they are generated

What a generator writes for a column is read back as that column, whatever it is made of
(`parse_column`): the property and the type of its field, whether its value may be missing, the
length of a string, and the default unless it is a function of the database. Rendering adds the
decorators of its rules, rewrites the field line and keeps the rest (`renderLines_column`).

    GeneratedColumn ──text──▶ block ──ColumnBlock.parse──▶ ColumnBlock ──render──▶ block
-/

namespace CompanyRegister.Source

open Text

/-- How the entries of a column are laid out: all on one line, or each on a line of its own,
indented by `step` more than the decorator, with a comma behind the last one or without. -/
inductive Layout
  | oneLine
  | entryPerLine (step : Nat) (lastComma : Bool)
  deriving DecidableEq, Repr

/-- What a generator knows about a column. -/
structure GeneratedColumn where
  indent : Nat
  sqlType : PlainWord
  name : PlainWord
  nullable : Bool
  length : Option (Fin 4294967296)
  default : Option DefaultValue
  layout : Layout
  property : Property
  union : TypeUnion

namespace GeneratedColumn

def otherEntries (g : GeneratedColumn) : List Entry :=
  .name g.name :: ((if g.nullable then [.nullable] else []) ++ (g.length.map Entry.length).toList)

def entries (g : GeneratedColumn) : List Entry :=
  g.otherEntries ++ (g.default.map Entry.default).toList

def decoratorLines (g : GeneratedColumn) : List (List Char) :=
  match g.layout with
  | .oneLine =>
    [indented g.indent (object (opening g.sqlType) (' ' :: (joinedText g.entries ++ [' '])))]
  | .entryPerLine step lastComma =>
    indented g.indent (opening g.sqlType ++ ['\x7b']) ::
      (entryLines (g.indent + step) lastComma g.entries ++ [indented g.indent ['\x7d', ')']])

def fieldLine (g : GeneratedColumn) : List Char :=
  indented g.indent (fieldText g.property false g.union none)

/-- The block that a generator writes for a column. -/
def text (g : GeneratedColumn) : List Char := unlines (g.decoratorLines ++ [g.fieldLine])

/-- The column that a generator means. -/
def column (o : Options) (g : GeneratedColumn) : ColumnBlock where
  lines := g.decoratorLines ++ [g.fieldLine]
  property := g.property.chars
  type := g.union.type
  optional := g.union.hasMissing
  maxLength := if g.union.type = .string then g.length.map Fin.val else none
  default := g.default.bind (DefaultValue.kept o)

variable (o : Options) (g : GeneratedColumn)

/-! ## Entries -/

theorem isDefault_of_mem_otherEntries : ∀ w ∈ g.otherEntries, w.isDefault = false := by
  intro w hw
  rw [otherEntries, List.mem_cons, List.mem_append, Option.mem_toList,
    Option.map_eq_some_iff] at hw
  rcases hw with rfl | hw | ⟨n, -, rfl⟩
  · rfl
  · split at hw
    · rw [List.mem_singleton.mp hw]
      rfl
    · cases hw
  · rfl

theorem findSome?_otherEntries : g.otherEntries.findSome? Entry.length? = g.length := by
  rw [otherEntries]
  cases g.nullable <;> cases g.length <;> rfl

/-- Line by line the entries come to the length, if the column holds strings, and the default. -/
theorem foldl_addTo_entries (type : ColumnType) :
    g.entries.foldl (Entry.addTo o type) {} =
      ⟨if type = .string then g.length.map Fin.val else none,
        g.default.bind (DefaultValue.kept o)⟩ := by
  rw [entries, otherEntries, List.foldl_append, List.foldl_cons, List.foldl_append]
  cases g.nullable <;> cases g.length <;> cases g.default <;> by_cases h : type = .string <;>
    simp [Entry.addTo, h]

/-- A default that is kept is never empty. -/
theorem filter_kept (d : Option DefaultValue) :
    (d.bind (DefaultValue.kept o)).filter (· ≠ []) = d.bind (DefaultValue.kept o) := by
  cases d with
  | none => rfl
  | some value =>
    rw [Option.bind_some, DefaultValue.kept]
    split
    · rfl
    · simp [value.ne_nil]

/-! ## Lines -/

theorem readLines_decoratorLines (type : ColumnType) :
    Entries.readLines o type {} g.decoratorLines =
      .ok ⟨if type = .string then g.length.map Fin.val else none,
        g.default.bind (DefaultValue.kept o)⟩ := by
  have hother := g.isDefault_of_mem_otherEntries
  cases hlayout : g.layout with
  | oneLine =>
    rw [decoratorLines, hlayout, Entries.readLines, entries]
    cases hdefault : g.default with
    | none =>
      rw [Option.map_none, Option.toList_none, List.append_nil, readLine_object g.sqlType hother,
        findSome?_otherEntries]
      rfl
    | some value =>
      rw [Option.map_some, Option.toList_some, readLine_object_default g.sqlType hother,
        findSome?_otherEntries]
      rfl
  | entryPerLine step lastComma =>
    rw [decoratorLines, hlayout, Entries.readLines, readLine_opening]
    show Entries.readLines o type {}
      (entryLines (g.indent + step) lastComma g.entries ++ [indented g.indent ['\x7d', ')']]) = _
    rw [readLines_append _ _ (readLines_entryLines g.entries (g.indent + step) lastComma {}),
      foldl_addTo_entries, Entries.readLines, readLine_closing]
    rfl

theorem not_mem_decoratorLines : ∀ l ∈ g.decoratorLines, '\n' ∉ l := by
  have hopening : '\n' ∉ opening g.sqlType := not_mem_opening g.sqlType (by decide)
  cases hlayout : g.layout with
  | oneLine =>
    have hjoined : '\n' ∉ joinedText g.entries :=
      not_mem_of_forall (forall_mem_joinedText (by decide) (by decide)
        fun w _ => isOptionChar_of_mem_text) (by decide)
    rw [decoratorLines, hlayout, List.forall_mem_singleton]
    exact not_mem_indented (by decide) (by simp [object, hopening, hjoined])
  | entryPerLine step lastComma =>
    rw [decoratorLines, hlayout, List.forall_mem_cons, List.forall_mem_append,
      List.forall_mem_singleton]
    refine ⟨not_mem_indented (by decide) (by simp [hopening]), fun l hl => ?_,
      not_mem_indented (by decide) (by decide)⟩
    obtain ⟨w, -, b, rfl⟩ := exists_of_mem_entryLines hl
    have htext : '\n' ∉ w.text := not_mem_of_forall isOptionChar_of_mem_text (by decide)
    have hcomma : '\n' ∉ comma b := fun h => absurd (eq_of_mem_comma h) (by decide)
    exact not_mem_indented (by decide) (by simp [htext, hcomma])

theorem not_mem_fieldLine : '\n' ∉ g.fieldLine := by
  have hhead := not_mem_fieldHead g.property false g.union (c := '\n') (by decide)
  exact not_mem_indented (by decide) (by simp [fieldText, hhead])

/-- The block begins with the decorator. -/
theorem isAllBlank_of_head? :
    ∀ l ∈ (g.decoratorLines ++ [g.fieldLine]).head?, isAllBlank l = false := by
  have hfirst : ∃ text rest, g.decoratorLines = indented g.indent ('@' :: text) :: rest := by
    rw [decoratorLines]
    cases g.layout with
    | oneLine => exact ⟨_, _, rfl⟩
    | entryPerLine step lastComma => exact ⟨_, _, rfl⟩
  obtain ⟨text, rest, hlines⟩ := hfirst
  rw [hlines]
  rintro l ⟨⟩
  rw [isAllBlank, List.all_eq_false]
  exact ⟨'@', by simp [indented], by decide⟩

theorem isShort_fieldLine : isShort g.fieldLine = false := by
  have hcolon : ':' ∈ g.fieldLine := by simp [fieldLine, indented, fieldText, fieldHead]
  have hsemicolon : ';' ∈ g.fieldLine := by simp [fieldLine, indented, fieldText]
  exact isShort_eq_false hcolon hsemicolon (by decide) (by decide) (by decide)

theorem dropShortTail_lines :
    dropShortTail (g.column o).lines = g.decoratorLines ++ [g.fieldLine] :=
  dropShortTail_append g.isShort_fieldLine (by simp)

/-! ## The column -/

theorem parse_column : ColumnBlock.parse o g.text = .ok (g.column o) := by
  have hlines : ∀ l ∈ g.decoratorLines ++ [g.fieldLine], '\n' ∉ l := List.forall_mem_append.mpr
    ⟨g.not_mem_decoratorLines, List.forall_mem_singleton.mpr g.not_mem_fieldLine⟩
  have hfield : trim g.fieldLine = fieldText g.property false g.union none :=
    trim_fieldText g.indent g.property g.union
  have hentries : Entries.readLines o g.union.type {} (g.decoratorLines ++ [g.fieldLine]) =
      .ok ⟨(g.column o).maxLength, (g.column o).default⟩ := by
    rw [readLines_append _ _ (g.readLines_decoratorLines o g.union.type), Entries.readLines,
      readLine_of_isSilent hfield (isSilent_fieldText g.property g.union)]
    rfl
  rw [text, ColumnBlock.parse_unlines hlines g.isAllBlank_of_head? g.isShort_fieldLine
    (declaration_parse_fieldText g.indent g.property g.union), hentries]
  simp only [column, filter_kept]

theorem renderLines_column :
    (g.column o).renderLines =
      g.decoratorLines ++ (g.column o).rules.map (fun r => indented g.indent r.text) ++
        [indented g.indent
          (fieldText g.property g.union.hasMissing g.union (g.column o).default)] := by
  have hindent : g.fieldLine.takeWhile isBlank = List.replicate g.indent ' ' :=
    takeWhile_indented (head?_fieldText g.property false g.union none)
  have hfield := renderField_fieldText (g.column o) g.indent g.property g.union
  rw [ColumnBlock.renderLines, dropShortTail_lines, List.getLast?_concat, List.dropLast_concat]
  show g.decoratorLines ++ (g.column o).rules.map
    (fun r => g.fieldLine.takeWhile isBlank ++ r.text) ++ [(g.column o).renderField g.fieldLine] = _
  rw [hindent]
  exact congrArg (_ ++ [·]) hfield

/-- What a generator writes for a column is read as that column, and rendered with the decorators of
its rules and, at the end, the field line that the generator would have written with the question
mark and the initial value. -/
theorem parse_and_render :
    ColumnBlock.parse o g.text = .ok (g.column o) ∧
      (g.column o).render = unlines (g.decoratorLines ++
        (g.column o).rules.map (fun r => indented g.indent r.text) ++
        [indented g.indent
          (fieldText g.property g.union.hasMissing g.union (g.column o).default)]) :=
  ⟨g.parse_column o, congrArg unlines (g.renderLines_column o)⟩

/-- A text of at most 200 characters that may be missing. -/
def folderLocation : GeneratedColumn where
  indent := 2
  sqlType := ⟨"varchar".toList, List.all_eq_true.mp (by decide)⟩
  name := ⟨"FolderLocation".toList, List.all_eq_true.mp (by decide)⟩
  nullable := true
  length := some 200
  default := some ⟨"'x'".toList, by decide, List.all_eq_true.mp (by decide)⟩
  layout := .oneLine
  property := ⟨'f', "olderLocation".toList, by decide, List.all_eq_true.mp (by decide), by decide⟩
  union := ⟨[], .string, [.null]⟩

example : (ColumnBlock.parse .standard folderLocation.text).map ColumnBlock.renderLines = .ok
    ["  @Column(\"varchar\", \x7b name: \"FolderLocation\", nullable: true, length: 200, ".toList ++
      "default: () => \"('x')\" \x7d)".toList,
    "  @IsOptional()".toList, "  @IsString()".toList, "  @MaxLength(200)".toList,
    "  folderLocation?: string | null = 'x';".toList] := by
  decide +kernel

end GeneratedColumn

end CompanyRegister.Source
