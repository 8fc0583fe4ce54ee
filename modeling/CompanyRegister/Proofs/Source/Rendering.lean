import CompanyRegister.Proofs.Source.Decorators
import CompanyRegister.Proofs.Text.Plain

/-!
# Lines of an annotated source

Rendering adds no character of a line end, so a block in which one is lacking lacks it when it is
rendered (`ColumnBlock.Lacks`). Nothing that is read from the lines of a block goes over a line end
(`ColumnBlock.Linewise`), and therefore the lines of the rendered text are those that the block is
rendered as (`lines_render`). With them the lines of a whole annotated source are known
(`lines_assemble`): the lines of the imports that stay, the one that brings in the decorators, and
the columns with an empty line behind each.
-/

namespace CompanyRegister.Source

open Text

/-! ## Parts of a line -/

theorem mem_of_mem_splitDefault {line : List Char} {c : Char} (h : c ∈ (splitDefault line).2) :
    c ∈ line := by
  rw [splitDefault] at h
  split at h
  · next head tail hcut =>
    rw [eq_of_cut? hcut]
    exact List.mem_append_right _ (mem_of_mem_strip h)
  · cases h

namespace Entries

/-- A default is part of a line, and lacks what the lines lack. -/
theorem not_mem_readLines {c : Char} {o : Options} {type : ColumnType} {e e' : Entries}
    {ls : List (List Char)} (hls : ∀ l ∈ ls, c ∉ l) (he : ∀ v ∈ e.default, c ∉ v)
    (h : readLines o type e ls = .ok e') : ∀ v ∈ e'.default, c ∉ v := by
  induction ls generalizing e with
  | nil =>
    cases h
    exact he
  | cons l ls ih =>
    rw [readLines] at h
    split at h
    case h_2 => cases h
    next e'' hl =>
    refine ih (fun l' hl' => hls l' (List.mem_cons_of_mem l hl')) (fun v hv => ?_) h
    rw [Option.mem_def, default_readLine hl] at hv
    split at hv
    · split at hv
      · cases hv
      · cases hv
        exact fun hmem => hls l List.mem_cons_self
          (mem_of_mem_strip (mem_of_mem_splitDefault hmem))
    · exact he v hv

end Entries

/-! ## Rendered blocks -/

/-- The characters that line ends are made of. -/
def lineEnds : List Char := ['\n', '\r']

theorem not_mem_of_mem_lineEnds {c : Char} (hc : c ∈ lineEnds) {text : List Char}
    (h : lineEnds.all (fun d => !text.contains d) = true) : c ∉ text := by
  have hc' := List.all_eq_true.mp h c hc
  simpa using hc'

theorem not_isPlain_lineEnd {c : Char} (hc : c ∈ lineEnds) : isPlain c = false := by
  simp only [lineEnds, List.mem_cons, List.not_mem_nil, or_false] at hc
  rcases hc with rfl | rfl <;> decide

theorem isPlain_of_mem_ruleName {r : Rule} : ∀ c ∈ r.name, isPlain c = true := by
  apply List.all_eq_true.mp
  cases r with
  | maxLength n =>
    show "MaxLength".toList.all isPlain = true
    decide
  | _ => decide

namespace ColumnBlock

/-- A character that is in no line of the block and in no default of it. -/
structure Lacks (c : Char) (b : ColumnBlock) : Prop where
  lines : ∀ l ∈ b.lines, c ∉ l
  default : ∀ v ∈ b.default, c ∉ v

/-- No line of the block and no default of it goes over a line end. -/
structure Linewise (b : ColumnBlock) : Prop where
  lines : ∀ l ∈ b.lines, '\n' ∉ l
  default : ∀ v ∈ b.default, '\n' ∉ v

theorem Linewise.lacks {b : ColumnBlock} (h : b.Linewise) : b.Lacks '\n' := ⟨h.lines, h.default⟩

theorem mem_of_mem_dropShortTail {ls : List (List Char)} {l : List Char}
    (h : l ∈ dropShortTail ls) : l ∈ ls := by
  rw [dropShortTail, List.mem_reverse] at h
  exact List.mem_reverse.mp ((List.dropWhile_sublist isShort).subset h)

section Lacks

variable {c : Char} {o : Options} {block : List Char} {b : ColumnBlock}

theorem lacks_of_parse (hblock : ∀ l ∈ Text.lines block, c ∉ l) (h : parse o block = .ok b) :
    b.Lacks c := by
  obtain ⟨hlines, line, e, -, -, he, -, hdefault⟩ := parse_eq_ok_iff.mp h
  have hmem : ∀ l ∈ b.lines, c ∉ l := by
    intro l hl
    rw [hlines] at hl
    exact hblock l ((List.dropWhile_sublist isAllBlank).subset hl)
  refine ⟨hmem, fun v hv => ?_⟩
  have hbody : ∀ l ∈ dropShortTail b.lines, c ∉ l :=
    fun l hl => hmem l (mem_of_mem_dropShortTail hl)
  rw [Option.mem_def, hdefault, Option.filter_eq_some_iff] at hv
  exact Entries.not_mem_readLines hbody (by simp) he v hv.1

theorem lacks_stripIndex (h : b.Lacks c) : b.stripIndex.Lacks c := by
  rw [stripIndex]
  split
  · exact ⟨fun l hl => h.lines l ((List.dropWhile_sublist _).subset hl), h.default⟩
  · exact h

theorem linewise_of_parse (h : parse o block = .ok b) : b.Linewise := by
  have hlacks : b.Lacks '\n' := lacks_of_parse (fun _ => not_mem_of_mem_splitOn) h
  exact ⟨hlacks.lines, hlacks.default⟩

theorem linewise_stripIndex (h : b.Linewise) : b.stripIndex.Linewise :=
  ⟨(lacks_stripIndex h.lacks).lines, (lacks_stripIndex h.lacks).default⟩

theorem not_mem_markOptional (hc : c ∈ lineEnds) {line : List Char} (h : c ∉ line) :
    c ∉ markOptional line := by
  have hmark : c ∉ ['?', ':'] := by
    intro hmem
    simp only [List.mem_cons, List.not_mem_nil, or_false] at hmem
    rcases hmem with rfl | rfl <;> exact absurd hc (by decide)
  rw [markOptional]
  split
  · next name rest hcut =>
    rw [eq_of_cut? hcut] at h
    split
    · exact eq_of_cut? hcut ▸ h
    · simp only [List.mem_append, List.mem_cons, List.not_mem_nil, or_false, not_or] at h hmark ⊢
      exact ⟨h.1.1, hmark.1, hmark.2, h.2⟩
  · exact h

theorem not_mem_renderField (hc : c ∈ lineEnds) (hb : b.Lacks c) {line : List Char}
    (h : c ∉ line) : c ∉ b.renderField line := by
  have hmarked : c ∉ if b.optional then markOptional line else line := by
    split
    · exact not_mem_markOptional hc h
    · exact h
  have hequals : c ∉ " = ".toList := not_mem_of_mem_lineEnds hc (by decide)
  have hsemicolon : c ∉ [';'] := not_mem_of_mem_lineEnds hc (by decide)
  rw [renderField]
  cases hdefault : b.default with
  | none => exact hmarked
  | some v =>
    simp only [initialise, List.mem_append, not_or]
    exact ⟨⟨⟨fun hmem => hmarked (mem_of_mem_dropEndWhile hmem), hequals⟩,
      hb.default v hdefault⟩, hsemicolon⟩

theorem not_mem_ruleText (hc : c ∈ lineEnds) (r : Rule) : c ∉ r.text := by
  have hname : c ∉ r.name := not_mem_of_forall isPlain_of_mem_ruleName (not_isPlain_lineEnd hc)
  have hargument : c ∉ r.argument := by
    cases r with
    | maxLength n =>
      intro hmem
      have hdigit : lineEnds.all (fun d => !d.isDigit) = true := by decide
      have hc' := List.all_eq_true.mp hdigit c hc
      rw [isDigit_of_mem_digits hmem] at hc'
      cases hc'
    | _ => exact List.not_mem_nil
  have hsigns : c ∉ ['@', '(', ')'] := not_mem_of_mem_lineEnds hc (by decide)
  simp only [List.mem_cons, List.not_mem_nil, or_false, not_or] at hsigns
  simp [Rule.text, hname, hargument, hsigns]

theorem not_mem_of_mem_renderLines (hc : c ∈ lineEnds) (hb : b.Lacks c) :
    ∀ l ∈ b.renderLines, c ∉ l := by
  rw [renderLines]
  cases hfield : (dropShortTail b.lines).getLast? with
  | none => simp
  | some field =>
    have hline : c ∉ field :=
      hb.lines field (mem_of_mem_dropShortTail (List.mem_of_getLast? hfield))
    have hindent : c ∉ field.takeWhile isBlank :=
      fun h => hline ((List.takeWhile_sublist isBlank).subset h)
    simp only [List.forall_mem_append, List.forall_mem_singleton]
    refine ⟨⟨fun l hl => ?_, fun l hl => ?_⟩, not_mem_renderField hc hb hline⟩
    · exact hb.lines l (mem_of_mem_dropShortTail (List.dropLast_subset _ hl))
    · obtain ⟨r, -, rfl⟩ := List.mem_map.mp hl
      simp [hindent, not_mem_ruleText hc r]

end Lacks

/-- All lines but the last that says anything stay as they are. -/
theorem renderLines_of_lines {b : ColumnBlock} {above shorts : List (List Char)}
    {line : List Char} (hlines : b.lines = above ++ line :: shorts) (hline : isShort line = false)
    (hshorts : ∀ s ∈ shorts, isShort s = true) :
    b.renderLines = above ++ b.rules.map (fun r => line.takeWhile isBlank ++ r.text) ++
      [b.renderField line] := by
  rw [renderLines, hlines, dropShortTail_append hline hshorts, List.getLast?_concat,
    List.dropLast_concat]

theorem renderLines_ne_nil {b : ColumnBlock} (hb : b.Sound) : b.renderLines ≠ [] := by
  obtain ⟨line, hline, -⟩ := hb.field
  rw [renderLines, hline]
  simp

/-- The lines of a rendered block are those that it is rendered as. -/
theorem lines_render {b : ColumnBlock} (hb : b.Linewise) (hsound : b.Sound) :
    Text.lines b.render = b.renderLines :=
  lines_unlines (renderLines_ne_nil hsound) (not_mem_of_mem_renderLines (by decide) hb.lacks)

end ColumnBlock

/-! ## Annotated sources -/

theorem linewise_of_readColumns {o : Options} {source : List Char} {cs : List ColumnBlock}
    (h : readColumns o source = .ok cs) : ∀ c ∈ cs, c.Linewise :=
  forall_of_readColumns (fun _ _ => ColumnBlock.linewise_of_parse)
    (fun _ => ColumnBlock.linewise_stripIndex) h

/-- The import lines that stay; when none does, an empty line is left of them. -/
theorem lines_filterImports (block : List Char) :
    lines (filterImports block) =
      if (lines block).filter keepsImport = [] then [[]] else (lines block).filter keepsImport := by
  rw [filterImports]
  split
  · next h =>
    rw [h]
    rfl
  · next h =>
    exact lines_unlines h fun l hl => not_mem_of_mem_splitOn (List.mem_filter.mp hl).1

theorem not_mem_braced {c : Char} (hc : c ∈ lineEnds) {names : List Char} (h : c ∉ names) :
    c ∉ "import \x7b ".toList ++ names ++ " \x7d from 'class-validator';".toList := by
  have hopen : c ∉ "import \x7b ".toList := not_mem_of_mem_lineEnds hc (by decide)
  have hclose : c ∉ " \x7d from 'class-validator';".toList :=
    not_mem_of_mem_lineEnds hc (by decide)
  simp only [List.mem_append, not_or]
  exact ⟨⟨hopen, h⟩, hclose⟩

theorem plain_names (v : ValidatorImports) : ∀ n ∈ v.names, ∀ c ∈ n, isPlain c = true := by
  intro n hn
  obtain ⟨r, rfl⟩ := ValidatorImports.exists_rule hn
  exact isPlain_of_mem_ruleName

theorem not_mem_joinedNames {c : Char} (hplain : isPlain c = false) (hcomma : c ∉ [',', ' '])
    (v : ValidatorImports) : c ∉ [',', ' '].intercalate v.names := by
  intro h
  rcases mem_intercalate h with h | ⟨n, hn, h⟩
  · exact hcomma h
  · exact not_mem_of_forall (plain_names v n hn) hplain h

theorem not_mem_statement {c : Char} (hc : c ∈ lineEnds) (v : ValidatorImports) :
    c ∉ v.statement :=
  not_mem_braced hc
    (not_mem_joinedNames (not_isPlain_lineEnd hc) (not_mem_of_mem_lineEnds hc (by decide)) v)

theorem lines_flatMap_render {cs : List ColumnBlock} (hsound : ∀ c ∈ cs, c.Sound)
    (hcs : ∀ c ∈ cs, c.Linewise) (rest : List Char) :
    lines (cs.flatMap (fun c => c.render ++ ['\n', '\n']) ++ rest) =
      cs.flatMap (fun c => c.renderLines ++ [[]]) ++ lines rest := by
  induction cs with
  | nil => rfl
  | cons c cs ih =>
    rw [List.forall_mem_cons] at hsound hcs
    have htext : (c :: cs).flatMap (fun c => c.render ++ ['\n', '\n']) ++ rest =
        c.render ++ '\n' :: ([] ++ '\n' ::
          (cs.flatMap (fun c => c.render ++ ['\n', '\n']) ++ rest)) := by
      simp
    rw [htext, lines_append_cons, lines_append_cons, ih hsound.2 hcs.2,
      ColumnBlock.lines_render hcs.1 hsound.1]
    simp [lines_of_not_mem]

/-- The lines of a source put together from its columns. -/
theorem lines_assemble {cs : List ColumnBlock} (hsound : ∀ c ∈ cs, c.Sound)
    (hcs : ∀ c ∈ cs, c.Linewise) (imports : List Char) :
    lines (assemble imports cs) =
      lines (filterImports imports) ++ (usedBy cs).statement :: [] ::
        (cs.flatMap (fun c => c.renderLines ++ [[]]) ++ [['\x7d']]) := by
  have htext : assemble imports cs = filterImports imports ++ '\n' :: ((usedBy cs).statement ++
      '\n' :: ([] ++ '\n' :: (cs.flatMap (fun c => c.render ++ ['\n', '\n']) ++ ['\x7d']))) := by
    simp [assemble]
  rw [htext, lines_append_cons, lines_append_cons, lines_append_cons,
    lines_flatMap_render hsound hcs, lines_of_not_mem (not_mem_statement (by decide) _)]
  rfl

end CompanyRegister.Source
