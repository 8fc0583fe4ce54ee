import Mathlib.Data.List.Infix
import CompanyRegister.Proofs.Source.Preserved

/-!
# What markers decide

The markers of a run say which defaults are functions of the database. They decide about the initial
values of an annotated source and about nothing else: a column is read as it is without any marker,
and then its default is kept if no marker is part of it (`parse_eq_map`). So two runs over the same
source are refused alike, or give sources with the same lines but for the ends of field lines.
-/

namespace CompanyRegister.Source

open Text

/-! ## Defaults that are kept -/

/-- The default that is kept of `default`: none if one of the markers is part of it. -/
def keptOf (o : Options) (default : Option (List Char)) : Option (List Char) :=
  default.filter fun v => ∀ marker ∈ o.ignoredMarkers, ¬ marker <:+: v

theorem ignores_eq_false_iff {o : Options} {v : List Char} :
    o.ignores v = false ↔ ∀ marker ∈ o.ignoredMarkers, ¬ marker <:+: v := by
  rw [Options.ignores, List.any_eq_false]
  exact forall₂_congr fun marker _ => not_congr contains_iff_isInfix

theorem keptOf_some (o : Options) (v : List Char) :
    keptOf o (some v) = if o.ignores v then none else some v := by
  rw [keptOf, Option.filter_some]
  simp only [decide_eq_true_eq, ← ignores_eq_false_iff]
  cases o.ignores v <;> rfl

namespace Entries

/-- What has been read, with the default that is kept of it. -/
def keep (o : Options) (e : Entries) : Entries := { e with default := keptOf o e.default }

theorem ofLine_keep (o : Options) (e : Entries) (type : ColumnType) (line : List Char)
    (default : Option (List Char)) :
    (e.keep o).ofLine type line (keptOf o default) = (e.ofLine type line default).map (keep o) := by
  rw [ofLine, ofLine]
  split
  · show (e.readLength line).map _ = _
    cases e.readLength line <;> rfl
  · rfl

/-- A line says the same about the length under all markers, and has the same fault if it has
one. -/
theorem readLine_keep (o : Options) (type : ColumnType) (e : Entries) (raw : List Char) :
    (e.keep o).readLine o type raw = (e.readLine keepAll type raw).map (keep o) := by
  have hall : ∀ v, keptOf keepAll (some v) = some v := fun v => keptOf_some keepAll v
  rw [readLine_eq, readLine_eq, ← keptOf_some, ← keptOf_some, hall]
  split
  · exact ofLine_keep o e type _ (some _)
  · exact ofLine_keep o e type _ e.default

theorem readLines_keep (o : Options) (type : ColumnType) (e : Entries) (ls : List (List Char)) :
    readLines o type (e.keep o) ls = (readLines keepAll type e ls).map (keep o) := by
  induction ls generalizing e with
  | nil => rfl
  | cons l ls ih =>
    rw [readLines, readLines, readLine_keep]
    cases e.readLine keepAll type l with
    | error f => rfl
    | ok e' => exact ih e'

end Entries

namespace ColumnBlock

/-- The column with the default that is kept of it. -/
def keep (o : Options) (b : ColumnBlock) : ColumnBlock := { b with default := keptOf o b.default }

/-- A column is read as it is without markers, and then its default is kept or not. -/
theorem parse_eq_map (o : Options) (block : List Char) :
    parse o block = (parse keepAll block).map (keep o) := by
  have hstart : (({} : Entries).keep o) = {} := rfl
  rw [parse, parse]
  cases (dropShortTail ((Text.lines block).dropWhile isAllBlank)).getLast? with
  | none => rfl
  | some fieldLine =>
    cases hd : Declaration.parse fieldLine with
    | error f => simp only [hd]; rfl
    | ok d =>
      have hread := Entries.readLines_keep o d.type {}
        (dropShortTail ((Text.lines block).dropWhile isAllBlank))
      rw [hstart] at hread
      simp only [hd, hread]
      cases Entries.readLines keepAll d.type {}
        (dropShortTail ((Text.lines block).dropWhile isAllBlank)) with
      | error f => rfl
      | ok e =>
        have hfilter : (keptOf o e.default).filter (· ≠ []) =
            keptOf o (e.default.filter (· ≠ [])) := by
          rw [keptOf, keptOf, Option.filter_filter, Option.filter_filter]
          simp only [Bool.and_comm]
        simp only [Except.map, Entries.keep, keep, hfilter]

theorem stripIndex_keep (o : Options) (b : ColumnBlock) :
    (b.keep o).stripIndex = b.stripIndex.keep o := by
  have hlines : (b.keep o).lines = b.lines := rfl
  rw [stripIndex, stripIndex, hlines]
  split <;> rfl

/-- Two columns that are written alike but for the ends of their field lines: an initial value where
the column has a default, and the semicolons of the source where it has none. -/
inductive SameButInitial (c c' : ColumnBlock) : Prop
  | lines {above : List (List Char)} {front semicolons : List Char} :
      (∀ d ∈ semicolons, d = ';') →
        c.renderLines = above ++ [front ++ lineEnd semicolons c.default] →
          c'.renderLines = above ++ [front ++ lineEnd semicolons c'.default] → SameButInitial c c'

theorem sameButInitial_keep {b : ColumnBlock} (hb : b.Sound) (o o' : Options) :
    SameButInitial (b.keep o) (b.keep o') := by
  obtain ⟨field, hfield, hdeclared⟩ := hb.field
  obtain ⟨s, rfl⟩ := exists_spelling_of_declaration hdeclared
  obtain ⟨above, shorts, hlines, hshort, hshorts⟩ := exists_of_getLast?_dropShortTail hfield
  obtain ⟨rest, semicolons, -, -, hsemicolons, hrender⟩ := exists_renderField_eq s
  have hkeep : ∀ o : Options, (b.keep o).renderLines =
      (above ++ b.rules.map fun r => s.text.takeWhile isBlank ++ r.text) ++
        [s.head ++ addedMark b.optional s.head ++ ':' :: rest ++
          lineEnd semicolons (b.keep o).default] := by
    intro o
    have hlines' : (b.keep o).lines = above ++ s.text :: shorts := hlines
    rw [renderLines_of_lines hlines' hshort hshorts, hrender]
    simp only [List.append_assoc, List.cons_append]
    rfl
  exact .lines hsemicolons (hkeep o) (hkeep o')

end ColumnBlock

/-! ## Sources -/

theorem readColumns_keep (o : Options) (source : List Char) :
    readColumns o source = (readColumns keepAll source).map (List.map (ColumnBlock.keep o)) := by
  rw [readColumns, readColumns, mapM_eq_map (ColumnBlock.parse_eq_map o)]
  cases (columnBlocks (sourceBlocks source)).mapM (ColumnBlock.parse keepAll) with
  | error f => rfl
  | ok cs =>
    cases cs with
    | nil => rfl
    | cons first rest =>
      show Except.ok ((first.keep o).stripIndex :: rest.map _) = _
      rw [ColumnBlock.stripIndex_keep]
      rfl

/-- The imports do not depend on the defaults of the columns. -/
theorem usedBy_map_keep (o : Options) (cs : List ColumnBlock) :
    usedBy (cs.map (ColumnBlock.keep o)) = usedBy cs := by
  rw [usedBy, List.foldl_map]
  rfl

theorem annotate_of_unreadable {source : List Char} {f : Fault}
    (hread : readColumns keepAll source = .error f) (o : Options) :
    annotate o source = .error f := by
  rw [annotate, readColumns_keep, hread]
  rfl

/-- The lines in front of the columns: the imports that stay, and the one for the validators. -/
def linesAbove (source : List Char) (cs : List ColumnBlock) : List (List Char) :=
  lines (filterImports (importBlock (sourceBlocks source))) ++ [(usedBy cs).statement, []]

/-- A source whose columns can be read without markers is annotated under any markers, and what
stands in front of its columns does not depend on them. -/
theorem exists_annotate_keep {source : List Char} {cs : List ColumnBlock}
    (hread : readColumns keepAll source = .ok cs) (o : Options) :
    ∃ out, annotate o source = .ok out ∧
      lines out = linesAbove source cs ++
        cs.flatMap (fun c => (c.keep o).renderLines ++ [[]]) ++ [['\x7d']] := by
  have hcolumns : readColumns o source = .ok (cs.map (ColumnBlock.keep o)) := by
    rw [readColumns_keep, hread]
    rfl
  have hlines := lines_assemble (sound_of_readColumns hcolumns) (linewise_of_readColumns hcolumns)
    (importBlock (sourceBlocks source))
  rw [annotate, hcolumns]
  refine ⟨_, rfl, hlines.trans ?_⟩
  rw [usedBy_map_keep, List.flatMap_map, linesAbove]
  simp

/-- Under any two lists of markers a source is refused for the same fault, or annotated with the same
lines but for the initial values of its columns. Which default a column has under a list of markers
is what it has without one, if no marker is part of it. -/
theorem markers_decide_initials (o o' : Options) (source : List Char) :
    ((∃ f, annotate o source = .error f ∧ annotate o' source = .error f) ∨
      ∃ out out' above cs, annotate o source = .ok out ∧ annotate o' source = .ok out' ∧
        readColumns keepAll source = .ok cs ∧
        lines out = above ++ cs.flatMap (fun c => (c.keep o).renderLines ++ [[]]) ++ [['\x7d']] ∧
        lines out' = above ++ cs.flatMap (fun c => (c.keep o').renderLines ++ [[]]) ++ [['\x7d']] ∧
        ∀ c ∈ cs, ColumnBlock.SameButInitial (c.keep o) (c.keep o')) ∧
      ∀ block, ColumnBlock.parse o block =
        (ColumnBlock.parse keepAll block).map (ColumnBlock.keep o) := by
  refine ⟨?_, ColumnBlock.parse_eq_map o⟩
  cases hread : readColumns keepAll source with
  | error f =>
    exact Or.inl ⟨f, annotate_of_unreadable hread o, annotate_of_unreadable hread o'⟩
  | ok cs =>
    obtain ⟨out, hout, hlines⟩ := exists_annotate_keep hread o
    obtain ⟨out', hout', hlines'⟩ := exists_annotate_keep hread o'
    refine Or.inr ⟨out, out', linesAbove source cs, cs, hout, hout', rfl, hlines, hlines', ?_⟩
    intro c hc
    exact ColumnBlock.sameButInitial_keep (sound_of_readColumns hread c hc) o o'

end CompanyRegister.Source
