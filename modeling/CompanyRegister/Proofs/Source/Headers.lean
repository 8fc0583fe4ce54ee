import CompanyRegister.Proofs.Source.Rewriting

/-!
# Class headers

A class begins with a decorator and a declaration (`isHeader`). These lines share a block with the
first member of the class, so they go where that block goes: they stay with a column, but a relation
takes them along when it is left out.

    block ──▶ relation     left out
            ├▶ import      kept line by line, if it is the last import block
            └▶ column      kept, the first one from its entity on if an index stands in front

Which header lines stay is said line by line (`KeepsHeader`); no other line of an annotated source
is a header.
-/

namespace CompanyRegister.Source

open Text

/-! ## Lines of blocks -/

theorem blocks_ne_nil (text : List Char) : blocks text ≠ [] := by
  fun_cases blocks text with
  | case1 => simp
  | case2 => simp
  | case3 c rest h =>
    cases blocks rest <;> simp [consFirst]

theorem unblocks_consFirst (c : Char) {ps : List (List Char)} (h : ps ≠ []) :
    unblocks (consFirst c ps) = c :: unblocks ps := by
  cases ps with
  | nil => exact absurd rfl h
  | cons p ps => cases ps <;> simp [consFirst, unblocks, List.intercalate_cons_cons]

/-- Joining undoes cutting. -/
theorem unblocks_blocks (text : List Char) : unblocks (blocks text) = text := by
  fun_induction blocks text with
  | case1 => rfl
  | case2 rest ih =>
    obtain ⟨b, bs, hblocks⟩ := List.exists_cons_of_ne_nil (blocks_ne_nil rest)
    rw [hblocks] at ih ⊢
    rw [unblocks, List.intercalate_cons_cons, ← unblocks, ih]
    rfl
  | case3 c rest h ih => rw [unblocks_consFirst c (blocks_ne_nil rest), ih]

/-- The lines of a text are those of its blocks, and empty ones. -/
theorem mem_lines_unblocks {bs : List (List Char)} {l : List Char} (hl : l ≠ []) :
    l ∈ lines (unblocks bs) ↔ ∃ b ∈ bs, l ∈ lines b := by
  induction bs with
  | nil => simp [unblocks, lines, hl]
  | cons b bs ih =>
    cases bs with
    | nil => simp [unblocks]
    | cons b' bs =>
      have htext : unblocks (b :: b' :: bs) = b ++ '\n' :: ([] ++ '\n' :: unblocks (b' :: bs)) := by
        simp [unblocks, List.intercalate_cons_cons]
      have hempty : lines [] = [[]] := rfl
      rw [htext, lines_append_cons, lines_append_cons, hempty, List.mem_append, List.mem_append, ih]
      simp [hl]

/-! ## Header lines -/

/-- What the lines begin with that begin a class. -/
def headerMarks : List (List Char) := ["@Entity".toList, "export class".toList]

/-- Whether a line begins a class. -/
def isHeader (line : List Char) : Bool := headerMarks.any fun mark => startsWith mark line

theorem isHeader_iff {line : List Char} :
    isHeader line = true ↔ ∃ mark ∈ headerMarks, mark <+: line := by
  rw [isHeader, List.any_eq_true]
  exact exists_congr fun mark => and_congr_right fun _ => after?_isSome_iff

/-- A header line has two different characters that are no blanks. -/
theorem exists_chars_of_isHeader {line : List Char} (h : isHeader line = true) :
    ∃ c ∈ line, ∃ d ∈ line, c ≠ d ∧ isBlank c = false ∧ isBlank d = false := by
  have hmarks : ∀ mark ∈ headerMarks,
      ∃ c ∈ mark, ∃ d ∈ mark, c ≠ d ∧ isBlank c = false ∧ isBlank d = false := by
    intro mark hmark
    rcases List.mem_pair.mp hmark with rfl | rfl
    · exact ⟨'E', by decide, 'n', by decide, by decide⟩
    · exact ⟨'e', by decide, 'x', by decide, by decide⟩
  obtain ⟨mark, hmark, hprefix⟩ := isHeader_iff.mp h
  obtain ⟨c, hc, d, hd, hchars⟩ := hmarks mark hmark
  exact ⟨c, hprefix.subset hc, d, hprefix.subset hd, hchars⟩

theorem isShort_of_isHeader {line : List Char} (h : isHeader line = true) :
    isShort line = false := by
  obtain ⟨c, hc, d, hd, hne, hcblank, hdblank⟩ := exists_chars_of_isHeader h
  exact isShort_eq_false hc hd hne hcblank hdblank

theorem isAllBlank_of_isHeader {line : List Char} (h : isHeader line = true) :
    isAllBlank line = false := by
  obtain ⟨c, hc, -, -, -, hblank, -⟩ := exists_chars_of_isHeader h
  rw [Bool.eq_false_iff]
  intro hall
  rw [List.all_eq_true.mp hall c hc] at hblank
  cases hblank

/-- A header line begins with no blank. -/
theorem isHeader_cons_of_isBlank {c : Char} (hc : isBlank c = true) (line : List Char) :
    isHeader (c :: line) = false := by
  have hmarks : ∀ mark ∈ headerMarks, mark.head?.any isBlank = false := by decide
  rw [Bool.eq_false_iff]
  intro h
  obtain ⟨mark, hmark, hprefix⟩ := isHeader_iff.mp h
  cases mark with
  | nil => exact absurd hmark (by decide)
  | cons d mark =>
    have hd : isBlank d = false := hmarks _ hmark
    rw [(List.cons_prefix_cons.mp hprefix).1, hc] at hd
    cases hd

/-- No decorator of a rule is a header, whatever it is indented by. -/
theorem isHeader_rule {indent : List Char} (hindent : ∀ c ∈ indent, isBlank c = true) (r : Rule) :
    isHeader (indent ++ r.text) = false := by
  cases indent with
  | nil => cases r <;> rfl
  | cons c indent => exact isHeader_cons_of_isBlank (hindent c List.mem_cons_self) _

/-- No field line is a header. -/
theorem isHeader_of_parse? {line : List Char} {f : FieldLine}
    (h : FieldLine.parse? line = some f) : isHeader line = false := by
  rw [Bool.eq_false_iff]
  intro hheader
  obtain ⟨mark, hmark, rest, rfl⟩ := isHeader_iff.mp hheader
  have hnone : FieldLine.parse? (mark ++ rest) = none := by
    simp only [headerMarks, List.mem_cons, List.not_mem_nil, or_false] at hmark
    rcases hmark with rfl | rfl <;> rfl
  rw [hnone] at h
  cases h

/-- Nor is a field line that has been rewritten: up to its colon only a question mark is new. -/
theorem isHeader_renderField (s : Spelling) (b : ColumnBlock) :
    isHeader (b.renderField s.text) = false := by
  have hmarks : ∀ mark ∈ headerMarks, ':' ∉ mark ∧ '?' ∉ mark := by decide
  rw [Bool.eq_false_iff]
  intro h
  obtain ⟨mark, hmark, hprefix⟩ := isHeader_iff.mp h
  rw [Spelling.renderField_text, Spelling.rewrittenHead] at hprefix
  have hrewritten := prefix_of_prefix_append_cons (hmarks mark hmark).1 hprefix
  have hhead : mark <+: s.head := by
    split at hrewritten
    · exact prefix_of_prefix_append_cons (hmarks mark hmark).2 hrewritten
    · exact hrewritten
  have htext : isHeader s.text = true := by
    rw [s.text_eq]
    exact isHeader_iff.mpr ⟨mark, hmark, hhead.trans (List.prefix_append _ _)⟩
  rw [isHeader_of_parse? s.parse?_text] at htext
  cases htext

/-! ## Headers of columns -/

namespace ColumnBlock

/-- Rendering a column keeps its header lines and brings in none. -/
theorem header_mem_renderLines {b : ColumnBlock} (hb : b.Sound) {l : List Char}
    (hl : isHeader l = true) : l ∈ b.renderLines ↔ l ∈ b.lines := by
  obtain ⟨field, hfield, hdeclared⟩ := hb.field
  obtain ⟨s, rfl⟩ := exists_spelling_of_declaration hdeclared
  obtain ⟨above, shorts, hlines, hshort, hshorts⟩ := exists_of_getLast?_dropShortTail hfield
  -- No line that comes or goes with rendering is a header: rules, field line, short lines below it.
  have hrules : l ∉ b.rules.map fun r => s.text.takeWhile isBlank ++ r.text := by
    intro hmem
    obtain ⟨r, -, rfl⟩ := List.mem_map.mp hmem
    rw [isHeader_rule (fun c hc => List.all_eq_true.mp List.all_takeWhile c hc)] at hl
    cases hl
  have hrendered : l ≠ b.renderField s.text := by
    rintro rfl
    rw [isHeader_renderField] at hl
    cases hl
  have hline : l ≠ s.text := by
    rintro rfl
    rw [isHeader_of_parse? s.parse?_text] at hl
    cases hl
  have hshortTail : l ∉ shorts := by
    intro hmem
    have hlong := isShort_of_isHeader hl
    rw [hshorts l hmem] at hlong
    cases hlong
  rw [renderLines_of_lines hlines hshort hshorts, hlines]
  simp [hrules, hrendered, hline, hshortTail]

theorem header_mem_lines {o : Options} {block : List Char} {b : ColumnBlock}
    (h : parse o block = .ok b) {l : List Char} (hl : isHeader l = true) :
    l ∈ b.lines ↔ l ∈ Text.lines block := by
  rw [(parse_eq_ok_iff.mp h).1]
  exact ⟨fun hmem => (List.dropWhile_sublist _).subset hmem,
    mem_dropWhile (isAllBlank_of_isHeader hl)⟩

/-- The lines from the one that begins the entity on; none if no line does. -/
def fromEntity (ls : List (List Char)) : List (List Char) :=
  ls.dropWhile fun l => !startsWith "@Entity".toList l

/-- Whether an index decorator stands in front of the entity. -/
def IndexFirst (ls : List (List Char)) : Prop :=
  ls.head?.any (contains "@Index".toList) = true ∧ fromEntity ls ≠ []

/-- Leaving out index decorators leaves out all that stands in front of the entity with them. -/
theorem mem_lines_stripIndex {b : ColumnBlock} {l : List Char} :
    l ∈ b.stripIndex.lines ↔ l ∈ b.lines ∧ (IndexFirst b.lines → l ∈ fromEntity b.lines) := by
  have hsub : l ∈ fromEntity b.lines → l ∈ b.lines :=
    fun hmem => (List.dropWhile_sublist _).subset hmem
  rw [stripIndex]
  split
  · next hindex =>
    have hfirst : IndexFirst b.lines := hindex
    exact ⟨fun hmem => ⟨hsub hmem, fun _ => hmem⟩, fun hmem => hmem.2 hfirst⟩
  · next hindex =>
    have hfirst : ¬ IndexFirst b.lines := hindex
    exact ⟨fun hmem => ⟨hmem, fun h => absurd h hfirst⟩, And.left⟩

end ColumnBlock

/-! ## Headers of sources -/

/-- The columns of a source stand for its column blocks, one for one. -/
theorem exists_of_readColumns {o : Options} {source : List Char} {cs : List ColumnBlock}
    (h : readColumns o source = .ok cs) : ∃ b bs c cs',
      columnBlocks (sourceBlocks source) = b :: bs ∧ cs = c.stripIndex :: cs' ∧
        ColumnBlock.parse o b = .ok c ∧
        List.Forall₂ (fun b c => ColumnBlock.parse o b = .ok c) bs cs' := by
  rw [readColumns] at h
  split at h
  case h_3 first rest hread =>
    cases h
    have hall := mapM_eq_ok_iff.mp hread
    cases hcolumns : columnBlocks (sourceBlocks source) with
    | nil =>
      rw [hcolumns] at hall
      cases hall
    | cons b bs =>
      rw [hcolumns] at hall
      cases hall with
      | cons hfirst hrest => exact ⟨b, bs, first, rest, rfl, rfl, hfirst, hrest⟩
  all_goals cases h

/-- Whether a header line of a source stays. -/
inductive KeepsHeader (bs : List (List Char)) (l : List Char) : Prop
  /-- It stands in the last import block and looks like no import that is dropped. -/
  | imports (hl : l ∈ lines (importBlock bs)) (hkeeps : keepsImport l = true)
  /-- It stands in the first column block, and not in front of the entity with an index. -/
  | first {b : List Char} {rest : List (List Char)} (hcolumns : columnBlocks bs = b :: rest)
      (hl : l ∈ lines b)
      (hindex : ColumnBlock.IndexFirst ((lines b).dropWhile isAllBlank) →
        l ∈ ColumnBlock.fromEntity ((lines b).dropWhile isAllBlank))
  /-- It stands in another column block. -/
  | later {b b' : List Char} {rest : List (List Char)} (hcolumns : columnBlocks bs = b :: rest)
      (hb' : b' ∈ rest) (hl : l ∈ lines b')

theorem header_mem_flatMap {o : Options} {bs : List (List Char)} {cs : List ColumnBlock}
    (h : List.Forall₂ (fun b c => ColumnBlock.parse o b = .ok c) bs cs) {l : List Char}
    (hl : isHeader l = true) :
    l ∈ cs.flatMap (fun c => c.renderLines ++ [[]]) ↔ ∃ b ∈ bs, l ∈ lines b := by
  have hne : l ≠ [] := by
    rintro rfl
    cases hl
  induction h with
  | nil => simp
  | cons hb _ ih =>
    have hhead := (ColumnBlock.header_mem_renderLines (ColumnBlock.sound_of_parse hb) hl).trans
      (ColumnBlock.header_mem_lines hb hl)
    rw [List.flatMap_cons, List.mem_append, List.mem_append, hhead]
    simp [hne, ih]

theorem header_mem_lines_assemble {imports : List Char} {cs : List ColumnBlock}
    (hsound : ∀ c ∈ cs, c.Sound) (hcs : ∀ c ∈ cs, c.Linewise) {l : List Char}
    (hl : isHeader l = true) :
    l ∈ lines (assemble imports cs) ↔
      (l ∈ lines imports ∧ keepsImport l = true) ∨
        l ∈ cs.flatMap (fun c => c.renderLines ++ [[]]) := by
  have hne : l ≠ [] := by
    rintro rfl
    cases hl
  have hbrace : l ≠ ['\x7d'] := by
    rintro rfl
    exact absurd hl (by decide)
  have hstatement : l ≠ (usedBy cs).statement := by
    rintro rfl
    cases hl
  have himports : l ∈ lines (filterImports imports) ↔ l ∈ lines imports ∧ keepsImport l = true := by
    rw [lines_filterImports, ← List.mem_filter]
    split
    · next hnone => simp [hnone, hne]
    · exact Iff.rfl
  rw [lines_assemble hsound hcs, List.mem_append, himports]
  simp [hne, hbrace, hstatement]

/-- A header line is a line of the annotated source exactly when it stays. -/
theorem header_mem_lines_annotate {o : Options} {source out : List Char}
    (h : annotate o source = .ok out) {l : List Char} (hl : isHeader l = true) :
    l ∈ lines out ↔ KeepsHeader (sourceBlocks source) l := by
  rw [annotate] at h
  cases hread : readColumns o source with
  | error f =>
    rw [hread] at h
    cases h
  | ok cs =>
    rw [hread] at h
    cases h
    rw [header_mem_lines_assemble (sound_of_readColumns hread) (linewise_of_readColumns hread) hl]
    obtain ⟨b, bs, c, cs', hcolumns, rfl, hfirst, hrest⟩ := exists_of_readColumns hread
    have hsound := sound_of_readColumns hread c.stripIndex List.mem_cons_self
    have hne : l ≠ [] := by
      rintro rfl
      cases hl
    have hhead : l ∈ c.stripIndex.renderLines ↔ l ∈ lines b ∧
        (ColumnBlock.IndexFirst ((lines b).dropWhile isAllBlank) →
          l ∈ ColumnBlock.fromEntity ((lines b).dropWhile isAllBlank)) := by
      rw [ColumnBlock.header_mem_renderLines hsound hl, ColumnBlock.mem_lines_stripIndex,
        ColumnBlock.header_mem_lines hfirst hl, (ColumnBlock.parse_eq_ok_iff.mp hfirst).1]
    rw [List.flatMap_cons, List.mem_append, header_mem_flatMap hrest hl, List.mem_append, hhead]
    constructor
    · rintro (⟨himports, hkeeps⟩ | (⟨hmem, hindex⟩ | hnil) | ⟨b', hb', hmem⟩)
      · exact .imports himports hkeeps
      · exact .first hcolumns hmem hindex
      · exact absurd (List.mem_singleton.mp hnil) hne
      · exact .later hcolumns hb' hmem
    · intro hkeeps
      cases hkeeps with
      | imports himports hkeeps => exact Or.inl ⟨himports, hkeeps⟩
      | first hcolumns' hmem hindex =>
        cases hcolumns.symm.trans hcolumns'
        exact Or.inr (Or.inl (Or.inl ⟨hmem, hindex⟩))
      | later hcolumns' hb' hmem =>
        cases hcolumns.symm.trans hcolumns'
        exact Or.inr (Or.inr ⟨_, hb', hmem⟩)

/-- Annotating a source keeps all of its header lines exactly when each of them stands in a block
that keeps it: in a column block, or in the import block. A relation that is left out is none. -/
theorem headers_kept_iff {o : Options} {source out : List Char} (h : annotate o source = .ok out) :
    (∀ l ∈ lines (joinLineEnds source), isHeader l = true → l ∈ lines out) ↔
      ∀ b ∈ sourceBlocks source, ∀ l ∈ lines b, isHeader l = true →
        KeepsHeader (sourceBlocks source) l := by
  have hlines : ∀ l, isHeader l = true →
      (l ∈ lines (joinLineEnds source) ↔ ∃ b ∈ sourceBlocks source, l ∈ lines b) := by
    intro l hl
    have hne : l ≠ [] := by
      rintro rfl
      cases hl
    rw [sourceBlocks, ← mem_lines_unblocks hne, unblocks_blocks]
  constructor
  · intro hkept b hb l hl hheader
    exact (header_mem_lines_annotate h hheader).mp
      (hkept l ((hlines l hheader).mpr ⟨b, hb, hl⟩) hheader)
  · intro hkeeps l hl hheader
    obtain ⟨b, hb, hl⟩ := (hlines l hheader).mp hl
    exact (header_mem_lines_annotate h hheader).mpr (hkeeps b hb l hl hheader)

/-- A class whose first member is a column, with an index in front of it. -/
def columnFirst : List Char :=
  "@Index(\"PK\", [\"rank\"])\n@Entity(\"T\")\nexport class T \x7b\n  @Column()\n  rank: number;\n\x7d"
    |>.toList

theorem columnFirst_keeps_headers :
    ∃ out, annotate .standard columnFirst = .ok out ∧
      ∀ l ∈ lines (joinLineEnds columnFirst), isHeader l = true → l ∈ lines out := by
  have hok : (annotate .standard columnFirst).isOk = true := by decide +kernel
  have hblocks : sourceBlocks columnFirst = [columnFirst] := by decide +kernel
  have hcolumns : columnBlocks [columnFirst] = [columnFirst] := by decide +kernel
  have hentity : ∀ l ∈ lines columnFirst, isHeader l = true →
      l ∈ ColumnBlock.fromEntity ((lines columnFirst).dropWhile isAllBlank) := by decide +kernel
  cases h : annotate .standard columnFirst with
  | error f =>
    rw [h] at hok
    cases hok
  | ok out =>
    refine ⟨out, rfl, (headers_kept_iff h).mpr fun b hb l hl hheader => ?_⟩
    rw [hblocks, List.mem_singleton] at hb
    rw [hb] at hl
    rw [hblocks]
    exact .first hcolumns hl fun _ => hentity l hl hheader

/-- The same class with a relation as its first member. -/
def relationFirst : List Char :=
  "@Entity(\"T\")\nexport class T \x7b\n  @ManyToOne()\n  group: G;\n\n  @Column()\n  rank: number;\n\x7d"
    |>.toList

def relationFirstAnnotated : List Char :=
  ("\nimport \x7b IsNumber \x7d from 'class-validator';\n\n" ++
    "  @Column()\n  @IsNumber()\n  rank: number;\n\n\x7d").toList

/-- The relation takes the header along. -/
theorem relationFirst_loses_headers :
    annotate .standard relationFirst = .ok relationFirstAnnotated ∧
      "export class T \x7b".toList ∈ lines (joinLineEnds relationFirst) ∧
      isHeader "export class T \x7b".toList = true ∧
      "export class T \x7b".toList ∉ lines relationFirstAnnotated := by
  decide +kernel

end CompanyRegister.Source
