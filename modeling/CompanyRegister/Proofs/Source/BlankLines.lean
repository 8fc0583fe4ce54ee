import CompanyRegister.Proofs.Source.Padding

/-!
# Blank lines between blocks

A source is an import block and members, and blank lines stand between them. How many there are, and
whether spaces or tabs are in them, should not matter. It does:

- Only an empty line ends a block. Where all lines between two blocks have spaces or tabs in them,
  the second block goes with the first, and no column is read from it when that is the import block
  or a relation.
- Blank lines in front of the first empty one belong to the block before. A column leaves them out,
  but an import block keeps them.

Between two members there must be an empty line, and the import block must be followed by one. That
is all that there is to it: what comes of a source is then what comes of its blocks with one empty
line between each two, and any other blank lines change what comes of some source
(`blankLines_harmless_iff`).
-/

namespace CompanyRegister.Source

open Text

/-! ## Sources with blank lines -/

/-- Lines with nothing but spaces and tabs in them. -/
structure BlankLines where
  lines : List (List Char)
  blank : ∀ l ∈ lines, ∀ c ∈ l, c = ' ' ∨ c = '\t'

/-- The blocks of a source. -/
structure EntityBlocks where
  imports : Paragraph
  members : List Paragraph
  isImport : startsWith "import".toList imports.text = true
  notImport : ∀ m ∈ members, startsWith "import".toList m.text = false

namespace EntityBlocks

/-- Members with blank lines in front of each and behind the last. -/
def spread (tail : BlankLines) : List (BlankLines × Paragraph) → List (List Char)
  | [] => tail.lines
  | (gap, m) :: rest => gap.lines ++ (m.lines ++ spread tail rest)

/-- The lines of a source with these blank lines in front of its members and behind the last. -/
def lines (s : EntityBlocks) (gaps : List BlankLines) (tail : BlankLines) : List (List Char) :=
  s.imports.lines ++ spread tail (gaps.zip s.members)

/-- The source with one empty line in front of each member. -/
def plain (s : EntityBlocks) : List Char :=
  unblocks (s.imports.text :: s.members.map Paragraph.text)

end EntityBlocks

/-- Whether blank lines in front of the members of a source do not matter, whatever its blocks
are. -/
def Harmless (gaps : List BlankLines) : Prop :=
  ∀ (o : Options) (s : EntityBlocks) (tail : BlankLines) (source plain : List Char),
    s.members.length = gaps.length → lines (joinLineEnds source) = s.lines gaps tail →
      joinLineEnds plain = s.plain → annotate o source = annotate o plain

/-- Blank lines that keep the blocks of a source apart: each with an empty line among them, and the
first of all beginning with it. -/
structure KeepApart (gaps : List BlankLines) : Prop where
  empty : ∀ g ∈ gaps, [] ∈ g.lines
  first : ∀ g ∈ gaps.head?, g.lines.head? = some []

/-! ## Blocks that are kept apart -/

/-- Blocks that hold these paragraphs in turn, with nothing but blank lines around them. -/
inductive Holds : List (List (List Char)) → List Paragraph → Prop
  | nil : Holds [] []
  | blank {b : List (List Char)} {bs : List (List (List Char))} {ps : List Paragraph} :
      AllBlank b → Holds bs ps → Holds (b :: bs) ps
  | paragraph {pre post : List (List Char)} {bs : List (List (List Char))} {p : Paragraph}
      {ps : List Paragraph} : AllBlank pre → AllBlank post → Holds bs ps →
        Holds ((pre ++ (p.lines ++ post)) :: bs) (p :: ps)

theorem BlankLines.allBlank (g : BlankLines) : AllBlank g.lines := by
  intro l hl
  have hchars := g.blank l hl
  refine ⟨List.all_eq_true.mpr fun c hc => ?_, fun hmem => ?_⟩
  · rcases hchars c hc with rfl | rfl <;> decide
  · rcases hchars '\n' hmem with h | h <;> exact absurd h (by decide)

theorem BlankLines.allBlank_of_subset (g : BlankLines) {ls : List (List Char)}
    (h : ∀ l ∈ ls, l ∈ g.lines) : AllBlank ls :=
  fun l hl => g.allBlank l (h l hl)

namespace Holds

variable {bs bs' : List (List (List Char))} {ps : List Paragraph}

theorem append_blank (hbs : ∀ b ∈ bs, AllBlank b) (h : Holds bs' ps) : Holds (bs ++ bs') ps := by
  induction bs with
  | nil => exact h
  | cons b bs ih =>
    rw [List.forall_mem_cons] at hbs
    exact .blank hbs.1 (ih hbs.2)

/-- Blank lines in front of the first block go with it. -/
theorem modifyHead {pre : List (List Char)} (hpre : AllBlank pre) (h : Holds bs ps) :
    Holds (bs.modifyHead (pre ++ ·)) ps := by
  cases h with
  | nil => exact .nil
  | blank hb h => exact .blank (hpre.append hb) h
  | @paragraph pre' post bs p ps hpre' hpost h =>
    have hblock : pre ++ (pre' ++ (p.lines ++ post)) = (pre ++ pre') ++ (p.lines ++ post) := by simp
    rw [List.modifyHead_cons, hblock]
    exact .paragraph (hpre.append hpre') hpost h

theorem sameRead (h : Holds bs ps) (hps : ∀ p ∈ ps, startsWith "import".toList p.text = false)
    (o : Options) :
    List.Forall₂ (fun b b' => SameRead (ColumnBlock.parse o b) (ColumnBlock.parse o b'))
      (columnBlocks (bs.map unlines)) (columnBlocks (ps.map Paragraph.text)) := by
  induction h with
  | nil => exact .nil
  | blank hb _ ih =>
    rw [List.map_cons, columnBlocks, List.filter_cons_of_neg (by simp [kind_of_allBlank hb])]
    exact ih hps
  | @paragraph pre post bs p ps hpre hpost _ ih =>
    rw [List.forall_mem_cons] at hps
    have hkind := kind_unlines hps.1 hpre hpost
    rw [List.map_cons, List.map_cons, columnBlocks, columnBlocks]
    by_cases hcolumn : BlockKind.of p.text = .column
    · rw [List.filter_cons_of_pos (by simp [hkind, hcolumn]),
        List.filter_cons_of_pos (by simp [hcolumn])]
      exact .cons (sameRead_parse hpre hpost o) (ih hps.2)
    · rw [List.filter_cons_of_neg (by simp [hkind, hcolumn]),
        List.filter_cons_of_neg (by simp [hcolumn])]
      exact ih hps.2

theorem notImport (h : Holds bs ps) (hps : ∀ p ∈ ps, startsWith "import".toList p.text = false) :
    ∀ b ∈ bs, BlockKind.of (unlines b) ≠ .imports := by
  induction h with
  | nil => simp
  | blank hb _ ih =>
    rw [List.forall_mem_cons, kind_of_allBlank hb]
    exact ⟨by decide, ih hps⟩
  | paragraph hpre hpost _ ih =>
    rw [List.forall_mem_cons] at hps
    rw [List.forall_mem_cons, kind_unlines hps.1 hpre hpost]
    exact ⟨kind_ne_imports hps.1, ih hps.2⟩

end Holds

/-- A paragraph with blank lines behind it begins a block, and only blank ones follow. -/
theorem exists_lineBlocks_tail (p : Paragraph) (tail : BlankLines) :
    ∃ post bs, lineBlocks (p.lines ++ tail.lines) = (p.lines ++ post) :: bs ∧ AllBlank post ∧
      ∀ b ∈ bs, AllBlank b := by
  by_cases hempty : [] ∈ tail.lines
  · obtain ⟨ws, ws', htail, hws⟩ := List.eq_append_cons_of_mem hempty
    have hrun : [] ∉ p.lines ++ ws := List.not_mem_append p.nil_not_mem hws
    have hblank : AllBlank (ws ++ [] :: ws') := htail ▸ tail.allBlank
    have hlines : p.lines ++ tail.lines = (p.lines ++ ws) ++ [] :: ws' := by
      rw [htail, List.append_assoc]
    rw [hlines]
    -- An empty line that is the last one of all ends no block.
    cases ws' with
    | nil =>
      refine ⟨ws ++ [[]], [], ?_, hblank, by simp⟩
      rw [lineBlocks_append hrun rfl, ← List.append_assoc]
      rfl
    | cons w ws' =>
      refine ⟨ws, lineBlocks (w :: ws'), lineBlocks_append_nil_cons (by simp [p.lines_ne_nil]) hrun
        (List.cons_ne_nil w ws'), fun l hl => hblank l (List.mem_append_left _ hl), ?_⟩
      intro b hb l hl
      exact hblank l (List.mem_append_right ws
        (List.mem_cons_of_mem [] (mem_of_mem_lineBlocks b hb l hl)))
  · refine ⟨tail.lines, [], ?_, tail.allBlank, by simp⟩
    have hrun : [] ∉ p.lines ++ tail.lines := List.not_mem_append p.nil_not_mem hempty
    have hblocks : lineBlocks ((p.lines ++ tail.lines) ++ []) =
        (lineBlocks []).modifyHead (p.lines ++ tail.lines ++ ·) :=
      lineBlocks_append hrun rfl
    rw [List.append_nil] at hblocks
    rw [hblocks, lineBlocks, List.modifyHead_cons, List.append_nil]

variable {tail : BlankLines}

theorem holds_spread (m : Paragraph) {rest : List (BlankLines × Paragraph)}
    (hempty : ∀ r ∈ rest, [] ∈ r.1.lines) :
    Holds (lineBlocks (m.lines ++ EntityBlocks.spread tail rest)) (m :: rest.map Prod.snd) := by
  induction rest generalizing m with
  | nil =>
    obtain ⟨post, bs, hblocks, hpost, hbs⟩ := exists_lineBlocks_tail m tail
    have hrest : Holds (bs ++ []) [] := Holds.append_blank hbs .nil
    rw [EntityBlocks.spread, hblocks, ← List.nil_append (m.lines ++ post), ← List.append_nil bs]
    exact .paragraph allBlank_nil hpost hrest
  | cons r rest ih =>
    rw [List.forall_mem_cons] at hempty
    obtain ⟨l, ls, hlines, hl⟩ := r.2.exists_cons
    obtain ⟨alone, before, hblocks, halone, hbefore⟩ := exists_lineBlocks_between m.lines_ne_nil
      m.nil_not_mem hempty.1 hl (ls ++ EntityBlocks.spread tail rest)
    rw [← List.cons_append, ← hlines] at hblocks
    have hpost : AllBlank (r.1.lines.takeWhile (· ≠ [])) :=
      r.1.allBlank_of_subset fun l hl => (List.takeWhile_sublist _).subset hl
    have hrest := ((ih r.2 hempty.2).modifyHead (r.1.allBlank_of_subset hbefore)).append_blank
      fun b hb => r.1.allBlank_of_subset (halone b hb)
    rw [EntityBlocks.spread, hblocks, ← List.nil_append (m.lines ++ _)]
    exact .paragraph allBlank_nil hpost hrest

/-- The import block comes first, with the blank lines behind it up to the first empty one. -/
theorem exists_lineBlocks_lines (s : EntityBlocks) {gaps : List BlankLines}
    (hlength : s.members.length = gaps.length) (hempty : ∀ g ∈ gaps, [] ∈ g.lines) :
    ∃ post bs, lineBlocks (s.lines gaps tail) = (s.imports.lines ++ post) :: bs ∧
      Holds bs s.members ∧ ∀ g ∈ gaps.head?, post = g.lines.takeWhile (· ≠ []) := by
  cases gaps with
  | nil =>
    have hmembers : s.members = [] := List.length_eq_zero_iff.mp hlength
    obtain ⟨post, bs, hblocks, -, hbs⟩ := exists_lineBlocks_tail s.imports tail
    have hrest : Holds (bs ++ []) [] := Holds.append_blank hbs .nil
    rw [List.append_nil] at hrest
    exact ⟨post, bs, hblocks, hmembers ▸ hrest, by simp⟩
  | cons g gs =>
    obtain ⟨m, ms, hmembers⟩ := List.exists_cons_of_length_eq_add_one hlength
    rw [hmembers, List.length_cons, List.length_cons, Nat.add_right_cancel_iff] at hlength
    rw [List.forall_mem_cons] at hempty
    obtain ⟨l, ls, hlines, hl⟩ := m.exists_cons
    obtain ⟨alone, before, hblocks, halone, hbefore⟩ := exists_lineBlocks_between
      s.imports.lines_ne_nil s.imports.nil_not_mem hempty.1 hl
      (ls ++ EntityBlocks.spread tail (gs.zip ms))
    rw [← List.cons_append, ← hlines] at hblocks
    have hspread : Holds (lineBlocks (m.lines ++ EntityBlocks.spread tail (gs.zip ms)))
        (m :: (gs.zip ms).map Prod.snd) :=
      holds_spread m fun r hr => hempty.2 r.1 (List.of_mem_zip hr).1
    rw [List.map_snd_zip (Nat.le_of_eq hlength), ← hmembers] at hspread
    have hrest := (hspread.modifyHead (g.allBlank_of_subset hbefore)).append_blank
      fun b hb => g.allBlank_of_subset (halone b hb)
    rw [EntityBlocks.lines, hmembers]
    refine ⟨g.lines.takeWhile (· ≠ []), _, hblocks, hmembers ▸ hrest, ?_⟩
    rintro g' ⟨⟩
    rfl

theorem EntityBlocks.kind_imports (s : EntityBlocks) (post : List (List Char)) :
    BlockKind.of (unlines (s.imports.lines ++ post)) = .imports := by
  obtain ⟨l, ls, hlines⟩ := List.exists_cons_of_ne_nil s.imports.lines_ne_nil
  have himport := s.isImport
  rw [Paragraph.text, hlines, startsWith_unlines (by decide)] at himport
  have hstart : startsWith "import".toList (unlines (l :: (ls ++ post))) = true :=
    (startsWith_unlines (by decide) l (ls ++ post)).trans himport
  rw [hlines, List.cons_append, BlockKind.of, hstart, if_pos rfl]

theorem importBlock_cons {b : List Char} {bs : List (List Char)} (hb : BlockKind.of b = .imports)
    (hbs : ∀ b ∈ bs, BlockKind.of b ≠ .imports) : importBlock (b :: bs) = b := by
  have hothers : bs.filter (fun b => BlockKind.of b == .imports) = [] :=
    List.filter_eq_nil_iff.mpr fun b hb => by simp [hbs b hb]
  rw [importBlock, List.filter_cons_of_pos (by simp [hb]), hothers]
  rfl

theorem sourceBlocks_of_lines {source : List Char} {ls : List (List Char)}
    (h : lines (joinLineEnds source) = ls) : sourceBlocks source = (lineBlocks ls).map unlines := by
  have hlines : ∀ l ∈ ls, '\n' ∉ l := fun l hl => not_mem_of_mem_splitOn (h ▸ hl)
  have htext : joinLineEnds source = unlines ls := by
    rw [← h]
    exact (List.intercalate_splitOn '\n').symm
  rw [sourceBlocks, htext, blocks_unlines hlines]

/-- What comes of a source whose blocks are kept apart. -/
theorem annotate_lines (o : Options) (s : EntityBlocks) {gaps : List BlankLines}
    (hlength : s.members.length = gaps.length) (hempty : ∀ g ∈ gaps, [] ∈ g.lines)
    {source : List Char} (hsource : lines (joinLineEnds source) = s.lines gaps tail) :
    ∃ post, annotate o source =
        annotateBlocks o (unlines (s.imports.lines ++ post)) (s.members.map Paragraph.text) ∧
      ∀ g ∈ gaps.head?, post = g.lines.takeWhile (· ≠ []) := by
  obtain ⟨post, bs, hblocks, hholds, hpost⟩ := exists_lineBlocks_lines s hlength hempty
  refine ⟨post, ?_, hpost⟩
  have himport := s.kind_imports post
  have hblocks' : sourceBlocks source =
      unlines (s.imports.lines ++ post) :: bs.map unlines := by
    rw [sourceBlocks_of_lines hsource, hblocks, List.map_cons]
  have himports : importBlock (sourceBlocks source) = unlines (s.imports.lines ++ post) := by
    rw [hblocks']
    exact importBlock_cons himport (List.forall_mem_map.mpr (hholds.notImport s.notImport))
  have hcolumns : columnBlocks (sourceBlocks source) = columnBlocks (bs.map unlines) := by
    rw [hblocks', columnBlocks, List.filter_cons_of_neg (by simp [himport]), columnBlocks]
  rw [annotate_eq, himports]
  refine annotateBlocks_congr _ ?_
  rw [hcolumns]
  exact hholds.sameRead s.notImport o

/-! ### The plain source -/

/-- One empty line. -/
def BlankLines.single : BlankLines := ⟨[[]], by simp⟩

/-- No line. -/
def BlankLines.none : BlankLines := ⟨[], by simp⟩

@[simp] theorem BlankLines.lines_single : BlankLines.single.lines = [[]] := rfl

@[simp] theorem BlankLines.lines_none : BlankLines.none.lines = [] := rfl

theorem unlines_spread_single (p : Paragraph) (ms : List Paragraph) :
    unlines (p.lines ++ EntityBlocks.spread .none ((List.replicate ms.length .single).zip ms)) =
      unblocks (p.text :: ms.map Paragraph.text) := by
  induction ms generalizing p with
  | nil =>
    rw [List.zip_nil_right, EntityBlocks.spread, BlankLines.lines_none, List.append_nil]
    exact List.intercalate_singleton.symm
  | cons m ms ih =>
    have hrest : m.lines ++ EntityBlocks.spread .none ((List.replicate ms.length .single).zip ms) ≠
        [] := by simp [m.lines_ne_nil]
    have hempty : ([[]] : List (List Char)) ++ (m.lines ++ EntityBlocks.spread .none
        ((List.replicate ms.length .single).zip ms)) ≠ [] := by simp
    rw [List.length_cons, List.replicate_succ, List.zip_cons_cons, EntityBlocks.spread,
      BlankLines.lines_single, unlines_append p.lines_ne_nil hempty, List.singleton_append,
      unlines_cons [] hrest, ih, List.map_cons, unblocks, unblocks,
      List.intercalate_cons_of_ne_nil (List.cons_ne_nil _ _), ← Paragraph.text]
    simp

theorem forall_mem_lines {P : List Char → Prop} (s : EntityBlocks) {gaps : List BlankLines}
    (himports : ∀ l ∈ s.imports.lines, P l) (hmembers : ∀ m ∈ s.members, ∀ l ∈ m.lines, P l)
    (hblank : ∀ g : BlankLines, ∀ l ∈ g.lines, P l) : ∀ l ∈ s.lines gaps tail, P l := by
  have hspread : ∀ rest : List (BlankLines × Paragraph), (∀ r ∈ rest, ∀ l ∈ r.2.lines, P l) →
      ∀ l ∈ EntityBlocks.spread tail rest, P l := by
    intro rest hrest
    induction rest with
    | nil => exact hblank tail
    | cons r rest ih =>
      rw [List.forall_mem_cons] at hrest
      exact List.forall_mem_append.mpr ⟨hblank r.1,
        List.forall_mem_append.mpr ⟨hrest.1, ih hrest.2⟩⟩
  exact List.forall_mem_append.mpr ⟨himports, hspread _ fun r hr =>
    hmembers r.2 (List.of_mem_zip hr).2⟩

theorem lines_unlines_lines (s : EntityBlocks) {gaps : List BlankLines} :
    lines (unlines (s.lines gaps tail)) = s.lines gaps tail :=
  lines_unlines (by simp [EntityBlocks.lines, s.imports.lines_ne_nil])
    (forall_mem_lines s s.imports.oneLine (fun m _ => m.oneLine) fun g l hl => (g.allBlank l hl).2)

theorem lines_plain {s : EntityBlocks} {plain : List Char} (h : joinLineEnds plain = s.plain) :
    lines (joinLineEnds plain) = s.lines (List.replicate s.members.length .single) .none := by
  rw [h, EntityBlocks.plain, ← unlines_spread_single]
  exact lines_unlines_lines s

theorem annotate_plain (o : Options) {s : EntityBlocks} {plain : List Char}
    (h : joinLineEnds plain = s.plain) :
    annotate o plain = annotateBlocks o s.imports.text (s.members.map Paragraph.text) := by
  obtain ⟨post, hannotate, hpost⟩ := annotate_lines o s (by simp)
    (fun g hg => by simp [List.eq_of_mem_replicate hg, BlankLines.single]) (lines_plain h)
  cases hmembers : s.members with
  | nil =>
    rw [hannotate, hmembers]
    rfl
  | cons m ms =>
    have hnone : post = [] := by
      rw [hpost .single (by simp [hmembers, List.replicate_succ])]
      rfl
    rw [hannotate, hnone, List.append_nil, hmembers]
    rfl

/-- Blank lines that keep the blocks of a source apart are as good as one empty line each. -/
theorem KeepApart.harmless {gaps : List BlankLines} (h : KeepApart gaps) : Harmless gaps := by
  intro o s tail source plain hlength hsource hplain
  obtain ⟨post, hannotate, hpost⟩ := annotate_lines o s hlength h.empty hsource
  rw [hannotate, annotate_plain o hplain]
  cases gaps with
  | nil =>
    rw [List.length_eq_zero_iff.mp hlength]
    rfl
  | cons g gs =>
    obtain ⟨ls, hg⟩ := List.head?_eq_some_iff.mp (h.first g rfl)
    have hnone : post = [] := by
      rw [hpost g rfl, hg]
      rfl
    rw [hnone, List.append_nil]
    rfl

/-! ## Blocks that run together -/

/-- Whether a block is about a relation. -/
def IsRelation (p : Paragraph) : Prop := ∃ mark ∈ relationMarks, p.lines.any (contains mark) = true

theorem IsRelation.kind_ne_column {p : Paragraph} (h : IsRelation p) (pre post : List (List Char)) :
    BlockKind.of (unlines (pre ++ (p.lines ++ post))) ≠ .column := by
  obtain ⟨mark, hmark, hcontains⟩ := h
  have hmarks : ∀ mark ∈ relationMarks, '\n' ∉ mark ∧ mark ≠ [] := by decide
  have hblock : contains mark (unlines (pre ++ (p.lines ++ post))) = true := by
    rw [contains_unlines (hmarks mark hmark).1 (hmarks mark hmark).2, List.any_append,
      List.any_append, hcontains, Bool.true_or, Bool.or_true]
  have hany : (relationMarks.any fun mark => contains mark (unlines (pre ++ (p.lines ++ post)))) =
      true := List.any_eq_true.mpr ⟨mark, hmark, hblock⟩
  rw [BlockKind.of, hany, if_pos rfl]
  split
  · decide
  · split <;> decide

/-- Behind the first block there is no column if each member that is no relation goes with what
stands before it. -/
theorem kind_tail_ne_column (p : Paragraph) {rest : List (BlankLines × Paragraph)}
    (h : ∀ r ∈ rest, IsRelation r.2 ∨ [] ∉ r.1.lines) :
    ∀ b ∈ (lineBlocks (p.lines ++ EntityBlocks.spread tail rest)).tail,
      BlockKind.of (unlines b) ≠ .column := by
  induction rest generalizing p with
  | nil =>
    obtain ⟨post, bs, hblocks, -, hbs⟩ := exists_lineBlocks_tail p tail
    rw [EntityBlocks.spread, hblocks, List.tail_cons]
    intro b hb
    rw [kind_of_allBlank (hbs b hb)]
    decide
  | cons r rest ih =>
    rw [List.forall_mem_cons] at h
    obtain ⟨post, bs, hblocks⟩ := exists_lineBlocks_append r.2.lines_ne_nil r.2.nil_not_mem
      (EntityBlocks.spread tail rest)
    obtain ⟨l, ls, hlines, hl⟩ := r.2.exists_cons
    have hrest := ih r.2 h.2
    rw [hblocks, List.tail_cons] at hrest
    rw [EntityBlocks.spread]
    -- Kept apart from what stands before it, the next member is a relation. Otherwise it belongs to
    -- the block before, and the blocks behind that one are those behind its own.
    by_cases hempty : [] ∈ r.1.lines
    · have hrelation := h.1.resolve_right fun h => h hempty
      obtain ⟨alone, before, hbetween, halone, hbefore⟩ := exists_lineBlocks_between p.lines_ne_nil
        p.nil_not_mem hempty hl (ls ++ EntityBlocks.spread tail rest)
      rw [← List.cons_append, ← hlines, hblocks, List.modifyHead_cons] at hbetween
      rw [hbetween, List.tail_cons, List.forall_mem_append, List.forall_mem_cons]
      refine ⟨fun b hb => ?_, hrelation.kind_ne_column before post, hrest⟩
      rw [kind_of_allBlank (r.1.allBlank_of_subset (halone b hb))]
      decide
    · have hrun : [] ∉ p.lines ++ r.1.lines := List.not_mem_append p.nil_not_mem hempty
      have hends : endsBlock (r.2.lines ++ EntityBlocks.spread tail rest) = false := by
        rw [hlines, List.cons_append, endsBlock_cons hl]
      rw [← List.append_assoc, lineBlocks_append hrun hends, hblocks, List.modifyHead_cons,
        List.tail_cons]
      exact hrest

/-- No column is read where each member that is no relation goes with what stands before it. -/
theorem annotate_eq_noColumns (o : Options) (s : EntityBlocks) {gaps : List BlankLines}
    {source : List Char} (h : ∀ r ∈ gaps.zip s.members, IsRelation r.2 ∨ [] ∉ r.1.lines)
    (hsource : lines (joinLineEnds source) = s.lines gaps tail) :
    annotate o source = .error .noColumns := by
  obtain ⟨post, bs, hblocks⟩ := exists_lineBlocks_append s.imports.lines_ne_nil
    s.imports.nil_not_mem (EntityBlocks.spread tail (gaps.zip s.members))
  have htail : ∀ b ∈ (lineBlocks (s.imports.lines ++
      EntityBlocks.spread tail (gaps.zip s.members))).tail, BlockKind.of (unlines b) ≠ .column :=
    kind_tail_ne_column s.imports h
  rw [hblocks, List.tail_cons] at htail
  have hfirst : BlockKind.of (unlines (s.imports.lines ++ post)) ≠ .column := by
    rw [s.kind_imports]
    decide
  have hnone : columnBlocks (sourceBlocks source) = [] := by
    rw [sourceBlocks_of_lines hsource, EntityBlocks.lines, hblocks, columnBlocks,
      List.filter_eq_nil_iff, List.forall_mem_map, List.forall_mem_cons]
    exact ⟨by simpa using hfirst, fun b hb => by simpa using htail b hb⟩
  rw [annotate_eq, annotateBlocks, hnone]
  rfl

/-! ### One column among relations -/

/-- A paragraph of one line. -/
def Paragraph.line (l : List Char) (hl : '\n' ∉ l) (hblank : isAllBlank l = false) : Paragraph :=
  ⟨[l], List.cons_ne_nil l [], List.forall_mem_singleton.mpr hl,
    List.forall_mem_singleton.mpr hblank⟩

def importLine : Paragraph := .line "import 'typeorm';".toList (by decide) (by decide)

def relationLine : Paragraph := .line "@ManyToOne() group: G;".toList (by decide) (by decide)

def columnLine : Paragraph := .line "rank: number;".toList (by decide) (by decide)

/-- One column with relations before and behind it. -/
def columnAmong (before behind : Nat) : List Paragraph :=
  List.replicate before relationLine ++ columnLine :: List.replicate behind relationLine

theorem forall_mem_columnAmong {P : Paragraph → Prop} {before behind : Nat}
    (hrelation : P relationLine) (hcolumn : P columnLine) :
    ∀ m ∈ columnAmong before behind, P m := by
  have hreplicate : ∀ n, ∀ m ∈ List.replicate n relationLine, P m := fun n m hm =>
    List.eq_of_mem_replicate hm ▸ hrelation
  exact List.forall_mem_append.mpr ⟨hreplicate before,
    List.forall_mem_cons.mpr ⟨hcolumn, hreplicate behind⟩⟩

def oneColumn (before behind : Nat) : EntityBlocks where
  imports := importLine
  members := columnAmong before behind
  isImport := by decide
  notImport := forall_mem_columnAmong (by decide) (by decide)

theorem length_members_oneColumn (before behind : Nat) :
    (oneColumn before behind).members.length = before + (behind + 1) := by
  simp [oneColumn, columnAmong]

theorem annotateBlocks_oneColumn (before behind : Nat) :
    ∃ columns, ∀ imports, annotateBlocks .standard imports
      ((oneColumn before behind).members.map Paragraph.text) = .ok (assemble imports columns) := by
  have hrelation : BlockKind.of relationLine.text = .relation := by decide +kernel
  have hcolumn : BlockKind.of columnLine.text = .column := by decide +kernel
  have hblocks : columnBlocks ((oneColumn before behind).members.map Paragraph.text) =
      [columnLine.text] := by
    simp [columnBlocks, oneColumn, columnAmong, hrelation, hcolumn]
  obtain ⟨c, hc⟩ : ∃ c, ColumnBlock.parse .standard columnLine.text = .ok c :=
    ⟨⟨["rank: number;".toList], "rank".toList, .number, false, .none, .none⟩, by decide +kernel⟩
  refine ⟨[c.stripIndex], fun imports => ?_⟩
  rw [annotateBlocks, hblocks, mapM_cons_eq, hc]
  rfl

theorem oneColumn_no_cr (before behind : Nat) {gaps : List BlankLines} :
    '\r' ∉ unlines ((oneColumn before behind).lines gaps tail) := by
  have himport : ∀ l ∈ importLine.lines, '\r' ∉ l := by decide
  have hrelation : ∀ l ∈ relationLine.lines, '\r' ∉ l := by decide
  have hcolumn : ∀ l ∈ columnLine.lines, '\r' ∉ l := by decide
  have hmembers : ∀ m ∈ (oneColumn before behind).members, ∀ l ∈ m.lines, '\r' ∉ l :=
    forall_mem_columnAmong hrelation hcolumn
  have hblank : ∀ g : BlankLines, ∀ l ∈ g.lines, '\r' ∉ l := by
    intro g l hl hmem
    rcases g.blank l hl '\r' hmem with h | h <;> exact absurd h (by decide)
  intro hmem
  rcases mem_intercalate hmem with h | ⟨l, hl, hmem⟩
  · exact absurd h (by decide)
  · exact forall_mem_lines _ himport hmembers hblank l hl hmem

section

variable {gaps : List BlankLines}

theorem lines_oneColumn {before behind : Nat} :
    lines (joinLineEnds (unlines ((oneColumn before behind).lines gaps tail))) =
      (oneColumn before behind).lines gaps tail := by
  rw [joinLineEnds_eq_self (oneColumn_no_cr before behind), lines_unlines_lines]

/-- What comes of the source with one column where blank lines do not matter. -/
theorem Harmless.annotate_oneColumn (h : Harmless gaps) (before behind : Nat)
    (hlength : before + (behind + 1) = gaps.length) :
    ∃ columns,
      annotate .standard (unlines ((oneColumn before behind).lines gaps .none)) =
          .ok (assemble importLine.text columns) ∧
        ∀ imports, annotateBlocks .standard imports
            ((oneColumn before behind).members.map Paragraph.text) =
          .ok (assemble imports columns) := by
  obtain ⟨columns, hcolumns⟩ := annotateBlocks_oneColumn before behind
  have hplain : joinLineEnds (oneColumn before behind).plain = (oneColumn before behind).plain := by
    rw [EntityBlocks.plain, ← unlines_spread_single]
    exact joinLineEnds_eq_self (oneColumn_no_cr before behind)
  refine ⟨columns, ?_, hcolumns⟩
  rw [h .standard (oneColumn before behind) .none _ _
    ((length_members_oneColumn before behind).trans hlength) lines_oneColumn hplain,
    annotate_plain .standard hplain]
  exact hcolumns _

theorem Harmless.empty (h : Harmless gaps) : ∀ g ∈ gaps, [] ∈ g.lines := by
  intro g hg
  by_contra hempty
  -- The column of the source stands behind the blank lines without an empty one.
  obtain ⟨gs, gs', rfl⟩ := List.append_of_mem hg
  have hrelation : IsRelation relationLine := ⟨"@ManyToOne".toList, by decide, by decide⟩
  have hmembers : ∀ r ∈ (gs ++ g :: gs').zip (columnAmong gs.length gs'.length),
      IsRelation r.2 ∨ [] ∉ r.1.lines := by
    have hreplicate : ∀ gs : List BlankLines, ∀ r ∈ gs.zip (List.replicate gs.length relationLine),
        IsRelation r.2 ∨ [] ∉ r.1.lines := fun gs r hr =>
      Or.inl (List.eq_of_mem_replicate (List.of_mem_zip hr).2 ▸ hrelation)
    rw [columnAmong, List.zip_append (List.length_replicate).symm, List.zip_cons_cons]
    exact List.forall_mem_append.mpr ⟨hreplicate gs,
      List.forall_mem_cons.mpr ⟨Or.inr hempty, hreplicate gs'⟩⟩
  obtain ⟨columns, hannotate, -⟩ := h.annotate_oneColumn gs.length gs'.length (by simp)
  rw [annotate_eq_noColumns .standard _ hmembers lines_oneColumn] at hannotate
  cases hannotate

end

theorem keepsImport_of_blank {l : List Char} (h : ∀ c ∈ l, c = ' ' ∨ c = '\t') :
    keepsImport l = true := by
  have hname : importedName l = [] := by
    rw [importedName, strip, List.dropWhile_eq_nil_iff.mpr]
    · rfl
    · intro c hc
      rcases h c hc with rfl | rfl <;> decide
  have hdot : contains "./".toList l = false := by
    rw [contains_eq_false_iff]
    intro hdots
    rcases h '.' (hdots.subset (by decide)) with h | h <;> exact absurd h (by decide)
  rw [keepsImport, hname, hdot]
  decide

/-- An import block keeps the blank lines in it. -/
theorem filterImports_append_blank {post : List (List Char)} (hne : post ≠ [])
    (hpost : ∀ l ∈ post, ∀ c ∈ l, c = ' ' ∨ c = '\t') :
    filterImports (unlines (importLine.lines ++ post)) ≠ filterImports importLine.text := by
  have himport : filterImports importLine.text = unlines importLine.lines := by decide +kernel
  have hlines : ∀ l ∈ importLine.lines ++ post, '\n' ∉ l := by
    refine List.forall_mem_append.mpr ⟨importLine.oneLine, fun l hl hmem => ?_⟩
    rcases hpost l hl '\n' hmem with h | h <;> exact absurd h (by decide)
  have hkeeps : ∀ l ∈ importLine.lines ++ post, keepsImport l = true :=
    List.forall_mem_append.mpr ⟨by decide +kernel, fun l hl => keepsImport_of_blank (hpost l hl)⟩
  rw [himport, filterImports, lines_unlines (by simp [hne]) hlines, List.filter_eq_self.mpr hkeeps,
    unlines_append importLine.lines_ne_nil hne]
  simp

theorem Harmless.first {gaps : List BlankLines} (h : Harmless gaps) :
    ∀ g ∈ gaps.head?, g.lines.head? = some [] := by
  cases gaps with
  | nil => simp
  | cons g gs =>
    rintro g' ⟨⟩
    obtain ⟨columns, hannotate, hcolumns⟩ := h.annotate_oneColumn 0 gs.length (by simp)
    obtain ⟨post, hsource, hpost⟩ := annotate_lines .standard (oneColumn 0 gs.length)
      ((length_members_oneColumn 0 gs.length).trans (by simp)) h.empty lines_oneColumn
    by_contra hfirst
    -- What stands in front of the first empty line is kept with the imports.
    have hne : post ≠ [] := by
      obtain ⟨w, ws, hg⟩ :=
        List.exists_cons_of_ne_nil (List.ne_nil_of_mem (h.empty g List.mem_cons_self))
      have hw : w ≠ [] := fun hw => hfirst (by rw [hg, hw, List.head?_cons])
      rw [hpost g rfl, hg, List.takeWhile_cons_of_pos (by simp [hw])]
      exact List.cons_ne_nil _ _
    have hblank : ∀ l ∈ post, ∀ c ∈ l, c = ' ' ∨ c = '\t' := by
      rw [hpost g rfl]
      exact fun l hl => g.blank l ((List.takeWhile_sublist _).subset hl)
    rw [hsource, hcolumns, Except.ok.injEq, assemble, assemble,
      List.append_cancel_right_eq] at hannotate
    exact filterImports_append_blank hne hblank hannotate

theorem Harmless.keepApart {gaps : List BlankLines} (h : Harmless gaps) : KeepApart gaps where
  empty := h.empty
  first := h.first

/-- Blank lines between blocks do not matter exactly where they keep the blocks apart. -/
theorem blankLines_harmless_iff (gaps : List BlankLines) : Harmless gaps ↔ KeepApart gaps :=
  ⟨Harmless.keepApart, KeepApart.harmless⟩

example : KeepApart [⟨[[], [' ']], by simp⟩, ⟨[['\t'], []], by simp⟩] where
  empty := by simp
  first := by simp

/-- A source with a column, a relation and a column, and this blank line in front of the last. -/
def relationBetween (blank : List Char) : List Char :=
  "import \x7b Column \x7d from \"typeorm\";\n\n@Column()\nrank: number;\n\n".toList ++
    ("@ManyToOne()\ngroup: G;\n".toList ++
      (blank ++ "\n@Column()\nlabel: string;\n\x7d".toList))

/-- With a space in the blank line the last column is lost. -/
theorem annotate_relationBetween :
    annotate .standard (relationBetween []) =
        .ok ("import \x7b Column \x7d from \"typeorm\";\n".toList ++
          ("import \x7b IsString, MaxLength, IsNumber \x7d from 'class-validator';\n\n".toList ++
            ("@Column()\n@IsNumber()\nrank: number;\n\n".toList ++
              "@Column()\n@IsString()\nlabel: string;\n\n\x7d".toList))) ∧
      annotate .standard (relationBetween [' ']) =
        .ok ("import \x7b Column \x7d from \"typeorm\";\n".toList ++
          ("import \x7b IsNumber \x7d from 'class-validator';\n\n".toList ++
            "@Column()\n@IsNumber()\nrank: number;\n\n\x7d".toList)) ∧
      annotate .standard (relationBetween []) ≠ annotate .standard (relationBetween [' ']) := by
  have hempty : annotate .standard (relationBetween []) =
      .ok ("import \x7b Column \x7d from \"typeorm\";\n".toList ++
        ("import \x7b IsString, MaxLength, IsNumber \x7d from 'class-validator';\n\n".toList ++
          ("@Column()\n@IsNumber()\nrank: number;\n\n".toList ++
            "@Column()\n@IsString()\nlabel: string;\n\n\x7d".toList))) := by decide +kernel
  have hspace : annotate .standard (relationBetween [' ']) =
      .ok ("import \x7b Column \x7d from \"typeorm\";\n".toList ++
        ("import \x7b IsNumber \x7d from 'class-validator';\n\n".toList ++
          "@Column()\n@IsNumber()\nrank: number;\n\n\x7d".toList)) := by decide +kernel
  refine ⟨hempty, hspace, ?_⟩
  rw [hempty, hspace]
  decide

end CompanyRegister.Source
