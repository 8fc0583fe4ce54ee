import CompanyRegister.Proofs.Source.Rendering
import CompanyRegister.Proofs.Text.LineBlocks

/-!
# Blank lines around a block

A block may have blank lines in front of it and behind it. They leave it what it is (`kind_unlines`)
unless it holds imports. Of a column the same is read, but for the lines behind its field line
(`sameRead_parse`), and those are not written. So blank lines around its blocks do not change what
comes of a source (`annotateBlocks_congr`).
-/

namespace CompanyRegister.Source

open Text

/-! ## Paragraphs and blank lines -/

/-- Lines that are not blank. -/
structure Paragraph where
  lines : List (List Char)
  lines_ne_nil : lines ≠ []
  oneLine : ∀ l ∈ lines, '\n' ∉ l
  notBlank : ∀ l ∈ lines, isAllBlank l = false

def Paragraph.text (p : Paragraph) : List Char := unlines p.lines

theorem Paragraph.nil_not_mem (p : Paragraph) : [] ∉ p.lines := by
  intro h
  cases p.notBlank [] h

theorem Paragraph.exists_cons (p : Paragraph) : ∃ l ls, p.lines = l :: ls ∧ l ≠ [] := by
  obtain ⟨l, ls, hlines⟩ := List.exists_cons_of_ne_nil p.lines_ne_nil
  refine ⟨l, ls, hlines, ?_⟩
  rintro rfl
  exact p.nil_not_mem (hlines ▸ List.mem_cons_self)

/-- Lines that are blank. -/
def AllBlank (ls : List (List Char)) : Prop := ∀ l ∈ ls, isAllBlank l = true ∧ '\n' ∉ l

theorem AllBlank.append {ls ls' : List (List Char)} (h : AllBlank ls) (h' : AllBlank ls') :
    AllBlank (ls ++ ls') :=
  List.forall_mem_append.mpr ⟨h, h'⟩

theorem allBlank_nil : AllBlank [] := fun _ h => absurd h List.not_mem_nil

section

variable {ls pre post : List (List Char)}

/-! ## What a block is -/

/-- A mark occurs in lines exactly where it occurs in one of them. -/
theorem contains_unlines {mark : List Char} (hmark : '\n' ∉ mark) (hne : mark ≠ [])
    (ls : List (List Char)) : contains mark (unlines ls) = ls.any (contains mark) := by
  induction ls with
  | nil =>
    have hnil : ¬ mark <:+: [] := fun h => hne (List.infix_nil.mp h)
    exact contains_eq_false_iff.mpr hnil
  | cons l ls ih =>
    cases ls with
    | nil => simp [unlines_singleton]
    | cons l' ls =>
      rw [unlines_cons l (List.cons_ne_nil l' ls), contains_append_cons hmark, ih,
        List.any_cons (a := l)]

theorem startsWith_unlines {mark : List Char} (hmark : '\n' ∉ mark) (l : List Char)
    (ls : List (List Char)) : startsWith mark (unlines (l :: ls)) = startsWith mark l := by
  cases ls with
  | nil => rw [unlines_singleton]
  | cons l' ls =>
    rw [unlines_cons l (List.cons_ne_nil l' ls), Bool.eq_iff_iff, startsWith, startsWith,
      after?_isSome_iff, after?_isSome_iff]
    exact ⟨prefix_of_prefix_append_cons hmark, fun h => h.trans (List.prefix_append l _)⟩

theorem isAllBlank_unlines (ls : List (List Char)) :
    isAllBlank (unlines ls) = ls.all isAllBlank := by
  induction ls with
  | nil => rfl
  | cons l ls ih =>
    cases ls with
    | nil => simp [unlines_singleton]
    | cons l' ls =>
      have hnewline : isBlank '\n' = true := by decide
      rw [unlines_cons l (List.cons_ne_nil l' ls), List.all_cons, ← ih, isAllBlank, isAllBlank,
        isAllBlank, List.all_append, List.all_cons, hnewline, Bool.true_and]

theorem contains_mark_of_allBlank (hls : AllBlank ls) {mark : List Char} (hmark : '@' ∈ mark) :
    ls.any (contains mark) = false := by
  rw [List.any_eq_false]
  intro l hl hcontains
  have hat := (contains_iff_isInfix.mp hcontains).subset hmark
  exact absurd (List.all_eq_true.mp (hls l hl).1 '@' hat) (by decide)

/-- No import block begins with a blank line. -/
theorem startsWith_import_of_isAllBlank {l : List Char} (hl : isAllBlank l = true)
    (ls : List (List Char)) : startsWith "import".toList (unlines (l :: ls)) = false := by
  rw [startsWith_unlines (by decide), Bool.eq_false_iff]
  intro hstart
  have hi : 'i' ∈ l := (after?_isSome_iff.mp hstart).subset (by decide)
  exact absurd (List.all_eq_true.mp hl 'i' hi) (by decide)

theorem kind_of_allBlank (hls : AllBlank ls) : BlockKind.of (unlines ls) = .blank := by
  have himport : startsWith "import".toList (unlines ls) = false := by
    cases ls with
    | nil => decide
    | cons l ls => exact startsWith_import_of_isAllBlank (hls l List.mem_cons_self).1 ls
  have hblank : isAllBlank (unlines ls) = true := by
    rw [isAllBlank_unlines]
    exact List.all_eq_true.mpr fun l hl => (hls l hl).1
  rw [BlockKind.of, himport, hblank, if_neg Bool.false_ne_true, if_pos rfl]

theorem kind_ne_imports {b : List Char} (h : startsWith "import".toList b = false) :
    BlockKind.of b ≠ .imports := by
  rw [BlockKind.of, h, if_neg Bool.false_ne_true]
  split
  · decide
  · split <;> decide

/-- Blank lines around a member leave it what it is. -/
theorem kind_unlines {p : Paragraph} (hp : startsWith "import".toList p.text = false)
    (hpre : AllBlank pre) (hpost : AllBlank post) :
    BlockKind.of (unlines (pre ++ (p.lines ++ post))) = BlockKind.of p.text := by
  obtain ⟨l, ls, hlines⟩ := List.exists_cons_of_ne_nil p.lines_ne_nil
  have himport : startsWith "import".toList (unlines (pre ++ (p.lines ++ post))) = false := by
    rw [hlines]
    cases pre with
    | nil =>
      rw [Paragraph.text, hlines, startsWith_unlines (by decide)] at hp
      exact (startsWith_unlines (by decide) l (ls ++ post)).trans hp
    | cons w pre => exact startsWith_import_of_isAllBlank (hpre w List.mem_cons_self).1 _
  have hblank : p.lines.all isAllBlank = false := by
    rw [hlines, List.all_cons, p.notBlank l (hlines ▸ List.mem_cons_self), Bool.false_and]
  have hpadded : isAllBlank (unlines (pre ++ (p.lines ++ post))) = false := by
    rw [isAllBlank_unlines, List.all_append, List.all_append, hblank, Bool.false_and,
      Bool.and_false]
  have hbare : isAllBlank p.text = false := by
    rw [Paragraph.text, isAllBlank_unlines, hblank]
  -- No mark runs over a line's end, and none is found in a blank line.
  have hmarks : ∀ mark ∈ relationMarks, '\n' ∉ mark ∧ '@' ∈ mark := by decide
  have hrelation :
      (relationMarks.any fun mark => contains mark (unlines (pre ++ (p.lines ++ post)))) =
        relationMarks.any fun mark => contains mark p.text := by
    rw [Bool.eq_iff_iff, List.any_eq_true, List.any_eq_true]
    refine exists_congr fun mark => and_congr_right fun hmark => ?_
    obtain ⟨hnewline, hat⟩ := hmarks mark hmark
    have hne := List.ne_nil_of_mem hat
    rw [Paragraph.text, contains_unlines hnewline hne, contains_unlines hnewline hne,
      List.any_append, List.any_append, contains_mark_of_allBlank hpre hat,
      contains_mark_of_allBlank hpost hat, Bool.false_or, Bool.or_false]
  rw [BlockKind.of, BlockKind.of, himport, hp, hpadded, hbare, hrelation]

/-! ## Reading a block -/

/-- Two columns that differ in nothing but short lines behind their field lines. -/
inductive SameButTail : ColumnBlock → ColumnBlock → Prop
  | lines {b : ColumnBlock} {d : Declaration} {above shorts shorts' : List (List Char)}
      {field : List Char} :
      Declaration.parse field = .ok d → isShort field = false →
        (∀ s ∈ shorts, isShort s = true) → (∀ s ∈ shorts', isShort s = true) →
          SameButTail { b with lines := above ++ field :: shorts }
            { b with lines := above ++ field :: shorts' }

/-- The same fault, or columns that differ in nothing but short lines behind their field lines. -/
inductive SameRead : Except Fault ColumnBlock → Except Fault ColumnBlock → Prop
  | fault {f : Fault} : SameRead (.error f) (.error f)
  | column {c c' : ColumnBlock} : SameButTail c c' → SameRead (.ok c) (.ok c')

theorem isShort_of_isAllBlank {l : List Char} (h : isAllBlank l = true) : isShort l = true := by
  have htrim : trim l = [] := by
    rw [trim, strip, List.dropWhile_eq_nil_iff.mpr (List.all_eq_true.mp h)]
    rfl
  rw [isShort, htrim]
  rfl

theorem dropShortTail_append_blank (hpost : AllBlank post) (ls : List (List Char)) :
    dropShortTail (ls ++ post) = dropShortTail ls := by
  have hshort : ∀ l ∈ post.reverse, isShort l = true := fun l hl =>
    isShort_of_isAllBlank (hpost l (List.mem_reverse.mp hl)).1
  rw [dropShortTail, List.reverse_append, List.dropWhile_append_of_pos hshort, dropShortTail]

/-- Blank lines around lines are trimmed. -/
theorem trim_unlines (hls : ls ≠ []) (hpre : AllBlank pre) (hpost : AllBlank post) :
    trim (unlines (pre ++ (ls ++ post))) = trim (unlines ls) := by
  obtain ⟨l, ls, rfl⟩ := List.exists_cons_of_ne_nil hls
  have hfront : ∀ c ∈ pre.flatMap (· ++ ['\n']), isBlank c = true := by
    intro c hc
    obtain ⟨w, hw, hc⟩ := List.mem_flatMap.mp hc
    rcases List.mem_append.mp hc with hc | hc
    · exact List.all_eq_true.mp (hpre w hw).1 c hc
    · rw [List.mem_singleton.mp hc]
      decide
  have htail : ∀ c ∈ post.flatMap (['\n'] ++ ·), isBlank c = true := by
    intro c hc
    obtain ⟨w, hw, hc⟩ := List.mem_flatMap.mp hc
    rcases List.mem_append.mp hc with hc | hc
    · rw [List.mem_singleton.mp hc]
      decide
    · exact List.all_eq_true.mp (hpost w hw).1 c hc
  have hlines : unlines (l :: ls) = l ++ ls.flatMap (['\n'] ++ ·) :=
    intercalate_append_cons ['\n'] [] l ls
  have hwrapped : unlines (pre ++ (l :: ls ++ post)) =
      pre.flatMap (· ++ ['\n']) ++ (unlines (l :: ls) ++ post.flatMap (['\n'] ++ ·)) := by
    rw [hlines, List.append_assoc, ← List.flatMap_append]
    exact intercalate_append_cons ['\n'] pre l (ls ++ post)
  rw [hwrapped]
  exact strip_wrapped _ hfront htail

/-- Blank lines in front of a block are skipped. -/
theorem dropWhile_lines_padded {p : Paragraph} (hpre : AllBlank pre) (hpost : AllBlank post) :
    (lines (unlines (pre ++ (p.lines ++ post)))).dropWhile isAllBlank = p.lines ++ post := by
  have hblank : ∀ l ∈ pre, isAllBlank l = true := fun l hl => (hpre l hl).1
  have hlines : ∀ l ∈ pre ++ (p.lines ++ post), '\n' ∉ l :=
    List.forall_mem_append.mpr ⟨fun l hl => (hpre l hl).2,
      List.forall_mem_append.mpr ⟨p.oneLine, fun l hl => (hpost l hl).2⟩⟩
  rw [lines_unlines (by simp [p.lines_ne_nil]) hlines, List.dropWhile_append_of_pos hblank]
  refine dropWhile_eq_self fun l hl => p.notBlank l ?_
  rw [List.head?_append_of_ne_nil _ p.lines_ne_nil] at hl
  exact List.mem_of_mem_head? hl

/-- Blank lines around a block do not change what is read from it. -/
theorem sameRead_parse {p : Paragraph} (hpre : AllBlank pre) (hpost : AllBlank post) (o : Options) :
    SameRead (ColumnBlock.parse o (unlines (pre ++ (p.lines ++ post))))
      (ColumnBlock.parse o p.text) := by
  have hbare : (lines p.text).dropWhile isAllBlank = p.lines := by
    have hp := dropWhile_lines_padded (p := p) allBlank_nil allBlank_nil
    rwa [List.nil_append, List.append_nil] at hp
  rw [ColumnBlock.parse, ColumnBlock.parse, dropWhile_lines_padded hpre hpost, hbare,
    dropShortTail_append_blank hpost, trim_unlines p.lines_ne_nil hpre hpost, ← Paragraph.text]
  cases hlast : (dropShortTail p.lines).getLast? with
  | none => exact .fault
  | some field =>
    obtain ⟨above, shorts, hfield, hshort, hshorts⟩ := exists_of_getLast?_dropShortTail hlast
    cases hd : Declaration.parse field with
    | error f =>
      simp only [hd]
      exact .fault
    | ok d =>
      cases hread : Entries.readLines o d.type {} (dropShortTail p.lines) with
      | error f =>
        simp only [hd, hread]
        exact .fault
      | ok e =>
        -- Blank lines are short, so those behind the block go with the tail of the field line.
        have hpost' : ∀ s ∈ shorts ++ post, isShort s = true :=
          List.forall_mem_append.mpr ⟨hshorts, fun s hs => isShort_of_isAllBlank (hpost s hs).1⟩
        simp only [hd, hread]
        rw [hfield, List.append_assoc, List.cons_append]
        exact .column (.lines (b := ⟨[], d.property, d.type, d.optional, e.maxLength,
          e.default.filter (· ≠ [])⟩) hd hshort hpost' hshorts)

end

/-! ## Writing what is read -/

namespace SameButTail

variable {c c' : ColumnBlock}

theorem render (h : SameButTail c c') : c.render = c'.render := by
  obtain ⟨hd, hfield, hshorts, hshorts'⟩ := h
  rw [ColumnBlock.render, ColumnBlock.render, ColumnBlock.renderLines_of_lines rfl hfield hshorts,
    ColumnBlock.renderLines_of_lines rfl hfield hshorts']
  rfl

theorem stripIndex (h : SameButTail c c') : SameButTail c.stripIndex c'.stripIndex := by
  obtain ⟨hd, hfield, hshorts, hshorts'⟩ := h
  rename_i b d above shorts shorts' field
  have hhead : (above ++ field :: shorts).head? = (above ++ field :: shorts').head? := by
    cases above <;> rfl
  -- The field line is never the entity line, so the entity is found above it or not at all.
  have hentity : ∀ shorts : List (List Char), (∀ s ∈ shorts, isShort s = true) →
      (above ++ field :: shorts).dropWhile (fun l => !startsWith "@Entity".toList l) =
        if (above.dropWhile fun l => !startsWith "@Entity".toList l).isEmpty then []
        else (above.dropWhile fun l => !startsWith "@Entity".toList l) ++ field :: shorts := by
    intro shorts hshorts
    rw [List.dropWhile_append, ColumnBlock.dropWhile_field hd hshorts]
  simp only [ColumnBlock.stripIndex, hhead, hentity shorts hshorts, hentity shorts' hshorts']
  cases hempty : (above.dropWhile fun l => !startsWith "@Entity".toList l).isEmpty with
  | true =>
    simp only [if_true, ne_eq, not_true_eq_false, and_false, if_false]
    exact .lines hd hfield hshorts hshorts'
  | false =>
    by_cases hindex : ((above ++ field :: shorts').head?.any (contains "@Index".toList)) = true
    · rw [if_neg Bool.false_ne_true, if_neg Bool.false_ne_true, if_pos ⟨hindex, by simp⟩,
        if_pos ⟨hindex, by simp⟩]
      exact .lines hd hfield hshorts hshorts'
    · rw [if_neg fun h => hindex h.1, if_neg fun h => hindex h.1]
      exact .lines hd hfield hshorts hshorts'

end SameButTail

/-- What comes of the members of a source with these imports. -/
def annotateBlocks (o : Options) (imports : List Char) (bs : List (List Char)) :
    Except Fault (List Char) :=
  match (columnBlocks bs).mapM (ColumnBlock.parse o) with
  | .error f => .error f
  | .ok [] => .error .noColumns
  | .ok (first :: rest) => .ok (assemble imports (first.stripIndex :: rest))

theorem annotate_eq (o : Options) (source : List Char) :
    annotate o source =
      annotateBlocks o (importBlock (sourceBlocks source)) (sourceBlocks source) := by
  rw [annotate, readColumns, annotateBlocks]
  cases (columnBlocks (sourceBlocks source)).mapM (ColumnBlock.parse o) with
  | error f => rfl
  | ok cs => cases cs <;> rfl

theorem assemble_congr {cs cs' : List ColumnBlock} (imports : List Char)
    (h : List.Forall₂ SameButTail cs cs') : assemble imports cs = assemble imports cs' := by
  have hused : ∀ v : ValidatorImports, cs.foldl (fun v c => v.register c.type c.optional) v =
      cs'.foldl (fun v c => v.register c.type c.optional) v := by
    induction h with
    | nil => exact fun v => rfl
    | cons hc _ ih =>
      obtain ⟨⟩ := hc
      exact fun v => ih _
  have hrender : cs.flatMap (fun c => c.render ++ ['\n', '\n']) =
      cs'.flatMap (fun c => c.render ++ ['\n', '\n']) := by
    clear hused
    induction h with
    | nil => rfl
    | cons hc _ ih => rw [List.flatMap_cons, List.flatMap_cons, hc.render, ih]
  rw [assemble, assemble, usedBy, usedBy, hused, hrender]

theorem mapM_sameRead {o : Options} {bs bs' : List (List Char)}
    (h : List.Forall₂ (fun b b' => SameRead (ColumnBlock.parse o b) (ColumnBlock.parse o b'))
      bs bs') :
    (∃ f, bs.mapM (ColumnBlock.parse o) = .error f ∧ bs'.mapM (ColumnBlock.parse o) = .error f) ∨
      ∃ cs cs', bs.mapM (ColumnBlock.parse o) = .ok cs ∧
        bs'.mapM (ColumnBlock.parse o) = .ok cs' ∧ List.Forall₂ SameButTail cs cs' := by
  induction h with
  | nil => exact Or.inr ⟨[], [], rfl, rfl, .nil⟩
  | @cons b b' bs bs' hb _ ih =>
    rw [mapM_cons_eq, mapM_cons_eq]
    cases hread : ColumnBlock.parse o b <;> cases hread' : ColumnBlock.parse o b' <;>
      rw [hread, hread'] at hb
    case error.error f f' =>
      cases hb
      exact Or.inl ⟨f, rfl, rfl⟩
    case ok.ok c c' =>
      obtain ⟨f, hf, hf'⟩ | ⟨cs, cs', hcs, hcs', hsame⟩ := ih
      · rw [hf, hf']
        exact Or.inl ⟨f, rfl, rfl⟩
      · rw [hcs, hcs']
        cases hb with
        | column hc => exact Or.inr ⟨c :: cs, c' :: cs', rfl, rfl, .cons hc hsame⟩
    all_goals cases hb

theorem annotateBlocks_congr {o : Options} {bs bs' : List (List Char)} (imports : List Char)
    (h : List.Forall₂ (fun b b' => SameRead (ColumnBlock.parse o b) (ColumnBlock.parse o b'))
      (columnBlocks bs) (columnBlocks bs')) :
    annotateBlocks o imports bs = annotateBlocks o imports bs' := by
  rw [annotateBlocks, annotateBlocks]
  obtain ⟨f, hf, hf'⟩ | ⟨cs, cs', hcs, hcs', hsame⟩ := mapM_sameRead h
  · rw [hf, hf']
  · rw [hcs, hcs']
    cases hsame with
    | nil => rfl
    | cons hc hrest => exact congrArg Except.ok (assemble_congr imports (.cons hc.stripIndex hrest))

end CompanyRegister.Source
