import CompanyRegister.Proofs.Source.Rendering
import CompanyRegister.Proofs.Source.Spelling

/-!
# Rewritten field lines

Rendering a column edits its field line twice: a question mark goes in front of the first colon, and
an initial value takes the place of the semicolons at the end.

    indent name ? gap : type = initial value ; blanks

What comes out is again a field line of the same column exactly when the edits fit the spelling of
the line (`Spelling.Rewritable`): no blanks stand in front of the colon where a question mark is put,
none stand behind the semicolon where a value is put, and the value has no semicolon itself
(`declaration_parse_rendered`).
-/

namespace CompanyRegister.Source

open Text

/-! ## Members of a union -/

/-- Blanks at the end of a union change no member of it. -/
theorem map_trim_splitOn_append {text bs : List Char} (hbs : ∀ c ∈ bs, isBlank c = true) :
    ((text ++ bs).splitOn '|').map trim = (text.splitOn '|').map trim := by
  have hbar : '|' ∉ bs := fun h => absurd (hbs '|' h) (by decide)
  obtain ⟨init, last, hsplit⟩ : ∃ init last, text.splitOn '|' = init ++ [last] :=
    ⟨_, _, (List.dropLast_append_getLast (List.splitOn_ne_nil '|' text)).symm⟩
  rw [splitOn_append hsplit hbar, hsplit, List.map_append, List.map_append, List.map_singleton,
    List.map_singleton, trim_append_blanks hbs]

namespace Spelling

/-! ## The question mark -/

/-- What stands in front of the colon. -/
def head (s : Spelling) : List Char := s.indent ++ (s.name ++ (s.mark ++ s.gap))

theorem text_eq (s : Spelling) : s.text = s.head ++ ':' :: s.behind := by
  simp [text, head]

/-- A line that begins like a spelled one is read from its colon on. -/
theorem parse?_head (s : Spelling) (text : List Char) :
    FieldLine.parse? (s.head ++ ':' :: text) = FieldLine.afterColon? s.name s.marked text := by
  have htext : s.head ++ ':' :: text =
      s.indent ++ (s.name ++ (s.mark ++ (s.gap ++ ':' :: text))) := by
    simp [head]
  rw [htext, parse?_name s (s.isNameRest_of_head?_mark text), afterName?_text]

theorem isNameRest_of_mem_name (s : Spelling) : ∀ c ∈ s.name, isNameRest c = true := by
  intro c hc
  rcases List.mem_cons.mp hc with rfl | hc
  · exact isNameRest_of_isNameStart s.first_start
  · exact s.rest_name c hc

theorem colon_not_mem_head (s : Spelling) : ':' ∉ s.head := by
  have hindent := not_mem_of_forall s.indent_blank (c := ':') (by decide)
  have hname := not_mem_of_forall s.isNameRest_of_mem_name (c := ':') (by decide)
  have hgap := not_mem_of_forall s.gap_blank (c := ':') (by decide)
  have hmark : ':' ∉ s.mark := by
    rw [mark]
    cases s.marked <;> decide
  simp [head, hindent, hname, hmark, hgap]

theorem cut?_text (s : Spelling) : cut? [':'] s.text = some (s.head, s.behind) := by
  rw [text_eq]
  refine cut?_append s.behind fun h => ?_
  have hmem : ':' ∈ s.head ++ [] := h.subset (List.mem_singleton_self ':')
  rw [List.append_nil] at hmem
  exact s.colon_not_mem_head hmem

/-- The head ends in a question mark, but for blanks, when there is one. -/
theorem getLast?_trimEnd_head (s : Spelling) :
    (trimEnd s.head).getLast? = some '?' ↔ s.marked = true := by
  have hassoc : s.head = (s.indent ++ s.name ++ s.mark) ++ s.gap := by simp [head]
  obtain ⟨init, last, hname⟩ : ∃ init last, s.name = init ++ [last] :=
    ⟨_, _, (List.dropLast_append_getLast (List.cons_ne_nil s.first s.rest)).symm⟩
  have hlast : isNameRest last = true := s.isNameRest_of_mem_name last (by simp [hname])
  have hblank : isBlank last = false := by
    rw [Bool.eq_false_iff]
    intro h
    rw [isNameRest_of_isBlank h] at hlast
    cases hlast
  rw [hassoc, hname, mark]
  cases s.marked with
  | true =>
    have htrim : trimEnd (s.indent ++ (init ++ [last]) ++ ['?'] ++ s.gap) =
        s.indent ++ (init ++ [last]) ++ ['?'] :=
      dropEndWhile_append s.gap_blank (isBlank_of_getLast?_concat (by decide))
    rw [if_pos rfl, htrim, List.getLast?_concat]
    simp
  | false =>
    have htrim : trimEnd (s.indent ++ init ++ [last] ++ s.gap) = s.indent ++ init ++ [last] :=
      dropEndWhile_append s.gap_blank (isBlank_of_getLast?_concat hblank)
    have hne : last ≠ '?' := by
      rintro rfl
      exact absurd hlast (by decide)
    rw [if_neg Bool.false_ne_true, List.append_nil, ← List.append_assoc, htrim,
      List.getLast?_concat]
    simp [hne]

theorem markOptional_text (s : Spelling) :
    markOptional s.text = (if s.marked then s.head else s.head ++ ['?']) ++ ':' :: s.behind := by
  simp only [markOptional, cut?_text]
  by_cases hmarked : s.marked = true
  · rw [if_pos (s.getLast?_trimEnd_head.mpr hmarked), if_pos hmarked, text_eq]
  · rw [if_neg fun h => hmarked (s.getLast?_trimEnd_head.mp h), if_neg hmarked]
    simp

/-- A question mark behind blanks is none: the line is no field line any more. -/
theorem parse?_mark_behind_gap (s : Spelling) (hmarked : s.marked = false) (hgap : s.gap ≠ [])
    (text : List Char) : FieldLine.parse? (s.head ++ '?' :: ':' :: text) = none := by
  have htext : s.head ++ '?' :: ':' :: text =
      s.indent ++ (s.name ++ (s.gap ++ '?' :: ':' :: text)) := by
    simp [head, mark, hmarked]
  have hmark : FieldLine.takeMark (s.gap ++ '?' :: ':' :: text) =
      (false, s.gap ++ '?' :: ':' :: text) := by
    obtain ⟨b, bs, hgap⟩ := List.exists_cons_of_ne_nil hgap
    have hb : b ≠ '?' := by
      rintro rfl
      exact absurd (s.gap_blank '?' (by simp [hgap])) (by decide)
    rw [hgap]
    exact takeMark_of_ne hb _
  rw [htext, parse?_name s (isNameRest_of_head?_gap s.gap_blank (by decide) _),
    FieldLine.afterName?, hmark]
  dsimp only
  rw [trimStart_blanks s.gap_blank (by decide)]
  rfl

/-! ## The initial value -/

/-- Behind a semicolon there may be nothing but blanks. -/
theorem afterColon?_closing (s : Spelling) (text : List Char) :
    FieldLine.afterColon? s.name s.marked (s.type ++ (s.initialText ++ ';' :: text)) =
      if isAllBlank text then some s.fieldLine else none := by
  have hending : FieldLine.isEnding (s.initialText ++ ';' :: text) = isAllBlank text := by
    rw [initialText]
    cases hinitial : s.initial with
    | none => rfl
    | some w =>
      show isAllBlank (((w ++ ';' :: text).dropWhile (· != ';')).drop 1) = isAllBlank text
      rw [dropWhile_append_of_not_mem (s.initial_chars w hinitial)]
      rfl
  have hhead : ∀ c ∈ (s.initialText ++ ';' :: text).head?, FieldLine.isTypeChar c = false := by
    intro c hc
    rw [initialText] at hc
    cases hinitial : s.initial <;> rw [hinitial] at hc <;> (cases hc; decide)
  rw [FieldLine.afterColon?, takeWhile_append_of_head? s.type_chars hhead,
    dropWhile_append_of_head? s.type_chars hhead, hending]
  by_cases hblank : isAllBlank text = true
  · rw [if_pos ⟨s.type_ne_nil, hblank⟩, if_pos hblank]
    rfl
  · rw [if_neg fun h => hblank h.2, if_neg hblank]

/-- The spelling with a further initial value behind what it has, and without a semicolon. -/
def addInitial (s : Spelling) (v : List Char) (hv : ';' ∉ v) : Spelling :=
  { s with
    type := s.type ++ s.initial.elim [' '] fun _ => []
    initial := some (s.initial.elim [] (· ++ [' ', '=']) ++ ' ' :: v)
    closing := none
    type_ne_nil := by simp [s.type_ne_nil]
    type_chars := by
      intro c hc
      rcases List.mem_append.mp hc with hc | hc
      · exact s.type_chars c hc
      · cases hinitial : s.initial with
        | none =>
          rw [hinitial] at hc
          rw [List.mem_singleton.mp hc]
          decide
        | some w =>
          rw [hinitial] at hc
          cases hc
    initial_chars := by
      rintro w ⟨⟩
      cases hinitial : s.initial with
      | none => simp [hv]
      | some w => simp [s.initial_chars w hinitial, hv]
    closing_blank := by simp }

theorem addInitial_text (s : Spelling) {v : List Char} (hv : ';' ∉ v) (text : List Char) :
    (s.addInitial v hv).type ++ ((s.addInitial v hv).initialText ++ text) =
      s.type ++ (s.initialText ++ (" = ".toList ++ (v ++ text))) := by
  simp only [addInitial, initialText]
  cases s.initial <;> simp

/-- A further initial value leaves what a line declares as it is. -/
theorem fieldLine_addInitial (s : Spelling) {v : List Char} (hv : ';' ∉ v) :
    (s.addInitial v hv).fieldLine = s.fieldLine := by
  have hmembers : ((s.addInitial v hv).type.splitOn '|').map trim =
      (s.type.splitOn '|').map trim := by
    refine map_trim_splitOn_append fun c hc => ?_
    cases hinitial : s.initial with
    | none =>
      rw [hinitial] at hc
      rw [List.mem_singleton.mp hc]
      decide
    | some w =>
      rw [hinitial] at hc
      cases hc
  rw [fieldLine, hmembers]
  rfl

theorem semicolon_not_mem_initialText (s : Spelling) : ';' ∉ s.type ++ s.initialText := by
  have htype := not_mem_of_forall s.type_chars (c := ';') (by decide)
  rw [initialText]
  cases hinitial : s.initial with
  | none => simp [htype]
  | some w => simp [htype, s.initial_chars w hinitial]

/-- The last semicolon goes, when nothing follows it. -/
theorem dropEndWhile_behind (s : Spelling) (hclosing : s.closing.getD [] = []) :
    dropEndWhile (· == ';') s.behind = s.type ++ s.initialText := by
  have hbehind : s.behind = (s.type ++ s.initialText) ++ s.closingText := by
    simp [behind, ending]
  have htail : ∀ c ∈ s.closingText, (c == ';') = true := by
    rw [closingText]
    cases hcase : s.closing with
    | none => simp
    | some bs =>
      rw [hcase] at hclosing
      have hnil : bs = [] := hclosing
      simp [hnil]
  rw [hbehind]
  refine dropEndWhile_append htail fun c hc => beq_eq_false_iff_ne.mpr ?_
  rintro rfl
  exact s.semicolon_not_mem_initialText (List.mem_of_getLast? hc)

/-- A value is put behind blanks that follow a semicolon, where none is read. -/
theorem initialise_behind_blanks (s : Spelling) {b : Char} {bs : List Char}
    (hclosing : s.closing = some (b :: bs)) (v : List Char) :
    initialise v s.behind =
      s.type ++ (s.initialText ++ ';' :: (b :: bs ++ (" = ".toList ++ (v ++ [';'])))) := by
  have hlast : ∀ c ∈ s.behind.getLast?, (c == ';') = false := by
    obtain ⟨init, last, hsplit⟩ : ∃ init last, b :: bs = init ++ [last] :=
      ⟨_, _, (List.dropLast_append_getLast (List.cons_ne_nil b bs)).symm⟩
    have hbehind : s.behind = (s.type ++ (s.initialText ++ ';' :: init)) ++ [last] := by
      simp [behind, ending, closingText, hclosing, hsplit]
    rw [hbehind, List.getLast?_concat]
    rintro c ⟨⟩
    rw [beq_eq_false_iff_ne]
    rintro rfl
    exact absurd (s.closing_blank _ hclosing ';' (by simp [hsplit])) (by decide)
  have hdrop : dropEndWhile (· == ';') s.behind = s.behind := by
    rw [← List.append_nil s.behind]
    exact (dropEndWhile_append (by simp) hlast).trans (List.append_nil _).symm
  rw [initialise, hdrop]
  simp [behind, ending, closingText, hclosing]

/-- A text with a semicolon at its end has one with no more than blanks behind it as its first
exactly when there is no other. -/
theorem exists_first_semicolon (v : List Char) :
    ∃ front rest, v ++ [';'] = front ++ ';' :: rest ∧ ';' ∉ front ∧
      (isAllBlank rest = true ↔ ';' ∉ v) := by
  obtain ⟨front, rest, hsplit, hfront⟩ :=
    List.eq_append_cons_of_mem (List.mem_append_right v (List.mem_singleton_self ';'))
  refine ⟨front, rest, hsplit, hfront, ?_⟩
  rcases List.eq_nil_or_concat rest with rfl | ⟨init, last, rfl⟩
  · have hv : v = front := List.append_inj_left' hsplit rfl
    simp [hv, hfront, isAllBlank]
  · have hconcat : v ++ [';'] = (front ++ ';' :: init) ++ [last] := by simp [hsplit]
    obtain ⟨hv, hlast⟩ := List.append_inj' hconcat rfl
    obtain rfl : ';' = last := List.head_eq_of_cons_eq hlast
    have hblank : isBlank ';' = false := by decide
    simp [hv, isAllBlank, hblank]

theorem afterColon?_initialise (s : Spelling) (v : List Char) :
    FieldLine.afterColon? s.name s.marked (initialise v s.behind) =
      if s.closing.getD [] = [] ∧ ';' ∉ v then some s.fieldLine else none := by
  by_cases hclosing : s.closing.getD [] = []
  · -- The value goes on from the type or the initial value, up to the first semicolon in it.
    obtain ⟨front, rest, hsplit, hfront, hrest⟩ := exists_first_semicolon v
    have htext : initialise v s.behind =
        (s.addInitial front hfront).type ++
          ((s.addInitial front hfront).initialText ++ ';' :: rest) := by
      rw [addInitial_text, ← hsplit, initialise, dropEndWhile_behind s hclosing]
      simp
    have hread := (s.addInitial front hfront).afterColon?_closing rest
    rw [fieldLine_addInitial, ← htext] at hread
    rw [show FieldLine.afterColon? s.name s.marked _ = _ from hread]
    by_cases hv : ';' ∈ v
    · rw [if_neg fun h => hrest.mp h hv, if_neg fun h => h.2 hv]
    · rw [if_pos (hrest.mpr hv), if_pos ⟨hclosing, hv⟩]
  · -- The semicolon of the line stays in front of blanks, and the value behind it is no blank.
    obtain ⟨b, bs, hbs⟩ : ∃ b bs, s.closing = some (b :: bs) := by
      cases hcase : s.closing with
      | none => simp [hcase] at hclosing
      | some bs =>
        rw [hcase] at hclosing
        obtain ⟨b, bs, rfl⟩ := List.exists_cons_of_ne_nil hclosing
        exact ⟨b, bs, rfl⟩
    have hblank : isAllBlank (b :: bs ++ (" = ".toList ++ (v ++ [';']))) = false := by
      have hequals : isBlank '=' = false := by decide
      simp [isAllBlank, hequals]
    rw [initialise_behind_blanks s hbs, afterColon?_closing, hblank, if_neg Bool.false_ne_true,
      if_neg fun h => hclosing h.1]

/-! ## Both edits -/

/-- Whether a line can be given a question mark and an initial value where they are wanted. -/
structure Rewritable (s : Spelling) (optional : Bool) (default : Option (List Char)) : Prop where
  /-- No blanks stand where the question mark is put. -/
  mark : optional = true → s.marked = false → s.gap = []
  /-- No blanks stand behind the semicolon that the value takes the place of. -/
  closing : ∀ v ∈ default, s.closing.getD [] = []
  value : ∀ v ∈ default, ';' ∉ v

/-- The head of the line with the question mark that is wanted. -/
def rewrittenHead (s : Spelling) (optional : Bool) : List Char :=
  if optional = true ∧ s.marked = false then s.head ++ ['?'] else s.head

/-- What follows the colon, with the initial value that is wanted. -/
def rewrittenBehind (s : Spelling) (default : Option (List Char)) : List Char :=
  default.elim s.behind fun v => initialise v s.behind

theorem initialise_append_colon (v head behind : List Char) :
    initialise v (head ++ ':' :: behind) = head ++ ':' :: initialise v behind := by
  rw [initialise, dropEndWhile_append_cons (by decide), initialise]
  simp

/-- The first edit changes the head of a line alone and the second what follows its colon. -/
theorem renderField_text (s : Spelling) (b : ColumnBlock) :
    b.renderField s.text = s.rewrittenHead b.optional ++ ':' :: s.rewrittenBehind b.default := by
  have hmark : (if b.optional then markOptional s.text else s.text) =
      s.rewrittenHead b.optional ++ ':' :: s.behind := by
    rw [rewrittenHead, markOptional_text, text_eq]
    cases b.optional <;> cases s.marked <;> rfl
  rw [ColumnBlock.renderField, hmark, rewrittenBehind]
  cases b.default with
  | none => rfl
  | some v => exact initialise_append_colon v _ _

/-- The spelling with the question mark that is wanted. -/
def addMark (s : Spelling) (optional : Bool) : Spelling :=
  { s with marked := s.marked || optional }

theorem rewrittenHead_eq (s : Spelling) {optional : Bool}
    (h : optional = true → s.marked = false → s.gap = []) :
    s.rewrittenHead optional = (s.addMark optional).head := by
  have hhead : (s.addMark optional).head =
      s.indent ++ (s.name ++ ((if s.marked || optional then ['?'] else []) ++ s.gap)) := rfl
  rw [hhead, rewrittenHead, head, mark]
  cases optional with
  | false => simp
  | true =>
    cases hmarked : s.marked with
    | true => simp
    | false => simp [h rfl hmarked]

theorem afterColon?_rewrittenBehind (s : Spelling) (default : Option (List Char)) :
    FieldLine.afterColon? s.name s.marked (s.rewrittenBehind default) =
      if ∀ v ∈ default, s.closing.getD [] = [] ∧ ';' ∉ v then some s.fieldLine else none := by
  cases default with
  | none => exact s.afterColon?_behind.trans (if_pos (by simp)).symm
  | some v =>
    refine (s.afterColon?_initialise v).trans (if_congr ?_ rfl rfl)
    simp

/-- A rewritten line is read as the same field, with the question mark that it was given. -/
theorem parse?_renderField (s : Spelling) {b : ColumnBlock}
    (h : s.Rewritable b.optional b.default) :
    FieldLine.parse? (b.renderField s.text) = some (s.addMark b.optional).fieldLine := by
  have hbehind := (s.addMark b.optional).afterColon?_rewrittenBehind b.default
  rw [renderField_text, rewrittenHead_eq s h.mark, parse?_head]
  exact hbehind.trans (if_pos fun v hv => ⟨h.closing v hv, h.value v hv⟩)

/-- A line that the edits do not fit is no field line when they are done. -/
theorem parse?_renderField_eq_none (s : Spelling) {b : ColumnBlock}
    (h : ¬ s.Rewritable b.optional b.default) : FieldLine.parse? (b.renderField s.text) = none := by
  rw [renderField_text]
  by_cases hmark : b.optional = true → s.marked = false → s.gap = []
  · have hbehind := (s.addMark b.optional).afterColon?_rewrittenBehind b.default
    rw [rewrittenHead_eq s hmark, parse?_head]
    exact hbehind.trans
      (if_neg fun hv => h ⟨hmark, fun v hd => (hv v hd).1, fun v hd => (hv v hd).2⟩)
  · push Not at hmark
    obtain ⟨hoptional, hmarked, hgap⟩ := hmark
    have hunmarked := s.parse?_mark_behind_gap hmarked hgap (s.rewrittenBehind b.default)
    rw [rewrittenHead, if_pos ⟨hoptional, hmarked⟩, List.append_assoc]
    exact hunmarked

/-- A question mark on a field that may be missing says nothing new. -/
theorem declaration_addMark (s : Spelling) {d : Declaration}
    (h : s.fieldLine.declaration = .ok d) :
    (s.addMark d.optional).fieldLine.declaration = .ok d := by
  rw [FieldLine.declaration] at h ⊢
  have hname : (s.addMark d.optional).fieldLine.typeName = s.fieldLine.typeName := rfl
  rw [hname]
  split at h
  · next type htype =>
    cases h
    have hoptional : (s.addMark s.fieldLine.isOptional).fieldLine.isOptional =
        s.fieldLine.isOptional := by
      simp only [FieldLine.isOptional, fieldLine, addMark]
      grind
    show Except.ok (⟨s.name, type, (s.addMark s.fieldLine.isOptional).fieldLine.isOptional⟩ :
      Declaration) = _
    rw [hoptional]
    rfl
  · cases h

theorem declaration_parse_renderField (s : Spelling) {b : ColumnBlock}
    (h : Declaration.parse s.text = .ok ⟨b.property, b.type, b.optional⟩) :
    Declaration.parse (b.renderField s.text) = .ok ⟨b.property, b.type, b.optional⟩ ↔
      s.Rewritable b.optional b.default := by
  rw [Declaration.parse, parse?_text] at h
  constructor
  · intro hparse
    by_contra hfit
    rw [Declaration.parse, parse?_renderField_eq_none s hfit] at hparse
    cases hparse
  · intro hfit
    rw [Declaration.parse, parse?_renderField s hfit]
    exact s.declaration_addMark h

end Spelling

/-! ## Rendered columns -/

theorem getLast?_renderLines {b : ColumnBlock} {line : List Char}
    (h : (dropShortTail b.lines).getLast? = some line) :
    b.renderLines.getLast? = some (b.renderField line) := by
  rw [ColumnBlock.renderLines, h]
  exact List.getLast?_concat

/-- The last line of a rendered column declares that column again exactly when the edits fit the
spelling of its field line. -/
theorem declaration_parse_rendered {o : Options} {block : List Char} {b : ColumnBlock}
    (h : ColumnBlock.parse o block = .ok b) :
    ∃ (s : Spelling) (line : List Char), (dropShortTail b.lines).getLast? = some s.text ∧
      (lines b.render).getLast? = some line ∧
      (Declaration.parse line = .ok ⟨b.property, b.type, b.optional⟩ ↔
        s.Rewritable b.optional b.default) := by
  have hsound := ColumnBlock.sound_of_parse h
  obtain ⟨field, hfield, hdeclared⟩ := hsound.field
  obtain ⟨s, rfl⟩ := exists_spelling_of_declaration hdeclared
  refine ⟨s, b.renderField s.text, hfield, ?_, s.declaration_parse_renderField hdeclared⟩
  rw [ColumnBlock.lines_render (ColumnBlock.linewise_of_parse h) hsound]
  exact getLast?_renderLines hfield

/-- A text that may be missing, with a default and no question mark. -/
def unmarkedLabel : List Char :=
  "@Column(\"varchar\", \x7b length: 60, default: () => \"('x')\" \x7d)\n  label: string | null;"
    |>.toList

def unmarkedLabelColumn : ColumnBlock where
  lines := lines unmarkedLabel
  property := "label".toList
  type := .string
  optional := true
  maxLength := some 60
  default := some "'x'".toList

theorem unmarkedLabel_redeclared :
    ColumnBlock.parse .standard unmarkedLabel = .ok unmarkedLabelColumn ∧
      ∃ (s : Spelling) (line : List Char),
        (dropShortTail unmarkedLabelColumn.lines).getLast? = some s.text ∧
        (lines unmarkedLabelColumn.render).getLast? = some line ∧
        Declaration.parse line = .ok ⟨"label".toList, .string, true⟩ ∧
        s.Rewritable true (some "'x'".toList) := by
  have h : ColumnBlock.parse .standard unmarkedLabel = .ok unmarkedLabelColumn := by decide +kernel
  have hlast : (lines unmarkedLabelColumn.render).getLast? =
      some "  label?: string | null = 'x';".toList := by decide +kernel
  have hparse : Declaration.parse "  label?: string | null = 'x';".toList =
      .ok ⟨"label".toList, .string, true⟩ := by decide +kernel
  obtain ⟨s, line, hs, hline, hiff⟩ := declaration_parse_rendered h
  obtain rfl : _ = line := Option.some.inj (hlast.symm.trans hline)
  exact ⟨h, s, _, hs, hlast, hparse, hiff.mp hparse⟩

/-- A number with a default, whose field line has a blank behind its semicolon. -/
def trailingBlank : List Char :=
  "@Column(\"int\", \x7b default: () => \"(0)\" \x7d)\nrank: number; ".toList

def trailingBlankColumn : ColumnBlock where
  lines := lines trailingBlank
  property := "rank".toList
  type := .number
  optional := false
  maxLength := none
  default := some "0".toList

/-- The value is put behind the blank, and the semicolon stays where it is. -/
theorem trailingBlank_not_redeclared :
    ColumnBlock.parse .standard trailingBlank = .ok trailingBlankColumn ∧
      (lines trailingBlankColumn.render).getLast? = some "rank: number;  = 0;".toList ∧
      Declaration.parse "rank: number;  = 0;".toList ≠ .ok ⟨"rank".toList, .number, false⟩ := by
  decide +kernel

end CompanyRegister.Source
