import CompanyRegister.Proofs.Source.Rewriting

/-!
# Lines that stay

Rendering a column leaves the lines of its block alone: all that count are written again one for
one, but the last, which is the field line, and the decorators of the rules come in front of it. The
field line itself changes in two places at most, in front of its first colon and at its end
(`Rewritten`). Leaving out index decorators before that takes whole lines off the front and nothing
else (`renderLines_stripIndex`).
-/

namespace CompanyRegister.Source

open Text

/-! ## Field lines -/

/-- The question mark that a name is given: none if the value is always there, or if the name has
one. -/
def addedMark (optional : Bool) (name : List Char) : List Char :=
  if optional = true ∧ (trimEnd name).getLast? ≠ some '?' then ['?'] else []

/-- The end of a field line: the initial value if there is one, and else the semicolons that are
there. -/
def lineEnd (semicolons : List Char) : Option (List Char) → List Char
  | some value => " = ".toList ++ value ++ [';']
  | none => semicolons

/-- How a field line is rewritten: in front of its first colon, and in place of all semicolons at its
end. -/
inductive Rewritten (b : ColumnBlock) : List Char → List Char → Prop
  | edit {name rest semicolons : List Char} :
      ':' ∉ name → rest.getLast? ≠ some ';' → (∀ c ∈ semicolons, c = ';') →
        Rewritten b (name ++ ':' :: (rest ++ semicolons))
          (name ++ addedMark b.optional name ++ ':' :: (rest ++ lineEnd semicolons b.default))

/-- A text is what is left of it without the semicolons at its end, and these. -/
theorem exists_semicolons (text : List Char) :
    ∃ rest semicolons, text = rest ++ semicolons ∧ rest.getLast? ≠ some ';' ∧
      (∀ c ∈ semicolons, c = ';') ∧ dropEndWhile (· == ';') text = rest := by
  refine ⟨dropEndWhile (· == ';') text, (text.reverse.takeWhile (· == ';')).reverse, ?_, ?_, ?_,
    rfl⟩
  · rw [dropEndWhile, ← List.reverse_append, List.takeWhile_append_dropWhile, List.reverse_reverse]
  · rw [dropEndWhile, List.getLast?_reverse]
    intro h
    have hnot := List.head?_dropWhile_not (· == ';') text.reverse
    rw [h] at hnot
    simp at hnot
  · intro c hc
    have hsemicolon : (c == ';') = true :=
      List.mem_takeWhile_imp (p := (· == ';')) (List.mem_reverse.mp hc)
    exact beq_iff_eq.mp hsemicolon

theorem rewrittenHead_eq_append (s : Spelling) (optional : Bool) :
    s.rewrittenHead optional = s.head ++ addedMark optional s.head := by
  have hmarked : (trimEnd s.head).getLast? ≠ some '?' ↔ s.marked = false := by
    rw [← Bool.not_eq_true]
    exact not_congr s.getLast?_trimEnd_head
  rw [Spelling.rewrittenHead, addedMark, if_congr (and_congr_right fun _ => hmarked) rfl rfl]
  split
  · rfl
  · rw [List.append_nil]

/-- What is in front of the end of a field line depends on the question mark alone, and its end on
the default alone. -/
theorem exists_renderField_eq (s : Spelling) :
    ∃ rest semicolons, s.behind = rest ++ semicolons ∧ rest.getLast? ≠ some ';' ∧
      (∀ c ∈ semicolons, c = ';') ∧ ∀ b : ColumnBlock, b.renderField s.text =
        s.head ++ addedMark b.optional s.head ++ ':' :: (rest ++ lineEnd semicolons b.default) := by
  obtain ⟨rest, semicolons, hbehind, hrest, hsemicolons, hdrop⟩ := exists_semicolons s.behind
  refine ⟨rest, semicolons, hbehind, hrest, hsemicolons, fun b => ?_⟩
  have hend : s.rewrittenBehind b.default = rest ++ lineEnd semicolons b.default := by
    rw [Spelling.rewrittenBehind]
    cases b.default with
    | none => exact hbehind
    | some v =>
      show initialise v s.behind = rest ++ (" = ".toList ++ v ++ [';'])
      rw [initialise, hdrop, List.append_assoc, List.append_assoc, List.append_assoc]
  rw [s.renderField_text, rewrittenHead_eq_append, hend]

/-- The field line of a column is edited in these two places and nowhere else. -/
theorem rewritten_renderField (s : Spelling) (b : ColumnBlock) :
    Rewritten b s.text (b.renderField s.text) := by
  obtain ⟨rest, semicolons, hbehind, hrest, hsemicolons, hrender⟩ := exists_renderField_eq s
  rw [hrender b, s.text_eq, hbehind]
  exact .edit s.colon_not_mem_head hrest hsemicolons

/-! ## Blocks -/

/-- The lines of a block that count, from the first that is not blank to the last that is not short,
the field line. -/
inductive HasBody (block : List Char) (above : List (List Char)) (field : List Char) : Prop
  | lines {blanks shorts : List (List Char)} :
      lines block = blanks ++ (above ++ field :: shorts) →
        (∀ l ∈ blanks, isAllBlank l = true) → (∀ l ∈ (above ++ [field]).head?, isAllBlank l = false) →
        2 ≤ byteCount (trim field) → (∀ l ∈ shorts, byteCount (trim l) < 2) →
          HasBody block above field

namespace ColumnBlock

theorem hasBody_of_lines {block : List Char} {above shorts : List (List Char)} {field : List Char}
    (hlines : (Text.lines block).dropWhile isAllBlank = above ++ field :: shorts)
    (hfield : isShort field = false) (hshorts : ∀ s ∈ shorts, isShort s = true) :
    HasBody block above field := by
  have hblock : Text.lines block =
      (Text.lines block).takeWhile isAllBlank ++ (above ++ field :: shorts) := by
    rw [← hlines, List.takeWhile_append_dropWhile]
  apply HasBody.lines hblock
  · intro l hl
    exact List.mem_takeWhile_imp hl
  · intro l hl
    have hnot := List.head?_dropWhile_not isAllBlank (Text.lines block)
    have hhead : (above ++ field :: shorts).head? = (above ++ [field]).head? := by
      cases above <;> rfl
    rw [hlines, hhead, hl] at hnot
    simpa using hnot
  · exact Nat.not_lt.mp (of_decide_eq_false hfield)
  · intro l hl
    exact of_decide_eq_true (hshorts l hl)

/-! ## Index decorators -/

/-- Leaving out index decorators takes whole lines off the front of what is rendered. -/
theorem renderLines_stripIndex {b : ColumnBlock} (hb : b.Sound) :
    b.stripIndex.renderLines <:+ b.renderLines := by
  obtain ⟨⟨line, hline, hd⟩, -⟩ := hb
  obtain ⟨above, shorts, hlines, hshort, hshorts⟩ := exists_of_getLast?_dropShortTail hline
  rw [stripIndex]
  split
  · next hindex =>
    have hne := hindex.2
    rw [hlines] at hne
    rw [renderLines_of_lines hlines hshort hshorts,
      renderLines_of_lines ((congrArg _ hlines).trans (dropWhile_append_field hd hshorts hne))
        hshort hshorts, List.append_assoc, List.append_assoc]
    obtain ⟨front, hfront⟩ :=
      List.dropWhile_suffix (l := above) fun l => !startsWith "@Entity".toList l
    exact ⟨front, (List.append_assoc front _ _).symm.trans (congrArg (· ++ _) hfront)⟩
  · exact List.suffix_rfl

/-! ## Rendered blocks -/

/-- The lines of a rendered column are those of its block up to the field line, then the decorators
of its rules, indented as the field line is, and the field line, rewritten. Leaving out index
decorators leaves out whole lines in front of it. -/
theorem lines_of_rendered {o : Options} {block : List Char} {b : ColumnBlock}
    (h : parse o block = .ok b) :
    ∃ above field field', HasBody block above field ∧ Rewritten b field field' ∧
      Text.lines b.render =
        above ++ b.rules.map (fun r => field.takeWhile isBlank ++ r.text) ++ [field'] ∧
      Text.lines b.stripIndex.render <:+ Text.lines b.render ∧
      (Text.lines b.stripIndex.render).getLast? = some field' := by
  have hsound := sound_of_parse h
  have hlinewise := linewise_of_parse h
  obtain ⟨field, hfield, hdeclared⟩ := hsound.field
  obtain ⟨s, rfl⟩ := exists_spelling_of_declaration hdeclared
  obtain ⟨above, shorts, hlines, hshort, hshorts⟩ := exists_of_getLast?_dropShortTail hfield
  have hrender := lines_render hlinewise hsound
  have hstripped := lines_render (linewise_stripIndex hlinewise) (sound_stripIndex hsound)
  have hsuffix := renderLines_stripIndex hsound
  have hblock := (parse_eq_ok_iff.mp h).1.symm.trans hlines
  refine ⟨above, s.text, b.renderField s.text, hasBody_of_lines hblock hshort hshorts,
    rewritten_renderField s b, ?_, ?_, ?_⟩
  · rw [hrender, renderLines_of_lines hlines hshort hshorts]
  · rw [hrender, hstripped]
    exact hsuffix
  · obtain ⟨dropped, hdropped⟩ := hsuffix
    have hlast := List.getLast?_append_of_ne_nil dropped
      (renderLines_ne_nil (sound_stripIndex hsound))
    rw [hstripped, ← hlast, hdropped, getLast?_renderLines hfield]

/-- A column behind an index and a class header, with an empty line before and a brace after it. -/
def indexedLabel : List Char :=
  ("\n@Index(\"PK\", [\"label\"])\n@Entity(\"T\")\nexport class T \x7b\n" ++
    "  @Column(\"varchar\", \x7b length: 60, default: () => \"('x')\" \x7d)\n" ++
    "  label : string | null;\n\x7d").toList

def indexedLabelColumn : ColumnBlock where
  lines := (Text.lines indexedLabel).drop 1
  property := "label".toList
  type := .string
  optional := true
  maxLength := some 60
  default := some "'x'".toList

theorem indexedLabel_rendered :
    parse .standard indexedLabel = .ok indexedLabelColumn ∧
      ∃ above field, HasBody indexedLabel above field ∧
        Rewritten indexedLabelColumn field "  label ?: string | null = 'x';".toList ∧
        Text.lines indexedLabelColumn.render =
          above ++ indexedLabelColumn.rules.map (fun r => field.takeWhile isBlank ++ r.text) ++
            ["  label ?: string | null = 'x';".toList] ∧
        Text.lines indexedLabelColumn.stripIndex.render <:+ Text.lines indexedLabelColumn.render := by
  have h : parse .standard indexedLabel = .ok indexedLabelColumn := by decide +kernel
  have hlast : (Text.lines indexedLabelColumn.stripIndex.render).getLast? =
      some "  label ?: string | null = 'x';".toList := by decide +kernel
  obtain ⟨above, field, field', hbody, hfield, hlines, hsuffix, hlast'⟩ := lines_of_rendered h
  obtain rfl : _ = field' := Option.some.inj (hlast.symm.trans hlast')
  exact ⟨h, above, field, hbody, hfield, hlines, hsuffix⟩

end ColumnBlock

end CompanyRegister.Source
