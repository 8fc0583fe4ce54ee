import CompanyRegister.Proofs.Source.Agreement
import CompanyRegister.Proofs.Source.Headers
import CompanyRegister.Proofs.Source.Refusals

/-!
# Line ends

A source may end its lines with a line feed alone or with a carriage return in front of it. Both are
read alike, line by line (`annotate_line_ends`): before anything else is looked at, the carriage
returns are gone, and none comes back, neither in the annotated source nor in the message of a fault.

Whatever a fault quotes is a part of the source, but for the two characters that close an object
again from which a default has been cut off (`Fault.Lacks`).
-/

namespace CompanyRegister.Source

open Text

/-! ## Carriage returns -/

/-- A text with a carriage return in front of every line feed. -/
def withReturns (text : List Char) : List Char :=
  text.flatMap fun c => if c = '\n' then ['\r', '\n'] else [c]

/-- Whether one text is another with carriage returns in front of some of its line feeds. -/
inductive AddsReturns : List Char → List Char → Prop
  | nil : AddsReturns [] []
  | keep {c : Char} {s t : List Char} : AddsReturns s t → AddsReturns (c :: s) (c :: t)
  | add {s t : List Char} : AddsReturns s t → AddsReturns ('\n' :: s) ('\r' :: '\n' :: t)

theorem addsReturns_withReturns (text : List Char) : AddsReturns text (withReturns text) := by
  induction text with
  | nil => exact .nil
  | cons c text ih =>
    rw [withReturns, List.flatMap_cons]
    split
    · next hc =>
      cases hc
      exact .add ih
    · exact .keep ih

theorem joinLineEnds_cons {c : Char} (hc : c ≠ '\r') (text : List Char) :
    joinLineEnds (c :: text) = c :: joinLineEnds text := by
  rw [joinLineEnds.eq_def]
  split
  · next heq => cases heq
  · next heq => exact absurd (List.cons.inj heq).1 hc
  · next heq =>
    cases heq
    rfl

/-- Carriage returns that were added to a text without any are left out again. -/
theorem joinLineEnds_of_addsReturns {s t : List Char} (h : AddsReturns s t) (hs : '\r' ∉ s) :
    joinLineEnds t = s := by
  induction h with
  | nil => rfl
  | @keep c s t _ ih =>
    rw [List.mem_cons, not_or] at hs
    rw [joinLineEnds_cons (Ne.symm hs.1), ih hs.2]
  | add _ ih => rw [joinLineEnds, ih fun hmem => hs (List.mem_cons_of_mem _ hmem)]

/-! ## What faults quote -/

namespace Fault

/-- The parts of a source that a fault quotes. -/
def quotes : Fault → List (List Char)
  | .noColumns => []
  | .unsupportedType property typeName => [property, typeName]
  | .missingField line => [line]
  | .malformedOptions line => [line]
  | .malformedLength line => [line]

/-- A character that is in nothing that the fault quotes. -/
def Lacks (c : Char) (f : Fault) : Prop := ∀ t ∈ f.quotes, c ∉ t

theorem lacks_of_quotes {c : Char} {f : Fault} {t : List Char} (hquotes : f.quotes = [t])
    (ht : c ∉ t) : f.Lacks c := by
  rw [Lacks, hquotes]
  exact List.forall_mem_singleton.mpr ht

theorem not_mem_quoted {c : Char} {before after : String} {text : List Char}
    (hbefore : c ∉ before.toList) (htext : c ∉ text) (hafter : c ∉ after.toList) :
    c ∉ (before ++ String.ofList text ++ after).toList := by
  simp only [String.toList_append, String.toList_ofList, List.mem_append, not_or]
  exact ⟨⟨hbefore, htext⟩, hafter⟩

theorem not_mem_message {c : Char} (hc : c ∈ lineEnds) {f : Fault} (h : f.Lacks c) :
    c ∉ f.message.toList := by
  have hclose : c ∉ "`".toList := not_mem_of_mem_lineEnds hc (by decide)
  cases f with
  | noColumns => exact not_mem_of_mem_lineEnds hc (by decide)
  | unsupportedType property typeName =>
    have hfield : c ∉ "field `".toList := not_mem_of_mem_lineEnds hc (by decide)
    have htype : c ∉ "` has unsupported type `".toList := not_mem_of_mem_lineEnds hc (by decide)
    have hproperty := not_mem_quoted hfield (h property (by simp [quotes])) htype
    exact not_mem_quoted hproperty (h typeName (by simp [quotes])) hclose
  | missingField line =>
    have hopen : c ∉ "column block has no field declaration: `".toList :=
      not_mem_of_mem_lineEnds hc (by decide)
    exact not_mem_quoted hopen (h line (by simp [quotes])) hclose
  | malformedOptions line =>
    have hopen : c ∉ "malformed column options object: `".toList :=
      not_mem_of_mem_lineEnds hc (by decide)
    exact not_mem_quoted hopen (h line (by simp [quotes])) hclose
  | malformedLength line =>
    have hopen : c ∉ "malformed column length: `".toList := not_mem_of_mem_lineEnds hc (by decide)
    exact not_mem_quoted hopen (h line (by simp [quotes])) hclose

end Fault

section Faults

variable {c : Char} {o : Options} {line : List Char} {f : Fault}

/-! ### Field lines -/

theorem mem_of_mem_splitOn {c d : Char} {text piece : List Char} (h : piece ∈ text.splitOn d)
    (hc : c ∈ piece) : c ∈ text := by
  have hjoined : c ∈ [d].intercalate (text.splitOn d) := mem_intercalate_of_mem h hc
  rwa [List.intercalate_splitOn] at hjoined

/-- The name and the type of a field line are parts of it. -/
theorem Spelling.lacks_unsupportedType (hc : c ∈ lineEnds) {s : Spelling} (h : c ∉ s.text) :
    (Fault.unsupportedType s.name s.fieldLine.typeName).Lacks c := by
  have hname : c ∉ s.name := fun hmem => h (by simp [text, hmem])
  have htype : c ∉ s.type := fun hmem => h (by simp [text, behind, hmem])
  have hmembers : ∀ m ∈ s.fieldLine.members, c ∉ m := by
    intro m hm hmem
    obtain ⟨piece, hpiece, rfl⟩ := List.mem_map.mp hm
    exact htype (mem_of_mem_splitOn hpiece (mem_of_mem_strip hmem))
  have htypeName : c ∉ s.fieldLine.typeName := by
    rw [FieldLine.typeName]
    cases hfind : s.fieldLine.members.find? fun m => !FieldLine.isMissing m with
    | none =>
      exact not_mem_of_mem_lineEnds hc (by decide : lineEnds.all (!"null".toList.contains ·) = true)
    | some m => exact hmembers m (List.mem_of_find?_eq_some hfind)
  intro t ht
  simp only [Fault.quotes, List.mem_cons, List.not_mem_nil, or_false] at ht
  rcases ht with rfl | rfl
  · exact hname
  · exact htypeName

theorem lacks_of_declaration (hc : c ∈ lineEnds) (hline : c ∉ line)
    (h : Declaration.parse line = .error f) : f.Lacks c := by
  rw [Declaration.parse] at h
  split at h
  · next d hd =>
    obtain ⟨s, rfl, rfl⟩ := Spelling.exists_spelling hd
    rw [FieldLine.declaration] at h
    split at h
    · cases h
    · cases h
      exact Spelling.lacks_unsupportedType hc hline
  · cases h
    exact Fault.lacks_of_quotes rfl fun hmem => hline (mem_of_mem_strip hmem)

/-! ### Entries -/

theorem not_mem_splitDefault (hc : c ∈ lineEnds) (hline : c ∉ line) :
    c ∉ (splitDefault line).1 := by
  have hclosing : c ∉ ['\x7d', ')'] := not_mem_of_mem_lineEnds hc (by decide)
  rw [splitDefault]
  split
  · next head tail hcut =>
    rw [eq_of_cut? hcut, List.mem_append, List.mem_append, not_or, not_or] at hline
    split
    · exact List.not_mem_nil
    · rw [List.mem_append, not_or]
      exact ⟨hline.1.1, hclosing⟩
  · exact hline

theorem not_mem_withoutDefault (hc : c ∈ lineEnds) (hline : c ∉ line) :
    c ∉ Entries.withoutDefault line := by
  have htrim : c ∉ trim line := fun hmem => hline (mem_of_mem_strip hmem)
  rw [Entries.withoutDefault]
  split
  · exact not_mem_splitDefault hc htrim
  · exact htrim

/-! ### Blocks -/

theorem not_mem_lines {text : List Char} (h : c ∉ text) : ∀ l ∈ lines text, c ∉ l :=
  fun _ hl hmem => h (mem_of_mem_splitOn hl hmem)

theorem ColumnBlock.lacks_of_parse_error (hc : c ∈ lineEnds) {block : List Char} (hblock : c ∉ block)
    (h : ColumnBlock.parse o block = .error f) : f.Lacks c := by
  have hbody : ∀ l ∈ body block, c ∉ l := by
    intro l hl
    exact not_mem_lines hblock l
      ((List.dropWhile_sublist isAllBlank).subset (mem_of_mem_dropShortTail hl))
  rcases (parse_eq_error_iff.mp h).cases_fault with rfl | ⟨field, hfield, hd⟩ | ⟨raw, hraw, rfl⟩
  · exact Fault.lacks_of_quotes rfl fun hmem => hblock (mem_of_mem_strip hmem)
  · exact lacks_of_declaration hc (hbody field hfield) hd
  · exact Fault.lacks_of_quotes rfl (not_mem_withoutDefault hc (hbody raw hraw))

end Faults

/-! ## Sources -/

section Sources

variable {o : Options} {source : List Char}

theorem mem_of_mem_blocks {c : Char} {text b : List Char} (hb : b ∈ blocks text) (hc : c ∈ b) :
    c ∈ text := by
  rw [← unblocks_blocks text]
  exact mem_intercalate_of_mem hb hc

theorem not_mem_block (h : '\r' ∉ source) : ∀ b ∈ sourceBlocks source, '\r' ∉ b := by
  intro b hb hmem
  rw [sourceBlocks, joinLineEnds_eq_self h] at hb
  exact h (mem_of_mem_blocks hb hmem)

theorem lacks_of_readColumns (h : '\r' ∉ source) {cs : List ColumnBlock}
    (hread : readColumns o source = .ok cs) : ∀ c ∈ cs, c.Lacks '\r' := by
  have hparse : ∀ b ∈ columnBlocks (sourceBlocks source), ∀ c, ColumnBlock.parse o b = .ok c →
      c.Lacks '\r' := fun b hb _ =>
    ColumnBlock.lacks_of_parse (not_mem_lines (not_mem_block h b (List.mem_filter.mp hb).1))
  obtain ⟨b, bs, first, rest, hblocks, rfl, hfirst, hrest⟩ := exists_of_readColumns hread
  rw [hblocks, List.forall_mem_cons] at hparse
  refine List.forall_mem_cons.mpr ⟨ColumnBlock.lacks_stripIndex (hparse.1 first hfirst), ?_⟩
  intro c hc
  obtain ⟨b', hb', hc⟩ := exists_of_mem_mapM (mapM_eq_ok_iff.mpr hrest) hc
  exact hparse.2 b' hb' c hc

theorem not_mem_importBlock (h : '\r' ∉ source) : '\r' ∉ importBlock (sourceBlocks source) := by
  rw [importBlock]
  cases hlast : ((sourceBlocks source).filter fun b => BlockKind.of b == .imports).getLast? with
  | none => exact List.not_mem_nil
  | some b => exact not_mem_block h b (List.mem_filter.mp (List.mem_of_getLast? hlast)).1

theorem not_mem_unlines {ls : List (List Char)} (h : ∀ l ∈ ls, '\r' ∉ l) : '\r' ∉ unlines ls := by
  intro hmem
  rcases mem_intercalate hmem with hmem | ⟨l, hl, hmem⟩
  · exact absurd hmem (by decide)
  · exact h l hl hmem

theorem not_mem_assemble {imports : List Char} (himports : '\r' ∉ imports)
    {cs : List ColumnBlock} (hcs : ∀ c ∈ cs, c.Lacks '\r') : '\r' ∉ assemble imports cs := by
  have hfiltered : '\r' ∉ filterImports imports :=
    not_mem_unlines fun l hl => not_mem_lines himports l (List.mem_filter.mp hl).1
  have hcolumns : '\r' ∉ cs.flatMap fun c => c.render ++ ['\n', '\n'] := by
    intro hmem
    obtain ⟨c, hc, hmem⟩ := List.mem_flatMap.mp hmem
    rcases List.mem_append.mp hmem with hmem | hmem
    · exact not_mem_unlines (ColumnBlock.not_mem_of_mem_renderLines (by decide) (hcs c hc)) hmem
    · exact absurd hmem (by decide)
  have hstatement := not_mem_statement (c := '\r') (by decide) (usedBy cs)
  simp [assemble, hfiltered, hstatement, hcolumns]

theorem lacks_of_firstFault {bs : List (List Char)} (hbs : ∀ b ∈ bs, '\r' ∉ b) {f : Fault}
    (h : FirstFault o bs f) : f.Lacks '\r' := by
  obtain ⟨b, hb, hf⟩ := h.exists_parse
  exact ColumnBlock.lacks_of_parse_error (by decide) (hbs b hb) hf

/-- A source without carriage returns comes to the same with one in front of every line feed, or of
some of them. Neither the annotated source has a carriage return nor the message of a fault. -/
theorem annotate_line_ends (h : '\r' ∉ source) (o : Options) :
    annotate o (withReturns source) = annotate o source ∧
      (∀ t, AddsReturns source t → annotate o t = annotate o source) ∧
      (∀ out, annotate o source = .ok out → '\r' ∉ out) ∧
      ∀ f, annotate o source = .error f → '\r' ∉ f.message.toList := by
  have hadds : ∀ t, AddsReturns source t → annotate o t = annotate o source := by
    intro t ht
    have hblocks : sourceBlocks t = sourceBlocks source := by
      rw [sourceBlocks, sourceBlocks, joinLineEnds_of_addsReturns ht h, joinLineEnds_eq_self h]
    exact annotate_congr (congrArg importBlock hblocks) (congrArg columnBlocks hblocks) o
  refine ⟨hadds _ (addsReturns_withReturns source), hadds, fun out hout => ?_, fun f hf => ?_⟩
  · rw [annotate] at hout
    cases hread : readColumns o source with
    | error f =>
      rw [hread] at hout
      cases hout
    | ok cs =>
      rw [hread] at hout
      cases hout
      exact not_mem_assemble (not_mem_importBlock h) (lacks_of_readColumns h hread)
  · apply Fault.not_mem_message (by decide)
    rcases readColumns_eq_error_iff.mp (annotate_eq_error_iff.mp hf) with hfirst | ⟨-, rfl⟩
    · exact lacks_of_firstFault (fun b hb => not_mem_block h b (List.mem_filter.mp hb).1) hfirst
    · exact List.forall_mem_nil _

/-- Two columns, and no carriage return among them or in what they come to. -/
theorem annotate_twoColumns_line_ends :
    '\r' ∉ twoColumns ∧ '\r' ∈ withReturns twoColumns ∧
      annotate .standard (withReturns twoColumns) = .ok (assemble [] [rankColumn, labelColumn]) ∧
      '\r' ∉ assemble [] [rankColumn, labelColumn] := by
  have hreturns : '\r' ∉ twoColumns := by decide
  have h : annotate .standard twoColumns = .ok (assemble [] [rankColumn, labelColumn]) := by
    rw [annotate, readColumns_twoColumns]
    rfl
  have hends := annotate_line_ends hreturns .standard
  exact ⟨hreturns, by decide, hends.1.trans h, hends.2.2.1 _ h⟩

end Sources

end CompanyRegister.Source
