import CompanyRegister.Proofs.Text.Pieces
import CompanyRegister.Proofs.Text.Plain
import CompanyRegister.Source.FieldLine

/-!
# How field lines are spelled

A field line is spelled in parts (`Spelling`), of which most may be empty:

    indent name ? gap : type = initial value ; blanks

Reading a field line and spelling one are inverse to each other: a spelled line is read as what its
parts say (`parse?_text`), and every line that is read is the text of a spelling (`exists_spelling`).
-/

namespace CompanyRegister.Source

open Text

/-! ## Blanks in names -/

/-- The ranges of blank code points. -/
def blankRanges : List (Nat × Nat) :=
  [(9, 13), (0x20, 0x20), (0x85, 0x85), (0xA0, 0xA0), (0x1680, 0x1680), (0x2000, 0x200A),
    (0x2028, 0x2029), (0x202F, 0x202F), (0x205F, 0x205F), (0x3000, 0x3000)]

theorem exists_blankRange {c : Char} (h : isBlank c = true) :
    ∃ b ∈ blankRanges, b.1 ≤ c.toNat ∧ c.toNat ≤ b.2 := by
  simp only [isBlank, Bool.or_eq_true, Bool.and_eq_true, decide_eq_true_eq, beq_iff_eq] at h
  simp only [blankRanges, List.mem_cons, List.not_mem_nil, or_false, exists_eq_or_imp,
    exists_eq_left]
  omega

/-- No range of word characters meets a range of blanks. -/
theorem inRanges_of_isBlank {c : Char} (h : isBlank c = true) :
    inRanges wordRanges c.toNat = false := by
  have hapart : (wordRanges.toList.all fun r => blankRanges.all fun b =>
      Nat.blt r.2 b.1 || Nat.blt b.2 r.1) = true := by decide +kernel
  obtain ⟨b, hb, hlow, hhigh⟩ := exists_blankRange h
  rw [inRanges, ← Array.any_toList, List.any_eq_false]
  rintro r hr hin
  have hblank := List.all_eq_true.mp (List.all_eq_true.mp hapart r hr) b hb
  simp only [Bool.or_eq_true, Nat.blt_eq] at hblank
  simp only [Bool.and_eq_true, decide_eq_true_eq] at hin
  omega

/-- No blank goes on with a name. -/
theorem isNameRest_of_isBlank {c : Char} (h : isBlank c = true) : isNameRest c = false := by
  have hne : ∀ d, isBlank d = false → (c == d) = false := fun d hd =>
    beq_eq_false_iff_ne.mpr fun heq => by simp [heq, hd] at h
  have halphanum : c.isAlphanum = false := by
    rw [Bool.eq_false_iff]
    intro hc
    rw [not_isBlank_of_isAlphanum hc] at h
    cases h
  simp [isNameRest, isWord, halphanum, hne '_' (by decide), hne '$' (by decide),
    inRanges_of_isBlank h]

theorem isBlank_of_isNameStart {c : Char} (h : isNameStart c = true) : isBlank c = false := by
  rw [Bool.eq_false_iff]
  intro hblank
  have hrest := isNameRest_of_isNameStart h
  rw [isNameRest_of_isBlank hblank] at hrest
  cases hrest

/-! ## Identifiers -/

/-- A name as it may be declared or imported. -/
structure Identifier where
  first : Char
  rest : List Char
  isNameStart_first : isNameStart first = true
  isNameRest_rest : ∀ c ∈ rest, isNameRest c = true

namespace Identifier

def chars (p : Identifier) : List Char := p.first :: p.rest

theorem isNameRest_of_mem_chars (p : Identifier) : ∀ c ∈ p.chars, isNameRest c = true := by
  intro c hc
  rcases List.mem_cons.mp hc with rfl | hc
  · exact isNameRest_of_isNameStart p.isNameStart_first
  · exact p.isNameRest_rest c hc

theorem not_mem_chars (p : Identifier) {c : Char} (hc : isNameRest c = false) : c ∉ p.chars :=
  not_mem_of_forall p.isNameRest_of_mem_chars hc

end Identifier

/-! ## Spellings -/

/-- The parts of a field line. -/
structure Spelling where
  indent : List Char
  first : Char
  rest : List Char
  /-- Whether a question mark follows the name. -/
  marked : Bool
  /-- The blanks in front of the colon. -/
  gap : List Char
  type : List Char
  /-- What stands behind the equals sign, if there is one. -/
  initial : Option (List Char)
  /-- The blanks behind the semicolon, if there is one. -/
  closing : Option (List Char)
  indent_blank : ∀ c ∈ indent, isBlank c = true
  first_start : isNameStart first = true
  rest_name : ∀ c ∈ rest, isNameRest c = true
  gap_blank : ∀ c ∈ gap, isBlank c = true
  type_ne_nil : type ≠ []
  type_chars : ∀ c ∈ type, FieldLine.isTypeChar c = true
  initial_chars : ∀ v ∈ initial, ';' ∉ v
  closing_blank : ∀ bs ∈ closing, ∀ c ∈ bs, isBlank c = true

namespace Spelling

def name (s : Spelling) : List Char := s.first :: s.rest

/-- The question mark, if there is one. -/
def mark (s : Spelling) : List Char := if s.marked then ['?'] else []

/-- The equals sign and what stands behind it. -/
def initialText (s : Spelling) : List Char := s.initial.elim [] ('=' :: ·)

/-- The semicolon and what stands behind it. -/
def closingText (s : Spelling) : List Char := s.closing.elim [] (';' :: ·)

/-- What follows the type. -/
def ending (s : Spelling) : List Char := s.initialText ++ s.closingText

/-- What follows the colon. -/
def behind (s : Spelling) : List Char := s.type ++ s.ending

/-- The line that is spelled. -/
def text (s : Spelling) : List Char :=
  s.indent ++ (s.name ++ (s.mark ++ (s.gap ++ ':' :: s.behind)))

/-- What the parts say. -/
def fieldLine (s : Spelling) : FieldLine := ⟨s.name, s.marked, (s.type.splitOn '|').map trim⟩

/-! ### Reading what is spelled -/

theorem isTypeChar_of_head?_ending (s : Spelling) :
    ∀ c ∈ s.ending.head?, FieldLine.isTypeChar c = false := by
  intro c hc
  rw [ending, initialText, closingText] at hc
  cases hinitial : s.initial <;> cases hclosing : s.closing <;> rw [hinitial, hclosing] at hc <;>
    (cases hc; try decide)

/-- What may stand behind an initial value: nothing, or a semicolon and blanks. -/
theorem dropWhile_closingText (s : Spelling) {v : List Char} (hv : ';' ∉ v) :
    (v ++ s.closingText).dropWhile (· != ';') = s.closingText := by
  rw [dropWhile_append_of_not_mem hv, closingText]
  cases s.closing <;> rfl

theorem isEnding_ending (s : Spelling) : FieldLine.isEnding s.ending = true := by
  have hclosing : isAllBlank (s.closingText.drop 1) = true := by
    rw [closingText]
    cases h : s.closing with
    | none => rfl
    | some bs => exact List.all_eq_true.mpr (s.closing_blank bs h)
  rw [ending, initialText]
  cases hinitial : s.initial with
  | none =>
    show FieldLine.isEnding s.closingText = true
    revert hclosing
    rw [closingText]
    cases s.closing with
    | none => exact fun _ => rfl
    | some bs => exact id
  | some v =>
    show isAllBlank (((v ++ s.closingText).dropWhile (· != ';')).drop 1) = true
    rw [dropWhile_closingText s (s.initial_chars v hinitial), hclosing]

/-- The type reaches as far as the characters of types do. -/
theorem span_behind (s : Spelling) :
    s.behind.takeWhile FieldLine.isTypeChar = s.type ∧
      s.behind.dropWhile FieldLine.isTypeChar = s.ending := by
  have hhead := s.isTypeChar_of_head?_ending
  exact ⟨takeWhile_append_of_head? s.type_chars hhead,
    dropWhile_append_of_head? s.type_chars hhead⟩

theorem afterColon?_behind (s : Spelling) :
    FieldLine.afterColon? s.name s.marked s.behind = some s.fieldLine := by
  rw [FieldLine.afterColon?, s.span_behind.1, s.span_behind.2]
  exact if_pos ⟨s.type_ne_nil, s.isEnding_ending⟩

/-- Blanks in front of a character that is none are skipped. -/
theorem trimStart_blanks {bs : List Char} (hbs : ∀ c ∈ bs, isBlank c = true) {c : Char}
    (hc : isBlank c = false) (text : List Char) : trimStart (bs ++ c :: text) = c :: text :=
  dropWhile_append_of_head? hbs (isBlank_of_head?_cons hc)

/-- Where a blank or another character stands, there is no question mark. -/
theorem takeMark_of_ne {c : Char} (hc : c ≠ '?') (text : List Char) :
    FieldLine.takeMark (c :: text) = (false, c :: text) := by
  rw [FieldLine.takeMark]
  intro rest h
  exact hc (List.cons.inj h).1

theorem takeMark_blanks {bs : List Char} (hbs : ∀ c ∈ bs, isBlank c = true) {c : Char}
    (hc : c ≠ '?') (text : List Char) :
    FieldLine.takeMark (bs ++ c :: text) = (false, bs ++ c :: text) := by
  cases bs with
  | nil => exact takeMark_of_ne hc text
  | cons b bs =>
    have hb : b ≠ '?' := by
      rintro rfl
      exact absurd (hbs '?' List.mem_cons_self) (by decide)
    exact takeMark_of_ne hb _

theorem takeMark_mark (s : Spelling) (text : List Char) :
    FieldLine.takeMark (s.mark ++ (s.gap ++ ':' :: text)) = (s.marked, s.gap ++ ':' :: text) := by
  rw [mark]
  cases s.marked with
  | true => rfl
  | false => exact takeMark_blanks s.gap_blank (by decide) text

theorem afterName?_text (s : Spelling) (text : List Char) :
    FieldLine.afterName? s.name (s.mark ++ (s.gap ++ ':' :: text)) =
      FieldLine.afterColon? s.name s.marked text := by
  simp only [FieldLine.afterName?, takeMark_mark]
  rw [trimStart_blanks s.gap_blank (by decide)]
  rfl

/-- A line is read from its name on: what follows the name begins with no character of names. -/
theorem parse?_name (s : Spelling) {tail : List Char}
    (htail : ∀ c ∈ tail.head?, isNameRest c = false) :
    FieldLine.parse? (s.indent ++ (s.name ++ tail)) = FieldLine.afterName? s.name tail := by
  have htrim : trimStart (s.indent ++ (s.name ++ tail)) = s.first :: (s.rest ++ tail) :=
    trimStart_blanks s.indent_blank (isBlank_of_isNameStart s.first_start) _
  have htake := takeWhile_append_of_head? s.rest_name htail
  have hdrop := dropWhile_append_of_head? s.rest_name htail
  rw [FieldLine.parse?, htrim]
  show (if isNameStart s.first = true then
    FieldLine.afterName? (s.first :: (s.rest ++ tail).takeWhile isNameRest)
      ((s.rest ++ tail).dropWhile isNameRest) else none) = _
  rw [if_pos s.first_start, htake, hdrop]
  rfl

/-- Blanks, question marks and colons end a name. -/
theorem isNameRest_of_head?_gap {bs : List Char} (hbs : ∀ c ∈ bs, isBlank c = true) {c : Char}
    (hc : isNameRest c = false) (text : List Char) :
    ∀ d ∈ (bs ++ c :: text).head?, isNameRest d = false := by
  intro d hd
  cases bs with
  | nil =>
    cases hd
    exact hc
  | cons b bs =>
    obtain rfl : b = d := Option.some.inj hd
    exact isNameRest_of_isBlank (hbs b List.mem_cons_self)

theorem isNameRest_of_head?_mark (s : Spelling) (text : List Char) :
    ∀ c ∈ (s.mark ++ (s.gap ++ ':' :: text)).head?, isNameRest c = false := by
  rw [mark]
  cases s.marked with
  | true =>
    rintro c ⟨⟩
    decide
  | false => exact isNameRest_of_head?_gap s.gap_blank (by decide) text

/-- A spelled line is read as what its parts say. -/
theorem parse?_text (s : Spelling) : FieldLine.parse? s.text = some s.fieldLine := by
  rw [text, parse?_name s (s.isNameRest_of_head?_mark s.behind), afterName?_text,
    afterColon?_behind]

/-! ### Spelling what is read -/

theorem mem_takeWhile {p : Char → Bool} {text : List Char} {c : Char}
    (h : c ∈ text.takeWhile p) : p c = true :=
  List.all_eq_true.mp List.all_takeWhile c h

/-- What is left of a text without the blanks in front of it stands behind blanks. -/
theorem exists_blanks {text rest : List Char} (h : trimStart text = rest) :
    ∃ bs, (∀ c ∈ bs, isBlank c = true) ∧ text = bs ++ rest := by
  refine ⟨text.takeWhile isBlank, fun _ => mem_takeWhile, ?_⟩
  rw [← h, trimStart, List.takeWhile_append_dropWhile]

/-- A text up to its first semicolon, if it has one, and what stands behind that. -/
theorem exists_semicolon (text : List Char) :
    ∃ (v : List Char) (closing : Option (List Char)), ';' ∉ v ∧
      text = v ++ closing.elim [] (';' :: ·) ∧
      (text.dropWhile (· != ';')).drop 1 = closing.getD [] := by
  by_cases hmem : ';' ∈ text
  · obtain ⟨v, bs, rfl, hv⟩ := List.eq_append_cons_of_mem hmem
    exact ⟨v, some bs, hv, rfl, congrArg (List.drop 1) (dropWhile_append_of_not_mem hv (';' :: bs))⟩
  · refine ⟨text, none, hmem, (List.append_nil text).symm, ?_⟩
    rw [← List.append_nil text, dropWhile_append_of_not_mem hmem]
    rfl

/-- What may follow a type is an initial value, a semicolon and blanks. -/
theorem exists_ending {ending : List Char} (hhead : ∀ c ∈ ending.head?, FieldLine.isTypeChar c = false)
    (h : FieldLine.isEnding ending = true) :
    ∃ initial closing : Option (List Char),
      ending = initial.elim [] ('=' :: ·) ++ closing.elim [] (';' :: ·) ∧
        (∀ v ∈ initial, ';' ∉ v) ∧ ∀ bs ∈ closing, ∀ c ∈ bs, isBlank c = true := by
  cases ending with
  | nil => exact ⟨none, none, rfl, by simp, by simp⟩
  | cons c rest =>
    have hc : c = ';' ∨ c = '=' := by
      have hc := hhead c rfl
      simp only [FieldLine.isTypeChar, Bool.and_eq_false_iff, bne_eq_false_iff_eq] at hc
      exact hc
    rcases hc with rfl | rfl
    · refine ⟨none, some rest, rfl, by simp, ?_⟩
      rintro bs ⟨⟩
      exact List.all_eq_true.mp h
    · obtain ⟨v, closing, hv, hrest, hdrop⟩ := exists_semicolon rest
      have hblank : isAllBlank (closing.getD []) = true := hdrop ▸ h
      refine ⟨some v, closing, congrArg ('=' :: ·) hrest, ?_, ?_⟩
      · rintro v' ⟨⟩
        exact hv
      · rintro bs ⟨⟩
        exact List.all_eq_true.mp hblank

theorem exists_of_afterColon? {property behind : List Char} {marked : Bool} {f : FieldLine}
    (h : FieldLine.afterColon? property marked behind = some f) :
    ∃ (type : List Char) (initial closing : Option (List Char)),
      behind = type ++ (initial.elim [] ('=' :: ·) ++ closing.elim [] (';' :: ·)) ∧
        f = ⟨property, marked, (type.splitOn '|').map trim⟩ ∧
        type ≠ [] ∧ (∀ c ∈ type, FieldLine.isTypeChar c = true) ∧
        (∀ v ∈ initial, ';' ∉ v) ∧ ∀ bs ∈ closing, ∀ c ∈ bs, isBlank c = true := by
  have hhead : ∀ c ∈ (behind.dropWhile FieldLine.isTypeChar).head?,
      FieldLine.isTypeChar c = false := by
    intro c hc
    have hnot := List.head?_dropWhile_not FieldLine.isTypeChar behind
    rw [hc] at hnot
    simpa using hnot
  rw [FieldLine.afterColon?] at h
  split at h
  · next htype =>
    cases h
    obtain ⟨initial, closing, hending, hinitial, hclosing⟩ := exists_ending hhead htype.2
    refine ⟨behind.takeWhile FieldLine.isTypeChar, initial, closing, ?_, rfl, htype.1,
      fun _ => mem_takeWhile, hinitial, hclosing⟩
    rw [← hending, List.takeWhile_append_dropWhile]
  · cases h

/-- Taking the mark off loses nothing. -/
theorem takeMark_append (text : List Char) :
    (if (FieldLine.takeMark text).1 then ['?'] else []) ++ (FieldLine.takeMark text).2 = text := by
  fun_cases FieldLine.takeMark text <;> rfl

theorem exists_of_afterName? {property tail : List Char} {f : FieldLine}
    (h : FieldLine.afterName? property tail = some f) :
    ∃ (marked : Bool) (gap behind : List Char),
      tail = (if marked then ['?'] else []) ++ (gap ++ ':' :: behind) ∧
        (∀ c ∈ gap, isBlank c = true) ∧
        FieldLine.afterColon? property marked behind = some f := by
  simp only [FieldLine.afterName?] at h
  split at h
  · next behind hcolon =>
    obtain ⟨gap, hgap, htext⟩ := exists_blanks hcolon
    refine ⟨(FieldLine.takeMark tail).1, gap, behind, ?_, hgap, h⟩
    rw [← htext, takeMark_append]
  · cases h

theorem exists_of_parse? {line : List Char} {f : FieldLine} (h : FieldLine.parse? line = some f) :
    ∃ (indent rest tail : List Char) (first : Char),
      line = indent ++ (first :: rest ++ tail) ∧
        (∀ c ∈ indent, isBlank c = true) ∧ isNameStart first = true ∧
        (∀ c ∈ rest, isNameRest c = true) ∧
        FieldLine.afterName? (first :: rest) tail = some f := by
  rw [FieldLine.parse?] at h
  split at h
  · cases h
  · next first text htrim =>
    split at h
    · next hfirst =>
      obtain ⟨indent, hindent, rfl⟩ := exists_blanks htrim
      refine ⟨indent, _, _, first, ?_, hindent, hfirst, fun _ => mem_takeWhile, h⟩
      rw [List.cons_append, List.takeWhile_append_dropWhile]
    · cases h

/-- Every line that is read is the text of a spelling. -/
theorem exists_spelling {line : List Char} {f : FieldLine} (h : FieldLine.parse? line = some f) :
    ∃ s : Spelling, s.text = line ∧ s.fieldLine = f := by
  obtain ⟨indent, rest, tail, first, rfl, hindent, hfirst, hrest, hname⟩ := exists_of_parse? h
  obtain ⟨marked, gap, behind, rfl, hgap, hcolon⟩ := exists_of_afterName? hname
  obtain ⟨type, initial, closing, rfl, rfl, htype, hchars, hinitial, hclosing⟩ :=
    exists_of_afterColon? hcolon
  exact ⟨⟨indent, first, rest, marked, gap, type, initial, closing, hindent, hfirst, hrest, hgap,
    htype, hchars, hinitial, hclosing⟩, rfl, rfl⟩

end Spelling

/-- Every line that declares a column is the text of a spelling. -/
theorem exists_spelling_of_declaration {line : List Char} {d : Declaration}
    (h : Declaration.parse line = .ok d) : ∃ s : Spelling, s.text = line := by
  rw [Declaration.parse] at h
  split at h
  · next f hparse =>
    obtain ⟨s, htext, -⟩ := Spelling.exists_spelling hparse
    exact ⟨s, htext⟩
  · cases h

end CompanyRegister.Source
