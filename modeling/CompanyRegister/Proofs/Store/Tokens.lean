import Mathlib.Data.List.Forall2
import CompanyRegister.Proofs.Text.Plain
import CompanyRegister.Store.Script

/-!
# The tokens of a script

A text `Spells` tokens if it is cut into them wherever it stands. Words spell themselves, and texts
with a blank, a comma or a line end between them spell their tokens one after the other. A text is
`Enclosed` if it may stand in parentheses, where it is kept as it is. Most parts of a script are
both (`Reads`), so the tokens of a script follow its parts.
-/

namespace CompanyRegister.Store

open Text

namespace Script

/-! ## Words -/

/-- Whether a character ends a word that is not in quotes, and begins none. -/
def isDelimiter (c : Char) : Bool := c.isWhitespace || c == ',' || c == ';' || c == '('

/-- Whether a character is nothing but a part of a word, but for dashes. -/
def isWordChar (c : Char) : Bool := !isDelimiter c && c != '\'' && c != ')'

/-- Whether a text is one word, without quotes, with a dash at most in front. -/
structure IsWord (w : List Char) : Prop where
  ne_nil : w ≠ []
  chars : ∀ c ∈ w, isWordChar c = true
  dash : ∀ c ∈ w.tail, c ≠ '-'

/-- Whether a text is empty or begins with the end of a word. -/
def Separated (text : List Char) : Prop := ∀ c ∈ text.head?, isDelimiter c = true

variable {text rest w : List Char} {c : Char} {ts : List Token}

theorem step_word {read : List Char} (hc : isWordChar c = true)
    (hdash : c = '-' → read.head? ≠ some '-') :
    step (.word read false) c = ([], .word (c :: read) false) := by
  simp only [isWordChar, isDelimiter, Bool.and_eq_true, Bool.not_eq_true', Bool.or_eq_false_iff,
    bne_iff_ne, beq_eq_false_iff_ne] at hc
  obtain ⟨⟨⟨⟨⟨hblank, hcomma⟩, hsemicolon⟩, hopen⟩, hquote⟩, -⟩ := hc
  have hcomment : ¬(c = '-' ∧ read.head? = some '-') := fun h => hdash h.1 h.2
  simp only [step, if_neg hquote, hblank, if_neg hcomma, if_neg hsemicolon, if_neg hopen,
    if_neg hcomment, Bool.false_eq_true, if_false]

theorem tokensFrom_chars {read : List Char} (hchars : ∀ c ∈ text, isWordChar c = true)
    (hdash : ∀ c ∈ text, c ≠ '-') (rest : List Char) :
    tokensFrom (.word read false) (text ++ rest) =
      tokensFrom (.word (text.reverse ++ read) false) rest := by
  induction text generalizing read with
  | nil => rfl
  | cons c text ih =>
    rw [List.forall_mem_cons] at hchars hdash
    rw [List.cons_append, tokensFrom, step_word hchars.1 fun h => absurd h hdash.1,
      List.nil_append, ih hchars.2 hdash.2, List.reverse_cons, List.append_assoc,
      List.singleton_append]

theorem tokensFrom_word (hw : IsWord w) (rest : List Char) :
    tokensFrom .start (w ++ rest) = tokensFrom (.word w.reverse false) rest := by
  cases w with
  | nil => exact absurd rfl hw.ne_nil
  | cons c w =>
    have hchars := List.forall_mem_cons.mp hw.chars
    have hfirst : step .start c = ([], .word [c] false) := by
      refine step_word hchars.1 fun _ h => ?_
      cases h
    rw [List.cons_append, tokensFrom, hfirst, List.nil_append,
      tokensFrom_chars hchars.2 hw.dash, List.reverse_cons]

/-- What ends a word leads to the same place as between words. -/
theorem tokensFrom_separated {read : List Char} (hread : read ≠ []) (hrest : Separated rest) :
    tokensFrom (.word read false) rest =
      .word (String.ofList read.reverse) :: tokensFrom .start rest := by
  have hword : wordOf read = [.word (String.ofList read.reverse)] := by
    rw [wordOf, List.isEmpty_eq_false_iff.mpr hread]
    rfl
  cases rest with
  | nil => exact hword
  | cons c rest =>
    have hc := hrest c rfl
    have hquote : c ≠ '\'' := by
      rintro rfl
      cases hc
    have hstep : step (.word read false) c =
        (.word (String.ofList read.reverse) :: (step .start c).1, (step .start c).2) := by
      simp only [isDelimiter, Bool.or_eq_true, beq_iff_eq] at hc
      simp only [step, Place.start, if_neg hquote, hword]
      obtain ((hblank | rfl) | rfl) | rfl := hc
      · simp only [hblank, if_true]
        rfl
      · rfl
      · rfl
      · rfl
    rw [tokensFrom, hstep, tokensFrom]
    rfl

/-! ## Texts that spell tokens -/

/-- Whether a text is cut into tokens wherever it stands, if what follows does not go on with its
last word. -/
def Spells (text : List Char) (ts : List Token) : Prop :=
  ∀ rest, Separated rest → tokensFrom .start (text ++ rest) = ts ++ tokensFrom .start rest

namespace Spells

variable {a b : List Char} {us : List Token}

theorem tokens_eq (h : Spells text ts) : tokens text = ts := by
  have hnil := h [] (by rintro _ ⟨⟩)
  rwa [List.append_nil, show tokensFrom .start [] = [] from rfl, List.append_nil] at hnil

theorem nil : Spells [] [] := fun _ _ => rfl

theorem word (hw : IsWord w) : Spells w [.word (String.ofList w)] := by
  intro rest hrest
  have hne : w.reverse ≠ [] := by simpa using hw.ne_nil
  rw [tokensFrom_word hw, tokensFrom_separated hne hrest, List.reverse_reverse]
  rfl

theorem append (ha : Spells a ts) (hb : Spells b us) (hne : b ≠ []) (hsep : Separated b) :
    Spells (a ++ b) (ts ++ us) := by
  intro rest hrest
  have hall : Separated (b ++ rest) := by
    intro c hc
    rw [List.head?_append_of_ne_nil b hne] at hc
    exact hsep c hc
  rw [List.append_assoc, ha _ hall, hb rest hrest, List.append_assoc]

/-- A delimiter other than a parenthesis stands by itself. -/
theorem cons (hc : isDelimiter c = true) (hne : c ≠ '(') (h : Spells text ts) :
    Spells (c :: text) ((step .start c).1 ++ ts) := by
  intro rest hrest
  have hplace : (step .start c).2 = .start := by
    simp only [isDelimiter, Bool.or_eq_true, beq_iff_eq] at hc
    obtain ((hblank | rfl) | rfl) | rfl := hc
    · have hquote : c ≠ '\'' := by
        rintro rfl
        cases hblank
      simp only [step, Place.start, if_neg hquote, hblank, if_true, Bool.false_eq_true, if_false]
    · rfl
    · rfl
    · exact absurd rfl hne
  rw [List.cons_append, tokensFrom, hplace, h rest hrest, List.append_assoc]

theorem blank (h : Spells text ts) : Spells (' ' :: text) ts := h.cons (by decide) (by decide)

theorem line (h : Spells text ts) : Spells ('\n' :: text) ts := h.cons (by decide) (by decide)

/-- Words apart from each other. -/
theorem append_blank (ha : Spells a ts) (hb : Spells b us) : Spells (a ++ ' ' :: b) (ts ++ us) :=
  ha.append hb.blank (List.cons_ne_nil _ _) (by rintro _ ⟨⟩; rfl)

theorem append_semicolon (h : Spells text ts) : Spells (text ++ [';']) (ts ++ [.semicolon]) :=
  h.append (nil.cons (c := ';') (by decide) (by decide)) (List.cons_ne_nil _ _)
    (by rintro _ ⟨⟩; rfl)

theorem append_line (h : Spells text ts) : Spells (text ++ ['\n']) ts := by
  have hline := h.append nil.line (List.cons_ne_nil _ _) (by rintro _ ⟨⟩; rfl)
  rwa [List.append_nil] at hline

/-- Texts with a comma and blanks between each two. -/
theorem list (blanks : List Char)
    (hblanks : ∀ {text ts}, Spells text ts → Spells (blanks ++ text) ts)
    {parts : List (List Char)} {tss : List (List Token)} (h : List.Forall₂ Spells parts tss) :
    Spells ((',' :: blanks).intercalate parts) ([.comma].intercalate tss) := by
  induction h with
  | nil => exact nil
  | @cons a ts parts tss ha hrest ih =>
    cases hrest with
    | nil => simpa using ha
    | cons =>
      rw [List.intercalate_cons_cons, List.intercalate_cons_cons, List.append_assoc,
        List.append_assoc]
      exact ha.append ((hblanks ih).cons (c := ',') (by decide) (by decide))
        (List.cons_ne_nil _ _) (by rintro _ ⟨⟩; rfl)

/-- Texts on lines of their own. -/
theorem lines {parts : List (List Char)} {tss : List (List Token)}
    (h : List.Forall₂ Spells parts tss) : Spells (parts.flatMap (· ++ ['\n'])) tss.flatten := by
  induction h with
  | nil => exact nil
  | @cons a ts parts tss ha _ ih =>
    rw [List.flatMap_cons, List.append_assoc]
    exact ha.append ih.line (List.cons_ne_nil _ _) (by rintro _ ⟨⟩; rfl)

end Spells

/-! ## Texts in parentheses -/

/-- Whether a text may stand in parentheses: it closes what it opens. -/
def Enclosed (text : List Char) : Prop :=
  ∀ read depth rest, tokensFrom (.group read depth false) (text ++ rest) =
    tokensFrom (.group (text.reverse ++ read) depth false) rest

namespace Enclosed

variable {a b : List Char}

theorem nil : Enclosed [] := fun _ _ _ => rfl

theorem cons (hquote : c ≠ '\'') (hopen : c ≠ '(') (hclose : c ≠ ')') (h : Enclosed text) :
    Enclosed (c :: text) := by
  intro read depth rest
  have hstep : step (.group read depth false) c = ([], .group (c :: read) depth false) := by
    simp only [step, if_neg hquote, if_neg hopen, if_neg hclose, Bool.false_eq_true, if_false]
  rw [List.cons_append, tokensFrom, hstep, List.nil_append, h, List.reverse_cons,
    List.append_assoc, List.singleton_append]

theorem append (ha : Enclosed a) (hb : Enclosed b) : Enclosed (a ++ b) := by
  intro read depth rest
  rw [List.append_assoc, ha, hb, List.reverse_append, List.append_assoc]

theorem chars (h : (text.all fun c => c != '\'' && c != '(' && c != ')') = true) :
    Enclosed text := by
  induction text with
  | nil => exact nil
  | cons c text ih =>
    simp only [List.all_cons, Bool.and_eq_true, bne_iff_ne] at h
    exact cons h.1.1.1 h.1.1.2 h.1.2 (ih (by simpa using h.2))

theorem word (hw : IsWord w) : Enclosed w := by
  refine chars (List.all_eq_true.mpr fun c hc => ?_)
  have hc := hw.chars c hc
  simp only [isWordChar, isDelimiter, Bool.and_eq_true, Bool.not_eq_true',
    Bool.or_eq_false_iff] at hc
  have hopen : (c != '(') = true := by rw [bne, hc.1.1.2, Bool.not_false]
  rw [hc.1.2, hopen, hc.2, Bool.and_self, Bool.and_self]

/-- Parentheses of its own. -/
theorem paren (h : Enclosed text) : Enclosed ('(' :: (text ++ [')'])) := by
  intro read depth rest
  rw [List.cons_append, List.append_assoc, tokensFrom]
  show tokensFrom (.group ('(' :: read) (depth + 1) false) _ = _
  rw [h, List.singleton_append, tokensFrom]
  simp [step]

theorem quoted_chars {read : List Char} {depth : Nat} (h : '\'' ∉ text) (rest : List Char) :
    tokensFrom (.group read depth true) (text ++ rest) =
      tokensFrom (.group (text.reverse ++ read) depth true) rest := by
  induction text generalizing read with
  | nil => rfl
  | cons c text ih =>
    rw [List.mem_cons, not_or] at h
    have hstep : step (.group read depth true) c = ([], .group (c :: read) depth true) := by
      simp only [step, if_neg (Ne.symm h.1), if_true]
    rw [List.cons_append, tokensFrom, hstep, List.nil_append, ih h.2, List.reverse_cons,
      List.append_assoc, List.singleton_append]

/-- A text in quotes, where parentheses mean nothing. -/
theorem quoted (h : '\'' ∉ text) : Enclosed ('\'' :: (text ++ ['\''])) := by
  intro read depth rest
  rw [List.cons_append, List.append_assoc, tokensFrom]
  show tokensFrom (.group ('\'' :: read) depth true) _ = _
  rw [quoted_chars h, List.singleton_append, tokensFrom]
  simp [step]

/-- Texts with a text between each two. -/
theorem intercalate {parts : List (List Char)} (ha : Enclosed a)
    (h : ∀ part ∈ parts, Enclosed part) : Enclosed (a.intercalate parts) := by
  induction parts with
  | nil => exact nil
  | cons part parts ih =>
    rw [List.forall_mem_cons] at h
    cases parts with
    | nil => simpa using h.1
    | cons =>
      rw [List.intercalate_cons_cons]
      exact (h.1.append ha).append (ih h.2)

end Enclosed

theorem Spells.group (h : Enclosed text) : Spells ('(' :: (text ++ [')'])) [.group text] := by
  intro rest _
  rw [List.cons_append, List.append_assoc, tokensFrom]
  show tokensFrom (.group [] 0 false) _ = _
  rw [h, List.singleton_append, tokensFrom]
  simp [step]

/-- A comment says nothing. -/
theorem tokensFrom_comment (h : '\n' ∉ text) (rest : List Char) :
    tokensFrom .comment (text ++ '\n' :: rest) = tokensFrom .start rest := by
  induction text with
  | nil => rfl
  | cons c text ih =>
    rw [List.mem_cons, not_or] at h
    rw [List.cons_append, tokensFrom, step, if_neg (Ne.symm h.1), List.nil_append, ih h.2]

theorem read_comment (h : '\n' ∉ text) (rest : List Char) :
    Script.read ("-- ".toList ++ text ++ '\n' :: rest) = Script.read rest := by
  have htokens : tokens ("-- ".toList ++ text ++ '\n' :: rest) = tokens rest := by
    rw [List.append_assoc]
    show tokensFrom .comment (' ' :: (text ++ '\n' :: rest)) = tokensFrom .start rest
    rw [← List.cons_append, tokensFrom_comment (by simpa using h)]
  rw [Script.read, Script.read, htokens]

/-! ## Names and numbers -/

theorem isWordChar_of_isPlain (h : isPlain c = true) : isWordChar c = true := by
  have hne : ∀ d : Char, isPlain d = false → c ≠ d := by
    rintro _ hd rfl
    exact Bool.false_ne_true (hd.symm.trans h)
  have hblank : c.isWhitespace = false := by
    refine Bool.eq_false_iff.mpr fun hspace => ?_
    have hnot := not_isBlank_of_isPlain h
    rw [isBlank_of_isWhitespace hspace] at hnot
    cases hnot
  simp only [isWordChar, isDelimiter, hblank, beq_false_of_ne (hne ',' (by decide)),
    beq_false_of_ne (hne ';' (by decide)), beq_false_of_ne (hne '(' (by decide)),
    bne_iff_ne.mpr (hne '\'' (by decide)), bne_iff_ne.mpr (hne ')' (by decide))]
  rfl

theorem isWord_of_isPlain (hne : w ≠ []) (h : ∀ c ∈ w, isPlain c = true) : IsWord w where
  ne_nil := hne
  chars c hc := isWordChar_of_isPlain (h c hc)
  dash c hc := by
    rintro rfl
    cases h _ (List.mem_of_mem_tail hc)

/-- Whether a word is made of plain characters. -/
def isPlainWord (w : String) : Bool := !w.toList.isEmpty && w.toList.all isPlain

theorem isWord_of_isPlainWord {w : String} (h : isPlainWord w = true) : IsWord w.toList := by
  rw [isPlainWord, Bool.and_eq_true, Bool.not_eq_true', List.isEmpty_eq_false_iff] at h
  exact isWord_of_isPlain h.1 (List.all_eq_true.mp h.2)

theorem isPlainWord_of_isName {name : String} (h : isName name = true) :
    isPlainWord name = true := by
  simp only [isName, Bool.and_eq_true, Option.any_eq_true] at h
  obtain ⟨⟨⟨c, hhead, -⟩, hall⟩, -⟩ := h
  have hne : name.toList ≠ [] := by
    intro hnil
    rw [hnil] at hhead
    cases hhead
  rw [isPlainWord, List.isEmpty_eq_false_iff.mpr hne]
  exact hall

theorem isWord_digits (n : Nat) : IsWord (digits n) :=
  isWord_of_isPlain (digits_ne_nil n) fun _ hc => isPlain_of_isDigit (isDigit_of_mem_digits hc)

theorem isWord_signed (n : Int) : IsWord (signed n) := by
  cases n with
  | ofNat n => exact isWord_digits n
  | negSucc n =>
    have hdigits := isWord_digits (n + 1)
    refine ⟨List.cons_ne_nil _ _, List.forall_mem_cons.mpr ⟨by decide, hdigits.chars⟩, ?_⟩
    rintro _ hc rfl
    cases isDigit_of_mem_digits hc

theorem natural?_digits (n : Nat) : natural? (String.ofList (digits n)) = some n := by
  have hall : (digits n).all Char.isDigit = true :=
    List.all_eq_true.mpr fun _ => isDigit_of_mem_digits
  rw [natural?, String.toList_ofList, if_pos ⟨digits_ne_nil n, hall⟩, value_digits]

theorem whole?_signed (n : Int) : whole? (String.ofList (signed n)) = some n := by
  unfold whole?
  rw [String.toList_ofList]
  cases n with
  | ofNat n =>
    split
    · next ds heq =>
      have hdash : '-' ∈ digits n := by
        rw [show digits n = '-' :: ds from heq]
        exact List.mem_cons_self
      cases isDigit_of_mem_digits hdash
    · rw [show signed (.ofNat n) = digits n from rfl, natural?_digits]
      rfl
  | negSucc n =>
    show (natural? (String.ofList (digits (n + 1)))).map Int.negOfNat = some (.negSucc n)
    rw [natural?_digits]
    rfl

/-! ## Parts of a script -/

/-- Whether a text is cut into tokens wherever it stands, in parentheses or not. -/
structure Reads (text : List Char) (ts : List Token) : Prop where
  spells : Spells text ts
  enclosed : Enclosed text

namespace Reads

variable {a b : List Char} {us : List Token}

theorem word (hw : IsWord w) : Reads w [.word (String.ofList w)] := ⟨.word hw, .word hw⟩

theorem keyword {w : String} (h : isPlainWord w = true) : Reads w.toList [.word w] := by
  have hword := word (isWord_of_isPlainWord h)
  rwa [String.ofList_toList] at hword

theorem name {name : String} (h : isName name = true) : Reads name.toList [.word name] :=
  keyword (isPlainWord_of_isName h)

theorem group (h : Enclosed text) : Reads ('(' :: (text ++ [')'])) [.group text] :=
  ⟨.group h, h.paren⟩

/-- Parentheses right behind a text. -/
theorem append_group (ha : Reads a ts) (hb : Enclosed b) :
    Reads (a ++ '(' :: (b ++ [')'])) (ts ++ [.group b]) where
  spells := ha.spells.append (.group hb) (List.cons_ne_nil _ _) (by rintro _ ⟨⟩; rfl)
  enclosed := ha.enclosed.append hb.paren

theorem append_blank (ha : Reads a ts) (hb : Reads b us) : Reads (a ++ ' ' :: b) (ts ++ us) where
  spells := ha.spells.append_blank hb.spells
  enclosed := ha.enclosed.append (hb.enclosed.cons (by decide) (by decide) (by decide))

theorem intercalate {parts : List (List Char)} {tss : List (List Token)}
    (h : List.Forall₂ Reads parts tss) : Reads ([' '].intercalate parts) tss.flatten := by
  induction h with
  | nil => exact ⟨.nil, .nil⟩
  | @cons a ts parts tss ha hrest ih =>
    cases hrest with
    | nil => simpa using ha
    | cons =>
      rw [List.intercalate_cons_cons, List.append_assoc, List.flatten_cons]
      exact ha.append_blank ih

/-- Words apart from each other. -/
theorem words {ws : List String} (h : ws.all isPlainWord = true) :
    Reads ([' '].intercalate (ws.map String.toList)) (ws.map .word) := by
  have hall : List.Forall₂ Reads (ws.map String.toList) (ws.map fun w => [.word w]) := by
    rw [List.forall₂_map_left_iff, List.forall₂_map_right_iff, List.forall₂_same]
    exact fun w hw => .keyword (List.all_eq_true.mp h w hw)
  have htokens : (ws.map fun w => [Token.word w]).flatten = ws.map .word := by
    rw [← List.flatMap_def]
    exact List.map_eq_flatMap.symm
  exact htokens ▸ intercalate hall

end Reads

/-- A statement of words with a text in parentheses behind them. -/
theorem spells_statement {ws : List String} (hws : ws.all isPlainWord = true) (h : Enclosed text) :
    Spells ([' '].intercalate (ws.map String.toList) ++ ' ' :: '(' :: (text ++ [')']) ++ [';'])
      (ws.map .word ++ [.group text] ++ [.semicolon]) :=
  ((Reads.words hws).append_blank (.group h)).spells.append_semicolon

end Script

end CompanyRegister.Store
