import Mathlib.Data.List.TakeWhile
import CompanyRegister.Text.Blank

/-!
# Plain characters

Names, types and values in generated sources are made of plain characters: ASCII letters, digits and
underscores. None of them is blank, and none of them is one of the marks that texts are cut at, so a
word of plain characters survives trimming and cutting (`PlainWord.not_mem`, `strip_append`).

Generated lines stand behind an indent of spaces (`indented`), which trimming takes off.
-/

namespace CompanyRegister.Text

/-- Whether a character is an ASCII letter, a digit or an underscore. -/
def isPlain (c : Char) : Bool := c.isAlphanum || c == '_'

/-- The printable characters of ASCII but the space are no blanks. -/
theorem not_isBlank_of_ascii {c : Char} (hlow : 32 < c.toNat) (hhigh : c.toNat < 128) :
    isBlank c = false := by
  simp only [isBlank, Bool.or_eq_false_iff, Bool.and_eq_false_iff, decide_eq_false_iff_not,
    beq_eq_false_iff_ne]
  omega

theorem not_isBlank_of_isAlphanum {c : Char} (h : c.isAlphanum = true) : isBlank c = false := by
  delta Char.isAlphanum Char.isAlpha Char.isUpper Char.isLower Char.isDigit at h
  simp only [Bool.or_eq_true, Bool.and_eq_true, decide_eq_true_eq] at h
  have hrange : (65 ≤ c.toNat ∧ c.toNat ≤ 90 ∨ 97 ≤ c.toNat ∧ c.toNat ≤ 122) ∨
    48 ≤ c.toNat ∧ c.toNat ≤ 57 := h
  exact not_isBlank_of_ascii (by omega) (by omega)

theorem not_isBlank_of_isPlain {c : Char} (h : isPlain c = true) : isBlank c = false := by
  rw [isPlain, Bool.or_eq_true, beq_iff_eq] at h
  rcases h with h | rfl
  · exact not_isBlank_of_isAlphanum h
  · decide

theorem not_mem_of_forall {p : Char → Bool} {text : List Char} {c : Char}
    (h : ∀ d ∈ text, p d = true) (hc : p c = false) : c ∉ text := by
  intro hmem
  rw [h c hmem] at hc
  cases hc

/-- A word of plain characters. -/
structure PlainWord where
  chars : List Char
  plain : ∀ c ∈ chars, isPlain c = true

theorem PlainWord.not_mem (w : PlainWord) {c : Char} (hc : isPlain c = false) : c ∉ w.chars :=
  not_mem_of_forall w.plain hc

theorem isPlain_of_isDigit {c : Char} (h : c.isDigit = true) : isPlain c = true := by
  rw [isPlain, Char.isAlphanum, h, Bool.or_true, Bool.true_or]

/-! ## Runs of characters -/

/-- A run of characters is taken up to the first that is not among them. -/
theorem takeWhile_append_of_head? {p : Char → Bool} {text tail : List Char}
    (htext : ∀ c ∈ text, p c = true) (htail : ∀ c ∈ tail.head?, p c = false) :
    (text ++ tail).takeWhile p = text := by
  rw [List.takeWhile_append_of_pos htext]
  cases tail with
  | nil => exact List.append_nil text
  | cons c tail => rw [List.takeWhile_cons_of_neg (by simp [htail c rfl]), List.append_nil]

theorem dropWhile_append_of_head? {p : Char → Bool} {text tail : List Char}
    (htext : ∀ c ∈ text, p c = true) (htail : ∀ c ∈ tail.head?, p c = false) :
    (text ++ tail).dropWhile p = tail := by
  rw [List.dropWhile_append_of_pos htext]
  exact dropWhile_eq_self htail

/-- A character is not found in a text that does not hold it, so the search goes on behind it. -/
theorem dropWhile_append_of_not_mem {text : List Char} {c : Char} (h : c ∉ text)
    (tail : List Char) : (text ++ tail).dropWhile (· != c) = tail.dropWhile (· != c) :=
  List.dropWhile_append_of_pos fun _ hd => bne_iff_ne.mpr fun heq => h (heq ▸ hd)

/-! ## Stripping -/

theorem mem_of_mem_dropEndWhile {p : Char → Bool} {text : List Char} {c : Char}
    (h : c ∈ dropEndWhile p text) : c ∈ text := by
  rw [dropEndWhile, List.mem_reverse] at h
  exact List.mem_reverse.mp ((List.dropWhile_sublist p).subset h)

theorem mem_of_mem_strip {p : Char → Bool} {text : List Char} {c : Char}
    (h : c ∈ strip p text) : c ∈ text :=
  (List.dropWhile_sublist p).subset (mem_of_mem_dropEndWhile h)

theorem dropEndWhile_append {p : Char → Bool} {text tail : List Char}
    (htail : ∀ c ∈ tail, p c = true) (hlast : ∀ c ∈ text.getLast?, p c = false) :
    dropEndWhile p (text ++ tail) = text := by
  have hreverse : ∀ c ∈ tail.reverse, p c = true := fun c hc => htail c (List.mem_reverse.mp hc)
  have hhead : ∀ c ∈ text.reverse.head?, p c = false := by
    rw [List.head?_reverse]
    exact hlast
  rw [dropEndWhile, List.reverse_append, List.dropWhile_append_of_pos hreverse,
    dropWhile_eq_self hhead, List.reverse_reverse]

/-- Nothing is dropped beyond a character that stays. -/
theorem dropEndWhile_append_cons {p : Char → Bool} {c : Char} (hc : p c = false)
    (text tail : List Char) :
    dropEndWhile p (text ++ c :: tail) = text ++ c :: dropEndWhile p tail := by
  have hreverse : (text ++ c :: tail).reverse = tail.reverse ++ c :: text.reverse := by simp
  rw [dropEndWhile, hreverse, List.dropWhile_append, dropEndWhile]
  split
  · next hempty => simp [List.isEmpty_iff.mp hempty, hc]
  · simp

/-- What is stripped from the end of a text is stripped from it wherever it ends. -/
theorem strip_append_tail {p : Char → Bool} {text tail : List Char}
    (htail : ∀ c ∈ tail, p c = true) : strip p (text ++ tail) = strip p text := by
  have hreverse : ∀ c ∈ tail.reverse, p c = true := fun c hc => htail c (List.mem_reverse.mp hc)
  rw [strip, strip, List.dropWhile_append]
  split
  · next hempty =>
    rw [List.isEmpty_iff.mp hempty, List.dropWhile_eq_nil_iff.mpr htail]
  · rw [dropEndWhile, List.reverse_append, List.dropWhile_append_of_pos hreverse, dropEndWhile]

/-- Of a text with nothing but strippable characters around it, only its own ones stay. -/
theorem strip_wrapped {p : Char → Bool} {front tail : List Char} (text : List Char)
    (hfront : ∀ c ∈ front, p c = true) (htail : ∀ c ∈ tail, p c = true) :
    strip p (front ++ (text ++ tail)) = strip p text := by
  rw [strip, List.dropWhile_append_of_pos hfront]
  exact strip_append_tail htail

theorem strip_eq_self {p : Char → Bool} {text : List Char}
    (hhead : ∀ c ∈ text.head?, p c = false) (hlast : ∀ c ∈ text.getLast?, p c = false) :
    strip p text = text := by
  have hend : dropEndWhile p (text ++ []) = text := dropEndWhile_append (by simp) hlast
  rw [List.append_nil] at hend
  rw [strip, dropWhile_eq_self hhead, hend]

/-- What stands around a text is stripped, and no more than that. -/
theorem strip_append {p : Char → Bool} {front text tail : List Char}
    (hfront : ∀ c ∈ front, p c = true) (htail : ∀ c ∈ tail, p c = true)
    (hhead : ∀ c ∈ text.head?, p c = false) (hlast : ∀ c ∈ text.getLast?, p c = false) :
    strip p (front ++ (text ++ tail)) = text := by
  rw [strip_wrapped text hfront htail, strip_eq_self hhead hlast]

/-- What is stripped from a text stands around what is left of it. -/
theorem exists_strip (p : Char → Bool) (text : List Char) :
    ∃ front tail, text = front ++ (strip p text ++ tail) ∧ (∀ c ∈ front, p c = true) ∧
      ∀ c ∈ tail, p c = true := by
  refine ⟨text.takeWhile p, ((text.dropWhile p).reverse.takeWhile p).reverse, ?_, ?_, ?_⟩
  · rw [strip, dropEndWhile, ← List.reverse_append, List.takeWhile_append_dropWhile,
      List.reverse_reverse, List.takeWhile_append_dropWhile]
  · intro c hc
    exact List.mem_takeWhile_imp hc
  · intro c hc
    exact List.mem_takeWhile_imp (List.mem_reverse.mp hc)

/-- A text that has been stripped has nothing more to lose. -/
theorem strip_strip (p : Char → Bool) (text : List Char) :
    strip p (strip p text) = strip p text := by
  obtain ⟨front, tail, htext, hfront, htail⟩ := exists_strip p text
  have hwrapped := strip_wrapped (strip p text) hfront htail
  rw [← htext] at hwrapped
  exact hwrapped.symm

theorem strip_eq_iff {p : Char → Bool} {text core : List Char}
    (hhead : ∀ c ∈ core.head?, p c = false) (hlast : ∀ c ∈ core.getLast?, p c = false) :
    strip p text = core ↔
      ∃ front tail, text = front ++ (core ++ tail) ∧ (∀ c ∈ front, p c = true) ∧
        ∀ c ∈ tail, p c = true := by
  constructor
  · rintro rfl
    exact exists_strip p text
  · rintro ⟨front, tail, rfl, hfront, htail⟩
    exact strip_append hfront htail hhead hlast

/-- Blanks at the end are trimmed. -/
theorem trim_append_blanks {text bs : List Char} (hbs : ∀ c ∈ bs, isBlank c = true) :
    trim (text ++ bs) = trim text :=
  strip_append_tail hbs

/-! ## Words between blanks -/

/-- A word with blanks around it is trimmed to itself. -/
theorem trim_word {front word tail : List Char} (hword : ∀ c ∈ word, isPlain c = true)
    (hfront : isAllBlank front = true) (htail : isAllBlank tail = true) :
    trim (front ++ (word ++ tail)) = word :=
  strip_append (List.all_eq_true.mp hfront) (List.all_eq_true.mp htail)
    (fun c hc => not_isBlank_of_isPlain (hword c (List.mem_of_mem_head? hc)))
    (fun c hc => not_isBlank_of_isPlain (hword c (List.mem_of_getLast? hc)))

/-- Words are read back from where they stand between separators, with blanks around them. -/
theorem map_trim_splitOn {c : Char} (front pre post tail : List Char)
    (hc : isPlain c = false ∧ isBlank c = false)
    (hblank : isAllBlank (front ++ pre ++ post ++ tail) = true) {words : List (List Char)}
    (hne : words ≠ []) (hwords : ∀ w ∈ words, ∀ d ∈ w, isPlain d = true) :
    ((front ++ ((pre ++ c :: post).intercalate words ++ tail)).splitOn c).map trim = words := by
  simp only [isAllBlank, List.all_append, Bool.and_eq_true] at hblank
  obtain ⟨⟨⟨hfront, hpre⟩, hpost⟩, htail⟩ := hblank
  have hnot : ∀ bs : List Char, bs.all isBlank = true → c ∉ bs :=
    fun bs hbs => not_mem_of_forall (List.all_eq_true.mp hbs) hc.2
  induction words generalizing front with
  | nil => exact absurd rfl hne
  | cons w words ih =>
    have hw := hwords w List.mem_cons_self
    have hcw : c ∉ w := not_mem_of_forall hw hc.1
    cases words with
    | nil =>
      have hone : c ∉ front ++ (w ++ tail) := by
        simp only [List.mem_append, not_or]
        exact ⟨hnot front hfront, hcw, hnot tail htail⟩
      rw [List.intercalate_singleton, List.splitOn_eq_singleton hone, List.map_singleton,
        trim_word hw hfront htail]
    | cons x words =>
      have hfirst : c ∉ front ++ (w ++ pre) := by
        simp only [List.mem_append, not_or]
        exact ⟨hnot front hfront, hcw, hnot pre hpre⟩
      have hjoin : front ++ ((pre ++ c :: post).intercalate (w :: x :: words) ++ tail) =
          (front ++ (w ++ pre)) ++
            c :: (post ++ ((pre ++ c :: post).intercalate (x :: words) ++ tail)) := by
        rw [List.intercalate_cons_cons]
        simp
      rw [hjoin, List.splitOn_append_cons_self_of_not_mem hfirst, List.map_cons,
        trim_word hw hfront hpre, ih post (List.cons_ne_nil x words)
          (fun y hy => hwords y (List.mem_cons_of_mem w hy)) hpost]

/-! ## Indents -/

theorem isBlank_of_head?_cons {c : Char} {text : List Char} (hc : isBlank c = false) :
    ∀ d ∈ (c :: text).head?, isBlank d = false := by
  rintro d ⟨⟩
  exact hc

theorem isBlank_of_getLast?_concat {c : Char} {text : List Char} (hc : isBlank c = false) :
    ∀ d ∈ (text ++ [c]).getLast?, isBlank d = false := by
  rw [List.getLast?_concat]
  rintro d ⟨⟩
  exact hc

/-- A line behind `n` spaces. -/
def indented (n : Nat) (line : List Char) : List Char := List.replicate n ' ' ++ line

variable {n : Nat} {line : List Char}

theorem indented_append (n : Nat) (line rest : List Char) :
    indented n (line ++ rest) = indented n line ++ rest :=
  (List.append_assoc _ line rest).symm

theorem not_mem_indented {c : Char} (hc : c ≠ ' ') (h : c ∉ line) : c ∉ indented n line := by
  simp [indented, List.mem_replicate, hc, h]

theorem isBlank_of_mem_replicate : ∀ c ∈ List.replicate n ' ', isBlank c = true := by
  intro c hc
  rw [List.eq_of_mem_replicate hc]
  decide

theorem takeWhile_indented (hhead : ∀ c ∈ line.head?, isBlank c = false) :
    (indented n line).takeWhile isBlank = List.replicate n ' ' :=
  takeWhile_append_of_head? isBlank_of_mem_replicate hhead

theorem trimStart_indented (hhead : ∀ c ∈ line.head?, isBlank c = false) :
    trimStart (indented n line) = line :=
  dropWhile_append_of_head? isBlank_of_mem_replicate hhead

/-- Trimming takes the indent off a line. -/
theorem trim_indented (hhead : ∀ c ∈ line.head?, isBlank c = false)
    (hlast : ∀ c ∈ line.getLast?, isBlank c = false) : trim (indented n line) = line := by
  rw [trim, strip, indented, List.dropWhile_append_of_pos isBlank_of_mem_replicate]
  exact trim_eq_self hhead hlast

end CompanyRegister.Text
