import CompanyRegister.Source.ColumnBlock
import CompanyRegister.Proofs.Text.Pieces
import CompanyRegister.Proofs.Text.Plain

/-!
# Entries as they are generated

A generator writes the options of a column as entries of four kinds (`Entry`).

    name: "Label"      nullable: true      length: 60      default: () => "(x)"

Among other entries a length is told by the comma or blank in front of its key, so the entries
before it are passed over one by one (`laterLength?_text`, `laterLength?_flatMap`). A default is
cut off at its key, which no other entry has (`splitDefault_defaultText`).
-/

namespace CompanyRegister.Source

open Text

/-! ## What is written -/

/-- Whether a character may stand in a default. -/
def isValueChar (c : Char) : Bool := isPlain c || c == '.' || c == '\''

/-- What a generator writes as a default. -/
structure DefaultValue where
  chars : List Char
  ne_nil : chars ≠ []
  isValue : ∀ c ∈ chars, isValueChar c = true

/-- A default as it is kept: not if it is a function of the database. -/
def DefaultValue.kept (o : Options) (value : DefaultValue) : Option (List Char) :=
  if o.ignores value.chars then none else some value.chars

/-- An entry of an options object. -/
inductive Entry
  | name (column : PlainWord)
  | nullable
  | length (n : Fin 4294967296)
  | default (value : DefaultValue)

namespace Entry

def text : Entry → List Char
  | name column => "name: \"".toList ++ (column.chars ++ ['"'])
  | nullable => "nullable: true".toList
  | length n => "length: ".toList ++ digits n
  | default value => "default: () => \"(".toList ++ (value.chars ++ ")\"".toList)

@[simp] theorem text_name (column : PlainWord) :
    (name column).text = "name: \"".toList ++ (column.chars ++ ['"']) := rfl

@[simp] theorem text_length (n : Fin 4294967296) :
    (length n).text = "length: ".toList ++ digits n := rfl

@[simp] theorem text_default (value : DefaultValue) :
    (default value).text = "default: () => \"(".toList ++ (value.chars ++ ")\"".toList) := rfl

/-- The length that an entry gives. -/
def length? : Entry → Option (Fin 4294967296)
  | length n => some n
  | _ => none

def isDefault : Entry → Bool
  | default _ => true
  | _ => false

end Entry

/-- Entries on one line, a comma between each two. -/
def joinedText (es : List Entry) : List Char := [',', ' '].intercalate (es.map Entry.text)

/-- Entries on one line, a comma behind each: what is left in front of a default. -/
def endedText (es : List Entry) : List Char := (es.map Entry.text).flatMap (· ++ [',', ' '])

theorem joinedText_concat (es : List Entry) (w : Entry) :
    joinedText (es ++ [w]) = endedText es ++ w.text := by
  rw [joinedText, List.map_append, List.map_singleton, intercalate_concat]
  rfl

/-! ## Values -/

theorem entryValue?_append {v rest : List Char} (hne : v ≠ [])
    (hv : ∀ c ∈ v, endsValue c = false) (hrest : ∀ c ∈ rest.head?, endsValue c = true) :
    entryValue? (v ++ rest) = some (v, rest) := by
  have hin : ∀ c ∈ v, (!endsValue c) = true := fun c hc => by rw [hv c hc]; rfl
  have hout : rest.takeWhile (fun c => !endsValue c) = [] ∧
      rest.dropWhile (fun c => !endsValue c) = rest := by
    cases rest with
    | nil => exact ⟨rfl, rfl⟩
    | cons c rest => simp [hrest c rfl]
  rw [entryValue?, List.takeWhile_append_of_pos hin, List.dropWhile_append_of_pos hin, hout.1,
    hout.2, List.append_nil, if_neg hne]

theorem endsValue_of_isPlain {c : Char} (h : isPlain c = true) : endsValue c = false := by
  rw [endsValue, not_isBlank_of_isPlain h, Bool.or_false, beq_eq_false_iff_ne]
  rintro rfl
  exact absurd h (by decide)

theorem isPlain_of_mem_digits {n : Nat} {c : Char} (h : c ∈ digits n) : isPlain c = true :=
  isPlain_of_isDigit (isDigit_of_mem_digits h)

theorem entryValue?_digits (n : Nat) {rest : List Char}
    (hrest : ∀ c ∈ rest.head?, endsValue c = true) :
    entryValue? (digits n ++ rest) = some (digits n, rest) :=
  entryValue?_append (digits_ne_nil n)
    (fun _ hc => endsValue_of_isPlain (isPlain_of_mem_digits hc)) hrest

theorem head?_digits_append (n : Nat) (rest : List Char) :
    ∀ c ∈ (digits n ++ rest).head?, isBlank c = false := by
  intro c hc
  rw [List.head?_append_of_ne_nil _ (digits_ne_nil n)] at hc
  exact not_isBlank_of_isPlain (isPlain_of_mem_digits (List.mem_of_mem_head? hc))

/-- What has been written as digits is read back if it is small enough. -/
theorem word32?_digits_eq (n : Nat) :
    word32? (digits n) = if n < 4294967296 then some n else none := by
  have hdigits : (digits n).all Char.isDigit = true :=
    List.all_eq_true.mpr fun c hc => isDigit_of_mem_digits hc
  have hsign : ∀ rest, digits n ≠ '+' :: rest := by
    intro rest hrest
    have hplus : '+' ∈ digits n := hrest ▸ List.mem_cons_self
    exact absurd (isDigit_of_mem_digits hplus) (by decide)
  rw [word32?, value_digits]
  · simp [digits_ne_nil, hdigits]
  · exact hsign

theorem word32?_digits {n : Nat} (h : n < 4294967296) : word32? (digits n) = some n := by
  rw [word32?_digits_eq, if_pos h]

/-! ## A length among other entries -/

theorem dropQuote_cons {c : Char} (hc : c ∉ ['"', '\'']) (text : List Char) :
    dropQuote (c :: text) = c :: text := by
  simp only [List.mem_cons, List.not_mem_nil, or_false] at hc
  exact if_neg hc

/-- A length entry begins with its key, which may stand in quotes. -/
theorem entryLength?_cons_of_not_mem {c : Char} (hc : c ∉ ['l', '"', '\'']) (text : List Char) :
    entryLength? (c :: text) = none := by
  rw [List.mem_cons, not_or] at hc
  have hafter : after? "length".toList (c :: text) = none := if_neg hc.1
  rw [entryLength?, dropQuote_cons hc.2, hafter]
  rfl

theorem afterColon?_cons_of_ne {c : Char} (hblank : isBlank c = false) (hcolon : c ≠ ':')
    (text : List Char) : afterColon? (c :: text) = none := by
  have htrim : trimStart (c :: text) = c :: text := dropWhile_eq_self (by simpa using hblank)
  rw [afterColon?, htrim]
  split
  · next heq => exact absurd (List.cons.inj heq).1 hcolon
  · rfl

theorem afterColon?_colon {text : List Char} (h : ∀ c ∈ text.head?, isBlank c = false) :
    afterColon? (':' :: ' ' :: text) = some text :=
  congrArg some (dropWhile_eq_self h)

/-- Entries begin and end where values end. -/
theorem laterLength?_append {word : List Char} (h : word.any endsValue = false)
    (rest : List Char) : laterLength? (word ++ rest) = laterLength? rest := by
  induction word with
  | nil => rfl
  | cons c word ih =>
    rw [List.any_cons, Bool.or_eq_false_iff] at h
    rw [List.cons_append, laterLength?, h.1]
    exact ih h.2

theorem laterLength?_cons_of_eq_none {c : Char} {text : List Char} (h : entryLength? text = none) :
    laterLength? (c :: text) = laterLength? text := by
  rw [laterLength?, h, ite_self]

theorem laterLength?_cons_of_eq_some {c : Char} {text v : List Char} (hc : endsValue c = true)
    (h : entryLength? text = some v) : laterLength? (c :: text) = some v := by
  rw [laterLength?, hc, if_pos rfl, h]

/-- The quotes around a word. -/
inductive Quoting
  | plain
  | single
  | double
  deriving DecidableEq, Repr

/-- A word in its quotes. -/
def Quoting.write (word : List Char) : Quoting → List Char
  | plain => word
  | single => '\'' :: (word ++ ['\''])
  | double => '"' :: (word ++ ['"'])

/-- Whether a character may stand in a word that is a key or a value. -/
def isBodyChar (c : Char) : Bool := !isBlank c && decide (c ∉ ['"', '\'', ':', ','])

theorem not_isBlank_of_isBodyChar {c : Char} (h : isBodyChar c = true) : isBlank c = false := by
  rw [isBodyChar, Bool.and_eq_true, Bool.not_eq_true'] at h
  exact h.1

theorem not_mem_of_isBodyChar {c : Char} (h : isBodyChar c = true) : c ∉ ['"', '\'', ':', ','] := by
  rw [isBodyChar, Bool.and_eq_true, decide_eq_true_eq] at h
  exact h.2

/-- What follows a word: a colon, a comma or a blank. -/
def EndsWord (rest : List Char) : Prop := ∃ c tail, rest = c :: tail ∧ c ∈ [':', ',', ' ']

/-- What may follow an entry on a line with others: the blank in front of the closing brace, or a
comma. -/
def EndsEntry (rest : List Char) : Prop := rest = [' '] ∨ rest.head? = some ','

theorem head?_of_endsEntry {rest : List Char} (h : EndsEntry rest) :
    ∀ c ∈ rest.head?, endsValue c = true := by
  rcases h with rfl | h
  · rintro c ⟨⟩
    decide
  · rw [h]
    rintro c ⟨⟩
    decide

theorem endsWord_of_endsEntry {rest : List Char} (h : EndsEntry rest) : EndsWord rest := by
  rcases h with rfl | h
  · exact ⟨' ', [], rfl, by decide⟩
  · obtain ⟨tail, rfl⟩ := List.head?_eq_some_iff.mp h
    exact ⟨',', tail, rfl, by decide⟩

theorem afterColon?_of_endsEntry {rest : List Char} (h : EndsEntry rest) :
    afterColon? rest = none := by
  rcases h with rfl | h
  · rfl
  · obtain ⟨text, rfl⟩ := List.head?_eq_some_iff.mp h
    rfl

/-- Past the quote in front of a word comes the word, and past the quote behind it what follows. -/
theorem exists_dropQuote_write {word : List Char} (q : Quoting) (hne : q = .plain → word ≠ [])
    (hword : ∀ c ∈ word, isBodyChar c = true) {rest : List Char} (hrest : EndsWord rest) :
    ∃ c tail, dropQuote (q.write word ++ rest) = word ++ c :: tail ∧ c ∉ "length".toList ∧
      dropQuote (c :: tail) = rest := by
  obtain ⟨c, tail, rfl, hc⟩ := hrest
  cases q with
  | plain =>
    obtain ⟨first, word, rfl⟩ := List.exists_cons_of_ne_nil (hne rfl)
    have hfirst := not_mem_of_isBodyChar (hword first List.mem_cons_self)
    simp only [List.mem_cons, List.not_mem_nil, or_false, not_or] at hc hfirst
    refine ⟨c, tail, dropQuote_cons (by simp [hfirst]) _, ?_, dropQuote_cons ?_ tail⟩
    all_goals rcases hc with rfl | rfl | rfl <;> decide
  | single => exact ⟨'\'', c :: tail, by simp [Quoting.write, dropQuote], by decide, rfl⟩
  | double => exact ⟨'"', c :: tail, by simp [Quoting.write, dropQuote], by decide, rfl⟩

/-- A word begins a length entry only if it is the whole key. -/
theorem entryLength?_write {word : List Char} (q : Quoting) (hne : q = .plain → word ≠ [])
    (hword : ∀ c ∈ word, isBodyChar c = true) {rest : List Char} (hrest : EndsWord rest) :
    entryLength? (q.write word ++ rest) =
      if word = "length".toList then
        (afterColon? rest).bind fun text => (entryValue? text).map Prod.fst
      else none := by
  obtain ⟨c, tail, hopen, hc, hclose⟩ := exists_dropQuote_write q hne hword hrest
  rw [entryLength?, hopen]
  cases hafter : after? "length".toList (word ++ c :: tail) with
  | none =>
    have hother : word ≠ "length".toList := by
      rintro rfl
      exact after?_eq_none_iff.mp hafter (List.prefix_append _ _)
    rw [if_neg hother]
    rfl
  | some text =>
    have hstart : "length".toList <+: word ++ c :: tail := after?_isSome_iff.mp (hafter ▸ rfl)
    obtain ⟨more, rfl⟩ := prefix_of_prefix_append_cons hc hstart
    rw [List.append_assoc] at hafter
    obtain rfl := List.append_cancel_left (after?_eq_some_iff.mp hafter)
    rw [Option.bind_eq_bind, Option.bind_some]
    cases more with
    | nil =>
      rw [List.append_nil, if_pos rfl, List.nil_append, hclose]
      cases afterColon? rest with
      | none => rfl
      | some text =>
        rw [Option.bind_some, Option.bind_some]
        cases entryValue? text <;> rfl
    | cons d more =>
      -- A longer word goes on with one of its own characters, and that is no colon.
      have hd : isBodyChar d = true := hword d (by simp)
      have hmem := not_mem_of_isBodyChar hd
      simp only [List.mem_cons, List.not_mem_nil, or_false, not_or] at hmem
      rw [if_neg (by simp), List.cons_append, dropQuote_cons (by simp [hmem]),
        afterColon?_cons_of_ne (not_isBlank_of_isBodyChar hd) hmem.2.2.1]
      rfl

theorem isBodyChar_of_isPlain {c : Char} (h : isPlain c = true) : isBodyChar c = true := by
  rw [isBodyChar, not_isBlank_of_isPlain h, Bool.not_false, Bool.true_and, decide_eq_true_eq]
  intro hmem
  simp only [List.mem_cons, List.not_mem_nil, or_false] at hmem
  rcases hmem with rfl | rfl | rfl | rfl <;> exact absurd h (by decide)

/-- A word that is a value is no key, whatever it is: no colon stands behind it. -/
theorem entryLength?_value {word : List Char} (q : Quoting) (hne : q = .plain → word ≠ [])
    (hword : ∀ c ∈ word, isBodyChar c = true) {rest : List Char} (hrest : EndsEntry rest) :
    entryLength? (q.write word ++ rest) = none := by
  rw [entryLength?_write q hne hword (endsWord_of_endsEntry hrest), afterColon?_of_endsEntry hrest]
  exact ite_self none

theorem entryLength?_length (q : Quoting) (n : Nat) {rest : List Char}
    (hrest : ∀ c ∈ rest.head?, endsValue c = true) :
    entryLength? (q.write "length".toList ++ ':' :: ' ' :: (digits n ++ rest)) =
      some (digits n) := by
  have hne : "length".toList ≠ [] := by decide
  have hword : ∀ c ∈ "length".toList, isBodyChar c = true := List.all_eq_true.mp (by decide)
  rw [entryLength?_write q (fun _ => hne) hword ⟨':', _, rfl, by decide⟩,
    if_pos rfl, afterColon?_colon (head?_digits_append n rest), Option.bind_some,
    entryValue?_digits n hrest]
  rfl

/-- No word is cut in two. -/
theorem any_write {word : List Char} (q : Quoting) (hword : ∀ c ∈ word, isBodyChar c = true) :
    (q.write word).any endsValue = false := by
  have hchars : word.any endsValue = false := by
    rw [List.any_eq_false]
    intro c hc hends
    rw [endsValue, not_isBlank_of_isBodyChar (hword c hc), Bool.or_false, beq_iff_eq] at hends
    exact absurd (not_mem_of_isBodyChar (hword c hc)) (by simp [hends])
  cases q with
  | plain => exact hchars
  | single =>
    rw [Quoting.write, List.any_cons, List.any_append, hchars]
    decide
  | double =>
    rw [Quoting.write, List.any_cons, List.any_append, hchars]
    decide

/-- A key is passed over, unless it is that of a length. -/
theorem laterLength?_key {word : List Char} (q : Quoting) (hne : word ≠ [])
    (hword : ∀ c ∈ word, isBodyChar c = true) (hother : word ≠ "length".toList)
    (rest : List Char) :
    laterLength? (' ' :: (q.write word ++ ':' :: rest)) = laterLength? rest := by
  have hentry : entryLength? (q.write word ++ ':' :: rest) = none := by
    rw [entryLength?_write q (fun _ => hne) hword ⟨':', rest, rfl, by decide⟩, if_neg hother]
  rw [laterLength?_cons_of_eq_none hentry, laterLength?_append (any_write q hword)]
  exact laterLength?_append (by decide : [':'].any endsValue = false) rest

/-- So is a value. -/
theorem laterLength?_value {word : List Char} (q : Quoting) (hne : q = .plain → word ≠ [])
    (hword : ∀ c ∈ word, isBodyChar c = true) {rest : List Char} (hrest : EndsEntry rest) :
    laterLength? (' ' :: (q.write word ++ rest)) = laterLength? rest := by
  rw [laterLength?_cons_of_eq_none (entryLength?_value q hne hword hrest),
    laterLength?_append (any_write q hword)]

/-- An entry on a line with others gives its length if it has one; all others are passed over. -/
theorem laterLength?_text (w : Entry) (hw : w.isDefault = false) {rest : List Char}
    (hrest : EndsEntry rest) :
    laterLength? (' ' :: (w.text ++ rest)) =
      (w.length?.map fun n => digits n.val).or (laterLength? rest) := by
  cases w with
  | default value => cases hw
  | name column =>
    have htext : (Entry.name column).text ++ rest =
        Quoting.plain.write "name".toList ++
          ':' :: ' ' :: (Quoting.double.write column.chars ++ rest) := by
      rw [Entry.text_name, List.append_assoc, List.append_assoc]
      simp [Quoting.write]
    rw [htext, laterLength?_key _ (by decide) (List.all_eq_true.mp (by decide)) (by decide),
      laterLength?_value _ (by simp) (fun c hc => isBodyChar_of_isPlain (column.plain c hc)) hrest]
    rfl
  | nullable =>
    have htext : Entry.nullable.text ++ rest =
        Quoting.plain.write "nullable".toList ++
          ':' :: ' ' :: (Quoting.plain.write "true".toList ++ rest) := rfl
    rw [htext, laterLength?_key _ (by decide) (List.all_eq_true.mp (by decide)) (by decide),
      laterLength?_value _ (by decide) (List.all_eq_true.mp (by decide)) hrest]
    rfl
  | length n =>
    have hentry : entryLength? ((Entry.length n).text ++ rest) = some (digits n) := by
      rw [Entry.text_length, List.append_assoc]
      exact entryLength?_length .plain n (head?_of_endsEntry hrest)
    exact laterLength?_cons_of_eq_some (by decide) hentry

/-- Things written one after the other are passed over one by one, each giving its length if it
has one. -/
theorem laterLength?_flatMap {α : Type} {text : α → List Char} {value : α → Option (List Char)}
    {xs : List α}
    (h : ∀ x ∈ xs, ∀ rest, EndsEntry rest →
      laterLength? (' ' :: (text x ++ rest)) = (value x).or (laterLength? rest))
    (rest : List Char) :
    laterLength? (' ' :: ((xs.map text).flatMap (· ++ [',', ' ']) ++ rest)) =
      (xs.findSome? value).or (laterLength? (' ' :: rest)) := by
  induction xs with
  | nil => rfl
  | cons x xs ih =>
    have hjoin : ((x :: xs).map text).flatMap (· ++ [',', ' ']) ++ rest =
        text x ++ ',' :: ' ' :: ((xs.map text).flatMap (· ++ [',', ' ']) ++ rest) := by
      simp
    rw [hjoin, h x List.mem_cons_self _ (Or.inr rfl),
      laterLength?_cons_of_eq_none (entryLength?_cons_of_not_mem (by decide) _),
      ih fun y hy => h y (List.mem_cons_of_mem x hy), List.findSome?_cons]
    cases value x <;> rfl

theorem lengthValue?_blank (body : List Char) :
    lengthValue? (' ' :: body) = laterLength? (' ' :: body) := by
  rw [lengthValue?, entryLength?_cons_of_not_mem (by decide)]

section

variable {α : Type} {text : α → List Char} {value : α → Option (List Char)} {xs : List α}

/-- The length in an object that a default has been cut off. -/
theorem lengthValue?_ended
    (h : ∀ x ∈ xs, ∀ rest, EndsEntry rest →
      laterLength? (' ' :: (text x ++ rest)) = (value x).or (laterLength? rest)) :
    lengthValue? (' ' :: (xs.map text).flatMap (· ++ [',', ' '])) = xs.findSome? value := by
  have hend : laterLength? [' '] = none := rfl
  have hended := laterLength?_flatMap h []
  rw [List.append_nil, hend, Option.or_none] at hended
  rw [lengthValue?_blank, hended]

/-- The length in a whole object. -/
theorem lengthValue?_joined
    (h : ∀ x ∈ xs, ∀ rest, EndsEntry rest →
      laterLength? (' ' :: (text x ++ rest)) = (value x).or (laterLength? rest)) :
    lengthValue? (' ' :: ([',', ' '].intercalate (xs.map text) ++ [' '])) =
      xs.findSome? value := by
  rw [lengthValue?_blank]
  obtain rfl | ⟨init, last, rfl⟩ := List.eq_nil_or_concat' xs
  · rfl
  · have hinit : ∀ x ∈ init, ∀ rest, EndsEntry rest →
        laterLength? (' ' :: (text x ++ rest)) = (value x).or (laterLength? rest) :=
      fun x hx => h x (List.mem_append_left [last] hx)
    have hlast := h last (List.mem_append_right init (List.mem_singleton_self last))
    have hend : laterLength? [' '] = none := rfl
    rw [List.map_append, List.map_singleton, intercalate_concat, List.append_assoc,
      laterLength?_flatMap hinit, hlast _ (Or.inl rfl), hend, Option.or_none,
      List.findSome?_append, List.findSome?_singleton]

end

theorem lengthValue?_joinedText {es : List Entry} (hes : ∀ w ∈ es, w.isDefault = false) :
    lengthValue? (' ' :: (joinedText es ++ [' '])) =
      (es.findSome? Entry.length?).map fun n => digits n.val := by
  rw [List.map_findSome?]
  exact lengthValue?_joined fun w hw _ hrest => laterLength?_text w (hes w hw) hrest

theorem lengthValue?_endedText {es : List Entry} (hes : ∀ w ∈ es, w.isDefault = false) :
    lengthValue? (' ' :: endedText es) =
      (es.findSome? Entry.length?).map fun n => digits n.val := by
  rw [List.map_findSome?]
  exact lengthValue?_ended fun w hw _ hrest => laterLength?_text w (hes w hw) hrest

/-! ## Characters and keys of entries -/

/-- Whether a character may stand in or between entries that are no defaults. -/
def isEntryChar (c : Char) : Bool := isPlain c || [':', ' ', '"', ','].contains c

/-- Whether a character may stand in or between any entries. -/
def isOptionChar (c : Char) : Bool := isEntryChar c || ['(', ')', '=', '>', '.', '\''].contains c

theorem isEntryChar_of_isPlain {c : Char} (h : isPlain c = true) : isEntryChar c = true := by
  rw [isEntryChar, h, Bool.true_or]

theorem isOptionChar_of_isEntryChar {c : Char} (h : isEntryChar c = true) :
    isOptionChar c = true := by
  rw [isOptionChar, h, Bool.true_or]

theorem isOptionChar_of_isValueChar {c : Char} (h : isValueChar c = true) :
    isOptionChar c = true := by
  simp only [isValueChar, Bool.or_eq_true, beq_iff_eq] at h
  rcases h with (h | rfl) | rfl
  · exact isOptionChar_of_isEntryChar (isEntryChar_of_isPlain h)
  · decide
  · decide

theorem isEntryChar_of_mem_text {w : Entry} (hw : w.isDefault = false) :
    ∀ c ∈ w.text, isEntryChar c = true := by
  cases w with
  | default value => cases hw
  | name column =>
    simp only [Entry.text_name, List.forall_mem_append]
    exact ⟨List.all_eq_true.mp (by decide),
      fun c hc => isEntryChar_of_isPlain (column.plain c hc), List.all_eq_true.mp (by decide)⟩
  | nullable => exact List.all_eq_true.mp (by decide)
  | length n =>
    simp only [Entry.text_length, List.forall_mem_append]
    exact ⟨List.all_eq_true.mp (by decide),
      fun c hc => isEntryChar_of_isPlain (isPlain_of_mem_digits hc)⟩

theorem forall_mem_ended {p : Char → Bool} {ts : List (List Char)} (hcomma : p ',' = true)
    (hblank : p ' ' = true) (hts : ∀ t ∈ ts, ∀ c ∈ t, p c = true) :
    ∀ c ∈ ts.flatMap (· ++ [',', ' ']), p c = true := by
  intro c hc
  obtain ⟨t, ht, hc⟩ := List.mem_flatMap.mp hc
  rw [List.mem_append, List.mem_cons, List.mem_singleton] at hc
  rcases hc with hc | rfl | rfl
  · exact hts t ht c hc
  · exact hcomma
  · exact hblank

theorem forall_mem_joined {p : Char → Bool} {ts : List (List Char)} (hcomma : p ',' = true)
    (hblank : p ' ' = true) (hts : ∀ t ∈ ts, ∀ c ∈ t, p c = true) :
    ∀ c ∈ [',', ' '].intercalate ts, p c = true := by
  intro c hc
  rcases mem_intercalate hc with hc | ⟨t, ht, hc⟩
  · rw [List.mem_cons, List.mem_singleton] at hc
    rcases hc with rfl | rfl
    · exact hcomma
    · exact hblank
  · exact hts t ht c hc

theorem forall_mem_endedText {p : Char → Bool} {es : List Entry} (hcomma : p ',' = true)
    (hblank : p ' ' = true) (hes : ∀ w ∈ es, ∀ c ∈ w.text, p c = true) :
    ∀ c ∈ endedText es, p c = true :=
  forall_mem_ended hcomma hblank (List.forall_mem_map.mpr hes)

theorem forall_mem_joinedText {p : Char → Bool} {es : List Entry} (hcomma : p ',' = true)
    (hblank : p ' ' = true) (hes : ∀ w ∈ es, ∀ c ∈ w.text, p c = true) :
    ∀ c ∈ joinedText es, p c = true :=
  forall_mem_joined hcomma hblank (List.forall_mem_map.mpr hes)

theorem isOptionChar_of_mem_text {w : Entry} : ∀ c ∈ w.text, isOptionChar c = true := by
  cases hw : w.isDefault with
  | false => exact fun c hc => isOptionChar_of_isEntryChar (isEntryChar_of_mem_text hw c hc)
  | true =>
    cases w with
    | default value =>
      simp only [Entry.text_default, List.forall_mem_append]
      exact ⟨List.all_eq_true.mp (by decide),
        fun c hc => isOptionChar_of_isValueChar (value.isValue c hc),
        List.all_eq_true.mp (by decide)⟩
    | _ => cases hw

/-- A key occurs on a line with one colon only if the word in front of the colon ends with it. -/
theorem contains_key (key word : List Char) {rest : List Char} (hword : ':' ∉ word)
    (hrest : ':' ∉ rest) (hkey : ¬ key <:+ word) :
    contains (key ++ [':', ' ']) (word ++ ':' :: rest) = false :=
  contains_eq_false_iff.mpr fun h => hkey (suffix_of_infix_append_cons hword hrest h)

theorem colon_not_mem_name (column : PlainWord) : ':' ∉ ' ' :: '"' :: (column.chars ++ ['"']) := by
  simp [column.not_mem (show isPlain ':' = false by decide)]

/-- No other entry has the key of a default. -/
theorem contains_defaultKey_text {w : Entry} (hw : w.isDefault = false) :
    contains defaultKey w.text = false := by
  cases w with
  | default value => cases hw
  | name column =>
    exact contains_key "default".toList "name".toList (by decide) (colon_not_mem_name column)
      (by decide)
  | nullable => decide
  | length n =>
    have hrest : ':' ∉ ' ' :: digits n := by
      intro h
      rcases List.mem_cons.mp h with h | h
      · exact absurd h (by decide)
      · exact absurd (isPlain_of_mem_digits h) (by decide)
    exact contains_key "default".toList "length".toList (by decide) hrest (by decide)

/-! ## Defaults -/

theorem wrapsDefault_of_isValueChar {c : Char} (h : isValueChar c = true) :
    wrapsDefault c = false := by
  rw [Bool.eq_false_iff]
  intro hwraps
  simp only [wrapsDefault, Bool.or_eq_true, beq_iff_eq] at hwraps
  rcases hwraps with ((((((((rfl | rfl) | rfl) | rfl) | rfl) | rfl) | rfl) | rfl) | rfl) | rfl <;>
    exact absurd h (by decide)

/-- What is written as a default, whatever its value. -/
def defaultText (value : List Char) : List Char :=
  "default: () => \"(".toList ++ (value ++ ")\"".toList)

theorem defaultText_eq (value : List Char) :
    defaultText value = defaultKey ++ ("() => \"(".toList ++ (value ++ ")\"".toList)) := rfl

/-- A default is cut off where its key stands, and its value is stripped. -/
theorem splitDefault_defaultText {head : List Char} (value : List Char) {tail : List Char}
    (hhead : contains defaultKey (head ++ "default:".toList) = false)
    (htail : ∀ c ∈ tail, wrapsDefault c = true) :
    splitDefault (head ++ (defaultText value ++ tail)) =
      (if head = [] then [] else head ++ ['\x7d', ')'], strip wrapsDefault value) := by
  have htext : defaultText value ++ tail =
      defaultKey ++ ("() => \"(".toList ++ (value ++ (")\"".toList ++ tail))) := by
    rw [defaultText_eq, List.append_assoc, List.append_assoc, List.append_assoc]
  have hcut := cut?_append ("() => \"(".toList ++ (value ++ (")\"".toList ++ tail)))
    (contains_eq_false_iff.mp hhead)
  have hclose : ∀ c ∈ ")\"".toList ++ tail, wrapsDefault c = true := by
    intro c hc
    rcases List.mem_append.mp hc with hc | hc
    · exact List.all_eq_true.mp (by decide) c hc
    · exact htail c hc
  have hvalue : strip wrapsDefault ("() => \"(".toList ++ (value ++ (")\"".toList ++ tail))) =
      strip wrapsDefault value :=
    strip_wrapped value (List.all_eq_true.mp (by decide)) hclose
  rw [htext, splitDefault, hcut]
  exact congrArg (Prod.mk _) hvalue

/-- Of a default as it is generated nothing is stripped. -/
theorem strip_value (value : DefaultValue) : strip wrapsDefault value.chars = value.chars :=
  strip_eq_self
    (fun c hc => wrapsDefault_of_isValueChar (value.isValue c (List.mem_of_mem_head? hc)))
    (fun c hc => wrapsDefault_of_isValueChar (value.isValue c (List.mem_of_getLast? hc)))

end CompanyRegister.Source
