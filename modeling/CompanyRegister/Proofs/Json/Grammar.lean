import CompanyRegister.Proofs.Json.Reading

/-!
# JSON texts

What a JSON text is, apart from who reads it and what it is wanted for: strings with their escapes,
numerals, and lists and objects of any depth, with a gap wherever one may stand.

A text may be JSON and still have no meaning here, as half of a surrogate pair or a number beyond
the doubles does. `decode` says which strings mean something: the rest of the module is about the
reader of strings, which finds just that (`unquote_parts`).
-/

namespace CompanyRegister.Json

open Text

/-- Blanks, tabs and line ends between the parts of a text. -/
structure Gap where
  text : List Char
  allGap : AllGap text

instance : Inhabited Gap := ⟨⟨[], allGap_nil⟩⟩

/-! ## Strings -/

/-- A hexadecimal digit and its value. -/
structure HexDigit where
  char : Char
  value : Nat
  value_eq : hexValue? char = some value

/-- Four hexadecimal digits. -/
structure CodeUnit where
  first : HexDigit
  second : HexDigit
  third : HexDigit
  fourth : HexDigit

namespace CodeUnit

def number (u : CodeUnit) : Nat :=
  ((16 * u.first.value + u.second.value) * 16 + u.third.value) * 16 + u.fourth.value

def text (u : CodeUnit) : List Char :=
  [u.first.char, u.second.char, u.third.char, u.fourth.char]

end CodeUnit

/-- The letters of the short escapes, and what they stand for. -/
def shortEscapes : List (Char × Char) :=
  [('"', '"'), ('\\', '\\'), ('/', '/'), ('b', '\x08'), ('f', '\x0c'), ('n', '\n'), ('r', '\r'),
    ('t', '\t')]

/-- Whether a character stands for itself in a string. -/
def isUnescaped (c : Char) : Bool := c != '"' && c != '\\' && !decide (c.toNat < 0x20)

theorem isUnescaped_iff {c : Char} :
    isUnescaped c = true ↔ (c ≠ '"' ∧ c ≠ '\\') ∧ ¬ c.toNat < 0x20 := by
  simp [isUnescaped]

/-- What may stand between the quotes of a string. -/
inductive Part
  | plain (c : Char) (h : isUnescaped c = true)
  | short (letter c : Char) (h : (letter, c) ∈ shortEscapes)
  | unit (u : CodeUnit)

def Part.text : Part → List Char
  | .plain c _ => [c]
  | .short letter _ _ => ['\\', letter]
  | .unit u => '\\' :: 'u' :: u.text

/-- The parts of a string behind its opening quote. -/
def partsText (parts : List Part) : List Char := parts.flatMap Part.text ++ ['"']

/-- The characters that a string has; `none` if a half of a surrogate pair stands alone in it. -/
def decode : List Part → Option (List Char)
  | [] => some []
  | .plain c _ :: parts => (decode parts).map (c :: ·)
  | .short _ c _ :: parts => (decode parts).map (c :: ·)
  | .unit u :: parts =>
    if isLowSurrogate u.number then none
    else if isHighSurrogate u.number then
      match parts with
      | .unit v :: parts =>
        if isLowSurrogate v.number then
          (decode parts).map (ofSurrogates u.number v.number :: ·)
        else none
      | _ => none
    else (decode parts).map (Char.ofNat u.number :: ·)

section Decoding

variable {u v : CodeUnit} {parts : List Part}

theorem decode_unit (hlow : ¬ isLowSurrogate u.number = true)
    (hhigh : ¬ isHighSurrogate u.number = true) :
    decode (.unit u :: parts) = (decode parts).map (Char.ofNat u.number :: ·) := by
  rw [decode.eq_def]
  simp only [hlow, hhigh, Bool.false_eq_true, if_false]

theorem decode_of_low (hlow : isLowSurrogate u.number = true) :
    decode (.unit u :: parts) = none := by
  rw [decode.eq_def]
  simp only [hlow, if_true]

/-- The first half of a pair has a meaning with the second alone. -/
theorem decode_pair (hlow : ¬ isLowSurrogate u.number = true)
    (hhigh : isHighSurrogate u.number = true) :
    decode (.unit u :: .unit v :: parts) =
      if isLowSurrogate v.number then (decode parts).map (ofSurrogates u.number v.number :: ·)
      else none := by
  rw [decode.eq_def]
  simp only [hlow, hhigh, Bool.false_eq_true, if_true, if_false]

theorem decode_of_half (hlow : ¬ isLowSurrogate u.number = true)
    (hhigh : isHighSurrogate u.number = true)
    (hother : ∀ v others, parts = .unit v :: others → False) :
    decode (.unit u :: parts) = none := by
  rw [decode.eq_def]
  simp only [hlow, hhigh, Bool.false_eq_true, if_true, if_false]

end Decoding

/-! ## Numerals -/

/-- One or more digits. -/
structure DigitRow where
  first : Char
  others : List Char
  isDigit_first : first.isDigit = true
  isDigit_others : ∀ c ∈ others, c.isDigit = true

def DigitRow.text (ds : DigitRow) : List Char := ds.first :: ds.others

inductive Sign
  | none
  | plus
  | minus

namespace Sign

def text : Sign → List Char
  | none => []
  | plus => ['+']
  | minus => ['-']

def isMinus : Sign → Bool
  | minus => true
  | _ => false

end Sign

structure Exponent where
  letter : Char
  isLetter : letter = 'e' ∨ letter = 'E'
  sign : Sign
  digits : DigitRow

def Exponent.text (e : Exponent) : List Char := e.letter :: (e.sign.text ++ e.digits.text)

/-- A number: no zero stands before its first digit, and there are digits behind the point. -/
structure Numeral where
  negative : Bool
  whole : DigitRow
  shortest : whole.first = '0' → whole.others = []
  fraction : Option DigitRow
  exponent : Option Exponent

def exponentText : Option Exponent → List Char
  | none => []
  | some e => e.text

/-- What follows the digits before the point. -/
def fractionText : Option DigitRow → Option Exponent → List Char
  | none, e => exponentText e
  | some ds, e => '.' :: (ds.text ++ exponentText e)

/-- A number without its sign. -/
def Numeral.unsigned (n : Numeral) : List Char :=
  n.whole.text ++ fractionText n.fraction n.exponent

def Numeral.text (n : Numeral) : List Char :=
  if n.negative then '-' :: n.unsigned else n.unsigned

/-! ## Values -/

/-- An element of a list, with the gaps around it. -/
structure ListElement where
  before : Gap
  value : List Char
  behind : Gap

def ListElement.text (e : ListElement) : List Char := e.before.text ++ (e.value ++ e.behind.text)

/-- A member of an object, with the gaps around its key and its value. -/
structure ObjectMember where
  before : Gap
  key : List Part
  beforeColon : Gap
  behindColon : Gap
  value : List Char
  behind : Gap

namespace ObjectMember

/-- A member from behind its key on. -/
def behindKey (m : ObjectMember) : List Char :=
  m.beforeColon.text ++ ':' :: (m.behindColon.text ++ (m.value ++ m.behind.text))

def text (m : ObjectMember) : List Char :=
  m.before.text ++ '"' :: (partsText m.key ++ m.behindKey)

end ObjectMember

/-- What stands between two brackets: a gap, or texts with commas between them. -/
def between (gap : Gap) : List (List Char) → List Char
  | [] => gap.text
  | texts => [','].intercalate texts

def objectText (gap : Gap) (members : List ObjectMember) : List Char :=
  '\x7b' :: (between gap (members.map ObjectMember.text) ++ ['\x7d'])

/-- Whether a text is a JSON value, without a gap around it. -/
inductive IsValue : List Char → Prop
  | wordNull : IsValue ['n', 'u', 'l', 'l']
  | wordTrue : IsValue ['t', 'r', 'u', 'e']
  | wordFalse : IsValue ['f', 'a', 'l', 's', 'e']
  | number (n : Numeral) : IsValue n.text
  | string (parts : List Part) : IsValue ('"' :: partsText parts)
  | list (gap : Gap) (elements : List ListElement) (h : ∀ e ∈ elements, IsValue e.value) :
    IsValue ('[' :: (between gap (elements.map ListElement.text) ++ [']']))
  | object (gap : Gap) (members : List ObjectMember) (h : ∀ m ∈ members, IsValue m.value) :
    IsValue (objectText gap members)

/-- A JSON text that is an object; `gap` stands between its braces if it has no members. -/
structure ObjectDocument where
  before : Gap
  gap : Gap
  members : List ObjectMember
  isValue : ∀ m ∈ members, IsValue m.value
  behind : Gap

def ObjectDocument.text (d : ObjectDocument) : List Char :=
  d.before.text ++ (objectText d.gap d.members ++ d.behind.text)

/-- What a member says, however it is spelled: the characters of its key, if it has them, and the
text of its value. -/
structure Entry where
  key : Option (List Char)
  value : List Char
  deriving DecidableEq

def ObjectMember.entry (m : ObjectMember) : Entry := ⟨decode m.key, m.value⟩

def ObjectDocument.entries (d : ObjectDocument) : List Entry := d.members.map ObjectMember.entry

/-! ## Results without their faults -/

theorem toOption_ok {α ε : Type} (a : α) : (Except.ok a : Except ε α).toOption = some a := rfl

theorem toOption_map {α β ε : Type} (g : α → β) (x : Except ε α) :
    (x.map g).toOption = x.toOption.map g := by
  cases x <;> rfl

theorem toOption_mapError {α ε ε' : Type} (g : ε → ε') (x : Except ε α) :
    (x.mapError g).toOption = x.toOption := by
  cases x <;> rfl

theorem toOption_bind {α β ε : Type} (x : Except ε α) (k : α → Except ε β) :
    (x >>= k).toOption = x.toOption.bind fun a => (k a).toOption := by
  cases x <;> rfl

/-! ## Reading strings -/

theorem unit_text (u : CodeUnit) (rest : List Char) : unit (u.text ++ rest) = .ok u.number := by
  have hsize : ∀ d : HexDigit, 1 ≤ d.char.utf8Size := fun d => Char.utf8Size_pos d.char
  have hcount : ¬ byteCount (u.text ++ rest) < 4 := by
    have h1 := hsize u.first
    have h2 := hsize u.second
    have h3 := hsize u.third
    have h4 := hsize u.fourth
    simp only [CodeUnit.text, List.cons_append, byteCount, List.foldr_cons]
    omega
  rw [unit.eq_def, if_neg hcount]
  simp only [CodeUnit.text, List.cons_append, u.first.value_eq, u.second.value_eq, u.third.value_eq,
    u.fourth.value_eq, CodeUnit.number]

theorem unescape_short {letter c : Char} (h : (letter, c) ∈ shortEscapes) (rest : List Char) :
    unescape ([letter] ++ rest) = .ok (c, 1) := by
  simp only [shortEscapes, List.mem_cons, List.not_mem_nil, or_false, Prod.mk.injEq] at h
  rcases h with ⟨rfl, rfl⟩ | ⟨rfl, rfl⟩ | ⟨rfl, rfl⟩ | ⟨rfl, rfl⟩ | ⟨rfl, rfl⟩ | ⟨rfl, rfl⟩ |
    ⟨rfl, rfl⟩ | ⟨rfl, rfl⟩ <;> rfl

theorem unescape_unit (u : CodeUnit) (rest : List Char) :
    unescape ('u' :: (u.text ++ rest)) =
      if isLowSurrogate u.number then .error (.here .loneSurrogate rest)
      else if isHighSurrogate u.number then
        (lowerHalf u.number rest).map fun c => (c, 11)
      else .ok (Char.ofNat u.number, 5) := by
  have hdrop : (u.text ++ rest).drop 4 = rest := rfl
  rw [unescape, unit_text, hdrop]
  show (if _ then _ else _) = _
  split
  · rfl
  · split
    · cases lowerHalf u.number rest <;> rfl
    · rfl

theorem lowerHalf_unit (high : Nat) (u : CodeUnit) (rest : List Char) :
    lowerHalf high ('\\' :: 'u' :: (u.text ++ rest)) =
      if isLowSurrogate u.number then .ok (ofSurrogates high u.number)
      else .error (.here .loneSurrogate rest) := by
  rw [lowerHalf, unit_text]
  rfl

theorem toOption_unquote_of_error {f : Fault} {text : List Char} (h : unescape text = .error f) :
    (unquote ('\\' :: text)).toOption = none := by
  have hquote : ¬ '\\' = '"' := by decide
  rw [unquote]
  simp only [hquote, if_false, if_true, h]
  rfl

theorem partsText_cons (p : Part) (parts : List Part) (rest : List Char) :
    partsText (p :: parts) ++ rest = p.text ++ (partsText parts ++ rest) := by
  simp only [partsText, List.flatMap_cons, List.append_assoc]

theorem partsText_unit (u : CodeUnit) (parts : List Part) (rest : List Char) :
    partsText (.unit u :: parts) ++ rest =
      '\\' :: ('u' :: (u.text ++ (partsText parts ++ rest))) :=
  partsText_cons (.unit u) parts rest

/-- The second half of a pair is spelled like the first. -/
theorem lowerHalf_of_no_unit (high : Nat) {parts : List Part}
    (h : ∀ u others, parts = .unit u :: others → False) (rest : List Char) :
    ∃ f, lowerHalf high (partsText parts ++ rest) = .error f := by
  cases parts with
  | nil => exact ⟨_, rfl⟩
  | cons p parts =>
    rw [partsText_cons]
    cases p with
    | unit u => exact (h u parts rfl).elim
    | plain c hplain =>
      have hslash := (isUnescaped_iff.mp hplain).1.2
      rw [Part.text, List.singleton_append, lowerHalf.eq_def]
      split
      · next heq => cases heq
      · next heq => exact absurd (List.cons.inj heq).1 hslash
      · exact ⟨_, rfl⟩
    | short letter c hshort =>
      have hletter : letter ≠ 'u' := by
        rintro rfl
        simp [shortEscapes] at hshort
      show ∃ f, lowerHalf high ('\\' :: letter :: (partsText parts ++ rest)) = .error f
      rw [lowerHalf]
      · exact ⟨_, rfl⟩
      · exact List.cons_ne_nil _ _
      · exact fun _ heq => hletter (List.cons.inj heq).1

/-- One more character is read in front of what a text means. -/
theorem toOption_unquote_cons {c : Char} {front text rest : List Char} {s? : Option (List Char)}
    (hfront : unquote front = (unquote text).map fun r => (c :: r.1, r.2))
    (htext : (unquote text).toOption = s?.map fun s => (s, rest)) :
    (unquote front).toOption = (s?.map (c :: ·)).map fun s => (s, rest) := by
  rw [hfront, toOption_map, htext, Option.map_map, Option.map_map]
  rfl

/-- The reader of strings takes those that mean something, and leaves what follows the closing
quote. -/
theorem unquote_parts (parts : List Part) (rest : List Char) :
    (unquote (partsText parts ++ rest)).toOption = (decode parts).map fun s => (s, rest) := by
  induction parts using decode.induct with
  | case1 =>
    rw [partsText, List.flatMap_nil, List.nil_append, List.singleton_append, unquote, if_pos rfl]
    rfl
  | case2 c hplain parts ih =>
    obtain ⟨⟨hquote, hslash⟩, hcontrol⟩ := isUnescaped_iff.mp hplain
    rw [partsText_cons, decode]
    exact toOption_unquote_cons (unquote_plain hquote hslash hcontrol _) ih
  | case3 letter c h parts ih =>
    rw [partsText_cons, decode]
    exact toOption_unquote_cons (unquote_escape [letter] (unescape_short h _)) ih
  | case4 u parts hlow =>
    rw [partsText_unit, decode_of_low hlow]
    apply toOption_unquote_of_error
    rw [unescape_unit, if_pos hlow]
  | case5 u hlow hhigh v parts hpair ih =>
    have hescape : unescape (('u' :: u.text ++ '\\' :: 'u' :: v.text) ++
        (partsText parts ++ rest)) = .ok (ofSurrogates u.number v.number, 11) := by
      show unescape ('u' :: (u.text ++ '\\' :: 'u' :: (v.text ++ (partsText parts ++ rest)))) = _
      rw [unescape_unit, if_neg hlow, if_pos hhigh, lowerHalf_unit, if_pos hpair]
      rfl
    rw [partsText_unit, partsText_unit, decode_pair hlow hhigh, if_pos hpair]
    exact toOption_unquote_cons (unquote_escape _ hescape) ih
  | case6 u hlow hhigh v parts hpair =>
    rw [partsText_unit, partsText_unit, decode_pair hlow hhigh, if_neg hpair]
    apply toOption_unquote_of_error
    rw [unescape_unit, if_neg hlow, if_pos hhigh, lowerHalf_unit, if_neg hpair]
    rfl
  | case7 u parts hlow hhigh hother =>
    obtain ⟨f, hf⟩ := lowerHalf_of_no_unit u.number hother rest
    rw [partsText_unit, decode_of_half hlow hhigh hother]
    apply toOption_unquote_of_error
    rw [unescape_unit, if_neg hlow, if_pos hhigh, hf]
    rfl
  | case8 u parts hlow hhigh ih =>
    have hescape : unescape (('u' :: u.text) ++ (partsText parts ++ rest)) =
        .ok (Char.ofNat u.number, 5) := by
      rw [List.cons_append, unescape_unit, if_neg hlow, if_neg hhigh]
    rw [partsText_unit, decode_unit hlow hhigh]
    exact toOption_unquote_cons (unquote_escape _ hescape) ih

end CompanyRegister.Json
