/-!
# Cutting text into pieces

Source text is cut at line ends, at empty lines and at marks such as `default: `. Everything here
works on `List Char` and recurses on the text itself, so a proof about a cut is an induction over
the characters.

`List.splitOn` and `List.intercalate` of core do the cutting and joining at a single character;
this module adds the cuts at longer marks.
-/

namespace CompanyRegister.Text

/-- The lines of a text: what stands between its line feeds. -/
def lines (text : List Char) : List (List Char) := text.splitOn '\n'

/-- Lines put together again, a line feed between each two. -/
def unlines (ls : List (List Char)) : List Char := ['\n'].intercalate ls

/-- Put `c` in front of the first piece. -/
def consFirst (c : Char) : List (List Char) → List (List Char)
  | [] => [[c]]
  | piece :: pieces => (c :: piece) :: pieces

/-- The blocks of a text: what stands between two consecutive line feeds, the leftmost pair being
taken each time, so of three line feeds the third opens the next block. -/
def blocks : List Char → List (List Char)
  | [] => [[]]
  | '\n' :: '\n' :: rest => [] :: blocks rest
  | c :: rest => consFirst c (blocks rest)

/-- Every carriage return that stands before a line feed is left out. -/
def joinLineEnds : List Char → List Char
  | [] => []
  | '\r' :: '\n' :: rest => '\n' :: joinLineEnds rest
  | c :: rest => c :: joinLineEnds rest

/-- The number of bytes of a text in UTF-8. -/
def byteCount (text : List Char) : Nat := text.foldr (fun c n => c.utf8Size + n) 0

/-! ### Looking for a part -/

/-- What follows `mark` when `text` begins with it. -/
def after? : List Char → List Char → Option (List Char)
  | [], text => some text
  | _ :: _, [] => none
  | m :: mark, c :: text => if c = m then after? mark text else none

def startsWith (mark text : List Char) : Bool := (after? mark text).isSome

/-- What stands before and after the first place where `mark` occurs in `text`. -/
def cut? (mark : List Char) : List Char → Option (List Char × List Char)
  | [] => (after? mark []).map (([], ·))
  | c :: text =>
    match after? mark (c :: text) with
    | some rest => some ([], rest)
    | none => (cut? mark text).map fun (before, rest) => (c :: before, rest)

def contains (mark text : List Char) : Bool := (cut? mark text).isSome

@[simp] theorem after?_nil (text : List Char) : after? [] text = some text := by
  cases text <;> rfl

/-- `after?` inverts putting the mark in front. -/
theorem after?_eq_some_iff {mark text rest : List Char} :
    after? mark text = some rest ↔ text = mark ++ rest := by
  induction mark generalizing text with
  | nil => simp
  | cons m mark ih =>
    cases text with
    | nil => simp [after?]
    | cons c text =>
      by_cases h : c = m
      · subst h; simp [after?, ih]
      · simp [after?, h]

/-- A cut loses nothing: the text is the part before, the mark and the part after. -/
theorem eq_of_cut? {mark text before rest : List Char}
    (h : cut? mark text = some (before, rest)) : text = before ++ mark ++ rest := by
  induction text generalizing before with
  | nil =>
    cases mark with
    | nil => simp_all [cut?]
    | cons m mark => simp [cut?, after?] at h
  | cons c text ih =>
    rw [cut?] at h
    split at h
    · next r hr =>
      simp only [Option.some.injEq, Prod.mk.injEq] at h
      obtain ⟨rfl, rfl⟩ := h
      simpa using after?_eq_some_iff.mp hr
    · simp only [Option.map_eq_some_iff, Prod.mk.injEq, Prod.exists] at h
      obtain ⟨b, r, hr, rfl, rfl⟩ := h
      simp [ih hr]

end CompanyRegister.Text
