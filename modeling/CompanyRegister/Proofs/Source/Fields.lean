import CompanyRegister.Proofs.Source.EntryLines

/-!
# Field lines as they are generated

A generator declares a field by a property and a union, in which any number of members say that the
value may be missing. Reading such a line gives the property, the type and whether the value may be
missing (`declaration_parse_fieldText`).

    label: null | string;    ──renderField──▶    label?: null | string = 'x';

The two edits put the question mark and the initial value where they belong and leave the rest of
the line as it is (`renderField_fieldText`).
-/

namespace CompanyRegister.Source

open Text

/-! ## What is written -/

/-- A property of a generated entity. One that ends in the key of a length is left out: its line
would be read for a length. -/
structure Property where
  first : Char
  rest : List Char
  isNameStart_first : isNameStart first = true
  plain_rest : ∀ c ∈ rest, (isPlain c || c == '$') = true
  notLength : ¬ "length".toList <:+ first :: rest

def Property.chars (p : Property) : List Char := p.first :: p.rest

/-- A union member that says that the value may be missing. -/
inductive Missing
  | null
  | undefined
  deriving DecidableEq, Repr

def Missing.text : Missing → List Char
  | null => "null".toList
  | undefined => "undefined".toList

/-- The property type that names a column type. -/
def typeWord : ColumnType → List Char
  | .string => "string".toList
  | .number => "number".toList
  | .date => "Date".toList
  | .boolean => "boolean".toList
  | .other => "Buffer".toList

/-- A union with one member that names a column type. -/
structure TypeUnion where
  before : List Missing
  type : ColumnType
  after : List Missing
  deriving DecidableEq, Repr

namespace TypeUnion

def members (u : TypeUnion) : List (List Char) :=
  u.before.map Missing.text ++ typeWord u.type :: u.after.map Missing.text

def text (u : TypeUnion) : List Char := [' ', '|', ' '].intercalate u.members

/-- Whether some member says that the value may be missing. -/
def hasMissing (u : TypeUnion) : Bool := u.before ≠ [] || u.after ≠ []

end TypeUnion

/-- A field line up to the end of its union. -/
def fieldHead (p : Property) (marked : Bool) (u : TypeUnion) : List Char :=
  p.chars ++ ((if marked then ['?'] else []) ++ ':' :: ' ' :: u.text)

/-- A field line without its indent: a property, perhaps a question mark, a union, and perhaps an
initial value. -/
def fieldText (p : Property) (marked : Bool) (u : TypeUnion) : Option (List Char) → List Char
  | none => fieldHead p marked u ++ [';']
  | some value => fieldHead p marked u ++ ' ' :: '=' :: ' ' :: (value ++ [';'])

/-- A field line as it is generated. -/
theorem fieldText_false_none (p : Property) (u : TypeUnion) :
    fieldText p false u none = p.chars ++ ':' :: (' ' :: u.text ++ [';']) := by
  simp [fieldText, fieldHead]

/-! ## Characters -/

theorem isNameRest_of_mem {p : Property} {c : Char} (h : c ∈ p.chars) : isNameRest c = true := by
  rcases List.mem_cons.mp h with rfl | h
  · exact isNameRest_of_isNameStart p.isNameStart_first
  · have hc := p.plain_rest c h
    rw [Bool.or_eq_true, beq_iff_eq] at hc
    rcases hc with hc | rfl
    · rw [isNameRest, isWord, ← isPlain, hc, Bool.true_or, Bool.true_or]
    · decide

theorem Property.not_mem (p : Property) {c : Char} (h : isNameRest c = false) : c ∉ p.chars :=
  not_mem_of_forall (fun _ hc => isNameRest_of_mem hc) h

theorem plain_of_mem_members {u : TypeUnion} {m : List Char} (h : m ∈ u.members) :
    ∀ c ∈ m, isPlain c = true := by
  have hmissing : ∀ x : Missing, ∀ c ∈ x.text, isPlain c = true := by
    intro x
    cases x <;> exact List.all_eq_true.mp (by decide)
  have htype : ∀ t : ColumnType, ∀ c ∈ typeWord t, isPlain c = true := by
    intro t
    cases t <;> exact List.all_eq_true.mp (by decide)
  rw [TypeUnion.members, List.mem_append, List.mem_cons] at h
  rcases h with h | rfl | h
  · obtain ⟨x, -, rfl⟩ := List.mem_map.mp h
    exact hmissing x
  · exact htype u.type
  · obtain ⟨x, -, rfl⟩ := List.mem_map.mp h
    exact hmissing x

/-- Whether a character may stand in a union. -/
def isUnionChar (c : Char) : Bool := isPlain c || [' ', '|'].contains c

theorem isUnionChar_of_mem_text {u : TypeUnion} : ∀ c ∈ u.text, isUnionChar c = true := by
  intro c h
  rcases mem_intercalate h with h | ⟨m, hm, h⟩
  · exact List.all_eq_true.mp (by decide : [' ', '|', ' '].all isUnionChar = true) c h
  · rw [isUnionChar, plain_of_mem_members hm c h, Bool.true_or]

theorem TypeUnion.not_mem (u : TypeUnion) {c : Char} (hc : isUnionChar c = false) : c ∉ u.text :=
  not_mem_of_forall isUnionChar_of_mem_text hc

/-- Whether a character may stand in a field line up to the end of its union. -/
def isFieldChar (c : Char) : Bool := isNameRest c || isUnionChar c || ['?', ':'].contains c

theorem not_mem_fieldHead (p : Property) (marked : Bool) (u : TypeUnion) {c : Char}
    (hc : isFieldChar c = false) : c ∉ fieldHead p marked u := by
  refine not_mem_of_forall (fun d hd => ?_) hc
  rw [fieldHead, List.mem_append, List.mem_append, List.mem_cons, List.mem_cons] at hd
  rcases hd with hd | hd | rfl | rfl | hd
  · rw [isFieldChar, isNameRest_of_mem hd, Bool.true_or, Bool.true_or]
  · cases marked with
    | false => cases hd
    | true =>
      rw [List.mem_singleton.mp hd]
      decide
  · decide
  · decide
  · rw [isFieldChar, isUnionChar_of_mem_text d hd, Bool.or_true, Bool.true_or]

/-! ## Reading -/

theorem ofName?_typeWord (t : ColumnType) : ColumnType.ofName? (typeWord t) = some t := by
  cases t <;> decide

theorem isMissing_text (x : Missing) : FieldLine.isMissing x.text = true := by
  cases x <;> decide

theorem isMissing_typeWord (t : ColumnType) : FieldLine.isMissing (typeWord t) = false := by
  cases t <;> decide

theorem declaration_members (p : Property) (u : TypeUnion) :
    FieldLine.declaration ⟨p.chars, false, u.members⟩ = .ok ⟨p.chars, u.type, u.hasMissing⟩ := by
  have hname : FieldLine.typeName ⟨p.chars, false, u.members⟩ = typeWord u.type := by
    have hbefore : (u.before.map Missing.text).find? (fun m => !FieldLine.isMissing m) = none := by
      simp [List.find?_eq_none, isMissing_text]
    simp [FieldLine.typeName, TypeUnion.members, List.find?_append, hbefore, isMissing_typeWord]
  have hmissing : ∀ xs : List Missing,
      (xs.map Missing.text).any FieldLine.isMissing = (xs ≠ [] : Bool) := by
    intro xs
    cases xs <;> simp [isMissing_text]
  have hoptional : FieldLine.isOptional ⟨p.chars, false, u.members⟩ = u.hasMissing := by
    simp [FieldLine.isOptional, TypeUnion.members, TypeUnion.hasMissing, hmissing,
      isMissing_typeWord]
  rw [FieldLine.declaration, hname, ofName?_typeWord, hoptional]

theorem isBlank_first (p : Property) : isBlank p.first = false := by
  have h := p.isNameStart_first
  simp only [isNameStart, Bool.or_eq_true, beq_iff_eq] at h
  rcases h with (h | h) | h
  · exact not_isBlank_of_isAlphanum (by rw [Char.isAlphanum, h, Bool.true_or])
  · rw [h]
    decide
  · rw [h]
    decide

theorem head?_fieldText (p : Property) (marked : Bool) (u : TypeUnion)
    (value : Option (List Char)) : ∀ c ∈ (fieldText p marked u value).head?, isBlank c = false := by
  intro c hc
  cases value <;> (cases hc; exact isBlank_first p)

theorem afterColon?_text (property : List Char) (u : TypeUnion) :
    FieldLine.afterColon? property false (' ' :: u.text ++ [';']) =
      some ⟨property, false, u.members⟩ := by
  have hchars : ∀ c ∈ ' ' :: u.text, FieldLine.isTypeChar c = true := by
    have hsemicolon : ';' ∉ u.text := u.not_mem (by decide)
    have hequals : '=' ∉ u.text := u.not_mem (by decide)
    intro c hc
    rcases List.mem_cons.mp hc with rfl | hc
    · decide
    · rw [FieldLine.isTypeChar, Bool.and_eq_true, bne_iff_ne, bne_iff_ne]
      exact ⟨fun h => hsemicolon (h ▸ hc), fun h => hequals (h ▸ hc)⟩
  have htype : (' ' :: u.text ++ [';']).takeWhile FieldLine.isTypeChar = ' ' :: u.text := by
    rw [List.takeWhile_append_of_pos hchars]
    exact List.append_nil _
  have hrest : (' ' :: u.text ++ [';']).dropWhile FieldLine.isTypeChar = [';'] := by
    rw [List.dropWhile_append_of_pos hchars]
    rfl
  have hmembers : ((' ' :: u.text).splitOn '|').map trim = u.members := by
    have htrim := map_trim_splitOn (c := '|') [' '] [' '] [' '] [] (by decide) (by decide)
      (by simp [TypeUnion.members]) fun m hm => plain_of_mem_members (u := u) hm
    rw [List.append_nil] at htrim
    exact htrim
  rw [FieldLine.afterColon?, htype, hrest, hmembers]
  exact if_pos ⟨List.cons_ne_nil _ _, rfl⟩

theorem parse?_fieldText (n : Nat) (p : Property) (u : TypeUnion) :
    FieldLine.parse? (indented n (fieldText p false u none)) =
      some ⟨p.chars, false, u.members⟩ := by
  have htrim : trimStart (indented n (fieldText p false u none)) =
      p.first :: (p.rest ++ ':' :: (' ' :: u.text ++ [';'])) := by
    rw [trimStart_indented (head?_fieldText p false u none), fieldText_false_none]
    rfl
  have hname : ∀ c ∈ p.rest, isNameRest c = true :=
    fun c hc => isNameRest_of_mem (List.mem_cons_of_mem p.first hc)
  have htake : (p.rest ++ ':' :: (' ' :: u.text ++ [';'])).takeWhile isNameRest = p.rest := by
    rw [List.takeWhile_append_of_pos hname]
    exact List.append_nil _
  have hdrop : (p.rest ++ ':' :: (' ' :: u.text ++ [';'])).dropWhile isNameRest =
      ':' :: (' ' :: u.text ++ [';']) := by
    rw [List.dropWhile_append_of_pos hname]
    rfl
  rw [FieldLine.parse?, htrim]
  show (if isNameStart p.first = true then
    FieldLine.afterName?
      (p.first :: (p.rest ++ ':' :: (' ' :: u.text ++ [';'])).takeWhile isNameRest)
      ((p.rest ++ ':' :: (' ' :: u.text ++ [';'])).dropWhile isNameRest) else none) = _
  rw [if_pos p.isNameStart_first, htake, hdrop]
  exact afterColon?_text p.chars u

theorem declaration_parse_fieldText (n : Nat) (p : Property) (u : TypeUnion) :
    Declaration.parse (indented n (fieldText p false u none)) =
      .ok ⟨p.chars, u.type, u.hasMissing⟩ := by
  rw [Declaration.parse, parse?_fieldText]
  exact declaration_members p u

theorem trim_fieldText (n : Nat) (p : Property) (u : TypeUnion) :
    trim (indented n (fieldText p false u none)) = fieldText p false u none := by
  exact trim_indented (head?_fieldText p false u none) (isBlank_of_getLast?_concat (by decide))

/-- A field line says nothing about a length or a default, as its property does not end in the key
of a length. -/
theorem isSilent_fieldText (p : Property) (u : TypeUnion) :
    IsSilent (fieldText p false u none) := by
  have hnot : ∀ c, isFieldChar c = false → c ≠ ';' → c ∉ fieldText p false u none := by
    intro c hc hsemicolon
    simp [fieldText, not_mem_fieldHead p false u hc, hsemicolon]
  have hcolon : ':' ∉ ' ' :: u.text ++ [';'] := by
    simp [u.not_mem (show isUnionChar ':' = false by decide)]
  have hlength := contains_key "length".toList p.chars (p.not_mem (by decide)) hcolon p.notLength
  rw [← fieldText_false_none] at hlength
  exact {
    noDefault := contains_eq_false_of_not_mem (c := '(') (by decide)
      (hnot _ (by decide) (by decide))
    noObject := Or.inl (hnot _ (by decide) (by decide))
    noLength := hlength }

/-! ## Editing -/

theorem markOptional_fieldText (n : Nat) (p : Property) (u : TypeUnion) :
    markOptional (indented n (fieldText p false u none)) =
      indented n (fieldText p true u none) := by
  have hnot : ∀ c, isNameRest c = false → c ≠ ' ' → c ∉ indented n p.chars := by
    intro c hname hblank
    exact not_mem_indented hblank (p.not_mem hname)
  have hline : indented n (fieldText p false u none) =
      indented n p.chars ++ ':' :: (' ' :: u.text ++ [';']) := by
    rw [fieldText_false_none, indented_append]
  have hcolon : ':' ∉ indented n p.chars := hnot ':' (by decide) (by decide)
  have hmark : (trimEnd (indented n p.chars)).getLast? ≠ some '?' := fun h =>
    hnot '?' (by decide) (by decide) (mem_of_mem_dropEndWhile (List.mem_of_getLast? h))
  rw [hline, markOptional, cut?_append_cons hcolon]
  show (if (trimEnd (indented n p.chars)).getLast? = some '?' then _ else _) = _
  rw [if_neg hmark]
  simp [fieldText, fieldHead, indented]

theorem initialise_fieldText (n : Nat) (p : Property) (marked : Bool) (u : TypeUnion)
    (value : List Char) :
    initialise value (indented n (fieldText p marked u none)) =
      indented n (fieldText p marked u (some value)) := by
  have hsemicolon : ';' ∉ indented n (fieldHead p marked u) :=
    not_mem_indented (by decide) (not_mem_fieldHead p marked u (by decide))
  have hdrop : dropEndWhile (· == ';') (indented n (fieldHead p marked u) ++ [';']) =
      indented n (fieldHead p marked u) :=
    dropEndWhile_append (by simp) fun c hc =>
      beq_eq_false_iff_ne.mpr fun h => hsemicolon (h ▸ List.mem_of_getLast? hc)
  rw [fieldText, indented_append, initialise, hdrop]
  simp [fieldText, indented]

/-- A field line is rendered as the generator would have written it with the question mark and the
initial value of its column. -/
theorem renderField_fieldText (b : ColumnBlock) (n : Nat) (p : Property) (u : TypeUnion) :
    b.renderField (indented n (fieldText p false u none)) =
      indented n (fieldText p b.optional u b.default) := by
  have hmark : (if b.optional then markOptional (indented n (fieldText p false u none))
      else indented n (fieldText p false u none)) = indented n (fieldText p b.optional u none) := by
    cases b.optional with
    | false => rfl
    | true => exact markOptional_fieldText n p u
  rw [ColumnBlock.renderField, hmark]
  cases b.default with
  | none => rfl
  | some value => exact initialise_fieldText n p b.optional u value

end CompanyRegister.Source
