import CompanyRegister.Proofs.Source.Markers
import CompanyRegister.Proofs.Source.Misread
import CompanyRegister.Proofs.Source.QuotedLength

/-!
# Names of properties

Lengths and defaults are looked for on all lines of a column block, the field line among them, and
are told by what stands there. So it matters how a property is called:

    maxlength: string;

is read for a length, which it does not give. The name of a property can be taken for the key of a
length, or with the right type behind it for the key of a default, or for neither
(`FieldBlock.role`), and that decides what comes of its line (`readLine_line`). A property can be
renamed without anything else changing exactly if its new name is taken for the same
(`parse_renamed_iff`).
-/

namespace CompanyRegister.Source

open Text

/-! ## Field lines with any name -/

/-- A column block with its property left open. -/
structure FieldBlock where
  above : List (List Char)
  indent : List Char
  type : List Char
  /-- The lines behind the field line, too short to say anything. -/
  shorts : List (List Char)
  above_line : ∀ l ∈ above, '\n' ∉ l
  indent_blank : ∀ c ∈ indent, isBlank c = true
  indent_line : '\n' ∉ indent
  type_chars : ∀ c ∈ type, FieldLine.isTypeChar c = true
  type_line : '\n' ∉ type
  shorts_short : ∀ s ∈ shorts, isShort s = true
  shorts_line : ∀ s ∈ shorts, '\n' ∉ s

/-- A fault or a column, the same but for the name of its property. -/
inductive SameButName (p q : List Char) :
    Except Fault ColumnBlock → Except Fault ColumnBlock → Prop
  | column {b : ColumnBlock} {above below : List (List Char)} {indent behind : List Char} :
      SameButName p q
        (.ok { b with property := p, lines := above ++ (indent ++ (p ++ behind)) :: below })
        (.ok { b with property := q, lines := above ++ (indent ++ (q ++ behind)) :: below })
  | fault {f : Fault} : SameButName p q (.error f) (.error f)
  | unsupportedType {typeName : List Char} :
      SameButName p q (.error (.unsupportedType p typeName)) (.error (.unsupportedType q typeName))
  | malformedLength {behind : List Char} :
      SameButName p q (.error (.malformedLength (p ++ behind)))
        (.error (.malformedLength (q ++ behind)))

/-- What the name of a property may be taken for. -/
inductive NameRole
  | plain
  | length
  | default
  deriving DecidableEq, Repr

namespace FieldBlock

variable (F : FieldBlock)

/-- The field line of a property. -/
def line (p : Identifier) : List Char := F.indent ++ (p.chars ++ ':' :: ' ' :: (F.type ++ [';']))

def text (p : Identifier) : List Char := unlines (F.above ++ F.line p :: F.shorts)

/-- The lines above that are read. -/
def readAbove : List (List Char) := F.above.dropWhile isAllBlank

/-- The field without its name. -/
def unnamed : FieldLine := ⟨[], false, ((' ' :: F.type).splitOn '|').map trim⟩

def columnType? : Option ColumnType := ColumnType.ofName? F.unnamed.typeName

/-- What stands in the type before and behind a default, if it holds one. -/
def defaultCut? : Option (List Char × List Char) :=
  if contains defaultFunction F.type then cut? defaultKey F.type else none

/-- What is looked through for a length behind the name. -/
def front : List Char :=
  match F.defaultCut? with
  | none => F.type ++ [';']
  | some (head, _) => head ++ ['\x7d', ')']

/-- What a name is taken for, with the type behind it. -/
def role (p : Identifier) : NameRole :=
  if F.defaultCut?.isSome ∧ "default".toList <:+ p.chars then .default
  else if F.columnType? = some .string ∧
    ("length".toList <:+ p.chars ∨ contains "length: ".toList F.front = true) then .length
  else .plain

/-- What comes of the field line when its name is taken for that. -/
def outcome (o : Options) (e : Entries) (p : Identifier) : NameRole → Except Fault Entries
  | .plain => .ok
    ⟨e.maxLength, F.defaultCut?.elim e.default fun cut => keptDefault o (cut.2 ++ [';'])⟩
  | .length => .error (.malformedLength (p.chars ++ ':' :: ' ' :: F.front))
  | .default => .ok ⟨e.maxLength, keptDefault o (F.type ++ [';'])⟩

end FieldBlock

/-! ## Lengths on field lines -/

/-- The value of a length entry ends its line, but for a comma and blanks. -/
theorem exists_of_lastEntryLength? {text v : List Char} (h : lastEntryLength? text = some v) :
    v ≠ [] ∧ ∃ before behind, text = before ++ (v ++ behind) ∧
      ∀ c ∈ behind, endsValue c = true := by
  have hblank : ∀ bs : List Char, isAllBlank bs = true → ∀ c ∈ bs, endsValue c = true := by
    intro bs hbs c hc
    rw [endsValue, List.all_eq_true.mp hbs c hc, Bool.or_true]
  rw [lastEntryLength?, Option.bind_eq_bind] at h
  obtain ⟨text₁, hkey, h₁⟩ := Option.bind_eq_some_iff.mp h
  obtain ⟨text₂, hcolon, h₂⟩ := Option.bind_eq_some_iff.mp h₁
  obtain ⟨⟨w, rest⟩, hvalue, hends⟩ := Option.bind_eq_some_iff.mp h₂
  obtain ⟨gap, gap', rfl, -, -⟩ := exists_of_afterColon?_eq_some hcolon
  obtain ⟨rfl, hne, -, -⟩ := exists_of_entryValue?_eq_some hvalue
  have hrest : w = v ∧ ∀ c ∈ rest, endsValue c = true := by
    simp only at hends
    split at hends
    · next htrim =>
      obtain ⟨bs, hbs, rfl⟩ := Spelling.exists_blanks htrim
      refine ⟨Option.some.inj hends, hblank _ ?_⟩
      rw [List.append_nil]
      exact List.all_eq_true.mpr hbs
    · next rest' htrim =>
      obtain ⟨bs, hbs, rfl⟩ := Spelling.exists_blanks htrim
      split at hends
      · next hrest' =>
        refine ⟨Option.some.inj hends, ?_⟩
        rw [List.forall_mem_append, List.forall_mem_cons]
        exact ⟨hblank bs (List.all_eq_true.mpr hbs), rfl, hblank rest' hrest'⟩
      · cases hends
    · cases hends
  obtain ⟨rfl, hbehind⟩ := hrest
  refine ⟨hne, "length".toList ++ (gap ++ ':' :: gap'), rest, ?_, hbehind⟩
  rw [after?_eq_some_iff.mp hkey]
  simp

/-- So it has the last character of its line, if that is no comma and no blank. -/
theorem mem_of_lineLength? {text v : List Char} {c : Char} (hc : endsValue c = false)
    (h : lineLength? (text ++ [c]) = some v) : c ∈ v := by
  have hlast : ∀ text, lastEntryLength? (text ++ [c]) = some v → c ∈ v := by
    intro text h
    obtain ⟨hne, before, behind, htext, hends⟩ := exists_of_lastEntryLength? h
    have hend := congrArg List.getLast? htext
    rw [List.getLast?_concat, List.getLast?_append_of_ne_nil _ (by simp [hne])] at hend
    cases behind with
    | nil =>
      rw [List.append_nil] at hend
      exact List.mem_of_getLast? hend.symm
    | cons d behind =>
      rw [List.getLast?_append_of_ne_nil _ (List.cons_ne_nil d behind)] at hend
      have hblank := hends c (List.mem_of_getLast? hend.symm)
      rw [hc] at hblank
      cases hblank
  -- The entry may begin at any character, so the induction is on what stands in front of it.
  induction text with
  | nil =>
    rw [List.nil_append, lineLength?] at h
    split at h
    · next hentry =>
      cases h
      exact hlast [] hentry
    · cases h
  | cons d text ih =>
    rw [List.cons_append, lineLength?] at h
    split at h
    · next hentry =>
      cases h
      exact hlast (d :: text) hentry
    · exact ih h

theorem word32?_eq_none {v : List Char} {c : Char} (hmem : c ∈ v) (hdigit : c.isDigit = false)
    (hplus : c ≠ '+') : word32? v = none := by
  have hnone {ds : List Char} (hds : c ∈ ds) :
      ¬ (ds ≠ [] ∧ ds.all Char.isDigit = true ∧ value ds < 4294967296) := by
    intro h
    rw [List.all_eq_true.mp h.2.1 c hds] at hdigit
    cases hdigit
  by_cases hsign : ∃ rest, v = '+' :: rest
  · obtain ⟨rest, rfl⟩ := hsign
    rw [word32?, if_neg (hnone ((List.mem_cons.mp hmem).resolve_left hplus))]
  · rw [word32?, if_neg (hnone hmem)]
    exact fun rest hrest => hsign ⟨rest, hrest⟩

/-- No length is read from a line that ends with another character than digits do. -/
theorem lengthOnLine_concat {c : Char} (hc : endsValue c = false) (hdigit : c.isDigit = false)
    (hplus : c ≠ '+') (text : List Char) :
    lengthOnLine (text ++ [c]) = .error (.malformedLength (text ++ [c])) := by
  have hnone : (lineLength? (text ++ [c])).bind word32? = none := by
    rw [Option.bind_eq_none_iff]
    exact fun v hv => word32?_eq_none (mem_of_lineLength? hc hv) hdigit hplus
  rw [lengthOnLine, hnone]

/-- No object is looked for on a line that begins with no decorator. -/
theorem readLength_of_head? (e : Entries) {line : List Char} (hhead : line.head? ≠ some '@') :
    e.readLength line =
      if contains "length: ".toList line then (lengthOnLine line).map some
      else .ok e.maxLength := by
  refine if_neg fun h => hhead ?_
  have hbegins := h.1
  rw [beginsColumn, Bool.or_eq_true, startsWith, startsWith, after?_isSome_iff,
    after?_isSome_iff] at hbegins
  rcases hbegins with ⟨rest, rfl⟩ | ⟨rest, rfl⟩ <;> rfl

namespace Identifier

variable (p : Identifier)

theorem first_ne_at : p.first ≠ '@' := by
  intro h
  have := p.isNameStart_first
  rw [h] at this
  exact absurd this (by decide)

theorem colon_not_mem : ':' ∉ p.chars := p.not_mem_chars (by decide)

/-- Behind a name stands a length, or the name with its colon is the key of one. -/
theorem contains_length_iff (front : List Char) :
    contains "length: ".toList (p.chars ++ ':' :: ' ' :: front) = true ↔
      "length".toList <:+ p.chars ∨ contains "length: ".toList front = true := by
  have hsplit : "length".toList ++ ':' :: [' '] <:+: p.chars ++ ':' :: ' ' :: front ↔
      "length".toList <:+ p.chars ∧ [' '] <+: ' ' :: front ∨
        "length".toList ++ ':' :: [' '] <:+: ' ' :: front :=
    infix_append_cons_iff (by decide) p.colon_not_mem
  have hbehind : contains "length: ".toList (' ' :: front) = contains "length: ".toList front :=
    contains_cons_of_ne (by decide) _ front
  have hblank : [' '] <+: ' ' :: front := ⟨front, rfl⟩
  rw [← hbehind, contains_iff_isInfix, contains_iff_isInfix]
  exact hsplit.trans (or_congr_left (and_iff_left hblank))

end Identifier

/-- What is read from a field line for a length, and put beside a default. -/
theorem ofLine_named (e : Entries) (type : ColumnType) (p : Identifier) (text : List Char)
    {c : Char} (hc : endsValue c = false) (hdigit : c.isDigit = false) (hplus : c ≠ '+')
    (default : Option (List Char)) :
    e.ofLine type (p.chars ++ ':' :: ' ' :: (text ++ [c])) default =
      if type = .string ∧ ("length".toList <:+ p.chars ∨
        contains "length: ".toList (text ++ [c]) = true) then
        .error (.malformedLength (p.chars ++ ':' :: ' ' :: (text ++ [c])))
      else .ok ⟨e.maxLength, default⟩ := by
  have hhead : (p.chars ++ ':' :: ' ' :: (text ++ [c])).head? ≠ some '@' := by
    intro h
    exact p.first_ne_at (Option.some.inj h)
  have herror : lengthOnLine (p.chars ++ ':' :: ' ' :: (text ++ [c])) =
      .error (.malformedLength (p.chars ++ ':' :: ' ' :: (text ++ [c]))) := by
    have hline := lengthOnLine_concat hc hdigit hplus (p.chars ++ ':' :: ' ' :: text)
    rwa [List.append_assoc] at hline
  rw [Entries.ofLine, readLength_of_head? e hhead, herror]
  simp only [← p.contains_length_iff]
  by_cases htype : type = .string
  · rw [if_pos htype]
    by_cases hlength : contains "length: ".toList (p.chars ++ ':' :: ' ' :: (text ++ [c])) = true
    · rw [if_pos hlength, if_pos ⟨htype, hlength⟩]
      rfl
    · rw [if_neg hlength, if_neg fun h => hlength h.2]
      rfl
  · rw [if_neg htype, if_neg fun h => htype h.1]

theorem ofLine_of_noColon (e : Entries) (type : ColumnType) {line : List Char}
    (hhead : line.head? ≠ some '@') (hcolon : ':' ∉ line) (default : Option (List Char)) :
    e.ofLine type line default = .ok ⟨e.maxLength, default⟩ := by
  have hlength : contains "length: ".toList line = false :=
    contains_eq_false_of_not_mem (by decide) hcolon
  rw [Entries.ofLine, readLength_of_head? e hhead, hlength]
  exact ite_self _

/-! ## Defaults on field lines -/

/-- A name that ends in the key of a default takes what stands behind the colon for its value. -/
theorem splitDefault_name {p : Identifier} {head : List Char}
    (hp : head ++ "default".toList = p.chars) (behind : List Char) :
    splitDefault (p.chars ++ ':' :: ' ' :: behind) =
      (if head = [] then [] else head ++ ['\x7d', ')'], strip wrapsDefault behind) := by
  have hblank : ' ' ∉ p.chars := p.not_mem_chars (by decide)
  have hkey : ¬ defaultKey <:+: head ++ defaultKey.dropLast := by
    intro h
    have hmem : ' ' ∈ head ++ defaultKey.dropLast := h.subset (by decide)
    rcases List.mem_append.mp hmem with hmem | hmem
    · exact hblank (hp ▸ List.mem_append_left _ hmem)
    · exact absurd hmem (by decide)
  have hline : p.chars ++ ':' :: ' ' :: behind = head ++ (defaultKey ++ behind) := by
    rw [← hp, List.append_assoc]
    rfl
  rw [splitDefault, hline, cut?_append behind hkey]

/-- With any other name the default is cut where the type has it. -/
theorem splitDefault_type {p : Identifier} (hp : ¬ "default".toList <:+ p.chars)
    {type head tail : List Char} (hcut : cut? defaultKey type = some (head, tail))
    (behind : List Char) :
    splitDefault (p.chars ++ ':' :: ' ' :: (type ++ behind)) =
      (p.chars ++ ':' :: ' ' :: (head ++ ['\x7d', ')']), strip wrapsDefault (tail ++ behind)) := by
  have hsplit : "default".toList ++ ':' :: [' '] <:+:
      p.chars ++ ':' :: ' ' :: (head ++ defaultKey.dropLast) ↔
      "default".toList <:+ p.chars ∧ [' '] <+: ' ' :: (head ++ defaultKey.dropLast) ∨
        "default".toList ++ ':' :: [' '] <:+: ' ' :: (head ++ defaultKey.dropLast) :=
    infix_append_cons_iff (by decide) p.colon_not_mem
  have hbehind : contains defaultKey (' ' :: (head ++ defaultKey.dropLast)) =
      contains defaultKey (head ++ defaultKey.dropLast) :=
    contains_cons_of_ne (by decide) _ _
  have hkey : ¬ defaultKey <:+: (p.chars ++ ':' :: ' ' :: head) ++ defaultKey.dropLast := by
    rw [List.append_assoc]
    intro h
    rcases hsplit.mp h with hsuffix | h
    · exact hp hsuffix.1
    · have hinfix : defaultKey <:+: head ++ defaultKey.dropLast := by
        rw [← contains_iff_isInfix, ← hbehind, contains_iff_isInfix]
        exact h
      exact not_infix_of_cut? (by decide) hcut hinfix
  have hline : p.chars ++ ':' :: ' ' :: (type ++ behind) =
      (p.chars ++ ':' :: ' ' :: head) ++ (defaultKey ++ (tail ++ behind)) := by
    rw [eq_of_cut? hcut]
    simp
  rw [splitDefault, hline, cut?_append _ hkey]
  simp

theorem head?_append_ne_at {p : Identifier} {head tail : List Char} (hp : head ++ tail = p.chars)
    (hne : head ≠ []) (rest : List Char) : (head ++ rest).head? ≠ some '@' := by
  cases head with
  | nil => exact absurd rfl hne
  | cons c head =>
    intro h
    exact p.first_ne_at ((List.cons.inj hp).1.symm.trans (Option.some.inj h))

theorem exists_cut?_of_defaultFunction {text : List Char}
    (h : contains defaultFunction text = true) :
    ∃ head tail, cut? defaultKey text = some (head, tail) := by
  have hkey : defaultKey <+: defaultFunction := ⟨['('], rfl⟩
  have hcontains : contains defaultKey text = true :=
    contains_iff_isInfix.mpr (hkey.isInfix.trans (contains_iff_isInfix.mp h))
  obtain ⟨⟨head, tail⟩, hcut⟩ := Option.isSome_iff_exists.mp hcontains
  exact ⟨head, tail, hcut⟩

namespace FieldBlock

variable (F : FieldBlock) (p : Identifier)

/-! ### Reading the field line -/

theorem trim_line : trim (F.line p) = p.chars ++ ':' :: ' ' :: (F.type ++ [';']) := by
  have hlast : ∀ c ∈ ((p.chars ++ ':' :: ' ' :: F.type) ++ [';']).getLast?, isBlank c = false :=
    isBlank_of_getLast?_concat (by decide)
  rw [List.append_assoc] at hlast
  have hhead : ∀ c ∈ (p.chars ++ ':' :: ' ' :: (F.type ++ [';'])).head?, isBlank c = false :=
    isBlank_of_head?_cons (isBlank_of_isNameStart p.isNameStart_first)
  rw [trim, strip, line, List.dropWhile_append_of_pos F.indent_blank]
  exact trim_eq_self hhead hlast

def spelling : Spelling where
  indent := F.indent
  first := p.first
  rest := p.rest
  marked := false
  gap := []
  type := ' ' :: F.type
  initial := none
  closing := some []
  indent_blank := F.indent_blank
  first_start := p.isNameStart_first
  rest_name := p.isNameRest_rest
  gap_blank := by simp
  type_ne_nil := List.cons_ne_nil _ _
  type_chars := List.forall_mem_cons.mpr ⟨by decide, F.type_chars⟩
  initial_chars := by simp
  closing_blank := by simp

theorem declaration_parse_line :
    Declaration.parse (F.line p) =
      match F.columnType? with
      | some type => .ok ⟨p.chars, type, F.unnamed.isOptional⟩
      | none => .error (.unsupportedType p.chars F.unnamed.typeName) := by
  have hfield : FieldLine.parse? (F.line p) = some { F.unnamed with property := p.chars } :=
    (F.spelling p).parse?_text
  rw [Declaration.parse, hfield, columnType?]
  rfl

/-- No column has a type in parentheses. -/
theorem head?_type {type : ColumnType} (h : F.columnType? = some type) :
    F.type.head? ≠ some '(' := by
  have htrim : ∀ (blanks text : List Char), (∀ c ∈ blanks, isBlank c = true) →
      trim (blanks ++ '(' :: text) = '(' :: dropEndWhile isBlank text := by
    intro blanks text hblanks
    rw [trim, strip, dropWhile_append_of_head? hblanks (isBlank_of_head?_cons (by decide))]
    exact dropEndWhile_append_cons (by decide) [] text
  intro hhead
  obtain ⟨rest, htype⟩ := List.head?_eq_some_iff.mp hhead
  obtain ⟨piece, pieces, hrest⟩ := List.exists_cons_of_ne_nil (List.splitOn_ne_nil '|' rest)
  have hpieces : (' ' :: F.type).splitOn '|' = ([' '] ++ '(' :: piece) :: pieces := by
    simp [htype, List.splitOn_cons_eq_if_modifyHead, hrest]
  have hmembers : F.unnamed.members =
      ('(' :: dropEndWhile isBlank piece) :: pieces.map trim := by
    rw [unnamed, hpieces, List.map_cons, htrim [' '] piece (by simp [isBlank])]
  have hname : F.unnamed.typeName = '(' :: dropEndWhile isBlank piece := by
    rw [FieldLine.typeName, hmembers]
    rfl
  have hagain : trim ('(' :: dropEndWhile isBlank piece) =
      '(' :: dropEndWhile isBlank (dropEndWhile isBlank piece) :=
    htrim [] _ (by simp)
  rw [columnType?, hname, ColumnType.ofName?, hagain] at h
  simp at h

theorem contains_defaultFunction_line {type : ColumnType} (h : F.columnType? = some type) :
    contains defaultFunction (p.chars ++ ':' :: ' ' :: (F.type ++ [';'])) =
      contains defaultFunction F.type := by
  have hsplit : "default".toList ++ ':' :: [' ', '('] <:+:
      p.chars ++ ':' :: ' ' :: (F.type ++ [';']) ↔
      "default".toList <:+ p.chars ∧ [' ', '('] <+: ' ' :: (F.type ++ [';']) ∨
        "default".toList ++ ':' :: [' ', '('] <:+: ' ' :: (F.type ++ [';']) :=
    infix_append_cons_iff (by decide) p.colon_not_mem
  have hblank : contains defaultFunction (' ' :: (F.type ++ [';'])) =
      contains defaultFunction (F.type ++ [';']) :=
    contains_cons_of_ne (by decide) _ _
  have hclose : contains defaultFunction (F.type ++ [';']) =
      (contains defaultFunction F.type || contains defaultFunction []) :=
    contains_append_cons (by decide) F.type []
  have hbehind : contains defaultFunction (' ' :: (F.type ++ [';'])) =
      contains defaultFunction F.type :=
    hblank.trans (hclose.trans (Bool.or_false _))
  have hopen : ¬ [' ', '('] <+: ' ' :: (F.type ++ [';']) := by
    have hhead := F.head?_type h
    cases htype : F.type with
    | nil => decide
    | cons c rest =>
      rw [htype] at hhead
      intro hprefix
      have hc := (List.cons_prefix_cons.mp (List.cons_prefix_cons.mp hprefix).2).1
      exact hhead (congrArg some hc.symm)
  rw [← hbehind, Bool.eq_iff_iff, contains_iff_isInfix, contains_iff_isInfix]
  exact hsplit.trans (or_iff_right fun h => hopen h.2)

section

variable {F p} {type : ColumnType} (h : F.columnType? = some type) (o : Options) (e : Entries)

include h

theorem role_of_not_default (hnot : ¬ (F.defaultCut?.isSome ∧ "default".toList <:+ p.chars)) :
    F.role p =
      if type = .string ∧
        ("length".toList <:+ p.chars ∨ contains "length: ".toList F.front = true) then .length
      else .plain := by
  rw [role, if_neg hnot, h]
  simp only [Option.some_inj]

/-- No default is cut off. -/
theorem readLine_of_noDefault (hdefault : contains defaultFunction F.type = false) :
    e.readLine o type (F.line p) = F.outcome o e p (F.role p) := by
  have hcut : F.defaultCut? = none := by
    rw [defaultCut?, hdefault]
    rfl
  have hfront : F.front = F.type ++ [';'] := by
    rw [front, hcut]
  rw [Entries.readLine_eq, trim_line, F.contains_defaultFunction_line p h, hdefault,
    if_neg Bool.false_ne_true, ofLine_named e type p F.type (by decide) (by decide) (by decide),
    role_of_not_default h (by simp [hcut]), ← hfront]
  split
  · rfl
  · rw [outcome, hcut]
    rfl

/-- The default is cut off behind the name, and in front of it no colon is left. -/
theorem readLine_of_nameDefault (hdefault : contains defaultFunction F.type = true)
    (hp : "default".toList <:+ p.chars) :
    e.readLine o type (F.line p) = F.outcome o e p (F.role p) := by
  obtain ⟨head, tail, hhead⟩ := exists_cut?_of_defaultFunction hdefault
  have hcut : F.defaultCut? = some (head, tail) := by
    rw [defaultCut?, hdefault]
    exact hhead
  have hrole : F.role p = .default := if_pos ⟨by rw [hcut, Option.isSome_some], hp⟩
  rw [Entries.readLine_eq, trim_line, F.contains_defaultFunction_line p h, hdefault, if_pos rfl]
  obtain ⟨start, hstart⟩ := hp
  have hcolon : ':' ∉ start := fun hmem =>
    p.colon_not_mem (hstart ▸ List.mem_append_left _ hmem)
  rw [hrole, splitDefault_name hstart, ofLine_of_noColon]
  · rfl
  · split
    · simp
    · next hne => exact head?_append_ne_at hstart hne _
  · split
    · exact List.not_mem_nil
    · exact List.not_mem_append hcolon (by decide)

/-- The default is cut off within the type. -/
theorem readLine_of_typeDefault (hdefault : contains defaultFunction F.type = true)
    (hp : ¬ "default".toList <:+ p.chars) :
    e.readLine o type (F.line p) = F.outcome o e p (F.role p) := by
  obtain ⟨head, tail, hhead⟩ := exists_cut?_of_defaultFunction hdefault
  have hcut : F.defaultCut? = some (head, tail) := by
    rw [defaultCut?, hdefault]
    exact hhead
  have hfront : F.front = head ++ ['\x7d'] ++ [')'] := by
    rw [front, hcut, List.append_assoc]
    rfl
  have hline : p.chars ++ ':' :: ' ' :: (head ++ ['\x7d', ')']) =
      p.chars ++ ':' :: ' ' :: (head ++ ['\x7d'] ++ [')']) := by
    simp
  rw [Entries.readLine_eq, trim_line, F.contains_defaultFunction_line p h, hdefault, if_pos rfl,
    splitDefault_type hp hhead, hline,
    ofLine_named e type p _ (by decide) (by decide) (by decide),
    role_of_not_default h (fun hnot => hp hnot.2), ← hfront]
  split
  · rfl
  · rw [outcome, hcut]
    rfl

theorem readLine_line : e.readLine o type (F.line p) = F.outcome o e p (F.role p) := by
  cases hdefault : contains defaultFunction F.type with
  | false => exact readLine_of_noDefault h o e hdefault
  | true =>
    by_cases hp : "default".toList <:+ p.chars
    · exact readLine_of_nameDefault h o e hdefault hp
    · exact readLine_of_typeDefault h o e hdefault hp

end

/-! ### Reading the block -/

/-- Whether the block is refused whatever its property is called: its type is none of a column, or a
line above is at fault. -/
def IsRefused : Prop :=
  ∀ type, F.columnType? = some type →
    ∃ f, Entries.readLines keepAll type {} F.readAbove = .error f

theorem dropWhile_lines_text :
    (lines (F.text p)).dropWhile isAllBlank = F.readAbove ++ F.line p :: F.shorts := by
  have hline : '\n' ∉ F.line p := by
    have hname : '\n' ∉ p.chars := p.not_mem_chars (by decide)
    simp [line, F.indent_line, hname, F.type_line]
  have hlines : ∀ l ∈ F.above ++ F.line p :: F.shorts, '\n' ∉ l :=
    List.forall_mem_append.mpr ⟨F.above_line, List.forall_mem_cons.mpr ⟨hline, F.shorts_line⟩⟩
  have hfirst : (F.line p :: F.shorts).dropWhile isAllBlank = F.line p :: F.shorts := by
    refine dropWhile_eq_self ?_
    rintro l ⟨⟩
    rw [Bool.eq_false_iff]
    intro hblank
    exact absurd (List.all_eq_true.mp hblank ':' (by simp [line])) (by decide)
  rw [text, lines_unlines (by simp) hlines, List.dropWhile_append, hfirst, readAbove]
  split
  · next hempty => rw [List.isEmpty_iff.mp hempty, List.nil_append]
  · rfl

theorem isShort_line : isShort (F.line p) = false := by
  have hcolon : ':' ∈ F.line p := by simp [line]
  have hsemicolon : ';' ∈ F.line p := by simp [line]
  exact isShort_eq_false hcolon hsemicolon (by decide) (by decide) (by decide)

/-- The column that the block is read as. -/
def column (type : ColumnType) (e : Entries) : ColumnBlock where
  lines := F.readAbove ++ F.line p :: F.shorts
  property := p.chars
  type := type
  optional := F.unnamed.isOptional
  maxLength := e.maxLength
  default := e.default.filter (· ≠ [])

variable {F} {o : Options} {type : ColumnType}

theorem parse_of_noType (h : F.columnType? = none) :
    ColumnBlock.parse o (F.text p) = .error (.unsupportedType p.chars F.unnamed.typeName) := by
  have hd := F.declaration_parse_line p
  rw [h] at hd
  rw [ColumnBlock.parse, F.dropWhile_lines_text p,
    dropShortTail_append (F.isShort_line p) F.shorts_short, List.getLast?_concat]
  simp only [hd]

theorem parse_of_type (h : F.columnType? = some type) :
    ColumnBlock.parse o (F.text p) =
      match Entries.readLines o type {} F.readAbove with
      | .error f => .error f
      | .ok e => (F.outcome o e p (F.role p)).map (F.column p type) := by
  have hd := F.declaration_parse_line p
  rw [h] at hd
  rw [ColumnBlock.parse, F.dropWhile_lines_text p,
    dropShortTail_append (F.isShort_line p) F.shorts_short, List.getLast?_concat]
  simp only [hd, readLines_append_eq]
  cases Entries.readLines o type {} F.readAbove with
  | error f => rfl
  | ok e =>
    simp only [Entries.readLines, readLine_line h]
    cases F.outcome o e p (F.role p) <;> rfl

theorem parse_of_error {f : Fault} (h : F.columnType? = some type)
    (hread : Entries.readLines o type {} F.readAbove = .error f) :
    ColumnBlock.parse o (F.text p) = .error f := by
  rw [parse_of_type p h, hread]

theorem parse_of_ok {e : Entries} (h : F.columnType? = some type)
    (hread : Entries.readLines o type {} F.readAbove = .ok e) :
    ColumnBlock.parse o (F.text p) = (F.outcome o e p (F.role p)).map (F.column p type) := by
  rw [parse_of_type p h, hread]

/-! ### Renaming the property -/

variable {p} {q : Identifier}

theorem sameButName_of_isRefused (h : F.IsRefused) :
    SameButName p.chars q.chars (ColumnBlock.parse o (F.text p))
      (ColumnBlock.parse o (F.text q)) := by
  cases htype : F.columnType? with
  | none =>
    rw [parse_of_noType p htype, parse_of_noType q htype]
    exact .unsupportedType
  | some type =>
    obtain ⟨f, hf⟩ := h type htype
    have hread : Entries.readLines o type {} F.readAbove = .error f := by
      have hkeep := Entries.readLines_keep o type {} F.readAbove
      rwa [hf] at hkeep
    rw [parse_of_error p htype hread, parse_of_error q htype hread]
    exact .fault

theorem sameButName_column (type : ColumnType) (e : Entries) :
    SameButName p.chars q.chars (.ok (F.column p type e)) (.ok (F.column q type e)) :=
  @SameButName.column p.chars q.chars (F.column p type e) F.readAbove F.shorts F.indent
    (':' :: ' ' :: (F.type ++ [';']))

theorem sameButName_of_role (h : F.role p = F.role q) :
    SameButName p.chars q.chars (ColumnBlock.parse o (F.text p))
      (ColumnBlock.parse o (F.text q)) := by
  cases htype : F.columnType? with
  | none =>
    rw [parse_of_noType p htype, parse_of_noType q htype]
    exact .unsupportedType
  | some type =>
    cases hread : Entries.readLines o type {} F.readAbove with
    | error f =>
      rw [parse_of_error p htype hread, parse_of_error q htype hread]
      exact .fault
    | ok e =>
      rw [parse_of_ok p htype hread, parse_of_ok q htype hread, h]
      cases F.role q with
      | plain => exact sameButName_column type _
      | length => exact .malformedLength
      | default => exact sameButName_column type _

/-- The default of a column that is read. -/
def readDefault : Except Fault ColumnBlock → Option (Option (List Char))
  | .ok b => some b.default
  | .error _ => none

theorem readDefault_of_sameButName {r r' : Except Fault ColumnBlock}
    (h : SameButName p.chars q.chars r r') : readDefault r = readDefault r' := by
  cases h <;> rfl

theorem exists_defaultCut? (h : F.role p = .default) :
    ∃ head tail, F.defaultCut? = some (head, tail) := by
  rw [role] at h
  split at h
  · next hdefault =>
    obtain ⟨⟨head, tail⟩, hcut⟩ := Option.isSome_iff_exists.mp hdefault.1
    exact ⟨head, tail, hcut⟩
  · split at h <;> cases h

/-- A default that is cut behind the name is longer than the one that is cut within the type. -/
theorem readDefault_outcome_ne {e : Entries} {head tail : List Char}
    (h : F.defaultCut? = some (head, tail)) :
    readDefault ((F.outcome keepAll e p .default).map (F.column p type)) ≠
      readDefault ((F.outcome keepAll e q .plain).map (F.column q type)) := by
  have hkept : ∀ v, (keptDefault keepAll (v ++ [';'])).filter (· ≠ []) =
      some (strip wrapsDefault (v ++ [';'])) := by
    intro v
    have hsemicolon : ';' ∈ strip wrapsDefault (v ++ [';']) :=
      mem_strip (by decide) (List.mem_append_right v (List.mem_singleton_self ';'))
    exact Option.filter_some_pos (by simpa using List.ne_nil_of_mem hsemicolon)
  -- Behind the name the whole type is the default, and in front of `tail` it has the key's letters,
  -- which are not stripped.
  have htype : (head ++ defaultKey) ++ (tail ++ [';']) = F.type ++ [';'] := by
    rw [defaultCut?] at h
    split at h
    · rw [eq_of_cut? h, List.append_assoc _ tail]
    · cases h
  have hkey : 'd' ∈ head ++ defaultKey := List.mem_append_right head (by decide)
  have hlonger : strip wrapsDefault (F.type ++ [';']) ≠ strip wrapsDefault (tail ++ [';']) := by
    rw [← htype]
    exact strip_ne_of_sublist (by decide) hkey (Or.inl (List.Sublist.refl _))
  intro heq
  simp only [outcome, h, Except.map, readDefault, column, Option.elim_some, hkept] at heq
  exact hlonger (Option.some.inj (Option.some.inj heq))

theorem role_eq_of_sameButName (h : ¬ F.IsRefused)
    (hsame : SameButName p.chars q.chars (ColumnBlock.parse keepAll (F.text p))
      (ColumnBlock.parse keepAll (F.text q))) : F.role p = F.role q := by
  simp only [IsRefused, not_forall, not_exists] at h
  obtain ⟨type, htype, hread⟩ := h
  obtain ⟨e, hread⟩ : ∃ e, Entries.readLines keepAll type {} F.readAbove = .ok e := by
    cases hlines : Entries.readLines keepAll type {} F.readAbove with
    | error f => exact absurd hlines (hread f)
    | ok e => exact ⟨e, rfl⟩
  rw [parse_of_ok p htype hread, parse_of_ok q htype hread] at hsame
  -- The default tells the roles apart: a length leaves no column at all, and a default that is cut
  -- behind the name is another one than is read with a plain name.
  have heq := readDefault_of_sameButName hsame
  cases hp : F.role p <;> cases hq : F.role q <;> rw [hp, hq] at heq
  case plain.default =>
    obtain ⟨head, tail, hcut⟩ := exists_defaultCut? hq
    exact absurd heq.symm (readDefault_outcome_ne hcut)
  case default.plain =>
    obtain ⟨head, tail, hcut⟩ := exists_defaultCut? hp
    exact absurd heq (readDefault_outcome_ne hcut)
  all_goals cases heq

/-- Renaming the property of a column changes nothing but its name exactly if the block is refused
anyway or both names are taken for the same. -/
theorem parse_renamed_iff (F : FieldBlock) (p q : Identifier) :
    (∀ o, SameButName p.chars q.chars (ColumnBlock.parse o (F.text p))
      (ColumnBlock.parse o (F.text q))) ↔ F.IsRefused ∨ F.role p = F.role q := by
  constructor
  · intro h
    by_cases hrefused : F.IsRefused
    · exact Or.inl hrefused
    · exact Or.inr (role_eq_of_sameButName hrefused (h keepAll))
  · rintro (h | h)
    · exact fun o => sameButName_of_isRefused h
    · exact fun o => sameButName_of_role h

/-- A string column with its property left open. -/
def varcharField : FieldBlock where
  above := ["  @Column(\"varchar\")".toList]
  indent := [' ', ' ']
  type := "string".toList
  shorts := []
  above_line := by decide
  indent_blank := List.all_eq_true.mp (by decide)
  indent_line := by decide
  type_chars := List.all_eq_true.mp (by decide)
  type_line := by decide
  shorts_short := by simp
  shorts_line := by simp

def label : Identifier := ⟨'l', "abel".toList, by decide, List.all_eq_true.mp (by decide)⟩

def maxlength : Identifier := ⟨'m', "axlength".toList, by decide, List.all_eq_true.mp (by decide)⟩

example : varcharField.role label = .plain ∧ varcharField.role maxlength = .length := by
  decide +kernel

/-- Under its new name the column cannot be read any more. -/
theorem label_not_renamed :
    ColumnBlock.parse .standard (varcharField.text label) =
        .ok (varcharField.column label .string {}) ∧
      ColumnBlock.parse .standard (varcharField.text maxlength) =
        .error (.malformedLength "maxlength: string;".toList) ∧
      ¬ SameButName label.chars maxlength.chars
        (ColumnBlock.parse .standard (varcharField.text label))
        (ColumnBlock.parse .standard (varcharField.text maxlength)) := by
  have hlabel : ColumnBlock.parse .standard (varcharField.text label) =
      .ok (varcharField.column label .string {}) := by decide +kernel
  have hmaxlength : ColumnBlock.parse .standard (varcharField.text maxlength) =
      .error (.malformedLength "maxlength: string;".toList) := by decide +kernel
  refine ⟨hlabel, hmaxlength, fun h => ?_⟩
  rw [hlabel, hmaxlength] at h
  cases readDefault_of_sameButName h

end FieldBlock

end CompanyRegister.Source
