import CompanyRegister.Proofs.Source.Rendering
import CompanyRegister.Proofs.Source.Spelling

/-!
# Import statements

The imports of a source are statements (`ImportStatement`), each on one line or with one name a
line:

    `import { Column, Entity } from "typeorm";`

    `import {`
    `  Column,`
    `  Index as SortedBy,`
    `} from "typeorm";`

What is dropped from an import block is dropped line by line, so what becomes of a statement depends
on how it is laid out. The way there is

    statements ──lines──▶ lines ──text──▶ text

where lines are told by their texts (`ImportLine.text_injective`), so a filtered block is one of
statements again exactly if its lines are. That holds, and nothing is imported any more that is to
be dropped, exactly if every statement suits the filter (`filterImports_clean_iff`): a dropped name
stands alone on its line, and a neighbouring file is imported on one line.
-/

namespace CompanyRegister.Source

open Text

/-! ## Statements -/

/-- An imported name, and the name it goes by here if that is another. -/
structure ImportedName where
  name : Identifier
  alias? : Option Identifier

/-- The module that names are imported from, as it stands between the quotes. -/
structure Origin where
  chars : List Char
  noQuote : '"' ∉ chars
  oneLine : '\n' ∉ chars

/-- An imported name behind the indent of its line. -/
structure NameLine where
  indent : List Char
  imported : ImportedName
  indent_blank : ∀ c ∈ indent, (c == ' ' || c == '\t') = true

inductive ImportStatement
  | oneLine (names : List ImportedName) (origin : Origin)
  | namePerLine (names : List NameLine) (lastComma : Bool) (origin : Origin)

namespace ImportedName

/-- What stands behind the name. -/
def asAlias (n : ImportedName) : List Char :=
  n.alias?.elim [] fun a => ' ' :: 'a' :: 's' :: ' ' :: a.chars

def text (n : ImportedName) : List Char := n.name.chars ++ n.asAlias

/-- Whether it is a name that an annotated source does not import. -/
def isDropped (n : ImportedName) : Bool := droppedNames.contains n.name.chars

/-- Whether it is written as such a name and no more. -/
def isBare (n : ImportedName) : Bool := n.isDropped && n.alias?.isNone

end ImportedName

/-- Whether a line with the module on it is dropped. -/
def Origin.isDropped (m : Origin) : Bool := contains "./".toList m.chars

/-- Whether a module is told by its place next to the file: its path begins with `.` or `..`. -/
def Origin.isRelative (m : Origin) : Bool :=
  let first := m.chars.takeWhile (· != '/')
  first == ['.'] || first == ['.', '.']

/-- The lines that import statements are made of. -/
inductive ImportLine
  | whole (names : List ImportedName) (origin : Origin)
  | opened
  | name (n : NameLine) (comma : Bool)
  | closed (origin : Origin)

namespace ImportLine

def openingText : List Char := ['i', 'm', 'p', 'o', 'r', 't', ' ', '\x7b']

def closingText (m : Origin) : List Char :=
  '\x7d' :: ' ' :: 'f' :: 'r' :: 'o' :: 'm' :: ' ' :: '"' :: (m.chars ++ ['"', ';'])

def joined (names : List ImportedName) : List Char :=
  [',', ' '].intercalate (names.map ImportedName.text)

def text : ImportLine → List Char
  | whole names m => openingText ++ (' ' :: joined names ++ ' ' :: closingText m)
  | opened => openingText
  | name n comma => n.indent ++ (n.imported.text ++ if comma then [','] else [])
  | closed m => closingText m

end ImportLine

namespace ImportLine

def isOpened : ImportLine → Bool
  | opened => true
  | _ => false

def isClosed : ImportLine → Bool
  | closed _ => true
  | _ => false

/-- Whether nothing on the line imports a neighbouring file or a dropped name. -/
def IsClean : ImportLine → Prop
  | whole names m => m.isRelative = false ∧ ∀ n ∈ names, n.isDropped = false
  | opened => True
  | name n _ => n.imported.isDropped = false
  | closed m => m.isRelative = false

end ImportLine

/-- Names with a comma behind each but perhaps the last. -/
def nameLines (lastComma : Bool) : List NameLine → List ImportLine
  | [] => []
  | n :: ns => .name n (lastComma || !ns.isEmpty) :: nameLines lastComma ns

namespace ImportStatement

def lines : ImportStatement → List ImportLine
  | oneLine names m => [.whole names m]
  | namePerLine names lastComma m => .opened :: (nameLines lastComma names ++ [.closed m])

def names : ImportStatement → List ImportedName
  | oneLine names _ => names
  | namePerLine names _ _ => names.map NameLine.imported

def origin : ImportStatement → Origin
  | oneLine _ m => m
  | namePerLine _ _ m => m

/-- The text of an import block. -/
def block (ss : List ImportStatement) : List Char :=
  unlines ((ss.flatMap lines).map ImportLine.text)

/-- A statement that an annotated source may have: it imports no neighbouring file and no dropped
name. -/
structure Clean (s : ImportStatement) : Prop where
  origin : s.origin.isRelative = false
  names : ∀ n ∈ s.names, n.isDropped = false

/-- A statement that the filter is made for: on one line if it imports a neighbouring file, and with
one name a line if it imports a dropped name. -/
def Suits : ImportStatement → Prop
  | oneLine names m => m.isDropped = true ∨ m.isRelative = false ∧
      ∀ n ∈ names, n.isDropped = false
  | namePerLine names _ m => m.isDropped = false ∧ m.isRelative = false ∧
      ∀ n ∈ names, n.imported.isDropped = true → n.imported.alias? = none

instance : DecidablePred Suits
  | oneLine names m => inferInstanceAs (Decidable (m.isDropped = true ∨ m.isRelative = false ∧
      ∀ n ∈ names, n.isDropped = false))
  | namePerLine names _ m => inferInstanceAs (Decidable (m.isDropped = false ∧
      m.isRelative = false ∧ ∀ n ∈ names, n.imported.isDropped = true → n.imported.alias? = none))

/-- What the filter leaves of a statement that it is made for. -/
def kept : ImportStatement → Option ImportStatement
  | oneLine names m => if m.isDropped then none else some (oneLine names m)
  | namePerLine names lastComma m =>
    some (namePerLine (names.filter fun n => !n.imported.isBare)
      (lastComma || names.getLast?.any fun n => n.imported.isBare) m)

end ImportStatement

/-! ## Lines and their texts -/

theorem Identifier.chars_injective : Function.Injective Identifier.chars := by
  rintro ⟨first, rest, _, _⟩ ⟨first', rest', _, _⟩ h
  obtain ⟨rfl, rfl⟩ := List.cons.inj h
  rfl

theorem Origin.chars_injective : Function.Injective Origin.chars := by
  rintro ⟨chars, _, _⟩ ⟨chars', _, _⟩ rfl
  rfl

namespace ImportedName

/-- Blanks and commas end a name. -/
theorem isNameRest_of_head?_asAlias (n : ImportedName) {tail : List Char}
    (htail : ∀ c ∈ tail.head?, isNameRest c = false) :
    ∀ c ∈ (n.asAlias ++ tail).head?, isNameRest c = false := by
  rw [asAlias]
  cases n.alias? with
  | none => exact htail
  | some a =>
    rintro c ⟨⟩
    decide

theorem takeWhile_text (n : ImportedName) (tail : List Char)
    (htail : ∀ c ∈ tail.head?, isNameRest c = false) :
    (n.text ++ tail).takeWhile isNameRest = n.name.chars := by
  rw [text, List.append_assoc]
  exact takeWhile_append_of_head? n.name.isNameRest_of_mem_chars
    (n.isNameRest_of_head?_asAlias htail)

theorem asAlias_injective {alias? alias?' : Option Identifier} {name name' : Identifier}
    (h : asAlias ⟨name, alias?⟩ = asAlias ⟨name', alias?'⟩) : alias? = alias?' := by
  cases alias? <;> cases alias?'
  · rfl
  · cases h
  · cases h
  · simp only [asAlias, Option.elim_some, List.cons.injEq, true_and] at h
    rw [Identifier.chars_injective h]

theorem text_injective : Function.Injective text := by
  intro n n' h
  have hname : n.name.chars = n'.name.chars := by
    rw [← n.takeWhile_text [] (by simp), h, n'.takeWhile_text [] (by simp)]
  have halias : n.asAlias = n'.asAlias := by
    rw [text, text, hname] at h
    exact List.append_cancel_left h
  cases n
  cases n'
  obtain rfl := Identifier.chars_injective hname
  rw [asAlias_injective halias]

theorem not_mem_text (n : ImportedName) {c : Char} (hc : isNameRest c = false) (hblank : c ≠ ' ') :
    c ∉ n.text := by
  have has : c ∉ n.asAlias := by
    rw [asAlias]
    cases n.alias? with
    | none => exact List.not_mem_nil
    | some a =>
      have hkey : c ∉ ['a', 's'] :=
        not_mem_of_forall (p := isNameRest) (List.all_eq_true.mp (by decide)) hc
      simp only [List.mem_cons, List.not_mem_nil, or_false, not_or] at hkey
      simp [hblank, hkey, a.not_mem_chars hc]
  rw [text, List.mem_append, not_or]
  exact ⟨n.name.not_mem_chars hc, has⟩

theorem isNameRest_of_getLast? (n : ImportedName) :
    ∀ c ∈ n.text.getLast?, isNameRest c = true := by
  intro c hc
  rw [text, asAlias] at hc
  cases halias : n.alias? with
  | none =>
    rw [halias, Option.elim_none, List.append_nil] at hc
    exact n.name.isNameRest_of_mem_chars c (List.mem_of_getLast? hc)
  | some a =>
    rw [halias, Option.elim_some, List.getLast?_append_of_ne_nil _ (by simp)] at hc
    have hchars : a.chars.getLast? = some c := by
      simpa [List.getLast?_cons, Identifier.chars] using hc
    exact a.isNameRest_of_mem_chars c (List.mem_of_getLast? hchars)

theorem text_ne_nil (n : ImportedName) : n.text ≠ [] := List.cons_ne_nil _ _

end ImportedName

namespace ImportLine

theorem joined_injective : Function.Injective joined := by
  intro names names' h
  have hpieces : ∀ names : List ImportedName, ∀ p ∈ names.map ImportedName.text,
      p ≠ [] ∧ ',' ∉ p := by
    intro names p hp
    obtain ⟨n, -, rfl⟩ := List.mem_map.mp hp
    exact ⟨n.text_ne_nil, n.not_mem_text (by decide) (by decide)⟩
  exact List.map_injective_iff.mpr ImportedName.text_injective
    (eq_of_intercalate_eq (hpieces names) (hpieces names') h)

theorem not_mem_joined (names : List ImportedName) {c : Char} (hc : isNameRest c = false)
    (hsep : c ∉ [',', ' ']) : c ∉ joined names := by
  intro h
  rcases mem_intercalate h with h | ⟨p, hp, h⟩
  · exact hsep h
  · obtain ⟨n, -, rfl⟩ := List.mem_map.mp hp
    exact n.not_mem_text hc (fun heq => hsep (by simp [heq])) h

theorem closingText_injective : Function.Injective closingText := by
  intro m m' h
  simp only [closingText, List.cons.injEq, true_and] at h
  exact Origin.chars_injective (List.append_cancel_right h)

theorem not_mem_text_name {n : NameLine} {comma : Bool} {c : Char} (hc : isNameRest c = false)
    (hsep : c ∉ [',', ' ', '\t']) : c ∉ (name n comma).text := by
  simp only [List.mem_cons, List.not_mem_nil, or_false, not_or] at hsep
  have hindent : c ∉ n.indent :=
    not_mem_of_forall n.indent_blank (by simp [hsep])
  have hcomma : c ∉ if comma then [','] else [] := by
    cases comma <;> simp [hsep]
  simp only [text, List.mem_append, not_or]
  exact ⟨hindent, n.imported.not_mem_text hc hsep.2.1, hcomma⟩

theorem takeWhile_text_name (n : NameLine) (comma : Bool) :
    (name n comma).text.takeWhile (fun c => c == ' ' || c == '\t') = n.indent := by
  refine takeWhile_append_of_head? n.indent_blank ?_
  rintro c ⟨⟩
  have hblank := isBlank_of_isNameStart n.imported.name.isNameStart_first
  rw [Bool.or_eq_false_iff, beq_eq_false_iff_ne, beq_eq_false_iff_ne]
  constructor <;> (intro heq; rw [heq] at hblank; exact absurd hblank (by decide))

theorem text_name_injective {n n' : NameLine} {comma comma' : Bool}
    (h : (name n comma).text = (name n' comma').text) : n = n' ∧ comma = comma' := by
  have hindent : n.indent = n'.indent := by
    rw [← takeWhile_text_name n comma, h, takeWhile_text_name]
  have hnocomma : ∀ n : ImportedName, ',' ∉ n.text := fun n =>
    n.not_mem_text (by decide) (by decide)
  obtain ⟨indent, imported, _⟩ := n
  obtain ⟨indent', imported', _⟩ := n'
  obtain rfl : indent = indent' := hindent
  have hrest : imported.text ++ (if comma then [','] else []) =
      imported'.text ++ (if comma' then [','] else []) := List.append_cancel_left h
  cases comma <;> cases comma'
  · rw [ImportedName.text_injective (List.append_cancel_right hrest)]
    exact ⟨rfl, rfl⟩
  · have htext : imported.text = imported'.text ++ [','] := by simpa using hrest
    exact absurd (htext ▸ by simp) (hnocomma imported)
  · have htext : imported'.text = imported.text ++ [','] := by simpa using hrest.symm
    exact absurd (htext ▸ by simp) (hnocomma imported')
  · rw [ImportedName.text_injective (List.append_cancel_right hrest)]
    exact ⟨rfl, rfl⟩

theorem text_whole_injective {names names' : List ImportedName} {m m' : Origin}
    (h : (whole names m).text = (whole names' m').text) : names = names' ∧ m = m' := by
  have hnobrace : ∀ names, '\x7d' ∉ joined names ++ [' '] := fun names =>
    List.not_mem_append (not_mem_joined names (by decide) (by decide)) (by decide)
  have htext : ∀ names m, (whole names m).text =
      openingText ++ ' ' :: ((joined names ++ [' ']) ++ closingText m) := by
    intro names m
    simp [text]
  rw [htext, htext] at h
  have hrest := (List.cons.inj (List.append_cancel_left h)).2
  obtain ⟨hjoined, hclosing⟩ := eq_of_append_cons_eq (hnobrace names) (hnobrace names') hrest
  exact ⟨joined_injective (List.append_cancel_right hjoined),
    closingText_injective (congrArg ('\x7d' :: ·) hclosing)⟩

/-- A line is told by its text. -/
theorem text_injective : Function.Injective text := by
  have hopen : ∀ (n : NameLine) (comma : Bool), '\x7b' ∉ (name n comma).text := fun n comma =>
    not_mem_text_name (by decide) (by decide)
  have hclose : ∀ (n : NameLine) (comma : Bool), '\x7d' ∉ (name n comma).text := fun n comma =>
    not_mem_text_name (by decide) (by decide)
  intro x y h
  -- Lines of one kind are told by what stands on them, lines of two kinds by their first letters or
  -- by a brace, which no name has.
  cases x <;> cases y
  case whole.whole names m names' m' =>
    obtain ⟨rfl, rfl⟩ := text_whole_injective h
    rfl
  case opened.opened => rfl
  case name.name n comma n' comma' =>
    obtain ⟨rfl, rfl⟩ := text_name_injective h
    rfl
  case closed.closed m m' => rw [closingText_injective h]
  case whole.opened => cases h
  case opened.whole => cases h
  case whole.closed => cases h
  case closed.whole => cases h
  case opened.closed => cases h
  case closed.opened => cases h
  case whole.name n comma => exact absurd (h ▸ by simp [text, openingText]) (hopen n comma)
  case name.whole n comma _ _ => exact absurd (h ▸ by simp [text, openingText]) (hopen n comma)
  case opened.name n comma => exact absurd (h ▸ by simp [text, openingText]) (hopen n comma)
  case name.opened n comma => exact absurd (h ▸ by simp [text, openingText]) (hopen n comma)
  case closed.name n comma => exact absurd (h ▸ by simp [text, closingText]) (hclose n comma)
  case name.closed n comma _ => exact absurd (h ▸ by simp [text, closingText]) (hclose n comma)

/-! ## Lines that stay -/

/-- Whether a line stays. -/
def keeps : ImportLine → Bool
  | whole _ m => !m.isDropped
  | opened => true
  | name n _ => !n.imported.isBare
  | closed m => !m.isDropped

/-- A text in front of the quotes has no part in the path. -/
theorem contains_quoted (before : List Char) (hbefore : '.' ∉ before) (m : Origin) :
    contains "./".toList (before ++ '"' :: (m.chars ++ ['"', ';'])) = m.isDropped := by
  have hquote : '"' ∉ "./".toList := by decide
  have hclose : contains "./".toList [';'] = false := by decide
  rw [contains_append_cons hquote, contains_append_cons hquote,
    contains_eq_false_of_not_mem (by decide) hbefore, hclose, Bool.false_or, Bool.or_false,
    Origin.isDropped]

theorem contains_closingText (m : Origin) :
    contains "./".toList (closingText m) = m.isDropped :=
  contains_quoted ['\x7d', ' ', 'f', 'r', 'o', 'm', ' '] (by decide) m

theorem contains_whole (names : List ImportedName) (m : Origin) :
    contains "./".toList (whole names m).text = m.isDropped := by
  have htext : (whole names m).text = (openingText ++ (' ' :: joined names ++
      [' ', '\x7d', ' ', 'f', 'r', 'o', 'm', ' '])) ++ '"' :: (m.chars ++ ['"', ';']) := by
    simp [text, closingText]
  have hjoined : '.' ∉ joined names := not_mem_joined names (by decide) (by decide)
  rw [htext, contains_quoted _ (List.not_mem_append (by decide) ?_)]
  simp [hjoined]

theorem contains_dropped_of_mem {line : List Char} {c : Char} (hc : c ∈ line)
    (hstrip : (c == ' ' || c == ',' || c == '\t') = false) (hdropped : ∀ d ∈ droppedNames, c ∉ d) :
    droppedNames.contains (importedName line) = false := by
  rw [Bool.eq_false_iff, ne_eq, List.contains_iff_mem]
  exact fun hmem => hdropped _ hmem (mem_strip hstrip hc)

theorem importedName_text (n : NameLine) (comma : Bool) :
    importedName (name n comma).text = n.imported.text := by
  have hnone : ∀ c, isNameRest c = true → (c == ' ' || c == ',' || c == '\t') = false := by
    intro c hc
    simp only [Bool.or_eq_false_iff, beq_eq_false_iff_ne]
    refine ⟨⟨?_, ?_⟩, ?_⟩ <;> (rintro rfl; exact absurd hc (by decide))
  have hindent : ∀ c ∈ n.indent, (c == ' ' || c == ',' || c == '\t') = true := by
    intro c hc
    have hblank := n.indent_blank c hc
    simp only [Bool.or_eq_true] at hblank ⊢
    exact hblank.imp_left Or.inl
  have hcomma : ∀ c ∈ if comma then [','] else [], (c == ' ' || c == ',' || c == '\t') = true := by
    cases comma <;> simp
  refine strip_append hindent hcomma (fun c hc => hnone c ?_) (fun c hc => hnone c ?_)
  · obtain rfl : n.imported.name.first = c := Option.some.inj hc
    exact isNameRest_of_isNameStart n.imported.name.isNameStart_first
  · exact n.imported.isNameRest_of_getLast? c hc

theorem contains_dropped_text (n : ImportedName) : droppedNames.contains n.text = n.isBare := by
  obtain ⟨name, alias?⟩ := n
  cases alias? with
  | none =>
    have htext : ImportedName.text ⟨name, none⟩ = name.chars := List.append_nil _
    rw [htext, ImportedName.isBare, ImportedName.isDropped, Option.isNone_none, Bool.and_true]
  | some a =>
    have hblank : ∀ d ∈ droppedNames, ' ' ∉ d := by decide
    have hmem : ' ' ∈ ImportedName.text ⟨name, some a⟩ :=
      List.mem_append_right _ List.mem_cons_self
    rw [ImportedName.isBare, Option.isNone_some, Bool.and_false, Bool.eq_false_iff, ne_eq,
      List.contains_iff_mem]
    exact fun hdropped => hblank _ hdropped hmem

/-- A line stays for what it says. -/
theorem keepsImport_text (x : ImportLine) : keepsImport x.text = x.keeps := by
  have hopen : ∀ d ∈ droppedNames, '\x7b' ∉ d := by decide
  have hclose : ∀ d ∈ droppedNames, '\x7d' ∉ d := by decide
  rw [keepsImport]
  cases x with
  | whole names m =>
    rw [contains_whole, contains_dropped_of_mem (c := '\x7b') (by simp [text, openingText])
      (by decide) hopen]
    exact Bool.and_true _
  | opened => decide
  | name n comma =>
    have hpath : contains "./".toList (name n comma).text = false :=
      contains_eq_false_of_not_mem (c := '.') (by decide)
        (not_mem_text_name (by decide) (by decide))
    rw [hpath, importedName_text, contains_dropped_text]
    rfl
  | closed m =>
    rw [text, contains_closingText,
      contains_dropped_of_mem (c := '\x7d') (by simp [closingText]) (by decide) hclose]
    exact Bool.and_true _

theorem not_mem_text (x : ImportLine) : '\n' ∉ x.text := by
  have hclosing : ∀ m, '\n' ∉ closingText m := by
    intro m
    simp [closingText, m.oneLine]
  cases x with
  | whole names m =>
    have hjoined : '\n' ∉ joined names := not_mem_joined names (by decide) (by decide)
    simp [text, openingText, hjoined, hclosing m]
  | opened => decide
  | name n comma => exact not_mem_text_name (by decide) (by decide)
  | closed m => exact hclosing m

theorem text_ne_nil (x : ImportLine) : x.text ≠ [] := by
  cases x with
  | name n comma => exact List.append_ne_nil_of_right_ne_nil _ (List.cons_ne_nil _ _)
  | _ => exact List.cons_ne_nil _ _

/-- Lines are told by the text that they are put together to. -/
theorem unlines_text_injective {xs ys : List ImportLine}
    (h : unlines (xs.map text) = unlines (ys.map text)) : xs = ys := by
  have hlines : ∀ xs : List ImportLine, ∀ l ∈ xs.map text, l ≠ [] ∧ '\n' ∉ l := by
    intro xs l hl
    obtain ⟨x, -, rfl⟩ := List.mem_map.mp hl
    exact ⟨x.text_ne_nil, x.not_mem_text⟩
  exact List.map_injective_iff.mpr text_injective (eq_of_intercalate_eq (hlines xs) (hlines ys) h)

theorem filterImports_text (xs : List ImportLine) :
    filterImports (unlines (xs.map text)) = unlines ((xs.filter keeps).map text) := by
  have hkeeps : (xs.map text).filter keepsImport = (xs.filter keeps).map text := by
    rw [List.filter_map]
    exact congrArg _ (List.filter_congr fun x _ => keepsImport_text x)
  cases xs with
  | nil => decide
  | cons x xs =>
    rw [filterImports, lines_unlines (by simp) ?_, hkeeps]
    intro l hl
    obtain ⟨x, -, rfl⟩ := List.mem_map.mp hl
    exact x.not_mem_text

end ImportLine

/-! ## Lines of statements -/

section NameLines

variable {lastComma : Bool} {ns : List NameLine}

theorem nameLines_cons (lastComma : Bool) (n : NameLine) (ns : List NameLine) :
    nameLines lastComma (n :: ns) =
      .name n (lastComma || !ns.isEmpty) :: nameLines lastComma ns := rfl

theorem exists_of_mem_nameLines {x : ImportLine} (h : x ∈ nameLines lastComma ns) :
    ∃ n ∈ ns, ∃ comma, x = .name n comma := by
  induction ns with
  | nil => cases h
  | cons n ns ih =>
    rcases List.mem_cons.mp h with rfl | h
    · exact ⟨n, List.mem_cons_self, _, rfl⟩
    · obtain ⟨n', hn', comma, rfl⟩ := ih h
      exact ⟨n', List.mem_cons_of_mem n hn', comma, rfl⟩

theorem exists_mem_nameLines {n : NameLine} (h : n ∈ ns) :
    ∃ comma, .name n comma ∈ nameLines lastComma ns := by
  induction ns with
  | nil => cases h
  | cons n' ns ih =>
    rcases List.mem_cons.mp h with rfl | h
    · exact ⟨_, List.mem_cons_self⟩
    · obtain ⟨comma, hmem⟩ := ih h
      exact ⟨comma, List.mem_cons_of_mem _ hmem⟩

theorem isBare_getLast?_or_stays (hne : ns ≠ []) :
    (ns.getLast?.any fun n => n.imported.isBare) = true ∨
      (ns.filter fun n => !n.imported.isBare) ≠ [] := by
  have hlast := List.getLast?_eq_some_getLast hne
  cases hbare : (ns.getLast hne).imported.isBare with
  | true => exact Or.inl (by rw [hlast, Option.any_some, hbare])
  | false =>
    refine Or.inr (List.ne_nil_of_mem (List.mem_filter.mpr ⟨List.getLast_mem hne, ?_⟩))
    rw [hbare, Bool.not_false]

/-- Without the bare names, the last one that stays has a comma behind it if it had one before: when
it was not the last, or when the last had one. -/
theorem filter_nameLines (lastComma : Bool) (ns : List NameLine) :
    (nameLines lastComma ns).filter ImportLine.keeps =
      nameLines (lastComma || ns.getLast?.any fun n => n.imported.isBare)
        (ns.filter fun n => !n.imported.isBare) := by
  induction ns with
  | nil => rfl
  | cons n ns ih =>
    cases ns with
    | nil => cases hbare : n.imported.isBare <;> simp [nameLines, ImportLine.keeps, hbare]
    | cons n' ns =>
      rw [List.getLast?_cons_cons, nameLines_cons]
      cases hbare : n.imported.isBare with
      | true =>
        rw [List.filter_cons_of_neg (a := n) (by simp [hbare])]
        rw [List.filter_cons_of_neg (by simp [ImportLine.keeps, hbare]), ih]
      | false =>
        -- `n` had a comma and keeps it: what followed it stays, or else the last name goes.
        have hcomma : ((lastComma || (n' :: ns).getLast?.any fun n => n.imported.isBare) ||
            !((n' :: ns).filter fun n => !n.imported.isBare).isEmpty) = true := by
          rcases isBare_getLast?_or_stays (List.cons_ne_nil n' ns) with hlast | hstays
          · rw [hlast, Bool.or_true, Bool.true_or]
          · rw [List.isEmpty_eq_false_iff.mpr hstays, Bool.not_false, Bool.or_true]
        rw [List.filter_cons_of_pos (a := n) (by simp [hbare]), nameLines_cons _ n, hcomma]
        rw [List.filter_cons_of_pos (by simp [ImportLine.keeps, hbare]), ih, List.isEmpty_cons,
          Bool.not_false, Bool.or_true]

end NameLines

namespace ImportStatement

/-- As many lines open a statement as close one. -/
theorem countP_lines (ss : List ImportStatement) :
    (ss.flatMap lines).countP ImportLine.isOpened =
      (ss.flatMap lines).countP ImportLine.isClosed := by
  have hnames : ∀ (p : ImportLine → Bool) (lastComma : Bool) (ns : List NameLine),
      (∀ n comma, p (.name n comma) = false) → (nameLines lastComma ns).countP p = 0 := by
    intro p lastComma ns hp
    rw [List.countP_eq_zero]
    intro x hx
    obtain ⟨n, -, comma, rfl⟩ := exists_of_mem_nameLines hx
    simp [hp]
  have hstatement : ∀ s : ImportStatement,
      s.lines.countP ImportLine.isOpened = s.lines.countP ImportLine.isClosed := by
    intro s
    cases s with
    | oneLine names m => rfl
    | namePerLine names lastComma m =>
      simp only [lines, List.countP_cons, List.countP_append, List.countP_nil,
        hnames ImportLine.isOpened lastComma names fun _ _ => rfl,
        hnames ImportLine.isClosed lastComma names fun _ _ => rfl]
      rfl
  rw [List.countP_flatMap, List.countP_flatMap]
  exact congrArg List.sum (List.map_congr_left fun s _ => hstatement s)

theorem isClean_of_mem_lines {s : ImportStatement} (h : s.Clean) {x : ImportLine}
    (hx : x ∈ s.lines) : x.IsClean := by
  cases s with
  | oneLine names m =>
    rw [lines, List.mem_singleton] at hx
    subst hx
    exact ⟨h.origin, h.names⟩
  | namePerLine names lastComma m =>
    rw [lines, List.mem_cons, List.mem_append, List.mem_singleton] at hx
    rcases hx with rfl | hx | rfl
    · trivial
    · obtain ⟨n, hn, comma, rfl⟩ := exists_of_mem_nameLines hx
      exact h.names n.imported (List.mem_map_of_mem hn)
    · exact h.origin

/-! ### Statements that the filter is made for -/

theorem filter_lines {s : ImportStatement} (h : s.Suits) :
    s.lines.filter ImportLine.keeps = s.kept.toList.flatMap lines := by
  cases s with
  | oneLine names m =>
    rw [lines, kept]
    cases hpath : m.isDropped <;> simp [ImportLine.keeps, hpath, lines]
  | namePerLine names lastComma m =>
    have hopened : ImportLine.keeps .opened = true := rfl
    have hclosed : ImportLine.keeps (.closed m) = true := congrArg not h.1
    rw [lines, kept, List.filter_cons_of_pos hopened, List.filter_append, filter_nameLines,
      List.filter_singleton, hclosed]
    simp [lines]

theorem clean_of_kept {s t : ImportStatement} (h : s.Suits) (hkept : s.kept = some t) :
    t.Clean := by
  cases s with
  | oneLine names m =>
    rw [kept] at hkept
    split at hkept
    · cases hkept
    · next hpath =>
      cases hkept
      obtain ⟨horigin, hnames⟩ := h.resolve_left hpath
      exact ⟨horigin, hnames⟩
  | namePerLine names lastComma m =>
    cases hkept
    refine ⟨h.2.1, fun n hn => ?_⟩
    obtain ⟨n, hkept, rfl⟩ := List.mem_map.mp hn
    obtain ⟨hmem, hbare⟩ := List.mem_filter.mp hkept
    rw [← Bool.not_eq_true]
    intro hdropped
    rw [ImportedName.isBare, hdropped, h.2.2 n hmem hdropped] at hbare
    cases hbare

theorem filterImports_of_suits {ss : List ImportStatement} (h : ∀ s ∈ ss, s.Suits) :
    filterImports (block ss) = block (ss.filterMap kept) := by
  have hlines : (ss.flatMap lines).filter ImportLine.keeps = (ss.filterMap kept).flatMap lines := by
    rw [List.filter_flatMap, List.filterMap_eq_flatMap_toList, List.flatMap_assoc]
    exact List.flatMap_congr fun s hs => filter_lines (h s hs)
  rw [block, ImportLine.filterImports_text, hlines, block]

/-! ### Statements that it is not made for -/

theorem suits_of_lines {s : ImportStatement}
    (hclosed : ∀ x ∈ s.lines, x.isClosed = true → x.keeps = true)
    (hclean : ∀ x ∈ s.lines, x.keeps = true → x.IsClean) : s.Suits := by
  cases s with
  | oneLine names m =>
    cases hpath : m.isDropped with
    | true => exact Or.inl hpath
    | false =>
      exact Or.inr (hclean _ List.mem_cons_self (by simp [ImportLine.keeps, hpath]))
  | namePerLine names lastComma m =>
    have hmem : .closed m ∈ (namePerLine names lastComma m).lines := by simp [lines]
    have hkeeps := hclosed (.closed m) hmem rfl
    refine ⟨by simpa [ImportLine.keeps] using hkeeps, hclean _ hmem hkeeps, fun n hn hdropped => ?_⟩
    obtain ⟨comma, hname⟩ : ∃ comma, .name n comma ∈ nameLines lastComma names :=
      exists_mem_nameLines hn
    cases halias : n.imported.alias? with
    | none => rfl
    | some a =>
      have hstays : ImportLine.keeps (.name n comma) = true := by
        simp [ImportLine.keeps, ImportedName.isBare, halias]
      have hnot := hclean _ (by simp [lines, hname]) hstays
      exact absurd hdropped (by simp [show n.imported.isDropped = false from hnot])

/-- No opening line is dropped, so in an outcome that is well formed no closing line is missing. -/
theorem keeps_of_isClosed {ss ss' : List ImportStatement}
    (h : (ss.flatMap lines).filter ImportLine.keeps = ss'.flatMap lines) :
    ∀ x ∈ ss.flatMap lines, x.isClosed = true → x.keeps = true := by
  have hopened : ((ss.flatMap lines).filter ImportLine.keeps).countP ImportLine.isOpened =
      (ss.flatMap lines).countP ImportLine.isOpened := by
    rw [List.countP_filter]
    refine List.countP_congr fun x _ => ?_
    cases x <;> simp [ImportLine.isOpened, ImportLine.keeps]
  have hclosed : (((ss.flatMap lines).filter ImportLine.isClosed).filter ImportLine.keeps).length =
      ((ss.flatMap lines).filter ImportLine.isClosed).length := by
    rw [List.filter_comm, ← List.countP_eq_length_filter, ← List.countP_eq_length_filter,
      ← countP_lines, ← hopened, h, countP_lines]
  intro x hx hclose
  exact List.length_filter_eq_length_iff.mp hclosed x (List.mem_filter.mpr ⟨hx, hclose⟩)

theorem suits_of_filterImports {ss ss' : List ImportStatement}
    (h : filterImports (block ss) = block ss') (hclean : ∀ s ∈ ss', s.Clean) :
    ∀ s ∈ ss, s.Suits := by
  rw [block, ImportLine.filterImports_text] at h
  have hlines := ImportLine.unlines_text_injective h
  intro s hs
  have hmem : ∀ x ∈ s.lines, x ∈ ss.flatMap lines := fun x hx =>
    List.mem_flatMap.mpr ⟨s, hs, hx⟩
  refine suits_of_lines (fun x hx => keeps_of_isClosed hlines x (hmem x hx)) fun x hx hkeeps => ?_
  have hstays : x ∈ ss'.flatMap lines := hlines ▸ List.mem_filter.mpr ⟨hmem x hx, hkeeps⟩
  obtain ⟨t, ht, hxt⟩ := List.mem_flatMap.mp hstays
  exact isClean_of_mem_lines (hclean t ht) hxt

/-- An import block is filtered to import statements without neighbouring files and dropped names
exactly if each of its statements suits the filter. -/
theorem filterImports_clean_iff (ss : List ImportStatement) :
    (∃ ss', filterImports (block ss) = block ss' ∧ ∀ s ∈ ss', s.Clean) ↔ ∀ s ∈ ss, s.Suits := by
  constructor
  · rintro ⟨ss', h, hclean⟩
    exact suits_of_filterImports h hclean
  · intro h
    refine ⟨ss.filterMap kept, filterImports_of_suits h, fun t ht => ?_⟩
    obtain ⟨s, hs, hkept⟩ := List.mem_filterMap.mp ht
    exact clean_of_kept (h s hs) hkept

/-! ### One statement in two layouts -/

def importQuote : ImportedName :=
  ⟨⟨'Q', "uote".toList, by decide, List.all_eq_true.mp (by decide)⟩, none⟩

def fromQuote : Origin := ⟨"./Quote".toList, by decide, by decide⟩

def importIndex : ImportedName :=
  ⟨⟨'I', "ndex".toList, by decide, List.all_eq_true.mp (by decide)⟩, none⟩

def fromTypeorm : Origin := ⟨"typeorm".toList, by decide, by decide⟩

def indented (n : ImportedName) : NameLine := ⟨[' ', ' '], n, List.all_eq_true.mp (by decide)⟩

/-- A neighbouring file on one line and a dropped name on its own line suit the filter. -/
example : (oneLine [importQuote] fromQuote).Suits ∧
    (namePerLine [indented importQuote, indented importIndex] true fromTypeorm).Suits := by
  decide

/-- A dropped name on the line of its statement stays. -/
example : ¬ (oneLine [importQuote, importIndex] fromTypeorm).Suits := by decide

/-- A neighbouring file imported with one name a line. -/
def quotePerLine : ImportStatement := namePerLine [indented importQuote] true fromQuote

/-- All but its closing line stays. -/
theorem filterImports_unclosed :
    filterImports (block [quotePerLine]) = "import \x7b\n  Quote,".toList ∧
      ¬ ∃ ss', filterImports (block [quotePerLine]) = block ss' ∧ ∀ s ∈ ss', s.Clean := by
  refine ⟨by decide, ?_⟩
  rintro ⟨ss', h, hclean⟩
  exact absurd (suits_of_filterImports h hclean _ List.mem_cons_self) (by decide)

end ImportStatement

end CompanyRegister.Source
