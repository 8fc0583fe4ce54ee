import Mathlib.Data.List.TakeWhile
import CompanyRegister.Source.Annotated
import CompanyRegister.Proofs.InOrder
import CompanyRegister.Proofs.Text.Pieces

/-!
# Columns that are read

What reading a column block and reading the columns of a source come to. `parse_eq_ok_iff` says all
that a block must be for a column to be read from it; from it follows what every column that is read
satisfies (`ColumnBlock.Sound`): its last line that says anything declares it, and it has no length
unless it holds strings. Leaving out index decorators keeps that.

A source is read column by column, and refused for the first that cannot be read (`FirstFault`).
-/

namespace CompanyRegister.Source

open Text

/-! ## Short lines -/

theorem length_le_byteCount (text : List Char) : text.length ≤ byteCount text := by
  induction text with
  | nil => exact Nat.le_refl 0
  | cons c text ih =>
    have hc := Char.utf8Size_pos c
    rw [List.length_cons]
    show text.length + 1 ≤ c.utf8Size + byteCount text
    omega

theorem mem_dropWhile {α : Type} {p : α → Bool} {xs : List α} {x : α} (hx : p x = false)
    (h : x ∈ xs) : x ∈ xs.dropWhile p := by
  rw [← List.takeWhile_append_dropWhile (p := p) (l := xs), List.mem_append] at h
  rcases h with h | h
  · have := List.all_eq_true.mp List.all_takeWhile x h
    simp [hx] at this
  · exact h

theorem mem_strip {p : Char → Bool} {text : List Char} {c : Char} (hc : p c = false)
    (h : c ∈ text) : c ∈ strip p text := by
  rw [strip, dropEndWhile, List.mem_reverse]
  exact mem_dropWhile hc (List.mem_reverse.mpr (mem_dropWhile hc h))

theorem mem_trim {text : List Char} {c : Char} (hc : isBlank c = false) (h : c ∈ text) :
    c ∈ trim text :=
  mem_strip hc h

/-- A line with two different characters that are no blanks says something. -/
theorem isShort_eq_false {line : List Char} {c d : Char} (hc : c ∈ line) (hd : d ∈ line)
    (hne : c ≠ d) (hcblank : isBlank c = false) (hdblank : isBlank d = false) :
    isShort line = false := by
  have hctrim := mem_trim hcblank hc
  have hdtrim := mem_trim hdblank hd
  have hlength : 2 ≤ (trim line).length := by
    match htext : trim line with
    | [] => simp [htext] at hctrim
    | [x] =>
      rw [htext, List.mem_singleton] at hctrim hdtrim
      exact absurd (hctrim.trans hdtrim.symm) hne
    | _ :: _ :: _ => simp
  have hbytes := length_le_byteCount (trim line)
  simp only [isShort, decide_eq_false_iff_not]
  omega

theorem dropShortTail_append {above shorts : List (List Char)} {line : List Char}
    (hline : isShort line = false) (hshorts : ∀ s ∈ shorts, isShort s = true) :
    dropShortTail (above ++ line :: shorts) = above ++ [line] := by
  have hreverse : ∀ s ∈ shorts.reverse, isShort s = true :=
    fun s hs => hshorts s (List.mem_reverse.mp hs)
  rw [dropShortTail, List.reverse_append, List.reverse_cons, List.append_assoc,
    List.dropWhile_append_of_pos hreverse, List.singleton_append,
    List.dropWhile_cons_of_neg (by simp [hline]), List.reverse_cons, List.reverse_reverse]

/-- The last line that says anything stands before nothing but short lines. -/
theorem exists_of_getLast?_dropShortTail {ls : List (List Char)} {line : List Char}
    (h : (dropShortTail ls).getLast? = some line) :
    ∃ above shorts, ls = above ++ line :: shorts ∧ isShort line = false ∧
      ∀ s ∈ shorts, isShort s = true := by
  rw [dropShortTail, List.getLast?_reverse] at h
  obtain ⟨rest, hrest⟩ := List.head?_eq_some_iff.mp h
  refine ⟨rest.reverse, (ls.reverse.takeWhile isShort).reverse, ?_, ?_, ?_⟩
  · have hsplit := List.takeWhile_append_dropWhile (p := isShort) (l := ls.reverse)
    rw [hrest] at hsplit
    have := congrArg List.reverse hsplit
    simpa using this.symm
  · have := List.head?_dropWhile_not isShort ls.reverse
    rw [h] at this
    simpa using this
  · intro s hs
    exact List.all_eq_true.mp List.all_takeWhile s (List.mem_reverse.mp hs)

/-! ## One column -/

/-- Options that take no default for a function of the database. -/
def keepAll : Options := ⟨[]⟩

/-- No line that begins with an at sign declares a column. -/
theorem declaration_parse_at (text : List Char) (d : Declaration) :
    Declaration.parse ('@' :: text) ≠ .ok d := by
  have hfield : FieldLine.parse? ('@' :: text) = none := by
    have htrim : trimStart ('@' :: text) = '@' :: text := rfl
    rw [FieldLine.parse?, htrim]
    rfl
  rw [Declaration.parse, hfield]
  intro h
  cases h

namespace Entries

/-- Only strings get a length. -/
theorem maxLength_readLine {o : Options} {type : ColumnType} {e e' : Entries} {raw : List Char}
    (htype : type ≠ .string) (h : e.readLine o type raw = .ok e') :
    e'.maxLength = e.maxLength := by
  simp only [readLine, if_neg htype, Except.ok.injEq] at h
  rw [← h]

theorem maxLength_readLines {o : Options} {type : ColumnType} {e e' : Entries}
    {ls : List (List Char)} (htype : type ≠ .string) (h : readLines o type e ls = .ok e') :
    e'.maxLength = e.maxLength := by
  induction ls generalizing e with
  | nil =>
    cases h
    rfl
  | cons l ls ih =>
    rw [readLines] at h
    split at h
    · next e'' hl => exact (ih h).trans (maxLength_readLine htype hl)
    · cases h

/-- What is left of a line is read for a length, with the default put beside it. -/
def ofLine (e : Entries) (type : ColumnType) (line : List Char) (default : Option (List Char)) :
    Except Fault Entries :=
  if type = .string then (e.readLength line).map fun n => ⟨n, default⟩
  else .ok ⟨e.maxLength, default⟩

theorem readLine_eq (o : Options) (type : ColumnType) (e : Entries) (raw : List Char) :
    e.readLine o type raw =
      if contains defaultFunction (trim raw) then
        e.ofLine type (splitDefault (trim raw)).1
          (if o.ignores (splitDefault (trim raw)).2 then none
            else some (splitDefault (trim raw)).2)
      else e.ofLine type (trim raw) e.default := by
  rw [readLine]
  cases contains defaultFunction (trim raw) <;> rfl

theorem default_ofLine {type : ColumnType} {e e' : Entries} {line : List Char}
    {default : Option (List Char)} (h : e.ofLine type line default = .ok e') :
    e'.default = default := by
  rw [ofLine] at h
  split at h
  · cases hlength : e.readLength line with
    | error f =>
      rw [hlength] at h
      cases h
    | ok n =>
      rw [hlength] at h
      cases h
      rfl
  · cases h
    rfl

/-- The default is what the line cuts off, or what has been read before. -/
theorem default_readLine {o : Options} {type : ColumnType} {e e' : Entries} {raw : List Char}
    (h : e.readLine o type raw = .ok e') :
    e'.default =
      if contains defaultFunction (trim raw) then
        if o.ignores (splitDefault (trim raw)).2 then none else some (splitDefault (trim raw)).2
      else e.default := by
  rw [readLine_eq] at h
  split at h
  · next hcontains => rw [if_pos hcontains, default_ofLine h]
  · next hcontains => rw [if_neg hcontains, default_ofLine h]

end Entries

namespace ColumnBlock

/-- A column is read from the lines of a block: the last that says anything declares it, and all
lines together give its entries. -/
theorem parse_eq_ok_iff {o : Options} {block : List Char} {b : ColumnBlock} :
    parse o block = .ok b ↔
      b.lines = (Text.lines block).dropWhile isAllBlank ∧
      ∃ line e, (dropShortTail b.lines).getLast? = some line ∧
        Declaration.parse line = .ok ⟨b.property, b.type, b.optional⟩ ∧
        Entries.readLines o b.type {} (dropShortTail b.lines) = .ok e ∧
        b.maxLength = e.maxLength ∧ b.default = e.default.filter (· ≠ []) := by
  rw [parse]
  constructor
  · intro h
    split at h
    · cases h
    · next line hline =>
      split at h
      · cases h
      · next d hd =>
        split at h
        · cases h
        · next e he =>
          cases h
          exact ⟨rfl, line, e, hline, hd, he, rfl, rfl⟩
  · obtain ⟨ls, property, type, optional, maxLength, default⟩ := b
    rintro ⟨rfl, line, e, hline, hd, he, rfl, rfl⟩
    simp only [hline, hd, he]

/-- A block of lines that begins with something and ends with a field line is read as the column
that this line declares, with the entries of all lines. -/
theorem parse_unlines {o : Options} {ls : List (List Char)} {field : List Char} {d : Declaration}
    (hlines : ∀ l ∈ ls ++ [field], '\n' ∉ l)
    (hfirst : ∀ l ∈ (ls ++ [field]).head?, isAllBlank l = false)
    (hfield : isShort field = false) (hd : Declaration.parse field = .ok d) :
    parse o (unlines (ls ++ [field])) =
      match Entries.readLines o d.type {} (ls ++ [field]) with
      | .error f => .error f
      | .ok e => .ok ⟨ls ++ [field], d.property, d.type, d.optional, e.maxLength,
          e.default.filter (· ≠ [])⟩ := by
  have hall : (Text.lines (unlines (ls ++ [field]))).dropWhile isAllBlank = ls ++ [field] := by
    rw [lines_unlines (by simp) hlines]
    exact dropWhile_eq_self hfirst
  have hbody : dropShortTail (ls ++ [field]) = ls ++ [field] :=
    dropShortTail_append hfield (by simp)
  rw [parse, hall, hbody, List.getLast?_concat]
  cases hentries : Entries.readLines o d.type {} (ls ++ [field]) <;> simp [hd, hentries]

/-- What every column that is read satisfies: its last line that says anything declares it, and it
has no length unless it holds strings. -/
structure Sound (b : ColumnBlock) : Prop where
  field : ∃ line, (dropShortTail b.lines).getLast? = some line ∧
    Declaration.parse line = .ok ⟨b.property, b.type, b.optional⟩
  length : b.type ≠ .string → b.maxLength = none

theorem sound_of_parse {o : Options} {block : List Char} {b : ColumnBlock}
    (h : parse o block = .ok b) : b.Sound := by
  obtain ⟨-, line, e, hline, hd, he, hlength, -⟩ := parse_eq_ok_iff.mp h
  refine ⟨⟨line, hline, hd⟩, fun htype => ?_⟩
  rw [hlength]
  exact Entries.maxLength_readLines htype he

/-- The line that begins an entity says something. -/
theorem isShort_entity {line : List Char} (h : startsWith "@Entity".toList line = true) :
    isShort line = false := by
  obtain ⟨rest, rfl⟩ := after?_isSome_iff.mp h
  have hat : '@' ∈ "@Entity".toList ++ rest := List.mem_append_left rest (by decide)
  have he : 'E' ∈ "@Entity".toList ++ rest := List.mem_append_left rest (by decide)
  exact isShort_eq_false hat he (by decide) (by decide) (by decide)

/-- No entity begins with the field line or behind it. -/
theorem dropWhile_field {shorts : List (List Char)} {line : List Char} {d : Declaration}
    (hd : Declaration.parse line = .ok d) (hshorts : ∀ s ∈ shorts, isShort s = true) :
    (line :: shorts).dropWhile (fun l => !startsWith "@Entity".toList l) = [] := by
  have hfield : startsWith "@Entity".toList line = false := by
    rw [Bool.eq_false_iff]
    intro h
    obtain ⟨rest, rfl⟩ := after?_isSome_iff.mp h
    exact declaration_parse_at _ d hd
  rw [List.dropWhile_eq_nil_iff]
  intro l hl
  show (!startsWith "@Entity".toList l) = true
  rw [Bool.not_eq_true']
  rcases List.mem_cons.mp hl with rfl | hl
  · exact hfield
  · rw [Bool.eq_false_iff]
    intro h
    have := isShort_entity h
    rw [hshorts l hl] at this
    cases this

/-- Index decorators are left out in front of the field line, never with it. -/
theorem dropWhile_append_field {above shorts : List (List Char)} {line : List Char}
    {d : Declaration} (hd : Declaration.parse line = .ok d)
    (hshorts : ∀ s ∈ shorts, isShort s = true)
    (hne : (above ++ line :: shorts).dropWhile (fun l => !startsWith "@Entity".toList l) ≠ []) :
    (above ++ line :: shorts).dropWhile (fun l => !startsWith "@Entity".toList l) =
      above.dropWhile (fun l => !startsWith "@Entity".toList l) ++ line :: shorts := by
  rw [List.dropWhile_append, dropWhile_field hd hshorts] at hne ⊢
  split at hne
  · exact absurd rfl hne
  · next hempty => rw [if_neg hempty]

theorem getLast?_dropShortTail_dropWhile {ls : List (List Char)} {line : List Char}
    {d : Declaration} (hline : (dropShortTail ls).getLast? = some line)
    (hd : Declaration.parse line = .ok d)
    (hne : ls.dropWhile (fun l => !startsWith "@Entity".toList l) ≠ []) :
    (dropShortTail (ls.dropWhile fun l => !startsWith "@Entity".toList l)).getLast? =
      some line := by
  obtain ⟨above, shorts, rfl, hshort, hshorts⟩ := exists_of_getLast?_dropShortTail hline
  rw [dropWhile_append_field hd hshorts hne, dropShortTail_append hshort hshorts,
    List.getLast?_concat]

theorem sound_stripIndex {b : ColumnBlock} (h : b.Sound) : b.stripIndex.Sound := by
  obtain ⟨⟨line, hline, hd⟩, hlength⟩ := h
  rw [stripIndex]
  split
  · next hindex =>
    exact ⟨⟨line, getLast?_dropShortTail_dropWhile hline hd hindex.2, hd⟩, hlength⟩
  · exact ⟨⟨line, hline, hd⟩, hlength⟩

end ColumnBlock

/-! ## All columns -/

/-- The fault of the first block that cannot be read; all blocks before it can. -/
inductive FirstFault (o : Options) : List (List Char) → Fault → Prop
  | here {b : List Char} {bs : List (List Char)} {f : Fault} :
      ColumnBlock.parse o b = .error f → FirstFault o (b :: bs) f
  | later {b : List Char} {bs : List (List Char)} {f : Fault} {c : ColumnBlock} :
      ColumnBlock.parse o b = .ok c → FirstFault o bs f → FirstFault o (b :: bs) f

theorem mapM_parse_eq_error_iff {o : Options} {bs : List (List Char)} {f : Fault} :
    bs.mapM (ColumnBlock.parse o) = .error f ↔ FirstFault o bs f := by
  induction bs with
  | nil =>
    constructor
    · intro h
      cases h
    · intro h
      cases h
  | cons b bs ih =>
    rw [List.mapM_cons]
    constructor
    · intro h
      cases hb : ColumnBlock.parse o b with
      | error f' =>
        rw [hb] at h
        cases h
        exact .here hb
      | ok c =>
        rw [hb] at h
        cases hbs : bs.mapM (ColumnBlock.parse o) with
        | error f' =>
          simp only [hbs, bind, Except.bind] at h
          cases h
          exact .later hb (ih.mp hbs)
        | ok cs =>
          simp only [hbs, bind, Except.bind] at h
          cases h
    · intro h
      cases h with
      | here hb =>
        rw [hb]
        rfl
      | later hb hbs =>
        rw [hb, ih.mpr hbs]
        rfl

/-- A source is refused for the first of its columns that cannot be read, or for having none. -/
theorem readColumns_eq_error_iff {o : Options} {source : List Char} {f : Fault} :
    readColumns o source = .error f ↔
      FirstFault o (columnBlocks (sourceBlocks source)) f ∨
        columnBlocks (sourceBlocks source) = [] ∧ f = .noColumns := by
  rw [← mapM_parse_eq_error_iff, readColumns]
  cases hcolumns : columnBlocks (sourceBlocks source) with
  | nil =>
    show Except.error Fault.noColumns = Except.error f ↔ _
    constructor
    · intro h
      cases h
      exact Or.inr ⟨rfl, rfl⟩
    · rintro (h | ⟨-, rfl⟩)
      · cases h
      · rfl
  | cons b bs =>
    cases hread : (b :: bs).mapM (ColumnBlock.parse o) with
    | error f' => simp
    | ok cs =>
      -- One column has been read for each block, so there is a first.
      cases mapM_eq_ok_iff.mp hread
      simp

/-- What holds of every column that is read holds of the columns of a source, if leaving out index
decorators keeps it. -/
theorem forall_of_readColumns {P : ColumnBlock → Prop} {o : Options}
    (hparse : ∀ block b, ColumnBlock.parse o block = .ok b → P b)
    (hstrip : ∀ b, P b → P b.stripIndex) {source : List Char} {cs : List ColumnBlock}
    (h : readColumns o source = .ok cs) : ∀ c ∈ cs, P c := by
  rw [readColumns] at h
  split at h
  · cases h
  · cases h
  · next first rest hread =>
    cases h
    have hall : ∀ c ∈ first :: rest, P c := by
      intro c hc
      obtain ⟨block, -, hblock⟩ := exists_of_mem_mapM hread hc
      exact hparse block c hblock
    intro c hc
    rcases List.mem_cons.mp hc with rfl | hc
    · exact hstrip first (hall first List.mem_cons_self)
    · exact hall c (List.mem_cons_of_mem first hc)

theorem sound_of_readColumns {o : Options} {source : List Char} {cs : List ColumnBlock}
    (h : readColumns o source = .ok cs) : ∀ c ∈ cs, c.Sound :=
  forall_of_readColumns (fun _ _ => ColumnBlock.sound_of_parse)
    (fun _ => ColumnBlock.sound_stripIndex) h

end CompanyRegister.Source
