import CompanyRegister.Proofs.Source.Fields
import CompanyRegister.Proofs.Source.Renaming

/-!
# Unions in another order

The order of its members says nothing about a union. A field line is read by the first member that
does not say that the value may be missing, and what the others name is not looked at
(`Declares`):

    label: string | number;    a string
    label: number | string;    a number

So a field is read alike in every order of its union exactly if all these members name one type, or
none names any (`read_alike_iff_namesOneType`). Two different members never name one type, so then a
union with two of them is refused.
-/

namespace CompanyRegister.Source

open Text

namespace FieldLine

/-! ## Orders of a union -/

/-- Whether `g` is the field `f` with its union in another order. -/
structure Reorders (g f : FieldLine) : Prop where
  property_eq : g.property = f.property
  marked_eq : g.marked = f.marked
  members_perm : g.members.Perm f.members

/-- Whether the members that do not say that the value may be missing all name one type, or none
names any. -/
def NamesOneType (f : FieldLine) : Prop :=
  ∀ m ∈ f.members, ∀ m' ∈ f.members, isMissing m = false → isMissing m' = false →
    ColumnType.ofName? m = ColumnType.ofName? m'

/-- Whether a member is the first that does not say that the value may be missing. -/
def IsFirst (f : FieldLine) (m : List Char) : Prop :=
  ∃ before behind, f.members = before ++ m :: behind ∧ (∀ x ∈ before, isMissing x = true) ∧
    isMissing m = false

/-- What a field declares: the type is the one that the first member names, whatever the others
name. -/
structure Declares (f : FieldLine) (d : Declaration) : Prop where
  property_eq : d.property = f.property
  optional_iff : d.optional = true ↔ f.marked = true ∨ ∃ m ∈ f.members, isMissing m = true
  type_named : ∃ m, f.IsFirst m ∧ ColumnType.ofName? m = some d.type

variable {f g : FieldLine} {d : Declaration} {m : List Char}

theorem IsFirst.mem (h : f.IsFirst m) : m ∈ f.members := by
  obtain ⟨before, behind, hmembers, -, -⟩ := h
  rw [hmembers]
  exact List.mem_append_right before List.mem_cons_self

theorem IsFirst.isMissing_eq (h : f.IsFirst m) : isMissing m = false := by
  obtain ⟨before, behind, -, -, hm⟩ := h
  exact hm

theorem isFirst_iff_find? : f.IsFirst m ↔ f.members.find? (fun m => !isMissing m) = some m := by
  rw [List.find?_eq_some_iff_append]
  constructor
  · rintro ⟨before, behind, hmembers, hbefore, hm⟩
    refine ⟨by rw [hm]; rfl, before, behind, hmembers, ?_⟩
    intro x hx
    rw [hbefore x hx]
    rfl
  · rintro ⟨hm, before, behind, hmembers, hbefore⟩
    refine ⟨before, behind, hmembers, ?_, by simpa using hm⟩
    intro x hx
    simpa using hbefore x hx

theorem exists_isFirst (hmem : m ∈ f.members) (hm : isMissing m = false) : ∃ x, f.IsFirst x := by
  cases hfind : f.members.find? fun m => !isMissing m with
  | some x => exact ⟨x, isFirst_iff_find?.mpr hfind⟩
  | none =>
    have hmissing := List.find?_eq_none.mp hfind m hmem
    rw [hm] at hmissing
    exact absurd rfl hmissing

/-- Without a first member there is no type. -/
theorem ofName?_typeName_eq_some_iff {t : ColumnType} :
    ColumnType.ofName? f.typeName = some t ↔ ∃ m, f.IsFirst m ∧ ColumnType.ofName? m = some t := by
  simp only [isFirst_iff_find?]
  rw [typeName]
  cases f.members.find? fun m => !isMissing m with
  | some m => simp
  | none =>
    have hnull : ColumnType.ofName? "null".toList = none := by decide
    rw [Option.getD_none, hnull]
    simp

theorem isOptional_eq_true_iff :
    f.isOptional = true ↔ f.marked = true ∨ ∃ m ∈ f.members, isMissing m = true := by
  rw [isOptional, Bool.or_eq_true, List.any_eq_true, or_comm]

theorem declaration_eq_ok_iff : f.declaration = .ok d ↔ f.Declares d := by
  obtain ⟨property, type, optional⟩ := d
  constructor
  · intro h
    rw [declaration] at h
    split at h
    · next type' htype =>
      cases h
      exact ⟨rfl, isOptional_eq_true_iff, ofName?_typeName_eq_some_iff.mp htype⟩
    · cases h
  · rintro ⟨hproperty, hoptional, hnamed⟩
    have htype : ColumnType.ofName? f.typeName = some type :=
      ofName?_typeName_eq_some_iff.mpr hnamed
    have hflag : f.isOptional = optional :=
      Bool.eq_iff_iff.mpr (isOptional_eq_true_iff.trans hoptional.symm)
    have hname : property = f.property := hproperty
    rw [declaration, htype, hflag, hname]

theorem Reorders.symm (h : g.Reorders f) : f.Reorders g :=
  ⟨h.property_eq.symm, h.marked_eq.symm, h.members_perm.symm⟩

theorem NamesOneType.of_reorders (hone : f.NamesOneType) (h : g.Reorders f) : g.NamesOneType := by
  intro m hm m' hm'
  exact hone m (h.members_perm.mem_iff.mp hm) m' (h.members_perm.mem_iff.mp hm')

/-- Where one type is named, it does not matter which member is the first. -/
theorem Declares.of_reorders (hd : f.Declares d) (hone : f.NamesOneType) (h : g.Reorders f) :
    g.Declares d := by
  obtain ⟨m, hfirst, htype⟩ := hd.type_named
  obtain ⟨x, hx⟩ := exists_isFirst (h.members_perm.mem_iff.mpr hfirst.mem) hfirst.isMissing_eq
  have hsame : ColumnType.ofName? x = ColumnType.ofName? m :=
    hone x (h.members_perm.mem_iff.mp hx.mem) m hfirst.mem hx.isMissing_eq hfirst.isMissing_eq
  refine ⟨hd.property_eq.trans h.property_eq.symm, ?_, x, hx, hsame.trans htype⟩
  rw [hd.optional_iff, h.marked_eq]
  simp only [h.members_perm.mem_iff]

end FieldLine

/-! ## Names of types -/

/-- The only name of a type is its own, blanks aside. -/
theorem ofName?_eq_some_iff {m : List Char} {t : ColumnType} :
    ColumnType.ofName? m = some t ↔ trim m = typeWord t := by
  rw [ColumnType.ofName?]
  constructor
  · intro h
    split_ifs at h <;> (cases h; assumption)
  · intro h
    rw [h]
    cases t <;> decide

/-! ## Lines -/

namespace Spelling

variable (s : Spelling) {ps : List (List Char)}

theorem declaration_parse_text : Declaration.parse s.text = s.fieldLine.declaration := by
  rw [Declaration.parse, s.parse?_text]

/-- The members of the union, with the blanks around each. -/
def pieces : List (List Char) := s.type.splitOn '|'

theorem intercalate_pieces : ['|'].intercalate s.pieces = s.type := List.intercalate_splitOn '|'

/-- Pieces in another order are the pieces of what they are joined to. -/
theorem splitOn_intercalate_of_perm (h : ps.Perm s.pieces) :
    (['|'].intercalate ps).splitOn '|' = ps := by
  refine List.splitOn_intercalate '|' ?_ ?_
  · intro p hp
    exact not_mem_of_mem_splitOn (h.mem_iff.mp hp)
  · rintro rfl
    exact List.splitOn_ne_nil '|' s.type h.nil_eq.symm

theorem isTypeChar_of_perm (h : ps.Perm s.pieces) :
    ∀ c ∈ ['|'].intercalate ps, FieldLine.isTypeChar c = true := by
  intro c hc
  rcases mem_intercalate hc with hc | ⟨p, hp, hc⟩
  · rw [List.mem_singleton.mp hc]
    decide
  · apply s.type_chars
    rw [← s.intercalate_pieces]
    exact mem_intercalate_of_mem (h.mem_iff.mp hp) hc

/-- The line with the pieces of its union in another order. -/
def reordered (ps : List (List Char)) (h : ps.Perm s.pieces) : Spelling :=
  { s with
    type := ['|'].intercalate ps
    type_chars := s.isTypeChar_of_perm h
    type_ne_nil := by
      intro hnil
      -- Nothing but one empty piece is joined to nothing, and that is no type in any order.
      have hps : ps = [[]] := by
        rw [← s.splitOn_intercalate_of_perm h, hnil]
        rfl
      rw [hps] at h
      apply s.type_ne_nil
      rw [← s.intercalate_pieces, h.symm.eq_singleton]
      rfl }

theorem fieldLine_reordered (h : ps.Perm s.pieces) :
    (s.reordered ps h).fieldLine = { s.fieldLine with members := ps.map trim } := by
  rw [fieldLine, reordered]
  dsimp only
  rw [s.splitOn_intercalate_of_perm h]
  rfl

/-- Any member can be the first. -/
theorem exists_reordered {m : List Char} (hm : m ∈ s.fieldLine.members) :
    ∃ (s' : Spelling) (rest : List (List Char)),
      s'.fieldLine.Reorders s.fieldLine ∧ s'.fieldLine.members = m :: rest := by
  obtain ⟨p, hp, rfl⟩ := List.mem_map.mp hm
  have hperm : (p :: s.pieces.erase p).Perm s.pieces := (List.perm_cons_erase hp).symm
  refine ⟨s.reordered _ hperm, (s.pieces.erase p).map trim, ?_, ?_⟩
  · rw [fieldLine_reordered]
    exact ⟨rfl, rfl, hperm.map trim⟩
  · rw [fieldLine_reordered]
    rfl

end Spelling

/-! ## Reading in any order -/

/-- Whether two lines are read alike: as one declaration, or not at all. -/
def ReadAlike (x y : Except Fault Declaration) : Prop := ∀ d, x = .ok d ↔ y = .ok d

namespace Spelling

variable {s s' : Spelling}

theorem read_alike_of_namesOneType (hone : s.fieldLine.NamesOneType)
    (h : s'.fieldLine.Reorders s.fieldLine) :
    ReadAlike (Declaration.parse s'.text) (Declaration.parse s.text) := by
  intro d
  rw [declaration_parse_text, declaration_parse_text, FieldLine.declaration_eq_ok_iff,
    FieldLine.declaration_eq_ok_iff]
  exact ⟨fun hd => hd.of_reorders (hone.of_reorders h) h.symm, fun hd => hd.of_reorders hone h⟩

/-- If all orders are read alike, what one member names every other one names as well: each of the
two is the first in some order. -/
theorem ofName?_of_read_alike
    (halike : ∀ s' : Spelling, s'.fieldLine.Reorders s.fieldLine →
      ReadAlike (Declaration.parse s'.text) (Declaration.parse s.text))
    {m m' : List Char} (hm : m ∈ s.fieldLine.members) (hm' : m' ∈ s.fieldLine.members)
    (hgiven : FieldLine.isMissing m = false) (hgiven' : FieldLine.isMissing m' = false)
    {t : ColumnType} (ht : ColumnType.ofName? m = some t) : ColumnType.ofName? m' = some t := by
  obtain ⟨s₁, rest₁, hreorders₁, hmembers₁⟩ := s.exists_reordered hm
  obtain ⟨s₂, rest₂, hreorders₂, hmembers₂⟩ := s.exists_reordered hm'
  have hfirst₁ : s₁.fieldLine.IsFirst m := ⟨[], rest₁, hmembers₁, by simp, hgiven⟩
  have hread₁ : Declaration.parse s₁.text =
      .ok ⟨s₁.fieldLine.property, t, s₁.fieldLine.isOptional⟩ := by
    rw [declaration_parse_text, FieldLine.declaration_eq_ok_iff]
    exact ⟨rfl, FieldLine.isOptional_eq_true_iff, m, hfirst₁, ht⟩
  have hread₂ := (halike s₂ hreorders₂ _).mpr ((halike s₁ hreorders₁ _).mp hread₁)
  rw [declaration_parse_text, FieldLine.declaration_eq_ok_iff] at hread₂
  obtain ⟨x, hx, htype⟩ := hread₂.type_named
  have hfirst₂ : s₂.fieldLine.IsFirst m' := ⟨[], rest₂, hmembers₂, by simp, hgiven'⟩
  have hsame : some x = some m' :=
    (FieldLine.isFirst_iff_find?.mp hx).symm.trans (FieldLine.isFirst_iff_find?.mp hfirst₂)
  rw [← Option.some.inj hsame]
  exact htype

/-- A union with two members that differ is of no type if one type is named. -/
theorem not_declares_of_ne (hone : s.fieldLine.NamesOneType) {m m' : List Char}
    (hm : m ∈ s.fieldLine.members) (hm' : m' ∈ s.fieldLine.members)
    (hgiven : FieldLine.isMissing m = false) (hgiven' : FieldLine.isMissing m' = false)
    (hne : m ≠ m') (d : Declaration) : ¬ s.fieldLine.Declares d := by
  intro hd
  obtain ⟨x, hx, htype⟩ := hd.type_named
  have hname : ∀ y ∈ s.fieldLine.members, FieldLine.isMissing y = false →
      y = typeWord d.type := by
    intro y hy hgiven
    have hnamed := (hone y hy x hx.mem hgiven hx.isMissing_eq).trans htype
    obtain ⟨p, -, rfl⟩ := List.mem_map.mp hy
    have htrim := ofName?_eq_some_iff.mp hnamed
    rw [trim, trim, strip_strip] at htrim
    exact htrim
  exact hne ((hname m hm hgiven).trans (hname m' hm' hgiven').symm)

/-- A field line is read by the first member of its union that does not say that the value may be
missing. It is read alike in every order of the union exactly if all such members name one type or
none names any; if so, a union with two of them that differ is refused. -/
theorem read_alike_iff_namesOneType (s : Spelling) :
    (∀ d, Declaration.parse s.text = .ok d ↔ s.fieldLine.Declares d) ∧
      ((∀ s' : Spelling, s'.fieldLine.Reorders s.fieldLine →
          ReadAlike (Declaration.parse s'.text) (Declaration.parse s.text)) ↔
        s.fieldLine.NamesOneType) ∧
      (s.fieldLine.NamesOneType → ∀ m ∈ s.fieldLine.members, ∀ m' ∈ s.fieldLine.members,
        FieldLine.isMissing m = false → FieldLine.isMissing m' = false → m ≠ m' →
        ∀ d, Declaration.parse s.text ≠ .ok d) := by
  refine ⟨?_, ⟨?_, ?_⟩, ?_⟩
  · intro d
    rw [declaration_parse_text, FieldLine.declaration_eq_ok_iff]
  · intro halike m hm m' hm' hgiven hgiven'
    refine Option.ext fun t => ⟨?_, ?_⟩
    · exact ofName?_of_read_alike halike hm hm' hgiven hgiven'
    · exact ofName?_of_read_alike halike hm' hm hgiven' hgiven
  · intro hone s' h
    exact read_alike_of_namesOneType hone h
  · intro hone m hm m' hm' hgiven hgiven' hne d h
    rw [declaration_parse_text, FieldLine.declaration_eq_ok_iff] at h
    exact not_declares_of_ne hone hm hm' hgiven hgiven' hne d h

end Spelling

namespace FieldBlock

/-- A column whose field may hold texts and numbers. -/
def textOrNumber : FieldBlock :=
  { varcharField with
    type := "string | number".toList
    type_chars := List.all_eq_true.mp (by decide)
    type_line := by decide }

/-- The same column with the members of the union the other way round. -/
def numberOrText : FieldBlock :=
  { varcharField with
    type := "number | string".toList
    type_chars := List.all_eq_true.mp (by decide)
    type_line := by decide }

/-- One order makes it a column of texts, the other a column of numbers. -/
theorem order_decides_type :
    textOrNumber.text label = "  @Column(\"varchar\")\n  label: string | number;".toList ∧
      (numberOrText.spelling label).fieldLine.Reorders (textOrNumber.spelling label).fieldLine ∧
      ColumnBlock.parse .standard (textOrNumber.text label) =
        .ok (textOrNumber.column label .string {}) ∧
      ColumnBlock.parse .standard (numberOrText.text label) =
        .ok (numberOrText.column label .number {}) ∧
      ¬ ReadAlike (Declaration.parse (numberOrText.spelling label).text)
        (Declaration.parse (textOrNumber.spelling label).text) := by
  have htext : (textOrNumber.spelling label).fieldLine =
      ⟨"label".toList, false, ["string".toList, "number".toList]⟩ := by decide +kernel
  have hother : (numberOrText.spelling label).fieldLine =
      ⟨"label".toList, false, ["number".toList, "string".toList]⟩ := by decide +kernel
  have hstring : Declaration.parse (textOrNumber.spelling label).text =
      .ok ⟨"label".toList, .string, false⟩ := by decide +kernel
  have hnumber : Declaration.parse (numberOrText.spelling label).text =
      .ok ⟨"label".toList, .number, false⟩ := by decide +kernel
  refine ⟨by decide +kernel, ?_, by decide +kernel, by decide +kernel, ?_⟩
  · rw [htext, hother]
    exact ⟨rfl, rfl, .swap _ _ []⟩
  · intro h
    have heq := (h _).mp hnumber
    rw [hstring] at heq
    cases heq

end FieldBlock

end CompanyRegister.Source
