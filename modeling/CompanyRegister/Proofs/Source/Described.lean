import CompanyRegister.Proofs.Source.Columns
import CompanyRegister.Schema.Company

/-!
# Columns described twice

The rules of a column are worked out in two places: from the block that declares it in a source, and
from its description in an entity. A description has a rule on lengths only for strings, while a
block has one whenever it has a length. The two agree exactly on the blocks whose length comes with a
string (`rules_eq_rulesFor_iff`), and reading a block keeps to that over all of its lines
(`ColumnBlock.sound_of_parse`).
-/

namespace CompanyRegister.Source

open Text

namespace ColumnBlock

/-- Whether a column of an entity says the same of its type, of missing values and of lengths as a
block. -/
structure DescribedBy (b : ColumnBlock) (c : Entity.Column) : Prop where
  type : c.type = b.type
  nullable : c.nullable = b.optional
  length : c.length = b.maxLength

theorem DescribedBy.rules_eq {b : ColumnBlock} {c : Entity.Column} (h : b.DescribedBy c) :
    c.rules = rulesFor b.type b.optional b.maxLength := by
  rw [Entity.Column.rules, h.type, h.nullable, h.length]

/-- The rules of a block are those of its type, presence and length exactly if a length comes with a
string. -/
theorem rules_eq_rulesFor_iff {b : ColumnBlock} :
    b.rules = rulesFor b.type b.optional b.maxLength ↔
      (b.maxLength ≠ none → b.type = .string) := by
  rw [rules, rulesFor, List.append_cancel_left_eq]
  by_cases htype : b.type = .string
  · simp [htype]
  · cases hlength : b.maxLength with
    | none => simp
    | some n => simp [htype]

/-- A column that is read from a block has the rules of every description that says the same of it,
and a length only if it holds strings. -/
theorem rules_as_described {o : Options} {block : List Char} {b : ColumnBlock}
    (h : parse o block = .ok b) :
    (∀ c : Entity.Column, b.DescribedBy c → b.rules = c.rules) ∧
      (b.maxLength ≠ none → b.type = .string) := by
  have hlength : b.maxLength ≠ none → b.type = .string := by
    intro hne
    by_contra htype
    exact hne ((sound_of_parse h).length htype)
  refine ⟨fun c hc => ?_, hlength⟩
  rw [hc.rules_eq]
  exact rules_eq_rulesFor_iff.mpr hlength

/-- The lines that declare the name of a company, its options on several of them. -/
def companyNameLines : List (List Char) :=
  ["  @Column(\"varchar\", \x7b", "    nullable: true,", "    length: 60,", "  \x7d)",
    "  companyName: string | null;"].map String.toList

/-- The column that is read from them. -/
def companyNameColumn : ColumnBlock where
  lines := companyNameLines
  property := "companyName".toList
  type := .string
  optional := true
  maxLength := some 60
  default := none

/-- The entity of companies describes it the same way. -/
theorem companyName_as_described :
    ∃ c ∈ Company.entity.columns, parse .standard (unlines companyNameLines) = .ok companyNameColumn ∧
      companyNameColumn.DescribedBy c ∧ companyNameColumn.rules = c.rules ∧
        c.rules = [.isOptional, .isString, .maxLength 60] := by
  have hparse : parse .standard (unlines companyNameLines) = .ok companyNameColumn := by rfl
  refine ⟨Company.entity.columns[1], by decide, hparse, ⟨rfl, rfl, rfl⟩, ?_, rfl⟩
  exact (rules_as_described hparse).1 _ ⟨rfl, rfl, rfl⟩

end ColumnBlock

end CompanyRegister.Source
