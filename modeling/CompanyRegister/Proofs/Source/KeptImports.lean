import Mathlib.Data.List.Perm.Basic
import CompanyRegister.Proofs.Source.Rendering
import CompanyRegister.Proofs.Text.Plain

/-!
# Import lines that stay

An import block is filtered line by line, whatever its lines are. `LeftOut` says of the characters of
a line that it goes: it tells a neighbouring file, or it holds a dropped name and around it nothing
but spaces, tabs and commas. The lines that stay (`LinesLeft`) are in the order in which they were,
each as often as it was there.

A text whose lines all stay is given back as it is, and no other text is
(`filterImports_eq_self_iff`). So what has been filtered is not changed by filtering it again, be it
nothing: that is one empty line, and an empty line stays (`filterImports_leaves`).
-/

namespace CompanyRegister.Source

open Text

/-! ## Lines that go -/

/-- What may stand around a name in a list of imports. -/
def listSigns : List Char := [' ', ',', '\t']

/-- The name of a decorator that an annotated source does not use. -/
inductive IsDroppedName : List Char → Prop
  | joinColumn : IsDroppedName "JoinColumn".toList
  | index : IsDroppedName "Index".toList
  | relation (k : RelationKind) : IsDroppedName k.name.toList

/-- A line of an import block that goes. -/
inductive LeftOut (line : List Char) : Prop
  /-- It tells a file by where it is. -/
  | neighbour (hpath : "./".toList <:+: line)
  /-- It holds a dropped name and no more. -/
  | name {front name tail : List Char} (hline : line = front ++ (name ++ tail))
      (hname : IsDroppedName name) (hfront : ∀ c ∈ front, c ∈ listSigns)
      (htail : ∀ c ∈ tail, c ∈ listSigns)

theorem mem_droppedNames_iff {name : List Char} : name ∈ droppedNames ↔ IsDroppedName name := by
  constructor
  · intro h
    simp only [droppedNames, RelationKind.all, List.cons_append, List.nil_append, List.map_cons,
      List.map_nil, List.mem_cons, List.not_mem_nil, or_false] at h
    rcases h with rfl | rfl | rfl | rfl | rfl | rfl
    · exact .joinColumn
    · exact .index
    · exact .relation .manyToOne
    · exact .relation .oneToMany
    · exact .relation .oneToOne
    · exact .relation .manyToMany
  · intro h
    cases h with
    | joinColumn => decide
    | index => decide
    | relation k => cases k <;> decide

/-- Stripping takes nothing off a dropped name. -/
theorem importedName_eq_iff {line name : List Char} (hname : name ∈ droppedNames) :
    importedName line = name ↔
      ∃ front tail, line = front ++ (name ++ tail) ∧ (∀ c ∈ front, c ∈ listSigns) ∧
        ∀ c ∈ tail, c ∈ listSigns := by
  have hsigns : ∀ c, (c == ' ' || c == ',' || c == '\t') = true ↔ c ∈ listSigns := by
    simp [listSigns, or_assoc]
  have hnames : droppedNames.all (fun d => d.all fun c => !listSigns.contains c) = true := by decide
  have hletters : ∀ c ∈ name, (c == ' ' || c == ',' || c == '\t') = false := by
    intro c hc
    have hletter := List.all_eq_true.mp (List.all_eq_true.mp hnames name hname) c hc
    rw [Bool.not_eq_true', Bool.eq_false_iff, ne_eq, List.contains_iff_mem] at hletter
    exact Bool.eq_false_iff.mpr fun h => hletter ((hsigns c).mp h)
  rw [importedName, strip_eq_iff (fun c hc => hletters c (List.mem_of_mem_head? hc))
    fun c hc => hletters c (List.mem_of_mem_getLast? hc)]
  simp only [hsigns]

theorem keepsImport_iff {line : List Char} : keepsImport line = true ↔ ¬ LeftOut line := by
  have hkeeps : keepsImport line = true ↔
      ¬ ("./".toList <:+: line ∨ importedName line ∈ droppedNames) := by
    rw [keepsImport, Bool.and_eq_true, Bool.not_eq_true', Bool.not_eq_true', contains_eq_false_iff,
      Bool.eq_false_iff, ne_eq, List.contains_iff_mem, not_or]
  rw [hkeeps]
  refine not_congr ⟨?_, ?_⟩
  · rintro (hpath | hname)
    · exact .neighbour hpath
    · obtain ⟨front, tail, hline, hfront, htail⟩ := (importedName_eq_iff hname).mp rfl
      exact .name hline (mem_droppedNames_iff.mp hname) hfront htail
  · rintro (hpath | ⟨hline, hname, hfront, htail⟩)
    · exact Or.inl hpath
    · have hmem := mem_droppedNames_iff.mpr hname
      have heq := (importedName_eq_iff hmem).mpr ⟨_, _, hline, hfront, htail⟩
      exact Or.inr (heq ▸ hmem)

/-! ## Lines that stay -/

/-- Whether `kept` are the lines of `ls` that stay, all of them and in their order. -/
structure LinesLeft (ls kept : List (List Char)) : Prop where
  inOrder : kept.Sublist ls
  stays : ∀ l, ¬ LeftOut l → kept.count l = ls.count l
  goes : ∀ l, LeftOut l → l ∉ kept

/-- That settles which lines there are. -/
theorem linesLeft_iff {ls kept : List (List Char)} :
    LinesLeft ls kept ↔ kept = ls.filter keepsImport := by
  constructor
  · intro h
    have hkeeps : ∀ l ∈ kept, keepsImport l = true :=
      fun l hl => keepsImport_iff.mpr fun hout => h.goes l hout hl
    have hsub : kept.Sublist (ls.filter keepsImport) := by
      rw [← List.filter_eq_self.mpr hkeeps]
      exact h.inOrder.filter keepsImport
    have hperm : kept.Perm (ls.filter keepsImport) := by
      refine List.perm_iff_count.mpr fun l => ?_
      by_cases hl : keepsImport l = true
      · rw [List.count_filter hl, h.stays l (keepsImport_iff.mp hl)]
      · rw [List.count_eq_zero_of_not_mem fun hmem => hl (hkeeps l hmem),
          List.count_eq_zero_of_not_mem fun hmem => hl (List.mem_filter.mp hmem).2]
    -- As many lines in the same order leave no choice.
    exact hsub.eq_of_length hperm.length_eq
  · rintro rfl
    refine ⟨List.filter_sublist, fun l hl => ?_, fun l hl hmem => ?_⟩
    · exact List.count_filter (keepsImport_iff.mpr hl)
    · exact keepsImport_iff.mp (List.mem_filter.mp hmem).2 hl

/-! ## Filtering again -/

/-- Every line of what is left stays; the empty line does that is left of nothing. -/
theorem not_leftOut_of_mem_filterImports {text l : List Char} (h : l ∈ lines (filterImports text)) :
    ¬ LeftOut l := by
  rw [← keepsImport_iff]
  rw [lines_filterImports] at h
  split at h
  · rw [List.mem_singleton.mp h]
    decide
  · exact (List.mem_filter.mp h).2

/-- A text comes back as it is exactly if all of its lines stay. -/
theorem filterImports_eq_self_iff {text : List Char} :
    filterImports text = text ↔ ∀ l ∈ lines text, ¬ LeftOut l := by
  constructor
  · intro h l hl
    rw [← h] at hl
    exact not_leftOut_of_mem_filterImports hl
  · intro h
    have hall : (lines text).filter keepsImport = lines text :=
      List.filter_eq_self.mpr fun l hl => keepsImport_iff.mpr (h l hl)
    rw [filterImports, hall, unlines_lines]

/-- What is left of a text are its lines that stay, joined again, and these are its lines, or one
empty line if none stays. Filtering it once more changes nothing. -/
theorem filterImports_leaves (text : List Char) :
    ∃ kept, LinesLeft (lines text) kept ∧ filterImports text = unlines kept ∧
      (kept ≠ [] → lines (filterImports text) = kept) ∧
      (kept = [] → filterImports text = [] ∧ lines (filterImports text) = [[]]) ∧
      filterImports (filterImports text) = filterImports text := by
  refine ⟨(lines text).filter keepsImport, linesLeft_iff.mpr rfl, rfl, fun hne => ?_, fun hnone => ?_,
    filterImports_eq_self_iff.mpr fun _ => not_leftOut_of_mem_filterImports⟩
  · rw [lines_filterImports, if_neg hne]
  · rw [lines_filterImports, if_pos hnone, filterImports, hnone]
    exact ⟨rfl, rfl⟩

/-- Nothing stays of these two lines. -/
example : filterImports "\tManyToOne,\n  Index".toList = [] := by decide

end CompanyRegister.Source
