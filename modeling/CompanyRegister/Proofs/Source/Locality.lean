import CompanyRegister.Proofs.Source.Columns

/-!
# What of a source counts

An entity source counts by its column blocks, in their order, and by its last import block. Where
that block stands among the columns, what other import blocks come before it, and where relations
and blank blocks are strewn in does not matter, be the outcome a text or a fault
(`annotate_unblocks_congr`).

The blocks of a source are given as a list and joined with empty lines; that reading cuts the source
into the same blocks again is `sourceBlocks_unblocks`.
-/

namespace CompanyRegister.Source

open Text

/-! ## Blocks of a joined source -/

theorem sourceBlocks_unblocks {bs : List (List Char)} (hne : bs ≠ []) (h : ∀ b ∈ bs, IsBlock b) :
    sourceBlocks (unblocks bs) = bs := by
  rw [sourceBlocks, joinLineEnds_eq_self (not_mem_unblocks h), blocks_unblocks hne h]

/-- Joining blocks neither makes nor loses a column. -/
theorem columnBlocks_unblocks {bs : List (List Char)} (h : ∀ b ∈ bs, IsBlock b) :
    columnBlocks (sourceBlocks (unblocks bs)) = columnBlocks bs := by
  by_cases hne : bs = []
  -- No blocks make the empty source, which is one blank block.
  · subst hne
    rfl
  · rw [sourceBlocks_unblocks hne h]

theorem importBlock_unblocks {bs : List (List Char)} (h : ∀ b ∈ bs, IsBlock b) :
    importBlock (sourceBlocks (unblocks bs)) = importBlock bs := by
  by_cases hne : bs = []
  · subst hne
    rfl
  · rw [sourceBlocks_unblocks hne h]

/-! ## Locality -/

theorem annotate_eq_error_iff {o : Options} {source : List Char} {f : Fault} :
    annotate o source = .error f ↔ readColumns o source = .error f := by
  rw [annotate, map_eq_error_iff]

/-- Sources with the same columns and the same last import block come to the same. -/
theorem annotate_congr {s t : List Char}
    (himports : importBlock (sourceBlocks s) = importBlock (sourceBlocks t))
    (hcolumns : columnBlocks (sourceBlocks s) = columnBlocks (sourceBlocks t)) (o : Options) :
    annotate o s = annotate o t := by
  rw [annotate, annotate, readColumns, readColumns, hcolumns, himports]

/-- Two lists of blocks with the same columns and the same last import block make sources that come
to the same: the same text, or the fault of the first column that cannot be read, or that there is
no column. -/
theorem annotate_unblocks_congr {bs cs : List (List Char)} (hbs : ∀ b ∈ bs, IsBlock b)
    (hcs : ∀ b ∈ cs, IsBlock b) (himports : importBlock bs = importBlock cs)
    (hcolumns : columnBlocks bs = columnBlocks cs) (o : Options) :
    annotate o (unblocks bs) = annotate o (unblocks cs) ∧
      ∀ f, annotate o (unblocks bs) = .error f ↔
        FirstFault o (columnBlocks bs) f ∨ columnBlocks bs = [] ∧ f = .noColumns := by
  constructor
  · apply annotate_congr
    · rw [importBlock_unblocks hbs, importBlock_unblocks hcs, himports]
    · rw [columnBlocks_unblocks hbs, columnBlocks_unblocks hcs, hcolumns]
  · intro f
    rw [annotate_eq_error_iff, readColumns_eq_error_iff, columnBlocks_unblocks hbs]

/-- Two columns, the second of a type that no rule is about, with imports and relations strewn
in. -/
def scattered : List (List Char) :=
  ["import './Quotes';", "@ManyToOne()\nquote: Quotes;", "@Column()\nrank: number;",
    "import 'typeorm';", "@OneToMany()\nnotes: Notes[];", "@Column()\ntotal: bigint;"].map
    String.toList

/-- The same columns behind the import block alone. -/
def gathered : List (List Char) :=
  ["import 'typeorm';", "@Column()\nrank: number;", "@Column()\ntotal: bigint;"].map
    String.toList

theorem annotate_scattered :
    (∀ b ∈ scattered, IsBlock b) ∧ (∀ b ∈ gathered, IsBlock b) ∧
      importBlock scattered = importBlock gathered ∧
      columnBlocks scattered = columnBlocks gathered ∧
      annotate .standard (unblocks scattered) = annotate .standard (unblocks gathered) ∧
      annotate .standard (unblocks scattered) =
        .error (.unsupportedType "total".toList "bigint".toList) := by
  have hscattered : ∀ b ∈ scattered, IsBlock b := by decide
  have hgathered : ∀ b ∈ gathered, IsBlock b := by decide
  have himports : importBlock scattered = importBlock gathered := by decide
  have hcolumns : columnBlocks scattered = columnBlocks gathered := by decide
  have hlocal := annotate_unblocks_congr hscattered hgathered himports hcolumns .standard
  refine ⟨hscattered, hgathered, himports, hcolumns, hlocal.1, (hlocal.2 _).mpr (Or.inl ?_)⟩
  rw [hcolumns]
  exact .later rfl (.here rfl)

end CompanyRegister.Source
