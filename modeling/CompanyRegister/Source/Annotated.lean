import CompanyRegister.Source.ColumnBlock
import CompanyRegister.Source.Imports
import CompanyRegister.Log.Event

/-!
# Entity sources

An entity source is made of blocks with empty lines between them. The last import block gives the
imports, each column block a column; relations and blank blocks are left out.

    source ──blocks──▶ blocks ──ColumnBlock.parse──▶ columns ──render──▶ annotated source

The first block that cannot be read decides the outcome.
-/

namespace CompanyRegister.Source

open Text

/-- What a block of a source is. -/
inductive BlockKind
  | imports
  | blank
  | relation
  | column
  deriving DecidableEq, Repr

/-- What tells that a block is about a relation. -/
def relationMarks : List (List Char) :=
  "@JoinColumn".toList :: RelationKind.all.map fun k => '@' :: k.name.toList

def BlockKind.of (block : List Char) : BlockKind :=
  if startsWith "import".toList block then .imports
  else if isAllBlank block then .blank
  else if relationMarks.any fun mark => contains mark block then .relation
  else .column

def sourceBlocks (source : List Char) : List (List Char) := blocks (joinLineEnds source)

/-- The last import block, empty if there is none. -/
def importBlock (bs : List (List Char)) : List Char :=
  (bs.filter fun b => BlockKind.of b == .imports).getLast?.getD []

def columnBlocks (bs : List (List Char)) : List (List Char) :=
  bs.filter fun b => BlockKind.of b == .column

/-- The decorators that columns use. -/
def usedBy (columns : List ColumnBlock) : ValidatorImports :=
  columns.foldl (fun v c => v.register c.type c.optional) {}

def assemble (imports : List Char) (columns : List ColumnBlock) : List Char :=
  filterImports imports ++ '\n' :: ((usedBy columns).statement ++ ['\n', '\n'] ++
    columns.flatMap (fun c => c.render ++ ['\n', '\n']) ++ ['\x7d'])

/-- The columns of a source, the first without its index decorators. -/
def readColumns (o : Options) (source : List Char) : Except Fault (List ColumnBlock) :=
  match (columnBlocks (sourceBlocks source)).mapM (ColumnBlock.parse o) with
  | .error f => .error f
  | .ok [] => .error .noColumns
  | .ok (first :: rest) => .ok (first.stripIndex :: rest)

def annotate (o : Options) (source : List Char) : Except Fault (List Char) :=
  (readColumns o source).map (assemble (importBlock (sourceBlocks source)))

/-! ### Events -/

/-- Whether a block is a column that can be read. -/
def isReadable (o : Options) (block : List Char) : Bool :=
  match ColumnBlock.parse o block with
  | .ok _ => true
  | .error _ => false

/-- One event for each relation left out, up to the first column that cannot be read. -/
def skipEvents (o : Options) : List (List Char) → List Log.Event
  | [] => []
  | b :: bs =>
    match BlockKind.of b with
    | .relation => .relationSkipped :: skipEvents o bs
    | .column => if isReadable o b then skipEvents o bs else []
    | _ => skipEvents o bs

/-- What is reported while a source is annotated. -/
def annotateEvents (o : Options) (source : List Char) : List Log.Event :=
  skipEvents o (sourceBlocks source) ++
    match readColumns o source with
    | .ok columns => [.annotated columns.length]
    | .error _ => []

end CompanyRegister.Source
