import CompanyRegister.Text.Pieces

/-!
# Paths

A path is a text; its parts stand between slashes. Empty parts and the part `.` say nothing, so two
spellings of a path have the same parts if they differ in these alone. The part `..` goes up and is
kept, as what it leads to hangs on the files that are there.
-/

namespace CompanyRegister.Files

open Text

/-- Why something cannot be done with a file or a directory. -/
inductive Reason
  | missing
  | isDirectory
  | notDirectory
  | exists
  | nameTooLong
  | nulInPath
  /-- The content is no text. -/
  | notText
  /-- What else a system may say. -/
  | other (message : String)
  deriving DecidableEq, Repr

def Reason.message : Reason → String
  | missing => "No such file or directory (os error 2)"
  | isDirectory => "Is a directory (os error 21)"
  | notDirectory => "Not a directory (os error 20)"
  | .exists => "File exists (os error 17)"
  | nameTooLong => "File name too long (os error 36)"
  | nulInPath => "file name contained an unexpected NUL byte"
  | notText => "stream did not contain valid UTF-8"
  | other message => message

inductive Part
  | up
  | name (s : List Char)
  deriving DecidableEq, Repr

structure Pathname where
  text : List Char
  deriving DecidableEq, Repr

namespace Pathname

def ofString (s : String) : Pathname := ⟨s.toList⟩

def toString (p : Pathname) : String := String.ofList p.text

def isAbsolute (p : Pathname) : Bool := startsWith ['/'] p.text

/-- What stands between the slashes. -/
def pieces (p : Pathname) : List (List Char) := p.text.splitOn '/'

/-- The part that a piece stands for, if it says anything. -/
def part? (piece : List Char) : Option Part :=
  if piece = [] ∨ piece = ['.'] then none
  else if piece = ['.', '.'] then some .up
  else some (.name piece)

def parts (p : Pathname) : List Part := p.pieces.filterMap part?

/-- Whether a path can only be that of a directory, as it ends in a slash or in `.`. -/
def endsAsDirectory (p : Pathname) : Bool :=
  match p.pieces.getLast? with
  | some piece => piece == [] || piece == ['.']
  | none => false

/-- Whether two absolute paths are spellings of one path. -/
def sameAs (p q : Pathname) : Bool := p.parts == q.parts

end Pathname

end CompanyRegister.Files
