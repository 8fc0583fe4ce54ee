import CompanyRegister.Files.Pathname
import CompanyRegister.Source.Annotated

/-!
# Source files

Annotating a source that stands in a file, given what reading the file came to.
-/

namespace CompanyRegister.Source

open Files Text

/-- Why a source file cannot be annotated. -/
inductive FileFault
  | unreadable (path : Pathname) (reason : Reason)
  | source (f : Fault)
  deriving DecidableEq, Repr

def FileFault.message : FileFault → String
  | unreadable path reason =>
    s!"failed to read entity source `{path.toString}`: {reason.message}"
  | source f => f.message

def FileFault.cause? : FileFault → Option String
  | unreadable _ reason => some reason.message
  | source _ => none

def annotateFile (o : Options) (path : Pathname) (content : Except Reason String) :
    Except FileFault (List Char) :=
  match content with
  | .error reason => .error (.unreadable path reason)
  | .ok text => (annotate o text.toList).mapError .source

/-- What is reported while the source in a file is annotated. -/
def annotateFileEvents (o : Options) (content : Except Reason String) : List Log.Event :=
  match content with
  | .error _ => []
  | .ok text =>
    annotateEvents o text.toList ++
      match annotate o text.toList with
      | .ok out => [.fileAnnotated (byteCount text.toList) (byteCount out)]
      | .error _ => []

end CompanyRegister.Source
