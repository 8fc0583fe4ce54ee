import CompanyRegister.Files.Pathname
import CompanyRegister.Log.Event
import CompanyRegister.Text.Blank

/-!
# Settings of a log

A log has a level, which says which events it records, and a directory for its file. Both are given
as text; blanks around them do not count, and the directory must be an absolute path.
-/

namespace CompanyRegister.Log

open Files Text

/-- Why a log cannot be kept as asked. -/
inductive Fault
  | unsupportedLevel (given : String)
  | emptyDir
  | relativeDir (dir : Pathname)
  | cannotCreate (dir : Pathname) (reason : Reason)
  | cannotStart (reason : String)
  | levelConflict (active requested : Level)
  | dirConflict (active requested : Pathname)
  deriving DecidableEq, Repr

def Fault.message : Fault → String
  | unsupportedLevel given =>
    s!"unsupported log level `{given}`; expected trace|debug|info|warn|error"
  | emptyDir => "log directory cannot be empty"
  | relativeDir dir => s!"log directory must be an absolute path, got `{dir.toString}`"
  | cannotCreate dir reason =>
    s!"failed to create log directory `{dir.toString}`: {reason.message}"
  | cannotStart reason => s!"failed to start logger: {reason}"
  | levelConflict active requested =>
    s!"logging already active at level `{active.name}`; refusing to switch to `{requested.name}`"
  | dirConflict active requested =>
    s!"logging already active in `{active.toString}`; refusing to switch to `{requested.toString}`"

def Fault.cause? : Fault → Option String
  | cannotCreate _ reason => some reason.message
  | _ => none

def Level.all : List Level := [.trace, .debug, .info, .warn, .error]

/-- The level that a text names. Upper and lower case are one, and `warning` is another name. -/
def Level.parse (text : List Char) : Except Fault Level :=
  let name := (trim text).map Char.toLower
  if name = "warning".toList then .ok .warn
  else
    match Level.all.find? fun l => l.name.toList = name with
    | some l => .ok l
    | none => .error (.unsupportedLevel (String.ofList name))

structure Settings where
  level : Level
  dir : Pathname
  deriving DecidableEq, Repr

namespace Settings

def parseDir (text : List Char) : Except Fault Pathname :=
  let dir : Pathname := ⟨trim text⟩
  if dir.text = [] then .error .emptyDir
  else if dir.isAbsolute then .ok dir
  else .error (.relativeDir dir)

/-- The settings that a level and a directory give. The level is looked at first. -/
def parse (level dir : List Char) : Except Fault Settings := do
  let level ← Level.parse level
  return ⟨level, ← parseDir dir⟩

end Settings

end CompanyRegister.Log
