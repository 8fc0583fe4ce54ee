import CompanyRegister.Command.Line
import CompanyRegister.Company.Document
import CompanyRegister.Log.Session
import CompanyRegister.Schema.Company
import CompanyRegister.Source.File

/-!
# Running commands

A command reads and writes files through the access it is given and comes to a `Report`: what is
printed, the exit code and the events for the log.
-/

namespace CompanyRegister.Command

open Files

/-- What a command comes to. -/
structure Report where
  code : UInt32 := 0
  out : List Char := []
  err : List Char := []
  events : List Log.Event := []
  /-- The log that the events belong to. -/
  log? : Option Log.Settings := none

namespace Report

/-- Success, with a text and a line end printed. -/
def printed (text : List Char) : Report := { out := text ++ ['\n'] }

/-- Failure, with a message and what lies behind it. -/
def failed (message : String) (cause : Option String) : Report where
  code := 1
  err := "Error: ".toList ++ message.toList ++
    (match cause with
      | some c => "\n\nCaused by:\n    ".toList ++ c.toList
      | none => []) ++ ['\n']

/-- The report with events before its own. -/
def after (events : List Log.Event) (r : Report) : Report := { r with events := events ++ r.events }

end Report

/-- How to use the program. -/
def usage : List Char :=
  ("Usage: schemagate [OPTIONS] <COMMAND>\n\n" ++
    "Commands:\n" ++
    "  annotate <FILE> [--output <FILE>] [--ignore-default-marker <MARKER>]...\n" ++
    "  validate <FILE>\n" ++
    "  schema\n" ++
    "  init-db <PATH>\n\n" ++
    "Options:\n" ++
    "  --log-level <LEVEL>\n" ++
    "  --log-dir <DIR>\n" ++
    "  -h, --help\n" ++
    "  -V, --version\n").toList

variable {m : Type → Type} [Monad m]

/-- Annotate the source in a file, and print the result or write it to a file. -/
def annotate (access : Access m) (file : Pathname) (output : Option Pathname) (o : Source.Options) :
    m Report := do
  let content ← access.read file
  let events := Source.annotateFileEvents o content
  match Source.annotateFile o file content, output with
  | .error f, _ => return (Report.failed f.message f.cause?).after events
  | .ok text, none => return (Report.printed text).after events
  | .ok text, some path =>
    match ← access.write path (String.ofList text) with
    | .ok () => return ({} : Report).after events
    | .error reason =>
      return (Report.failed s!"failed to write `{path.toString}`" reason.message).after events

/-- The record that a document describes, or why it describes none. -/
def recordOf (text : String) : Except (List Violation) Company := do
  (← Input.ofJson text.toList).toCompany

/-- The report of a document that breaks rules. -/
def rejected (file : Pathname) (vs : List Violation) : Report :=
  let r := Report.failed s!"{file.toString} rejected with {vs.length} violation(s)" none
  { r with
    err := vs.flatMap (fun v => "  - ".toList ++ v.message.toList ++ ['\n']) ++ r.err
    events := [.documentRejected vs.length] }

/-- Validate the document in a file, and print the record that it describes. -/
def validate (access : Access m) (file : Pathname) : m Report := do
  match ← access.read file with
  | .error reason =>
    return Report.failed s!"failed to read `{file.toString}`" reason.message
  | .ok text =>
    match recordOf text with
    | .ok c => return Report.printed c.toPrettyJson
    | .error vs => return rejected file vs

/-- Open the database in a file, bring it up to date and print its version. -/
def initDb (access : Access m) (path : Pathname) : m Report := do
  let o ← access.openDatabase path
  match o.answer, o.database.versionNumber with
  | .error f, _ | _, .error f => return (Report.failed f.message f.cause?).after o.events
  | .ok (), .ok version =>
    return (Report.printed s!"{path.toString} ready at schema version {version}".toList).after
      o.events

/-- The options of an annotation with these markers; without any the standard ones. -/
def optionsOf (markers : List (List Char)) : Source.Options :=
  if markers = [] then .standard else ⟨markers⟩

def Task.run (access : Access m) : Task → m Report
  | .annotate file output markers => Command.annotate access file output (optionsOf markers)
  | .validate file => Command.validate access file
  | .schema => return Report.printed Company.entity.describe
  | .initDb path => Command.initDb access path

/-- Carry out a task, and keep a log of it if a directory for one is given. -/
def Invocation.run (access : Access m) (i : Invocation) : m Report := do
  match i.logDir with
  | none => i.task.run access
  | some dir =>
    match Log.Settings.parse (i.logLevel.getD Log.Level.standard.name.toList) dir with
    | .error f => return Report.failed f.message f.cause?
    | .ok settings =>
      match ← access.makeDirectories settings.dir with
      | .error reason =>
        let f : Log.Fault := .cannotCreate settings.dir reason
        return Report.failed f.message f.cause?
      | .ok () =>
        let r ← i.task.run access
        return { r.after [Log.Session.opening settings, .commandStarted version] with
          log? := some settings }

/-- Do what a command line asks for. -/
def run (access : Access m) (environment : String → Option String) (arguments : List (List Char)) :
    m Report :=
  match parse environment arguments with
  | .ok i => i.run access
  | .error .version => return Report.printed s!"schemagate {version}".toList
  | .error .help => return { out := usage }
  | .error .usage => return { code := 2, err := usage }

end CompanyRegister.Command
