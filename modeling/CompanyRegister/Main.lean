import CompanyRegister.Command.Run

/-!
# The program

The command line on the files of the system: `schemagate` with its commands. Everything that is
decided is decided by `Command.run`; here files are read and written and texts printed.
-/

namespace CompanyRegister.Program

open Command Files Store

/-- The reason that an error number of the system stands for. Some calls give it negated. -/
def reasonOfCode (code : UInt32) (details : String) : Reason :=
  let code := if 2147483648 ≤ code then 0 - code else code
  if code = 2 then .missing
  else if code = 17 then .exists
  else if code = 20 then .notDirectory
  else if code = 21 then .isDirectory
  else if code = 36 then .nameTooLong
  else .other s!"{details} (os error {code})"

/-- The reason behind an error of the system. -/
def reasonOf : IO.Error → Reason
  | .noFileOrDirectory _ code details | .noSuchThing _ code details
  | .alreadyExists _ code details | .inappropriateType _ code details
  | .invalidArgument _ code details | .permissionDenied _ code details
  | .resourceExhausted _ code details | .otherError code details =>
    reasonOfCode code details
  | e => .other (ToString.toString e)

/-- What an action comes to, with the reason if it fails. -/
def attempt {α : Type} (action : IO α) : IO (Except Reason α) := do
  try
    return .ok (← action)
  catch e =>
    return .error (reasonOf e)

def readText (p : Pathname) : IO (Except Reason String) := do
  return (← attempt (IO.FS.readBinFile p.toString)).bind Tree.textOf

/-- Open the database in a file, and write the file if that has changed it. -/
def openDatabase (p : Pathname) : IO (Outcome Store.Fault Unit) := do
  let refused := Database.refuseOpening "file" (.cannotOpen p.toString)
  let content ← attempt (IO.FS.readBinFile p.toString)
  match content with
  | .error .missing | .ok _ =>
    let (o, new?) := Image.openFile ((content.toOption.map ByteArray.toList).getD [])
    match new? with
    | none => return o
    | some new =>
      match ← attempt (IO.FS.writeBinFile p.toString new.toByteArray) with
      | .ok () => return o
      | .error _ => return refused
  | .error _ => return refused

/-- Access to the files of the system. -/
def access : Access IO where
  read := readText
  write p text := attempt (IO.FS.writeFile p.toString text)
  makeDirectories p := attempt (IO.FS.createDirAll p.toString)
  openDatabase := openDatabase

/-- Append the events of a report to the file of its log. -/
def writeLog (r : Report) : IO Unit := do
  if let some settings := r.log? then
    let file := settings.dir.toString ++ "/schemagate_rCURRENT.log"
    let admitted := r.events.filter fun e => settings.level.admits e.level
    let handle ← IO.FS.Handle.mk file .append
    admitted.forM fun e => handle.putStrLn e.line

end CompanyRegister.Program

open CompanyRegister in
def main (arguments : List String) : IO UInt32 := do
  let names := [Command.Key.logLevel, Command.Key.logDir].filterMap Command.Key.envName?
  let values ← names.filterMapM fun name => do
    return (← IO.getEnv name).map fun value => (name, value)
  let r ← Command.run Program.access (fun name => values.lookup name)
    (arguments.map String.toList)
  Program.writeLog r
  IO.print (String.ofList r.out)
  IO.eprint (String.ofList r.err)
  return r.code
