import CompanyRegister.Files.Tree
import CompanyRegister.Log.Settings

/-!
# Writers of logs

A log is written into files of one directory, always at the end of the last of them. A file that has
grown too long is followed by a new one, and of the older files only so many are kept.

    start ──▶ journal ──write──▶ journal ──write──▶ ⋯

Who writes is a parameter (`Writer`), as the register only asks for it; `Writer.standard` is one
that does what is asked. A journal is what there is of logs in directories, as it is read once
nothing is left in a buffer.
-/

namespace CompanyRegister.Log

open Files

/-- The files of the log in each directory, oldest first, with their events. -/
abbrev Journal := Location → List (List Event)

/-- What a writer is asked for. -/
structure Setup where
  settings : Settings
  /-- What the names of the files begin with. -/
  baseName : String := "schemagate"
  /-- How long a file may get before the next one follows, in bytes. -/
  maxBytes : Nat := 5 * 1024 * 1024
  /-- How many files are kept besides the last. -/
  maxFiles : Nat := 3
  /-- Whether a log that is there is gone on with. -/
  appends : Bool := true

/-- What writes logs. -/
structure Writer where
  /-- Begin a log, or say why that cannot be done. -/
  start : Setup → Tree → Journal → Except String Journal
  /-- Take an event that is reported while a log is kept. -/
  write : Setup → Tree → Event → Journal → Journal

namespace Setup

def level (setup : Setup) : Level := setup.settings.level

def dir (setup : Setup) : Pathname := setup.settings.dir

def admits (setup : Setup) (e : Event) : Bool := setup.level.admits e.level

/-- The last files of a log: as many as are kept, and the one that is written to. -/
def kept (setup : Setup) (files : List (List Event)) : List (List Event) :=
  files.drop (files.length - (setup.maxFiles + 1))

/-- How many bytes events take up, one a line. -/
def bytes (events : List Event) : Nat :=
  events.foldr (fun e n => e.line.utf8ByteSize + 1 + n) 0

/-- The files of a log with one more event. -/
def extended (setup : Setup) (e : Event) (files : List (List Event)) : List (List Event) :=
  match files.getLast? with
  | none => [[e]]
  | some last =>
    if bytes last ≤ setup.maxBytes then files.dropLast ++ [last ++ [e]]
    else setup.kept (files ++ [[e]])

end Setup

namespace Writer

/-- Take an event in the directory that is asked for, if there is one. -/
def add (setup : Setup) (tree : Tree) (e : Event) (journal : Journal) : Journal :=
  match tree.directory? setup.dir with
  | none => journal
  | some l =>
    let files := setup.extended e (journal l)
    fun m => if m = l then files else journal m

/-- A writer that can always begin. -/
def standard : Writer where
  start _ _ journal := .ok journal
  write setup tree e journal := if setup.admits e then add setup tree e journal else journal

end Writer

end CompanyRegister.Log
