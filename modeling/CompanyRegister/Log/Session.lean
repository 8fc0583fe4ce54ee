import CompanyRegister.Log.Writer

/-!
# Logging sessions

A session keeps at most one log. The first settings that can be put into effect stay in effect;
asking for the same once more changes nothing, asking for others is refused. While a log is kept,
every event is handed to the writer of the session, in order; which of them it writes is decided by
the level that it was started with.

Nothing is written before a log is kept, and the first event of a log is that it was started.
-/

namespace CompanyRegister

def version : String := "0.1.0"

namespace Log

open Files

/-- What becomes of a process that may keep a log. -/
structure Session where
  files : Tree := {}
  writer : Writer := .standard
  journal : Journal := fun _ => []
  settings? : Option Settings := none

namespace Session

/-- Hand events to the writer of the log. -/
def record (events : List Event) (s : Session) : Session :=
  match s.settings? with
  | none => s
  | some settings =>
    let write (journal : Journal) (e : Event) := s.writer.write { settings } s.files e journal
    { s with journal := events.foldl write s.journal }

/-- Refuse settings that are not the active ones. The directory is compared first. -/
def requireSame (active requested : Settings) : Except Fault Unit :=
  if active.dir.sameAs requested.dir = false then
    .error (.dirConflict active.dir requested.dir)
  else if active.level ≠ requested.level then
    .error (.levelConflict active.level requested.level)
  else .ok ()

def opening (settings : Settings) : Event :=
  .loggingStarted settings.level settings.dir.toString version

/-- Begin to keep a log. A directory that was made for it stays, even if the log cannot be begun. -/
def activate (settings : Settings) (s : Session) : Except Fault Unit × Session :=
  match s.files.makeDirectories settings.dir with
  | .error reason => (.error (.cannotCreate settings.dir reason), s)
  | .ok files =>
    match s.writer.start { settings } files s.journal with
    | .error reason => (.error (.cannotStart reason), { s with files })
    | .ok journal =>
      (.ok (), record [opening settings] { s with files, journal, settings? := some settings })

/-- Ask for a log of this level in this directory. -/
def init (level dir : List Char) (s : Session) : Except Fault Unit × Session :=
  match Settings.parse level dir with
  | .error f => (.error f, s)
  | .ok requested =>
    match s.settings? with
    | none => s.activate requested
    | some active => (requireSame active requested, s)

def status (s : Session) : Option (Level × Pathname) := s.settings?.map fun x => (x.level, x.dir)

/-- The events of the log in a directory, if it has files. -/
def eventsIn (dir : Pathname) (s : Session) : Option (List Event) :=
  match s.files.directory? dir with
  | none => none
  | some l => if (s.journal l).isEmpty then none else some (s.journal l).flatten

/-! ### Panics -/

/-- The most characters of a payload that are recorded. -/
def maxPayload : Nat := 160

/-- A text on one line and not too long. -/
def sanitize (max : Nat) (text : List Char) : List Char :=
  let line := text.map fun c => if c = '\n' ∨ c = '\r' then ' ' else c
  line.take max ++ if max < line.length then ['.', '.', '.'] else []

/-- What is recorded of a payload. -/
def payloadText : Option String → String
  | some message => String.ofList (sanitize maxPayload message.toList)
  | none => "non-string panic payload"

/-- Record a panic; a payload that is no text is named as such. -/
def panic (payload : Option String) (s : Session) : Session :=
  s.record [.panicCaptured (payloadText payload)]

end Session

end Log

end CompanyRegister
