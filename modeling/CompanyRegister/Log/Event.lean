/-!
# Log events

What the library reports while it works is a list of events. An event is a value; its level and its
text are functions of it. Durations and the place of a captured panic are not known to a value, so
they are written `_`.
-/

namespace CompanyRegister.Log

/-- How important an event is, least important first. -/
inductive Level
  | trace
  | debug
  | info
  | warn
  | error
  deriving DecidableEq, Repr

namespace Level

/-- The rank of a level: an active level admits events of its own rank and above. -/
def rank : Level → Nat
  | trace => 0
  | debug => 1
  | info => 2
  | warn => 3
  | error => 4

/-- The name of a level in settings. -/
def name : Level → String
  | trace => "trace"
  | debug => "debug"
  | info => "info"
  | warn => "warn"
  | error => "error"

/-- The name of a level in front of an event. -/
def label : Level → String
  | trace => "TRACE"
  | debug => "DEBUG"
  | info => "INFO"
  | warn => "WARN"
  | error => "ERROR"

/-- Whether a log of this level records an event of level `l`. -/
def admits (active l : Level) : Bool := active.rank ≤ l.rank

/-- The level of a log for which none was given. -/
def standard : Level := debug

end Level

/-- Something worth reporting. -/
inductive Event
  | relationSkipped
  | annotated (columns : Nat)
  | fileAnnotated (bytesIn bytesOut : Nat)
  | storeOpening (mode : String)
  | storeOpened (mode : String) (applied : Nat)
  | storeNotOpened (mode reason : String)
  | storeNotReady (mode reason : String)
  | migrated (version : Nat) (name : String)
  | companyCreated (id : Int)
  | companyUpdated (id : Int)
  | companyDeleted (id : Int)
  | companiesListed (count : Nat)
  | inputRejected (violations : Nat)
  | loggingStarted (level : Level) (dir version : String)
  | panicCaptured (payload : String)
  | commandStarted (version : String)
  | documentRejected (violations : Nat)
  deriving DecidableEq, Repr

namespace Event

def level : Event → Level
  | relationSkipped | annotated _ | companiesListed _ => .debug
  | fileAnnotated _ _ | storeOpening _ | storeOpened _ _ | migrated _ _ | companyCreated _
  | companyUpdated _ | companyDeleted _ | loggingStarted _ _ _ | commandStarted _ => .info
  | inputRejected _ | documentRejected _ => .warn
  | storeNotOpened _ _ | storeNotReady _ _ | panicCaptured _ => .error

/-- The text of an event: keys and values. -/
def text : Event → String
  | relationSkipped => "event=annotate_skip module=annotate reason=relation"
  | annotated columns => s!"event=annotate module=annotate status=ok columns={columns}"
  | fileAnnotated bytesIn bytesOut =>
    s!"event=annotate_file module=annotate status=ok bytes_in={bytesIn} bytes_out={bytesOut}"
  | storeOpening mode => s!"event=db_open module=db status=start mode={mode}"
  | storeOpened mode applied =>
    s!"event=db_open module=db status=ok mode={mode} duration_ms=_ migrations_applied={applied}"
  | storeNotOpened mode reason =>
    s!"event=db_open module=db status=error mode={mode} duration_ms=_ " ++
      s!"error_code=db_open_failed error={reason}"
  | storeNotReady mode reason =>
    s!"event=db_open module=db status=error mode={mode} duration_ms=_ " ++
      s!"error_code=db_bootstrap_failed error={reason}"
  | migrated version name =>
    s!"event=db_migrate module=db status=ok version={version} name={name}"
  | companyCreated id => s!"event=company_create module=repo status=ok company_id={id}"
  | companyUpdated id => s!"event=company_update module=repo status=ok company_id={id}"
  | companyDeleted id => s!"event=company_delete module=repo status=ok company_id={id}"
  | companiesListed count => s!"event=company_list module=repo status=ok count={count}"
  | inputRejected violations =>
    "event=company_register module=service status=error error_code=validation_failed " ++
      s!"violations={violations}"
  | loggingStarted level dir version =>
    s!"event=logging_init module=core status=ok level={level.name} log_dir={dir} " ++
      s!"version={version}"
  | panicCaptured payload =>
    s!"event=panic_captured module=core status=error location=_ payload={payload}"
  | commandStarted version => s!"event=cli_start module=cli status=ok version={version}"
  | documentRejected violations =>
    s!"event=cli_validate module=cli status=error violations={violations}"

/-- An event as a line: its level and its text. -/
def line (e : Event) : String := s!"{e.level.label} {e.text}"

end Event

end CompanyRegister.Log
