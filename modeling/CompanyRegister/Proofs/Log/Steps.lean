import CompanyRegister.Log.Session
import CompanyRegister.Register.Registrar
import CompanyRegister.Source.Annotated

/-!
# Steps and what they report

What a process does that its log may be about is a step. Annotating a source, opening a store and
registering an input report events of work (`Event.IsWork`), and a panic is reported as one event
whose line is one line, whatever it was about. That a log was started is reported by no step: it is
an event of the log.
-/

namespace CompanyRegister.Log

/-! ## Events -/

namespace Event

def isOpening : Event → Bool
  | loggingStarted _ _ _ => true
  | _ => false

def isPanic : Event → Bool
  | panicCaptured _ => true
  | _ => false

/-- Whether an event is of the work that is done, and not of the log itself. -/
def IsWork (e : Event) : Prop := e.isOpening = false ∧ e.isPanic = false

theorem isWork_skipEvents (o : Source.Options) (bs : List (List Char)) :
    ∀ e ∈ Source.skipEvents o bs, e.IsWork := by
  induction bs with
  | nil => exact List.forall_mem_nil IsWork
  | cons b bs ih =>
    rw [Source.skipEvents]
    split
    · exact List.forall_mem_cons.mpr ⟨⟨rfl, rfl⟩, ih⟩
    · split
      · exact ih
      · exact List.forall_mem_nil IsWork
    · exact ih

theorem isWork_annotateEvents (o : Source.Options) (source : List Char) :
    ∀ e ∈ Source.annotateEvents o source, e.IsWork := by
  rw [Source.annotateEvents, List.forall_mem_append]
  constructor
  · exact isWork_skipEvents o (Source.sourceBlocks source)
  · split
    · exact List.forall_mem_singleton.mpr ⟨rfl, rfl⟩
    · exact List.forall_mem_nil IsWork

theorem isWork_run (ms : List Store.Migration) (d : Store.Database) :
    ∀ e ∈ (Store.Migration.run ms d).2, e.IsWork := by
  induction ms generalizing d with
  | nil => exact List.forall_mem_nil IsWork
  | cons m ms ih =>
    rw [Store.Migration.run]
    split
    · exact List.forall_mem_nil IsWork
    · exact List.forall_mem_cons.mpr ⟨⟨rfl, rfl⟩, ih _⟩

theorem isWork_migrate (d : Store.Database) : ∀ e ∈ d.migrate.events, e.IsWork := by
  unfold Store.Database.migrate
  cases d.versionNumber with
  | error f => exact List.forall_mem_nil IsWork
  | ok version =>
    have hrun := isWork_run (Store.Migration.all.filter fun m => version < m.version) d
    dsimp only
    split
    · exact List.forall_mem_nil IsWork
    · generalize Store.Migration.run _ d = result at hrun ⊢
      obtain ⟨new | f, events⟩ := result
      · exact hrun
      · exact hrun

theorem isWork_openAs (mode : String) (d : Store.Database) :
    ∀ e ∈ (d.openAs mode).events, e.IsWork := by
  have hmigrate := isWork_migrate d
  unfold Store.Database.openAs
  dsimp only
  cases d.migrate.answer with
  | ok n =>
    dsimp only
    rw [List.forall_mem_cons, List.forall_mem_append, List.forall_mem_singleton]
    exact ⟨⟨rfl, rfl⟩, hmigrate, ⟨rfl, rfl⟩⟩
  | error f =>
    dsimp only
    rw [List.forall_mem_cons, List.forall_mem_append, List.forall_mem_singleton]
    exact ⟨⟨rfl, rfl⟩, hmigrate, ⟨rfl, rfl⟩⟩

theorem isWork_create (c : Company) (d : Store.Database) :
    ∀ e ∈ (Register.create c d).events, e.IsWork := by
  unfold Register.create
  cases c.validate with
  | error v => exact List.forall_mem_nil IsWork
  | ok =>
    dsimp only
    cases d.insertReturning Register.tableName c.cells Field.companyId.column with
    | error f => exact List.forall_mem_nil IsWork
    | ok r =>
      obtain ⟨cell, e⟩ := r
      dsimp only
      cases Company.int16OfCell .companyId cell with
      | error f => exact List.forall_mem_nil IsWork
      | ok id => exact List.forall_mem_singleton.mpr ⟨rfl, rfl⟩

theorem events_readBack (deed : Registrar.Deed) (id : Int16) (d : Store.Database) :
    (Registrar.readBack Register.repository deed id d).events = [] := by
  unfold Registrar.readBack Store.Outcome.andThen
  split
  · rfl
  · rfl

theorem isWork_register (i : Input) (d : Store.Database) :
    ∀ e ∈ (Registrar.register Register.repository i d).events, e.IsWork := by
  unfold Registrar.register
  cases i.toCompany with
  | error vs => exact List.forall_mem_singleton.mpr ⟨rfl, rfl⟩
  | ok c =>
    have hcreate : ∀ e ∈
        ((Register.repository.create c d).mapError Registrar.Fault.register).events, e.IsWork :=
      isWork_create c d
    dsimp only
    unfold Store.Outcome.andThen
    split
    · exact hcreate
    · dsimp only
      rw [events_readBack, List.append_nil]
      exact hcreate

end Event

/-! ## Panics -/

/-- A panic is an error, so every log admits it. -/
theorem Event.admits_of_isPanic {e : Event} (he : e.isPanic = true) (l : Level) :
    l.admits e.level = true := by
  cases e with
  | panicCaptured payload => cases l <;> rfl
  | _ => cases he

/-- Whether a text is on one line. -/
def OneLine (text : String) : Prop := '\n' ∉ text.toList ∧ '\r' ∉ text.toList

instance (text : String) : Decidable (OneLine text) := by
  unfold OneLine
  infer_instance

theorem oneLine_append {s t : String} (hs : OneLine s) (ht : OneLine t) : OneLine (s ++ t) := by
  unfold OneLine
  rw [String.toList_append, List.mem_append, List.mem_append, not_or, not_or]
  exact ⟨⟨hs.1, ht.1⟩, ⟨hs.2, ht.2⟩⟩

theorem oneLine_payloadText (payload : Option String) : OneLine (Session.payloadText payload) := by
  cases payload with
  | none => decide
  | some message =>
    have hline : ∀ c ∈ Session.sanitize Session.maxPayload message.toList, c ≠ '\n' ∧ c ≠ '\r' := by
      intro c hc
      rcases List.mem_append.mp hc with hc | hc
      · obtain ⟨d, -, rfl⟩ := List.mem_map.mp (List.mem_of_mem_take hc)
        split
        · decide
        · next hd => exact not_or.mp hd
      · split at hc
        · have hdot : c = '.' := by simpa using hc
          rw [hdot]
          decide
        · cases hc
    unfold OneLine Session.payloadText
    rw [String.toList_ofList]
    exact ⟨fun h => (hline _ h).1 rfl, fun h => (hline _ h).2 rfl⟩

theorem oneLine_panicCaptured {payload : String} (h : OneLine payload) :
    OneLine (Event.panicCaptured payload).line := by
  have hline : (Event.panicCaptured payload).line = "ERROR " ++
      ("event=panic_captured module=core status=error location=_ payload=" ++ payload) := rfl
  rw [hline]
  apply oneLine_append
  · decide
  · apply oneLine_append
    · decide
    · exact h

/-! ## Steps -/

/-- What a process does that its log may be about. -/
inductive Step
  | init (level dir : List Char)
  | status
  | annotate (o : Source.Options) (source : List Char)
  | openStore (mode : String) (d : Store.Database)
  | register (i : Input) (d : Store.Database)
  | panic (payload : Option String)

namespace Step

/-- What a panic is recorded as. -/
def panic? : Step → Option Event
  | panic payload => some (.panicCaptured (Session.payloadText payload))
  | _ => none

/-- What is reported in a step. The start of a log is no event of the step that asks for it. -/
def events : Step → List Event
  | init _ _ | status => []
  | annotate o source => Source.annotateEvents o source
  | openStore mode d => (d.openAs mode).events
  | register i d => (Registrar.register Register.repository i d).events
  | panic payload => [.panicCaptured (Session.payloadText payload)]

/-- A step is a panic, with one event, or has events of work. -/
theorem events_cases (x : Step) :
    (∃ payload, x = .panic payload) ∨ x.panic? = none ∧ ∀ e ∈ x.events, e.IsWork := by
  cases x with
  | init level dir => exact .inr ⟨rfl, List.forall_mem_nil Event.IsWork⟩
  | status => exact .inr ⟨rfl, List.forall_mem_nil Event.IsWork⟩
  | annotate o source => exact .inr ⟨rfl, Event.isWork_annotateEvents o source⟩
  | openStore mode d => exact .inr ⟨rfl, Event.isWork_openAs mode d⟩
  | register i d => exact .inr ⟨rfl, Event.isWork_register i d⟩
  | panic payload => exact .inl ⟨payload, rfl⟩

theorem not_isOpening_events (x : Step) : ∀ e ∈ x.events, e.isOpening = false := by
  intro e he
  obtain ⟨payload, rfl⟩ | ⟨-, hwork⟩ := x.events_cases
  · rw [List.mem_singleton.mp he]
    rfl
  · exact (hwork e he).1

theorem filter_isPanic_events (x : Step) : x.events.filter Event.isPanic = x.panic?.toList := by
  obtain ⟨payload, rfl⟩ | ⟨hpanic, hwork⟩ := x.events_cases
  · rfl
  · rw [hpanic]
    apply List.filter_eq_nil_iff.mpr
    intro e he
    rw [(hwork e he).2]
    exact Bool.false_ne_true

end Step

end CompanyRegister.Log
