import Mathlib.Data.List.Basic
import CompanyRegister.Proofs.Files.Directories
import CompanyRegister.Proofs.Log.Steps
import CompanyRegister.Proofs.Log.Writer
import CompanyRegister.Proofs.Text.Plain

/-!
# Sessions from step to step

A process asks for a log, asks about it, works and panics, in any order and any number of times.

    silent ──a start that fails, work, a panic──▶ silent
       │
    the first start that succeeds
       ▼
    keeps a log ──anything──▶ keeps the same log

A session stays silent up to the first start that succeeds, and from then on it keeps that log: what
one step does (`stillSilent_step`, `step_of_active`) says by induction what any number of them does.
While a log is kept, steps hand what they report to the writer one event after the other, so what
the log holds is known of any writer that does what is documented of writers (`Holds`).
-/

namespace CompanyRegister.Log

open Files Text

/-! ## Settings -/

namespace Settings

variable {level dir : List Char} {s : Settings}

theorem parse_eq_ok_iff :
    Settings.parse level dir = .ok s ↔
      Level.parse level = .ok s.level ∧ parseDir dir = .ok s.dir := by
  obtain ⟨l, d⟩ := s
  unfold Settings.parse
  cases Level.parse level with
  | error f => simp [bind, Except.bind]
  | ok l' =>
    cases parseDir dir with
    | error f => simp [bind, Except.bind]
    | ok d' => simp [bind, Except.bind, pure, Except.pure]

theorem parse_name (l : Level) : Level.parse l.name.toList = .ok l := by
  cases l <;> rfl

theorem isAbsolute_of_parseDir {d : Pathname} (h : parseDir dir = .ok d) : d.isAbsolute = true := by
  unfold parseDir at h
  dsimp only at h
  split at h
  · cases h
  · split at h
    · next habsolute =>
      cases h
      exact habsolute
    · cases h

theorem parseDir_text {d : Pathname} (h : parseDir dir = .ok d) : parseDir d.text = .ok d := by
  have htrim : trim (trim dir) = trim dir := strip_strip isBlank dir
  unfold parseDir at h ⊢
  dsimp only at h ⊢
  split at h
  · cases h
  · next hne =>
    split at h
    · next habsolute =>
      cases h
      dsimp only
      rw [htrim, if_neg hne, if_pos habsolute]
    · cases h

/-- Settings are read again from their own level and directory. -/
theorem parse_self (h : Settings.parse level dir = .ok s) :
    Settings.parse s.level.name.toList s.dir.text = .ok s := by
  obtain ⟨-, hdir⟩ := parse_eq_ok_iff.mp h
  exact parse_eq_ok_iff.mpr ⟨parse_name s.level, parseDir_text hdir⟩

/-- The events that a log records. -/
def admitted (s : Settings) (events : List Event) : List Event :=
  events.filter fun e => s.level.admits e.level

end Settings

/-! ## Answers -/

/-- What a step is answered, as far as the log is concerned. -/
inductive Reply
  | started (answer : Except Fault Unit)
  | status (active : Option (Level × Pathname))
  | done

namespace Session

def step (s : Session) : Step → Reply × Session
  | .init level dir => (.started (s.init level dir).1, (s.init level dir).2)
  | .status => (.status s.status, s)
  | .panic payload => (.done, s.panic payload)
  | x => (.done, s.record x.events)

/-- The session after steps. -/
def after (s : Session) : List Step → Session
  | [] => s
  | x :: xs => after (s.step x).2 xs

def replies (s : Session) : List Step → List Reply
  | [] => []
  | x :: xs => (s.step x).1 :: replies (s.step x).2 xs

/-- Whether a session is asked for a log in vain all along. -/
def NoneStarts (s : Session) (xs : List Step) : Prop := .started (.ok ()) ∉ s.replies xs

/-- Whether a session that has become `s'` keeps no log and has written nothing since it was `s`.
Directories may have been made. -/
structure StillSilent (s s' : Session) : Prop where
  settings_eq : s'.settings? = none
  writer_eq : s'.writer = s.writer
  journal_eq : s'.journal = s.journal

variable {s s' : Session} {active : Settings} {level dir : List Char}

/-! ## Asking for a log -/

/-- Why no log can be kept with the settings that are given. -/
inductive RefusesStart (s : Session) (level dir : List Char) : Fault → Prop
  | settings {f : Fault} (h : Settings.parse level dir = .error f) : RefusesStart s level dir f
  | directory {requested : Settings} {reason : Reason}
      (h : Settings.parse level dir = .ok requested)
      (hdir : s.files.makeDirectories requested.dir = .error reason) :
      RefusesStart s level dir (.cannotCreate requested.dir reason)
  | writer {requested : Settings} {files : Tree} {reason : String}
      (h : Settings.parse level dir = .ok requested)
      (hdir : s.files.makeDirectories requested.dir = .ok files)
      (hstart : s.writer.start { settings := requested } files s.journal = .error reason) :
      RefusesStart s level dir (.cannotStart reason)

/-- Why another log is not kept instead of the active one. -/
inductive RefusesSwitch (active : Settings) (level dir : List Char) : Fault → Prop
  | settings {f : Fault} (h : Settings.parse level dir = .error f) :
      RefusesSwitch active level dir f
  | dir {requested : Settings} (h : Settings.parse level dir = .ok requested)
      (hdir : active.dir.sameAs requested.dir = false) :
      RefusesSwitch active level dir (.dirConflict active.dir requested.dir)
  | level {requested : Settings} (h : Settings.parse level dir = .ok requested)
      (hdir : active.dir.sameAs requested.dir = true) (hlevel : active.level ≠ requested.level) :
      RefusesSwitch active level dir (.levelConflict active.level requested.level)

/-- Whether settings are given with which a log can be kept, in which directories and files. -/
structure Starts (s : Session) (level dir : List Char) (requested : Settings) (files : Tree)
    (journal : Journal) : Prop where
  parse_eq : Settings.parse level dir = .ok requested
  makeDirectories_eq : s.files.makeDirectories requested.dir = .ok files
  start_eq : s.writer.start { settings := requested } files s.journal = .ok journal

/-- Whether a log can be kept with the settings that are given. -/
def GrantsStart (s : Session) (level dir : List Char) : Prop :=
  ∃ requested files journal, s.Starts level dir requested files journal

/-- Whether the settings that are given are the active ones. -/
def GrantsSame (active : Settings) (level dir : List Char) : Prop :=
  ∃ requested, Settings.parse level dir = .ok requested ∧
    active.dir.sameAs requested.dir = true ∧ active.level = requested.level

/-- A silent session starts the log unless there is a reason not to, and stays silent then. -/
theorem init_of_silent (h : s.settings? = none) (level dir : List Char) :
    (∃ f s', s.RefusesStart level dir f ∧ s.StillSilent s' ∧ s.init level dir = (.error f, s')) ∨
      ∃ requested files journal, s.Starts level dir requested files journal ∧
        s.init level dir = (.ok (), record [opening requested]
          { s with files, journal, settings? := some requested }) := by
  unfold init activate
  rw [h]
  cases hparse : Settings.parse level dir with
  | error f => exact .inl ⟨f, s, .settings hparse, ⟨h, rfl, rfl⟩, rfl⟩
  | ok requested =>
    dsimp only
    cases hfiles : s.files.makeDirectories requested.dir with
    | error reason => exact .inl ⟨_, s, .directory hparse hfiles, ⟨h, rfl, rfl⟩, rfl⟩
    | ok files =>
      dsimp only
      cases hstart : s.writer.start { settings := requested } files s.journal with
      | error reason =>
        have hsilent : s.StillSilent { files, writer := s.writer, journal := s.journal } :=
          ⟨rfl, rfl, rfl⟩
        exact .inl ⟨_, _, .writer hparse hfiles hstart, hsilent, rfl⟩
      | ok journal => exact .inr ⟨requested, files, journal, ⟨hparse, hfiles, hstart⟩, rfl⟩

/-- A session that keeps a log stays as it is. -/
theorem init_of_active (h : s.settings? = some active) (level dir : List Char) :
    (∃ f, RefusesSwitch active level dir f ∧ s.init level dir = (.error f, s)) ∨
      GrantsSame active level dir ∧ s.init level dir = (.ok (), s) := by
  unfold init requireSame
  rw [h]
  cases hparse : Settings.parse level dir with
  | error f => exact .inl ⟨f, .settings hparse, rfl⟩
  | ok requested =>
    dsimp only
    split
    · next hdir => exact .inl ⟨_, .dir hparse hdir, rfl⟩
    · next hdir =>
      have hsame : active.dir.sameAs requested.dir = true := by simpa using hdir
      split
      · next hlevel => exact .inl ⟨_, .level hparse hsame hlevel, rfl⟩
      · next hlevel => exact .inr ⟨⟨requested, hparse, hsame, not_not.mp hlevel⟩, rfl⟩

/-- What is refused is refused for one reason, and is not granted. -/
structure Exclusive (refuses : Fault → Prop) (grants : Prop) : Prop where
  unique : ∀ f g, refuses f → refuses g → g = f
  not_grants : ∀ f, refuses f → ¬ grants

theorem exclusive_start (s : Session) (level dir : List Char) :
    Exclusive (s.RefusesStart level dir) (s.GrantsStart level dir) where
  unique f g hf hg := by
    cases hf <;> cases hg <;> simp_all
  not_grants f hf hgrants := by
    obtain ⟨requested, files, journal, hparse, hfiles, hstart⟩ := hgrants
    cases hf <;> simp_all

theorem exclusive_same (active : Settings) (level dir : List Char) :
    Exclusive (RefusesSwitch active level dir) (GrantsSame active level dir) where
  unique f g hf hg := by
    cases hf <;> cases hg <;> simp_all
  not_grants f hf hgrants := by
    obtain ⟨requested, hparse, hdir, hlevel⟩ := hgrants
    cases hf <;> simp_all

/-- Whether an answer is decided by what is granted and what is refused. -/
structure Decides (answer : Except Fault Unit) (refuses : Fault → Prop) (grants : Prop) : Prop where
  ok_iff : answer = .ok () ↔ grants
  error_iff : ∀ f, answer = .error f ↔ refuses f

theorem decides_error {refuses : Fault → Prop} {grants : Prop} (h : Exclusive refuses grants)
    {f : Fault} (hf : refuses f) : Decides (.error f) refuses grants where
  ok_iff := by
    constructor
    · intro hok
      cases hok
    · intro hgrants
      exact absurd hgrants (h.not_grants f hf)
  error_iff g := by
    constructor
    · intro hg
      cases hg
      exact hf
    · intro hg
      rw [h.unique f g hf hg]

theorem decides_ok {refuses : Fault → Prop} {grants : Prop} (h : Exclusive refuses grants)
    (hgrants : grants) : Decides (.ok ()) refuses grants where
  ok_iff := iff_of_true rfl hgrants
  error_iff g := by
    constructor
    · intro hg
      cases hg
    · intro hg
      exact absurd hgrants (h.not_grants g hg)

/-- How a session answers that is asked for a log. -/
structure AnswersInit (s : Session) : Prop where
  silent : s.settings? = none → ∀ level dir, Decides (s.init level dir).1
    (s.RefusesStart level dir) (s.GrantsStart level dir)
  silent_of_error : s.settings? = none → ∀ level dir f, (s.init level dir).1 = .error f →
    s.StillSilent (s.init level dir).2
  active : ∀ active, s.settings? = some active → ∀ level dir, Decides (s.init level dir).1
    (RefusesSwitch active level dir) (GrantsSame active level dir)
  active_unchanged : ∀ active, s.settings? = some active → ∀ level dir, (s.init level dir).2 = s
  status_again : ∀ level dir, s.status = some (level, dir) →
    s.init level.name.toList dir.text = (.ok (), s)

/-- Any session answers so whose active settings can be asked for again. -/
theorem answersInit (hself : ∀ active, s.settings? = some active →
    Settings.parse active.level.name.toList active.dir.text = .ok active) : s.AnswersInit where
  silent h level dir := by
    have hexclusive := exclusive_start s level dir
    obtain ⟨f, s', hf, -, heq⟩ | ⟨requested, files, journal, hstarts, heq⟩ :=
      init_of_silent h level dir
    · rw [heq]
      exact decides_error hexclusive hf
    · rw [heq]
      exact decides_ok hexclusive ⟨requested, files, journal, hstarts⟩
  silent_of_error h level dir g hg := by
    obtain ⟨f, s', -, hsilent, heq⟩ | ⟨requested, files, journal, -, heq⟩ :=
      init_of_silent h level dir
    · rw [heq]
      exact hsilent
    · rw [heq] at hg
      cases hg
  active active h level dir := by
    have hexclusive := exclusive_same active level dir
    obtain ⟨f, hf, heq⟩ | ⟨hgrants, heq⟩ := init_of_active h level dir
    · rw [heq]
      exact decides_error hexclusive hf
    · rw [heq]
      exact decides_ok hexclusive hgrants
  active_unchanged active h level dir := by
    obtain ⟨f, -, heq⟩ | ⟨-, heq⟩ := init_of_active h level dir
    · rw [heq]
    · rw [heq]
  status_again level dir hstatus := by
    obtain ⟨active, hactive, heq⟩ := Option.map_eq_some_iff.mp hstatus
    cases heq
    have hdir : active.dir.sameAs active.dir = true := beq_self_eq_true active.dir.parts
    unfold init requireSame
    rw [hself active hactive, hactive]
    simp [hdir]

/-! ## Any number of steps -/

theorem record_of_silent (h : s.settings? = none) (events : List Event) :
    s.record events = s := by
  unfold record
  rw [h]

theorem record_of_active (h : s.settings? = some active) (events : List Event) :
    s.record events = { s with
      journal := events.foldl
        (fun journal e => s.writer.write { settings := active } s.files e journal) s.journal } := by
  unfold record
  rw [h]

theorem record_nil (s : Session) : s.record [] = s := by
  cases h : s.settings? with
  | none => exact record_of_silent h []
  | some active => exact record_of_active h []

theorem settings?_record (s : Session) (events : List Event) :
    (s.record events).settings? = s.settings? := by
  cases h : s.settings? with
  | none => rw [record_of_silent h, h]
  | some active =>
    rw [record_of_active h]
    exact h

theorem record_append (s : Session) (xs ys : List Event) :
    s.record (xs ++ ys) = (s.record xs).record ys := by
  cases h : s.settings? with
  | none => rw [record_of_silent h, record_of_silent h, record_of_silent h]
  | some active =>
    have hxs : (s.record xs).settings? = some active := (s.settings?_record xs).trans h
    rw [record_of_active hxs, record_of_active h, record_of_active h, List.foldl_append]

theorem after_append (s : Session) (xs ys : List Step) :
    s.after (xs ++ ys) = (s.after xs).after ys := by
  induction xs generalizing s with
  | nil => rfl
  | cons x xs ih => exact ih (s.step x).2

/-- While a log is kept, a step hands what it reports to the writer and changes nothing else. -/
theorem step_of_active (h : s.settings? = some active) (x : Step) :
    (s.step x).2 = s.record x.events := by
  cases x with
  | init level dir =>
    obtain ⟨f, -, heq⟩ | ⟨-, heq⟩ := init_of_active h level dir
    · exact (congrArg Prod.snd heq).trans s.record_nil.symm
    · exact (congrArg Prod.snd heq).trans s.record_nil.symm
  | status => exact s.record_nil.symm
  | _ => rfl

theorem after_of_active (h : s.settings? = some active) (xs : List Step) :
    s.after xs = s.record (xs.flatMap Step.events) := by
  induction xs generalizing s with
  | nil => exact s.record_nil.symm
  | cons x xs ih =>
    have hsettings : (s.record x.events).settings? = some active :=
      (s.settings?_record x.events).trans h
    rw [after, step_of_active h, ih hsettings, List.flatMap_cons, record_append]

/-- A step that does not start the log leaves a silent session silent. -/
theorem stillSilent_step (h : s.settings? = none) (x : Step)
    (hx : (s.step x).1 ≠ .started (.ok ())) : s.StillSilent (s.step x).2 := by
  have hrecord : ∀ events, s.StillSilent (s.record events) := by
    intro events
    rw [record_of_silent h]
    exact ⟨h, rfl, rfl⟩
  cases x with
  | init level dir =>
    obtain ⟨f, s', -, hsilent, heq⟩ | ⟨requested, files, journal, -, heq⟩ :=
      init_of_silent h level dir
    · have hsession : (s.step (.init level dir)).2 = s' := congrArg Prod.snd heq
      rw [hsession]
      exact hsilent
    · exact absurd (congrArg (fun r : Except Fault Unit × Session => Reply.started r.1) heq) hx
  | status => exact ⟨h, rfl, rfl⟩
  | _ => exact hrecord _

theorem stillSilent_after (h : s.settings? = none) {xs : List Step} (hxs : s.NoneStarts xs) :
    s.StillSilent (s.after xs) := by
  induction xs generalizing s with
  | nil => exact ⟨h, rfl, rfl⟩
  | cons x xs ih =>
    obtain ⟨hx, hrest⟩ := not_or.mp (mt List.mem_cons.mpr hxs)
    obtain ⟨hsettings, hwriter, hjournal⟩ := stillSilent_step h x (Ne.symm hx)
    obtain ⟨hsettings', hwriter', hjournal'⟩ := ih hsettings hrest
    exact ⟨hsettings', hwriter'.trans hwriter, hjournal'.trans hjournal⟩

/-- Among steps none starts the log, or there is a first one that does. -/
theorem noneStarts_or_exists_first (s : Session) (xs : List Step) :
    s.NoneStarts xs ∨ ∃ before level dir rest, xs = before ++ .init level dir :: rest ∧
      s.NoneStarts before ∧ ((s.after before).init level dir).1 = .ok () := by
  induction xs generalizing s with
  | nil => exact .inl List.not_mem_nil
  | cons x xs ih =>
    have hcons : ∀ ys, (s.step x).1 ≠ .started (.ok ()) → (s.step x).2.NoneStarts ys →
        s.NoneStarts (x :: ys) := fun ys hx hys h => (List.mem_cons.mp h).elim (Ne.symm hx) hys
    by_cases hx : (s.step x).1 = .started (.ok ())
    · cases x with
      | init level dir =>
        exact .inr ⟨[], level, dir, xs, rfl, List.not_mem_nil, Reply.started.inj hx⟩
      | _ => cases hx
    · obtain hnone | ⟨before, level, dir, rest, rfl, hbefore, hok⟩ := ih (s.step x).2
      · exact .inl (hcons xs hx hnone)
      · exact .inr ⟨x :: before, level, dir, rest, rfl, hcons before hx hbefore, hok⟩

/-! ## What a log holds -/

/-- What is reported from the start of a log on and admitted by it. -/
def reported (active : Settings) (rest : List Step) : List Event :=
  active.admitted (opening active :: rest.flatMap Step.events)

/-- Whether a session keeps the log with the given settings, and has done `rest` since it started
it, when the journal was `older`. -/
structure KeepsLog (s : Session) (older : Journal) (active : Settings) (rest : List Step) :
    Prop where
  status_eq : s.status = some (active.level, active.dir)
  holds : ∃ l, s.files.directory? active.dir = some l ∧
    Holds { settings := active } ((older l).flatten ++ reported active rest) (s.journal l)
  /-- A log that was not there before, and of which no file has been dropped yet. -/
  file_eq : ∀ l, s.files.directory? active.dir = some l → older l = [] →
    (s.journal l).length ≤ ({ settings := active } : Setup).maxFiles →
    (s.eventsIn active.dir).getD [] = reported active rest
  opening_once : (reported active rest).filter Event.isOpening = active.admitted [opening active]
  panics_eq : (reported active rest).filter Event.isPanic = rest.filterMap Step.panic?
  panics_oneLine : ∀ e ∈ reported active rest, e.isPanic = true → OneLine e.line

theorem filter_isOpening_reported (active : Settings) (xs : List Step) :
    (reported active xs).filter Event.isOpening = active.admitted [opening active] := by
  have hnone : (xs.flatMap Step.events).filter Event.isOpening = [] := by
    apply List.filter_eq_nil_iff.mpr
    intro e he
    obtain ⟨x, -, he⟩ := List.mem_flatMap.mp he
    rw [x.not_isOpening_events e he]
    exact Bool.false_ne_true
  have hopening : (opening active).isOpening = true := rfl
  unfold reported Settings.admitted
  rw [List.filter_comm, List.filter_cons_of_pos hopening, hnone]

theorem filter_isPanic_reported (active : Settings) (xs : List Step) :
    (reported active xs).filter Event.isPanic = xs.filterMap Step.panic? := by
  have hopening : ¬ (opening active).isPanic = true := Bool.false_ne_true
  have hpanics : (xs.flatMap Step.events).filter Event.isPanic = xs.filterMap Step.panic? := by
    rw [List.filter_flatMap, List.filterMap_eq_flatMap_toList]
    exact congrArg (fun f => xs.flatMap f) (funext Step.filter_isPanic_events)
  unfold reported Settings.admitted
  rw [List.filter_comm, List.filter_cons_of_neg hopening, List.filter_eq_self.mpr, hpanics]
  intro e he
  exact Event.admits_of_isPanic (List.mem_filter.mp he).2 active.level

theorem oneLine_of_mem_reported {active : Settings} {rest : List Step} {e : Event}
    (he : e ∈ reported active rest) (hpanic : e.isPanic = true) : OneLine e.line := by
  have hmem : e ∈ (reported active rest).filter Event.isPanic := List.mem_filter.mpr ⟨he, hpanic⟩
  rw [filter_isPanic_reported] at hmem
  obtain ⟨x, -, hx⟩ := List.mem_filterMap.mp hmem
  cases x with
  | panic payload =>
    cases hx
    exact oneLine_panicCaptured (oneLine_payloadText payload)
  | _ => cases hx

theorem getD_eventsIn {dir : Pathname} {l : Location} (hdir : s.files.directory? dir = some l) :
    (s.eventsIn dir).getD [] = (s.journal l).flatten := by
  unfold eventsIn
  rw [hdir]
  cases hjournal : s.journal l with
  | nil => simp [hjournal]
  | cons file files => simp [hjournal]

/-- A session that has handed on all that was reported since its log was started keeps that log. -/
theorem keepsLog_record {older journal : Journal} {files : Tree} {l : Location} {rest : List Step}
    (hw : s.writer.Documented) (hdir : files.directory? active.dir = some l)
    (hstart : s.writer.start { settings := active } files older = .ok journal) :
    (record (opening active :: rest.flatMap Step.events)
      { s with files, journal, settings? := some active }).KeepsLog older active rest := by
  have hholds : Holds { settings := active } ((older l).flatten ++ reported active rest)
      ((record (opening active :: rest.flatMap Step.events)
        { s with files, journal, settings? := some active }).journal l) := by
    rw [← hw.start_appends rfl hdir hstart]
    exact holds_foldl_write hw hdir (holds_flatten _ (journal l))
  exact {
    status_eq := rfl
    holds := ⟨l, hdir, hholds⟩
    file_eq := by
      intro m hm hnew hlength
      obtain rfl : l = m := Option.some.inj (hdir.symm.trans hm)
      rw [getD_eventsIn hdir, hholds.flatten_eq hlength, hnew]
      rfl
    opening_once := filter_isOpening_reported active rest
    panics_eq := filter_isPanic_reported active rest
    panics_oneLine := fun _ he hpanic => oneLine_of_mem_reported he hpanic }

/-- Panics before and behind the start of a log, and starts that fail before and behind it. -/
def noisySteps : List Step :=
  [.panic (some "early"), .init "verbose".toList "/".toList, .init " Warning ".toList "/".toList,
    .panic (some "late\r\npanic"), .init "warn".toList "/./".toList, .init "info".toList "/".toList]

end Session

end CompanyRegister.Log
