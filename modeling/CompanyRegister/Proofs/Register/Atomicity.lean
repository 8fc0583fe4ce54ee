import CompanyRegister.Proofs.Register.Refinement

/-!
# Requests that fail

A request that fails should leave the table as it was, and no request should make a record that
cannot be listed. The registrar reads back what it has written, and only then can it find that a
date cannot be read; the row is in the table by then. So a run of requests to the registrar goes
well (`Undisturbed`) exactly if no request of it makes the register take a record for whose year
four digits do not do (`NoneSpoils`). One such record is enough, whatever comes after it.
-/

namespace CompanyRegister.Register

open Calendar Store

/-- Whether a request is one of those by which the registrar changes the register. -/
def Request.IsRegistrarChange : Request → Prop
  | register _ | replace _ | remove _ => True
  | _ => False

/-- Whether a request was refused. -/
def Reply.Fails : Reply → Prop
  | direct a => ∃ f, a = .error f
  | served a => ∃ f, a = .error f

/-- Whether all records of a database can be listed. -/
def ListsAll (d : Database) : Prop := ∃ cs, (Registrar.list repository {} d).answer = .ok cs

/-- Whether all records can be listed before, between and after requests, and those that fail leave
the table as it was. -/
def Undisturbed : List (Instant × Request) → Database → Prop
  | [], d => ListsAll d
  | r :: rs, d =>
    ListsAll d ∧
      ((Request.onDatabaseAt r d).1.Fails → (Request.onDatabaseAt r d).2.table? = d.table?) ∧
      Undisturbed rs (Request.onDatabaseAt r d).2

/-- Whether a ledger takes a record from a request that four digits do not do for. -/
def Request.Spoils (r : Request) (m : Ledger) : Prop :=
  ∃ c, (r.onLedger m).1 = .served (.ok (.record c)) ∧ ¬ c.enterDate.HasFourDigitYear

/-- Whether no request spoils the ledger that the requests before it leave. -/
def NoneSpoils : List Request → Ledger → Prop
  | [], _ => True
  | r :: rs, m => ¬ r.Spoils m ∧ NoneSpoils rs (r.onLedger m).2

/-! ## Lists of all records -/

/-- Records that are listed can be read. -/
theorem year_of_mapM_asRead {cs xs : List Company} (h : cs.mapM Company.asRead = .ok xs) :
    ∀ c ∈ cs, c.enterDate.HasFourDigitYear := by
  intro c hc
  by_contra hyear
  obtain ⟨c', hread⟩ := exists_of_mapM_of_mem h hc
  obtain ⟨reason, hnone⟩ := Company.asRead_of_not_year hyear
  rw [hread] at hnone
  cases hnone

theorem list_default (m : Ledger) : m.list {} = m.records := by
  show (m.records.filter fun _ => true).drop 0 = _
  rw [List.drop_zero, List.filter_eq_self]
  exact fun _ _ => rfl

/-- All records are listed if all can be read. -/
theorem listsAll_database {m : Ledger} (hm : m.Kept) (now : Instant) :
    ListsAll (m.database now) ↔ m.Readable := by
  have hanswer : (Registrar.list repository {} (m.database now)).answer =
      (m.records.mapM Company.asRead).mapError .register := by
    have hlist := (reportList_database hm now {}).mapError Registrar.Fault.register
    rw [list_default] at hlist
    exact hlist.answer_eq
  rw [ListsAll, hanswer]
  constructor
  · rintro ⟨cs, hcs⟩ id c hid
    cases hread : m.records.mapM Company.asRead with
    | error f =>
      rw [hread] at hcs
      cases hcs
    | ok xs => exact year_of_mapM_asRead hread c (Ledger.mem_records hid)
  · intro hreadable
    refine ⟨m.records, ?_⟩
    have hyears : ∀ c ∈ m.records, c.enterDate.HasFourDigitYear := by
      intro c hc
      obtain ⟨id, hid⟩ := Ledger.exists_of_mem_records hc
      exact hreadable id c hid
    rw [Ledger.mapM_asRead hyears]
    rfl

/-! ## One request -/

/-- What the registrar's changes come to: a ledger refuses and stays as it is, a record goes, or one
is put in place and given back. -/
theorem onLedger_change_cases (m : Ledger) {r : Request} (hr : r.IsRegistrarChange) :
    (∃ f, r.onLedger m = (.served (.error f), m)) ∨
      (∃ id, r.onLedger m = (.served (.ok .done), m.erase id)) ∨
      ∃ (c : Company) (id : Int16), c.validate = .ok () ∧
        r.onLedger m = (.served (.ok (.record (c.kept id))), m.put id (c.kept id)) := by
  cases r with
  | register i =>
    rw [Request.onLedger]
    obtain ⟨f, h⟩ | ⟨c, id, -, hvalid, h⟩ := m.register_cases i
    · rw [h]
      exact .inl ⟨f, rfl⟩
    · rw [h]
      exact .inr (.inr ⟨c, id, hvalid, rfl⟩)
  | replace c =>
    rw [Request.onLedger]
    obtain ⟨f, h⟩ | ⟨id, -, hvalid, h⟩ := m.update_cases c
    · rw [h]
      exact .inl ⟨.register f, rfl⟩
    · rw [h]
      exact .inr (.inr ⟨c, id, hvalid, rfl⟩)
  | remove id =>
    rw [Request.onLedger]
    obtain ⟨f, h⟩ | h := m.delete_cases id
    · rw [h]
      exact .inl ⟨.register f, rfl⟩
    · rw [h]
      exact .inr (.inl ⟨id, rfl⟩)
  | create c => exact hr.elim
  | update c => exact hr.elim
  | find id => exact hr.elim
  | list q => exact hr.elim
  | delete id => exact hr.elim
  | get id => exact hr.elim
  | browse q => exact hr.elim

/-- A request that spoils nothing fails only if the ledger refuses it. -/
theorem fails_of_not_spoils {m : Ledger} (hm : m.Kept) {r : Request} (hr : r.IsRegistrarChange)
    (hspoils : ¬ r.Spoils m) (now : Instant) :
    (r.onDatabase (m.database now)).1.Fails → (r.onLedger m).2 = m := by
  rw [onDatabase_database hm]
  obtain ⟨f, h⟩ | ⟨id, h⟩ | ⟨c, id, -, h⟩ := onLedger_change_cases m hr
  · exact fun _ => congrArg Prod.snd h
  · rw [h]
    rintro ⟨f, hf⟩
    cases hf
  · have hyear : (c.kept id).enterDate.HasFourDigitYear :=
      of_not_not fun hyear => hspoils ⟨c.kept id, congrArg Prod.fst h, hyear⟩
    have hread := Ledger.asRead_record (Company.hasFourDigitYear_kept.mp hyear) id
    rw [h, Ledger.asRead_served hread]
    rintro ⟨f, hf⟩
    cases hf

/-- A request that gives back no record spoils nothing. -/
theorem not_spoils_of_reply {m : Ledger} {r : Request} {a : Except Registrar.Fault Value}
    (h : (r.onLedger m).1 = .served a) (hrecord : ∀ c, a ≠ .ok (.record c)) : ¬ r.Spoils m := by
  rintro ⟨c, hc, -⟩
  rw [h] at hc
  cases hc
  exact hrecord c rfl

/-- Records can be read after a request exactly if it spoils nothing. -/
theorem readable_change_iff {m : Ledger} (hm : m.Readable) {r : Request}
    (hr : r.IsRegistrarChange) : (r.onLedger m).2.Readable ↔ ¬ r.Spoils m := by
  obtain ⟨f, h⟩ | ⟨id, h⟩ | ⟨c, id, -, h⟩ := onLedger_change_cases m hr
  · have hspoils : ¬ r.Spoils m := not_spoils_of_reply (congrArg Prod.fst h) fun c => by simp
    rw [h]
    exact ⟨fun _ => hspoils, fun _ => hm⟩
  · have hspoils : ¬ r.Spoils m := not_spoils_of_reply (congrArg Prod.fst h) fun c => by simp
    rw [h]
    exact ⟨fun _ => hspoils, fun _ => Ledger.forall_erase hm id⟩
  · constructor
    · rintro hreadable ⟨c', hc', hyear⟩
      rw [h] at hc' hreadable
      cases hc'
      exact hyear (hreadable id _ (put_self m id _))
    · intro hspoils
      rw [h]
      have hyear : (c.kept id).enterDate.HasFourDigitYear :=
        of_not_not fun hyear => hspoils ⟨c.kept id, congrArg Prod.fst h, hyear⟩
      exact Ledger.forall_put hm hyear

/-- What is listed depends on nothing but the table. -/
theorem listsAll_of_table_eq {d d' : Database} (h : d.table? = d'.table?) (hd : ListsAll d) :
    ListsAll d' := by
  have hlist : list {} d' = list {} d := by
    have htable : d'.table tableName = d.table tableName := by
      rw [Database.table, Database.table, h]
    simp only [list, Database.run, htable]
  have hreport : (reportList {} d').answer = (reportList {} d).answer := by
    rw [reportList, reportList, hlist]
    cases list {} d <;> rfl
  obtain ⟨cs, hcs⟩ := hd
  exact ⟨cs, (congrArg (·.mapError Registrar.Fault.register) hreport).trans hcs⟩

theorem asRead_served_error {v : Value} {f : Fault} (h : v.asRead = .error f) :
    (Reply.served (.ok v)).asRead = .served (.error (.register f)) :=
  congrArg (fun a : Except Fault Value => Reply.served (a.mapError .register)) h

/-- A request that spoils a readable ledger fails, and has changed the table all the same: from then
on nobody can list the records. -/
theorem spoils_database {m : Ledger} (hm : m.Kept) (hreadable : m.Readable) {r : Request}
    (hr : r.IsRegistrarChange) (hspoils : r.Spoils m) (now : Instant) :
    (r.onDatabase (m.database now)).1.Fails ∧
      (r.onDatabase (m.database now)).2.table? ≠ (m.database now).table? ∧
      ¬ ListsAll (r.onDatabase (m.database now)).2 := by
  have hlists : ¬ ListsAll (r.onDatabase (m.database now)).2 := by
    rw [onDatabase_database hm, listsAll_database (m.kept_onLedger hm r)]
    exact fun h => (readable_change_iff hreadable hr).mp h hspoils
  refine ⟨?_, fun htable => ?_, hlists⟩
  · obtain ⟨c, hc, hyear⟩ := hspoils
    obtain ⟨reason, hread⟩ := Company.asRead_of_not_year hyear
    have hvalue : (Value.record c).asRead = .error (.unreadable reason) := by
      rw [Value.asRead, hread]
      rfl
    rw [onDatabase_database hm, hc, asRead_served_error hvalue]
    exact ⟨_, rfl⟩
  -- Were the table the same, its records could still be listed.
  · exact hlists (listsAll_of_table_eq htable.symm ((listsAll_database hm now).mpr hreadable))

/-! ## Any number of requests -/

theorem listsAll_of_undisturbed {rs : List (Instant × Request)} {d : Database}
    (h : Undisturbed rs d) : ListsAll d := by
  cases rs with
  | nil => exact h
  | cons r rs => exact h.1

theorem undisturbed_database_iff {m : Ledger} (hm : m.Kept) (hreadable : m.Readable)
    (start : Instant) {rs : List (Instant × Request)}
    (hrs : ∀ r ∈ rs, r.2.IsRegistrarChange) :
    Undisturbed rs (m.database start) ↔ NoneSpoils (rs.map Prod.snd) m := by
  induction rs generalizing m start with
  | nil => exact iff_of_true ((listsAll_database hm start).mpr hreadable) trivial
  | cons r rs ih =>
    have hr := hrs r List.mem_cons_self
    have hrest : ∀ r' ∈ rs, r'.2.IsRegistrarChange := fun r' h => hrs r' (List.mem_cons_of_mem r h)
    have hkept := m.kept_onLedger hm r.2
    have hafter : (Request.onDatabaseAt r (m.database start)).2 = (r.2.onLedger m).2.database r.1 :=
      congrArg Prod.snd (onDatabase_database hm r.1 r.2)
    have hlists := listsAll_database hkept r.1
    rw [List.map_cons, Undisturbed, NoneSpoils, hafter]
    constructor
    · rintro ⟨-, -, hlater⟩
      -- What comes later needs a list of all records now, so nothing is spoiled.
      have hnow := hlists.mp (listsAll_of_undisturbed hlater)
      exact ⟨(readable_change_iff hreadable hr).mp hnow, (ih hkept hnow r.1 hrest).mp hlater⟩
    · rintro ⟨hspoils, hlater⟩
      have hnow := (readable_change_iff hreadable hr).mpr hspoils
      refine ⟨(listsAll_database hm start).mpr hreadable, fun hfails => ?_,
        (ih hkept hnow r.1 hrest).mpr hlater⟩
      rw [fails_of_not_spoils hm hr hspoils r.1 hfails]
      rfl

/-- Dates of four-digit years spoil nothing. -/
theorem noneSpoils_of_hasFourDigitYears {m : Ledger} (hm : m.Readable) {rs : List Request}
    (hrs : ∀ r ∈ rs, r.IsRegistrarChange) (h : ∀ r ∈ rs, r.HasFourDigitYears) :
    NoneSpoils rs m := by
  induction rs generalizing m with
  | nil => trivial
  | cons r rs ih =>
    have hnow := Ledger.readable_onLedger hm (h r List.mem_cons_self)
    refine ⟨(readable_change_iff hm (hrs r List.mem_cons_self)).mp hnow, ?_⟩
    apply ih hnow
    · exact fun r' hr' => hrs r' (List.mem_cons_of_mem r hr')
    · exact fun r' hr' => h r' (List.mem_cons_of_mem r hr')

/-- Requests to the registrar of a new database leave all records fit to be listed, and those that
fail leave the table as it was, exactly if none makes the register take a record for whose year four
digits do not do. -/
theorem undisturbed_iff_noneSpoils (now : Instant) {rs : List (Instant × Request)}
    (h : ∀ r ∈ rs, r.2.IsRegistrarChange) :
    Undisturbed rs ({ now } : Database).migrate.database ↔
      NoneSpoils (rs.map Prod.snd) .empty := by
  rw [migrate_new]
  exact undisturbed_database_iff Ledger.kept_empty Ledger.readable_empty now h

/-- The input that describes `acme`. -/
def acmeInput : Input where
  companyId := some 7
  companyName := some "Acme"
  enterUserId := some 1
  enterDate := some "1970-01-01"

theorem undisturbed_acme :
    Undisturbed [(.epoch, .register acmeInput), (.epoch, .remove 7)]
      ({ now := .epoch } : Database).migrate.database := by
  have hcompany : acmeInput.toCompany = .ok acme := by rfl
  have hyears : ∀ r ∈ [Request.register acmeInput, .remove 7], r.HasFourDigitYears := by
    intro r hr c hc
    rcases List.mem_cons.mp hr with rfl | hr
    · cases hcompany.symm.trans hc
      show Instant.epoch.HasFourDigitYear
      decide
    · cases List.mem_singleton.mp hr
      exact hc.elim
  have hchanges : ∀ r ∈ [Request.register acmeInput, .remove 7], r.IsRegistrarChange := by
    intro r hr
    rcases List.mem_cons.mp hr with rfl | hr
    · trivial
    · cases List.mem_singleton.mp hr
      trivial
  refine (undisturbed_iff_noneSpoils .epoch fun r hr => ?_).mpr ?_
  · exact hchanges r.2 (List.mem_map_of_mem hr)
  · exact noneSpoils_of_hasFourDigitYears Ledger.readable_empty hchanges hyears

/-- An input whose date is in the year 10000. -/
def farInput : Input where
  companyId := some 1
  enterUserId := some 1
  enterDate := some "+10000-01-01"

/-- The start of the year 10000. -/
def farDate : Instant := ⟨253402300800, 0, by decide⟩

/-- The input is refused, its record is in the table, and there is no list of records any more. -/
theorem register_farInput :
    let d := ({ now := .epoch } : Database).migrate.database
    let after := (Request.register farInput).onDatabase d
    after.1.Fails ∧ after.2.table? ≠ d.table? ∧ ¬ ListsAll after.2 := by
  -- The date is one of the calendar, so validation has nothing against it.
  have hcompany : farInput.toCompany = .ok (farInput.record 1 farDate) := by rfl
  have hregister : (Ledger.empty.register farInput).1 =
      .ok ((farInput.record 1 farDate).kept 1) := by
    rw [Ledger.register, hcompany]
    rfl
  have hchange : (Request.register farInput).IsRegistrarChange := trivial
  have hspoils : (Request.register farInput).Spoils .empty := by
    refine ⟨(farInput.record 1 farDate).kept 1, ?_, ?_⟩
    · rw [Request.onLedger, hregister]
      rfl
    · show ¬ farDate.HasFourDigitYear
      decide
  rw [migrate_new]
  exact spoils_database Ledger.kept_empty Ledger.readable_empty hchange hspoils .epoch

end CompanyRegister.Register
