import CompanyRegister.Proofs.InOrder
import CompanyRegister.Proofs.Register.Simulation

/-!
# Requests to databases

A database that keeps a ledger replies to a request what the ledger replies, once the records in
that reply are read from their rows (`Reply.asRead`), and it then keeps the ledger that the ledger
becomes (`onDatabase_database`). By induction this holds of any number of requests, at any times.

Where the years of all dates have four digits, reading changes nothing. So a database that was just
made cannot be told from a ledger by requests that write such dates only.
-/

namespace CompanyRegister.Register

open Calendar Store

/-! ## Records that are kept -/

namespace Ledger

/-- What holds of all records and of one more holds once that is put in its place. -/
theorem forall_put {P : Int16 → Company → Prop} {m : Ledger} (hm : ∀ id c, m id = some c → P id c)
    {id : Int16} {c : Company} (h : P id c) : ∀ n k, m.put id c n = some k → P n k := by
  intro n k hn
  rw [put] at hn
  split at hn
  · next heq =>
    cases hn
    exact heq ▸ h
  · exact hm n k hn

/-- What holds of all records holds when one of them goes. -/
theorem forall_erase {P : Int16 → Company → Prop} {m : Ledger}
    (hm : ∀ id c, m id = some c → P id c) (id : Int16) :
    ∀ n k, m.erase id n = some k → P n k := by
  intro n k hn
  rw [erase] at hn
  split at hn
  · cases hn
  · exact hm n k hn

theorem kept_empty : empty.Kept := by
  intro id c h
  cases h

theorem kept_put {m : Ledger} (hm : m.Kept) {c : Company} (h : c.validate = .ok ()) (id : Int16) :
    (m.put id (c.kept id)).Kept :=
  forall_put hm ⟨c, h, rfl⟩

/-- Adding a record fails and changes nothing, or puts it under an id. -/
theorem create_cases (m : Ledger) (c : Company) :
    (∃ f, m.create c = (.error f, m)) ∨
      ∃ id, c.validate = .ok () ∧ m.create c = (.ok id, m.put id (c.kept id)) := by
  rw [create]
  cases hvalid : c.validate with
  | error v => exact .inl ⟨_, rfl⟩
  | ok u =>
    dsimp only
    cases c.companyId with
    | some id =>
      dsimp only
      cases m id with
      | some old => exact .inl ⟨_, rfl⟩
      | none => exact .inr ⟨id, rfl, rfl⟩
    | none =>
      dsimp only
      cases m.nextId? with
      | none => exact .inl ⟨_, rfl⟩
      | some id => exact .inr ⟨id, rfl, rfl⟩

/-- Replacing a record fails and changes nothing, or puts the new one under its id. -/
theorem update_cases (m : Ledger) (c : Company) :
    (∃ f, m.update c = (.error f, m)) ∨
      ∃ id, c.companyId = some id ∧ c.validate = .ok () ∧
        m.update c = (.ok (c.kept id), m.put id (c.kept id)) := by
  rw [update]
  cases hid : c.companyId with
  | none => exact .inl ⟨_, rfl⟩
  | some id =>
    dsimp only
    cases hvalid : c.validate with
    | error v => exact .inl ⟨_, rfl⟩
    | ok u =>
      dsimp only
      cases m id with
      | none => exact .inl ⟨_, rfl⟩
      | some old => exact .inr ⟨id, rfl, rfl, rfl⟩

/-- Taking out a record fails and changes nothing, or leaves its id without one. -/
theorem delete_cases (m : Ledger) (id : Int16) :
    (∃ f, m.delete id = (.error f, m)) ∨ m.delete id = (.ok (), m.erase id) := by
  rw [delete]
  cases m id with
  | none => exact .inl ⟨_, rfl⟩
  | some old => exact .inr rfl

/-- Registering an input fails and changes nothing, or puts the record that it describes under an
id. -/
theorem register_cases (m : Ledger) (i : Input) :
    (∃ f, m.register i = (.error f, m)) ∨
      ∃ c id, i.toCompany = .ok c ∧ c.validate = .ok () ∧
        m.register i = (.ok (c.kept id), m.put id (c.kept id)) := by
  rw [register]
  cases i.toCompany with
  | error vs => exact .inl ⟨_, rfl⟩
  | ok c =>
    dsimp only
    obtain ⟨f, hcreate⟩ | ⟨id, hvalid, hcreate⟩ := m.create_cases c
    · rw [hcreate]
      exact .inl ⟨_, rfl⟩
    · rw [hcreate]
      exact .inr ⟨c, id, rfl, hvalid, rfl⟩

/-- All that a request can do to a ledger. -/
theorem onLedger_cases (m : Ledger) (r : Request) :
    (r.onLedger m).2 = m ∨ (∃ id, (r.onLedger m).2 = m.erase id) ∨
      ∃ c id, r.Offers c ∧ c.validate = .ok () ∧ (r.onLedger m).2 = m.put id (c.kept id) := by
  have hupdate : ∀ c : Company, (m.update c).2 = m ∨
      ∃ id, c.validate = .ok () ∧ (m.update c).2 = m.put id (c.kept id) := by
    intro c
    obtain ⟨f, h⟩ | ⟨id, -, hvalid, h⟩ := m.update_cases c
    · exact .inl (congrArg Prod.snd h)
    · exact .inr ⟨id, hvalid, congrArg Prod.snd h⟩
  have hdelete : ∀ id : Int16, (m.delete id).2 = m ∨ (m.delete id).2 = m.erase id := by
    intro id
    obtain ⟨f, h⟩ | h := m.delete_cases id
    · exact .inl (congrArg Prod.snd h)
    · exact .inr (congrArg Prod.snd h)
  cases r with
  | create c =>
    obtain ⟨f, h⟩ | ⟨id, hvalid, h⟩ := m.create_cases c
    · exact .inl (congrArg Prod.snd h)
    · exact .inr (.inr ⟨c, id, rfl, hvalid, congrArg Prod.snd h⟩)
  | update c =>
    obtain h | ⟨id, hvalid, h⟩ := hupdate c
    · exact .inl h
    · exact .inr (.inr ⟨c, id, rfl, hvalid, h⟩)
  | find id => exact .inl rfl
  | list q => exact .inl rfl
  | delete id => exact (hdelete id).imp_right fun h => .inl ⟨id, h⟩
  | register i =>
    obtain ⟨f, h⟩ | ⟨c, id, hc, hvalid, h⟩ := m.register_cases i
    · exact .inl (congrArg Prod.snd h)
    · exact .inr (.inr ⟨c, id, hc, hvalid, congrArg Prod.snd h⟩)
  | replace c =>
    obtain h | ⟨id, hvalid, h⟩ := hupdate c
    · exact .inl h
    · exact .inr (.inr ⟨c, id, rfl, hvalid, h⟩)
  | get id => exact .inl rfl
  | browse q => exact .inl rfl
  | remove id => exact (hdelete id).imp_right fun h => .inl ⟨id, h⟩

/-- What holds of all records goes on to hold if it holds of those that a request hands in. -/
theorem forall_onLedger {P : Int16 → Company → Prop} {m : Ledger} {r : Request}
    (hm : ∀ id c, m id = some c → P id c)
    (hnew : ∀ c id, r.Offers c → c.validate = .ok () → P id (c.kept id)) :
    ∀ id c, (r.onLedger m).2 id = some c → P id c := by
  obtain h | ⟨id, h⟩ | ⟨c, id, hc, hvalid, h⟩ := m.onLedger_cases r
  · rw [h]
    exact hm
  · rw [h]
    exact forall_erase hm id
  · rw [h]
    exact forall_put hm (hnew c id hc hvalid)

/-- A ledger keeps written records only, whatever is asked of it. -/
theorem kept_onLedger {m : Ledger} (hm : m.Kept) (r : Request) : (r.onLedger m).2.Kept :=
  forall_onLedger hm fun c _ _ hvalid => ⟨c, hvalid, rfl⟩

end Ledger

/-! ## Outcomes one after the other -/

namespace Does

variable {ε δ α β : Type} {o : Outcome ε α} {now : Instant} {m m' : Ledger}

theorem mapError {a : Except ε α} (h : Does o now a m) (f : ε → δ) :
    Does (o.mapError f) now (a.mapError f) m :=
  ⟨congrArg (·.mapError f) h.answer_eq, h.database_eq⟩

theorem andThen_error {e : ε} (h : Does o now (.error e) m) (next : α → Database → Outcome ε β) :
    Does (o.andThen next) now (.error e) m := by
  rw [Outcome.andThen, h.answer_eq]
  exact ⟨rfl, h.database_eq⟩

theorem andThen_ok {a : α} {b : Except ε β} (h : Does o now (.ok a) m)
    {next : α → Database → Outcome ε β} (hnext : Does (next a (m.database now)) now b m') :
    Does (o.andThen next) now b m' := by
  rw [Outcome.andThen, h.answer_eq]
  -- Events are gathered on the way; answers and databases do not depend on them.
  show Does { next a o.database with events := _ } now b m'
  rw [h.database_eq]
  exact ⟨hnext.answer_eq, hnext.database_eq⟩

end Does

/-! ## Operations of the registrar -/

/-- What is read back is the record of the ledger. -/
theorem readBack_database {m : Ledger} (hm : m.Kept) (now : Instant) (deed : Registrar.Deed)
    {id : Int16} {c : Company} (h : m id = some c) :
    Does (Registrar.readBack repository deed id (m.database now)) now
      (c.asRead.mapError .register) m := by
  have hfind : Does (repository.find id (m.database now)) now (c.asRead.map some) m := by
    refine ⟨?_, rfl⟩
    show find id (m.database now) = _
    rw [find_database hm, h, Option.elim_some]
  cases hread : c.asRead with
  | error f =>
    rw [hread] at hfind
    exact (hfind.mapError Registrar.Fault.register).andThen_error _
  | ok c' =>
    rw [hread] at hfind
    exact (hfind.mapError Registrar.Fault.register).andThen_ok ⟨rfl, rfl⟩

theorem put_self (m : Ledger) (id : Int16) (c : Company) : m.put id c id = some c := if_pos rfl

theorem register_database {m : Ledger} (hm : m.Kept) (now : Instant) (i : Input) :
    Does (Registrar.register repository i (m.database now)) now
      ((m.register i).1.bind fun c => c.asRead.mapError .register) (m.register i).2 := by
  rw [Registrar.register, Ledger.register]
  cases i.toCompany with
  | error vs => exact ⟨rfl, rfl⟩
  | ok c =>
    have hcreate : Does (repository.create c (m.database now)) now _ _ := create_database m now c
    dsimp only
    obtain ⟨f, h⟩ | ⟨id, hvalid, h⟩ := m.create_cases c
    · rw [h] at hcreate ⊢
      exact (hcreate.mapError Registrar.Fault.register).andThen_error _
    · rw [h] at hcreate ⊢
      rw [Except.bind]
      exact (hcreate.mapError Registrar.Fault.register).andThen_ok
        (readBack_database (Ledger.kept_put hm hvalid id) now .registered (put_self m id _))

theorem replace_database {m : Ledger} (hm : m.Kept) (now : Instant) (c : Company) :
    Does (Registrar.update repository c (m.database now)) now
      (((m.update c).1.bind Company.asRead).mapError .register) (m.update c).2 := by
  have hupdate : Does (repository.update c (m.database now)) now _ _ := update_database m now c
  rw [Registrar.update]
  obtain ⟨f, h⟩ | ⟨id, hid, hvalid, h⟩ := m.update_cases c
  · rw [h] at hupdate ⊢
    exact (hupdate.mapError Registrar.Fault.register).andThen_error _
  · rw [h] at hupdate ⊢
    rw [hid]
    rw [Except.bind]
    exact (hupdate.mapError Registrar.Fault.register).andThen_ok
      (readBack_database (Ledger.kept_put hm hvalid id) now .updated (put_self m id _))

/-! ## Requests -/

/-- What a value is once its records are read from their rows. -/
def Value.asRead : Value → Except Fault Value
  | record c => c.asRead.map record
  | found (some c) => c.asRead.map fun c => found (some c)
  | records cs => (cs.mapM Company.asRead).map records
  | v => .ok v

/-- What a reply is once its records are read from their rows. -/
def Reply.asRead : Reply → Reply
  | direct a => direct (a.bind Value.asRead)
  | served a => served (a.bind fun v => v.asRead.mapError .register)

theorem ofRepository_eq {α : Type} {o : Outcome Fault α} {now : Instant} {a : Except Fault α}
    {m : Ledger} (h : Does o now a m) (value : α → Value) :
    Reply.ofRepository value o = (.direct (a.map value), m.database now) := by
  rw [Reply.ofRepository, h.answer_eq, h.database_eq]

theorem ofRegistrar_eq {α : Type} {o : Outcome Registrar.Fault α} {now : Instant}
    {a : Except Registrar.Fault α} {m : Ledger} (h : Does o now a m) (value : α → Value) :
    Reply.ofRegistrar value o = (.served (a.map value), m.database now) := by
  rw [Reply.ofRegistrar, h.answer_eq, h.database_eq]

theorem find_asRead {m : Ledger} (hm : m.Kept) (now : Instant) (id : Int16) :
    (find id (m.database now)).map Value.found = (Value.found (m id)).asRead := by
  rw [find_database hm]
  cases m id with
  | none => rfl
  | some c =>
    dsimp only [Option.elim_some, Value.asRead]
    cases c.asRead <;> rfl

theorem reportList_database {m : Ledger} (hm : m.Kept) (now : Instant) (q : Query) :
    Does (repository.list q (m.database now)) now ((m.list q).mapM Company.asRead) m := by
  show Does (reportList q (m.database now)) now _ m
  rw [reportList, list_database hm]
  cases (m.list q).mapM Company.asRead with
  | error f => exact ⟨rfl, rfl⟩
  | ok cs => exact ⟨rfl, rfl⟩

/-- A database does what the ledger does that it keeps, but for what it cannot read. -/
theorem onDatabase_database {m : Ledger} (hm : m.Kept) (now : Instant) (r : Request) :
    r.onDatabase (m.database now) =
      ((r.onLedger m).1.asRead, (r.onLedger m).2.database now) := by
  cases r with
  | create c =>
    refine (ofRepository_eq (create_database m now c) Value.id).trans ?_
    rw [Request.onLedger, Reply.asRead]
    cases (m.create c).1 <;> rfl
  | update c =>
    refine (ofRepository_eq (update_database m now c) fun _ => Value.done).trans ?_
    rw [Request.onLedger, Reply.asRead]
    cases (m.update c).1 <;> rfl
  | find id =>
    show (Reply.direct ((find id (m.database now)).map Value.found), _) = _
    rw [find_asRead hm]
    rfl
  | list q =>
    refine (ofRepository_eq (reportList_database hm now q) Value.records).trans ?_
    rfl
  | delete id =>
    refine (ofRepository_eq (delete_database m now id) fun _ => Value.done).trans ?_
    rw [Request.onLedger, Reply.asRead]
    cases (m.delete id).1 <;> rfl
  -- The record in the reply of a change is the one that was read back.
  | register i =>
    refine (ofRegistrar_eq (register_database hm now i) Value.record).trans ?_
    rw [Request.onLedger, Reply.asRead]
    cases (m.register i).1 with
    | error f => rfl
    | ok c =>
      dsimp only [Except.bind, Except.map]
      rw [Value.asRead]
      cases c.asRead <;> rfl
  | replace c =>
    refine (ofRegistrar_eq (replace_database hm now c) Value.record).trans ?_
    rw [Request.onLedger, Reply.asRead]
    cases (m.update c).1 with
    | error f => rfl
    | ok c =>
      dsimp only [Except.bind, Except.map, Except.mapError]
      rw [Value.asRead]
      cases c.asRead <;> rfl
  | get id =>
    have hmap : ((find id (m.database now)).mapError Registrar.Fault.register).map Value.found =
        (Value.found (m id)).asRead.mapError .register := by
      rw [← find_asRead hm now]
      cases find id (m.database now) <;> rfl
    show (Reply.served (((find id (m.database now)).mapError _).map Value.found), _) = _
    rw [hmap]
    rfl
  | browse q =>
    have hlist := (reportList_database hm now q).mapError Registrar.Fault.register
    refine (ofRegistrar_eq hlist Value.records).trans ?_
    rw [Request.onLedger, Reply.asRead]
    dsimp only [Except.bind, Value.asRead]
    cases (m.list q).mapM Company.asRead <;> rfl
  | remove id =>
    have hdelete : Does (repository.delete id (m.database now)) now _ _ := delete_database m now id
    refine (ofRegistrar_eq (hdelete.mapError Registrar.Fault.register) fun _ => Value.done).trans ?_
    rw [Request.onLedger, Reply.asRead]
    cases (m.delete id).1 <;> rfl

/-! ## Any number of requests -/

/-- A database that keeps a ledger goes on to keep what the ledger becomes. -/
theorem runAll_database {m : Ledger} (hm : m.Kept) (start : Instant)
    (rs : List (Instant × Request)) :
    ∃ now, runAll Request.onDatabaseAt rs (m.database start) =
      ((runAll Request.onLedger (rs.map Prod.snd) m).1.map Reply.asRead,
        (runAll Request.onLedger (rs.map Prod.snd) m).2.database now) := by
  -- Every request comes with its time, so the induction is over ledgers kept at any time.
  induction rs generalizing m start with
  | nil => exact ⟨start, rfl⟩
  | cons r rs ih =>
    have hstep : Request.onDatabaseAt r (m.database start) =
        ((r.2.onLedger m).1.asRead, (r.2.onLedger m).2.database r.1) :=
      onDatabase_database hm r.1 r.2
    obtain ⟨now, hrun⟩ := ih (m.kept_onLedger hm r.2) r.1
    refine ⟨now, ?_⟩
    rw [runAll, hstep, List.map_cons, runAll]
    dsimp only
    rw [hrun]
    rfl

/-- A new database keeps no records. -/
theorem migrate_new (now : Instant) :
    ({ now } : Database).migrate.database = Ledger.empty.database now := by
  have hup : ({ now } : Database).Upgradable := .inr (.inr ⟨rfl, rfl⟩)
  have hsound : ({ now } : Database).Sound := by
    intro t ht
    cases ht
  rw [(Database.migrate_of_upgradable hsound hup).2, Ledger.database, Ledger.rows_empty]
  rfl

/-! ## Records that can be read -/

namespace Ledger

/-- Whether four digits do for the year of every record. -/
def Readable (m : Ledger) : Prop := ∀ id c, m id = some c → c.enterDate.HasFourDigitYear

theorem readable_empty : empty.Readable := by
  intro id c h
  cases h

theorem readable_onLedger {m : Ledger} (hm : m.Readable) {r : Request}
    (hr : r.HasFourDigitYears) : (r.onLedger m).2.Readable :=
  forall_onLedger hm fun c _ hc _ => Company.hasFourDigitYear_kept.mpr (hr c hc)

/-- Records that can be read are read as they are. -/
theorem mapM_asRead {cs : List Company} (h : ∀ c ∈ cs, c.enterDate.HasFourDigitYear) :
    cs.mapM Company.asRead = .ok cs :=
  mapM_eq_ok_iff.mpr (List.forall₂_same.mpr fun c hc => Company.asRead_of_year (h c hc))

theorem mem_list {m : Ledger} {q : Query} {c : Company} (h : c ∈ m.list q) :
    ∃ id, m id = some c :=
  exists_of_mem_records (List.mem_filter.mp (Query.mem_of_mem_page h)).1

theorem asRead_found {m : Ledger} (hm : m.Readable) (id : Int16) :
    (Value.found (m id)).asRead = .ok (.found (m id)) := by
  cases h : m id with
  | none => rfl
  | some c =>
    rw [Value.asRead, Company.asRead_of_year (hm id c h)]
    rfl

theorem asRead_records {m : Ledger} (hm : m.Readable) (q : Query) :
    (Value.records (m.list q)).asRead = .ok (.records (m.list q)) := by
  have hread : ∀ c ∈ m.list q, c.enterDate.HasFourDigitYear := by
    intro c hc
    obtain ⟨id, hid⟩ := mem_list hc
    exact hm id c hid
  rw [Value.asRead, mapM_asRead hread]
  rfl

theorem asRead_record {c : Company} (h : c.enterDate.HasFourDigitYear) (id : Int16) :
    (Value.record (c.kept id)).asRead = .ok (.record (c.kept id)) := by
  have hyear : (c.kept id).enterDate.HasFourDigitYear := Company.hasFourDigitYear_kept.mpr h
  rw [Value.asRead, Company.asRead_of_year hyear]
  rfl

theorem asRead_direct {v : Value} (h : v.asRead = .ok v) :
    (Reply.direct (.ok v)).asRead = .direct (.ok v) :=
  congrArg Reply.direct h

theorem asRead_served {v : Value} (h : v.asRead = .ok v) :
    (Reply.served (.ok v)).asRead = .served (.ok v) :=
  congrArg (fun a : Except Fault Value => Reply.served (a.mapError .register)) h

/-- Reading changes no reply of a readable ledger. -/
theorem asRead_reply {m : Ledger} (hm : m.Readable) {r : Request} (hr : r.HasFourDigitYears) :
    (r.onLedger m).1.asRead = (r.onLedger m).1 := by
  cases r with
  | create c =>
    rw [Request.onLedger]
    cases (m.create c).1 <;> rfl
  | update c =>
    rw [Request.onLedger]
    cases (m.update c).1 <;> rfl
  | find id => exact asRead_direct (asRead_found hm id)
  | list q => exact asRead_direct (asRead_records hm q)
  | delete id =>
    rw [Request.onLedger]
    cases (m.delete id).1 <;> rfl
  | register i =>
    rw [Request.onLedger]
    obtain ⟨f, h⟩ | ⟨c, id, hc, -, h⟩ := m.register_cases i
    · rw [h]
      rfl
    · rw [h]
      exact asRead_served (asRead_record (hr c hc) id)
  | replace c =>
    rw [Request.onLedger]
    obtain ⟨f, h⟩ | ⟨id, -, -, h⟩ := m.update_cases c
    · rw [h]
      rfl
    · rw [h]
      exact asRead_served (asRead_record (hr c rfl) id)
  | get id => exact asRead_served (asRead_found hm id)
  | browse q => exact asRead_served (asRead_records hm q)
  | remove id =>
    rw [Request.onLedger]
    cases (m.delete id).1 <;> rfl

/-- Reading changes no reply of any number of requests. -/
theorem asRead_replies {m : Ledger} (hm : m.Readable) {rs : List Request}
    (hrs : ∀ r ∈ rs, r.HasFourDigitYears) :
    (runAll Request.onLedger rs m).1.map Reply.asRead = (runAll Request.onLedger rs m).1 := by
  induction rs generalizing m with
  | nil => rfl
  | cons r rs ih =>
    have hr := hrs r List.mem_cons_self
    have hrest := ih (readable_onLedger hm hr) fun r' hr' => hrs r' (List.mem_cons_of_mem r hr')
    show (r.onLedger m).1.asRead :: (runAll Request.onLedger rs (r.onLedger m).2).1.map _ = _
    rw [asRead_reply hm hr, hrest]
    rfl

end Ledger

/-- A new database replies as an empty ledger does. -/
theorem replies_eq_ledger (now : Instant) {rs : List (Instant × Request)}
    (h : ∀ r ∈ rs, r.2.HasFourDigitYears) :
    (runAll Request.onDatabaseAt rs ({ now } : Database).migrate.database).1 =
      (runAll Request.onLedger (rs.map Prod.snd) .empty).1 := by
  obtain ⟨last, hrun⟩ := runAll_database Ledger.kept_empty now rs
  have hyears : ∀ r ∈ rs.map Prod.snd, r.HasFourDigitYears := by
    intro r hr
    obtain ⟨e, he, rfl⟩ := List.mem_map.mp hr
    exact h e he
  rw [migrate_new, hrun]
  exact Ledger.asRead_replies Ledger.readable_empty hyears

/-- A new database cannot be told from an empty ledger by requests that write dates of four-digit
years only. The ledger keeps the records that are written, entered when their stored text shows, and
with tax rates that are the same numbers. -/
theorem replies_of_new_database (now : Instant) (rs : List (Instant × Request))
    (h : ∀ r ∈ rs, r.2.HasFourDigitYears) :
    (runAll Request.onDatabaseAt rs ({ now } : Database).migrate.database).1 =
        (runAll Request.onLedger (rs.map Prod.snd) .empty).1 ∧
      ∀ (c : Company) (id : Int16) (x : Float), c.validate = .ok () → c.taxRate = some x →
        ∃ y, (c.kept id).taxRate = some y ∧ (y == x) = true := by
  refine ⟨replies_eq_ledger now h, fun c id x hvalid hx => ?_⟩
  have hfinite := (Company.validate_eq_ok_iff.mp hvalid).2 x hx
  refine ⟨plainZero x, ?_, plainZero_beq hfinite⟩
  rw [Company.kept, hx]
  rfl

/-- A company as it was entered at the start of 1970. -/
def acme : Company :=
  { Company.enteredAt 1 .epoch with companyId := some 7, companyName := some "Acme" }

/-- Its record is added, found, taken out and missed. -/
theorem replies_about_acme :
    (runAll Request.onDatabaseAt
        [(.epoch, .create acme), (.epoch, .find 7), (.epoch, .remove 7), (.epoch, .get 7)]
        ({ now := .epoch } : Database).migrate.database).1 =
      [.direct (.ok (.id 7)), .direct (.ok (.found (some acme))), .served (.ok .done),
        .served (.ok (.found none))] := by
  have hyear : acme.enterDate.HasFourDigitYear := by
    show Instant.epoch.HasFourDigitYear
    decide
  refine (replies_of_new_database .epoch _ fun r hr => ?_).1.trans rfl
  simp only [List.mem_cons, List.not_mem_nil, or_false] at hr
  rcases hr with rfl | rfl | rfl | rfl
  · intro c hc
    exact (show acme = c from hc) ▸ hyear
  · exact fun _ hc => hc.elim
  · exact fun _ hc => hc.elim
  · exact fun _ hc => hc.elim

/-- The same company, entered a billion nanoseconds after another second than 59. -/
def lateAcme : Company := { acme with enterDate := .late }

/-- What is found of it was entered one second later. -/
theorem replies_about_lateAcme :
    lateAcme.enterDate.HasFourDigitYear ∧ ∃ c,
      (runAll Request.onDatabaseAt [(.epoch, .create lateAcme), (.epoch, .find 7)]
          ({ now := .epoch } : Database).migrate.database).1 =
        [.direct (.ok (.id 7)), .direct (.ok (.found (some c)))] ∧
      c.enterDate ≠ lateAcme.enterDate.floorMillis := by
  have hyear : Instant.late.HasFourDigitYear := by decide
  have hdate : Instant.late.stored ≠ Instant.late.floorMillis := by decide
  refine ⟨hyear, lateAcme.kept 7, ?_, hdate⟩
  refine (replies_eq_ledger .epoch fun r hr => ?_).trans rfl
  simp only [List.mem_cons, List.not_mem_nil, or_false] at hr
  rcases hr with rfl | rfl
  · intro c hc
    exact (show lateAcme = c from hc) ▸ hyear
  · exact fun _ hc => hc.elim

end CompanyRegister.Register
