import CompanyRegister.Proofs.Register.StoredRows

/-!
# One row at a time

An operation of the repository changes one row of the table of companies, or fails and changes
nothing. The other rows may hold cells of any kind. The faults are those that a reader of the rows
can foresee (`RefusesNew`, `RefusesChange`): no constraint of the table is the reason of one, since
a valid record breaks none.
-/

namespace CompanyRegister.Register

open Calendar Store

/-! ## Changes and faults -/

/-- From `d` to `e` the row of a number changes from `old` to `new`, and nothing else does. -/
def ChangesRow (n : Int) (old new : Option Cells) (d e : Database) : Prop :=
  ∃ rows rows', d.table? = some (table rows) ∧ e = d.withTable (table rows') ∧
    rows.get? n = old ∧ rows'.get? n = new ∧ ∀ k, k ≠ n → rows'.get? k = rows.get? k

/-- Why rows take in no new record. -/
inductive RefusesNew (rows : Rows Cells) (c : Company) : Fault → Prop
  | rule {v : Violation} (h : c.validate = .error v) : RefusesNew rows c (.rule v)
  | idTaken {id : Int16} (h : c.validate = .ok ()) (hid : c.companyId = some id)
      (htaken : rows.contains id.toInt = true) : RefusesNew rows c (.idTaken id)
  | idsExhausted (h : c.validate = .ok ()) (hid : c.companyId = none)
      (hlast : rows.lastId? = some 32767) : RefusesNew rows c .idsExhausted

/-- Why no row is replaced by a record. -/
inductive RefusesChange (rows : Rows Cells) (c : Company) : Fault → Prop
  | idMissing (hid : c.companyId = none) : RefusesChange rows c .idMissing
  | rule {id : Int16} {v : Violation} (hid : c.companyId = some id) (h : c.validate = .error v) :
      RefusesChange rows c (.rule v)
  | notFound {id : Int16} (hid : c.companyId = some id) (h : c.validate = .ok ())
      (habsent : rows.contains id.toInt = false) : RefusesChange rows c (.notFound id)

/-- Whether an id is the one that a new record asks for, or one above those of all rows, and the
first of all in a table without rows. -/
structure IsNewId (rows : Rows Cells) (c : Company) (id : Int16) : Prop where
  given : ∀ own, c.companyId = some own → id = own
  fresh : c.companyId = none → ∀ e ∈ rows.entries, e.1 < id.toInt
  first : c.companyId = none → rows.entries = [] → id = 1

/-- An operation on `d` fails just for the given faults and leaves `d` then, and else leaves what is
said of its answer. -/
structure Frames {α : Type} (o : Outcome Fault α) (d : Database) (refuses : Fault → Prop)
    (leaves : α → Database → Prop) : Prop where
  fault_iff : ∀ f, o.answer = .error f ↔ refuses f
  unchanged : ∀ f, o.answer = .error f → o.database = d
  changed : ∀ a, o.answer = .ok a → leaves a o.database

section Frames

variable {α : Type} {d e : Database} {refuses : Fault → Prop} {leaves : α → Database → Prop}

theorem frames_error {f : Fault} (hf : refuses f) (hunique : ∀ g, refuses g → g = f) :
    Frames (.ofAnswer d (.error f)) d refuses leaves where
  fault_iff g := by
    constructor
    · intro hg
      cases hg
      exact hf
    · intro hg
      rw [hunique g hg]
      rfl
  unchanged g _ := rfl
  changed a ha := by cases ha

theorem frames_ok {a : α} {events : List Log.Event} (h : ∀ g, ¬ refuses g) (hleaves : leaves a e) :
    Frames ⟨.ok a, e, events⟩ d refuses leaves where
  fault_iff g := by
    constructor
    · intro hg
      cases hg
    · intro hg
      exact absurd hg (h g)
  unchanged g hg := by cases hg
  changed b hb := by
    cases hb
    exact hleaves

end Frames

section Rows

variable {d : Database} {rows : Rows Cells}

theorem changesRow_put (htable : d.table? = some (table rows)) {n : Int} {old : Option Cells}
    (hold : rows.get? n = old) (cells : Cells) :
    ChangesRow n old (some cells) d (d.withTable (table (rows.put n cells))) := by
  refine ⟨rows, rows.put n cells, htable, rfl, hold, rows.get?_put_self n cells, ?_⟩
  intro k hk
  exact rows.get?_put_of_ne cells hk

theorem changesRow_erase (htable : d.table? = some (table rows)) {n : Int} {old : Option Cells}
    (hold : rows.get? n = old) :
    ChangesRow n old none d (d.withTable (table (rows.erase n))) := by
  refine ⟨rows, rows.erase n, htable, rfl, hold, rows.get?_erase_self n, ?_⟩
  intro k hk
  exact rows.get?_erase_of_ne hk

/-- The number of a new row is beyond the small ones only behind the last of these. -/
theorem freshId_of_small (hsmall : ∀ e ∈ rows.entries, -32768 ≤ e.1 ∧ e.1 ≤ 32767) :
    -32768 ≤ rows.freshId ∧ (32767 < rows.freshId ↔ rows.lastId? = some 32767) := by
  rw [Rows.freshId]
  cases hlast : rows.lastId? with
  | none => simp
  | some n =>
    obtain ⟨last, hmem, rfl⟩ := Option.map_eq_some_iff.mp hlast
    have hbound := hsmall last (List.mem_of_getLast? hmem)
    simp only [Option.some.injEq]
    omega

end Rows

/-! ## Operations -/

section Operations

variable {d : Database} {rows : Rows Cells} {c : Company}

theorem refusesNew_unique {f g : Fault} (hf : RefusesNew rows c f) (hg : RefusesNew rows c g) :
    g = f := by
  cases hf <;> cases hg <;> simp_all

theorem refusesChange_unique {f g : Fault} (hf : RefusesChange rows c f)
    (hg : RefusesChange rows c g) : g = f := by
  cases hf <;> cases hg <;> simp_all

/-- The number that the table gives a new record is a new id. -/
theorem isNewId_of_number {id : Int16}
    (hid : c.companyId.elim rows.freshId Int16.toInt = id.toInt) : IsNewId rows c id where
  given own hown := by
    rw [hown] at hid
    exact Int16.toInt_inj.mp hid.symm
  fresh hnone e he := by
    rw [hnone] at hid
    rw [← hid]
    exact rows.lt_freshId e he
  first hnone hnil := by
    have hfresh : rows.freshId = 1 := by
      rw [Rows.freshId, Rows.lastId?, hnil]
      rfl
    rw [hnone] at hid
    exact Int16.toInt_inj.mp (hid.symm.trans hfresh)

/-- Nothing is wrong with a valid record that goes to a free place. -/
theorem not_refusesNew (hvalid : c.validate = .ok ()) {id : Int16}
    (hid : c.companyId.elim rows.freshId Int16.toInt = id.toInt)
    (hfree : rows.contains id.toInt = false) (f : Fault) : ¬ RefusesNew rows c f := by
  intro hf
  cases hf with
  | rule h => cases hvalid.symm.trans h
  | idTaken h hown htaken =>
    rw [hown] at hid
    rw [← hid] at hfree
    cases hfree.symm.trans htaken
  | idsExhausted h hnone hlast =>
    have hhigh := (toInt_mem_smallRange id).2
    rw [hnone, Option.elim_none, Rows.freshId, hlast] at hid
    dsimp only at hid
    omega

theorem frames_create_of_free (htable : d.table? = some (table rows)) (hvalid : c.validate = .ok ())
    {id : Int16} (hid : c.companyId.elim rows.freshId Int16.toInt = id.toInt)
    (hfree : rows.contains id.toInt = false) :
    Frames (create c d) d (RefusesNew rows c) fun id e =>
      IsNewId rows c id ∧ ChangesRow id.toInt none (some (c.kept id).plainCells) d e := by
  have hnone : rows.get? id.toInt = none := by simpa [Rows.contains] using hfree
  rw [create_of_free (table_eq_ok htable) hvalid hid hfree]
  exact frames_ok (not_refusesNew hvalid hid hfree)
    ⟨isNewId_of_number hid, changesRow_put htable hnone _⟩

theorem frames_create (htable : d.table? = some (table rows))
    (hsmall : ∀ e ∈ rows.entries, -32768 ≤ e.1 ∧ e.1 ≤ 32767) (c : Company) :
    Frames (create c d) d (RefusesNew rows c) fun id e =>
      IsNewId rows c id ∧ ChangesRow id.toInt none (some (c.kept id).plainCells) d e := by
  cases hvalid : c.validate with
  | error v =>
    have hcreate : create c d = .ofAnswer d (.error (.rule v)) := by rw [create, hvalid]
    rw [hcreate]
    exact frames_error (.rule hvalid) fun g => refusesNew_unique (.rule hvalid)
  | ok =>
    cases hid : c.companyId with
    | some id =>
      have hnumber : c.companyId.elim rows.freshId Int16.toInt = id.toInt := by rw [hid]; rfl
      cases hcontains : rows.contains id.toInt with
      | true =>
        have hrefuses : RefusesNew rows c (.idTaken id) := .idTaken hvalid hid hcontains
        rw [create_of_taken (table_eq_ok htable) hvalid hid hcontains]
        exact frames_error hrefuses fun g => refusesNew_unique hrefuses
      | false => exact frames_create_of_free htable hvalid hnumber hcontains
    | none =>
      have hnumber : c.companyId.elim rows.freshId Int16.toInt = rows.freshId := by rw [hid]; rfl
      obtain ⟨hlow, hhigh⟩ := freshId_of_small hsmall
      by_cases hlarge : 32767 < rows.freshId
      · have hrefuses : RefusesNew rows c .idsExhausted :=
          .idsExhausted hvalid hid (hhigh.mp hlarge)
        rw [create_of_large (table_eq_ok htable) hvalid hid hlarge]
        exact frames_error hrefuses fun g => refusesNew_unique hrefuses
      · have hid16 : (Int16.ofInt rows.freshId).toInt = rows.freshId :=
          Int16.toInt_ofInt_of_le (by omega) (by omega)
        apply frames_create_of_free htable hvalid (hnumber.trans hid16.symm)
        rw [hid16]
        exact rows.contains_freshId

theorem frames_update (htable : d.table? = some (table rows)) (c : Company) :
    Frames (update c d) d (RefusesChange rows c) fun _ e =>
      ∃ id old, c.companyId = some id ∧ rows.get? id.toInt = some old ∧
        ChangesRow id.toInt (some old) (some (c.kept id).plainCells) d e := by
  cases hid : c.companyId with
  | none =>
    have hupdate : update c d = .ofAnswer d (.error .idMissing) := by rw [update, hid]
    rw [hupdate]
    exact frames_error (.idMissing hid) fun g => refusesChange_unique (.idMissing hid)
  | some id =>
    cases hvalid : c.validate with
    | error v =>
      have hupdate : update c d = .ofAnswer d (.error (.rule v)) := by
        rw [update, hid]
        dsimp only
        rw [hvalid]
      rw [hupdate]
      exact frames_error (.rule hid hvalid) fun g => refusesChange_unique (.rule hid hvalid)
    | ok =>
      rw [update_of_table (table_eq_ok htable) hid hvalid]
      cases hget : rows.get? id.toInt with
      | none =>
        have habsent : rows.contains id.toInt = false := by rw [Rows.contains, hget]; rfl
        rw [habsent]
        exact frames_error (.notFound hid hvalid habsent)
          fun g => refusesChange_unique (.notFound hid hvalid habsent)
      | some old =>
        have hpresent : rows.contains id.toInt = true := by rw [Rows.contains, hget]; rfl
        rw [hpresent]
        apply frames_ok
        · intro g hg
          cases hg <;> simp_all
        · exact ⟨id, old, rfl, hget, changesRow_put htable hget _⟩

theorem frames_delete (htable : d.table? = some (table rows)) (id : Int16) :
    Frames (delete id d) d (fun f => rows.contains id.toInt = false ∧ f = .notFound id)
      fun _ e => ∃ old, rows.get? id.toInt = some old ∧
        ChangesRow id.toInt (some old) none d e := by
  rw [delete_of_table (table_eq_ok htable)]
  cases hget : rows.get? id.toInt with
  | none =>
    have habsent : rows.contains id.toInt = false := by rw [Rows.contains, hget]; rfl
    rw [habsent]
    exact frames_error ⟨rfl, rfl⟩ fun g hg => hg.2
  | some old =>
    have hpresent : rows.contains id.toInt = true := by rw [Rows.contains, hget]; rfl
    rw [hpresent]
    apply frames_ok
    · intro g hg
      cases hg.1
    · exact ⟨old, rfl, changesRow_erase htable hget⟩

end Operations

/-- On rows of any cells, an operation of the repository changes the row that it is about and no
other, or fails for one of the faults that can be foreseen and changes nothing. -/
theorem operations_framed {d : Database} {rows : Rows Cells}
    (htable : d.table? = some (table rows))
    (hsmall : ∀ e ∈ rows.entries, -32768 ≤ e.1 ∧ e.1 ≤ 32767) (c : Company) (id : Int16) :
    (Frames (create c d) d (RefusesNew rows c) fun n e =>
      IsNewId rows c n ∧ ChangesRow n.toInt none (some (c.kept n).plainCells) d e) ∧
    (Frames (update c d) d (RefusesChange rows c) fun _ e =>
      ∃ n old, c.companyId = some n ∧ rows.get? n.toInt = some old ∧
        ChangesRow n.toInt (some old) (some (c.kept n).plainCells) d e) ∧
    (Frames (delete id d) d (fun f => rows.contains id.toInt = false ∧ f = .notFound id) fun _ e =>
      ∃ old, rows.get? id.toInt = some old ∧ ChangesRow id.toInt (some old) none d e) :=
  ⟨frames_create htable hsmall c, frames_update htable c, frames_delete htable id⟩

/-- A row with the largest id, and with cells that no operation writes. -/
def oddRows : Rows Cells :=
  Rows.empty.put 32767 [("CompanyName", .blob [0]), ("BaseRate", .text "cheap"),
    ("EnterUserId", .text "nobody"), ("EnterDate", .text "some day")]

def oddDatabase : Database := Database.empty.withTable (table oddRows)

/-- It leaves no id for another record, and can be taken out. -/
theorem oddRow_framed :
    (create { acme with companyId := none } oddDatabase).answer = .error .idsExhausted ∧
      (create { acme with companyId := none } oddDatabase).database = oddDatabase ∧
      ∃ old, oddRows.get? 32767 = some old ∧
        ChangesRow 32767 (some old) none oddDatabase (delete 32767 oddDatabase).database := by
  have hsmall : ∀ e ∈ oddRows.entries, -32768 ≤ e.1 ∧ e.1 ≤ 32767 := by
    intro e he
    rw [List.mem_singleton.mp he]
    decide
  have hvalid : ({ acme with companyId := none } : Company).validate = .ok () := rfl
  have hframed :=
    operations_framed (d := oddDatabase) rfl hsmall { acme with companyId := none } 32767
  have hfault := (hframed.1.fault_iff .idsExhausted).mpr (.idsExhausted hvalid rfl rfl)
  exact ⟨hfault, hframed.1.unchanged _ hfault, hframed.2.2.changed () rfl⟩

end CompanyRegister.Register
