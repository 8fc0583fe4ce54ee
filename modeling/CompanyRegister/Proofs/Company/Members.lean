import Mathlib.Data.List.Perm.Subperm
import CompanyRegister.Proofs.Company.Document
import CompanyRegister.Proofs.Json.Steady

/-!
# The members of an object in any order

An object is read member by member in the order of the text. Here this is done once more on the
entries alone: `Input.takeEntries` knows nothing of gaps, of the spelling of a key or of what stands
behind a value. An object document gives what its entries give (`Input.toOption_ofJson_text`), since
every reader of a field is steady.

On entries the rest is a matter of lists. Two entries may change places, because they give different
fields (`takeEntries_perm`); an entry that is `null` changes nothing (`takeEntries_null`); and an
entry without a field of its own refuses all (`takeEntries_of_refused`).
-/

namespace CompanyRegister

open Json Text

/-! ## Fields -/

namespace Field

theorem ofName?_eq_some_iff {s : List Char} {f : Field} :
    ofName? s = some f ↔ s = f.name.toList := by
  constructor
  · intro h
    have hname := List.find?_some (p := fun f : Field => decide (f.name.toList = s)) h
    exact (of_decide_eq_true hname).symm
  · rintro rfl
    exact ofName?_name f

/-- Fields that are all different are no more than there are, and are all of them if they are that
many. -/
theorem mem_of_nodup {given : List Field} (hnodup : given.Nodup)
    (hlength : all.length ≤ given.length) (f : Field) : f ∈ given := by
  have hsub : given.Subperm all := List.subperm_of_subset hnodup fun g _ => mem_all g
  exact (hsub.perm_of_length_le hlength).mem_iff.mpr (mem_all f)

/-- What an input says of a field. -/
def Content : Field → Type
  | companyId => Option Int16
  | companyName => Option String
  | baseRate => Option Money
  | defaultCurrencyId => Option Int16
  | enterUserId => Option Int32
  | enterDate => Option String
  | taxRate => Option Float
  | companyGroupId => Option Int32

def missing : (f : Field) → f.Content
  | companyId => (none : Option Int16)
  | companyName => (none : Option String)
  | baseRate => (none : Option Money)
  | defaultCurrencyId => (none : Option Int16)
  | enterUserId => (none : Option Int32)
  | enterDate => (none : Option String)
  | taxRate => (none : Option Float)
  | companyGroupId => (none : Option Int32)

/-- A whole number that may be missing, or `null`. -/
def readWhole {α : Type} (lo hi : Int) (expected : String) (view : Int → α) (text : List Char) :
    Except Fault (Option α × List Char) :=
  (nullable (wholeNumber lo hi expected) text).map fun r => (r.1.map view, r.2)

def readText (text : List Char) : Except Fault (Option String × List Char) :=
  (nullable stringValue text).map fun r => (r.1.map String.ofList, r.2)

/-- Read what a text says of a field. -/
def read : (f : Field) → List Char → Except Fault (f.Content × List Char)
  | companyId => readWhole (-32768) 32767 "i16" Int.toInt16
  | companyName => readText
  | baseRate => nullable Money.read
  | defaultCurrencyId => readWhole (-32768) 32767 "i16" Int.toInt16
  | enterUserId => readWhole (-2147483648) 2147483647 "i32" Int.toInt32
  | enterDate => readText
  | taxRate => nullable floatNumber
  | companyGroupId => readWhole (-2147483648) 2147483647 "i32" Int.toInt32

end Field

namespace Input

/-- An input that says something else of one field. -/
def set (i : Input) : (f : Field) → f.Content → Input
  | .companyId, v => { i with companyId := v }
  | .companyName, v => { i with companyName := v }
  | .baseRate, v => { i with baseRate := v }
  | .defaultCurrencyId, v => { i with defaultCurrencyId := v }
  | .enterUserId, v => { i with enterUserId := v }
  | .enterDate, v => { i with enterDate := v }
  | .taxRate, v => { i with taxRate := v }
  | .companyGroupId, v => { i with companyGroupId := v }

theorem set_comm (i : Input) {f g : Field} (h : f ≠ g) (v : f.Content) (w : g.Content) :
    (i.set f v).set g w = (i.set g w).set f v := by
  cases f <;> cases g <;> first | rfl | exact absurd rfl h

theorem set_missing (f : Field) : ({} : Input).set f f.missing = {} := by
  cases f <;> rfl

theorem bind_pair {β γ : Type} (x : Except Fault (β × List Char)) (view : β → γ)
    (put : γ → Input) :
    (x >>= fun r => pure (put (view r.1), r.2)) =
      (x.map fun r => (view r.1, r.2)).map fun r => (put r.1, r.2) := by
  cases x <;> rfl

theorem readField_eq (f : Field) (i : Input) (text : List Char) :
    readField f i text = (f.read text).map fun r => (i.set f r.1, r.2) := by
  cases f with
  | companyId => exact bind_pair _ (Option.map Int.toInt16) (i.set .companyId)
  | companyName => exact bind_pair _ (Option.map String.ofList) (i.set .companyName)
  | baseRate => cases h : nullable Money.read text <;> simp only [readField, Field.read, h] <;> rfl
  | defaultCurrencyId => exact bind_pair _ (Option.map Int.toInt16) (i.set .defaultCurrencyId)
  | enterUserId => exact bind_pair _ (Option.map Int.toInt32) (i.set .enterUserId)
  | enterDate => exact bind_pair _ (Option.map String.ofList) (i.set .enterDate)
  | taxRate => cases h : nullable floatNumber text <;> simp only [readField, Field.read, h] <;> rfl
  | companyGroupId => exact bind_pair _ (Option.map Int.toInt32) (i.set .companyGroupId)

end Input

/-! ## Reading one field -/

section Reading

variable {text gap : List Char}

theorem Money.goesByHead_read : GoesByHead Money.read fun h => (Money.ofHead h).toOption where
  toOption_eq text := by
    rw [Money.read]
    cases readHead text with
    | error f => rfl
    | ok r =>
      simp only [bind, Except.bind, Except.toOption, Option.bind_some]
      cases Money.ofHead r.1 <;> rfl
  no_bracket h hopen := by
    cases h with
    | list => rfl
    | object => rfl
    | _ => cases hopen

namespace Field

theorem readsValues_readWhole {α : Type} (lo hi : Int) (expected : String) (view : Int → α) :
    ReadsValues (readWhole lo hi expected view) := by
  obtain ⟨_, htake⟩ := goesByHead_wholeNumber lo hi expected
  exact htake.readsValues_nullable.map (Option.map view)

theorem readsValues_readText : ReadsValues readText := by
  obtain ⟨_, htake⟩ := goesByHead_stringValue
  exact htake.readsValues_nullable.map (Option.map String.ofList)

theorem readsValues (f : Field) : ReadsValues f.read := by
  cases f with
  | companyId => exact readsValues_readWhole _ _ _ _
  | companyName => exact readsValues_readText
  | baseRate => exact Money.goesByHead_read.readsValues_nullable
  | defaultCurrencyId => exact readsValues_readWhole _ _ _ _
  | enterUserId => exact readsValues_readWhole _ _ _ _
  | enterDate => exact readsValues_readText
  | taxRate =>
    obtain ⟨_, htake⟩ := goesByHead_floatNumber
    exact htake.readsValues_nullable
  | companyGroupId => exact readsValues_readWhole _ _ _ _

theorem outcome_null (f : Field) : outcome f.read ['n', 'u', 'l', 'l'] = some f.missing := by
  cases f <;> rfl

end Field

end Reading

/-! ## Entries one by one -/

namespace Json.Entry

/-- The field that an entry is about. -/
def field? (e : Entry) : Option Field := e.key.bind Field.ofName?

/-- The entry that gives a field as `null`. -/
def null (f : Field) : Entry := ⟨some f.name.toList, ['n', 'u', 'l', 'l']⟩

theorem field?_eq_some_iff {e : Entry} {f : Field} :
    e.field? = some f ↔ e.key = some f.name.toList := by
  rw [field?, Option.bind_eq_some_iff]
  constructor
  · rintro ⟨s, hkey, hname⟩
    rw [hkey, Field.ofName?_eq_some_iff.mp hname]
  · intro hkey
    exact ⟨_, hkey, Field.ofName?_name f⟩

end Json.Entry

namespace Input

/-- Take entries into an input one by one; `given` are the fields taken before. -/
def takeEntries (given : List Field) (i : Input) : List Entry → Option Input
  | [] => some i
  | e :: es => e.field?.bind fun f =>
    if f ∈ given then none
    else (outcome f.read e.value).bind fun v => takeEntries (f :: given) (i.set f v) es

section Entries

variable {given : List Field} {i : Input} {es : List Entry}

/-- Only what has been given of the fields in the entries matters. -/
theorem takeEntries_congr {others : List Field}
    (h : ∀ e ∈ es, ∀ f, e.field? = some f → (f ∈ given ↔ f ∈ others)) :
    takeEntries given i es = takeEntries others i es := by
  induction es generalizing given others i with
  | nil => rfl
  | cons e es ih =>
    rw [takeEntries, takeEntries]
    cases hfield : e.field? with
    | none => rfl
    | some f =>
      have hgiven := h e List.mem_cons_self f hfield
      have hrest : ∀ e ∈ es, ∀ g, e.field? = some g → (g ∈ f :: given ↔ g ∈ f :: others) := by
        intro e he g hg
        rw [List.mem_cons, List.mem_cons, h e (List.mem_cons_of_mem _ he) g hg]
      simp only [Option.bind_some, hgiven, ih hrest]

/-- An entry that is refused on its own refuses all, wherever it stands. -/
theorem takeEntries_of_refused {e : Entry} (he : e ∈ es)
    (hrefused : ∀ f, e.field? = some f → f ∉ given → outcome f.read e.value = none) :
    takeEntries given i es = none := by
  induction es generalizing given i with
  | nil => cases he
  | cons d es ih =>
    rw [takeEntries]
    rcases List.mem_cons.mp he with rfl | he
    · cases hfield : e.field? with
      | none => rfl
      | some f =>
        by_cases hgiven : f ∈ given
        · simp only [Option.bind_some, if_pos hgiven]
        · simp only [Option.bind_some, if_neg hgiven, hrefused f hfield hgiven, Option.bind_none]
    · -- What has been given only grows, so the entry is refused later too.
      have hlater : ∀ g i, takeEntries (g :: given) i es = none := by
        intro g i
        apply ih he
        intro f hfield hgiven
        exact hrefused f hfield fun hmem => hgiven (List.mem_cons_of_mem g hmem)
      simp [hlater]

theorem takeEntries_cons_of_taken {e : Entry} {f : Field} (hfield : e.field? = some f)
    (hgiven : f ∉ given) {v : f.Content} (hvalue : outcome f.read e.value = some v) :
    takeEntries given i (e :: es) = takeEntries (f :: given) (i.set f v) es := by
  simp only [takeEntries, hfield, Option.bind_some, if_neg hgiven, hvalue]

/-- Two entries may change places: they are about different fields, or all is refused. -/
theorem takeEntries_swap (e d : Entry) :
    takeEntries given i (e :: d :: es) = takeEntries given i (d :: e :: es) := by
  -- Either is refused on its own, or has a field that has not been given and a value for it.
  have htaken : ∀ e : Entry,
      (∀ f, e.field? = some f → f ∉ given → outcome f.read e.value = none) ∨
        ∃ f v, e.field? = some f ∧ f ∉ given ∧ outcome f.read e.value = some v := by
    intro e
    by_cases h : ∀ f, e.field? = some f → f ∉ given → outcome f.read e.value = none
    · exact .inl h
    · push Not at h
      obtain ⟨f, hfield, hgiven, hvalue⟩ := h
      obtain ⟨v, hv⟩ := Option.ne_none_iff_exists'.mp hvalue
      exact .inr ⟨f, v, hfield, hgiven, hv⟩
  rcases htaken e with he | ⟨f, v, hf, hfgiven, hv⟩
  · rw [takeEntries_of_refused List.mem_cons_self he,
      takeEntries_of_refused (List.mem_cons_of_mem d List.mem_cons_self) he]
  · rcases htaken d with hd | ⟨g, w, hg, hggiven, hw⟩
    · rw [takeEntries_of_refused List.mem_cons_self hd,
        takeEntries_of_refused (List.mem_cons_of_mem e List.mem_cons_self) hd]
    · rw [takeEntries_cons_of_taken hf hfgiven hv, takeEntries_cons_of_taken hg hggiven hw]
      by_cases hsame : f = g
      · -- The second of two entries about one field is refused.
        subst hsame
        have hrefused : ∀ d : Entry, d.field? = some f →
            ∀ f', d.field? = some f' → f' ∉ f :: given → outcome f'.read d.value = none := by
          intro d hd f' hf' hnot
          rw [hd] at hf'
          cases hf'
          exact absurd List.mem_cons_self hnot
        rw [takeEntries_of_refused List.mem_cons_self (hrefused d hg),
          takeEntries_of_refused List.mem_cons_self (hrefused e hf)]
      · have hg' : g ∉ f :: given := List.not_mem_cons_of_ne_of_not_mem (Ne.symm hsame) hggiven
        have hf' : f ∉ g :: given := List.not_mem_cons_of_ne_of_not_mem hsame hfgiven
        rw [takeEntries_cons_of_taken hg hg' hw, takeEntries_cons_of_taken hf hf' hv,
          set_comm i hsame v w]
        apply takeEntries_congr
        intro _ _ h _
        simp only [List.mem_cons]
        tauto

/-- The order of entries does not matter. -/
theorem takeEntries_perm {es es' : List Entry} (h : es.Perm es') (given : List Field) (i : Input) :
    takeEntries given i es = takeEntries given i es' := by
  induction h generalizing given i with
  | nil => rfl
  | cons e _ ih => simp only [takeEntries, ih]
  | swap e d es => exact takeEntries_swap d e
  | trans _ _ ihfirst ihsecond => exact (ihfirst given i).trans (ihsecond given i)

/-- A field that an entry names twice refuses all. -/
theorem takeEntries_of_twice {f : Field}
    (h : 2 ≤ (es.map Entry.key).count (some f.name.toList)) : takeEntries given i es = none := by
  induction es generalizing given i with
  | nil => simp at h
  | cons e es ih =>
    rw [takeEntries]
    by_cases hkey : e.key = some f.name.toList
    · -- The first of them takes the field, so the second is refused.
      rw [Entry.field?_eq_some_iff.mpr hkey]
      rw [List.map_cons, hkey, List.count_cons_self] at h
      have hsecond : some f.name.toList ∈ es.map Entry.key :=
        List.count_pos_iff.mp (Nat.le_of_succ_le_succ h)
      obtain ⟨d, hd, hdkey⟩ := List.mem_map.mp hsecond
      have hrest : ∀ i, takeEntries (f :: given) i es = none := by
        intro i
        apply takeEntries_of_refused hd
        intro g hg hnot
        rw [Entry.field?_eq_some_iff.mpr hdkey] at hg
        cases hg
        exact absurd List.mem_cons_self hnot
      simp [hrest]
    · rw [List.map_cons, List.count_cons_of_ne hkey] at h
      have hrest : ∀ given i, takeEntries given i es = none := fun given i => ih h
      simp [hrest]

/-- Fields given as `null` in front of entries that do not name them change nothing. -/
theorem takeEntries_null {absent : List Field} (hnodup : absent.Nodup)
    (hgiven : ∀ f ∈ absent, f ∉ given) (hnew : ∀ f ∈ absent, ∀ e ∈ es, e.field? ≠ some f) :
    takeEntries given {} (absent.map Entry.null ++ es) = takeEntries given {} es := by
  induction absent generalizing given with
  | nil => rfl
  | cons f absent ih =>
    obtain ⟨hf, hnodup⟩ := List.nodup_cons.mp hnodup
    have hfield : (Entry.null f).field? = some f := Entry.field?_eq_some_iff.mpr rfl
    have hlater : ∀ g ∈ absent, g ∉ f :: given := by
      intro g hg
      refine List.not_mem_cons_of_ne_of_not_mem ?_ (hgiven g (List.mem_cons_of_mem f hg))
      rintro rfl
      exact hf hg
    rw [List.map_cons, List.cons_append,
      takeEntries_cons_of_taken hfield (hgiven f List.mem_cons_self) f.outcome_null, set_missing,
      ih hnodup hlater fun g hg => hnew g (List.mem_cons_of_mem f hg)]
    apply takeEntries_congr
    intro e he g hg
    have hne : g ≠ f := by
      rintro rfl
      exact hnew g List.mem_cons_self e he hg
    simp only [List.mem_cons, hne, false_or]

end Entries

/-! ## Members one by one -/

section Members

variable {free : Nat} {given : List Field} {m : ObjectMember} {text tail : List Char}

theorem readMembers_gap {gap : List Char} (hgap : AllGap gap) (free : Nat) (given : List Field)
    (i : Input) (text : List Char) :
    readMembers free given i (gap ++ text) = readMembers free given i text := by
  unfold readMembers
  rw [nextMember_gap _ hgap]

theorem toOption_fieldOfKey (given : List Field) (key rest : List Char) :
    (leaveObject rest (fieldOfKey given key)).toOption =
      (Field.ofName? key).bind fun f => if f ∈ given then none else some f := by
  rw [fieldOfKey]
  cases Field.ofName? key with
  | none => rfl
  | some f =>
    show (leaveObject rest (if f ∈ given then _ else _)).toOption =
      if f ∈ given then none else some f
    split <;> rfl

theorem toOption_readField (f : Field) (i : Input) {gap : List Char} (hgap : AllGap gap)
    {value rest : List Char} (hvalue : IsValue value) (hend : EndsNumber rest) :
    (readField f i (gap ++ (value ++ rest))).toOption =
      (outcome f.read value).map fun v => (i.set f v, rest) := by
  rw [readField_eq, toOption_map, f.readsValues.toOption_eq hgap hvalue hend, Option.map_map]
  rfl

/-- A member is taken as its entry is, and then those behind it are. -/
theorem readMembers_objectMember (hvalue : IsValue m.value) (hnodup : given.Nodup)
    (hfree : Field.all.length ≤ given.length + free)
    {rest : List Char} (hend : EndsNumber (m.behind.text ++ rest))
    (hnext : nextMember given.isEmpty text =
      (unquote (partsText m.key ++ (m.behindKey ++ rest))).map fun r => (.key r.1, r.2))
    (i : Input) :
    (readMembers free given i text).toOption =
      m.entry.field?.bind fun f =>
        if f ∈ given then none
        else (outcome f.read m.value).bind fun v =>
          (readMembers (free - 1) (f :: given) (i.set f v) rest).toOption := by
  have hbehind : m.behindKey ++ rest = m.beforeColon.text ++
      ':' :: (m.behindColon.text ++ (m.value ++ (m.behind.text ++ rest))) := by
    simp only [ObjectMember.behindKey, List.append_assoc, List.cons_append]
  conv_lhs => unfold readMembers
  rw [toOption_bind, hnext, toOption_map, unquote_parts, Entry.field?, ObjectMember.entry, hbehind]
  cases decode m.key with
  | none => rfl
  | some key =>
    simp only [Option.map_some, Option.bind_some, toOption_bind, toOption_fieldOfKey]
    cases Field.ofName? key with
    | none => rfl
    | some f =>
      by_cases hgiven : f ∈ given
      · simp only [Option.bind_some, if_pos hgiven, Option.bind_none]
      · obtain ⟨free, rfl⟩ : ∃ n, free = n + 1 := by
          refine ⟨free - 1, ?_⟩
          have hroom : ¬ Field.all.length ≤ given.length :=
            fun hfull => hgiven (Field.mem_of_nodup hnodup hfull f)
          omega
        simp only [Option.bind_some, if_neg hgiven, colon_gap m.beforeColon.allGap, toOption_ok,
          toOption_readField f i m.behindColon.allGap hvalue hend]
        cases outcome f.read m.value with
        | none => rfl
        | some v =>
          show (readMembers free (f :: given) (i.set f v) (m.behind.text ++ rest)).toOption = _
          rw [readMembers_gap m.behind.allGap]
          rfl

/-- If those behind a member are taken as entries are, the member and those are. -/
theorem readMembers_cons (hvalue : IsValue m.value) (hnodup : given.Nodup)
    (hfree : Field.all.length ≤ given.length + free)
    {rest : List Char} (hend : EndsNumber rest)
    (hnext : nextMember given.isEmpty text =
      (unquote (partsText m.key ++ (m.behindKey ++ rest))).map fun r => (.key r.1, r.2))
    {i : Input} {es : List Entry}
    (hrest : ∀ f v, f ∉ given → (readMembers (free - 1) (f :: given) (i.set f v) rest).toOption =
      (takeEntries (f :: given) (i.set f v) es).map fun i => (i, tail)) :
    (readMembers free given i text).toOption =
      (takeEntries given i (m.entry :: es)).map fun i => (i, tail) := by
  have hend' := endsNumber_gap m.behind.allGap hend
  rw [readMembers_objectMember hvalue hnodup hfree hend' hnext, takeEntries, Option.map_bind]
  congr 1
  funext f
  by_cases hgiven : f ∈ given
  · simp only [Function.comp, if_pos hgiven, Option.map_none]
  · simp only [Function.comp, if_neg hgiven, Option.map_bind]
    congr 1
    funext v
    exact hrest f v hgiven

/-- Members behind another one, up to the end of a text. -/
def behindMember (ms : List ObjectMember) (tail : List Char) : List Char :=
  ms.flatMap (fun m => ',' :: m.text) ++ '\x7d' :: tail

theorem endsNumber_behindMember (ms : List ObjectMember) (tail : List Char) :
    EndsNumber (behindMember ms tail) := by
  intro c hc
  cases ms <;> cases hc <;> decide

/-- Members behind another are taken as their entries are. -/
theorem readMembers_behindMember {ms : List ObjectMember} (hvalues : ∀ m ∈ ms, IsValue m.value)
    {g : Field} (hnodup : (g :: given).Nodup)
    (hfree : Field.all.length ≤ (g :: given).length + free) (i : Input) :
    (readMembers free (g :: given) i (behindMember ms tail)).toOption =
      (takeEntries (g :: given) i (ms.map ObjectMember.entry)).map
        fun i => (i, '\x7d' :: tail) := by
  -- What has been given grows with each member, and the room for others shrinks.
  induction ms generalizing free g given i with
  | nil =>
    unfold readMembers
    rw [behindMember, List.flatMap_nil, List.nil_append]
    rfl
  | cons m ms ih =>
    obtain ⟨hvalue, hvalues⟩ := List.forall_mem_cons.mp hvalues
    have htext : behindMember (m :: ms) tail = ',' :: (m.before.text ++
        '"' :: (partsText m.key ++ (m.behindKey ++ behindMember ms tail))) := by
      simp only [behindMember, List.flatMap_cons, ObjectMember.text, List.append_assoc,
        List.cons_append]
    rw [htext, List.map_cons]
    apply readMembers_cons hvalue hnodup hfree (endsNumber_behindMember ms tail)
    · exact nextMember_string_later m.before.allGap _
    · intro f v hgiven
      apply ih hvalues (List.nodup_cons.mpr ⟨hgiven, hnodup⟩)
      rw [List.length_cons]
      omega

/-- What stands between the braces of an object is taken as its entries are. -/
theorem readMembers_between (gap : Gap) {ms : List ObjectMember}
    (hvalues : ∀ m ∈ ms, IsValue m.value) (tail : List Char) :
    (readMembers Field.all.length [] {}
        (between gap (ms.map ObjectMember.text) ++ '\x7d' :: tail)).toOption =
      (takeEntries [] {} (ms.map ObjectMember.entry)).map fun i => (i, '\x7d' :: tail) := by
  cases ms with
  | nil =>
    show (readMembers Field.all.length [] {} (gap.text ++ '\x7d' :: tail)).toOption = _
    rw [readMembers_gap gap.allGap]
    unfold readMembers
    rfl
  | cons m ms =>
    obtain ⟨hvalue, hvalues⟩ := List.forall_mem_cons.mp hvalues
    have hjoined : [','].intercalate (m.text :: ms.map ObjectMember.text) =
        m.text ++ (ms.map ObjectMember.text).flatMap ([','] ++ ·) :=
      intercalate_append_cons [','] [] m.text (ms.map ObjectMember.text)
    have htext : between gap ((m :: ms).map ObjectMember.text) ++ '\x7d' :: tail =
        m.before.text ++ '"' :: (partsText m.key ++ (m.behindKey ++ behindMember ms tail)) := by
      show [','].intercalate (m.text :: ms.map ObjectMember.text) ++ '\x7d' :: tail = _
      rw [hjoined, List.flatMap_map, ObjectMember.text, behindMember]
      simp only [List.append_assoc, List.cons_append, List.nil_append]
    rw [htext, List.map_cons]
    apply readMembers_cons hvalue List.nodup_nil (Nat.le_add_left _ _)
      (endsNumber_behindMember ms tail)
    · exact nextMember_string_first m.before.allGap _
    · intro f v _
      exact readMembers_behindMember hvalues (List.pairwise_singleton _ f) (Nat.le_refl _) _

/-- An object is read as the input that its entries give. -/
theorem toOption_ofJson_text (d : ObjectDocument) :
    (ofJson d.text).toOption = takeEntries [] {} d.entries := by
  have htext : d.text = d.before.text ++ '\x7b' ::
      (between d.gap (d.members.map ObjectMember.text) ++ '\x7d' :: d.behind.text) := by
    simp only [ObjectDocument.text, objectText, List.append_assoc, List.cons_append,
      List.nil_append]
  have hhead : readHead d.text = .ok (.object,
      between d.gap (d.members.map ObjectMember.text) ++ '\x7d' :: d.behind.text) := by
    rw [htext, readHead_gap d.before.allGap]
    rfl
  rw [ofJson, toOption_mapError, readDocument, toOption_bind, read, hhead]
  simp only [toOption_bind, toOption_ok, Option.bind_some,
    readMembers_between d.gap d.isValue d.behind.text]
  rw [ObjectDocument.entries]
  cases takeEntries [] {} (d.members.map ObjectMember.entry) with
  | none => rfl
  | some i =>
    show (endOfDocument d.behind.text).toOption.bind (fun _ => some i) = some i
    rw [endOfDocument_gap d.behind.allGap]
    rfl

end Members

/-! ## The order of members -/

/-- Two readings give the same input, or each gives one violation: the text is no input. -/
def Agree (a b : Except (List Violation) Input) : Prop :=
  (∃ i, a = .ok i ∧ b = .ok i) ∨
    ∃ r s, a = .error [.malformed r] ∧ b = .error [.malformed s]

/-- A text that gives no input is one violation. -/
theorem ofJson_of_toOption_eq_none {text : List Char} (h : (ofJson text).toOption = none) :
    ∃ r, ofJson text = .error [.malformed r] := by
  rw [ofJson] at h ⊢
  cases hread : readDocument text with
  | error f => exact ⟨_, rfl⟩
  | ok i =>
    rw [hread] at h
    cases h

theorem agree_of_toOption_eq {text text' : List Char}
    (h : (ofJson text).toOption = (ofJson text').toOption) :
    Agree (ofJson text) (ofJson text') := by
  cases hread : ofJson text with
  | ok i =>
    cases hread' : ofJson text' with
    | ok j =>
      rw [hread, hread'] at h
      cases h
      exact .inl ⟨_, rfl, rfl⟩
    | error vs =>
      rw [hread, hread'] at h
      cases h
  | error vs =>
    have hnone : (ofJson text).toOption = none := by rw [hread]; rfl
    obtain ⟨r, hr⟩ := ofJson_of_toOption_eq_none hnone
    obtain ⟨s, hs⟩ := ofJson_of_toOption_eq_none (h ▸ hnone)
    exact .inr ⟨r, s, hread ▸ hr, hs⟩

/-- Objects with the same members in another order are read alike, also if fields that one of them
leaves out are `null` in the other; an object with a key that names no field, or with two keys that
name the same, is one violation. Gaps and the spelling of keys are free. -/
theorem ofJson_members_in_any_order (d : ObjectDocument) :
    (∀ d' : ObjectDocument, d'.entries.Perm d.entries → Agree (ofJson d.text) (ofJson d'.text)) ∧
      (∀ (absent : List Field) (d' : ObjectDocument), absent.Nodup →
        (∀ f ∈ absent, ∀ e ∈ d.entries, e.key ≠ some f.name.toList) →
        d'.entries.Perm (absent.map Entry.null ++ d.entries) →
        Agree (ofJson d.text) (ofJson d'.text)) ∧
      ((∃ e ∈ d.entries, ∀ f : Field, e.key ≠ some f.name.toList) →
        ∃ reason, ofJson d.text = .error [.malformed reason]) ∧
      ((∃ f : Field, 2 ≤ (d.entries.map Entry.key).count (some f.name.toList)) →
        ∃ reason, ofJson d.text = .error [.malformed reason]) := by
  refine ⟨?permuted, ?absent, ?unknown, ?twice⟩
  case permuted =>
    intro d' hperm
    apply agree_of_toOption_eq
    rw [toOption_ofJson_text, toOption_ofJson_text, takeEntries_perm hperm]
  case absent =>
    intro absent d' hnodup hnew hperm
    have hfields : ∀ f ∈ absent, ∀ e ∈ d.entries, e.field? ≠ some f :=
      fun f hf e he hfield => hnew f hf e he (Entry.field?_eq_some_iff.mp hfield)
    apply agree_of_toOption_eq
    rw [toOption_ofJson_text, toOption_ofJson_text, takeEntries_perm hperm,
      takeEntries_null hnodup (fun _ _ => List.not_mem_nil) hfields]
  case unknown =>
    rintro ⟨e, he, hkey⟩
    apply ofJson_of_toOption_eq_none
    rw [toOption_ofJson_text]
    apply takeEntries_of_refused he
    intro f hfield
    exact absurd (Entry.field?_eq_some_iff.mp hfield) (hkey f)
  case twice =>
    rintro ⟨f, htwice⟩
    apply ofJson_of_toOption_eq_none
    rw [toOption_ofJson_text]
    exact takeEntries_of_twice htwice

/-- The parts of a text that needs no escapes. -/
def plainParts (s : List Char) (h : s.all isUnescaped = true) : List Part :=
  s.pmap Part.plain (List.all_eq_true.mp h)

/-- A one. -/
def one : Numeral where
  negative := false
  whole := ⟨'1', [], rfl, List.forall_mem_nil _⟩
  shortest := fun _ => rfl
  fraction := none
  exponent := none

/-- The object of some members without gaps, each given as one or as `null`. -/
def sample (keys : List (List Part × Bool)) : ObjectDocument where
  before := default
  gap := default
  members := keys.map fun k =>
    ⟨default, k.1, default, default, if k.2 then one.text else ['n', 'u', 'l', 'l'], default⟩
  isValue := by
    intro m hm
    obtain ⟨k, -, rfl⟩ := List.mem_map.mp hm
    cases k.2 with
    | true => exact .number one
    | false => exact .wordNull
  behind := default

def idKey : List Part := plainParts Field.companyId.name.toList (by decide)

def groupKey : List Part := plainParts Field.companyGroupId.name.toList (by decide)

def taxKey : List Part := plainParts Field.taxRate.name.toList (by decide)

/-- The key of an identifier in the other spelling. -/
def snakeKey : List Part := plainParts "company_id".toList (by decide)

theorem ofJson_sample_in_any_order :
    (ofJson (sample [(idKey, true), (groupKey, true)]).text).toOption =
        some { companyId := some 1, companyGroupId := some 1 } ∧
      Agree (ofJson (sample [(idKey, true), (groupKey, true)]).text)
        (ofJson (sample [(groupKey, true), (idKey, true)]).text) ∧
      Agree (ofJson (sample [(idKey, true), (groupKey, true)]).text)
        (ofJson (sample [(idKey, true), (taxKey, false), (groupKey, true)]).text) ∧
      (∃ reason, ofJson (sample [(idKey, true), (snakeKey, true)]).text =
        .error [.malformed reason]) ∧
      ∃ reason, ofJson (sample [(idKey, true), (groupKey, true), (idKey, false)]).text =
        .error [.malformed reason] := by
  refine ⟨?read, ?permuted, ?absent, ?unknown, ?twice⟩
  case read =>
    rw [toOption_ofJson_text]
    rfl
  case permuted =>
    exact (ofJson_members_in_any_order _).1 _ (List.Perm.swap _ _ [])
  case absent =>
    apply (ofJson_members_in_any_order _).2.1 [.taxRate] _ (by decide)
    · intro f hf e he
      cases List.mem_singleton.mp hf
      revert e
      decide
    · exact List.Perm.swap _ _ _
  case unknown =>
    apply (ofJson_members_in_any_order _).2.2.1
    refine ⟨_, List.mem_cons_of_mem _ List.mem_cons_self, ?_⟩
    intro f
    cases f <;> decide
  case twice =>
    apply (ofJson_members_in_any_order _).2.2.2
    exact ⟨.companyId, by decide⟩

end Input

end CompanyRegister
