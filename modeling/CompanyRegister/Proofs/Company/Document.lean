import CompanyRegister.Command.Run
import CompanyRegister.Proofs.Calendar.Stored
import CompanyRegister.Proofs.Json.Reading
import CompanyRegister.Proofs.Money.RoundTrip
import CompanyRegister.Proofs.Text.Pieces

/-!
# Reading written records

A record is written as a JSON object of its eight fields, with gaps in different places. Its
document is read as the input that says of each field what the record does (`Company.toInput`), and
this describes the record again, entered when its text shows (`Company.asShown`):

    Company ──toJson──▶ text ──Input.ofJson──▶ Input ──toCompany──▶ Company

That needs a name, an amount, a currency and a year as inputs have them (`Company.Describable`), and
no tax rate: a double need not be read as it was written.
-/

namespace CompanyRegister

open Calendar Json Text

theorem Field.ofName?_name (f : Field) : Field.ofName? f.name.toList = some f := by
  cases f <;> rfl

namespace Company

/-- What a record is that its document describes. -/
structure Describable (c : Company) : Prop where
  name_short : ∀ name, c.companyName = some name → name.length ≤ maxNameLength
  rate_given : ∃ m, c.baseRate = some m ∧ m ≠ Money.least
  currency_given : ∃ n, c.defaultCurrencyId = some n
  date_short : c.enterDate.HasFourDigitYear
  no_taxRate : c.taxRate = none

/-- The record with the time of entry that its text shows. -/
def asShown (c : Company) : Company := { c with enterDate := c.enterDate.settled }

/-- The input that says of each field what a record does. -/
def toInput (c : Company) : Input where
  companyId := c.companyId
  companyName := c.companyName
  baseRate := c.baseRate
  defaultCurrencyId := c.defaultCurrencyId
  enterUserId := some c.enterUserId
  enterDate := some (String.ofList c.enterDate.exactText)
  taxRate := c.taxRate
  companyGroupId := c.companyGroupId

variable {c : Company}

/-- It describes the record as it is shown. -/
theorem toCompany_toInput (h : c.Describable) : c.toInput.toCompany = .ok c.asShown := by
  have hdate : Instant.parse? (String.ofList c.enterDate.exactText).toList =
      some c.enterDate.settled := by
    rw [String.toList_ofList]
    exact Instant.parse?_exactText_of_year h.date_short
  have hname : nameViolation? c.companyName = none := by
    cases hname : c.companyName with
    | none => rfl
    | some name => exact if_neg (Nat.not_lt.mpr (h.name_short name hname))
  have hviolations : c.toInput.violations = [] := by
    simp only [Input.violations, toInput, hname, Input.userViolation?, Input.dateViolation?, hdate,
      h.no_taxRate, taxRateViolation?]
    rfl
  obtain ⟨m, hrate, -⟩ := h.rate_given
  obtain ⟨n, hcurrency⟩ := h.currency_given
  have hrecord : c.toInput.record c.enterUserId c.enterDate.settled = c.asShown := by
    obtain ⟨id, name, rate, currency, user, date, tax, group⟩ := c
    cases hrate
    cases hcurrency
    rfl
  rw [Input.toCompany, hviolations]
  simp only [toInput, Option.bind_some, hdate]
  exact congrArg Except.ok hrecord

/-- A record that an input describes is shown as it is. -/
theorem asShown_of_toCompany {i : Input} (h : i.toCompany = .ok c) : c.asShown = c := by
  have hsettled : c.enterDate.IsSettled := by
    unfold Input.toCompany at h
    split at h
    · split at h
      · next user date _ hdate =>
        cases h
        obtain ⟨value, -, hvalue⟩ := Option.bind_eq_some_iff.mp hdate
        exact Instant.isSettled_of_parse? hvalue
      · cases h
      · cases h
    · cases h
  rw [asShown, Instant.settled_of_isSettled hsettled]

/-! ## Fields -/

section Fields

variable {α β : Type} {gap rest : List Char}

/-- A value that may be missing is read again if it is when it is there. -/
theorem nullable_jsonOption {reader : List Char → Except Json.Fault (β × List Char)}
    {write : α → List Char} {view : α → β} (hgap : AllGap gap) (a? : Option α)
    (hvalue : ∀ a, a? = some a → StartsValue (write a))
    (hread : ∀ a, a? = some a → reader (gap ++ (write a ++ rest)) = .ok (view a, rest)) :
    nullable reader (gap ++ (jsonOption write a? ++ rest)) = .ok (a?.map view, rest) := by
  cases a? with
  | none => exact nullable_null hgap rest
  | some a => exact nullable_value hgap (hvalue a rfl) (hread a rfl)

theorem read_whole {lo hi : Int} {expected : String} (hgap : AllGap gap)
    (hend : EndsNumber rest) {view : α → Int} (hrange : ∀ a, lo ≤ view a ∧ view a ≤ hi)
    (hlo : -9223372036854775808 ≤ lo) (hhi : hi ≤ 9223372036854775807) (a? : Option α) :
    nullable (wholeNumber lo hi expected)
        (gap ++ (jsonOption (fun a => signed (view a)) a? ++ rest)) =
      .ok (a?.map view, rest) := by
  apply nullable_jsonOption hgap
  · intro a _
    exact startsValue_signed (view a)
  · intro a _
    have hview := hrange a
    have hsmall : (view a).natAbs ≤ maxNegated := by
      rw [maxNegated]
      omega
    exact wholeNumber_signed hgap hview hsmall hend

theorem read_text (hgap : AllGap gap) (view : α → List Char) (a? : Option α) :
    nullable stringValue (gap ++ (jsonOption (fun a => quote (view a)) a? ++ rest)) =
      .ok (a?.map view, rest) := by
  apply nullable_jsonOption hgap
  · intro a _
    exact startsValue_quote (view a)
  · intro a _
    exact stringValue_quote hgap (view a) rest

theorem read_money (hgap : AllGap gap) {m : Money} (hm : m ≠ Money.least) :
    nullable Money.read (gap ++ (quote m.text ++ rest)) = .ok (some m, rest) := by
  have hread : Money.ofHead (.text m.text) = .ok m := by
    rw [Money.ofHead, Money.parse_text, if_neg hm]
    rfl
  apply nullable_value hgap (startsValue_quote m.text)
  rw [Money.read, readHead_gap hgap, readHead_quote]
  simp only [bind, Except.bind, hread]
  rfl

/-- An input with one more field of a record. -/
def give (c : Company) (i : Input) : Field → Input
  | .companyId => { i with companyId := c.toInput.companyId }
  | .companyName => { i with companyName := c.toInput.companyName }
  | .baseRate => { i with baseRate := c.toInput.baseRate }
  | .defaultCurrencyId => { i with defaultCurrencyId := c.toInput.defaultCurrencyId }
  | .enterUserId => { i with enterUserId := c.toInput.enterUserId }
  | .enterDate => { i with enterDate := c.toInput.enterDate }
  | .taxRate => { i with taxRate := c.toInput.taxRate }
  | .companyGroupId => { i with companyGroupId := c.toInput.companyGroupId }

theorem readField_jsonField (h : c.Describable) (hgap : AllGap gap)
    (hend : EndsNumber rest) (f : Field) (i : Input) :
    Input.readField f i (gap ++ (c.jsonField f ++ rest)) = .ok (c.give i f, rest) := by
  have hint16 : ∀ n? : Option Int16, nullable (wholeNumber (-32768) 32767 "i16")
      (gap ++ (jsonOption (fun n => signed n.toInt) n? ++ rest)) = .ok (n?.map Int16.toInt, rest) :=
    read_whole hgap hend (fun n => ⟨n.le_toInt, Int.le_of_lt_add_one n.toInt_lt⟩) (by decide)
      (by decide)
  have hint32 : ∀ n? : Option Int32, nullable (wholeNumber (-2147483648) 2147483647 "i32")
      (gap ++ (jsonOption (fun n => signed n.toInt) n? ++ rest)) = .ok (n?.map Int32.toInt, rest) :=
    read_whole hgap hend (fun n => ⟨n.le_toInt, Int.le_of_lt_add_one n.toInt_lt⟩) (by decide)
      (by decide)
  have hsmall : ∀ n? : Option Int16, (n?.map Int16.toInt).map Int.toInt16 = n? := by
    intro n?
    cases n? with
    | none => rfl
    | some n => exact congrArg some n.ofInt_toInt
  have hmedium : ∀ n? : Option Int32, (n?.map Int32.toInt).map Int.toInt32 = n? := by
    intro n?
    cases n? with
    | none => rfl
    | some n => exact congrArg some n.ofInt_toInt
  have htext : ∀ s? : Option String, (s?.map String.toList).map String.ofList = s? := by
    intro s?
    cases s? with
    | none => rfl
    | some s => exact congrArg some s.ofList_toList
  cases f with
  | companyId =>
    simp only [Input.readField, jsonField, hint16, bind, Except.bind, hsmall]
    rfl
  | companyName =>
    simp only [Input.readField, jsonField, read_text hgap, bind, Except.bind, htext]
    rfl
  | baseRate =>
    obtain ⟨m, hm, hleast⟩ := h.rate_given
    simp only [Input.readField, jsonField, hm, jsonOption, read_money hgap hleast, bind,
      Except.bind, give, toInput]
    rfl
  | defaultCurrencyId =>
    simp only [Input.readField, jsonField, hint16, bind, Except.bind, hsmall]
    rfl
  | enterUserId =>
    have hread : nullable (wholeNumber (-2147483648) 2147483647 "i32")
        (gap ++ (signed c.enterUserId.toInt ++ rest)) = .ok (some c.enterUserId.toInt, rest) :=
      hint32 (some c.enterUserId)
    simp only [Input.readField, jsonField, hread, bind, Except.bind, Option.map_some,
      Int32.ofInt_toInt]
    rfl
  | enterDate =>
    have hread : nullable stringValue (gap ++ (quote c.enterDate.exactText ++ rest)) =
        .ok (some c.enterDate.exactText, rest) :=
      read_text hgap id (some c.enterDate.exactText)
    simp only [Input.readField, jsonField, hread, bind, Except.bind]
    rfl
  | taxRate =>
    simp only [Input.readField, jsonField, h.no_taxRate, jsonOption, nullable_null hgap, bind,
      Except.bind, give, toInput]
    rfl
  | companyGroupId =>
    simp only [Input.readField, jsonField, hint32, bind, Except.bind, hmedium]
    rfl

end Fields

/-! ## Objects -/

/-- A field as a member of an object. -/
def memberText (gap : List Char) (c : Company) (f : Field) : List Char :=
  quote f.name.toList ++ ':' :: (gap ++ c.jsonField f)

/-- The record as a JSON object, with a gap before each member, behind each colon and before the
brace. -/
def jsonWith (lead gap close : List Char) (c : Company) : List Char :=
  '\x7b' :: (lead ++ ((',' :: lead).intercalate (c.jsonMembers gap) ++ (close ++ ['\x7d'])))

theorem toJson_eq : c.toJson = c.jsonWith [] [] [] := rfl

theorem toPrettyJson_eq : c.toPrettyJson = c.jsonWith ['\n', ' ', ' '] [' '] ['\n'] := by
  rw [toPrettyJson, jsonWith, List.append_assoc]
  rfl

section Objects

variable {lead gap close tail : List Char}

/-- The fields of a record behind another one, up to the end of a text. -/
def textBehind (lead gap close tail : List Char) (c : Company) (fs : List Field) : List Char :=
  fs.flatMap (fun f => ',' :: (lead ++ c.memberText gap f)) ++ (close ++ '\x7d' :: tail)

theorem endsNumber_textBehind (hclose : AllGap close) (fs : List Field) :
    EndsNumber (c.textBehind lead gap close tail fs) := by
  cases fs with
  | cons f fs =>
    intro d hd
    cases hd
    decide
  | nil =>
    apply endsNumber_gap hclose
    intro d hd
    cases hd
    decide

/-- A member is read into the input if its field has not been given. -/
theorem readMembers_member (h : c.Describable) (hgap : AllGap gap) {f : Field}
    {given : List Field} (hgiven : f ∉ given) {text rest : List Char} (hend : EndsNumber rest)
    (hnext : nextMember given.isEmpty text =
      .ok (.key f.name.toList, ':' :: (gap ++ (c.jsonField f ++ rest)))) (free : Nat) (i : Input) :
    Input.readMembers (free + 1) given i text =
      Input.readMembers free (f :: given) (c.give i f) rest := by
  have hkey : Input.fieldOfKey given f.name.toList = .ok f := by
    rw [Input.fieldOfKey, Field.ofName?_name]
    exact if_neg hgiven
  have hcolon : ∀ text, colon (':' :: text) = .ok text := fun _ => rfl
  rw [Input.readMembers, hnext]
  simp only [bind, Except.bind, hkey, Input.leaveObject, hcolon, readField_jsonField h hgap hend]

/-- Members behind another are read into the input one by one. -/
theorem readMembers_textBehind (h : c.Describable) (hlead : AllGap lead)
    (hgap : AllGap gap) (hclose : AllGap close) {fs : List Field}
    (hnodup : fs.Nodup) {free : Nat} (hfree : fs.length ≤ free) {g : Field} {given : List Field}
    (hgiven : ∀ f ∈ fs, f ∉ g :: given) (i : Input) :
    Input.readMembers free (g :: given) i (c.textBehind lead gap close tail fs) =
      .ok (fs.foldl c.give i, '\x7d' :: tail) := by
  -- What has been given grows with each member, and so does the input.
  induction fs generalizing free g given i with
  | nil =>
    unfold Input.readMembers
    rw [textBehind, List.flatMap_nil, List.nil_append, nextMember_close _ hclose]
    rfl
  | cons f fs ih =>
    obtain ⟨hf, hnodup⟩ := List.nodup_cons.mp hnodup
    obtain ⟨free, rfl⟩ : ∃ n, free = n + 1 := ⟨free - 1, by simp at hfree; omega⟩
    have hnext : nextMember false (c.textBehind lead gap close tail (f :: fs)) =
        .ok (.key f.name.toList,
          ':' :: (gap ++ (c.jsonField f ++ c.textBehind lead gap close tail fs))) := by
      have hread := nextMember_later hlead f.name.toList
        (':' :: (gap ++ (c.jsonField f ++ c.textBehind lead gap close tail fs)))
      simpa [textBehind, memberText] using hread
    rw [readMembers_member h hgap (hgiven f List.mem_cons_self) (endsNumber_textBehind hclose fs)
      hnext, ih hnodup (by simpa using hfree)]
    · rfl
    · intro e he hmem
      rcases List.mem_cons.mp hmem with rfl | hmem
      · exact hf he
      · exact hgiven e (List.mem_cons_of_mem f he) hmem

/-- Members are read into the input one by one. -/
theorem readMembers_fields (h : c.Describable) (hlead : AllGap lead)
    (hgap : AllGap gap) (hclose : AllGap close) {f : Field}
    {fs : List Field} (hnodup : (f :: fs).Nodup) (i : Input) :
    Input.readMembers (f :: fs).length [] i
        (lead ++ (c.memberText gap f ++ c.textBehind lead gap close tail fs)) =
      .ok ((f :: fs).foldl c.give i, '\x7d' :: tail) := by
  obtain ⟨hf, hnodup⟩ := List.nodup_cons.mp hnodup
  have hnext : nextMember true
      (lead ++ (c.memberText gap f ++ c.textBehind lead gap close tail fs)) =
      .ok (.key f.name.toList,
        ':' :: (gap ++ (c.jsonField f ++ c.textBehind lead gap close tail fs))) := by
    have hread := nextMember_first hlead f.name.toList
      (':' :: (gap ++ (c.jsonField f ++ c.textBehind lead gap close tail fs)))
    simpa [memberText] using hread
  have hgiven : ∀ e ∈ fs, e ∉ [f] := by
    intro e he hmem
    exact hf (List.mem_singleton.mp hmem ▸ he)
  rw [List.length_cons, readMembers_member h hgap List.not_mem_nil
    (endsNumber_textBehind hclose fs) hnext]
  exact readMembers_textBehind h hlead hgap hclose hnodup (Nat.le_refl _) hgiven _

theorem jsonWith_append_tail (lead gap close tail : List Char) (c : Company) :
    c.jsonWith lead gap close ++ tail = '\x7b' :: (lead ++
      (c.memberText gap .companyId ++ c.textBehind lead gap close tail Field.all.tail)) := by
  have hmembers : c.jsonMembers gap =
      c.memberText gap .companyId :: Field.all.tail.map (c.memberText gap) := rfl
  have hjoined := intercalate_append_cons (',' :: lead) [] (c.memberText gap .companyId)
    (Field.all.tail.map (c.memberText gap))
  rw [List.nil_append, List.flatMap_nil, List.nil_append, List.flatMap_map] at hjoined
  rw [jsonWith, hmembers, hjoined, textBehind]
  simp only [List.cons_append, List.append_assoc, List.nil_append]

/-- The document of a record is read as the input that says of each field what the record does. -/
theorem readDocument_jsonWith (h : c.Describable) (hlead : AllGap lead)
    (hgap : AllGap gap) (hclose : AllGap close)
    (htail : AllGap tail) :
    Input.readDocument (c.jsonWith lead gap close ++ tail) = .ok c.toInput := by
  have hhead : ∀ text, readHead ('\x7b' :: text) = .ok (.object, text) := fun _ => rfl
  have hbrace : closeObject ('\x7d' :: tail) = .ok tail := rfl
  have hnodup : (Field.companyId :: Field.all.tail).Nodup := by decide
  have hread : Input.read (c.jsonWith lead gap close ++ tail) = .ok (c.toInput, tail) := by
    rw [Input.read, jsonWith_append_tail, hhead]
    show (Input.readMembers (Field.companyId :: Field.all.tail).length [] {} _ >>= fun r => _) = _
    rw [readMembers_fields h hlead hgap hclose hnodup]
    rfl
  rw [Input.readDocument, hread]
  simp only [bind, Except.bind, endOfDocument_gap htail]
  rfl

end Objects

theorem ofJson_toJson (h : c.Describable) : Input.ofJson c.toJson = .ok c.toInput := by
  have hread : Input.readDocument (c.jsonWith [] [] [] ++ []) = .ok c.toInput :=
    readDocument_jsonWith h allGap_nil allGap_nil allGap_nil allGap_nil
  rw [List.append_nil, ← toJson_eq] at hread
  rw [Input.ofJson, hread]
  rfl

theorem ofJson_toPrettyJson (h : c.Describable) {tail : List Char} (htail : AllGap tail) :
    Input.ofJson (c.toPrettyJson ++ tail) = .ok c.toInput := by
  have hlead : AllGap ['\n', ' ', ' '] := by simp [AllGap, isGap]
  have hgap : AllGap [' '] := by simp [AllGap, isGap]
  have hclose : AllGap ['\n'] := by simp [AllGap, isGap]
  rw [Input.ofJson, toPrettyJson_eq, readDocument_jsonWith h hlead hgap hclose htail]
  rfl

/-- A record is described by its own document, on one line or one field a line, and by the document
that is printed when it is validated: as it is but for its time of entry, which is the one that is
shown. A record that an input describes is shown as it is, so it is described exactly. -/
theorem document_describes_record {c : Company} (h : c.Describable) :
    (∃ i, Input.ofJson c.toJson = .ok i ∧ i.toCompany = .ok c.asShown) ∧
      (∃ i, Input.ofJson c.toPrettyJson = .ok i ∧ i.toCompany = .ok c.asShown) ∧
      Command.recordOf (String.ofList (Command.Report.printed c.toPrettyJson).out) =
        .ok c.asShown ∧
      ((∃ i : Input, i.toCompany = .ok c) → c.asShown = c) := by
  refine ⟨⟨c.toInput, ofJson_toJson h, toCompany_toInput h⟩,
    ⟨c.toInput, ?_, toCompany_toInput h⟩, ?_, fun ⟨i, hi⟩ => asShown_of_toCompany hi⟩
  · have hread := ofJson_toPrettyJson h allGap_nil
    rwa [List.append_nil] at hread
  · have htail : AllGap ['\n'] := by simp [AllGap, isGap]
    show Input.ofJson (String.ofList (c.toPrettyJson ++ ['\n'])).toList >>= Input.toCompany = _
    rw [String.toList_ofList, ofJson_toPrettyJson h htail]
    simp only [bind, Except.bind, toCompany_toInput h]

/-- A record with a name that needs escapes, and entered in a second 60. -/
def escapedRecord : Company :=
  { Company.enteredAt (-1) ⟨59, 1500000001, by decide⟩ with
    companyName := some "\"Ä\\\n\x01" }

theorem document_describes_escapedRecord :
    escapedRecord.Describable ∧ escapedRecord.asShown = escapedRecord ∧
      ∃ i, Input.ofJson escapedRecord.toPrettyJson = .ok i ∧
        i.toCompany = .ok escapedRecord.asShown := by
  have hdescribable : escapedRecord.Describable := {
    name_short := by
      intro name hname
      cases hname
      decide
    rate_given := ⟨.zero, rfl, by decide⟩
    currency_given := ⟨1, rfl⟩
    date_short := by decide
    no_taxRate := rfl }
  have hsettled : escapedRecord.enterDate.IsSettled := by decide
  have hshown : escapedRecord.asShown = escapedRecord := by
    rw [asShown, Instant.settled_of_isSettled hsettled]
  exact ⟨hdescribable, hshown, (document_describes_record hdescribable).2.1⟩

/-- A record entered a billion nanoseconds after another second than 59. -/
def lateRecord : Company := Company.enteredAt 1 .late

/-- Its document describes a record that is entered one second later. -/
theorem document_describes_lateRecord :
    lateRecord.Describable ∧ ∃ i, Input.ofJson lateRecord.toJson = .ok i ∧
      i.toCompany ≠ .ok lateRecord := by
  have hdescribable : lateRecord.Describable := {
    name_short := by
      intro name hname
      cases hname
    rate_given := ⟨.zero, rfl, by decide⟩
    currency_given := ⟨1, rfl⟩
    date_short := by decide
    no_taxRate := rfl }
  refine ⟨hdescribable, lateRecord.toInput, ofJson_toJson hdescribable, ?_⟩
  rw [toCompany_toInput hdescribable]
  intro hsame
  have hdate : Instant.late.settled = Instant.late := congrArg enterDate (Except.ok.inj hsame)
  exact absurd hdate (by decide)

end Company

end CompanyRegister
