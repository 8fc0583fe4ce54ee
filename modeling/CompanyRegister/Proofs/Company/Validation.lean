import CompanyRegister.Company.Document
import Mathlib.Data.List.Nodup
import Mathlib.Data.List.Perm.Basic

/-!
# Validation

The rules of an input are said twice in the program: `Input.violations` collects all that are
broken, and `Company.violation?` gives the first that a record breaks. Here each rule is said once,
as what it is to break it (`Input.Breaks`), with the field it is about. A report of an input
(`Input.Reports`) names every broken rule once, in the order of `Field.checked`.

Every input has one report, and that is what validation collects. A record made from an input breaks
first what the report of that input names first.
-/

namespace CompanyRegister

open Calendar

theorem Company.validate_eq_ok_iff_violation? {c : Company} :
    c.validate = .ok () ↔ c.violation? = none := by
  rw [validate]
  cases c.violation? <;> simp

/-- The fields that rules are about, in the order in which broken rules are reported. -/
def Field.checked : List Field := [companyName, enterUserId, enterDate, taxRate]

namespace Input

/-- What it is to break the rule about a field. -/
inductive Breaks (i : Input) : Field → Violation → Prop
  | nameTooLong {name : String} (given : i.companyName = some name)
      (long : Company.maxNameLength < name.length) :
      Breaks i .companyName (.nameTooLong Company.maxNameLength name.length)
  | userMissing (missing : i.enterUserId = none) :
      Breaks i .enterUserId (.missingField Field.enterUserId.name)
  | dateMissing (missing : i.enterDate = none) :
      Breaks i .enterDate (.missingField Field.enterDate.name)
  | dateInvalid {text : String} (given : i.enterDate = some text)
      (unread : Instant.parse? text.toList = none) :
      Breaks i .enterDate (.invalidDate Field.enterDate.name text)
  | rateNotFinite {rate : Float} (given : i.taxRate = some rate)
      (infinite : rate.isFinite = false) :
      Breaks i .taxRate (.nonFiniteNumber Field.taxRate.name)

/-- These are the rules that an input breaks, each once, in order. -/
def Reports (i : Input) (vs : List Violation) : Prop :=
  ∃ fields : List Field, fields.Sublist Field.checked ∧ List.Forall₂ i.Breaks fields vs ∧
    ∀ f v, i.Breaks f v → f ∈ fields

/-- The record has every field that the input gives, the instant that its date text stands for, and
the initial values where the input gives no base rate or no currency. -/
structure Describes (i : Input) (c : Company) : Prop where
  companyId : c.companyId = i.companyId
  companyName : c.companyName = i.companyName
  baseRate : ∀ m, i.baseRate = some m → c.baseRate = some m
  noBaseRate : i.baseRate = none → c.baseRate = some ⟨0⟩
  currency : ∀ n, i.defaultCurrencyId = some n → c.defaultCurrencyId = some n
  noCurrency : i.defaultCurrencyId = none → c.defaultCurrencyId = some 1
  user : i.enterUserId = some c.enterUserId
  date : ∃ text, i.enterDate = some text ∧ Instant.parse? text.toList = some c.enterDate
  taxRate : c.taxRate = i.taxRate
  companyGroupId : c.companyGroupId = i.companyGroupId

/-- The record with the fields of an input, nothing filled in. -/
def asGiven (i : Input) (user : Int32) (date : Instant) : Company where
  companyId := i.companyId
  companyName := i.companyName
  baseRate := i.baseRate
  defaultCurrencyId := i.defaultCurrencyId
  enterUserId := user
  enterDate := date
  taxRate := i.taxRate
  companyGroupId := i.companyGroupId

/-! ## One check a field -/

/-- What validation finds wrong with a field. -/
def violation? (i : Input) : Field → Option Violation
  | .companyName => Company.nameViolation? i.companyName
  | .enterUserId => userViolation? i.enterUserId
  | .enterDate => dateViolation? i.enterDate
  | .taxRate => Company.taxRateViolation? i.taxRate
  | .companyId | .baseRate | .defaultCurrencyId | .companyGroupId => none

variable {i : Input} {vs : List Violation}

theorem violations_eq_filterMap (i : Input) :
    i.violations = Field.checked.filterMap i.violation? := by
  simp only [List.filterMap_eq_flatMap_toList, Field.checked, List.flatMap_cons, List.flatMap_nil,
    List.append_nil, violations, violation?, List.append_assoc]

theorem breaks_companyName {v : Violation} :
    i.Breaks .companyName v ↔ Company.nameViolation? i.companyName = some v := by
  constructor
  · intro h
    cases h with
    | nameTooLong given long =>
      rw [given]
      exact if_pos long
  · intro h
    cases given : i.companyName with
    | none =>
      rw [given] at h
      cases h
    | some name =>
      rw [given, Company.nameViolation?] at h
      obtain ⟨long, hv⟩ := Option.ite_none_right_eq_some.mp h
      cases hv
      exact .nameTooLong given long

theorem breaks_enterUserId {v : Violation} :
    i.Breaks .enterUserId v ↔ userViolation? i.enterUserId = some v := by
  constructor
  · intro h
    cases h with
    | userMissing missing => rw [missing]; rfl
  · intro h
    cases given : i.enterUserId with
    | none =>
      rw [given] at h
      cases h
      exact .userMissing given
    | some user =>
      rw [given] at h
      cases h

theorem breaks_enterDate {v : Violation} :
    i.Breaks .enterDate v ↔ dateViolation? i.enterDate = some v := by
  constructor
  · intro h
    cases h with
    | dateMissing missing => rw [missing]; rfl
    | dateInvalid given unread => simp only [given, dateViolation?, unread]; rfl
  · intro h
    cases given : i.enterDate with
    | none =>
      rw [given] at h
      cases h
      exact .dateMissing given
    | some text =>
      rw [given] at h
      cases hread : Instant.parse? text.toList with
      | none =>
        simp only [dateViolation?, hread] at h
        cases h
        exact .dateInvalid given hread
      | some date =>
        simp only [dateViolation?, hread] at h
        cases h

theorem breaks_taxRate {v : Violation} :
    i.Breaks .taxRate v ↔ Company.taxRateViolation? i.taxRate = some v := by
  constructor
  · intro h
    cases h with
    | rateNotFinite given infinite => simp only [given, Company.taxRateViolation?, infinite]; rfl
  · intro h
    cases given : i.taxRate with
    | none =>
      rw [given] at h
      cases h
    | some rate =>
      rw [given, Company.taxRateViolation?] at h
      obtain ⟨infinite, hv⟩ := Option.ite_none_left_eq_some.mp h
      cases hv
      exact .rateNotFinite given (Bool.eq_false_iff.mpr infinite)

/-- The check of a field finds what breaks its rule. -/
theorem breaks_iff {f : Field} {v : Violation} : i.Breaks f v ↔ i.violation? f = some v := by
  cases f with
  | companyName => exact breaks_companyName
  | enterUserId => exact breaks_enterUserId
  | enterDate => exact breaks_enterDate
  | taxRate => exact breaks_taxRate
  | companyId | baseRate | defaultCurrencyId | companyGroupId =>
    constructor
    · rintro ⟨⟩
    · rintro ⟨⟩

theorem mem_checked_of_breaks {f : Field} {v : Violation} (h : i.Breaks f v) :
    f ∈ Field.checked := by
  cases h <;> decide

theorem mem_violations {v : Violation} : v ∈ i.violations ↔ ∃ f, i.Breaks f v := by
  rw [violations_eq_filterMap, List.mem_filterMap]
  constructor
  · rintro ⟨f, -, hf⟩
    exact ⟨f, breaks_iff.mpr hf⟩
  · rintro ⟨f, hf⟩
    exact ⟨f, mem_checked_of_breaks hf, breaks_iff.mp hf⟩

/-! ## Reports -/

theorem forall₂_breaks_filterMap (i : Input) (fields : List Field) :
    List.Forall₂ i.Breaks (fields.filter fun f => (i.violation? f).isSome)
      (fields.filterMap i.violation?) := by
  induction fields with
  | nil => exact .nil
  | cons f fields ih =>
    cases hf : i.violation? f with
    | none =>
      rw [List.filter_cons_of_neg (by simp [hf]), List.filterMap_cons_none hf]
      exact ih
    | some v =>
      rw [List.filter_cons_of_pos (by simp [hf]), List.filterMap_cons_some hf]
      exact .cons (breaks_iff.mpr hf) ih

/-- The fields of a report tell its violations. -/
theorem filterMap_of_forall₂_breaks {fields : List Field} (h : List.Forall₂ i.Breaks fields vs) :
    fields.filterMap i.violation? = vs := by
  induction h with
  | nil => rfl
  | cons hf _ ih => rw [List.filterMap_cons_some (breaks_iff.mp hf), ih]

theorem exists_breaks_of_mem {fields : List Field} (h : List.Forall₂ i.Breaks fields vs) {f : Field}
    (hf : f ∈ fields) : ∃ v, i.Breaks f v := by
  induction h with
  | nil => cases hf
  | cons hbreaks _ ih =>
    cases hf with
    | head => exact ⟨_, hbreaks⟩
    | tail _ hf => exact ih hf

/-- What validation collects is a report. -/
theorem reports_violations (i : Input) : i.Reports i.violations := by
  refine ⟨Field.checked.filter fun f => (i.violation? f).isSome, List.filter_sublist, ?_, ?_⟩
  · rw [violations_eq_filterMap]
    exact forall₂_breaks_filterMap i Field.checked
  · intro f v hf
    refine List.mem_filter.mpr ⟨mem_checked_of_breaks hf, ?_⟩
    rw [breaks_iff.mp hf]
    rfl

/-- It is the only one. -/
theorem reports_iff : i.Reports vs ↔ vs = i.violations := by
  constructor
  · rintro ⟨fields, hsub, hbreaks, hall⟩
    obtain ⟨fields', hsub', hbreaks', hall'⟩ := reports_violations i
    -- Both run over parts of the same list without repetition, and over the same fields.
    have hnodup : Field.checked.Nodup := by decide
    have hperm : fields.Perm fields' := by
      rw [List.perm_ext_iff_of_nodup (hnodup.sublist hsub) (hnodup.sublist hsub')]
      intro f
      constructor
      · intro hf
        obtain ⟨v, hv⟩ := exists_breaks_of_mem hbreaks hf
        exact hall' f v hv
      · intro hf
        obtain ⟨v, hv⟩ := exists_breaks_of_mem hbreaks' hf
        exact hall f v hv
    have heq : fields = fields' := (hnodup.perm_iff_eq_of_sublist hsub hsub').mp hperm
    rw [← filterMap_of_forall₂_breaks hbreaks, heq, filterMap_of_forall₂_breaks hbreaks']
  · rintro rfl
    exact reports_violations i

/-- Three rules broken at once. -/
example : violations
      { companyName := some (String.ofList (List.replicate 61 'x')), enterDate := some "soon" } =
    [.nameTooLong 60 61, .missingField "enterUserId", .invalidDate "enterDate" "soon"] := by
  decide

/-! ## Both validators -/

theorem validate_eq_ok_iff : i.validate = .ok () ↔ i.violations = [] := by
  rw [validate]
  cases i.violations <;> simp

theorem validate_eq_error_iff : i.validate = .error vs ↔ vs ≠ [] ∧ vs = i.violations := by
  rw [validate]
  cases i.violations with
  | nil => simp
  | cons v vs' =>
    constructor
    · intro h
      cases h
      exact ⟨List.cons_ne_nil v vs', rfl⟩
    · rintro ⟨-, rfl⟩
      rfl

/-- Without violations there are a user and a date. -/
theorem exists_given_of_violations (h : i.violations = []) :
    ∃ user text date, i.enterUserId = some user ∧ i.enterDate = some text ∧
      Instant.parse? text.toList = some date := by
  have hnone : ∀ f v, ¬ i.Breaks f v := by
    intro f v hf
    have hmem : v ∈ i.violations := mem_violations.mpr ⟨f, hf⟩
    rw [h] at hmem
    cases hmem
  cases huser : i.enterUserId with
  | none => exact absurd (.userMissing huser) (hnone _ _)
  | some user =>
    cases htext : i.enterDate with
    | none => exact absurd (.dateMissing htext) (hnone _ _)
    | some text =>
      cases hdate : Instant.parse? text.toList with
      | none => exact absurd (.dateInvalid htext hdate) (hnone _ _)
      | some date => exact ⟨user, text, date, rfl, rfl, hdate⟩

/-- The errors about a missing user or date after validation are never reached. -/
theorem toCompany_of_violations (h : i.violations = []) :
    ∃ user text date, i.enterUserId = some user ∧ i.enterDate = some text ∧
      Instant.parse? text.toList = some date ∧ i.toCompany = .ok (i.record user date) := by
  obtain ⟨user, text, date, huser, htext, hdate⟩ := exists_given_of_violations h
  refine ⟨user, text, date, huser, htext, hdate, ?_⟩
  rw [toCompany, h]
  simp only [huser, htext, Option.bind_some, hdate]

theorem toCompany_eq_error_iff : i.toCompany = .error vs ↔ i.validate = .error vs := by
  by_cases h : i.violations = []
  · obtain ⟨user, text, date, -, -, -, hok⟩ := toCompany_of_violations h
    rw [hok, validate_eq_ok_iff.mpr h]
    constructor
    · rintro ⟨⟩
    · rintro ⟨⟩
  · obtain ⟨v, vs', hcons⟩ := List.exists_cons_of_ne_nil h
    rw [toCompany, validate, hcons]
    constructor
    · rintro ⟨⟩
      rfl
    · rintro ⟨⟩
      rfl

theorem toCompany_isOk_iff : (∃ c, i.toCompany = .ok c) ↔ i.validate = .ok () := by
  rw [validate_eq_ok_iff]
  constructor
  · rintro ⟨c, hc⟩
    by_contra h
    obtain ⟨v, vs', hcons⟩ := List.exists_cons_of_ne_nil h
    rw [toCompany, hcons] at hc
    cases hc
  · intro h
    obtain ⟨user, text, date, -, -, -, hok⟩ := toCompany_of_violations h
    exact ⟨_, hok⟩

theorem describes_record {user : Int32} {text : String} {date : Instant}
    (huser : i.enterUserId = some user) (htext : i.enterDate = some text)
    (hdate : Instant.parse? text.toList = some date) : i.Describes (i.record user date) where
  companyId := rfl
  companyName := rfl
  baseRate m hm := by rw [record, hm]; rfl
  noBaseRate hm := by rw [record, hm]; rfl
  currency n hn := by rw [record, hn]; rfl
  noCurrency hn := by rw [record, hn]; rfl
  user := huser
  date := ⟨text, htext, hdate⟩
  taxRate := rfl
  companyGroupId := rfl

/-- A record with the name and the tax rate of an input whose user and date are fine breaks first
what the input breaks first. -/
theorem violation?_eq_head? {c : Company} (hname : c.companyName = i.companyName)
    (hrate : c.taxRate = i.taxRate) {user : Int32} {text : String} {date : Instant}
    (huser : i.enterUserId = some user) (htext : i.enterDate = some text)
    (hdate : Instant.parse? text.toList = some date) : c.violation? = i.violations.head? := by
  have huser' : userViolation? i.enterUserId = none := by rw [huser]; rfl
  have hdate' : dateViolation? i.enterDate = none := by
    simp only [htext, dateViolation?, hdate]
  rw [Company.violation?, violations, hname, hrate, huser', hdate']
  cases Company.nameViolation? i.companyName with
  | some v => rfl
  | none => cases Company.taxRateViolation? i.taxRate <;> rfl

/-- So it is valid if and only if the input is. -/
theorem validate_company_iff {c : Company} (hname : c.companyName = i.companyName)
    (hrate : c.taxRate = i.taxRate) {user : Int32} {text : String} {date : Instant}
    (huser : i.enterUserId = some user) (htext : i.enterDate = some text)
    (hdate : Instant.parse? text.toList = some date) :
    c.validate = .ok () ↔ i.validate = .ok () := by
  rw [Company.validate_eq_ok_iff_violation?, violation?_eq_head? hname hrate huser htext hdate,
    List.head?_eq_none_iff, validate_eq_ok_iff]

/-- An input becomes a record if and only if it is valid, and is refused for what its report says.
The record is valid and is what the input describes. An input whose user and date are fine is valid
if and only if the record with the same fields is. -/
theorem toCompany_agrees_with_validate (i : Input) :
    ((∃ c, i.toCompany = .ok c) ↔ i.validate = .ok ()) ∧
      (∀ vs, i.toCompany = .error vs ↔ i.validate = .error vs) ∧
      (i.validate = .ok () ↔ i.Reports []) ∧
      (∀ vs, i.validate = .error vs ↔ vs ≠ [] ∧ i.Reports vs) ∧
      (∀ c, i.toCompany = .ok c → c.validate = .ok () ∧ i.Describes c) ∧
      (∀ user text date, i.enterUserId = some user → i.enterDate = some text →
        Instant.parse? text.toList = some date →
        (i.validate = .ok () ↔ (i.asGiven user date).validate = .ok ())) := by
  refine ⟨toCompany_isOk_iff, fun vs => toCompany_eq_error_iff, ?_, ?_, ?_, ?_⟩
  · rw [validate_eq_ok_iff, reports_iff]
    exact eq_comm
  · intro vs
    rw [validate_eq_error_iff, reports_iff]
  · intro c hc
    have hvalid : i.validate = .ok () := toCompany_isOk_iff.mp ⟨c, hc⟩
    obtain ⟨user, text, date, huser, htext, hdate, hok⟩ :=
      toCompany_of_violations (validate_eq_ok_iff.mp hvalid)
    rw [hok] at hc
    cases hc
    exact ⟨(validate_company_iff rfl rfl huser htext hdate).mpr hvalid,
      describes_record huser htext hdate⟩
  · intro user text date huser htext hdate
    exact (validate_company_iff rfl rfl huser htext hdate).symm

/-- An input of a user and a date alone. -/
def onLeapDay : Input where
  enterUserId := some 7
  enterDate := some "2024-02-29"

theorem toCompany_onLeapDay :
    ∃ c, onLeapDay.toCompany = .ok c ∧ c.validate = .ok () ∧ onLeapDay.Describes c := by
  have hagrees := toCompany_agrees_with_validate onLeapDay
  have hvalid : onLeapDay.validate = .ok () := validate_eq_ok_iff.mpr (by decide)
  obtain ⟨c, hc⟩ := hagrees.1.mpr hvalid
  exact ⟨c, hc, hagrees.2.2.2.2.1 c hc⟩

end Input

end CompanyRegister
