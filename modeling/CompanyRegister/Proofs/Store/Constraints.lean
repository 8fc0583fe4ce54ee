import Mathlib.Data.Rat.Cast.Order
import Mathlib.Tactic.FieldSimp
import CompanyRegister.Store.Table
import CompanyRegister.Proofs.InOrder

/-!
# Rows that fulfil their constraints

A statement that adds or changes a row is refused if the row breaks a constraint of its table. So a
table whose rows all fulfil the constraints (`Table.Conforms`) stays one, whatever values statements
bring: what they bring is converted first, and the checks look at what the conversion has made of
it.

What a check says of a cell is said here without the check: `Cell.number?` is the number that a cell
holds, as a rational number, and `Cell.length?` how long its value is.
-/

namespace CompanyRegister

open Text

/-! ## The numbers of cells -/

namespace Decimal

/-- The rational number that a double is, if it is one. -/
def value? (x : Float) : Option ℚ :=
  match read x with
  | .finite negative m q => some (if negative then -(m * 2 ^ q) else m * 2 ^ q)
  | _ => none

theorem twoPower_eq (n : Nat) : (twoPower n : ℚ) = 2 ^ n := by
  show ((2 ^ n : Nat) : ℚ) = 2 ^ n
  push_cast
  rfl

theorem den_ofScaled_pos (m : Nat) (q : Int) : 0 < (Ratio.ofScaled m q).den := by
  unfold Ratio.ofScaled
  split
  · exact Nat.one_pos
  · show 0 < 2 ^ (-q).toNat
    exact Nat.two_pow_pos _

theorem num_ofScaled (m : Nat) (q : Int) :
    ((Ratio.ofScaled m q).num : ℚ) = m * 2 ^ q * (Ratio.ofScaled m q).den := by
  unfold Ratio.ofScaled
  split
  · next hq =>
    have hpow : (2 : ℚ) ^ q = 2 ^ q.toNat := by
      rw [← zpow_natCast, Int.toNat_of_nonneg hq]
    simp only [Nat.cast_mul, twoPower_eq, hpow, Nat.cast_one, mul_one]
  · next hq =>
    have hneg : ((-q).toNat : Int) = -q := Int.toNat_of_nonneg (by omega)
    have hpow : (2 : ℚ) ^ q * 2 ^ (-q).toNat = 1 := by
      rw [← zpow_natCast, hneg, ← zpow_add₀ (by norm_num), add_neg_cancel, zpow_zero]
    simp only [twoPower_eq, mul_assoc, hpow, mul_one]

/-- Comparing in whole numbers is comparing the number itself. -/
theorem isBetween_iff {low high : Int} {x : Float} :
    isBetween low high x = true ↔ ∃ v, value? x = some v ∧ low ≤ v ∧ v ≤ high := by
  unfold isBetween value?
  cases read x with
  | notANumber => simp
  | infinite negative => simp
  | finite negative m q =>
    have hden : (0 : ℚ) < (Ratio.ofScaled m q).den := by
      exact_mod_cast den_ofScaled_pos m q
    -- The sign goes to the numerator, so one argument does for both.
    have hnum : (((if negative then -((Ratio.ofScaled m q).num : Int)
        else (Ratio.ofScaled m q).num : Int)) : ℚ) =
        (if negative then -((m : ℚ) * 2 ^ q) else m * 2 ^ q) * (Ratio.ofScaled m q).den := by
      cases negative
      · simp [num_ofScaled]
      · simp [num_ofScaled]
    simp only [Bool.and_eq_true, decide_eq_true_eq, Option.some.injEq, exists_eq_left']
    generalize (if negative then -((Ratio.ofScaled m q).num : Int)
      else (Ratio.ofScaled m q).num : Int) = n at hnum ⊢
    generalize (if negative then -((m : ℚ) * 2 ^ q) else m * 2 ^ q) = v at hnum ⊢
    have hlow : low * ((Ratio.ofScaled m q).den : Int) ≤ n ↔ (low : ℚ) ≤ v := by
      rw [← Int.cast_le (R := ℚ), hnum]
      push_cast
      exact mul_le_mul_iff_left₀ hden
    have hhigh : n ≤ high * ((Ratio.ofScaled m q).den : Int) ↔ v ≤ (high : ℚ) := by
      rw [← Int.cast_le (R := ℚ), hnum]
      push_cast
      exact mul_le_mul_iff_left₀ hden
    rw [hlow, hhigh]

end Decimal

namespace Store

namespace Cell

/-- The number that a cell holds. -/
def number? : Cell → Option ℚ
  | int n => some n
  | real x => Decimal.value? x
  | _ => none

/-- How long the value of a cell is: characters up to the first NUL, bytes, or the characters of a
number when it is written. -/
def length? : Cell → Option Nat
  | null => none
  | int n => some (signed n).length
  | real x => some (Decimal.stored.text x).length
  | text s => some (counted s).length
  | blob bytes => some bytes.length

theorem isNull_iff {c : Cell} : c.isNull = true ↔ c = null := by
  cases c <;> simp [isNull, kind]

end Cell

namespace Check

theorem admits_between_iff {low high : Int} {c : Cell} :
    (between low high).admits c = true ↔
      c = .null ∨ ∃ v, c.number? = some v ∧ low ≤ v ∧ v ≤ high := by
  cases c with
  | null => simp [admits]
  | int n => simp [admits, Cell.number?]
  | real x => simp [admits, Cell.number?, Decimal.isBetween_iff]
  | text s => simp [admits, Cell.number?]
  | blob bytes => simp [admits, Cell.number?]

theorem admits_maxLength_iff {n : Nat} {c : Cell} :
    (maxLength n).admits c = true ↔ c = .null ∨ ∃ k, c.length? = some k ∧ k ≤ n := by
  cases c with
  | null => simp [admits]
  | int k => simp [admits, Cell.length?]
  | real x => simp [admits, Cell.length?]
  | text s => simp [admits, Cell.length?]
  | blob bytes => simp [admits, Cell.length?]

end Check

namespace Rows

variable {α : Type} {r : Rows α} {id : Int} {e : Int × α}

theorem mem_put {a : α} (h : e ∈ (r.put id a).entries) : e = (id, a) ∨ e ∈ r.entries := by
  rcases List.mem_append.mp h with h | h
  · exact .inr (List.mem_of_mem_filter h)
  · rcases List.mem_cons.mp h with rfl | h
    · exact .inl rfl
    · exact .inr (List.mem_of_mem_filter h)

theorem mem_erase (h : e ∈ (r.erase id).entries) : e ∈ r.entries := List.mem_of_mem_filter h

end Rows

namespace Table

variable {t t' : Table} {id : Int} {cells values : Cells}

/-! ## Rows that break no constraint -/

/-- Whether every row fulfils what the constraints of the table ask of it, other rows apart. -/
def Conforms (t : Table) : Prop := ∀ e ∈ t.rows.entries, t.violated? e.1 e.2 .empty = none

theorem takenKey?_empty (t : Table) (id : Int) : t.takenKey? id .empty = none := rfl

theorem repeated?_empty (t : Table) (id : Int) (cells : Cells) :
    t.repeated? id cells .empty = none := by
  rw [repeated?, Option.map_eq_none_iff, List.find?_eq_none]
  intro columns _
  exact Bool.false_ne_true

/-- What the constraints ask of the cells of a row by itself. -/
theorem violated?_eq_none_iff : t.violated? id cells .empty = none ↔
    ∀ e ∈ t.wholeRow id cells,
      (e.1.presence = .required → e.2 ≠ .null) ∧ ∀ k ∈ e.1.checks, k.admits e.2 = true := by
  have hmissing : t.missingValue? (t.wholeRow id cells) = none ↔
      ∀ e ∈ t.wholeRow id cells, e.1.presence = .required → e.2 ≠ .null := by
    simp [missingValue?, Cell.isNull_iff]
  have hchecks : failedCheck? (t.wholeRow id cells) = none ↔
      ∀ e ∈ t.wholeRow id cells, ∀ k ∈ e.1.checks, k.admits e.2 = true := by
    simp [failedCheck?, Column.failedCheck?]
  have hboth : t.violated? id cells .empty = none ↔
      t.missingValue? (t.wholeRow id cells) = none ∧ failedCheck? (t.wholeRow id cells) = none := by
    simp [violated?, takenKey?_empty, repeated?_empty]
  rw [hboth, hmissing, hchecks]
  exact forall₂_and.symm

theorem violated?_eq_none_of_require {others : Rows Cells}
    (h : t.require id cells others = .ok ()) : t.violated? id cells others = none := by
  unfold require at h
  cases hviolated : t.violated? id cells others with
  | none => rfl
  | some f =>
    rw [hviolated] at h
    cases h

/-- A row that is let through among others breaks no constraint by itself. -/
theorem violated?_of_require {others : Rows Cells} (h : t.require id cells others = .ok ()) :
    t.violated? id cells .empty = none := by
  have hnone := violated?_eq_none_of_require h
  unfold violated? at hnone ⊢
  rw [takenKey?_empty, repeated?_empty]
  grind

/-- No other row has its number, if rows are numbered by a column. -/
theorem not_contains_of_require {others : Rows Cells} (h : t.require id cells others = .ok ())
    (hkey : t.key? ≠ none) : others.contains id = false := by
  have hnone := violated?_eq_none_of_require h
  have htaken : t.takenKey? id others = none := by
    unfold violated? at hnone
    grind
  by_contra hcontains
  rw [takenKey?, if_pos (by simpa using hcontains), Option.map_eq_none_iff] at htaken
  exact hkey htaken

/-! ## Statements -/

/-- Adding a row puts one in place that breaks no constraint. -/
theorem insert_cases {now : Calendar.Instant} (h : t.insert now values = .ok (id, t')) :
    t.violated? id (t.newCells now values) .empty = none ∧
      t' = { t with rows := t.rows.put id (t.newCells now values) } := by
  unfold insert at h
  obtain ⟨-, -, h⟩ := exists_of_bind_eq_ok h
  obtain ⟨new, -, h⟩ := exists_of_bind_eq_ok h
  obtain ⟨⟨⟩, hrequire, h⟩ := exists_of_bind_eq_ok h
  cases h
  exact ⟨violated?_of_require hrequire, rfl⟩

/-- To say what a new row holds in a column changes nothing about adding it. -/
theorem insertReturning_cases {now : Calendar.Instant} {column : String} {c : Cell}
    (h : t.insertReturning now values column = .ok (c, t')) :
    ∃ id, t.insert now values = .ok (id, t') ∧ c = t'.cellAt column id := by
  unfold insertReturning at h
  obtain ⟨-, -, h⟩ := exists_of_bind_eq_ok h
  obtain ⟨⟨id, new⟩, hinsert, h⟩ := exists_of_bind_eq_ok h
  cases h
  exact ⟨id, hinsert, rfl⟩

/-- Changing a row leaves the table as it was if there is no such row, and else puts one in its
place, or in another, that breaks no constraint among the other rows. -/
theorem changeRow_cases (h : changeRow values t id = .ok t') :
    (t.rows.get? id = none ∧ t' = t) ∨
      ∃ new old, t.rows.get? id = some old ∧ t.changedId id values = .ok new ∧
        t.require new (t.changedCells old values) (t.rows.erase id) = .ok () ∧
        t' = { t with rows := (t.rows.erase id).put new (t.changedCells old values) } := by
  unfold changeRow at h
  split at h
  · next hnone =>
    cases h
    exact .inl ⟨hnone, rfl⟩
  · next old hold =>
    obtain ⟨new, hnew, h⟩ := exists_of_bind_eq_ok h
    obtain ⟨⟨⟩, hrequire, h⟩ := exists_of_bind_eq_ok h
    cases h
    exact .inr ⟨new, old, hold, hnew, hrequire, rfl⟩

theorem update_cases {column : String} {n : Int} {count : Nat}
    (h : t.update column n values = .ok (count, t')) :
    count = (t.holders column n).length ∧
      (t.holders column n).foldlM (changeRow values) t = .ok t' := by
  unfold update at h
  obtain ⟨-, -, h⟩ := exists_of_bind_eq_ok h
  obtain ⟨-, -, h⟩ := exists_of_bind_eq_ok h
  obtain ⟨new, hnew, h⟩ := exists_of_bind_eq_ok h
  cases h
  exact ⟨rfl, hnew⟩

theorem delete_cases {column : String} {n : Int} {count : Nat}
    (h : t.delete column n = .ok (count, t')) :
    count = (t.holders column n).length ∧
      t' = { t with rows := (t.holders column n).foldl Rows.erase t.rows } := by
  unfold delete at h
  obtain ⟨-, -, h⟩ := exists_of_bind_eq_ok h
  cases h
  exact ⟨rfl, rfl⟩

/-- What outlasts the change of one row outlasts a statement that changes rows. -/
theorem update_induction {P : Table → Prop}
    (hchange : ∀ u id u', P u → changeRow values u id = .ok u' → P u') (ht : P t)
    {column : String} {n : Int} {count : Nat} (h : t.update column n values = .ok (count, t')) :
    P t' :=
  foldlM_induction hchange ht (update_cases h).2

/-- What outlasts the loss of one row outlasts a statement that takes rows out. -/
theorem delete_induction {P : Table → Prop}
    (herase : ∀ (u : Table) id, P u → P { u with rows := u.rows.erase id }) (ht : P t)
    {column : String} {n : Int} {count : Nat} (h : t.delete column n = .ok (count, t')) : P t' := by
  have hall : ∀ (ids : List Int) (u : Table), P u →
      P { u with rows := ids.foldl Rows.erase u.rows } := by
    intro ids
    induction ids with
    | nil => exact fun u hu => hu
    | cons id ids ih => exact fun u hu => ih _ (herase u id hu)
  obtain ⟨-, rfl⟩ := delete_cases h
  exact hall _ t ht

/-! ## Rows that go on to fulfil the constraints -/

theorem conforms_put (ht : t.Conforms) (h : t.violated? id cells .empty = none) :
    Conforms { t with rows := t.rows.put id cells } := by
  intro e he
  rcases Rows.mem_put he with rfl | he
  · exact h
  · exact ht e he

theorem conforms_erase (ht : t.Conforms) (id : Int) :
    Conforms { t with rows := t.rows.erase id } := by
  intro e he
  exact ht e (Rows.mem_erase he)

theorem conforms_insert {now : Calendar.Instant} (ht : t.Conforms)
    (h : t.insert now values = .ok (id, t')) : t'.Conforms := by
  obtain ⟨hrow, rfl⟩ := insert_cases h
  exact conforms_put ht hrow

theorem conforms_changeRow (ht : t.Conforms) (h : changeRow values t id = .ok t') :
    t'.Conforms := by
  obtain ⟨-, rfl⟩ | ⟨new, old, -, -, hrow, rfl⟩ := changeRow_cases h
  · exact ht
  · exact conforms_put (conforms_erase ht id) (violated?_of_require hrow)

end Table

end Store

end CompanyRegister
