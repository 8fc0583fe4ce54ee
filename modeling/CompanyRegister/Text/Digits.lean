/-!
# Decimal digits

Whole numbers are written with the ASCII digits and read back from them. `digits` writes the
shortest form, `padded` a fixed least width, and `value` reads any row of digits, so that
`value (digits n) = n`.
-/

namespace CompanyRegister.Text

/-- The ASCII digit of a number below ten. -/
def digitChar (n : Nat) : Char := Char.ofNat (48 + n)

def digitValue (c : Char) : Nat := c.toNat - 48

/-- The decimal digits of `n`, most significant first, without leading zeros; zero is `0`. -/
def digits (n : Nat) : List Char :=
  if n < 10 then [digitChar n] else digits (n / 10) ++ [digitChar (n % 10)]

/-- `text` with zeros put in front until it has at least `width` characters. -/
def padZeros (width : Nat) (text : List Char) : List Char :=
  List.replicate (width - text.length) '0' ++ text

/-- The digits of `n`, with leading zeros up to `width`. -/
def padded (width n : Nat) : List Char := padZeros width (digits n)

/-- Ten to the power `n`: the weight of a digit with `n` digits behind it. -/
def tenPower (n : Nat) : Nat := Nat.pow 10 n

/-- The number that a row of digits stands for. -/
def value (ds : List Char) : Nat := ds.foldl (fun n c => 10 * n + digitValue c) 0

/-- The digits of an integer, with a minus sign in front of a negative one. -/
def signed : Int → List Char
  | .ofNat n => digits n
  | .negSucc n => '-' :: digits (n + 1)

/-- The leading run of digits of `text`, and what follows it. -/
def takeDigits (text : List Char) : List Char × List Char :=
  (text.takeWhile Char.isDigit, text.dropWhile Char.isDigit)

/-- A whole number below `2 ^ 32`: an optional plus sign and one or more digits. -/
def word32? (text : List Char) : Option Nat :=
  let ds := match text with
    | '+' :: rest => rest
    | _ => text
  if ds ≠ [] ∧ ds.all Char.isDigit = true ∧ value ds < 4294967296 then some (value ds) else none

theorem tenPower_succ (n : Nat) : tenPower (n + 1) = tenPower n * 10 := rfl

theorem tenPower_add (m n : Nat) : tenPower (m + n) = tenPower m * tenPower n := Nat.pow_add 10 m n

theorem tenPower_pos (n : Nat) : 0 < tenPower n := Nat.pow_pos (by decide)

theorem foldl_value (ds : List Char) (n : Nat) :
    ds.foldl (fun n c => 10 * n + digitValue c) n = n * tenPower ds.length + value ds := by
  induction ds generalizing n with
  | nil => simp [value, tenPower]
  | cons c ds ih =>
    have hc : value (c :: ds) = digitValue c * tenPower ds.length + value ds := by
      rw [value, List.foldl_cons, ih]; simp
    rw [List.foldl_cons, ih, hc, List.length_cons, tenPower_succ, Nat.add_mul, Nat.add_assoc,
      Nat.mul_comm 10 n, Nat.mul_assoc, Nat.mul_comm 10]

theorem value_cons (c : Char) (ds : List Char) :
    value (c :: ds) = digitValue c * tenPower ds.length + value ds := by
  rw [value, List.foldl_cons, foldl_value]
  simp

theorem value_append (xs ys : List Char) :
    value (xs ++ ys) = value xs * tenPower ys.length + value ys := by
  rw [value, List.foldl_append, foldl_value]; rfl

theorem digitValue_lt {c : Char} (h : c.isDigit = true) : digitValue c < 10 := by
  simp only [Char.isDigit, Bool.and_eq_true, decide_eq_true_eq] at h
  have hhigh : c.toNat ≤ 57 := h.2
  rw [digitValue]
  omega

/-- A row of digits stands for less than the weight in front of it. -/
theorem value_lt_tenPower {ds : List Char} (h : ∀ c ∈ ds, c.isDigit = true) :
    value ds < tenPower ds.length := by
  induction ds with
  | nil => exact Nat.one_pos
  | cons c ds ih =>
    obtain ⟨hc, hds⟩ := List.forall_mem_cons.mp h
    have hc' : digitValue c * tenPower ds.length ≤ 9 * tenPower ds.length :=
      Nat.mul_le_mul_right _ (Nat.le_of_lt_succ (digitValue_lt hc))
    have := ih hds
    rw [value_cons, List.length_cons, tenPower_succ]
    omega

theorem digitValue_digitChar {n : Nat} (h : n < 10) : digitValue (digitChar n) = n := by
  match n, h with
  | 0, _ | 1, _ | 2, _ | 3, _ | 4, _ | 5, _ | 6, _ | 7, _ | 8, _ | 9, _ => decide

theorem isDigit_digitChar {n : Nat} (h : n < 10) : (digitChar n).isDigit = true := by
  match n, h with
  | 0, _ | 1, _ | 2, _ | 3, _ | 4, _ | 5, _ | 6, _ | 7, _ | 8, _ | 9, _ => decide

/-- Reading what was written gives the number back. -/
theorem value_digits (n : Nat) : value (digits n) = n := by
  induction n using Nat.strongRecOn with
  | ind n ih =>
    rw [digits]
    split
    · next h => simp [value, digitValue_digitChar h]
    · next h =>
      rw [value_append, ih (n / 10) (by omega)]
      simp [value, tenPower, digitValue_digitChar (Nat.mod_lt n (by decide : 0 < 10))]
      omega

/-- Only digits are written. -/
theorem isDigit_of_mem_digits {n : Nat} {c : Char} (h : c ∈ digits n) : c.isDigit = true := by
  induction n using Nat.strongRecOn with
  | ind n ih =>
    rw [digits] at h
    split at h
    · next hn => simp only [List.mem_singleton] at h; exact h ▸ isDigit_digitChar hn
    · next hn =>
      rcases List.mem_append.mp h with h | h
      · exact ih (n / 10) (by omega) h
      · simp only [List.mem_singleton] at h
        exact h ▸ isDigit_digitChar (Nat.mod_lt n (by decide))

theorem digits_ne_nil (n : Nat) : digits n ≠ [] := by
  rw [digits]; split <;> simp

/-! ### Fixed width -/

theorem length_digits_le {width n : Nat} (hw : 0 < width) (h : n < tenPower width) :
    (digits n).length ≤ width := by
  induction width generalizing n with
  | zero => exact absurd hw (Nat.lt_irrefl 0)
  | succ width ih =>
    rw [digits]
    split
    · simp
    · next hn =>
      have hn' : n / 10 < tenPower width := by
        rw [tenPower_succ] at h
        exact Nat.div_lt_of_lt_mul (by omega)
      have hw' : 0 < width := by
        rcases Nat.eq_zero_or_pos width with rfl | hpos
        · exact absurd (show n / 10 < 1 from hn') (by omega)
        · exact hpos
      have := ih hw' hn'
      simp only [List.length_append, List.length_singleton]
      omega

theorem length_padded {width n : Nat} (hw : 0 < width) (h : n < tenPower width) :
    (padded width n).length = width := by
  have := length_digits_le hw h
  simp only [padded, padZeros, List.length_append, List.length_replicate]
  omega

theorem value_replicate_zero (n : Nat) : value (List.replicate n '0') = 0 := by
  induction n with
  | zero => rfl
  | succ n ih => rw [List.replicate_succ', value_append, ih]; rfl

/-- Zeros in front change nothing. -/
@[simp] theorem value_padded (width n : Nat) : value (padded width n) = n := by
  rw [padded, padZeros, value_append, value_replicate_zero, value_digits]
  omega

theorem isDigit_of_mem_padded {width n : Nat} {c : Char} (h : c ∈ padded width n) :
    c.isDigit = true := by
  rcases List.mem_append.mp h with h | h
  · rw [List.eq_of_mem_replicate h]; decide
  · exact isDigit_of_mem_digits h

/-- There is always a digit at the front. -/
theorem exists_padded_eq_cons (width n : Nat) :
    ∃ c ds, padded width n = c :: ds ∧ c.isDigit = true := by
  have hne : padded width n ≠ [] := by
    rw [padded, padZeros]
    exact List.append_ne_nil_of_right_ne_nil _ (digits_ne_nil n)
  obtain ⟨c, ds, heq⟩ := List.exists_cons_of_ne_nil hne
  exact ⟨c, ds, heq, isDigit_of_mem_padded (heq ▸ List.mem_cons_self)⟩

/-- A run of digits is taken up to the first character that is none. -/
theorem takeDigits_append {ds rest : List Char} (hds : ∀ c ∈ ds, c.isDigit = true)
    (hrest : ∀ c ∈ rest.head?, c.isDigit = false) : takeDigits (ds ++ rest) = (ds, rest) := by
  rw [takeDigits, List.takeWhile_append_of_pos hds, List.dropWhile_append_of_pos hds]
  cases rest with
  | nil => simp
  | cons c rest => simp [hrest c rfl]

end CompanyRegister.Text
