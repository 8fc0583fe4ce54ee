import CompanyRegister.Json.Value

/-!
# Reading quoted strings

`quote` and `unquote` are inverse: whatever characters a text has, its quoted form is read back as
that text, and what follows the closing quote is left. The escapes are undone one character at a
time (`unquote_quoteChar`); control characters without a letter of their own are the ones written
with hexadecimal digits.
-/

namespace CompanyRegister.Json

open Text

/-! ## Control characters -/

theorem hexValue?_digitChar {n : Nat} (h : n < 16) : hexValue? (Nat.digitChar n) = some n := by
  have hall : ∀ k < 16, hexValue? (Nat.digitChar k) = some k := by decide
  exact hall n h

/-- The unit of a character below 32, as it is written. -/
theorem unit_control {n : Nat} (h : n < 32) (text : List Char) :
    unit ('0' :: '0' :: Nat.digitChar (n / 16) :: Nat.digitChar (n % 16) :: text) = .ok n := by
  have hcount : ∀ c : Char, 1 ≤ c.utf8Size := Char.utf8Size_pos
  have hhigh := hexValue?_digitChar (show n / 16 < 16 by omega)
  have hlow := hexValue?_digitChar (Nat.mod_lt n (show 0 < 16 by decide))
  have hzero : hexValue? '0' = some 0 := by decide
  rw [unit, if_neg]
  · simp only [hzero, hhigh, hlow, Except.ok.injEq]
    omega
  · have h1 := hcount '0'
    have h2 := hcount (Nat.digitChar (n / 16))
    have h3 := hcount (Nat.digitChar (n % 16))
    simp only [byteCount, List.foldr_cons]
    omega

theorem unescape_control {c : Char} (h : c.toNat < 32) (text : List Char) :
    unescape ('u' :: '0' :: '0' :: Nat.digitChar (c.toNat / 16) ::
      Nat.digitChar (c.toNat % 16) :: text) = .ok (c, 5) := by
  have hlow : isLowSurrogate c.toNat = false := by
    simp only [isLowSurrogate, Bool.and_eq_false_iff, decide_eq_false_iff_not]
    omega
  have hhigh : isHighSurrogate c.toNat = false := by
    simp only [isHighSurrogate, Bool.and_eq_false_iff, decide_eq_false_iff_not]
    omega
  rw [unescape, unit_control h]
  show (if isLowSurrogate c.toNat = true then _ else if isHighSurrogate c.toNat = true then _
    else Except.ok (Char.ofNat c.toNat, 5)) = _
  rw [hlow, hhigh, Char.ofNat_toNat]
  rfl

/-! ## Strings -/

/-- An escape is read as the character it stands for. -/
theorem unquote_escape (escape : List Char) {c : Char} {text : List Char}
    (hescape : unescape (escape ++ text) = .ok (c, escape.length)) :
    unquote ('\\' :: (escape ++ text)) = (unquote text).map fun r => (c :: r.1, r.2) := by
  have hquote : ¬ '\\' = '"' := by decide
  rw [unquote]
  simp only [hquote, if_false, if_true, hescape, List.drop_left]
  cases unquote text <;> rfl

/-- A character that stands for itself is read as itself. -/
theorem unquote_plain {c : Char} (hquote : c ≠ '"') (hslash : c ≠ '\\')
    (hcontrol : ¬ c.toNat < 0x20) (text : List Char) :
    unquote (c :: text) = (unquote text).map fun r => (c :: r.1, r.2) := by
  rw [unquote]
  simp only [hquote, hslash, hcontrol, if_false]
  cases unquote text <;> rfl

theorem unquote_quoteChar (c : Char) (text : List Char) :
    unquote (quoteChar c ++ text) = (unquote text).map fun r => (c :: r.1, r.2) := by
  rw [quoteChar.eq_def]
  split
  · exact unquote_escape ['"'] rfl
  · exact unquote_escape ['\\'] rfl
  · exact unquote_escape ['b'] rfl
  · exact unquote_escape ['f'] rfl
  · exact unquote_escape ['n'] rfl
  · exact unquote_escape ['r'] rfl
  · exact unquote_escape ['t'] rfl
  · next hquote hslash _ _ _ _ _ =>
    split
    · next hcontrol =>
      exact unquote_escape ['u', '0', '0', Nat.digitChar (c.toNat / 16),
        Nat.digitChar (c.toNat % 16)] (unescape_control hcontrol text)
    · next hcontrol => exact unquote_plain hquote hslash hcontrol text

/-- Reading a quoted text behind its opening quote gives the text. -/
theorem unquote_quoted (s rest : List Char) :
    unquote (s.flatMap quoteChar ++ '"' :: rest) = .ok (s, rest) := by
  induction s with
  | nil => rw [List.flatMap_nil, List.nil_append, unquote, if_pos rfl]
  | cons c s ih =>
    rw [List.flatMap_cons, List.append_assoc, unquote_quoteChar, ih]
    rfl

/-- A quoted text is read as a value. -/
theorem readHead_quote (s rest : List Char) :
    readHead (quote s ++ rest) = .ok (.text s, rest) := by
  have hgap : skipGap (quote s ++ rest) = '"' :: (s.flatMap quoteChar ++ '"' :: rest) := by
    simp [quote, skipGap, isGap]
  rw [readHead, hgap]
  simp only [unquote_quoted]
  rfl

end CompanyRegister.Json
