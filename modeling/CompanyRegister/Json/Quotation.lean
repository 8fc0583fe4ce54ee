import CompanyRegister.Json.Fault

/-!
# Strings in JSON documents

A string stands between double quotes. A backslash begins an escape: one of eight letters, or `u`
and four hexadecimal digits, which give a UTF-16 unit; a character beyond the basic plane takes two
such escapes. `unquote` reads a string and `quote` writes one.
-/

namespace CompanyRegister.Json

open Text

/-! ### Reading -/

def hexValue? (c : Char) : Option Nat :=
  if c.isDigit then some (c.toNat - 48)
  else if 'a' ≤ c ∧ c ≤ 'f' then some (c.toNat - 87)
  else if 'A' ≤ c ∧ c ≤ 'F' then some (c.toNat - 55)
  else none

/-- The unit that four hexadecimal digits give. -/
def unit (text : List Char) : Except Fault Nat :=
  if byteCount text < 4 then .error (.here .endInString [])
  else
    match text with
    | a :: b :: c :: d :: _ =>
      match hexValue? a, hexValue? b, hexValue? c, hexValue? d with
      | some a, some b, some c, some d => .ok (((16 * a + b) * 16 + c) * 16 + d)
      | _, _, _, _ => .error ⟨.invalidEscape, some ⟨text, 4⟩⟩
    | _ => .error ⟨.invalidEscape, some ⟨text, 4⟩⟩

/-- Whether a unit is the first half of a pair. -/
def isHighSurrogate (n : Nat) : Bool := 0xD800 ≤ n && n ≤ 0xDBFF

/-- Whether a unit is the second half of a pair. -/
def isLowSurrogate (n : Nat) : Bool := 0xDC00 ≤ n && n ≤ 0xDFFF

/-- The character of a pair of units. -/
def ofSurrogates (high low : Nat) : Char :=
  Char.ofNat (0x10000 + (high - 0xD800) * 0x400 + (low - 0xDC00))

/-- Read the second half of a pair, which must be the next escape. -/
def lowerHalf (high : Nat) (text : List Char) : Except Fault Char :=
  match text with
  | [] => .error (.here .endInString [])
  | '\\' :: text =>
    match text with
    | [] => .error (.here .endInString [])
    | 'u' :: text => do
      let low ← unit text
      if isLowSurrogate low then return ofSurrogates high low
      else .error (.here .loneSurrogate (text.drop 4))
    | text => .error (.next .halfSurrogatePair text)
  | text => .error (.next .halfSurrogatePair text)

/-- The character that an escape stands for, and how many characters of the text behind the
backslash it takes. -/
def unescape (text : List Char) : Except Fault (Char × Nat) :=
  match text with
  | [] => .error (.here .endInString [])
  | 'u' :: rest => do
    let n ← unit rest
    if isLowSurrogate n then .error (.here .loneSurrogate (rest.drop 4))
    else if isHighSurrogate n then
      let c ← lowerHalf n (rest.drop 4)
      return (c, 11)
    else return (Char.ofNat n, 5)
  | c :: _ =>
    match c with
    | '"' => .ok ('"', 1)
    | '\\' => .ok ('\\', 1)
    | '/' => .ok ('/', 1)
    | 'b' => .ok ('\x08', 1)
    | 'f' => .ok ('\x0c', 1)
    | 'n' => .ok ('\n', 1)
    | 'r' => .ok ('\r', 1)
    | 't' => .ok ('\t', 1)
    | _ => .error (.next .invalidEscape text)

/-- Read a string behind its opening quote. -/
def unquote (text : List Char) : Reading (List Char) :=
  match text with
  | [] => .error (.here .endInString [])
  | c :: rest =>
    if c = '"' then .ok ([], rest)
    else if c = '\\' then
      match unescape rest with
      | .error f => .error f
      | .ok (d, taken) =>
        match unquote (rest.drop taken) with
        | .error f => .error f
        | .ok (s, rest) => .ok (d :: s, rest)
    else if c.toNat < 0x20 then .error (.next .controlCharacter text)
    else
      match unquote rest with
      | .error f => .error f
      | .ok (s, rest) => .ok (c :: s, rest)
termination_by text.length
decreasing_by
  · simp only [List.length_drop, List.length_cons]; omega
  · simp

/-! ### Writing -/

/-- A character within quotes: quotes, backslashes and control characters are escaped. -/
def quoteChar (c : Char) : List Char :=
  match c with
  | '"' => ['\\', '"']
  | '\\' => ['\\', '\\']
  | '\x08' => ['\\', 'b']
  | '\x0c' => ['\\', 'f']
  | '\n' => ['\\', 'n']
  | '\r' => ['\\', 'r']
  | '\t' => ['\\', 't']
  | c =>
    if c.toNat < 0x20 then
      ['\\', 'u', '0', '0', Nat.digitChar (c.toNat / 16), Nat.digitChar (c.toNat % 16)]
    else [c]

def quote (s : List Char) : List Char := '"' :: (s.flatMap quoteChar ++ ['"'])

end CompanyRegister.Json
