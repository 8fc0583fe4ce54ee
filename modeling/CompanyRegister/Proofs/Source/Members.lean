import CompanyRegister.Proofs.Source.EntryLines
import CompanyRegister.Proofs.Source.Spelling

/-!
# Members of an options object

An options object as it may be written by hand: a length, a default, and other members whose values
are numbers, booleans or words in quotes. Keys may stand in quotes or not.

    length: 60      "length": 60      default: () => "(x)"      nullable: true      'name': "Label"

On a line with others a length is told by its whole key, whatever quotes it has
(`laterLength?_text`). On a line of its own it is told by how its key ends, and not at all if that
stands in quotes (`readLine_text`). A default is told by how its key ends on either
(`contains_key_text`).
-/

namespace CompanyRegister.Source

open Text

/-! ## What is written -/

/-- The name of a member that is neither a length nor a default. -/
structure OtherName where
  chars : List Char
  ne_nil : chars ≠ []
  isName : ∀ c ∈ chars, isNameRest c = true
  ne_length : chars ≠ "length".toList
  ne_default : chars ≠ "default".toList

/-- Whether a character may stand in a name, a number or a boolean. -/
def isBareChar (c : Char) : Bool := isNameRest c || ['.', '+', '-'].contains c

/-- A number or a boolean. -/
structure BareWord where
  chars : List Char
  ne_nil : chars ≠ []
  isBare : ∀ c ∈ chars, isBareChar c = true

/-- The value of a member that is neither a length nor a default. -/
inductive OtherValue
  | bare (word : BareWord)
  | quoted (word : PlainWord)

def OtherValue.text : OtherValue → List Char
  | bare word => word.chars
  | quoted word => '"' :: (word.chars ++ ['"'])

/-- What a member says. The value of a default is any text on one line. -/
inductive Content
  | length (n : Nat)
  | default (value : List Char) (oneLine : '\n' ∉ value)
  | other (name : OtherName) (value : OtherValue)

namespace Content

def name : Content → List Char
  | length _ => "length".toList
  | default _ _ => "default".toList
  | other name _ => name.chars

def valueText : Content → List Char
  | length n => digits n
  | default value _ => "() => \"(".toList ++ (value ++ ")\"".toList)
  | other _ value => value.text

/-- The length that is given. -/
def length? : Content → Option Nat
  | length n => some n
  | _ => none

/-- The value of the default that is given. -/
def default? : Content → Option (List Char)
  | default value _ => some value
  | _ => none

end Content

/-- A member of an options object. -/
structure Member where
  quoting : Quoting
  content : Content

namespace Member

/-- The key of a member, without quotes. -/
def key (m : Member) : List Char := m.content.name

def keyText (m : Member) : List Char := m.quoting.write m.key

def valueText (m : Member) : List Char := m.content.valueText

def text (m : Member) : List Char := m.keyText ++ ':' :: ' ' :: m.valueText

def length? (m : Member) : Option Nat := m.content.length?

def default? (m : Member) : Option (List Char) := m.content.default?

end Member

/-! ## Characters -/

theorem isBodyChar_of_isBareChar {c : Char} (h : isBareChar c = true) : isBodyChar c = true := by
  have hblank : isBlank c = false := by
    rw [Bool.eq_false_iff]
    intro hblank
    rw [isBareChar, isNameRest_of_isBlank hblank, Bool.false_or, List.contains_iff_mem] at h
    simp only [List.mem_cons, List.not_mem_nil, or_false] at h
    rcases h with rfl | rfl | rfl <;> exact absurd hblank (by decide)
  rw [isBodyChar, hblank, Bool.not_false, Bool.true_and, decide_eq_true_eq]
  intro hmem
  simp only [List.mem_cons, List.not_mem_nil, or_false] at hmem
  rcases hmem with rfl | rfl | rfl | rfl <;> exact absurd h (by decide)

theorem isBareChar_of_isNameRest {c : Char} (h : isNameRest c = true) : isBareChar c = true := by
  rw [isBareChar, h, Bool.true_or]

theorem isNameRest_of_isPlain {c : Char} (h : isPlain c = true) : isNameRest c = true := by
  rw [isPlain, Bool.or_eq_true, beq_iff_eq] at h
  rcases h with h | rfl
  · simp [isNameRest, isWord, h]
  · decide

/-- Whether a character may stand in a key or in the value of a member that is no default. -/
def isItemChar (c : Char) : Bool := isBareChar c || ['"', '\''].contains c

theorem isItemChar_of_mem_write {word : List Char} (q : Quoting)
    (hword : ∀ c ∈ word, isBareChar c = true) : ∀ c ∈ q.write word, isItemChar c = true := by
  have hitem : ∀ c ∈ word, isItemChar c = true := by
    intro c hc
    rw [isItemChar, hword c hc, Bool.true_or]
  cases q with
  | plain => exact hitem
  | single =>
    rw [Quoting.write, List.forall_mem_cons, List.forall_mem_append, List.forall_mem_singleton]
    exact ⟨by decide, hitem, by decide⟩
  | double =>
    rw [Quoting.write, List.forall_mem_cons, List.forall_mem_append, List.forall_mem_singleton]
    exact ⟨by decide, hitem, by decide⟩

namespace Content

theorem isNameRest_of_mem_name (x : Content) : ∀ c ∈ x.name, isNameRest c = true := by
  cases x with
  | length n => exact List.all_eq_true.mp (by decide : "length".toList.all isNameRest = true)
  | default value oneLine =>
    exact List.all_eq_true.mp (by decide : "default".toList.all isNameRest = true)
  | other name value => exact name.isName

theorem name_ne_nil (x : Content) : x.name ≠ [] := by
  cases x with
  | length n => exact List.cons_ne_nil _ _
  | default value oneLine => exact List.cons_ne_nil _ _
  | other name value => exact name.ne_nil

/-- The value of a member that is no default is a word. -/
theorem exists_valueText_eq {x : Content} (hx : x.default? = none) :
    ∃ q word, x.valueText = Quoting.write word q ∧ (q = .plain → word ≠ []) ∧
      ∀ c ∈ word, isBareChar c = true := by
  cases x with
  | length n =>
    exact ⟨.plain, digits n, rfl, fun _ => digits_ne_nil n, fun c hc =>
      isBareChar_of_isNameRest (isNameRest_of_isPlain (isPlain_of_mem_digits hc))⟩
  | default value oneLine => cases hx
  | other name value =>
    cases value with
    | bare word => exact ⟨.plain, word.chars, rfl, fun _ => word.ne_nil, word.isBare⟩
    | quoted word =>
      exact ⟨.double, word.chars, rfl, by simp, fun c hc =>
        isBareChar_of_isNameRest (isNameRest_of_isPlain (word.plain c hc))⟩

theorem name_eq_length_iff {x : Content} : x.name = "length".toList ↔ ∃ n, x.length? = some n := by
  cases x with
  | length n => exact iff_of_true rfl ⟨n, rfl⟩
  | default value oneLine =>
    exact iff_of_false (by decide : "default".toList ≠ "length".toList) (by simp [length?])
  | other name value => exact iff_of_false name.ne_length (by simp [length?])

theorem name_eq_default_iff {x : Content} :
    x.name = "default".toList ↔ ∃ value, x.default? = some value := by
  cases x with
  | length n =>
    exact iff_of_false (by decide : "length".toList ≠ "default".toList) (by simp [default?])
  | default value oneLine => exact iff_of_true rfl ⟨value, rfl⟩
  | other name value => exact iff_of_false name.ne_default (by simp [default?])

end Content

/-! ## A length on a shared line -/

namespace Member

variable {m : Member}

theorem isNameRest_of_mem_key (m : Member) : ∀ c ∈ m.key, isNameRest c = true :=
  m.content.isNameRest_of_mem_name

theorem isBareChar_of_mem_key (m : Member) : ∀ c ∈ m.key, isBareChar c = true :=
  fun c hc => isBareChar_of_isNameRest (m.isNameRest_of_mem_key c hc)

/-- A member on a line with others gives its length if it has one; all others are passed over. -/
theorem laterLength?_text (hm : m.default? = none) {rest : List Char} (hrest : EndsEntry rest) :
    laterLength? (' ' :: (m.text ++ rest)) = (m.length?.map digits).or (laterLength? rest) := by
  have htext : m.text ++ rest = m.quoting.write m.key ++ ':' :: ' ' :: (m.valueText ++ rest) := by
    rw [text, List.append_assoc]
    rfl
  have hkey : ∀ c ∈ m.key, isBodyChar c = true :=
    fun c hc => isBodyChar_of_isBareChar (m.isBareChar_of_mem_key c hc)
  cases hlength : m.length? with
  | some n =>
    obtain ⟨quoting, content⟩ := m
    cases content <;> cases hlength
    rw [htext]
    exact laterLength?_cons_of_eq_some (by decide)
      (entryLength?_length quoting n (head?_of_endsEntry hrest))
  | none =>
    have hother : m.key ≠ "length".toList := by
      intro h
      obtain ⟨n, hn⟩ := Content.name_eq_length_iff.mp h
      rw [length?, hn] at hlength
      cases hlength
    have hname : m.key ≠ [] := m.content.name_ne_nil
    obtain ⟨q, word, hvalue, hne, hword⟩ := Content.exists_valueText_eq hm
    rw [htext, laterLength?_key m.quoting hname hkey hother, valueText, hvalue,
      laterLength?_value q hne (fun c hc => isBodyChar_of_isBareChar (hword c hc)) hrest]
    rfl

/-! ## Keys that pass for others -/

/-- Whether a key passes for another one, for a reader that does not look at how it begins. -/
def PassesFor (key : List Char) (m : Member) : Prop := m.quoting = .plain ∧ key <:+ m.key

instance (key : List Char) (m : Member) : Decidable (m.PassesFor key) :=
  inferInstanceAs (Decidable (_ ∧ _))

theorem passesFor_of_key_eq {m : Member} {key : List Char} (hplain : m.quoting = .plain)
    (hkey : m.key = key) : m.PassesFor key :=
  ⟨hplain, hkey ▸ List.suffix_refl _⟩

theorem key_eq_default {m : Member} (h : m.default? ≠ none) : m.key = "default".toList :=
  Content.name_eq_default_iff.mpr (Option.ne_none_iff_exists'.mp h)

theorem isItemChar_of_mem_keyText (m : Member) : ∀ c ∈ m.keyText, isItemChar c = true :=
  isItemChar_of_mem_write m.quoting m.isBareChar_of_mem_key

theorem isItemChar_of_mem_valueText (hm : m.default? = none) :
    ∀ c ∈ m.valueText, isItemChar c = true := by
  obtain ⟨q, word, hvalue, -, hword⟩ := Content.exists_valueText_eq hm
  rw [valueText, hvalue]
  exact isItemChar_of_mem_write q hword

/-- Whether a character may stand in or between members that are no defaults. -/
def isMemberChar (c : Char) : Bool := isItemChar c || [':', ' ', ','].contains c

theorem isMemberChar_of_mem_text (hm : m.default? = none) : ∀ c ∈ m.text, isMemberChar c = true := by
  have hitem : ∀ c, isItemChar c = true → isMemberChar c = true := by
    intro c hc
    rw [isMemberChar, hc, Bool.true_or]
  rw [text, List.forall_mem_append, List.forall_mem_cons, List.forall_mem_cons]
  exact ⟨fun c hc => hitem c (m.isItemChar_of_mem_keyText c hc), by decide, by decide,
    fun c hc => hitem c (isItemChar_of_mem_valueText hm c hc)⟩

/-- The key of a member ends with a key only if it passes for it: one in quotes ends with a
quote. -/
theorem suffix_keyText_iff {key : List Char} (hne : key ≠ [])
    (hkey : ∀ c ∈ key, isNameRest c = true) : key <:+ m.keyText ↔ m.PassesFor key := by
  have hquoted : ∀ c, isNameRest c = false → ¬ key <:+ c :: m.key ++ [c] := by
    intro c hc h
    rcases List.suffix_concat_iff.mp h with rfl | ⟨front, rfl, -⟩
    · exact hne rfl
    · rw [hkey c (by simp)] at hc
      cases hc
  rw [PassesFor, keyText]
  cases m.quoting with
  | plain => exact (and_iff_right rfl).symm
  | single => exact iff_of_false (hquoted '\'' (by decide)) (by simp)
  | double => exact iff_of_false (hquoted '"' (by decide)) (by simp)

/-- What is looked for a key finds the members whose keys pass for it. -/
theorem contains_text_iff {key tail : List Char} (hne : key ≠ [])
    (hkey : ∀ c ∈ key, isNameRest c = true) (hm : m.default? = none) (htail : ':' ∉ tail) :
    contains (key ++ [':', ' ']) (m.text ++ tail) = true ↔ m.PassesFor key := by
  have hword : ':' ∉ m.keyText := not_mem_of_forall m.isItemChar_of_mem_keyText (by decide)
  have hvalue : ':' ∉ m.valueText := not_mem_of_forall (isItemChar_of_mem_valueText hm) (by decide)
  have hrest : ':' ∉ ' ' :: (m.valueText ++ tail) := by simp [hvalue, htail]
  have htext : m.text ++ tail = m.keyText ++ ':' :: ' ' :: (m.valueText ++ tail) := by
    rw [text, List.append_assoc]
    rfl
  rw [← suffix_keyText_iff hne hkey, htext]
  constructor
  · intro h
    by_contra hsuffix
    rw [contains_key key m.keyText hword hrest hsuffix] at h
    cases h
  · rintro ⟨front, hfront⟩
    exact contains_iff_isInfix.mpr ⟨front, m.valueText ++ tail, by rw [← hfront]; simp⟩

/-! ## On a line of its own -/

theorem not_isBlank_of_isItemChar {c : Char} (h : isItemChar c = true) : isBlank c = false := by
  rw [isItemChar, Bool.or_eq_true, List.contains_iff_mem] at h
  rcases h with h | h
  · exact not_isBlank_of_isBodyChar (isBodyChar_of_isBareChar h)
  · simp only [List.mem_cons, List.not_mem_nil, or_false] at h
    rcases h with rfl | rfl <;> decide

theorem getLast?_valueText (m : Member) : ∀ c ∈ m.valueText.getLast?, isBlank c = false := by
  cases hdefault : m.default? with
  | none =>
    intro c hc
    exact not_isBlank_of_isItemChar (isItemChar_of_mem_valueText hdefault c (List.mem_of_getLast? hc))
  | some value =>
    obtain ⟨quoting, content⟩ := m
    cases content <;> cases hdefault
    have hclose : ")\"".toList = [')'] ++ ['"'] := rfl
    show ∀ c ∈ ("() => \"(".toList ++ (value ++ ")\"".toList)).getLast?, isBlank c = false
    rw [hclose, ← List.append_assoc, ← List.append_assoc]
    exact isBlank_of_getLast?_concat (by decide)

theorem write_ne_nil {word : List Char} (q : Quoting) (hne : q = .plain → word ≠ []) :
    q.write word ≠ [] := by
  cases q with
  | plain => exact hne rfl
  | single => exact List.cons_ne_nil _ _
  | double => exact List.cons_ne_nil _ _

theorem valueText_ne_nil (m : Member) : m.valueText ≠ [] := by
  cases hdefault : m.default? with
  | none =>
    obtain ⟨q, word, hvalue, hne, -⟩ := Content.exists_valueText_eq hdefault
    rw [valueText, hvalue]
    exact write_ne_nil q hne
  | some value =>
    obtain ⟨quoting, content⟩ := m
    cases content <;> cases hdefault
    exact List.cons_ne_nil _ _

theorem trim_text (m : Member) (n : Nat) (b : Bool) :
    trim (indented n (m.text ++ comma b)) = m.text ++ comma b := by
  have hkey : m.keyText ≠ [] := write_ne_nil m.quoting fun _ => m.content.name_ne_nil
  refine trim_indented ?_ ?_
  · intro c hc
    rw [text, List.append_assoc, List.head?_append_of_ne_nil _ hkey] at hc
    exact not_isBlank_of_isItemChar (m.isItemChar_of_mem_keyText c (List.mem_of_mem_head? hc))
  · cases b with
    | false =>
      intro c hc
      rw [comma, if_neg Bool.false_ne_true, List.append_nil, text,
        List.getLast?_append_of_ne_nil _ (List.cons_ne_nil _ _), List.getLast?_cons_cons,
        List.getLast?_cons_of_ne_nil m.valueText_ne_nil] at hc
      exact m.getLast?_valueText c hc
    | true =>
      rw [comma, if_pos rfl]
      exact isBlank_of_getLast?_concat (by decide)

/-- A key that a longer word begins with is none: the word goes on without a colon. -/
theorem lastEntryLength?_append {c : Char} {word : List Char}
    (hword : ∀ d ∈ c :: word, isBodyChar d = true) (rest : List Char) :
    lastEntryLength? (c :: word ++ ("length".toList ++ ':' :: rest)) = none := by
  have hchars : ∀ d ∈ c :: word ++ "length".toList, isBodyChar d = true :=
    List.forall_mem_append.mpr ⟨hword, List.all_eq_true.mp (by decide)⟩
  rw [lastEntryLength?, ← List.append_assoc]
  cases hafter : after? "length".toList (c :: word ++ "length".toList ++ ':' :: rest) with
  | none => rfl
  | some text =>
    have hstart : "length".toList <+: c :: word ++ "length".toList ++ ':' :: rest :=
      after?_isSome_iff.mp (hafter ▸ rfl)
    -- No colon is in the key, so it ends before the colon behind the word.
    obtain ⟨more, hmore⟩ := prefix_of_prefix_append_cons (by decide) hstart
    cases more with
    | nil =>
      have hlength := congrArg List.length hmore
      simp at hlength
    | cons d more =>
      have hd : isBodyChar d = true := hchars d (hmore ▸ by simp)
      have hcolon : d ≠ ':' := by
        rintro rfl
        exact absurd hd (by decide)
      rw [← hmore, List.append_assoc] at hafter
      obtain rfl := List.append_cancel_left (after?_eq_some_iff.mp hafter)
      rw [Option.bind_eq_bind, Option.bind_some, List.cons_append,
        afterColon?_cons_of_ne (not_isBlank_of_isBodyChar hd) hcolon]
      rfl

/-- A length entry that ends its line is found behind any word. -/
theorem lineLength?_append {word : List Char} (hword : ∀ c ∈ word, isBodyChar c = true)
    (rest : List Char) :
    lineLength? (word ++ ("length".toList ++ ':' :: rest)) =
      lineLength? ("length".toList ++ ':' :: rest) := by
  induction word with
  | nil => rfl
  | cons c word ih =>
    have hnone := lastEntryLength?_append hword rest
    rw [List.cons_append] at hnone
    rw [List.cons_append, lineLength?, hnone]
    exact ih fun d hd => hword d (List.mem_cons_of_mem c hd)

theorem lengthOnLine_text (hm : m.default? = none) (hpasses : m.PassesFor "length".toList)
    (b : Bool) :
    lengthOnLine (m.text ++ comma b) =
      match word32? m.valueText with
      | some n => .ok n
      | none => .error (.malformedLength (m.text ++ comma b)) := by
  obtain ⟨hplain, front, hkey⟩ := hpasses
  have htext : m.text ++ comma b =
      front ++ ("length".toList ++ ':' :: ' ' :: (m.valueText ++ comma b)) := by
    rw [text, keyText, hplain, Quoting.write, ← hkey]
    simp
  have hfront : ∀ c ∈ front, isBodyChar c = true := fun c hc =>
    isBodyChar_of_isBareChar (m.isBareChar_of_mem_key c (hkey ▸ List.mem_append_left _ hc))
  have hends : ∀ c ∈ m.valueText, endsValue c = false := by
    obtain ⟨q, word, hvalue, -, hword⟩ := Content.exists_valueText_eq hm
    rw [valueText, hvalue]
    intro c hc
    have hany := List.any_eq_false.mp
      (any_write q fun d hd => isBodyChar_of_isBareChar (hword d hd)) c hc
    rwa [Bool.not_eq_true] at hany
  have hline : lineLength? (m.text ++ comma b) = some m.valueText := by
    rw [htext, lineLength?_append hfront]
    exact lineLength?_of_eq_some (lastEntryLength?_value m.valueText_ne_nil hends b)
  cases hword : word32? m.valueText <;> simp [lengthOnLine, hline, hword]

variable {o : Options} {e : Entries} {n : Nat} {b : Bool}

/-- A member that is no default gives a length if its key passes for that of one. -/
theorem readLine_text (hm : m.default? = none) :
    e.readLine o .string (indented n (m.text ++ comma b)) =
      if m.PassesFor "length".toList then
        (lengthOnLine (m.text ++ comma b)).map fun n => ⟨some n, e.default⟩
      else .ok e := by
  have hcomma : ∀ c ∈ comma b, isMemberChar c = true := by
    intro c hc
    rw [eq_of_mem_comma hc]
    decide
  have hchars : ∀ c ∈ m.text ++ comma b, isMemberChar c = true :=
    List.forall_mem_append.mpr ⟨isMemberChar_of_mem_text hm, hcomma⟩
  have hdefault : contains defaultFunction (m.text ++ comma b) = false :=
    contains_eq_false_of_not_mem (c := '(') (by decide) (not_mem_of_forall hchars (by decide))
  have hcolon : ':' ∉ comma b := fun h => absurd (eq_of_mem_comma h) (by decide)
  have hkey : ∀ c ∈ "length".toList, isNameRest c = true := List.all_eq_true.mp (by decide)
  have hlength : contains "length: ".toList (m.text ++ comma b) = true ↔
      m.PassesFor "length".toList := contains_text_iff (by decide) hkey hm hcolon
  rw [readLine_of_noDefault (trim_text m n b) hdefault, if_pos rfl,
    readLength_of_noObject (Or.inl (not_mem_of_forall hchars (by decide)))]
  by_cases hpasses : m.PassesFor "length".toList
  · rw [if_pos (hlength.mpr hpasses), if_pos hpasses]
    cases lengthOnLine (m.text ++ comma b) <;> rfl
  · rw [if_neg fun h => hpasses (hlength.mp h), if_neg hpasses]
    rfl

theorem text_default {value : List Char} (hdefault : m.default? = some value)
    (hplain : m.quoting = .plain) : m.text = defaultText value := by
  obtain ⟨quoting, content⟩ := m
  cases content <;> cases hdefault
  cases hplain
  rfl

/-- A default is read whatever its value, if its key has no quotes. -/
theorem readLine_default {value : List Char} (hdefault : m.default? = some value)
    (hplain : m.quoting = .plain) :
    e.readLine o .string (indented n (m.text ++ comma b)) =
      .ok ⟨e.maxLength, keptDefault o value⟩ := by
  have htrim : trim (indented n (m.text ++ comma b)) = [] ++ (defaultText value ++ comma b) := by
    rw [m.trim_text n b, text_default hdefault hplain]
    rfl
  have hhead : contains defaultKey ([] ++ "default:".toList) = false := by decide
  have hcomma : ∀ c ∈ comma b, wrapsDefault c = true := by
    intro c hc
    rw [eq_of_mem_comma hc]
    decide
  have hempty : e.readLength [] = .ok e.maxLength := by
    rw [readLength_of_noObject (Or.inl List.not_mem_nil)]
    rfl
  rw [readLine_of_defaultText htrim hhead hcomma, if_pos rfl, if_pos rfl, hempty]
  rfl

/-- What is looked for a default finds the members whose keys pass for that of one. -/
theorem contains_defaultKey_text_iff (hm : m.default? = none) :
    contains defaultKey m.text = true ↔ m.PassesFor "default".toList := by
  have hkey : ∀ c ∈ "default".toList, isNameRest c = true := List.all_eq_true.mp (by decide)
  have hcontains : contains defaultKey (m.text ++ []) = true ↔ m.PassesFor "default".toList :=
    contains_text_iff (by decide) hkey hm List.not_mem_nil
  rwa [List.append_nil] at hcontains

end Member

end CompanyRegister.Source
