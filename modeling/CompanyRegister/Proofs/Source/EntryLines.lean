import CompanyRegister.Proofs.Source.Entries

/-!
# Lines of entries

The entries of a column stand all on one line,

    @Column("varchar", { name: "Label", nullable: true, length: 60, default: () => "(x)" })

or each on a line of its own. Either way the lines are read as the length and the default that the
entries give: `readLine_object` and `readLine_object_default` for one line, `readLines_entryLines`
for lines of their own. All other lines of a column are silent (`IsSilent`): they change nothing.
-/

namespace CompanyRegister.Source

open Text

/-! ## Objects on one line -/

/-- What stands in front of the options of a column. -/
def opening (sqlType : PlainWord) : List Char :=
  '@' :: ("Column(\"".toList ++ (sqlType.chars ++ "\", ".toList))

/-- The decorator of a column with all of its options on one line, behind what stands in front of
them. -/
def object (before body : List Char) : List Char := before ++ '\x7b' :: (body ++ ['\x7d', ')'])

/-- Whether a character may stand in front of the options of a column. -/
def isOpeningChar (c : Char) : Bool := isPlain c || ['@', '(', '"', ',', ' '].contains c

theorem isOpeningChar_of_mem_opening {sqlType : PlainWord} :
    ∀ c ∈ opening sqlType, isOpeningChar c = true := by
  rw [opening, List.forall_mem_cons, List.forall_mem_append, List.forall_mem_append]
  refine ⟨by decide, List.all_eq_true.mp (by decide), fun c hc => ?_,
    List.all_eq_true.mp (by decide)⟩
  rw [isOpeningChar, sqlType.plain c hc, Bool.true_or]

theorem not_mem_opening (sqlType : PlainWord) {c : Char} (hc : isOpeningChar c = false) :
    c ∉ opening sqlType :=
  not_mem_of_forall isOpeningChar_of_mem_opening hc

theorem braceSegments_append {before : List Char} {c : Char} (hopen : '\x7b' ∉ before)
    (hclose : '\x7d' ∉ before) (hc : c = '\x7b' ∨ c = '\x7d') (rest : List Char) :
    braceSegments (before ++ c :: rest) = before :: braceSegments rest := by
  have hbefore : before.map (fun d => if d = '\x7d' then '\x7b' else d) = before :=
    (List.map_congr_left fun d hd => if_neg fun h : d = '\x7d' => hclose (h ▸ hd)).trans
      (List.map_id before)
  have hbrace : (if c = '\x7d' then '\x7b' else c) = '\x7b' := by
    rcases hc with rfl | rfl <;> rfl
  rw [braceSegments, List.map_append, List.map_cons, hbefore, hbrace,
    List.splitOn_append_cons_self_of_not_mem hopen]
  rfl

theorem beginsColumn_append {before : List Char} (h : beginsColumn before = true)
    (rest : List Char) : beginsColumn (before ++ rest) = true := by
  have hstart : ∀ mark, startsWith mark before = true → startsWith mark (before ++ rest) = true :=
    fun mark hmark => after?_isSome_iff.mpr
      ((after?_isSome_iff.mp hmark).trans (List.prefix_append before rest))
  rw [beginsColumn, Bool.or_eq_true] at h ⊢
  exact h.imp (hstart _) (hstart _)

theorem beginsColumn_opening (sqlType : PlainWord) : beginsColumn (opening sqlType) = true :=
  beginsColumn_append (by decide : beginsColumn "@Column(".toList = true) _

theorem exists_of_beginsColumn {before : List Char} (h : beginsColumn before = true) :
    ∃ tail, before = '@' :: tail := by
  rw [beginsColumn, Bool.or_eq_true] at h
  rcases h with h | h
  · obtain ⟨tail, htail⟩ := after?_isSome_iff.mp h
    exact ⟨_, htail.symm⟩
  · obtain ⟨tail, htail⟩ := after?_isSome_iff.mp h
    exact ⟨_, htail.symm⟩

/-- What stands between the braces of an object that ends its line is looked through for a
length. -/
theorem lengthInOptions_braced {before body : List Char}
    (hbefore : '\x7b' ∉ before ∧ '\x7d' ∉ before) (hbody : '\x7b' ∉ body ∧ '\x7d' ∉ body) :
    lengthInOptions (before ++ '\x7b' :: (body ++ ['\x7d', ')'])) =
      match lengthValue? body with
      | none => .ok none
      | some v =>
        match word32? v with
        | some n => .ok (some n)
        | none => .error (.malformedLength (before ++ '\x7b' :: (body ++ ['\x7d', ')']))) := by
  have hsegments : braceSegments (before ++ '\x7b' :: (body ++ ['\x7d', ')'])) =
      [before, body, [')']] := by
    rw [braceSegments_append hbefore.1 hbefore.2 (Or.inl rfl),
      braceSegments_append hbody.1 hbody.2 (Or.inr rfl)]
    rfl
  rw [lengthInOptions, hsegments]
  rfl

/-- The length in an object that ends its line is read from what stands between its braces. -/
theorem readLength_braced (e : Entries) {before body : List Char}
    (hbegins : beginsColumn before = true) (hbefore : '\x7b' ∉ before ∧ '\x7d' ∉ before)
    (hbody : '\x7b' ∉ body ∧ '\x7d' ∉ body) :
    e.readLength (before ++ '\x7b' :: (body ++ ['\x7d', ')'])) =
      match lengthValue? body with
      | none => .ok none
      | some v =>
        match word32? v with
        | some n => .ok (some n)
        | none => .error (.malformedLength (before ++ '\x7b' :: (body ++ ['\x7d', ')']))) := by
  have hbraces : '\x7b' ∈ before ++ '\x7b' :: (body ++ ['\x7d', ')']) ∧
      '\x7d' ∈ before ++ '\x7b' :: (body ++ ['\x7d', ')']) := by simp
  rw [Entries.readLength, if_pos ⟨beginsColumn_append hbegins _, hbraces⟩,
    lengthInOptions_braced hbefore hbody]

/-- The length in an object is the one that its entries give. -/
theorem readLength_object (e : Entries) (sqlType : PlainWord) {body : List Char}
    {n : Option (Fin 4294967296)} (hopen : '\x7b' ∉ body) (hclose : '\x7d' ∉ body)
    (hvalue : lengthValue? body = n.map fun n => digits n.val) :
    e.readLength (object (opening sqlType) body) = .ok (n.map Fin.val) := by
  rw [object, readLength_braced e (beginsColumn_opening sqlType)
    ⟨not_mem_opening sqlType (by decide), not_mem_opening sqlType (by decide)⟩ ⟨hopen, hclose⟩,
    hvalue]
  cases n with
  | none => rfl
  | some n => simp [word32?_digits n.isLt]

/-! ## Lines -/

/-- A line that says nothing about a length or a default. -/
structure IsSilent (line : List Char) : Prop where
  noDefault : contains defaultFunction line = false
  noObject : '\x7b' ∉ line ∨ '\x7d' ∉ line
  noLength : contains "length: ".toList line = false

variable {o : Options} {type : ColumnType} {e : Entries} {raw line : List Char} {n : Nat}

theorem readLength_of_noObject (hobject : '\x7b' ∉ line ∨ '\x7d' ∉ line) :
    e.readLength line =
      if contains "length: ".toList line then (lengthOnLine line).map some
      else .ok e.maxLength :=
  if_neg fun h => hobject.elim (fun hopen => hopen h.2.1) fun hclose => hclose h.2.2

theorem readLine_of_noDefault (htrim : trim raw = line)
    (hdefault : contains defaultFunction line = false) :
    e.readLine o type raw =
      if type = .string then (e.readLength line).map fun n => ⟨n, e.default⟩ else .ok e := by
  rw [Entries.readLine, htrim, hdefault]
  rfl

/-- A default of any value as it is kept: not if it is a function of the database. -/
def keptDefault (o : Options) (value : List Char) : Option (List Char) :=
  if o.ignores (strip wrapsDefault value) then none else some (strip wrapsDefault value)

theorem readLine_of_defaultText {head tail value : List Char}
    (htrim : trim raw = head ++ (defaultText value ++ tail))
    (hhead : contains defaultKey (head ++ "default:".toList) = false)
    (htail : ∀ c ∈ tail, wrapsDefault c = true) :
    e.readLine o type raw =
      if type = .string then
        (e.readLength (if head = [] then [] else head ++ ['\x7d', ')'])).map
          fun n => ⟨n, keptDefault o value⟩
      else .ok ⟨e.maxLength, keptDefault o value⟩ := by
  have hfunction : contains defaultFunction (head ++ (defaultText value ++ tail)) = true := by
    refine contains_iff_isInfix.mpr ⟨head, ") => \"(".toList ++ (value ++ ")\"".toList) ++ tail, ?_⟩
    rw [List.append_assoc]
    rfl
  rw [Entries.readLine, htrim, hfunction, if_pos rfl, splitDefault_defaultText value hhead htail]
  rfl

theorem readLine_of_default {head tail : List Char} {value : DefaultValue}
    (htrim : trim raw = head ++ ((Entry.default value).text ++ tail))
    (hhead : contains defaultKey (head ++ "default:".toList) = false)
    (htail : ∀ c ∈ tail, wrapsDefault c = true) :
    e.readLine o type raw =
      if type = .string then
        (e.readLength (if head = [] then [] else head ++ ['\x7d', ')'])).map
          fun n => ⟨n, value.kept o⟩
      else .ok ⟨e.maxLength, value.kept o⟩ := by
  have hkept : keptDefault o value.chars = value.kept o := by
    rw [keptDefault, strip_value, DefaultValue.kept]
  rw [← hkept]
  exact readLine_of_defaultText htrim hhead htail

theorem readLine_of_isSilent (htrim : trim raw = line) (h : IsSilent line) :
    e.readLine o type raw = .ok e := by
  rw [readLine_of_noDefault htrim h.noDefault, readLength_of_noObject h.noObject, h.noLength,
    if_neg Bool.false_ne_true]
  exact ite_self (Except.ok e)

theorem readLines_append_eq (e : Entries) (ls ls' : List (List Char)) :
    Entries.readLines o type e (ls ++ ls') =
      match Entries.readLines o type e ls with
      | .ok e' => Entries.readLines o type e' ls'
      | .error f => .error f := by
  induction ls generalizing e with
  | nil => rfl
  | cons l ls ih =>
    rw [List.cons_append, Entries.readLines, Entries.readLines]
    cases e.readLine o type l with
    | ok e' => exact ih e'
    | error f => rfl

theorem readLines_append (ls ls' : List (List Char)) {e' : Entries}
    (h : Entries.readLines o type e ls = .ok e') :
    Entries.readLines o type e (ls ++ ls') = Entries.readLines o type e' ls' := by
  rw [readLines_append_eq, h]

/-- Lines are read only if each of them is. -/
theorem exists_of_readLines {ls : List (List Char)} {e' : Entries}
    (h : Entries.readLines o type e ls = .ok e') {l : List Char} (hl : l ∈ ls) :
    ∃ e₁ e₂, Entries.readLine o type e₁ l = .ok e₂ := by
  induction ls generalizing e with
  | nil => cases hl
  | cons x ls ih =>
    rw [Entries.readLines] at h
    split at h
    · next e'' hx =>
      rcases List.mem_cons.mp hl with rfl | hl
      · exact ⟨e, e'', hx⟩
      · exact ih h hl
    · cases h

/-! ### One line for all entries -/

variable {es : List Entry}

theorem trim_object {before : List Char} (hbefore : beginsColumn before = true) (body : List Char) :
    trim (indented n (object before body)) = object before body := by
  refine trim_indented ?_ ?_
  · obtain ⟨tail, rfl⟩ := exists_of_beginsColumn hbefore
    exact isBlank_of_head?_cons (by decide)
  · have hconcat : object before body = before ++ '\x7b' :: (body ++ ['\x7d']) ++ [')'] := by
      simp [object]
    rw [hconcat]
    exact isBlank_of_getLast?_concat (by decide)

/-- Without a default no parenthesis opens within the braces. -/
theorem contains_defaultFunction_braced {before body : List Char} (hbefore : ':' ∉ before)
    (hbody : '(' ∉ body) :
    contains defaultFunction (before ++ '\x7b' :: (body ++ ['\x7d', ')'])) = false := by
  have hfront : contains defaultFunction before = false :=
    contains_eq_false_of_not_mem (c := ':') (by decide) hbefore
  have hback : contains defaultFunction (body ++ ['\x7d', ')']) = false :=
    contains_eq_false_of_not_mem (c := '(') (by decide) (by simp [hbody])
  rw [contains_append_cons (by decide), hfront, hback]
  rfl

/-- An object with the given entries on one line is read as their length and default. -/
theorem readLine_object (sqlType : PlainWord) (hes : ∀ w ∈ es, w.isDefault = false) :
    e.readLine o type (indented n (object (opening sqlType) (' ' :: (joinedText es ++ [' '])))) =
      .ok ⟨if type = .string then (es.findSome? Entry.length?).map Fin.val else e.maxLength,
        e.default⟩ := by
  have hbody : ∀ c ∈ ' ' :: (joinedText es ++ [' ']), isEntryChar c = true := by
    rw [List.forall_mem_cons, List.forall_mem_append, List.forall_mem_singleton]
    exact ⟨by decide, forall_mem_joinedText (by decide) (by decide)
      fun w hw => isEntryChar_of_mem_text (hes w hw), by decide⟩
  have hdefault : contains defaultFunction
      (object (opening sqlType) (' ' :: (joinedText es ++ [' ']))) = false :=
    contains_defaultFunction_braced (not_mem_opening sqlType (by decide))
      (not_mem_of_forall hbody (by decide))
  have hlength : e.readLength (object (opening sqlType) (' ' :: (joinedText es ++ [' ']))) =
      .ok ((es.findSome? Entry.length?).map Fin.val) :=
    readLength_object e sqlType (not_mem_of_forall hbody (by decide))
      (not_mem_of_forall hbody (by decide)) (lengthValue?_joinedText hes)
  rw [readLine_of_noDefault (trim_object (beginsColumn_opening sqlType) _) hdefault, hlength]
  split <;> rfl

/-- A key of a default stands in front of a place only if it stands in one of the texts there. -/
theorem contains_defaultKey_flatMap {before rest : List Char} (hbefore : ':' ∉ before)
    (hrest : ' ' ∉ rest) (ts : List (List Char)) :
    contains defaultKey (before ++ '\x7b' :: ' ' :: (ts.flatMap (· ++ [',', ' ']) ++ rest)) =
      ts.any (contains defaultKey) := by
  have hkey : defaultKey = 'd' :: "efault: ".toList := rfl
  have hfront : contains defaultKey before = false :=
    contains_eq_false_of_not_mem (c := ':') (by decide) hbefore
  have hback : contains defaultKey rest = false :=
    contains_eq_false_of_not_mem (c := ' ') (by decide) hrest
  rw [contains_append_cons (by decide), hfront, Bool.false_or, hkey,
    contains_cons_of_ne (by decide), contains_flatMap_append (by decide) (by decide), ← hkey, hback,
    Bool.or_false]

/-- No key of a default stands in front of the one of the default itself. -/
theorem contains_defaultKey_endedText (sqlType : PlainWord) (hes : ∀ w ∈ es, w.isDefault = false) :
    contains defaultKey
      (opening sqlType ++ '\x7b' :: ' ' :: (endedText es ++ "default:".toList)) = false := by
  rw [endedText, contains_defaultKey_flatMap (not_mem_opening sqlType (by decide)) (by decide),
    List.any_map, List.any_eq_false]
  intro w hw
  simp [contains_defaultKey_text (hes w hw)]

theorem readLine_object_default (sqlType : PlainWord) (hes : ∀ w ∈ es, w.isDefault = false)
    (value : DefaultValue) :
    e.readLine o type (indented n
        (object (opening sqlType) (' ' :: (joinedText (es ++ [Entry.default value]) ++ [' '])))) =
      .ok ⟨if type = .string then (es.findSome? Entry.length?).map Fin.val else e.maxLength,
        value.kept o⟩ := by
  have hline : object (opening sqlType)
      (' ' :: (joinedText (es ++ [Entry.default value]) ++ [' '])) =
      (opening sqlType ++ '\x7b' :: ' ' :: endedText es) ++
        ((Entry.default value).text ++ [' ', '\x7d', ')']) := by
    rw [joinedText_concat, object]
    simp
  have hhead := contains_defaultKey_endedText sqlType hes
  have hclosed : (if opening sqlType ++ '\x7b' :: ' ' :: endedText es = [] then [] else
      (opening sqlType ++ '\x7b' :: ' ' :: endedText es) ++ ['\x7d', ')']) =
      object (opening sqlType) (' ' :: endedText es) := by
    rw [if_neg (by simp), object]
    simp
  have hlength : e.readLength (object (opening sqlType) (' ' :: endedText es)) =
      .ok ((es.findSome? Entry.length?).map Fin.val) := by
    have hbody : ∀ c ∈ ' ' :: endedText es, isEntryChar c = true := by
      rw [List.forall_mem_cons]
      exact ⟨by decide, forall_mem_endedText (by decide) (by decide)
        fun w hw => isEntryChar_of_mem_text (hes w hw)⟩
    exact readLength_object e sqlType (not_mem_of_forall hbody (by decide))
      (not_mem_of_forall hbody (by decide)) (lengthValue?_endedText hes)
  have htrim := (trim_object (n := n) (beginsColumn_opening sqlType) _).trans hline
  have hclose : ∀ c ∈ [' ', '\x7d', ')'], wrapsDefault c = true := List.all_eq_true.mp (by decide)
  rw [readLine_of_default htrim (by simpa using hhead) hclose, hclosed, hlength]
  split <;> rfl

/-! ### A line for each entry -/

/-- What an entry on a line of its own adds to the entries read before. -/
def Entry.addTo (o : Options) (type : ColumnType) (e : Entries) : Entry → Entries
  | length n => if type = .string then { e with maxLength := some n.val } else e
  | default value => { e with default := value.kept o }
  | _ => e

/-- A comma, if there is to be one. -/
def comma (b : Bool) : List Char := if b then [','] else []

/-- Entries on lines of their own, a comma behind each but the last, where it is optional. -/
def entryLines (n : Nat) (lastComma : Bool) : List Entry → List (List Char)
  | [] => []
  | [w] => [indented n (w.text ++ comma lastComma)]
  | w :: ws => indented n (w.text ++ comma true) :: entryLines n lastComma ws

/-- Texts on lines of their own, a comma behind each but the last, where it is optional. -/
def textLines (n : Nat) (lastComma : Bool) : List (List Char) → List (List Char)
  | [] => []
  | [t] => [indented n (t ++ comma lastComma)]
  | t :: ts => indented n (t ++ comma true) :: textLines n lastComma ts

theorem textLines_cons_cons (n : Nat) (lastComma : Bool) (t u : List Char)
    (ts : List (List Char)) :
    textLines n lastComma (t :: u :: ts) =
      indented n (t ++ comma true) :: textLines n lastComma (u :: ts) := rfl

theorem entryLines_eq (n : Nat) (lastComma : Bool) (es : List Entry) :
    entryLines n lastComma es = textLines n lastComma (es.map Entry.text) := by
  induction es with
  | nil => rfl
  | cons w es ih =>
    cases es with
    | nil => rfl
    | cons x es =>
      rw [entryLines, ih]
      · rfl
      · exact fun h => List.cons_ne_nil x es h

theorem exists_of_mem_textLines {lastComma : Bool} {ts : List (List Char)} {l : List Char}
    (h : l ∈ textLines n lastComma ts) : ∃ t ∈ ts, ∃ b, l = indented n (t ++ comma b) := by
  induction ts with
  | nil => cases h
  | cons t ts ih =>
    cases ts with
    | nil => exact ⟨t, List.mem_cons_self, lastComma, List.mem_singleton.mp h⟩
    | cons u ts =>
      rcases List.mem_cons.mp h with rfl | h
      · exact ⟨t, List.mem_cons_self, true, rfl⟩
      · obtain ⟨v, hv, b, rfl⟩ := ih h
        exact ⟨v, List.mem_cons_of_mem t hv, b, rfl⟩

theorem exists_mem_textLines (n : Nat) (lastComma : Bool) {ts : List (List Char)} {t : List Char}
    (h : t ∈ ts) : ∃ b, indented n (t ++ comma b) ∈ textLines n lastComma ts := by
  induction ts with
  | nil => cases h
  | cons u ts ih =>
    cases ts with
    | nil =>
      obtain rfl := List.mem_singleton.mp h
      exact ⟨lastComma, List.mem_cons_self⟩
    | cons v ts =>
      rcases List.mem_cons.mp h with rfl | h
      · exact ⟨true, List.mem_cons_self⟩
      · obtain ⟨b, hb⟩ := ih h
        exact ⟨b, List.mem_cons_of_mem _ hb⟩

/-- Lines are read in turn, whatever each of them adds. -/
theorem readLines_textLines {α : Type} {text : α → List Char} {add : Entries → α → Entries}
    {xs : List α} (lastComma : Bool)
    (h : ∀ x ∈ xs, ∀ e b, Entries.readLine o type e (indented n (text x ++ comma b)) =
      .ok (add e x)) (e : Entries) :
    Entries.readLines o type e (textLines n lastComma (xs.map text)) = .ok (xs.foldl add e) := by
  induction xs generalizing e with
  | nil => rfl
  | cons x xs ih =>
    have hrest := ih fun y hy => h y (List.mem_cons_of_mem x hy)
    have hx := h x List.mem_cons_self
    cases xs with
    | nil =>
      rw [List.map_singleton, textLines, Entries.readLines, hx]
      rfl
    | cons y xs =>
      rw [List.map_cons, List.map_cons, textLines_cons_cons, Entries.readLines, hx]
      exact hrest _

theorem exists_of_mem_entryLines {lastComma : Bool} {l : List Char}
    (h : l ∈ entryLines n lastComma es) :
    ∃ w ∈ es, ∃ b, l = indented n (w.text ++ comma b) := by
  rw [entryLines_eq] at h
  obtain ⟨t, ht, b, rfl⟩ := exists_of_mem_textLines h
  obtain ⟨w, hw, rfl⟩ := List.mem_map.mp ht
  exact ⟨w, hw, b, rfl⟩

theorem eq_of_mem_comma {b : Bool} {c : Char} (h : c ∈ comma b) : c = ',' := by
  cases b with
  | false => cases h
  | true => exact List.mem_singleton.mp h

theorem getLast?_text (w : Entry) : ∀ c ∈ w.text.getLast?, isBlank c = false := by
  cases w with
  | name column =>
    rw [Entry.text_name, ← List.append_assoc]
    exact isBlank_of_getLast?_concat (by decide)
  | nullable =>
    rintro c ⟨⟩
    decide
  | length n =>
    intro c hc
    rw [Entry.text_length, List.getLast?_append_of_ne_nil _ (digits_ne_nil n)] at hc
    exact not_isBlank_of_isPlain (isPlain_of_mem_digits (List.mem_of_getLast? hc))
  | default value =>
    have hclose : ")\"".toList = [')'] ++ ['"'] := rfl
    rw [Entry.text_default, hclose, ← List.append_assoc, ← List.append_assoc]
    exact isBlank_of_getLast?_concat (by decide)

theorem trim_entry (w : Entry) (b : Bool) :
    trim (indented n (w.text ++ comma b)) = w.text ++ comma b := by
  refine trim_indented ?_ ?_
  · cases w <;> (intro c hc; cases hc; decide)
  · cases b with
    | false =>
      rw [comma, if_neg Bool.false_ne_true, List.append_nil]
      exact getLast?_text w
    | true =>
      rw [comma, if_pos rfl]
      exact isBlank_of_getLast?_concat (by decide)

theorem lastEntryLength?_value {v : List Char} (hne : v ≠ [])
    (hv : ∀ c ∈ v, endsValue c = false) (b : Bool) :
    lastEntryLength? ("length".toList ++ ':' :: ' ' :: (v ++ comma b)) = some v := by
  have hafter : after? "length".toList ("length".toList ++ ':' :: ' ' :: (v ++ comma b)) =
      some (':' :: ' ' :: (v ++ comma b)) := after?_eq_some_iff.mpr rfl
  have hhead : ∀ c ∈ (v ++ comma b).head?, isBlank c = false := by
    intro c hc
    rw [List.head?_append_of_ne_nil _ hne] at hc
    have hends := hv c (List.mem_of_mem_head? hc)
    rw [endsValue, Bool.or_eq_false_iff] at hends
    exact hends.2
  have hcomma : ∀ c ∈ (comma b).head?, endsValue c = true := by
    intro c hc
    rw [eq_of_mem_comma (List.mem_of_mem_head? hc)]
    decide
  rw [lastEntryLength?, hafter, Option.bind_eq_bind, Option.bind_some, afterColon?_colon hhead,
    Option.bind_some, entryValue?_append hne hv hcomma]
  cases b <;> rfl

theorem lineLength?_of_eq_some {text v : List Char} (h : lastEntryLength? text = some v) :
    lineLength? text = some v := by
  cases text with
  | nil => cases h
  | cons c text => rw [lineLength?, h]

theorem lengthOnLine_length (n : Fin 4294967296) (b : Bool) :
    lengthOnLine ((Entry.length n).text ++ comma b) = .ok n.val := by
  have hvalue : lineLength? ((Entry.length n).text ++ comma b) = some (digits n.val) := by
    rw [Entry.text_length, List.append_assoc]
    exact lineLength?_of_eq_some (lastEntryLength?_value (digits_ne_nil n.val)
      (fun c hc => endsValue_of_isPlain (isPlain_of_mem_digits hc)) b)
  rw [lengthOnLine, hvalue, Option.bind_some, word32?_digits n.isLt]

theorem not_mem_entry {w : Entry} (hw : w.isDefault = false) (b : Bool) {c : Char}
    (hc : isEntryChar c = false) : c ∉ w.text ++ comma b := by
  have hchars : ∀ d ∈ w.text ++ comma b, isEntryChar d = true := by
    rw [List.forall_mem_append]
    refine ⟨isEntryChar_of_mem_text hw, fun d hd => ?_⟩
    rw [eq_of_mem_comma hd]
    decide
  exact not_mem_of_forall hchars hc

theorem contains_defaultFunction_entry {w : Entry} (hw : w.isDefault = false) (b : Bool) :
    contains defaultFunction (w.text ++ comma b) = false :=
  contains_eq_false_of_not_mem (c := '(') (by decide)
    (not_mem_entry hw b (by decide))

theorem isSilent_name (column : PlainWord) (b : Bool) :
    IsSilent ((Entry.name column).text ++ comma b) where
  noDefault := contains_defaultFunction_entry rfl b
  noObject := Or.inl (not_mem_entry rfl b (by decide))
  noLength := by
    have hrest : ':' ∉ ' ' :: '"' :: (column.chars ++ ['"']) ++ comma b := by
      rw [List.mem_append]
      rintro (h | h)
      · exact colon_not_mem_name column h
      · exact absurd (eq_of_mem_comma h) (by decide)
    exact contains_key "length".toList "name".toList (by decide) hrest (by decide)

theorem isSilent_nullable (b : Bool) : IsSilent (Entry.nullable.text ++ comma b) where
  noDefault := contains_defaultFunction_entry rfl b
  noObject := Or.inl (not_mem_entry rfl b (by decide))
  noLength := by
    cases b <;> decide

theorem readLine_entry (w : Entry) (b : Bool) :
    e.readLine o type (indented n (w.text ++ comma b)) = .ok (w.addTo o type e) := by
  have htrim := trim_entry (n := n) w b
  cases w with
  | name column => exact readLine_of_isSilent htrim (isSilent_name column b)
  | nullable => exact readLine_of_isSilent htrim (isSilent_nullable b)
  | length m =>
    have hdefault := contains_defaultFunction_entry (w := .length m) rfl b
    have hcontains : contains "length: ".toList ((Entry.length m).text ++ comma b) = true :=
      contains_iff_isInfix.mpr ⟨[], _, rfl⟩
    have hobject : '\x7b' ∉ (Entry.length m).text ++ comma b :=
      not_mem_entry rfl b (by decide)
    rw [readLine_of_noDefault htrim hdefault, readLength_of_noObject (Or.inl hobject), hcontains,
      if_pos rfl, lengthOnLine_length, Entry.addTo]
    split <;> rfl
  | default value =>
    have hhead : contains defaultKey ([] ++ "default:".toList) = false := by decide
    have hcomma : ∀ c ∈ comma b, wrapsDefault c = true := by
      intro c hc
      rw [eq_of_mem_comma hc]
      decide
    have hempty : e.readLength [] = .ok e.maxLength := by
      rw [readLength_of_noObject (Or.inl List.not_mem_nil)]
      rfl
    rw [readLine_of_default htrim hhead hcomma, if_pos rfl, hempty, Entry.addTo]
    split <;> rfl

theorem readLines_entryLines (es : List Entry) (n : Nat) (lastComma : Bool) (e : Entries) :
    Entries.readLines o type e (entryLines n lastComma es) =
      .ok (es.foldl (Entry.addTo o type) e) := by
  rw [entryLines_eq]
  exact readLines_textLines lastComma (fun w _ _ b => readLine_entry w b) e

/-! ### The lines around them -/

theorem isSilent_opening (sqlType : PlainWord) : IsSilent (opening sqlType ++ ['\x7b']) := by
  have hcolon : ':' ∉ opening sqlType ++ ['\x7b'] := by
    simp [not_mem_opening sqlType (show isOpeningChar ':' = false by decide)]
  have hclose : '\x7d' ∉ opening sqlType ++ ['\x7b'] := by
    simp [not_mem_opening sqlType (show isOpeningChar '\x7d' = false by decide)]
  exact ⟨contains_eq_false_of_not_mem (c := ':') (by decide) hcolon, Or.inr hclose,
    contains_eq_false_of_not_mem (c := ':') (by decide) hcolon⟩

theorem readLine_opening (sqlType : PlainWord) (type : ColumnType) (n : Nat) (e : Entries) :
    e.readLine o type (indented n (opening sqlType ++ ['\x7b'])) = .ok e := by
  exact readLine_of_isSilent (trim_indented (isBlank_of_head?_cons (by decide))
    (isBlank_of_getLast?_concat (by decide))) (isSilent_opening sqlType)

theorem trim_closing (n : Nat) : trim (indented n ['\x7d', ')']) = ['\x7d', ')'] := by
  have hlast : ∀ c ∈ (['\x7d'] ++ [')']).getLast?, isBlank c = false :=
    isBlank_of_getLast?_concat (by decide)
  exact trim_indented (isBlank_of_head?_cons (by decide)) hlast

theorem readLine_closing (type : ColumnType) (n : Nat) (e : Entries) :
    e.readLine o type (indented n ['\x7d', ')']) = .ok e :=
  readLine_of_isSilent (trim_closing n) ⟨by decide, by decide, by decide⟩

end CompanyRegister.Source
