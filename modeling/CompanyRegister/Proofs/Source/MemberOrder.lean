import Mathlib.Data.List.Nodup
import CompanyRegister.Proofs.Source.Generated
import CompanyRegister.Proofs.Source.Members

/-!
# Members in any order

An options object means the same whatever the order of its members and whether they share a line or
have a line each (`lengthOf`, `defaultOf`). It is read as what it means where its writing suits the
readers (`Layout.Suits`):

* on one line the default, if there is one, has to come last, since it takes all of the line that
  follows its key along, and no key in front of it may end the way its own does;
* on lines of their own the key of a length may not stand in quotes, and no other key may end the
  way it does.

So two writings of the same members that both suit the readers are read alike (`read_eq_of_perm`).
-/

namespace CompanyRegister.Source

open Text

/-! ## What an object means -/

/-- The length that an object gives. -/
def lengthOf (ms : List Member) : Option Nat := ms.findSome? Member.length?

/-- The value of the default that an object gives. -/
def valueOf (ms : List Member) : Option (List Char) := ms.findSome? Member.default?

/-- The default that an object gives, if it is one of a value and not of a function of the
database. -/
def defaultOf (o : Options) (ms : List Member) : Option (List Char) :=
  ((valueOf ms).bind (keptDefault o)).filter (· ≠ [])

/-- No key occurs twice. -/
def DistinctKeys (ms : List Member) : Prop := (ms.map Member.key).Nodup

section

variable {α β : Type} {f : α → Option β} {xs ys : List α}

/-- What may be found in a list only once is found wherever it stands. -/
theorem findSome?_eq_some_iff_of_unique
    (huniq : ∀ x ∈ xs, ∀ y ∈ xs, ∀ b c, f x = some b → f y = some c → b = c) {b : β} :
    xs.findSome? f = some b ↔ ∃ x ∈ xs, f x = some b := by
  constructor
  · exact List.exists_of_findSome?_eq_some
  · rintro ⟨x, hx, hb⟩
    cases hfind : xs.findSome? f with
    | none =>
      rw [List.findSome?_eq_none_iff.mp hfind x hx] at hb
      cases hb
    | some c =>
      obtain ⟨y, hy, hc⟩ := List.exists_of_findSome?_eq_some hfind
      rw [huniq y hy x hx c b hc hb]

theorem findSome?_eq_of_perm
    (huniq : ∀ x ∈ xs, ∀ y ∈ xs, ∀ b c, f x = some b → f y = some c → b = c)
    (hperm : xs.Perm ys) : xs.findSome? f = ys.findSome? f := by
  have huniq' : ∀ x ∈ ys, ∀ y ∈ ys, ∀ b c, f x = some b → f y = some c → b = c :=
    fun x hx y hy => huniq x (hperm.mem_iff.mpr hx) y (hperm.mem_iff.mpr hy)
  refine Option.ext fun b => ?_
  rw [findSome?_eq_some_iff_of_unique huniq, findSome?_eq_some_iff_of_unique huniq']
  simp only [hperm.mem_iff]

/-- Then it is the last as well as the first. -/
theorem getLast?_filterMap_of_unique
    (huniq : ∀ x ∈ xs, ∀ y ∈ xs, ∀ b c, f x = some b → f y = some c → b = c) :
    (xs.filterMap f).getLast? = xs.findSome? f := by
  refine Option.ext fun b => ?_
  rw [findSome?_eq_some_iff_of_unique huniq]
  constructor
  · intro hlast
    exact List.mem_filterMap.mp (List.mem_of_getLast? hlast)
  · rintro ⟨x, hx, hb⟩
    have hmem : b ∈ xs.filterMap f := List.mem_filterMap.mpr ⟨x, hx, hb⟩
    rw [List.getLast?_eq_some_getLast (List.ne_nil_of_mem hmem)]
    obtain ⟨y, hy, hc⟩ := List.mem_filterMap.mp (List.getLast_mem (List.ne_nil_of_mem hmem))
    rw [huniq y hy x hx _ b hc hb]

theorem getLast?_filterMap_cons (x : α) (xs : List α) :
    ((x :: xs).filterMap f).getLast? = (xs.filterMap f).getLast?.or (f x) := by
  cases hx : f x with
  | none => rw [List.filterMap_cons_none hx, Option.or_none]
  | some b =>
    rw [List.filterMap_cons_some hx, List.getLast?_cons]
    cases (xs.filterMap f).getLast? <;> rfl

end

variable {ms ms' : List Member} {o : Options}

theorem DistinctKeys.perm (h : DistinctKeys ms) (hperm : ms.Perm ms') : DistinctKeys ms' :=
  (hperm.map Member.key).nodup_iff.mp h

/-- Members with one key are one member, so there is at most one length. -/
theorem DistinctKeys.length_unique (h : DistinctKeys ms) :
    ∀ x ∈ ms, ∀ y ∈ ms, ∀ b c, x.length? = some b → y.length? = some c → b = c := by
  intro x hx y hy b c hb hc
  have hkeys : x.key = y.key :=
    (Content.name_eq_length_iff.mpr ⟨b, hb⟩).trans (Content.name_eq_length_iff.mpr ⟨c, hc⟩).symm
  obtain rfl := List.inj_on_of_nodup_map h hx hy hkeys
  exact Option.some.inj (hb.symm.trans hc)

theorem DistinctKeys.eq_of_default (h : DistinctKeys ms) {x y : Member} (hx : x ∈ ms) (hy : y ∈ ms)
    (hxdefault : x.default? ≠ none) (hydefault : y.default? ≠ none) : x = y :=
  List.inj_on_of_nodup_map h hx hy
    ((Member.key_eq_default hxdefault).trans (Member.key_eq_default hydefault).symm)

theorem DistinctKeys.default_unique (h : DistinctKeys ms) :
    ∀ x ∈ ms, ∀ y ∈ ms, ∀ b c, x.default? = some b → y.default? = some c → b = c := by
  intro x hx y hy b c hb hc
  obtain rfl := h.eq_of_default hx hy (by simp [hb]) (by simp [hc])
  exact Option.some.inj (hb.symm.trans hc)

theorem DistinctKeys.valueOf_eq (h : DistinctKeys ms) {m : Member} (hm : m ∈ ms) {v : List Char}
    (hv : m.default? = some v) : valueOf ms = some v :=
  (findSome?_eq_some_iff_of_unique h.default_unique).mpr ⟨m, hm, hv⟩

theorem lengthOf_eq_of_perm (h : DistinctKeys ms) (hperm : ms.Perm ms') :
    lengthOf ms = lengthOf ms' := findSome?_eq_of_perm h.length_unique hperm

theorem valueOf_eq_of_perm (h : DistinctKeys ms) (hperm : ms.Perm ms') :
    valueOf ms = valueOf ms' := findSome?_eq_of_perm h.default_unique hperm

/-! ## Writings that suit the readers -/

/-- The length that a member on a line of its own is read to give: by the end of its key. -/
def Member.shownLength? (m : Member) : Option Nat :=
  if m.PassesFor "length".toList then word32? m.valueText else none

/-- Members on one line that are read as what they mean. -/
structure SuitsOneLine (ms : List Member) : Prop where
  length_lt : ∀ n, lengthOf ms = some n → n < 4294967296
  /-- The default comes last, without quotes, and no key in front of it passes for its own. -/
  default_last : ∀ m ∈ ms, m.default? ≠ none →
    ∃ front, ms = front ++ [m] ∧ m.quoting = .plain ∧ ∀ x ∈ front, ¬ x.PassesFor "default".toList

/-- Members on lines of their own that are read as what they mean. -/
structure SuitsLines (ms : List Member) : Prop where
  default_plain : ∀ m ∈ ms, m.default? ≠ none → m.quoting = .plain
  /-- What passes for a length can be read as one. -/
  length_number : ∀ m ∈ ms, m.PassesFor "length".toList → (word32? m.valueText).isSome = true
  /-- The last that passes for a length says what the length is. -/
  length_last : (ms.filterMap Member.shownLength?).getLast? = lengthOf ms

theorem shownLength?_eq (hkeys : DistinctKeys ms)
    (hplain : ∀ m ∈ ms, m.length? ≠ none → m.quoting = .plain)
    (hlt : ∀ n, lengthOf ms = some n → n < 4294967296)
    (hother : ∀ m ∈ ms, m.PassesFor "length".toList → m.length? ≠ none) :
    ∀ m ∈ ms, m.shownLength? = m.length? := by
  intro m hm
  cases hlength : m.length? with
  | none => rw [Member.shownLength?, if_neg fun h => hother m hm h hlength]
  | some n =>
    have hpasses : m.PassesFor "length".toList :=
      Member.passesFor_of_key_eq (hplain m hm (by simp [hlength]))
        (Content.name_eq_length_iff.mpr ⟨n, hlength⟩)
    have hn : lengthOf ms = some n :=
      (findSome?_eq_some_iff_of_unique hkeys.length_unique).mpr ⟨m, hm, hlength⟩
    have hvalue : m.valueText = digits n := by
      obtain ⟨quoting, content⟩ := m
      cases content <;> cases hlength
      rfl
    rw [Member.shownLength?, if_pos hpasses, hvalue, word32?_digits (hlt n hn)]

/-- In the ordinary case the length and the default have no quotes, and no other key ends like that
of a length. -/
theorem suitsLines_of_plain (hkeys : DistinctKeys ms)
    (hplain : ∀ m ∈ ms, m.length? ≠ none ∨ m.default? ≠ none → m.quoting = .plain)
    (hlt : ∀ n, lengthOf ms = some n → n < 4294967296)
    (hother : ∀ m ∈ ms, m.PassesFor "length".toList → m.length? ≠ none) : SuitsLines ms := by
  have hshown := shownLength?_eq hkeys (fun m hm h => hplain m hm (Or.inl h)) hlt hother
  refine ⟨fun m hm h => hplain m hm (Or.inr h), fun m hm hpasses => ?_, ?_⟩
  · have hsome := hshown m hm
    rw [Member.shownLength?, if_pos hpasses] at hsome
    rw [hsome]
    exact Option.isSome_iff_ne_none.mpr (hother m hm hpasses)
  · rw [List.filterMap_congr hshown]
    exact getLast?_filterMap_of_unique hkeys.length_unique

/-- Whether members in a layout are read as what they mean. -/
def Layout.Suits (ms : List Member) : Layout → Prop
  | .oneLine => SuitsOneLine ms
  | .entryPerLine _ _ => SuitsLines ms

/-! ## Columns of strings -/

/-- A column of strings but for its options: what stands in front of them, and its field line. -/
structure StringColumn where
  indent : Nat
  opening : List Char
  field : List Char
  property : List Char
  optional : Bool
  begins : beginsColumn opening = true
  plain : ∀ c ∈ opening, c ∉ [':', '\x7b', '\x7d', '\n']
  declares : Declaration.parse field = .ok ⟨property, .string, optional⟩
  oneLine : '\n' ∉ field

/-- Members on one line, a comma between each two. -/
def sharedBody (ms : List Member) : List Char :=
  ' ' :: ([',', ' '].intercalate (ms.map Member.text) ++ [' '])

/-- Members on one line, a comma behind each: what is left in front of a default. -/
def frontBody (ms : List Member) : List Char :=
  ' ' :: (ms.map Member.text).flatMap (· ++ [',', ' '])

namespace StringColumn

/-- The decorator with its options. -/
def decoratorLines (c : StringColumn) (ms : List Member) : Layout → List (List Char)
  | .oneLine => [indented c.indent (object c.opening (sharedBody ms))]
  | .entryPerLine step lastComma =>
    indented c.indent (c.opening ++ ['\x7b']) ::
      (textLines (c.indent + step) lastComma (ms.map Member.text) ++
        [indented c.indent ['\x7d', ')']])

/-- The block of a column with the given options. -/
def text (c : StringColumn) (layout : Layout) (ms : List Member) : List Char :=
  unlines (c.decoratorLines ms layout ++ [c.field])

/-- The length and the default that are read. -/
def read (o : Options) (c : StringColumn) (layout : Layout) (ms : List Member) :
    Except Fault (Option Nat × Option (List Char)) :=
  (ColumnBlock.parse o (c.text layout ms)).map fun b => (b.maxLength, b.default)

variable (c : StringColumn)

theorem not_mem_opening {d : Char} (hd : d ∈ [':', '\x7b', '\x7d', '\n']) : d ∉ c.opening :=
  fun h => c.plain d h hd

/-! ## Members on one line -/

theorem laterLength?_members (hms : ∀ m ∈ ms, m.default? = none) :
    ∀ m ∈ ms, ∀ rest, EndsEntry rest →
      laterLength? (' ' :: (m.text ++ rest)) = (m.length?.map digits).or (laterLength? rest) :=
  fun m hm _ hrest => m.laterLength?_text (hms m hm) hrest

theorem isMemberChar_of_mem_texts (hms : ∀ m ∈ ms, m.default? = none) :
    ∀ t ∈ ms.map Member.text, ∀ d ∈ t, Member.isMemberChar d = true :=
  List.forall_mem_map.mpr fun m hm => Member.isMemberChar_of_mem_text (hms m hm)

theorem isMemberChar_of_mem_sharedBody (hms : ∀ m ∈ ms, m.default? = none) :
    ∀ d ∈ sharedBody ms, Member.isMemberChar d = true := by
  rw [sharedBody, List.forall_mem_cons, List.forall_mem_append, List.forall_mem_singleton]
  exact ⟨by decide, forall_mem_joined (by decide) (by decide) (isMemberChar_of_mem_texts hms),
    by decide⟩

theorem isMemberChar_of_mem_frontBody (hms : ∀ m ∈ ms, m.default? = none) :
    ∀ d ∈ frontBody ms, Member.isMemberChar d = true := by
  rw [frontBody, List.forall_mem_cons]
  exact ⟨by decide, forall_mem_ended (by decide) (by decide) (isMemberChar_of_mem_texts hms)⟩

theorem lengthValue?_sharedBody (hms : ∀ m ∈ ms, m.default? = none) :
    lengthValue? (sharedBody ms) = (lengthOf ms).map digits := by
  rw [lengthOf, List.map_findSome?]
  exact lengthValue?_joined (laterLength?_members hms)

theorem lengthValue?_frontBody (hms : ∀ m ∈ ms, m.default? = none) :
    lengthValue? (frontBody ms) = (lengthOf ms).map digits := by
  rw [lengthOf, List.map_findSome?]
  exact lengthValue?_ended (laterLength?_members hms)

/-- The length is read from an object without a default exactly if it is not too large. -/
theorem readLength_object_iff (e : Entries) {body : List Char}
    (hbody : ∀ d ∈ body, Member.isMemberChar d = true)
    (hvalue : lengthValue? body = (lengthOf ms).map digits) :
    e.readLength (object c.opening body) = .ok (lengthOf ms) ↔
      ∀ n, lengthOf ms = some n → n < 4294967296 := by
  rw [object, readLength_braced e c.begins
    ⟨c.not_mem_opening (by decide), c.not_mem_opening (by decide)⟩
    ⟨not_mem_of_forall hbody (by decide), not_mem_of_forall hbody (by decide)⟩, hvalue]
  cases lengthOf ms with
  | none => simp
  | some n => by_cases hn : n < 4294967296 <;> simp [word32?_digits_eq, hn]

theorem readLine_object (e : Entries) (hms : ∀ m ∈ ms, m.default? = none) :
    e.readLine o .string (indented c.indent (object c.opening (sharedBody ms))) =
      (e.readLength (object c.opening (sharedBody ms))).map fun n => ⟨n, e.default⟩ := by
  have hdefault : contains defaultFunction (object c.opening (sharedBody ms)) = false :=
    contains_defaultFunction_braced (c.not_mem_opening (by decide))
      (not_mem_of_forall (isMemberChar_of_mem_sharedBody hms) (by decide))
  rw [readLine_of_noDefault (trim_object c.begins _) hdefault, if_pos rfl]

/-- In front of a default nothing is cut off, if no key passes for its own. -/
theorem contains_defaultKey_front {front : List Member} {word : List Char}
    (hfront : ∀ x ∈ front, x.default? = none)
    (hpasses : ∀ x ∈ front, ¬ x.PassesFor "default".toList) (hword : ' ' ∉ word) :
    contains defaultKey (c.opening ++ '\x7b' :: (frontBody front ++ word)) = false := by
  rw [frontBody, List.cons_append,
    contains_defaultKey_flatMap (c.not_mem_opening (by decide)) hword, List.any_map,
    List.any_eq_false]
  intro x hx hcontains
  exact hpasses x hx ((Member.contains_defaultKey_text_iff (hfront x hx)).mp hcontains)

/-- A default at the end of the line is cut off, and what is left is an object again. -/
theorem readLine_object_default (e : Entries) {front : List Member} {m : Member}
    {value : List Char} (hfront : ∀ x ∈ front, x.default? = none)
    (hdefault : m.default? = some value) (hplain : m.quoting = .plain)
    (hpasses : ∀ x ∈ front, ¬ x.PassesFor "default".toList) :
    e.readLine o .string (indented c.indent (object c.opening (sharedBody (front ++ [m])))) =
      (e.readLength (object c.opening (frontBody front))).map
        fun n => ⟨n, keptDefault o value⟩ := by
  have hline : object c.opening (sharedBody (front ++ [m])) =
      (c.opening ++ '\x7b' :: frontBody front) ++ (defaultText value ++ [' ', '\x7d', ')']) := by
    rw [object, sharedBody, frontBody, List.map_append, List.map_singleton, intercalate_concat,
      Member.text_default hdefault hplain]
    simp
  have hhead : contains defaultKey
      ((c.opening ++ '\x7b' :: frontBody front) ++ "default:".toList) = false := by
    rw [List.append_assoc]
    exact c.contains_defaultKey_front hfront hpasses (by decide)
  have hclose : ∀ d ∈ [' ', '\x7d', ')'], wrapsDefault d = true := List.all_eq_true.mp (by decide)
  -- The braces that the cut takes away are put back.
  have hclosed : (if c.opening ++ '\x7b' :: frontBody front = [] then [] else
      (c.opening ++ '\x7b' :: frontBody front) ++ ['\x7d', ')']) =
      object c.opening (frontBody front) := by
    rw [if_neg (by simp), object]
    simp
  rw [readLine_of_defaultText ((trim_object c.begins _).trans hline) hhead hclose, if_pos rfl,
    hclosed]

/-- A default has no length, so the members in front of it give that of all. -/
theorem lengthOf_concat {front : List Member} {m : Member} (hm : m.default? ≠ none) :
    lengthOf (front ++ [m]) = lengthOf front := by
  have hnone : m.length? = none := by
    obtain ⟨quoting, content⟩ := m
    cases content with
    | default value oneLine => rfl
    | _ => exact absurd rfl hm
  rw [lengthOf, List.findSome?_append, List.findSome?_singleton, hnone, Option.or_none]
  rfl

/-- The decorator is read as its only line is. -/
theorem readLines_oneLine {e : Entries} :
    Entries.readLines o .string e (c.decoratorLines ms .oneLine) =
      e.readLine o .string (indented c.indent (object c.opening (sharedBody ms))) := by
  rw [decoratorLines, Entries.readLines]
  cases e.readLine o .string (indented c.indent (object c.opening (sharedBody ms))) <;> rfl

theorem readLine_oneLine (hsuits : SuitsOneLine ms) :
    Entries.readLine o .string {} (indented c.indent (object c.opening (sharedBody ms))) =
      .ok ⟨lengthOf ms, (valueOf ms).bind (keptDefault o)⟩ := by
  cases hvalue : valueOf ms with
  | none =>
    rw [valueOf, List.findSome?_eq_none_iff] at hvalue
    rw [c.readLine_object {} hvalue, (c.readLength_object_iff {}
      (isMemberChar_of_mem_sharedBody hvalue) (lengthValue?_sharedBody hvalue)).mpr
      hsuits.length_lt]
    rfl
  | some value =>
    obtain ⟨m, hm, hdefault⟩ := List.exists_of_findSome?_eq_some hvalue
    have hsome : m.default? ≠ none := by simp [hdefault]
    obtain ⟨front, rfl, hplain, hpasses⟩ := hsuits.default_last m hm hsome
    -- A second default would stand in front, and its key would pass for its own.
    have hfront : ∀ x ∈ front, x.default? = none := by
      intro x hx
      by_contra hne
      obtain ⟨-, -, hxplain, -⟩ := hsuits.default_last x (List.mem_append_left [m] hx) hne
      exact hpasses x hx (Member.passesFor_of_key_eq hxplain (Member.key_eq_default hne))
    have hlt := hsuits.length_lt
    rw [lengthOf_concat hsome] at hlt ⊢
    rw [c.readLine_object_default {} hfront hdefault hplain hpasses, (c.readLength_object_iff {}
      (isMemberChar_of_mem_frontBody hfront) (lengthValue?_frontBody hfront)).mpr hlt]
    rfl

end StringColumn

/-! ## Members on lines of their own -/

namespace Member

/-- What a member on a line of its own adds to what has been read before. -/
def addTo (o : Options) (e : Entries) (m : Member) : Entries :=
  ⟨m.shownLength?.or e.maxLength, (m.default?.map (keptDefault o)).getD e.default⟩

/-- The key of a default does not pass for that of a length. -/
theorem default?_eq_none_of_passesFor {m : Member} (h : m.PassesFor "length".toList) :
    m.default? = none := by
  by_contra hne
  have hsuffix := h.2
  rw [key_eq_default hne] at hsuffix
  exact absurd hsuffix (by decide)

theorem readLine_own {m : Member} (hplain : m.default? ≠ none → m.quoting = .plain)
    (hnumber : m.PassesFor "length".toList → (word32? m.valueText).isSome = true) (n : Nat)
    (e : Entries) (b : Bool) :
    e.readLine o .string (indented n (m.text ++ comma b)) = .ok (m.addTo o e) := by
  cases hdefault : m.default? with
  | some value =>
    have hpasses : ¬ m.PassesFor "length".toList := by
      intro h
      rw [default?_eq_none_of_passesFor h] at hdefault
      cases hdefault
    rw [readLine_default hdefault (hplain (by simp [hdefault])), addTo, shownLength?,
      if_neg hpasses, hdefault]
    rfl
  | none =>
    rw [readLine_text hdefault, addTo, shownLength?, hdefault]
    by_cases hpasses : m.PassesFor "length".toList
    · obtain ⟨k, hk⟩ := Option.isSome_iff_exists.mp (hnumber hpasses)
      rw [if_pos hpasses, if_pos hpasses, lengthOnLine_text hdefault hpasses, hk]
      rfl
    · rw [if_neg hpasses, if_neg hpasses]
      rfl

theorem foldl_addTo (e : Entries) :
    ms.foldl (addTo o) e =
      ⟨((ms.filterMap shownLength?).getLast?).or e.maxLength,
        ((ms.filterMap default?).getLast?.map (keptDefault o)).getD e.default⟩ := by
  induction ms generalizing e with
  | nil => rfl
  | cons m ms ih =>
    rw [List.foldl_cons, ih, addTo, getLast?_filterMap_cons, getLast?_filterMap_cons,
      Option.or_assoc]
    cases (ms.filterMap default?).getLast? <;> rfl

end Member

namespace StringColumn

variable (c : StringColumn)

theorem isSilent_opening : IsSilent (c.opening ++ ['\x7b']) := by
  have hcolon : ':' ∉ c.opening ++ ['\x7b'] := by
    simp [c.not_mem_opening (show ':' ∈ [':', '\x7b', '\x7d', '\n'] by decide)]
  have hclose : '\x7d' ∉ c.opening ++ ['\x7b'] := by
    simp [c.not_mem_opening (show '\x7d' ∈ [':', '\x7b', '\x7d', '\n'] by decide)]
  exact ⟨contains_eq_false_of_not_mem (c := ':') (by decide) hcolon, Or.inr hclose,
    contains_eq_false_of_not_mem (c := ':') (by decide) hcolon⟩

theorem trim_opening :
    trim (indented c.indent (c.opening ++ ['\x7b'])) = c.opening ++ ['\x7b'] := by
  refine trim_indented ?_ (isBlank_of_getLast?_concat (by decide))
  obtain ⟨tail, htail⟩ := exists_of_beginsColumn c.begins
  rw [htail]
  exact isBlank_of_head?_cons (by decide)

theorem readLine_opening (e : Entries) :
    e.readLine o .string (indented c.indent (c.opening ++ ['\x7b'])) = .ok e :=
  readLine_of_isSilent c.trim_opening c.isSilent_opening

/-- Line by line the last length that is shown counts, whether or not it is the one that is
meant. -/
theorem readLines_lines {step : Nat} {lastComma : Bool} (hkeys : DistinctKeys ms)
    (hplain : ∀ m ∈ ms, m.default? ≠ none → m.quoting = .plain)
    (hnumber : ∀ m ∈ ms, m.PassesFor "length".toList → (word32? m.valueText).isSome = true) :
    Entries.readLines o .string {} (c.decoratorLines ms (.entryPerLine step lastComma)) =
      .ok ⟨(ms.filterMap Member.shownLength?).getLast?, (valueOf ms).bind (keptDefault o)⟩ := by
  have hlines : ∀ m ∈ ms, ∀ (e : Entries) b, e.readLine o .string
      (indented (c.indent + step) (m.text ++ comma b)) = .ok (m.addTo o e) :=
    fun m hm e b => Member.readLine_own (hplain m hm) (hnumber m hm) _ e b
  have hvalue : (ms.filterMap Member.default?).getLast? = valueOf ms :=
    getLast?_filterMap_of_unique hkeys.default_unique
  rw [decoratorLines, Entries.readLines, readLine_opening]
  show Entries.readLines o .string {} (textLines (c.indent + step) lastComma (ms.map Member.text) ++
    [indented c.indent ['\x7d', ')']]) = _
  rw [readLines_append _ _ (readLines_textLines lastComma hlines {}), Member.foldl_addTo, hvalue,
    Entries.readLines, readLine_closing, Option.or_none]
  cases valueOf ms <;> rfl

/-- Where the writing suits, the decorator is read as what its options mean. -/
theorem readLines_decoratorLines {layout : Layout} (hkeys : DistinctKeys ms)
    (hsuits : layout.Suits ms) :
    Entries.readLines o .string {} (c.decoratorLines ms layout) =
      .ok ⟨lengthOf ms, (valueOf ms).bind (keptDefault o)⟩ := by
  cases layout with
  | oneLine => exact c.readLines_oneLine.trans (c.readLine_oneLine hsuits)
  | entryPerLine step lastComma =>
    rw [c.readLines_lines hkeys hsuits.default_plain hsuits.length_number, hsuits.length_last]

/-! ## The block -/

theorem not_mem_text (m : Member) : '\n' ∉ m.text := by
  have hkey : '\n' ∉ m.keyText := not_mem_of_forall m.isItemChar_of_mem_keyText (by decide)
  have hvalue : '\n' ∉ m.valueText := by
    cases hdefault : m.default? with
    | none => exact not_mem_of_forall (Member.isItemChar_of_mem_valueText hdefault) (by decide)
    | some value =>
      obtain ⟨quoting, content⟩ := m
      cases content <;> cases hdefault
      next oneLine =>
      show '\n' ∉ "() => \"(".toList ++ (value ++ ")\"".toList)
      rw [List.mem_append, List.mem_append]
      rintro (h | h | h)
      · exact absurd h (by decide)
      · exact oneLine h
      · exact absurd h (by decide)
  simp [Member.text, hkey, hvalue]

theorem not_mem_decoratorLines (layout : Layout) :
    ∀ l ∈ c.decoratorLines ms layout, '\n' ∉ l := by
  have hopening : '\n' ∉ c.opening := c.not_mem_opening (by decide)
  cases layout with
  | oneLine =>
    have hbody : '\n' ∉ sharedBody ms := by
      have hjoined : ∀ d ∈ [',', ' '].intercalate (ms.map Member.text), (d != '\n') = true :=
        forall_mem_joined (by decide) (by decide) (List.forall_mem_map.mpr fun m _ d hd => by
          rw [bne_iff_ne]
          rintro rfl
          exact not_mem_text m hd)
      simp [sharedBody, not_mem_of_forall hjoined (c := '\n') (by decide)]
    rw [decoratorLines, List.forall_mem_singleton]
    exact not_mem_indented (by decide) (by simp [object, hopening, hbody])
  | entryPerLine step lastComma =>
    rw [decoratorLines, List.forall_mem_cons, List.forall_mem_append, List.forall_mem_singleton]
    refine ⟨not_mem_indented (by decide) (by simp [hopening]), fun l hl => ?_,
      not_mem_indented (by decide) (by decide)⟩
    obtain ⟨t, ht, b, rfl⟩ := exists_of_mem_textLines hl
    obtain ⟨m, -, rfl⟩ := List.mem_map.mp ht
    have hcomma : '\n' ∉ comma b := fun h => absurd (eq_of_mem_comma h) (by decide)
    exact not_mem_indented (by decide) (by simp [not_mem_text m, hcomma])

theorem isAllBlank_of_head? (layout : Layout) :
    ∀ l ∈ (c.decoratorLines ms layout ++ [c.field]).head?, isAllBlank l = false := by
  obtain ⟨tail, htail⟩ := exists_of_beginsColumn c.begins
  have hfirst : ∃ text rest,
      c.decoratorLines ms layout = indented c.indent ('@' :: text) :: rest := by
    cases layout with
    | oneLine =>
      refine ⟨tail ++ '\x7b' :: (sharedBody ms ++ ['\x7d', ')']), [], ?_⟩
      rw [decoratorLines, object, htail, List.cons_append]
    | entryPerLine step lastComma =>
      refine ⟨tail ++ ['\x7b'], textLines (c.indent + step) lastComma (ms.map Member.text) ++
        [indented c.indent ['\x7d', ')']], ?_⟩
      rw [decoratorLines, htail, List.cons_append]
  obtain ⟨text, rest, hlines⟩ := hfirst
  rw [hlines]
  rintro l ⟨⟩
  rw [isAllBlank, List.all_eq_false]
  exact ⟨'@', by simp [indented], by decide⟩

theorem isShort_field : isShort c.field = false := by
  obtain ⟨s, hs⟩ := exists_spelling_of_declaration c.declares
  have hfirst : s.first ∈ c.field := by simp [← hs, Spelling.text, Spelling.name]
  have hcolon : ':' ∈ c.field := by simp [← hs, Spelling.text]
  have hne : s.first ≠ ':' := by
    intro h
    exact absurd (h ▸ s.first_start) (by decide)
  exact isShort_eq_false hfirst hcolon hne (isBlank_of_isNameStart s.first_start) (by decide)

/-- What is read is what the decorator comes to, with the field line read after it. -/
theorem read_eq (layout : Layout) (ms : List Member) :
    c.read o layout ms =
      (Entries.readLines o .string {} (c.decoratorLines ms layout ++ [c.field])).map
        fun e => (e.maxLength, e.default.filter (· ≠ [])) := by
  have hlines : ∀ l ∈ c.decoratorLines ms layout ++ [c.field], '\n' ∉ l :=
    List.forall_mem_append.mpr
      ⟨c.not_mem_decoratorLines layout, List.forall_mem_singleton.mpr c.oneLine⟩
  rw [read, text, ColumnBlock.parse_unlines hlines (c.isAllBlank_of_head? layout) c.isShort_field
    c.declares]
  cases Entries.readLines o .string {} (c.decoratorLines ms layout ++ [c.field]) <;> rfl

theorem read_of_suits {layout : Layout} (hkeys : DistinctKeys ms) (hsuits : layout.Suits ms) :
    c.read o layout ms =
      (Entries.readLine o .string ⟨lengthOf ms, (valueOf ms).bind (keptDefault o)⟩ c.field).map
        fun e => (e.maxLength, e.default.filter (· ≠ [])) := by
  rw [read_eq, readLines_append _ _ (c.readLines_decoratorLines hkeys hsuits), Entries.readLines]
  cases Entries.readLine o .string ⟨lengthOf ms, (valueOf ms).bind (keptDefault o)⟩ c.field <;> rfl

/-- If the field line says nothing about a length or a default, what is read is what is meant. -/
theorem read_eq_ok {layout : Layout} (hkeys : DistinctKeys ms) (hsuits : layout.Suits ms)
    (hfield : IsSilent (trim c.field)) :
    c.read o layout ms = .ok (lengthOf ms, defaultOf o ms) := by
  rw [c.read_of_suits hkeys hsuits, readLine_of_isSilent rfl hfield]
  rfl

/-- Two writings of the same members that suit the readers are read alike. -/
theorem read_eq_of_perm {layout layout' : Layout} (hkeys : DistinctKeys ms) (hperm : ms.Perm ms')
    (hsuits : layout.Suits ms) (hsuits' : layout'.Suits ms') :
    c.read o layout ms = c.read o layout' ms' := by
  rw [c.read_of_suits hkeys hsuits, c.read_of_suits (hkeys.perm hperm) hsuits',
    lengthOf_eq_of_perm hkeys hperm, valueOf_eq_of_perm hkeys hperm]

/-- A label of at most 60 characters with a default. -/
def labelColumn : StringColumn where
  indent := 2
  opening := "@Column(\"varchar\", ".toList
  field := "  label: string;".toList
  property := "label".toList
  optional := false
  begins := by decide
  plain := by simp
  declares := by decide +kernel
  oneLine := by decide

def labelLength : Member := ⟨.plain, .length 60⟩

def labelDefault : Member := ⟨.plain, .default "0".toList (by decide)⟩

theorem distinctKeys_label : DistinctKeys [labelLength, labelDefault] := by
  unfold DistinctKeys
  decide

theorem suitsOneLine_label : SuitsOneLine [labelLength, labelDefault] where
  length_lt := by
    rintro n ⟨⟩
    decide
  default_last := by
    intro m hm hdefault
    simp only [List.mem_cons, List.not_mem_nil, or_false] at hm
    rcases hm with rfl | rfl
    · exact absurd rfl hdefault
    · exact ⟨[labelLength], rfl, rfl, by decide⟩

theorem suitsLines_label : SuitsLines [labelDefault, labelLength] := by
  refine suitsLines_of_plain (distinctKeys_label.perm (List.Perm.swap _ _ _)) ?_ ?_ (by decide)
  · intro m hm _
    simp only [List.mem_cons, List.not_mem_nil, or_false] at hm
    rcases hm with rfl | rfl <;> rfl
  · rintro n ⟨⟩
    decide

/-- In front of the length on one line, the default takes it along. -/
theorem label_default_first_misread :
    labelColumn.text .oneLine [labelDefault, labelLength] =
        ("  @Column(\"varchar\", \x7b default: () => \"(0)\", length: 60 \x7d)\n" ++
          "  label: string;").toList ∧
      labelColumn.read .standard .oneLine [labelDefault, labelLength] =
        .ok (none, some "0)\", length: 60".toList) ∧
      labelColumn.read .standard .oneLine [labelLength, labelDefault] =
        .ok (some 60, some "0".toList) := by
  decide +kernel

end StringColumn

end CompanyRegister.Source
