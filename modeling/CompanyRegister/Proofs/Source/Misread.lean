import CompanyRegister.Proofs.Source.MemberOrder

/-!
# Writings that are misread

Writings of an options object that do not suit its readers are misread or refused, so those that
suit are all that are read as what they mean (`read_iff_suits`).

A default that is cut off its line at the wrong place takes more along than its value, and stripping
does not make up for that: it leaves as many characters as there were, those it strips not counted
(`countP_strip`).
-/

namespace CompanyRegister.Source

open Text

/-! ## Stripped values -/

section

variable {p : Char → Bool}

theorem countP_dropWhile (text : List Char) :
    (text.dropWhile p).countP (fun c => !p c) = text.countP fun c => !p c := by
  have hzero : (text.takeWhile p).countP (fun c => !p c) = 0 := by
    rw [List.countP_eq_zero]
    intro c hc
    simp [List.all_eq_true.mp List.all_takeWhile c hc]
  have hsplit := congrArg (List.countP fun c => !p c)
    (List.takeWhile_append_dropWhile (p := p) (l := text))
  rwa [List.countP_append, hzero, Nat.zero_add] at hsplit

/-- Stripping leaves the characters that are not stripped. -/
theorem countP_strip (text : List Char) :
    (strip p text).countP (fun c => !p c) = text.countP fun c => !p c := by
  rw [strip, dropEndWhile, List.countP_reverse, countP_dropWhile, List.countP_reverse,
    countP_dropWhile]

/-- So a text with one more character is stripped to another value. -/
theorem strip_ne_of_sublist {value more text : List Char} {c : Char} (hc : p c = false)
    (hmem : c ∈ more) (hsub : (more ++ value).Sublist text ∨ (value ++ more).Sublist text) :
    strip p text ≠ strip p value := by
  intro h
  have hcount := congrArg (List.countP fun c => !p c) h
  have hmore : 0 < more.countP fun c => !p c := List.countP_pos_iff.mpr ⟨c, hmem, by simp [hc]⟩
  rw [countP_strip, countP_strip] at hcount
  have hle : (more.countP fun c => !p c) + (value.countP fun c => !p c) ≤
      text.countP fun c => !p c := by
    rcases hsub with hsub | hsub
    · rw [← List.countP_append]
      exact hsub.countP_le
    · rw [Nat.add_comm, ← List.countP_append]
      exact hsub.countP_le
  omega

end

/-! ## Defaults that are overlooked -/

variable {ms ms' : List Member} {o : Options} {m : Member} {e e' : Entries}

/-- Whether a default can be found on its line: if its key has no quotes, or its value holds another
one. -/
def Member.Overlooked (m : Member) : Prop :=
  ∀ v, m.default? = some v → m.quoting ≠ .plain ∧ contains defaultFunction v = false

theorem Member.contains_defaultFunction_text (hm : m.Overlooked) {tail : List Char}
    (htail : '(' ∉ tail) : contains defaultFunction (m.text ++ tail) = false := by
  cases hdefault : m.default? with
  | none =>
    have htext : '(' ∉ m.text :=
      not_mem_of_forall (isMemberChar_of_mem_text hdefault) (by decide)
    exact contains_eq_false_of_not_mem (c := '(') (by decide) (by simp [htext, htail])
  | some value =>
    obtain ⟨hquoted, hvalue⟩ := hm value hdefault
    obtain ⟨before, hbefore, htext⟩ : ∃ before, contains defaultFunction before = false ∧
        m.text = before ++ ')' :: (" => ".toList ++ '"' :: '(' :: (value ++ ')' :: ['"'])) := by
      obtain ⟨quoting, content⟩ := m
      cases content <;> cases hdefault
      cases quoting with
      | plain => exact absurd rfl hquoted
      | single => exact ⟨"'default': (".toList, by decide, rfl⟩
      | double => exact ⟨"\"default\": (".toList, by decide, rfl⟩
    have harrow : contains defaultFunction " => ".toList = false := by decide
    have hclose : contains defaultFunction ('"' :: tail) = false :=
      contains_eq_false_of_not_mem (c := '(') (by decide) (by simp [htail])
    have hfunction : defaultFunction = 'd' :: "efault: (".toList := rfl
    have hjoin : m.text ++ tail = before ++
        ')' :: (" => ".toList ++ '"' :: '(' :: (value ++ ')' :: '"' :: tail)) := by
      rw [htext, List.append_assoc, List.cons_append, List.append_assoc, List.cons_append,
        List.cons_append, List.append_assoc]
      rfl
    rw [hjoin, contains_append_cons (by decide), hbefore, contains_append_cons (by decide), harrow,
      hfunction, contains_cons_of_ne (by decide), ← hfunction, contains_append_cons (by decide),
      hvalue, hclose]
    rfl

/-- Lines without a default leave the one that has been read. -/
theorem default_readLines_of_noDefault {type : ColumnType} {ls : List (List Char)}
    (hdefault : ∀ l ∈ ls, contains defaultFunction (trim l) = false)
    (h : Entries.readLines o type e ls = .ok e') : e'.default = e.default := by
  induction ls generalizing e with
  | nil =>
    cases h
    rfl
  | cons l ls ih =>
    rw [Entries.readLines] at h
    split at h
    · next e'' hl =>
      have hline := Entries.default_readLine hl
      rw [hdefault l List.mem_cons_self] at hline
      exact (ih (fun x hx => hdefault x (List.mem_cons_of_mem l hx)) h).trans hline
    · cases h

namespace StringColumn

variable (c : StringColumn)

theorem contains_defaultFunction_object (hms : ∀ m ∈ ms, m.Overlooked) :
    contains defaultFunction (object c.opening (sharedBody ms)) = false := by
  have hopening : contains defaultFunction c.opening = false :=
    contains_eq_false_of_not_mem (c := ':') (by decide) (c.not_mem_opening (by decide))
  have hfunction : defaultFunction = 'd' :: "efault: (".toList := rfl
  rw [object, contains_append_cons (by decide), hopening, Bool.false_or, sharedBody,
    List.cons_append, hfunction, contains_cons_of_ne (by decide)]
  obtain rfl | ⟨init, last, rfl⟩ := List.eq_nil_or_concat' ms
  · decide
  · have hinit : (init.map Member.text).any (contains defaultFunction) = false := by
      rw [List.any_map, List.any_eq_false]
      intro m hm
      have hnone := Member.contains_defaultFunction_text (hms m (List.mem_append_left [last] hm))
        (List.not_mem_nil (a := '('))
      rw [List.append_nil] at hnone
      simp [hnone]
    have hlast : contains defaultFunction (last.text ++ [' ', '\x7d', ')']) = false :=
      Member.contains_defaultFunction_text
        (hms last (List.mem_append_right init (List.mem_singleton_self last))) (by decide)
    rw [List.map_append, List.map_singleton, intercalate_concat, List.append_assoc,
      List.append_assoc, contains_flatMap_append (by decide) (by decide), ← hfunction, hinit]
    exact hlast

theorem contains_defaultFunction_lines (hms : ∀ m ∈ ms, m.Overlooked) (layout : Layout) :
    ∀ l ∈ c.decoratorLines ms layout, contains defaultFunction (trim l) = false := by
  cases layout with
  | oneLine =>
    rw [decoratorLines, List.forall_mem_singleton, trim_object c.begins]
    exact c.contains_defaultFunction_object hms
  | entryPerLine step lastComma =>
    rw [decoratorLines, List.forall_mem_cons, List.forall_mem_append, List.forall_mem_singleton]
    refine ⟨?_, fun l hl => ?_, ?_⟩
    · rw [trim_opening]
      exact c.isSilent_opening.noDefault
    · obtain ⟨t, ht, b, rfl⟩ := exists_of_mem_textLines hl
      obtain ⟨m, hm, rfl⟩ := List.mem_map.mp ht
      rw [m.trim_text]
      exact Member.contains_defaultFunction_text (hms m hm)
        fun h => absurd (eq_of_mem_comma h) (by decide)
    · rw [trim_closing]
      decide

end StringColumn

/-! ## Defaults that take too much along -/

/-- Of the members whose keys pass for one, one is the first. -/
theorem Member.exists_first_passing {name : List Char} (hm : m ∈ ms) (hpasses : m.PassesFor name) :
    ∃ front x back, ms = front ++ x :: back ∧ x.PassesFor name ∧
      ∀ y ∈ front, ¬ y.PassesFor name := by
  obtain ⟨x, hfind⟩ : ∃ x, ms.find? (fun y => decide (y.PassesFor name)) = some x :=
    Option.isSome_iff_exists.mp (List.find?_isSome.mpr ⟨m, hm, decide_eq_true hpasses⟩)
  obtain ⟨hx, front, back, hsplit, hfront⟩ := List.find?_eq_some_iff_append.mp hfind
  simp only [decide_eq_true_eq, Bool.not_eq_true', decide_eq_false_iff_not] at hx hfront
  exact ⟨front, x, back, hsplit, hx, hfront⟩

/-- What follows a member on its line. -/
def behindBody (ms : List Member) : List Char :=
  (ms.map Member.text).flatMap ([',', ' '] ++ ·) ++ [' ', '\x7d', ')']

namespace StringColumn

variable (c : StringColumn)

/-- The first member whose key passes for that of a default is cut off with all that follows it. -/
theorem splitDefault_object {front back : List Member} {m : Member}
    (hfront : ∀ x ∈ front, x.default? = none)
    (hpasses : ∀ x ∈ front, ¬ x.PassesFor "default".toList) (hm : m.PassesFor "default".toList) :
    (splitDefault (object c.opening (sharedBody (front ++ m :: back)))).2 =
      strip wrapsDefault (m.valueText ++ behindBody back) := by
  obtain ⟨hplain, start, hkey⟩ := hm
  have htext : m.text = start ++ (defaultKey ++ m.valueText) := by
    have hmark : defaultKey = "default".toList ++ [':', ' '] := rfl
    rw [Member.text, Member.keyText, hplain, Quoting.write, ← hkey, hmark]
    simp
  have hline : object c.opening (sharedBody (front ++ m :: back)) =
      (c.opening ++ '\x7b' :: (frontBody front ++ start)) ++
        (defaultKey ++ (m.valueText ++ behindBody back)) := by
    rw [object, sharedBody, frontBody, behindBody, List.map_append, List.map_cons,
      intercalate_append_cons, htext]
    simp
  have hblank : ' ' ∉ start ++ "default:".toList := by
    intro h
    rcases List.mem_append.mp h with h | h
    · have hname := m.isNameRest_of_mem_key ' ' (hkey ▸ List.mem_append_left _ h)
      exact absurd hname (by decide)
    · exact absurd h (by decide)
  have hhead : contains defaultKey
      ((c.opening ++ '\x7b' :: (frontBody front ++ start)) ++ "default:".toList) = false := by
    rw [List.append_assoc, List.cons_append, List.append_assoc]
    exact c.contains_defaultKey_front hfront hpasses hblank
  rw [hline, splitDefault, cut?_append _ (contains_eq_false_iff.mp hhead)]

end StringColumn

/-- A key is not stripped. -/
theorem Member.exists_mem_keyText (m : Member) : ∃ c ∈ m.keyText, wrapsDefault c = false := by
  obtain ⟨c, hc⟩ := List.exists_mem_of_ne_nil m.key m.content.name_ne_nil
  have hname : isNameRest c = true := m.content.isNameRest_of_mem_name c hc
  have hmem : c ∈ m.keyText := by
    rw [keyText]
    cases m.quoting <;> simp [Quoting.write, hc]
  refine ⟨c, hmem, ?_⟩
  rw [Bool.eq_false_iff]
  intro hwraps
  simp only [wrapsDefault, Bool.or_eq_true, beq_iff_eq] at hwraps
  rcases hwraps with ((((((((rfl | rfl) | rfl) | rfl) | rfl) | rfl) | rfl) | rfl) | rfl) | rfl <;>
    exact absurd hname (by decide)

theorem Member.sublist_valueText {m : Member} {value : List Char}
    (hdefault : m.default? = some value) : value.Sublist m.valueText := by
  obtain ⟨quoting, content⟩ := m
  cases content <;> cases hdefault
  have hinfix : value <:+: "() => \"(".toList ++ (value ++ ")\"".toList) :=
    ⟨_, _, List.append_assoc _ _ _⟩
  exact hinfix.sublist

theorem sublist_behindBody {m : Member} (hm : m ∈ ms) : m.text.Sublist (behindBody ms) := by
  obtain ⟨front, back, rfl⟩ := List.append_of_mem hm
  have hinfix : m.text <:+: behindBody (front ++ m :: back) := by
    refine ⟨(front.map Member.text).flatMap ([',', ' '] ++ ·) ++ [',', ' '], behindBody back, ?_⟩
    simp [behindBody]
  exact hinfix.sublist

/-- If more than a default has been cut off with it, more than its value is left. -/
theorem strip_ne_of_mem {back : List Member} {m x : Member} {value : List Char}
    (hdefault : m.default? = some value) (hm : m ∈ x :: back) (hmore : x ≠ m ∨ back ≠ []) :
    strip wrapsDefault (x.valueText ++ behindBody back) ≠ strip wrapsDefault value := by
  have hvalue := Member.sublist_valueText hdefault
  by_cases hx : x = m
  · -- The default itself is cut off, with some member behind it.
    subst hx
    obtain ⟨y, ys, rfl⟩ := List.exists_cons_of_ne_nil (hmore.resolve_left fun h => h rfl)
    obtain ⟨c, hc, hwraps⟩ := y.exists_mem_keyText
    exact strip_ne_of_sublist hwraps (List.mem_append_left _ hc)
      (Or.inr (hvalue.append (sublist_behindBody List.mem_cons_self)))
  · -- Another member is cut off, with the default behind it.
    have hback : m ∈ back := (List.mem_cons.mp hm).resolve_left fun h => hx h.symm
    obtain ⟨c, hc, hwraps⟩ := m.exists_mem_keyText
    have htext : (m.keyText ++ value).Sublist m.text :=
      (List.Sublist.refl m.keyText).append ((hvalue.cons ' ').cons ':')
    exact strip_ne_of_sublist hwraps hc
      (Or.inl ((htext.trans (sublist_behindBody hback)).trans (List.sublist_append_right _ _)))

/-! ## What has been read as it is meant -/

/-- A default that has a value of its own, which does not look like another default. -/
def HasValue (ms : List Member) : Prop :=
  ∀ v, valueOf ms = some v → strip wrapsDefault v ≠ [] ∧ contains defaultFunction v = false

theorem defaultOf_keepAll (hvalue : HasValue ms) :
    defaultOf keepAll ms = (valueOf ms).map (strip wrapsDefault) := by
  rw [defaultOf]
  cases h : valueOf ms with
  | none => rfl
  | some v =>
    have hignores : keepAll.ignores (strip wrapsDefault v) = false := rfl
    rw [Option.bind_some, keptDefault, hignores, if_neg Bool.false_ne_true, Option.map_some,
      Option.filter_some, if_pos (by simp [(hvalue v h).1])]

/-- If any default is found, the only one has no quotes. -/
theorem overlooked_of_quoted (hkeys : DistinctKeys ms) (hvalue : HasValue ms) (hm : m ∈ ms)
    (hdefault : m.default? ≠ none) (hquoted : m.quoting ≠ .plain) : ∀ x ∈ ms, x.Overlooked := by
  intro x hx v hv
  obtain rfl := hkeys.eq_of_default hx hm (by simp [hv]) hdefault
  exact ⟨hquoted, (hvalue v (hkeys.valueOf_eq hx hv)).2⟩

namespace StringColumn

variable (c : StringColumn)

/-- A quoted default is overlooked in any layout. -/
theorem default_plain_of_read {layout : Layout} (hkeys : DistinctKeys ms) (hvalue : HasValue ms)
    (h : Entries.readLines keepAll .string {} (c.decoratorLines ms layout) = .ok e)
    (hread : e.default.filter (· ≠ []) = defaultOf keepAll ms) (hm : m ∈ ms)
    (hdefault : m.default? ≠ none) : m.quoting = .plain := by
  by_contra hquoted
  have hnone := default_readLines_of_noDefault (c.contains_defaultFunction_lines
    (overlooked_of_quoted hkeys hvalue hm hdefault hquoted) layout) h
  obtain ⟨v, hv⟩ := Option.ne_none_iff_exists'.mp hdefault
  rw [hnone, defaultOf_keepAll hvalue, hkeys.valueOf_eq hm hv] at hread
  cases hread

/-- What has been cut off the line, stripped, is the default that is meant. -/
theorem strip_eq_of_read {front back : List Member} {x : Member} {v : List Char}
    (hvalue : HasValue (front ++ x :: back)) (hv : valueOf (front ++ x :: back) = some v)
    (hnone : ∀ y ∈ front, y.default? = none)
    (hfront : ∀ y ∈ front, ¬ y.PassesFor "default".toList) (hx : x.PassesFor "default".toList)
    (h : Entries.readLine keepAll .string {}
      (indented c.indent (object c.opening (sharedBody (front ++ x :: back)))) = .ok e)
    (hread : e.default.filter (· ≠ []) = defaultOf keepAll (front ++ x :: back)) :
    strip wrapsDefault (x.valueText ++ behindBody back) = strip wrapsDefault v := by
  have hcut := Entries.default_readLine h
  rw [trim_object c.begins, c.splitDefault_object hnone hfront hx] at hcut
  rw [hcut, defaultOf_keepAll hvalue, hv] at hread
  split at hread
  · have hignores : ∀ t, keepAll.ignores t = false := fun _ => rfl
    rw [hignores, if_neg Bool.false_ne_true] at hread
    exact Option.some.inj (Option.filter_eq_some_iff.mp hread).1
  · cases hread

/-- On one line the default is the last member, and no key in front of it passes for its own. -/
theorem default_last_of_read (hkeys : DistinctKeys ms) (hvalue : HasValue ms)
    (h : Entries.readLine keepAll .string {}
      (indented c.indent (object c.opening (sharedBody ms))) = .ok e)
    (hread : e.default.filter (· ≠ []) = defaultOf keepAll ms) (hm : m ∈ ms)
    (hdefault : m.default? ≠ none) (hplain : m.quoting = .plain) :
    ∃ front, ms = front ++ [m] ∧ (∀ x ∈ front, ¬ x.PassesFor "default".toList) ∧
      ∀ x ∈ front, x.default? = none := by
  obtain ⟨v, hv⟩ := Option.ne_none_iff_exists'.mp hdefault
  have hpasses : m.PassesFor "default".toList :=
    Member.passesFor_of_key_eq hplain (Member.key_eq_default hdefault)
  -- The first member whose key passes for that of a default is the one that is cut off.
  obtain ⟨front, x, back, rfl, hx, hfront⟩ := Member.exists_first_passing hm hpasses
  have hnone : ∀ y ∈ front, y.default? = none := by
    intro y hy
    by_contra hne
    obtain rfl := hkeys.eq_of_default (List.mem_append_left _ hy) hm hne hdefault
    exact hfront y hy hpasses
  have hmem : m ∈ x :: back :=
    (List.mem_append.mp hm).resolve_left fun hfm => hfront m hfm hpasses
  -- It is the default itself, and with nothing behind it, since stripping takes no key away.
  have hstrip := c.strip_eq_of_read hvalue (hkeys.valueOf_eq hm hv) hnone hfront hx h hread
  have hsame : ¬ (x ≠ m ∨ back ≠ []) := fun hmore => strip_ne_of_mem hv hmem hmore hstrip
  rw [not_or, not_not, not_not] at hsame
  obtain ⟨rfl, rfl⟩ := hsame
  exact ⟨front, rfl, hfront, hnone⟩

theorem suitsOneLine_of_read (hkeys : DistinctKeys ms) (hvalue : HasValue ms)
    (h : Entries.readLines keepAll .string {} (c.decoratorLines ms .oneLine) = .ok e)
    (hlength : e.maxLength = lengthOf ms)
    (hread : e.default.filter (· ≠ []) = defaultOf keepAll ms) : SuitsOneLine ms := by
  have hline := c.readLines_oneLine.symm.trans h
  -- What is left of the line for the length has been read as the length that is meant.
  have hmap : ∀ {r : Except Fault (Option Nat)} {d : Option (List Char)},
      r.map (fun n => (⟨n, d⟩ : Entries)) = .ok e → r = .ok (lengthOf ms) := by
    intro r d hr
    cases r with
    | error f => cases hr
    | ok n =>
      cases hr
      rw [← hlength]
  cases hnone : valueOf ms with
  | none =>
    rw [valueOf, List.findSome?_eq_none_iff] at hnone
    refine ⟨?_, fun m hm hdefault => absurd (hnone m hm) hdefault⟩
    rw [c.readLine_object {} hnone] at hline
    exact (c.readLength_object_iff {} (isMemberChar_of_mem_sharedBody hnone)
      (lengthValue?_sharedBody hnone)).mp (hmap hline)
  | some v =>
    obtain ⟨m, hm, hv⟩ := List.exists_of_findSome?_eq_some hnone
    have hdefault : m.default? ≠ none := by simp [hv]
    have hplain := c.default_plain_of_read hkeys hvalue h hread hm hdefault
    obtain ⟨front, rfl, hpasses, hfront⟩ :=
      c.default_last_of_read hkeys hvalue hline hread hm hdefault hplain
    rw [c.readLine_object_default {} hfront hv hplain hpasses] at hline
    have hleft := hmap hline
    rw [lengthOf_concat hdefault] at hleft
    refine ⟨?_, fun x hx hxdefault => ?_⟩
    · rw [lengthOf_concat hdefault]
      exact (c.readLength_object_iff {} (isMemberChar_of_mem_frontBody hfront)
        (lengthValue?_frontBody hfront)).mp hleft
    · obtain rfl := hkeys.eq_of_default hx hm hxdefault hdefault
      exact ⟨front, rfl, hplain, hpasses⟩

theorem suitsLines_of_read {step : Nat} {lastComma : Bool} (hkeys : DistinctKeys ms)
    (hvalue : HasValue ms)
    (h : Entries.readLines keepAll .string {} (c.decoratorLines ms (.entryPerLine step lastComma)) =
      .ok e)
    (hlength : e.maxLength = lengthOf ms)
    (hread : e.default.filter (· ≠ []) = defaultOf keepAll ms) : SuitsLines ms := by
  have hplain : ∀ m ∈ ms, m.default? ≠ none → m.quoting = .plain :=
    fun m hm => c.default_plain_of_read hkeys hvalue h hread hm
  have hnumber : ∀ m ∈ ms, m.PassesFor "length".toList →
      (word32? m.valueText).isSome = true := by
    intro m hm hpasses
    have hdefault := Member.default?_eq_none_of_passesFor hpasses
    obtain ⟨b, hb⟩ := exists_mem_textLines (c.indent + step) lastComma
      (List.mem_map_of_mem (f := Member.text) hm)
    have hmem : indented (c.indent + step) (m.text ++ comma b) ∈
        c.decoratorLines ms (.entryPerLine step lastComma) := by
      rw [decoratorLines, List.mem_cons, List.mem_append]
      exact Or.inr (Or.inl hb)
    obtain ⟨e₁, e₂, hline⟩ := exists_of_readLines h hmem
    rw [Member.readLine_text hdefault, if_pos hpasses,
      Member.lengthOnLine_text hdefault hpasses] at hline
    cases hword : word32? m.valueText with
    | some n => rfl
    | none =>
      rw [hword] at hline
      cases hline
  refine ⟨hplain, hnumber, ?_⟩
  rw [c.readLines_lines hkeys hplain hnumber] at h
  cases h
  exact hlength

theorem suits_of_read {layout : Layout} (hkeys : DistinctKeys ms) (hvalue : HasValue ms)
    (hfield : IsSilent (trim c.field))
    (h : c.read keepAll layout ms = .ok (lengthOf ms, defaultOf keepAll ms)) :
    layout.Suits ms := by
  rw [read_eq, readLines_append_eq] at h
  cases hlines : Entries.readLines keepAll .string {} (c.decoratorLines ms layout) with
  | error f =>
    rw [hlines] at h
    cases h
  | ok e =>
    rw [hlines] at h
    simp only [Entries.readLines, readLine_of_isSilent rfl hfield, Except.map, Except.ok.injEq,
      Prod.mk.injEq] at h
    cases layout with
    | oneLine => exact c.suitsOneLine_of_read hkeys hvalue hlines h.1 h.2
    | entryPerLine step lastComma => exact c.suitsLines_of_read hkeys hvalue hlines h.1 h.2

/-- Two writings of the same members that suit the readers are read alike. They are read as what
they mean if the field line says nothing about a length or a default, and then those that suit are
all that are read so. -/
theorem read_iff_suits (c : StringColumn) (layout layout' : Layout) (hkeys : DistinctKeys ms)
    (hperm : ms.Perm ms') (o : Options) :
    (layout.Suits ms → layout'.Suits ms' → c.read o layout ms = c.read o layout' ms') ∧
      (IsSilent (trim c.field) → layout.Suits ms →
        c.read o layout ms = .ok (lengthOf ms, defaultOf o ms)) ∧
      (IsSilent (trim c.field) → HasValue ms →
        (∀ o, c.read o layout ms = .ok (lengthOf ms, defaultOf o ms)) → layout.Suits ms) := by
  refine ⟨fun hsuits hsuits' => ?_, fun hfield hsuits => ?_, fun hfield hvalue hread => ?_⟩
  · exact c.read_eq_of_perm hkeys hperm hsuits hsuits'
  · exact c.read_eq_ok hkeys hsuits hfield
  · exact c.suits_of_read hkeys hvalue hfield (hread keepAll)

theorem label_read_alike :
    DistinctKeys [labelLength, labelDefault] ∧
      [labelLength, labelDefault].Perm [labelDefault, labelLength] ∧
      Layout.oneLine.Suits [labelLength, labelDefault] ∧
      (Layout.entryPerLine 2 true).Suits [labelDefault, labelLength] ∧
      IsSilent (trim labelColumn.field) ∧ HasValue [labelLength, labelDefault] ∧
      labelColumn.read .standard .oneLine [labelLength, labelDefault] =
        labelColumn.read .standard (.entryPerLine 2 true) [labelDefault, labelLength] ∧
      labelColumn.read .standard .oneLine [labelLength, labelDefault] =
        .ok (some 60, some "0".toList) := by
  have hperm : [labelLength, labelDefault].Perm [labelDefault, labelLength] := List.Perm.swap _ _ _
  have hsuits : Layout.oneLine.Suits [labelLength, labelDefault] := suitsOneLine_label
  have hsuits' : (Layout.entryPerLine 2 true).Suits [labelDefault, labelLength] := suitsLines_label
  have hsilent : IsSilent (trim labelColumn.field) := ⟨by decide, by decide, by decide⟩
  have hvalue : HasValue [labelLength, labelDefault] := by
    rintro v ⟨⟩
    exact ⟨by decide, by decide⟩
  obtain ⟨hsame, hmeans, -⟩ := read_iff_suits labelColumn .oneLine (.entryPerLine 2 true)
    distinctKeys_label hperm .standard
  have hdefault : defaultOf .standard [labelLength, labelDefault] = some "0".toList := by decide
  rw [hdefault] at hmeans
  exact ⟨distinctKeys_label, hperm, hsuits, hsuits', hsilent, hvalue, hsame hsuits hsuits',
    hmeans hsilent hsuits⟩

end StringColumn

end CompanyRegister.Source
