import CompanyRegister.Proofs.Source.EntryLines
import CompanyRegister.Proofs.Source.Spelling

/-!
# Lengths within quoted text

A length entry is told by the comma or blank in front of its key, and nobody asks whether that
stands within a text in quotes. So the name of a column may itself be taken for the length of the
column:

    @Column("varchar", { name: "max, length: 5 mm", length: 60 })

What a reader takes for a length is said first (`SpellsLength`, `FirstLength`). A value ends at a
comma, so of a text in front of a comma nothing is read that goes on behind it
(`laterLength?_append_comma`), and the length behind a name is read as it is meant exactly if the
name has no length in it, or the same one (`lengthInOptions_named_iff`).
-/

namespace CompanyRegister.Source

open Text

/-! ## What is taken for a length -/

/-- What may stand around a key: one quote or none. -/
def keyQuotes : List (List Char) := [[], ['"'], ['\'']]

/-- A text that begins with a length entry whose value is `v`. -/
inductive SpellsLength (v : List Char) : List Char → Prop
  | entry {before behind gap gap' rest : List Char} :
      before ∈ keyQuotes → behind ∈ keyQuotes → (∀ c ∈ gap, isBlank c = true) →
        (∀ c ∈ gap', isBlank c = true) → v ≠ [] → (∀ c ∈ v, endsValue c = false) →
        (∀ c ∈ rest.head?, endsValue c = true) →
        SpellsLength v
          (before ++ ("length".toList ++ (behind ++ (gap ++ ':' :: (gap' ++ (v ++ rest))))))

/-- A text whose first length entry behind a comma or a blank has the value `v`. -/
inductive FirstLength (v : List Char) : List Char → Prop
  | here {c : Char} {text : List Char} : endsValue c = true → SpellsLength v text →
      FirstLength v (c :: text)
  | later {c : Char} {text : List Char} : (endsValue c = true → ∀ w, ¬ SpellsLength w text) →
      FirstLength v text → FirstLength v (c :: text)

/-! ### Reading what is spelled -/

theorem dropQuote_append {q : List Char} (hq : q ∈ keyQuotes) {c : Char} (hc : c ∉ ['"', '\''])
    (text : List Char) : dropQuote (q ++ c :: text) = c :: text := by
  simp only [keyQuotes, List.mem_cons, List.not_mem_nil, or_false] at hq
  rcases hq with rfl | rfl | rfl
  · exact dropQuote_cons hc text
  · rfl
  · rfl

theorem afterColon?_gap {gap : List Char} (hgap : ∀ c ∈ gap, isBlank c = true) (text : List Char) :
    afterColon? (gap ++ ':' :: text) = some (trimStart text) := by
  rw [afterColon?, Spelling.trimStart_blanks hgap (by decide)]
  rfl

theorem entryLength?_of_spellsLength {v text : List Char} (h : SpellsLength v text) :
    entryLength? text = some v := by
  obtain ⟨hbefore, hbehind, hgap, hgap', hne, hv, hrest⟩ := h
  rename_i before behind gap gap' rest
  have hkey : dropQuote (before ++ ("length".toList ++
      (behind ++ (gap ++ ':' :: (gap' ++ (v ++ rest)))))) =
      "length".toList ++ (behind ++ (gap ++ ':' :: (gap' ++ (v ++ rest)))) :=
    dropQuote_append hbefore (by decide) _
  have hcolon : dropQuote (behind ++ (gap ++ ':' :: (gap' ++ (v ++ rest)))) =
      gap ++ ':' :: (gap' ++ (v ++ rest)) := by
    cases gap with
    | nil => exact dropQuote_append hbehind (by decide) _
    | cons b gap =>
      have hb : b ∉ ['"', '\''] := by
        intro hmem
        have hblank := hgap b List.mem_cons_self
        simp only [List.mem_cons, List.not_mem_nil, or_false] at hmem
        rcases hmem with rfl | rfl <;> exact absurd hblank (by decide)
      exact dropQuote_append hbehind hb _
  have hvalue : trimStart (gap' ++ (v ++ rest)) = v ++ rest := by
    refine dropWhile_append_of_head? hgap' fun c hc => ?_
    rw [List.head?_append_of_ne_nil _ hne] at hc
    have hends := hv c (List.mem_of_mem_head? hc)
    rw [endsValue, Bool.or_eq_false_iff] at hends
    exact hends.2
  rw [entryLength?, hkey, after?_eq_some_iff.mpr rfl, Option.bind_eq_bind, Option.bind_some,
    hcolon, afterColon?_gap hgap, Option.bind_some, hvalue, entryValue?_append hne hv hrest]
  rfl

/-! ### Spelling what is read -/

theorem exists_quote (text : List Char) : ∃ q ∈ keyQuotes, text = q ++ dropQuote text := by
  cases text with
  | nil => exact ⟨[], by decide, rfl⟩
  | cons c text =>
    by_cases hc : c = '"' ∨ c = '\''
    · have hdrop : dropQuote (c :: text) = text := if_pos hc
      refine ⟨[c], ?_, by rw [hdrop]; rfl⟩
      rcases hc with rfl | rfl <;> decide
    · have hdrop : dropQuote (c :: text) = c :: text := if_neg hc
      exact ⟨[], by decide, hdrop.symm⟩

theorem exists_of_afterColon?_eq_some {text rest : List Char} (h : afterColon? text = some rest) :
    ∃ gap gap' : List Char, text = gap ++ ':' :: (gap' ++ rest) ∧ (∀ c ∈ gap, isBlank c = true) ∧
      ∀ c ∈ gap', isBlank c = true := by
  rw [afterColon?] at h
  split at h
  · next text' htrim =>
    obtain ⟨gap, hgap, rfl⟩ := Spelling.exists_blanks htrim
    obtain ⟨gap', hgap', rfl⟩ := Spelling.exists_blanks (Option.some.inj h)
    exact ⟨gap, gap', rfl, hgap, hgap'⟩
  · cases h

theorem exists_of_entryValue?_eq_some {text v rest : List Char}
    (h : entryValue? text = some (v, rest)) :
    text = v ++ rest ∧ v ≠ [] ∧ (∀ c ∈ v, endsValue c = false) ∧
      ∀ c ∈ rest.head?, endsValue c = true := by
  rw [entryValue?] at h
  split at h
  · cases h
  · next hne =>
    cases h
    refine ⟨List.takeWhile_append_dropWhile.symm, hne, fun c hc => ?_, fun c hc => ?_⟩
    · simpa using List.mem_takeWhile_imp hc
    · have hnot := List.head?_dropWhile_not (fun c => !endsValue c) text
      rw [hc] at hnot
      simpa using hnot

theorem spellsLength_of_entryLength? {v text : List Char} (h : entryLength? text = some v) :
    SpellsLength v text := by
  rw [entryLength?, Option.bind_eq_bind] at h
  obtain ⟨text₁, hkey, h⟩ := Option.bind_eq_some_iff.mp h
  obtain ⟨text₂, hcolon, h⟩ := Option.bind_eq_some_iff.mp h
  obtain ⟨⟨w, rest⟩, hvalue, h⟩ := Option.bind_eq_some_iff.mp h
  obtain rfl : w = v := Option.some.inj h
  obtain ⟨before, hbefore, hopen⟩ := exists_quote text
  obtain ⟨behind, hbehind, hclose⟩ := exists_quote text₁
  obtain ⟨gap, gap', hgaps, hgap, hgap'⟩ := exists_of_afterColon?_eq_some hcolon
  obtain ⟨rfl, hne, hv, hrest⟩ := exists_of_entryValue?_eq_some hvalue
  rw [hopen, after?_eq_some_iff.mp hkey, hclose, hgaps]
  exact .entry hbefore hbehind hgap hgap' hne hv hrest

theorem entryLength?_eq_some_iff {v text : List Char} :
    entryLength? text = some v ↔ SpellsLength v text :=
  ⟨spellsLength_of_entryLength?, entryLength?_of_spellsLength⟩

theorem entryLength?_eq_none_iff {text : List Char} :
    entryLength? text = none ↔ ∀ v, ¬ SpellsLength v text := by
  rw [Option.eq_none_iff_forall_ne_some]
  exact forall_congr' fun v => not_congr entryLength?_eq_some_iff

theorem laterLength?_eq_some_iff {v text : List Char} :
    laterLength? text = some v ↔ FirstLength v text := by
  induction text with
  | nil =>
    constructor
    · intro h
      cases h
    · intro h
      cases h
  | cons c text ih =>
    -- An entry can begin only behind a comma or a blank, and then it is the first one.
    by_cases hc : endsValue c = true
    · cases hentry : entryLength? text with
      | some w =>
        rw [laterLength?_cons_of_eq_some hc hentry, Option.some_inj]
        have hw := entryLength?_eq_some_iff.mp hentry
        constructor
        · rintro rfl
          exact .here hc hw
        · rintro (⟨-, hv⟩ | ⟨hnone, -⟩)
          · exact Option.some.inj (hentry.symm.trans (entryLength?_eq_some_iff.mpr hv))
          · exact absurd hw (hnone hc w)
      | none =>
        have hnone := entryLength?_eq_none_iff.mp hentry
        rw [laterLength?_cons_of_eq_none hentry, ih]
        constructor
        · exact .later fun _ => hnone
        · rintro (⟨-, hv⟩ | ⟨-, hlater⟩)
          · exact absurd hv (hnone v)
          · exact hlater
    · have hskip : laterLength? (c :: text) = laterLength? text := by
        rw [laterLength?, if_neg hc]
      rw [hskip, ih]
      constructor
      · exact .later fun h => absurd h hc
      · rintro (⟨hends, -⟩ | ⟨-, hlater⟩)
        · exact absurd hends hc
        · exact hlater

/-! ## Up to a comma -/

variable (text rest : List Char)

theorem dropQuote_append_comma :
    dropQuote (text ++ ',' :: rest) = dropQuote text ++ ',' :: rest := by
  cases text with
  | nil => rfl
  | cons c text =>
    rw [List.cons_append, dropQuote, dropQuote]
    split <;> rfl

theorem after?_append_cons {mark : List Char} {c : Char} (hc : c ∉ mark) :
    after? mark (text ++ c :: rest) = (after? mark text).map (· ++ c :: rest) := by
  cases h : after? mark text with
  | some tail =>
    rw [after?_eq_some_iff.mp h, List.append_assoc]
    exact after?_eq_some_iff.mpr rfl
  | none =>
    refine after?_eq_none_iff.mpr fun hprefix => after?_eq_none_iff.mp h ?_
    exact prefix_of_prefix_append_cons hc hprefix

theorem trimStart_append_comma :
    trimStart (text ++ ',' :: rest) = trimStart text ++ ',' :: rest := by
  rw [trimStart, trimStart, List.dropWhile_append]
  split
  · next hempty =>
    rw [List.isEmpty_iff.mp hempty]
    exact List.dropWhile_cons_of_neg (by decide)
  · rfl

theorem afterColon?_append_comma :
    afterColon? (text ++ ',' :: rest) = (afterColon? text).map (· ++ ',' :: rest) := by
  rw [afterColon?, afterColon?, trimStart_append_comma]
  cases trimStart text with
  | nil => rfl
  | cons c tail =>
    by_cases hc : c = ':'
    · subst hc
      exact congrArg some (trimStart_append_comma tail rest)
    · rw [List.cons_append]
      split
      · next heq => exact absurd (List.cons.inj heq).1 hc
      · split
        · next heq => exact absurd (List.cons.inj heq).1 hc
        · rfl

/-- A value ends at a comma. -/
theorem entryValue?_append_comma :
    (entryValue? (text ++ ',' :: rest)).map Prod.fst = (entryValue? text).map Prod.fst := by
  have htake : (text ++ ',' :: rest).takeWhile (fun c => !endsValue c) =
      text.takeWhile fun c => !endsValue c := by
    rw [List.takeWhile_append]
    split
    · next hall =>
      have hcomma : (',' :: rest).takeWhile (fun c => !endsValue c) = [] :=
        List.takeWhile_cons_of_neg (by decide)
      rw [hcomma, List.append_nil]
      exact ((List.takeWhile_prefix _).eq_of_length hall).symm
    · rfl
  rw [entryValue?, entryValue?, htake]
  split <;> rfl

theorem entryLength?_append_comma : entryLength? (text ++ ',' :: rest) = entryLength? text := by
  rw [entryLength?, entryLength?, dropQuote_append_comma, after?_append_cons _ _ (by decide)]
  cases after? "length".toList (dropQuote text) with
  | none => rfl
  | some text₁ =>
    simp only [Option.map_some, Option.bind_eq_bind, Option.bind_some, dropQuote_append_comma,
      afterColon?_append_comma]
    cases afterColon? (dropQuote text₁) with
    | none => rfl
    | some text₂ =>
      simp only [Option.map_some, Option.bind_some]
      have hvalue := entryValue?_append_comma text₂ rest
      cases hleft : entryValue? (text₂ ++ ',' :: rest) <;> cases hright : entryValue? text₂ <;>
        rw [hleft, hright] at hvalue
      · cases hvalue
      · cases hvalue
      · exact hvalue

/-- What stands in front of a comma is looked through first, and alone. -/
theorem laterLength?_append_comma :
    laterLength? (text ++ ',' :: rest) = (laterLength? text).or (laterLength? (',' :: rest)) := by
  induction text with
  | nil => rfl
  | cons c text ih =>
    rw [List.cons_append, laterLength?, laterLength?, entryLength?_append_comma]
    split
    · rfl
    · exact ih

/-! ## Behind a name -/

/-- The options of a column with a name in quotes and a length behind it. -/
def namedBody (name : List Char) (n : Nat) : List Char :=
  " name: \"".toList ++ (name ++ ("\", length: ".toList ++ (digits n ++ [' '])))

theorem not_mem_namedBody {name : List Char} {n : Nat} {c : Char} (hc : isEntryChar c = false)
    (hname : c ∉ name) : c ∉ namedBody name n := by
  have hfront : c ∉ " name: \"".toList := not_mem_of_forall (List.all_eq_true.mp (by decide)) hc
  have hkey : c ∉ "\", length: ".toList := not_mem_of_forall (List.all_eq_true.mp (by decide)) hc
  have hlength : ∀ d ∈ digits n ++ [' '], isEntryChar d = true :=
    List.forall_mem_append.mpr
      ⟨fun d hd => isEntryChar_of_isPlain (isPlain_of_mem_digits hd),
        List.all_eq_true.mp (by decide)⟩
  exact List.not_mem_append hfront
    (List.not_mem_append hname (List.not_mem_append hkey (not_mem_of_forall hlength hc)))

theorem lengthValue?_namedBody (name : List Char) (n : Nat) :
    lengthValue? (namedBody name n) =
      (laterLength? (' ' :: Quoting.double.write name)).or (some (digits n)) := by
  have hbody : namedBody name n =
      ' ' :: (Quoting.plain.write "name".toList ++
        ':' :: ((' ' :: Quoting.double.write name) ++
          ',' :: ' ' ::
            (Quoting.plain.write "length".toList ++ ':' :: ' ' :: (digits n ++ [' '])))) := by
    have hname := List.append_assoc name ['"'] (',' :: ' ' ::
      (Quoting.plain.write "length".toList ++ ':' :: ' ' :: (digits n ++ [' '])))
    exact congrArg (" name: \"".toList ++ ·) hname.symm
  have hlength : laterLength? (',' :: ' ' ::
      (Quoting.plain.write "length".toList ++ ':' :: ' ' :: (digits n ++ [' ']))) =
      some (digits n) := by
    have hblank : ∀ c ∈ [' '].head?, endsValue c = true := by
      rintro c ⟨⟩
      decide
    rw [laterLength?_cons_of_eq_none (entryLength?_cons_of_not_mem (by decide) _)]
    exact laterLength?_cons_of_eq_some (by decide) (entryLength?_length .plain n hblank)
  rw [hbody, lengthValue?_blank,
    laterLength?_key .plain (by decide) (List.all_eq_true.mp (by decide)) (by decide),
    laterLength?_append_comma, hlength]

/-- The length behind a name is read as it is meant exactly if what is taken for a length in the
name, if anything is, says the same. -/
theorem lengthInOptions_named_iff (sqlType : PlainWord) {name : List Char} (hopen : '\x7b' ∉ name)
    (hclose : '\x7d' ∉ name) (n : Fin 4294967296) :
    lengthInOptions (object (opening sqlType) (namedBody name n.val)) = .ok (some n.val) ↔
      ∀ v, FirstLength v (' ' :: Quoting.double.write name) → word32? v = some n.val := by
  have hbefore : '\x7b' ∉ opening sqlType ∧ '\x7d' ∉ opening sqlType :=
    ⟨not_mem_opening sqlType (by decide), not_mem_opening sqlType (by decide)⟩
  have hbody : '\x7b' ∉ namedBody name n.val ∧ '\x7d' ∉ namedBody name n.val :=
    ⟨not_mem_namedBody (by decide) hopen, not_mem_namedBody (by decide) hclose⟩
  rw [object, lengthInOptions_braced hbefore hbody, lengthValue?_namedBody]
  simp only [← laterLength?_eq_some_iff]
  cases laterLength? (' ' :: Quoting.double.write name) with
  | none => simp [word32?_digits n.isLt]
  | some v => cases hv : word32? v <;> simp [hv]

theorem isPlain_varchar : ∀ c ∈ "varchar".toList, isPlain c = true :=
  List.all_eq_true.mp (by decide)

def varchar : PlainWord := ⟨"varchar".toList, isPlain_varchar⟩

/-- A name with commas, a colon and the word, but with no length in it. -/
theorem lengthInOptions_measure :
    '\x7b' ∉ "max. length, in mm: x".toList ∧ '\x7d' ∉ "max. length, in mm: x".toList ∧
      lengthInOptions (object (opening varchar) (namedBody "max. length, in mm: x".toList 60)) =
        .ok (some 60) := by
  have hopen : '\x7b' ∉ "max. length, in mm: x".toList := by decide
  have hclose : '\x7d' ∉ "max. length, in mm: x".toList := by decide
  have hnone :
      laterLength? (' ' :: Quoting.double.write "max. length, in mm: x".toList) = none := by decide
  refine ⟨hopen, hclose, (lengthInOptions_named_iff varchar hopen hclose 60).mpr fun v hv => ?_⟩
  rw [laterLength?_eq_some_iff.mpr hv] at hnone
  cases hnone

/-- A name with a length in it, which is read in place of the length of the column. -/
theorem lengthInOptions_misled :
    lengthInOptions (object (opening varchar) (namedBody "max, length: 5 mm".toList 60)) =
      .ok (some 5) := by
  decide +kernel

end CompanyRegister.Source
