import CompanyRegister.Proofs.Source.EntryLines
import CompanyRegister.Proofs.Source.Locality

/-!
# Why a source is refused

A column block is refused because it says nothing, because its field line declares no column, or
because a length cannot be read (`ColumnBlock.Refused`, `ColumnBlock.parse_eq_error_iff`).

A length is looked for in the options object of a line if the line begins a column and has an
opening and a closing brace (`ShowsObject`), in whatever number and order; the line may be what is
left of one whose default has been cut off. It has one segment more than it has braces
(`length_braceSegments`), so there are three at least, and the last but one, which is looked through,
is there. All that can be wrong with it is the length, and no source is refused for its options
objects themselves (`options_never_malformed`).
-/

namespace CompanyRegister.Source

open Text

/-! ## Segments -/

variable {line : List Char} {f : Fault}

/-- A line has one segment more than it has braces. -/
theorem length_braceSegments (line : List Char) :
    (braceSegments line).length = line.count '\x7b' + line.count '\x7d' + 1 := by
  -- The line is cut at opening braces once its closing ones have been turned into such.
  have hcount : (line.map fun c => if c = '\x7d' then '\x7b' else c).count '\x7b' =
      line.count '\x7b' + line.count '\x7d' := by
    induction line with
    | nil => rfl
    | cons c line ih =>
      rw [List.map_cons, List.count_cons, List.count_cons, List.count_cons, ih]
      by_cases hclose : c = '\x7d'
      · subst hclose
        rfl
      · rw [if_neg hclose, if_neg (show ¬(c == '\x7d') = true by simpa using hclose)]
        omega
  rw [braceSegments, length_splitOn, hcount]

theorem three_le_length_braceSegments (hopen : '\x7b' ∈ line) (hclose : '\x7d' ∈ line) :
    3 ≤ (braceSegments line).length := by
  have hopens := List.count_pos_iff.mpr hopen
  have hcloses := List.count_pos_iff.mpr hclose
  rw [length_braceSegments]
  omega

/-- Of three segments or more, the last but one is looked through. -/
theorem exists_segment (h : 3 ≤ (braceSegments line).length) :
    ∃ last body before rest, (braceSegments line).reverse = last :: body :: before :: rest ∧
      (braceSegments line)[(braceSegments line).length - 2]? = some body := by
  have hlength : (braceSegments line).reverse.length = (braceSegments line).length :=
    List.length_reverse
  match hsegments : (braceSegments line).reverse with
  | [] | [_] | [_, _] =>
    rw [hsegments] at hlength
    simp only [List.length_cons, List.length_nil] at hlength
    omega
  | last :: body :: before :: rest =>
    refine ⟨last, body, before, rest, rfl, ?_⟩
    have hindex := List.getElem?_reverse (l := braceSegments line) (i := 1) (by omega)
    rw [hsegments] at hindex
    exact hindex.symm

/-! ## Lengths that cannot be read -/

/-- With a segment to look through, only the length in it can be wrong. -/
theorem lengthInOptions_eq_error_iff {body : List Char} (h : 3 ≤ (braceSegments line).length)
    (hbody : (braceSegments line)[(braceSegments line).length - 2]? = some body) :
    lengthInOptions line = .error f ↔
      f = .malformedLength line ∧ ∃ v, lengthValue? body = some v ∧ word32? v = none := by
  obtain ⟨last, body', before, rest, hsegments, hbody'⟩ := exists_segment h
  obtain rfl : body' = body := Option.some.inj (hbody'.symm.trans hbody)
  simp only [lengthInOptions, hsegments]
  cases hvalue : lengthValue? body' with
  | none => simp
  | some v => cases hn : word32? v <;> simp [hn, eq_comm]

theorem failsOnly_lengthOnLine (line : List Char) :
    FailsOnly (· = .malformedLength line) (lengthOnLine line) := by
  rw [lengthOnLine]
  split
  · exact .ok _
  · exact .error rfl

/-- A line with an options object to look through for a length. -/
structure ShowsObject (line : List Char) : Prop where
  begins : beginsColumn line = true
  opens : '\x7b' ∈ line
  closes : '\x7d' ∈ line

theorem ShowsObject.failsOnly (h : ShowsObject line) :
    FailsOnly (· = .malformedLength line) (lengthInOptions line) := by
  intro f hf
  have hthree := three_le_length_braceSegments h.opens h.closes
  obtain ⟨_, body, _, _, -, hbody⟩ := exists_segment hthree
  exact ((lengthInOptions_eq_error_iff hthree hbody).mp hf).1

namespace Entries

variable {o : Options} {type : ColumnType} {e : Entries} {raw : List Char}

theorem readLength_eq_error_iff :
    e.readLength line = .error f ↔
      (ShowsObject line ∧ lengthInOptions line = .error f) ∨
        ¬ ShowsObject line ∧ contains "length: ".toList line = true ∧
          lengthOnLine line = .error f := by
  rw [readLength]
  split
  · next h =>
    have hobject : ShowsObject line := ⟨h.1, h.2.1, h.2.2⟩
    rw [and_iff_right hobject, or_iff_left fun hline => hline.1 hobject]
  · next h =>
    have hobject : ¬ ShowsObject line := fun hs => h ⟨hs.begins, hs.opens, hs.closes⟩
    rw [or_iff_right fun hline => hobject hline.1, and_iff_right hobject]
    split
    · next hkey => rw [and_iff_right hkey, map_eq_error_iff]
    · next hkey =>
      constructor
      · intro hok
        cases hok
      · exact fun hline => absurd hline.1 hkey

/-- What of a line is read for a length: all but the default on it. -/
def withoutDefault (raw : List Char) : List Char :=
  if contains defaultFunction (trim raw) then (splitDefault (trim raw)).1 else trim raw

theorem readLine_eq_error_iff :
    e.readLine o type raw = .error f ↔
      type = .string ∧ e.readLength (withoutDefault raw) = .error f := by
  have hline : ∃ default, e.readLine o type raw = e.ofLine type (withoutDefault raw) default := by
    rw [readLine_eq, withoutDefault]
    split <;> exact ⟨_, rfl⟩
  obtain ⟨default, hline⟩ := hline
  rw [hline, ofLine]
  split
  · next hstring => rw [and_iff_right hstring, map_eq_error_iff]
  · next hstring =>
    constructor
    · intro hok
      cases hok
    · exact fun hline => absurd hline.1 hstring

/-- Lines cannot be read if one of them cannot, behind others that can. -/
theorem readLines_eq_error_iff {ls : List (List Char)} :
    readLines o type e ls = .error f ↔
      ∃ above raw behind e', ls = above ++ raw :: behind ∧ readLines o type e above = .ok e' ∧
        e'.readLine o type raw = .error f := by
  constructor
  -- What has been read so far changes from line to line, so the induction is for any of it.
  · intro h
    induction ls generalizing e with
    | nil => cases h
    | cons l ls ih =>
      rw [readLines] at h
      split at h
      · next e' hl =>
        obtain ⟨above, raw, behind, e'', rfl, habove, hraw⟩ := ih h
        refine ⟨l :: above, raw, behind, e'', rfl, ?_, hraw⟩
        rw [readLines, hl]
        exact habove
      · next f' hl =>
        cases h
        exact ⟨[], l, ls, e, rfl, rfl, hl⟩
  · rintro ⟨above, raw, behind, e', rfl, habove, hraw⟩
    rw [readLines_append _ _ habove, readLines, hraw]

end Entries

/-! ## Blocks -/

namespace ColumnBlock

variable {o : Options} {block : List Char}

/-- The lines of a block that count: from the first that is not blank to the last that says
anything. -/
def body (block : List Char) : List (List Char) :=
  dropShortTail ((Text.lines block).dropWhile isAllBlank)

/-- Lines that are read for a length, each without the default on it: those of a block that declares
a string, up to the first that cannot be read. -/
inductive ReadForLength (o : Options) (block : List Char) : List Char → Prop
  | line {above behind : List (List Char)} {raw field : List Char} {d : Declaration} {e : Entries}
      (hbody : body block = above ++ raw :: behind) (hfield : (body block).getLast? = some field)
      (hd : Declaration.parse field = .ok d) (hstring : d.type = .string)
      (habove : Entries.readLines o d.type {} above = .ok e) :
      ReadForLength o block (Entries.withoutDefault raw)

/-- A line whose options object is looked through. -/
structure LooksThrough (o : Options) (block line : List Char) : Prop where
  read : ReadForLength o block line
  shown : ShowsObject line

/-- What a block is refused for. -/
inductive Refused (o : Options) (block : List Char) : Fault → Prop
  /-- No line says anything. -/
  | empty (hbody : body block = []) : Refused o block (.missingField (trim block))
  /-- The last line that says something does not declare a column. -/
  | field {field : List Char} {f : Fault} (hfield : (body block).getLast? = some field)
      (hd : Declaration.parse field = .error f) : Refused o block f
  /-- An options object has a length that is none. -/
  | object {line : List Char} {f : Fault} (hline : LooksThrough o block line)
      (hlength : lengthInOptions line = .error f) : Refused o block f
  /-- Another line has a length that is none. -/
  | ownLine {line : List Char} {f : Fault} (hline : ReadForLength o block line)
      (hobject : ¬ ShowsObject line) (hkey : contains "length: ".toList line = true)
      (hlength : lengthOnLine line = .error f) : Refused o block f

theorem parse_eq_error_of_readForLength (hline : ReadForLength o block line)
    (hlength : ∀ e : Entries, e.readLength line = .error f) : parse o block = .error f := by
  cases hline with
  | @line above behind raw field d e hbody hfield hd hstring habove =>
    have hraw : e.readLine o d.type raw = .error f :=
      Entries.readLine_eq_error_iff.mpr ⟨hstring, hlength e⟩
    have hlines : Entries.readLines o d.type {} (body block) = .error f :=
      Entries.readLines_eq_error_iff.mpr ⟨above, raw, behind, e, hbody, habove, hraw⟩
    rw [body] at hfield hlines
    simp only [parse, hfield, hd, hlines]

theorem refused_of_readLines {field : List Char} {d : Declaration}
    (hfield : (body block).getLast? = some field) (hd : Declaration.parse field = .ok d)
    (h : Entries.readLines o d.type {} (body block) = .error f) : Refused o block f := by
  obtain ⟨above, raw, behind, e, hbody, habove, hraw⟩ := Entries.readLines_eq_error_iff.mp h
  obtain ⟨hstring, hlength⟩ := Entries.readLine_eq_error_iff.mp hraw
  have hline : ReadForLength o block (Entries.withoutDefault raw) :=
    .line hbody hfield hd hstring habove
  rcases Entries.readLength_eq_error_iff.mp hlength with ⟨hobject, hf⟩ | ⟨hobject, hkey, hf⟩
  · exact .object ⟨hline, hobject⟩ hf
  · exact .ownLine hline hobject hkey hf

theorem parse_eq_error_iff : parse o block = .error f ↔ Refused o block f := by
  constructor
  · intro h
    rw [parse] at h
    split at h
    · next hnone =>
      cases h
      exact .empty (List.getLast?_eq_none_iff.mp hnone)
    · next field hfield =>
      split at h
      · next f' hd =>
        cases h
        exact .field hfield hd
      · next d hd =>
        split at h
        · next f' hlines =>
          cases h
          exact refused_of_readLines hfield hd hlines
        · cases h
  · intro h
    cases h with
    | empty hbody =>
      rw [body] at hbody
      simp only [parse, hbody, List.getLast?_nil]
    | field hfield hd =>
      rw [body] at hfield
      simp only [parse, hfield, hd]
    | object hline hlength =>
      exact parse_eq_error_of_readForLength hline.read fun _ =>
        Entries.readLength_eq_error_iff.mpr (Or.inl ⟨hline.shown, hlength⟩)
    | ownLine hline hobject hkey hlength =>
      exact parse_eq_error_of_readForLength hline fun _ =>
        Entries.readLength_eq_error_iff.mpr (Or.inr ⟨hobject, hkey, hlength⟩)

theorem ReadForLength.exists_mem (h : ReadForLength o block line) :
    ∃ raw ∈ body block, line = Entries.withoutDefault raw := by
  cases h with
  | @line _ _ raw _ _ _ hbody _ _ _ _ => exact ⟨raw, by simp [hbody], rfl⟩

/-- A block is refused with all of it, for its field line, or with one of its lines. -/
theorem Refused.cases_fault (h : Refused o block f) :
    f = .missingField (trim block) ∨
      (∃ field ∈ body block, Declaration.parse field = .error f) ∨
      ∃ raw ∈ body block, f = .malformedLength (Entries.withoutDefault raw) := by
  cases h with
  | empty => exact Or.inl rfl
  | field hfield hd => exact Or.inr (Or.inl ⟨_, List.mem_of_getLast? hfield, hd⟩)
  | object hline hlength =>
    obtain ⟨raw, hraw, rfl⟩ := hline.read.exists_mem
    exact Or.inr (Or.inr ⟨raw, hraw, hline.shown.failsOnly _ hlength⟩)
  | ownLine hline _ _ hlength =>
    obtain ⟨raw, hraw, rfl⟩ := hline.exists_mem
    exact Or.inr (Or.inr ⟨raw, hraw, failsOnly_lengthOnLine _ _ hlength⟩)

end ColumnBlock

/-! ## Sources -/

/-- Whether a fault is that there is no options object where one is looked through. -/
def Fault.isMalformedOptions : Fault → Bool
  | .malformedOptions _ => true
  | _ => false

theorem failsOnly_declaration (field : List Char) :
    FailsOnly (fun f => f.isMalformedOptions = false) (Declaration.parse field) := by
  rw [Declaration.parse]
  split
  · rw [FieldLine.declaration]
    split
    · exact .ok _
    · exact .error rfl
  · exact .error rfl

theorem ColumnBlock.failsOnly_parse (o : Options) (block : List Char) :
    FailsOnly (fun f => f.isMalformedOptions = false) (parse o block) := by
  intro f h
  rcases (parse_eq_error_iff.mp h).cases_fault with rfl | ⟨field, -, hd⟩ | ⟨raw, -, rfl⟩
  · rfl
  · exact failsOnly_declaration field f hd
  · rfl

theorem FirstFault.exists_parse {o : Options} {bs : List (List Char)} (h : FirstFault o bs f) :
    ∃ b ∈ bs, ColumnBlock.parse o b = .error f := by
  induction h with
  | here hb => exact ⟨_, List.mem_cons_self, hb⟩
  | later _ _ ih =>
    obtain ⟨b, hb, hf⟩ := ih
    exact ⟨b, List.mem_cons_of_mem _ hb, hf⟩

theorem failsOnly_annotate (o : Options) (source : List Char) :
    FailsOnly (fun f => f.isMalformedOptions = false) (annotate o source) := by
  intro f h
  rcases readColumns_eq_error_iff.mp (annotate_eq_error_iff.mp h) with hfirst | ⟨-, rfl⟩
  · obtain ⟨b, -, hb⟩ := hfirst.exists_parse
    exact ColumnBlock.failsOnly_parse o b f hb
  · rfl

/-- No source is refused for a malformed options object. Where one is looked through, there are
three segments at least, and a block is refused for it only if the last but one has a length that is
none. -/
theorem options_never_malformed (o : Options) :
    (∀ source line, annotate o source ≠ .error (.malformedOptions line)) ∧
      ∀ block line, ColumnBlock.LooksThrough o block line →
        3 ≤ (braceSegments line).length ∧
          ∃ body, (braceSegments line)[(braceSegments line).length - 2]? = some body ∧
            ∀ f, (lengthInOptions line = .error f ↔
                f = .malformedLength line ∧ ∃ v, lengthValue? body = some v ∧ word32? v = none) ∧
              (lengthInOptions line = .error f → ColumnBlock.parse o block = .error f) := by
  refine ⟨fun source line h => ?_, fun block line hline => ?_⟩
  · cases failsOnly_annotate o source _ h
  · have hthree := three_le_length_braceSegments hline.shown.opens hline.shown.closes
    obtain ⟨_, body, _, _, -, hbody⟩ := exists_segment hthree
    refine ⟨hthree, body, hbody, fun f => ⟨lengthInOptions_eq_error_iff hthree hbody, fun hf => ?_⟩⟩
    exact ColumnBlock.parse_eq_error_iff.mpr (.object hline hf)

/-- A string whose default is cut off behind a closing brace, an opening one and a length. -/
def closedFirst : List Char :=
  "@Column(\"a\x7db\", \x7b length: sixty, default: () => \"(0)\" \x7d)".toList

/-- What is left of it, closed again. -/
def closedAgain : List Char := "@Column(\"a\x7db\", \x7b length: sixty, \x7d)".toList

theorem closedFirst_refused :
    ColumnBlock.LooksThrough .standard (unlines [closedFirst, "label: string;".toList])
        closedAgain ∧
      3 ≤ (braceSegments closedAgain).length ∧
      (braceSegments closedAgain)[(braceSegments closedAgain).length - 2]? =
        some " length: sixty, ".toList ∧
      ColumnBlock.parse .standard (unlines [closedFirst, "label: string;".toList]) =
        .error (.malformedLength closedAgain) := by
  have hcut : Entries.withoutDefault closedFirst = closedAgain := by decide +kernel
  have hread : ColumnBlock.ReadForLength .standard (unlines [closedFirst, "label: string;".toList])
      (Entries.withoutDefault closedFirst) :=
    @ColumnBlock.ReadForLength.line _ _ [] ["label: string;".toList] closedFirst
      "label: string;".toList ⟨"label".toList, .string, false⟩ {} (by decide +kernel)
      (by decide +kernel) rfl rfl rfl
  have hline : ColumnBlock.LooksThrough .standard
      (unlines [closedFirst, "label: string;".toList]) closedAgain :=
    ⟨hcut ▸ hread, by decide, by decide, by decide⟩
  obtain ⟨hthree, body, hbody, hfaults⟩ := (options_never_malformed .standard).2 _ _ hline
  have hsegment : (braceSegments closedAgain)[(braceSegments closedAgain).length - 2]? =
      some " length: sixty, ".toList := by decide +kernel
  obtain rfl : body = " length: sixty, ".toList := Option.some.inj (hbody.symm.trans hsegment)
  have hlength : lengthInOptions closedAgain = .error (.malformedLength closedAgain) :=
    (hfaults _).1.mpr ⟨rfl, "sixty".toList, by decide +kernel, by decide +kernel⟩
  exact ⟨hline, hthree, hsegment, (hfaults _).2 hlength⟩

end CompanyRegister.Source
