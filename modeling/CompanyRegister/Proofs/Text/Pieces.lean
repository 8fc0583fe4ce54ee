import Mathlib.Data.List.Basic
import CompanyRegister.Text.Pieces

/-!
# Cuts and joins

Joining undoes cutting and cutting undoes joining, as long as no piece holds the mark: lines with
line feeds between them are cut into the same lines (`lines_unlines`), and blocks with an empty line
between each two into the same blocks (`blocks_unblocks`).

The second half is about where a mark occurs. `contains` and `cut?` are put in terms of the infixes
of a text; a character that the mark does not have splits the question into one about what stands
before it and one about what stands behind it (`contains_append_cons`).
-/

namespace CompanyRegister.Text

/-! ## Lines -/

theorem lines_unlines {ls : List (List Char)} (hne : ls ≠ []) (h : ∀ l ∈ ls, '\n' ∉ l) :
    lines (unlines ls) = ls :=
  List.splitOn_intercalate '\n' h hne

theorem unlines_lines (text : List Char) : unlines (lines text) = text :=
  List.intercalate_splitOn '\n'

theorem lines_append_cons (text rest : List Char) :
    lines (text ++ '\n' :: rest) = lines text ++ lines rest :=
  List.splitOn_append_cons_self text rest

theorem lines_of_not_mem {text : List Char} (h : '\n' ∉ text) : lines text = [text] :=
  List.splitOn_eq_singleton h

/-- No piece holds the character that the text is cut at. -/
theorem not_mem_of_mem_splitOn {c : Char} {text piece : List Char} (h : piece ∈ text.splitOn c) :
    c ∉ piece := by
  induction text generalizing piece with
  | nil =>
    rw [List.mem_singleton.mp h]
    exact List.not_mem_nil
  | cons d text ih =>
    rw [List.splitOn_cons_eq_if_modifyHead] at h
    split at h
    · rcases List.mem_cons.mp h with rfl | h
      · exact List.not_mem_nil
      · exact ih h
    · next hd =>
      have hne : c ≠ d := fun heq => hd (beq_iff_eq.mpr heq.symm)
      cases hpieces : text.splitOn c with
      | nil => exact absurd hpieces (List.splitOn_ne_nil c text)
      | cons first rest =>
        rw [hpieces] at h
        rcases List.mem_cons.mp h with rfl | h
        · exact List.not_mem_cons_of_ne_of_not_mem hne (ih (hpieces ▸ List.mem_cons_self))
        · exact ih (hpieces ▸ List.mem_cons_of_mem first h)

/-- A text has one piece more than there are characters that it is cut at. -/
theorem length_splitOn (c : Char) (text : List Char) :
    (text.splitOn c).length = text.count c + 1 := by
  induction text with
  | nil => rfl
  | cons d text ih =>
    rw [List.splitOn_cons_eq_if_modifyHead, List.count_cons]
    split
    · rw [List.length_cons, ih]
    · rw [List.length_modifyHead, ih, Nat.add_zero]

/-- Pieces that are all ended by the same element, which none of them has. -/
theorem splitOn_flatMap {α : Type} [BEq α] [LawfulBEq α] {x : α} {pieces : List (List α)}
    (h : ∀ piece ∈ pieces, x ∉ piece) :
    (pieces.flatMap (· ++ [x])).splitOn x = pieces ++ [[]] := by
  induction pieces with
  | nil => rfl
  | cons piece pieces ih =>
    rw [List.forall_mem_cons] at h
    rw [List.flatMap_cons, List.append_assoc, List.singleton_append,
      List.splitOn_append_cons_self, List.splitOn_eq_singleton h.1, ih h.2]
    rfl

theorem mem_intercalate {sep : List Char} {ps : List (List Char)} {c : Char}
    (h : c ∈ sep.intercalate ps) : c ∈ sep ∨ ∃ p ∈ ps, c ∈ p := by
  induction ps with
  | nil => simp at h
  | cons p ps ih =>
    cases ps with
    | nil =>
      rw [List.intercalate_singleton] at h
      exact Or.inr ⟨p, List.mem_cons_self, h⟩
    | cons q ps =>
      rw [List.intercalate_cons_cons, List.mem_append, List.mem_append] at h
      rcases h with (h | h) | h
      · exact Or.inr ⟨p, List.mem_cons_self, h⟩
      · exact Or.inl h
      · rcases ih h with h | ⟨r, hr, hc⟩
        · exact Or.inl h
        · exact Or.inr ⟨r, List.mem_cons_of_mem p hr, hc⟩

/-- Around any of them, joined pieces have the separator behind each that comes before it and in
front of each that comes after it. -/
theorem intercalate_append_cons (sep : List Char) (ps : List (List Char)) (q : List Char)
    (qs : List (List Char)) :
    sep.intercalate (ps ++ q :: qs) = ps.flatMap (· ++ sep) ++ (q ++ qs.flatMap (sep ++ ·)) := by
  induction ps with
  | nil =>
    rw [List.nil_append, List.flatMap_nil, List.nil_append]
    induction qs generalizing q with
    | nil => simp
    | cons r qs ih =>
      rw [List.intercalate_cons_cons, ih, List.flatMap_cons]
      simp
  | cons p ps ih =>
    rw [List.cons_append, List.intercalate_cons_of_ne_nil (by simp), ih]
    simp

theorem mem_intercalate_of_mem {sep : List Char} {ps : List (List Char)} {p : List Char} {c : Char}
    (hp : p ∈ ps) (hc : c ∈ p) : c ∈ sep.intercalate ps := by
  obtain ⟨before, behind, rfl⟩ := List.append_of_mem hp
  rw [intercalate_append_cons]
  exact List.mem_append_right _ (List.mem_append_left _ hc)

/-- Joined pieces are pieces with a separator behind each but the last. -/
theorem intercalate_concat (sep : List Char) (ps : List (List Char)) (last : List Char) :
    sep.intercalate (ps ++ [last]) = ps.flatMap (· ++ sep) ++ last := by
  rw [intercalate_append_cons, List.flatMap_nil, List.append_nil]

/-- Texts that are the same have the same before and behind the first `c`. -/
theorem eq_of_append_cons_eq {c : Char} {before before' rest rest' : List Char} (hc : c ∉ before)
    (hc' : c ∉ before') (h : before ++ c :: rest = before' ++ c :: rest') :
    before = before' ∧ rest = rest' := by
  induction before generalizing before' with
  | nil =>
    cases before' with
    | nil => exact ⟨rfl, (List.cons.inj h).2⟩
    | cons d before' => exact absurd ((List.cons.inj h).1 ▸ List.mem_cons_self) hc'
  | cons d before ih =>
    cases before' with
    | nil => exact absurd ((List.cons.inj h).1 ▸ List.mem_cons_self) hc
    | cons d' before' =>
      obtain ⟨rfl, htail⟩ := List.cons.inj h
      obtain ⟨rfl, hrest⟩ := ih (fun hmem => hc (List.mem_cons_of_mem d hmem))
        (fun hmem => hc' (List.mem_cons_of_mem d hmem)) htail
      exact ⟨rfl, hrest⟩

/-- Pieces are told by what they come to, joined, when none is empty or holds the first character of
the separator. -/
theorem eq_of_intercalate_eq {c : Char} {sep : List Char} {ps qs : List (List Char)}
    (hps : ∀ p ∈ ps, p ≠ [] ∧ c ∉ p) (hqs : ∀ q ∈ qs, q ≠ [] ∧ c ∉ q)
    (h : (c :: sep).intercalate ps = (c :: sep).intercalate qs) : ps = qs := by
  have hcons : ∀ p ps, (c :: sep).intercalate (p :: ps) = p ++ ps.flatMap (c :: sep ++ ·) := by
    intro p ps
    exact intercalate_append_cons (c :: sep) [] p ps
  induction ps generalizing qs with
  | nil =>
    cases qs with
    | nil => rfl
    | cons q qs =>
      rw [hcons] at h
      exact absurd (List.append_eq_nil_iff.mp h.symm).1 (hqs q List.mem_cons_self).1
  | cons p ps ih =>
    rw [List.forall_mem_cons] at hps
    cases qs with
    | nil =>
      rw [hcons] at h
      exact absurd (List.append_eq_nil_iff.mp h).1 hps.1.1
    | cons q qs =>
      rw [List.forall_mem_cons] at hqs
      cases ps <;> cases qs
      · simpa using h
      · rw [List.intercalate_singleton, List.intercalate_cons_cons] at h
        exact absurd (h ▸ by simp) hps.1.2
      · rw [List.intercalate_singleton, List.intercalate_cons_cons] at h
        exact absurd (h ▸ by simp) hqs.1.2
      · rw [List.intercalate_cons_cons, List.intercalate_cons_cons, List.append_assoc,
          List.append_assoc] at h
        obtain ⟨rfl, hrest⟩ := eq_of_append_cons_eq hps.1.2 hqs.1.2 h
        rw [ih hps.2 hqs.2 (List.append_cancel_left hrest)]

/-- What follows the last separator goes to the last piece. -/
theorem splitOn_append {c : Char} {text tail last : List Char} {init : List (List Char)}
    (h : text.splitOn c = init ++ [last]) (htail : c ∉ tail) :
    (text ++ tail).splitOn c = init ++ [last ++ tail] := by
  have hpieces : ∀ p ∈ init ++ [last], c ∉ p := fun p hp => not_mem_of_mem_splitOn (h ▸ hp)
  have htext : text ++ tail = [c].intercalate (init ++ [last ++ tail]) := by
    rw [intercalate_concat, ← List.append_assoc, ← intercalate_concat, ← h,
      List.intercalate_splitOn]
  rw [htext]
  refine List.splitOn_intercalate c (fun p hp => ?_) (by simp)
  rcases List.mem_append.mp hp with hp | hp
  · exact hpieces p (List.mem_append_left _ hp)
  · rw [List.mem_singleton.mp hp, List.mem_append, not_or]
    exact ⟨hpieces last (List.mem_append_right _ (List.mem_singleton_self last)), htail⟩

/-! ## Blocks -/

/-- Blocks put together again, an empty line between each two. -/
def unblocks (bs : List (List Char)) : List Char := ['\n', '\n'].intercalate bs

/-- A block that stays one piece between empty lines: it has no empty line within it and no line
feed at its end that would go with the next one. It has no carriage return either, so its line ends
are left alone. -/
structure IsBlock (b : List Char) : Prop where
  noEmptyLine : ¬ ['\n', '\n'] <:+: b
  noLineFeedLast : b.getLast? ≠ some '\n'
  noReturn : '\r' ∉ b

theorem blocks_cons {c : Char} {text : List Char} (h : c = '\n' → text.head? ≠ some '\n') :
    blocks (c :: text) = consFirst c (blocks text) := by
  rw [blocks.eq_def]
  split
  · next heq => cases heq
  · next rest heq =>
    obtain ⟨rfl, rfl⟩ := List.cons.inj heq
    exact absurd rfl (h rfl)
  · next heq =>
    cases heq
    rfl

/-- A block takes its characters in front of whatever the rest of the text is cut into. -/
theorem blocks_append {b text first : List Char} {rest : List (List Char)}
    (hempty : ¬ ['\n', '\n'] <:+: b)
    (hlast : b.getLast? = some '\n' → text.head? ≠ some '\n')
    (h : blocks text = first :: rest) : blocks (b ++ text) = (b ++ first) :: rest := by
  induction b with
  | nil => exact h
  | cons c b ih =>
    have hinfix : ¬ ['\n', '\n'] <:+: b := fun hb => hempty (List.infix_cons hb)
    have hhead : c = '\n' → (b ++ text).head? ≠ some '\n' := by
      rintro rfl hb
      cases b with
      | nil => exact hlast rfl hb
      | cons d b =>
        cases hb
        exact hempty ⟨[], b, rfl⟩
    have hlast' : b.getLast? = some '\n' → text.head? ≠ some '\n' := by
      intro hb
      cases b with
      | nil => cases hb
      | cons d b => exact hlast (by rwa [List.getLast?_cons_cons])
    rw [List.cons_append, blocks_cons hhead, ih hinfix hlast']
    rfl

theorem blocks_of_isBlock {b : List Char} (h : IsBlock b) : blocks b = [b] := by
  have hnil : blocks (b ++ []) = [b ++ []] := blocks_append h.noEmptyLine (fun _ => by simp) rfl
  rwa [List.append_nil] at hnil

/-- Cutting undoes joining. -/
theorem blocks_unblocks {bs : List (List Char)} (hne : bs ≠ []) (h : ∀ b ∈ bs, IsBlock b) :
    blocks (unblocks bs) = bs := by
  induction bs with
  | nil => exact absurd rfl hne
  | cons b bs ih =>
    have hb := h b List.mem_cons_self
    cases bs with
    | nil =>
      rw [unblocks, List.intercalate_singleton]
      exact blocks_of_isBlock hb
    | cons b' bs =>
      have hrest := ih (List.cons_ne_nil b' bs) fun c hc => h c (List.mem_cons_of_mem b hc)
      rw [unblocks, List.intercalate_cons_cons, List.append_assoc]
      have htext : blocks ('\n' :: '\n' :: unblocks (b' :: bs)) = [] :: b' :: bs := by
        rw [blocks, hrest]
      have hwhole := blocks_append hb.noEmptyLine (fun hl => absurd hl hb.noLineFeedLast) htext
      rwa [List.append_nil] at hwhole

/-- Without carriage returns the line ends of a text stay as they are. -/
theorem joinLineEnds_eq_self {text : List Char} (h : '\r' ∉ text) : joinLineEnds text = text := by
  induction text with
  | nil => rfl
  | cons c text ih =>
    have hc : c ≠ '\r' := fun hc => h (hc ▸ List.mem_cons_self)
    rw [joinLineEnds.eq_def]
    split
    · next heq => cases heq
    · next heq => exact absurd (List.cons.inj heq).1 hc
    · next heq =>
      cases heq
      rw [ih fun hmem => h (List.mem_cons_of_mem c hmem)]

theorem not_mem_unblocks {bs : List (List Char)} (h : ∀ b ∈ bs, IsBlock b) :
    '\r' ∉ unblocks bs := by
  intro hmem
  rcases mem_intercalate hmem with hsep | ⟨b, hb, hc⟩
  · simp at hsep
  · exact (h b hb).noReturn hc

/-! ## Where a mark occurs -/

theorem after?_isSome_iff {mark text : List Char} :
    (after? mark text).isSome = true ↔ mark <+: text := by
  rw [Option.isSome_iff_exists]
  constructor
  · rintro ⟨rest, h⟩
    exact ⟨rest, (after?_eq_some_iff.mp h).symm⟩
  · rintro ⟨rest, h⟩
    exact ⟨rest, after?_eq_some_iff.mpr h.symm⟩

theorem after?_eq_none_iff {mark text : List Char} : after? mark text = none ↔ ¬ mark <+: text := by
  rw [← after?_isSome_iff, Option.not_isSome_iff_eq_none]

theorem contains_iff_isInfix {mark text : List Char} :
    contains mark text = true ↔ mark <:+: text := by
  induction text with
  | nil =>
    rw [contains, cut?, Option.isSome_map, after?_isSome_iff, List.prefix_nil, List.infix_nil]
  | cons c text ih =>
    rw [List.infix_cons_iff, ← ih, contains, cut?]
    split
    · next rest h =>
      have hstart : mark <+: c :: text := after?_isSome_iff.mp (h ▸ rfl)
      simp [hstart]
    · next h =>
      have hstart : ¬ mark <+: c :: text := after?_eq_none_iff.mp h
      rw [Option.isSome_map]
      simp [hstart, contains]

theorem contains_eq_false_iff {mark text : List Char} :
    contains mark text = false ↔ ¬ mark <:+: text := by
  rw [← contains_iff_isInfix, Bool.not_eq_true]

/-- The first occurrence of a mark is found when none begins before it; one that does begin before
it would end before the mark's last character. -/
theorem cut?_append {mark before : List Char} (rest : List Char)
    (h : ¬ mark <:+: before ++ mark.dropLast) :
    cut? mark (before ++ (mark ++ rest)) = some (before, rest) := by
  induction before with
  | nil =>
    have hafter : after? mark (mark ++ rest) = some rest := after?_eq_some_iff.mpr rfl
    rw [List.nil_append]
    cases htext : mark ++ rest with
    | nil =>
      rw [htext] at hafter
      rw [cut?, hafter]
      rfl
    | cons c text =>
      rw [htext] at hafter
      rw [cut?, hafter]
  | cons c before ih =>
    have hstart : ¬ mark <+: c :: (before ++ (mark ++ rest)) := by
      intro hp
      have hshort : c :: (before ++ mark.dropLast) <+: c :: (before ++ (mark ++ rest)) := by
        rw [List.cons_prefix_cons]
        exact ⟨rfl, (List.prefix_append_right_inj before).mpr
          ((List.dropLast_prefix mark).trans (List.prefix_append mark rest))⟩
      have hlength : mark.length ≤ (c :: (before ++ mark.dropLast)).length := by
        simp only [List.length_cons, List.length_append, List.length_dropLast]
        omega
      exact h (List.prefix_of_prefix_length_le hp hshort hlength).isInfix
    have hinfix : ¬ mark <:+: before ++ mark.dropLast := fun hi => h (List.infix_cons hi)
    rw [List.cons_append, cut?, after?_eq_none_iff.mpr hstart, ih hinfix]
    rfl

/-- The first occurrence of a character is found. -/
theorem cut?_append_cons {c : Char} {before : List Char} (h : c ∉ before) (rest : List Char) :
    cut? [c] (before ++ c :: rest) = some (before, rest) := by
  have hinfix : ¬ [c] <:+: before ++ [c].dropLast := by
    rw [List.dropLast_singleton, List.append_nil]
    exact fun hi => h (hi.subset List.mem_cons_self)
  exact cut?_append rest hinfix

theorem prefix_of_prefix_append_cons {mark before rest : List Char} {c : Char} (hc : c ∉ mark)
    (h : mark <+: before ++ c :: rest) : mark <+: before := by
  rcases List.prefix_or_prefix_of_prefix h (List.prefix_append before (c :: rest)) with hp | hp
  · exact hp
  · obtain ⟨more, rfl⟩ := hp
    cases more with
    | nil => simp
    | cons d more =>
      have hd := (List.prefix_append_right_inj before).mp h
      obtain rfl := (List.cons_prefix_cons.mp hd).1
      simp at hc

/-- A mark without the character `c` does not reach across it. -/
theorem contains_append_cons {mark : List Char} {c : Char} (hc : c ∉ mark)
    (before rest : List Char) :
    contains mark (before ++ c :: rest) = (contains mark before || contains mark rest) := by
  have hiff : mark <:+: before ++ c :: rest ↔ mark <:+: before ∨ mark <:+: rest := by
    constructor
    · intro h
      induction before with
      | nil =>
        rcases List.infix_cons_iff.mp h with hp | hi
        · have hnil : mark <+: [] := prefix_of_prefix_append_cons hc hp
          exact Or.inl hnil.isInfix
        · exact Or.inr hi
      | cons d before ih =>
        rcases List.infix_cons_iff.mp h with hp | hi
        · have hbefore : mark <+: d :: before := prefix_of_prefix_append_cons hc hp
          exact Or.inl hbefore.isInfix
        · rcases ih hi with h | h
          · exact Or.inl (List.infix_cons h)
          · exact Or.inr h
    · rintro (h | h)
      · exact h.trans (List.prefix_append before (c :: rest)).isInfix
      · exact h.trans ((List.suffix_cons c rest).trans (List.suffix_append before _)).isInfix
  rw [Bool.eq_iff_iff, Bool.or_eq_true, contains_iff_isInfix, contains_iff_isInfix,
    contains_iff_isInfix, hiff]

theorem isBlock_iff {b : List Char} :
    IsBlock b ↔ contains ['\n', '\n'] b = false ∧ b.getLast? ≠ some '\n' ∧ '\r' ∉ b := by
  rw [contains_eq_false_iff]
  exact ⟨fun h => ⟨h.noEmptyLine, h.noLineFeedLast, h.noReturn⟩,
    fun ⟨hempty, hlast, hreturn⟩ => ⟨hempty, hlast, hreturn⟩⟩

instance (b : List Char) : Decidable (IsBlock b) := decidable_of_iff' _ isBlock_iff

/-- A mark does not occur in a text that lacks one of its characters. -/
theorem contains_eq_false_of_not_mem {mark text : List Char} {c : Char} (hmark : c ∈ mark)
    (htext : c ∉ text) : contains mark text = false :=
  contains_eq_false_iff.mpr fun h => htext (h.subset hmark)

theorem contains_cons_of_ne {m c : Char} (h : c ≠ m) (mark text : List Char) :
    contains (m :: mark) (c :: text) = contains (m :: mark) text := by
  have hafter : after? (m :: mark) (c :: text) = none := if_neg h
  rw [contains, cut?, hafter]
  exact Option.isSome_map

/-- A mark occurs in pieces with `a` and `b` behind each only where it occurs in one of them or in
what follows them all, if it has no `a` in it and does not begin with `b`. -/
theorem contains_flatMap_append {m a b : Char} {mark : List Char} (ha : a ∉ m :: mark) (hb : b ≠ m)
    (ps : List (List Char)) (rest : List Char) :
    contains (m :: mark) (ps.flatMap (· ++ [a, b]) ++ rest) =
      (ps.any (contains (m :: mark)) || contains (m :: mark) rest) := by
  induction ps with
  | nil => rfl
  | cons p ps ih =>
    have hjoin : (p :: ps).flatMap (· ++ [a, b]) ++ rest =
        p ++ a :: b :: (ps.flatMap (· ++ [a, b]) ++ rest) := by
      simp
    rw [hjoin, contains_append_cons ha, contains_cons_of_ne hb, ih, List.any_cons, Bool.or_assoc]

/-- Where a character occurs once, a mark that has it can stand in one place only. -/
theorem suffix_of_infix_append_cons {key rest before behind : List Char} {c : Char} (hkey : c ∉ key)
    (hrest : c ∉ rest) (h : before ++ c :: behind <:+: key ++ c :: rest) : before <:+ key := by
  obtain ⟨s, t, heq⟩ := h
  have hsplit : key ++ c :: rest = (s ++ before) ++ c :: (behind ++ t) := by
    rw [← heq]
    simp
  have hinj := (List.append_cons_inj_of_notMem hkey hrest).mp hsplit
  exact ⟨s, hinj.1.symm⟩

/-- A mark with `c` in it, in a text cut at its first `c`: it stands around that one or behind. -/
theorem infix_append_cons_iff {c : Char} {key more before rest : List Char} (hkey : c ∉ key)
    (hbefore : c ∉ before) :
    key ++ c :: more <:+: before ++ c :: rest ↔
      key <:+ before ∧ more <+: rest ∨ key ++ c :: more <:+: rest := by
  constructor
  · rintro ⟨s, t, heq⟩
    by_cases hs : c ∈ s
    · obtain ⟨s₁, s₂, rfl, hs₁⟩ := List.eq_append_cons_of_mem hs
      have hsplit : s₁ ++ c :: (s₂ ++ (key ++ c :: more) ++ t) = before ++ c :: rest := by
        rw [← heq]
        simp
      exact Or.inr ⟨s₂, t, (eq_of_append_cons_eq hs₁ hbefore hsplit).2⟩
    · have hsplit : (s ++ key) ++ c :: (more ++ t) = before ++ c :: rest := by
        rw [← heq]
        simp
      obtain ⟨hkeys, hrest⟩ := eq_of_append_cons_eq (List.not_mem_append hs hkey) hbefore hsplit
      exact Or.inl ⟨⟨s, hkeys⟩, ⟨t, hrest⟩⟩
  · rintro (⟨⟨s, rfl⟩, ⟨t, rfl⟩⟩ | h)
    · exact ⟨s, t, by simp⟩
    · exact h.trans ((List.suffix_cons c rest).trans (List.suffix_append before _)).isInfix

/-- In front of where a mark is found it does not begin. -/
theorem not_infix_of_cut? {mark text before rest : List Char} (hmark : mark ≠ [])
    (h : cut? mark text = some (before, rest)) : ¬ mark <:+: before ++ mark.dropLast := by
  have hshort : ¬ mark <:+: mark.dropLast := by
    intro hi
    have hle := hi.length_le
    have hpos := List.length_pos_iff.mpr hmark
    rw [List.length_dropLast] at hle
    omega
  induction text generalizing before with
  | nil =>
    rw [cut?, Option.map_eq_some_iff] at h
    obtain ⟨_, -, heq⟩ := h
    cases heq
    exact hshort
  | cons c text ih =>
    have htext := eq_of_cut? h
    rw [cut?] at h
    split at h
    · cases h
      exact hshort
    · next hnone =>
      simp only [Option.map_eq_some_iff, Prod.mk.injEq, Prod.exists] at h
      obtain ⟨b, r, hcut, rfl, rfl⟩ := h
      rw [List.cons_append, List.infix_cons_iff, not_or]
      refine ⟨fun hp => after?_eq_none_iff.mp hnone (hp.trans ?_), ih hcut⟩
      rw [htext, ← List.cons_append, List.append_assoc]
      exact (List.prefix_append_right_inj (c :: b)).mpr
        ((List.dropLast_prefix mark).trans (List.prefix_append mark r))

end CompanyRegister.Text
