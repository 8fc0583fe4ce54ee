import CompanyRegister.Proofs.Text.Pieces

/-!
# Blocks of lines

A text is cut into blocks at two consecutive line feeds. On its lines that is a cut at empty lines
(`lineBlocks`, `blocks_unlines`): an empty line with a line behind it ends a block and is left out,
and the cut goes on with the line behind. So of two empty lines the first is left out and the second
begins a block, and an empty line at the very end stays where it is.

Lines of which none is empty stay together (`exists_lineBlocks_append`), and they go with what
stands behind them (`lineBlocks_append`) unless that ends the block (`lineBlocks_append_nil_cons`).
-/

namespace CompanyRegister.Text

/-- The blocks of a text, each as its lines. -/
def lineBlocks : List (List Char) → List (List (List Char))
  | [] => [[]]
  | l :: [] :: l' :: ls => [l] :: lineBlocks (l' :: ls)
  | l :: ls => (lineBlocks ls).modifyHead (l :: ·)

/-- Whether lines begin with what ends a block: an empty line with another line behind it. -/
def endsBlock : List (List Char) → Bool
  | [] :: _ :: _ => true
  | _ => false

theorem endsBlock_cons {l : List Char} (h : l ≠ []) (ls : List (List Char)) :
    endsBlock (l :: ls) = false := by
  cases l with
  | nil => exact absurd rfl h
  | cons c l => rfl

theorem unlines_singleton (l : List Char) : unlines [l] = l := List.intercalate_singleton

theorem unlines_cons (l : List Char) {ls : List (List Char)} (hne : ls ≠ []) :
    unlines (l :: ls) = l ++ '\n' :: unlines ls := by
  rw [unlines, List.intercalate_cons_of_ne_nil hne, List.append_assoc]
  rfl

theorem unlines_append {ls xs : List (List Char)} (hls : ls ≠ []) (hxs : xs ≠ []) :
    unlines (ls ++ xs) = unlines ls ++ '\n' :: unlines xs := by
  induction ls with
  | nil => exact absurd rfl hls
  | cons l ls ih =>
    cases ls with
    | nil => rw [List.singleton_append, unlines_cons l hxs, unlines_singleton]
    | cons l' ls =>
      rw [List.cons_append, unlines_cons l (by simp), ih (List.cons_ne_nil l' ls),
        unlines_cons l (List.cons_ne_nil l' ls), List.append_assoc, List.cons_append]

theorem lineBlocks_cons {l : List Char} {ls : List (List Char)} (h : endsBlock ls = false) :
    lineBlocks (l :: ls) = (lineBlocks ls).modifyHead (l :: ·) := by
  rw [lineBlocks.eq_def]
  split
  · next heq => cases heq
  · next heq =>
    cases heq
    cases h
  · next heq =>
    cases heq
    rfl

theorem lineBlocks_ne_nil (ls : List (List Char)) : lineBlocks ls ≠ [] := by
  fun_induction lineBlocks ls with
  | case1 => exact List.cons_ne_nil _ _
  | case2 l l' ls ih => exact List.cons_ne_nil _ _
  | case3 l ls hends ih => rwa [ne_eq, List.modifyHead_eq_nil_iff]

/-- The first line begins the first block. -/
theorem exists_lineBlocks_cons (l : List Char) (ls : List (List Char)) :
    ∃ first rest, lineBlocks (l :: ls) = (l :: first) :: rest := by
  rw [lineBlocks.eq_def]
  split
  · next heq => cases heq
  · next heq =>
    cases heq
    exact ⟨[], _, rfl⟩
  · next heq =>
    cases heq
    obtain ⟨first, rest, hrest⟩ := List.exists_cons_of_ne_nil (lineBlocks_ne_nil ls)
    exact ⟨first, rest, by rw [hrest, List.modifyHead_cons]⟩

theorem mem_of_mem_lineBlocks {ls : List (List Char)} :
    ∀ b ∈ lineBlocks ls, ∀ l ∈ b, l ∈ ls := by
  fun_induction lineBlocks ls with
  | case1 => simp
  | case2 l l' ls ih =>
    rw [List.forall_mem_cons]
    refine ⟨fun l hl => ?_, fun b hb l hl => ?_⟩
    · exact List.mem_cons.mpr (Or.inl (List.mem_singleton.mp hl))
    · exact List.mem_cons_of_mem _ (List.mem_cons_of_mem _ (ih b hb l hl))
  | case3 l ls hends ih =>
    obtain ⟨first, rest, hrest⟩ := List.exists_cons_of_ne_nil (lineBlocks_ne_nil ls)
    rw [hrest, List.forall_mem_cons] at ih
    rw [hrest, List.modifyHead_cons, List.forall_mem_cons, List.forall_mem_cons]
    refine ⟨⟨List.mem_cons_self, fun l' hl' => ?_⟩, fun b hb l' hl' => ?_⟩
    · exact List.mem_cons_of_mem l (ih.1 l' hl')
    · exact List.mem_cons_of_mem l (ih.2 b hb l' hl')

/-! ## Cutting a text -/

theorem blocks_append_of_oneLine {l text first : List Char} {rest : List (List Char)}
    (hl : '\n' ∉ l) (h : blocks text = first :: rest) : blocks (l ++ text) = (l ++ first) :: rest :=
  blocks_append (fun hcut => hl (hcut.subset List.mem_cons_self))
    (fun hlast => absurd (List.mem_of_getLast? hlast) hl) h

/-- Only an empty line begins with a line feed. -/
theorem head?_unlines {ls : List (List Char)} (h : ∀ l ∈ ls, '\n' ∉ l)
    (hends : endsBlock ls = false) :
    (unlines ls).head? ≠ some '\n' := by
  match ls with
  | [] => simp [unlines]
  | [l] =>
    rw [unlines_singleton]
    exact fun hhead => h l List.mem_cons_self (List.mem_of_head? hhead)
  | [] :: _ :: _ => cases hends
  | (c :: l) :: l' :: ls =>
    rw [unlines_cons _ (List.cons_ne_nil l' ls)]
    exact fun hhead => h (c :: l) List.mem_cons_self
      (List.mem_cons.mpr (Or.inl (Option.some.inj hhead).symm))

/-- Cutting a text is cutting its lines. -/
theorem blocks_unlines {ls : List (List Char)} (h : ∀ l ∈ ls, '\n' ∉ l) :
    blocks (unlines ls) = (lineBlocks ls).map unlines := by
  fun_induction lineBlocks ls with
  | case1 => rfl
  | case2 l l' ls ih =>
    simp only [List.forall_mem_cons] at h
    have hempty : blocks ('\n' :: '\n' :: unlines (l' :: ls)) =
        [] :: blocks (unlines (l' :: ls)) := by
      rw [blocks]
    rw [unlines_cons l (by simp), unlines_cons [] (by simp), List.nil_append,
      blocks_append_of_oneLine h.1 hempty, ih (List.forall_mem_cons.mpr h.2.2), List.append_nil,
      List.map_cons, unlines_singleton]
  | case3 l ls hends ih =>
    rw [List.forall_mem_cons] at h
    cases ls with
    | nil =>
      have hl : blocks (l ++ []) = [l ++ []] := blocks_append_of_oneLine h.1 rfl
      rwa [List.append_nil, ← unlines_singleton l] at hl
    | cons l' ls =>
      have hhead : (unlines (l' :: ls)).head? ≠ some '\n' := by
        refine head?_unlines h.2 ?_
        cases l' with
        | nil =>
          cases ls with
          | nil => rfl
          | cons l'' ls => exact absurd rfl (hends l'' ls)
        | cons c l' => rfl
      obtain ⟨first, rest, hrest⟩ := exists_lineBlocks_cons l' ls
      -- The line feed behind `l` is the first of no two, so it goes with the block behind it.
      have hnewline : blocks ('\n' :: unlines (l' :: ls)) =
          ('\n' :: unlines (l' :: first)) :: rest.map unlines := by
        rw [blocks_cons fun _ => hhead, ih h.2, hrest]
        rfl
      rw [unlines_cons l (by simp), blocks_append_of_oneLine h.1 hnewline, hrest,
        List.modifyHead_cons, List.map_cons, unlines_cons l (by simp)]

theorem lineBlocks_cons_nil (l : List Char) {xs : List (List Char)} (hxs : xs ≠ []) :
    lineBlocks (l :: [] :: xs) = [l] :: lineBlocks xs := by
  cases xs with
  | nil => exact absurd rfl hxs
  | cons x xs => rfl

/-! ## Lines of which none is empty -/

section

variable {ls xs : List (List Char)}

theorem endsBlock_append (hls : [] ∉ ls) (hxs : endsBlock xs = false) :
    endsBlock (ls ++ xs) = false := by
  cases ls with
  | nil => exact hxs
  | cons l ls => exact endsBlock_cons (fun hl => hls (hl ▸ List.mem_cons_self)) _

/-- They go with what stands behind them. -/
theorem lineBlocks_append (hls : [] ∉ ls) (hxs : endsBlock xs = false) :
    lineBlocks (ls ++ xs) = (lineBlocks xs).modifyHead (ls ++ ·) := by
  induction ls with
  | nil => cases hblocks : lineBlocks xs <;> simp [hblocks]
  | cons l ls ih =>
    rw [List.mem_cons, not_or] at hls
    rw [List.cons_append, lineBlocks_cons (endsBlock_append hls.2 hxs), ih hls.2,
      List.modifyHead_modifyHead]
    rfl

/-- An empty line with another one behind it ends their block. -/
theorem lineBlocks_append_nil_cons (hne : ls ≠ []) (hls : [] ∉ ls) (hxs : xs ≠ []) :
    lineBlocks (ls ++ [] :: xs) = ls :: lineBlocks xs := by
  obtain ⟨x, xs, rfl⟩ := List.exists_cons_of_ne_nil hxs
  induction ls with
  | nil => exact absurd rfl hne
  | cons l ls ih =>
    rw [List.mem_cons, not_or] at hls
    cases ls with
    | nil => rfl
    | cons l' ls =>
      have hl' : l' ≠ [] := fun hl' => hls.2 (hl' ▸ List.mem_cons_self)
      rw [List.cons_append, List.cons_append, lineBlocks_cons (endsBlock_cons hl' _),
        ← List.cons_append, ih (List.cons_ne_nil l' ls) hls.2, List.modifyHead_cons]

/-- They stay together. -/
theorem exists_lineBlocks_append (hne : ls ≠ []) (hls : [] ∉ ls) (xs : List (List Char)) :
    ∃ post bs, lineBlocks (ls ++ xs) = (ls ++ post) :: bs := by
  cases hends : endsBlock xs with
  | false =>
    obtain ⟨first, rest, hrest⟩ := List.exists_cons_of_ne_nil (lineBlocks_ne_nil xs)
    exact ⟨first, rest, by rw [lineBlocks_append hls hends, hrest, List.modifyHead_cons]⟩
  | true =>
    match xs, hends with
    | [] :: x :: xs, _ =>
      refine ⟨[], lineBlocks (x :: xs), ?_⟩
      rw [lineBlocks_append_nil_cons hne hls (List.cons_ne_nil x xs), List.append_nil]

/-! ## Lines between blocks -/

/-- Lines in front of one that is not empty make blocks of their own, or go with it. -/
theorem exists_lineBlocks_before (ws : List (List Char)) {x : List Char} (hx : x ≠ [])
    (xs : List (List Char)) :
    ∃ alone before, lineBlocks (ws ++ x :: xs) =
        alone ++ (lineBlocks (x :: xs)).modifyHead (before ++ ·) ∧
      (∀ b ∈ alone, ∀ l ∈ b, l ∈ ws) ∧ ∀ l ∈ before, l ∈ ws := by
  match ws with
  | [] =>
    refine ⟨[], [], ?_, by simp, by simp⟩
    cases hblocks : lineBlocks (x :: xs) <;> simp [hblocks]
  | [w] =>
    refine ⟨[], [w], ?_, by simp, by simp⟩
    rw [List.singleton_append, lineBlocks_cons (endsBlock_cons hx xs)]
    rfl
  | w :: [] :: ws =>
    obtain ⟨alone, before, hblocks, halone, hbefore⟩ := exists_lineBlocks_before ws hx xs
    refine ⟨[w] :: alone, before, ?_, ?_, ?_⟩
    · rw [List.cons_append, List.cons_append, lineBlocks_cons_nil w (by simp), hblocks]
      rfl
    · rw [List.forall_mem_cons, List.forall_mem_singleton]
      exact ⟨List.mem_cons_self, fun b hb l hl =>
        List.mem_cons_of_mem w (List.mem_cons_of_mem [] (halone b hb l hl))⟩
    · exact fun l hl => List.mem_cons_of_mem w (List.mem_cons_of_mem [] (hbefore l hl))
  | w :: (c :: w') :: ws =>
    obtain ⟨alone, before, hblocks, halone, hbefore⟩ :=
      exists_lineBlocks_before ((c :: w') :: ws) hx xs
    have hcons : lineBlocks (w :: (c :: w') :: ws ++ x :: xs) =
        (alone ++ (lineBlocks (x :: xs)).modifyHead (before ++ ·)).modifyHead (w :: ·) := by
      rw [← hblocks]
      exact lineBlocks_cons rfl
    -- `w` joins the first block of these lines alone, or goes with `x` if there is none.
    cases alone with
    | nil =>
      refine ⟨[], w :: before, ?_, by simp, ?_⟩
      · rw [hcons, List.nil_append, List.modifyHead_modifyHead]
        rfl
      · rw [List.forall_mem_cons]
        exact ⟨List.mem_cons_self, fun l hl => List.mem_cons_of_mem w (hbefore l hl)⟩
    | cons b alone =>
      rw [List.forall_mem_cons] at halone
      refine ⟨(w :: b) :: alone, before, hcons, ?_,
        fun l hl => List.mem_cons_of_mem w (hbefore l hl)⟩
      rw [List.forall_mem_cons, List.forall_mem_cons]
      exact ⟨⟨List.mem_cons_self, fun l hl => List.mem_cons_of_mem w (halone.1 l hl)⟩,
        fun b' hb' l hl => List.mem_cons_of_mem w (halone.2 b' hb' l hl)⟩

/-- Lines with an empty one among them keep apart what stands before and behind them. Up to the
empty line they go with what stands before, and behind it they make blocks of their own or go with
what stands behind. -/
theorem exists_lineBlocks_between {gap : List (List Char)} (hne : ls ≠ []) (hls : [] ∉ ls)
    (hgap : [] ∈ gap) {x : List Char} (hx : x ≠ []) (xs : List (List Char)) :
    ∃ alone before, lineBlocks (ls ++ (gap ++ x :: xs)) =
        (ls ++ gap.takeWhile (· ≠ [])) ::
          (alone ++ (lineBlocks (x :: xs)).modifyHead (before ++ ·)) ∧
      (∀ b ∈ alone, ∀ l ∈ b, l ∈ gap) ∧ ∀ l ∈ before, l ∈ gap := by
  obtain ⟨ws, ws', rfl, hws⟩ := List.eq_append_cons_of_mem hgap
  obtain ⟨alone, before, hblocks, halone, hbefore⟩ := exists_lineBlocks_before ws' hx xs
  have htake : (ws ++ [] :: ws').takeWhile (· ≠ []) = ws := by
    have hall : ∀ w ∈ ws, decide (w ≠ []) = true := by
      intro w hw
      rw [decide_eq_true_iff]
      rintro rfl
      exact hws hw
    rw [List.takeWhile_append_of_pos hall, List.takeWhile_cons_of_neg (by simp), List.append_nil]
  have hmem : ∀ l ∈ ws', l ∈ ws ++ [] :: ws' := fun l hl =>
    List.mem_append_right ws (List.mem_cons_of_mem [] hl)
  have hlines : ls ++ (ws ++ [] :: ws' ++ x :: xs) = (ls ++ ws) ++ [] :: (ws' ++ x :: xs) := by
    simp
  refine ⟨alone, before, ?_, fun b hb l hl => hmem l (halone b hb l hl),
    fun l hl => hmem l (hbefore l hl)⟩
  rw [hlines, lineBlocks_append_nil_cons (by simp [hne]) (List.not_mem_append hls hws) (by simp),
    hblocks, htake]

end

end CompanyRegister.Text
