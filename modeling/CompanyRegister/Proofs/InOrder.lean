import Mathlib.Data.List.Forall2

/-!
# Reading in order

A list is read one element after the other, and the first that cannot be read ends it.
`ReadsInOrder` says what either comes to, without a word of how the reader goes about it.
`FailsOnly` says of what kind the faults of a step are, and holds of steps that are made of others
if it holds of these. What a step preserves is preserved by any number of steps
(`foldlM_induction`), and two runs of steps that go side by side come to the same (`Parallel`).
-/

namespace CompanyRegister

variable {α β ε : Type} {read : α → Except ε β}

/-- A step that succeeds has been made of two that do. -/
theorem exists_of_bind_eq_ok {x : Except ε α} {next : α → Except ε β} {b : β}
    (h : x >>= next = .ok b) : ∃ a, x = .ok a ∧ next a = .ok b := by
  cases x with
  | error e => cases h
  | ok a => exact ⟨a, rfl, h⟩

theorem map_eq_error_iff {x : Except ε α} {f : α → β} {e : ε} :
    x.map f = .error e ↔ x = .error e := by
  cases x <;> simp [Except.map]

/-! ## Kinds of faults -/

/-- Whether all faults that a step can fail with are of a kind. -/
def FailsOnly (kind : ε → Prop) (x : Except ε α) : Prop := ∀ e, x = .error e → kind e

namespace FailsOnly

variable {δ γ : Type} {kind : ε → Prop} {x : Except ε α}

theorem ok (a : α) : FailsOnly kind (.ok a) := nofun

theorem error {e : ε} (h : kind e) : FailsOnly kind (.error e : Except ε α) := by
  rintro _ ⟨⟩
  exact h

theorem bind (hx : FailsOnly kind x) {next : α → Except ε γ}
    (hnext : ∀ a, x = .ok a → FailsOnly kind (next a)) : FailsOnly kind (x >>= next) := by
  cases x with
  | error e => exact error (hx e rfl)
  | ok a => exact hnext a rfl

theorem map (hx : FailsOnly kind x) (f : α → γ) : FailsOnly kind (x.map f) := by
  cases x with
  | error e => exact error (hx e rfl)
  | ok a => exact ok (f a)

theorem mapError {kind' : δ → Prop} (hx : FailsOnly kind x) {f : ε → δ}
    (hf : ∀ e, kind e → kind' (f e)) : FailsOnly kind' (x.mapError f) := by
  cases x with
  | error e => exact error (hf e (hx e rfl))
  | ok a => exact ok a

theorem mono {kind' : ε → Prop} (hx : FailsOnly kind x) (h : ∀ e, kind e → kind' e) :
    FailsOnly kind' x := fun e he => h e (hx e he)

end FailsOnly

/-! ## Steps one after the other -/

section Steps

variable {σ : Type} {step : σ → α → Except ε σ}

/-- What each step preserves is preserved by all of them. -/
theorem foldlM_induction {P : σ → Prop} (hstep : ∀ s x t, P s → step s x = .ok t → P t)
    {xs : List α} {s t : σ} (hs : P s) (h : xs.foldlM step s = .ok t) : P t := by
  induction xs generalizing s with
  | nil =>
    cases h
    exact hs
  | cons x xs ih =>
    rw [List.foldlM_cons] at h
    obtain ⟨u, hu, h⟩ := exists_of_bind_eq_ok h
    exact ih (hstep s x u hs hu) h

theorem FailsOnly.foldlM {kind : ε → Prop} (hstep : ∀ s x, FailsOnly kind (step s x))
    (xs : List α) (s : σ) : FailsOnly kind (xs.foldlM step s) := by
  induction xs generalizing s with
  | nil => exact .ok s
  | cons x xs ih =>
    rw [List.foldlM_cons]
    exact (hstep s x).bind fun t _ => ih t

end Steps

/-! ## Steps side by side -/

/-- Two steps came to the same: one fault, or results that are related. -/
inductive Parallel (related : α → β → Prop) : Except ε α → Except ε β → Prop
  | error (e : ε) : Parallel related (.error e) (.error e)
  | ok {a : α} {b : β} : related a b → Parallel related (.ok a) (.ok b)

namespace Parallel

variable {γ δ σ τ : Type} {related : α → β → Prop} {related' : γ → δ → Prop} {x : Except ε α}
  {y : Except ε β}

theorem bind (h : Parallel related x y) {next : α → Except ε γ} {next' : β → Except ε δ}
    (hnext : ∀ a b, related a b → Parallel related' (next a) (next' b)) :
    Parallel related' (x >>= next) (y >>= next') := by
  cases h with
  | error e => exact .error e
  | ok hab => exact hnext _ _ hab

/-- The same step in front of both. -/
theorem after (x : Except ε α) {next : α → Except ε γ} {next' : α → Except ε δ}
    (h : ∀ a, Parallel related' (next a) (next' a)) :
    Parallel related' (x >>= next) (x >>= next') := by
  cases x with
  | error e => exact .error e
  | ok a => exact h a

theorem map (h : Parallel related x y) {f : α → γ} {g : β → δ}
    (hmap : ∀ a b, related a b → related' (f a) (g b)) : Parallel related' (x.map f) (y.map g) := by
  cases h with
  | error e => exact .error e
  | ok hab => exact .ok (hmap _ _ hab)

theorem foldlM {related : σ → τ → Prop} {step : σ → α → Except ε σ} {step' : τ → α → Except ε τ}
    (hstep : ∀ s t a, related s t → Parallel related (step s a) (step' t a)) (xs : List α) {s : σ}
    {t : τ} (h : related s t) : Parallel related (xs.foldlM step s) (xs.foldlM step' t) := by
  induction xs generalizing s t with
  | nil => exact .ok h
  | cons a xs ih =>
    rw [List.foldlM_cons, List.foldlM_cons]
    exact (hstep s t a h).bind fun _ _ => ih

end Parallel

/-! ## Reading lists -/

/-- What reading a list comes to. -/
inductive ReadsInOrder (read : α → Except ε β) : List α → Except ε (List β) → Prop
  | all {xs : List α} {ys : List β} :
      List.Forall₂ (fun x y => read x = .ok y) xs ys → ReadsInOrder read xs (.ok ys)
  /-- An element cannot be read, and all before it can. -/
  | stopped {before after : List α} {x : α} {ys : List β} {e : ε} :
      List.Forall₂ (fun x y => read x = .ok y) before ys → read x = .error e →
        ReadsInOrder read (before ++ x :: after) (.error e)

theorem mapM_cons_eq (x : α) (xs : List α) :
    (x :: xs).mapM read = (read x).bind fun y => (xs.mapM read).map (y :: ·) := by
  rw [List.mapM_cons]
  cases read x with
  | error e => rfl
  | ok y => cases xs.mapM read <;> rfl

theorem mapM_eq_ok_iff {xs : List α} {ys : List β} :
    xs.mapM read = .ok ys ↔ List.Forall₂ (fun x y => read x = .ok y) xs ys := by
  induction xs generalizing ys with
  | nil =>
    rw [List.mapM_nil, List.forall₂_nil_left_iff]
    constructor
    · intro h
      cases h
      rfl
    · rintro rfl
      rfl
  | cons x xs ih =>
    rw [mapM_cons_eq, List.forall₂_cons_left_iff]
    constructor
    · intro h
      cases hx : read x with
      | error e =>
        rw [hx] at h
        cases h
      | ok y =>
        rw [hx] at h
        cases hxs : xs.mapM read with
        | error e =>
          rw [hxs] at h
          cases h
        | ok zs =>
          rw [hxs] at h
          cases h
          exact ⟨y, zs, rfl, ih.mp hxs, rfl⟩
    · rintro ⟨y, zs, hy, hzs, rfl⟩
      rw [hy, ih.mpr hzs]
      rfl

/-- If each element is read as another reader reads it and then changed, so are all of them. -/
theorem mapM_eq_map {other : α → Except ε β} {f : β → β}
    (h : ∀ x, other x = (read x).map f) (xs : List α) :
    xs.mapM other = (xs.mapM read).map (List.map f) := by
  induction xs with
  | nil => rfl
  | cons x xs ih =>
    rw [mapM_cons_eq, mapM_cons_eq, ih, h]
    cases read x with
    | error e => rfl
    | ok y => cases xs.mapM read <;> rfl

/-- What has been read has been read from some element. -/
theorem exists_of_mem_mapM {xs : List α} {ys : List β} (h : xs.mapM read = .ok ys) {y : β}
    (hy : y ∈ ys) : ∃ x ∈ xs, read x = .ok y := by
  have hall := mapM_eq_ok_iff.mp h
  clear h
  induction hall with
  | nil => cases hy
  | @cons x _ xs _ hx _ ih =>
    rcases List.mem_cons.mp hy with rfl | hy
    · exact ⟨x, List.mem_cons_self, hx⟩
    · obtain ⟨x', hx', hread⟩ := ih hy
      exact ⟨x', List.mem_cons_of_mem x hx', hread⟩

/-- If a list has been read, all its elements have. -/
theorem exists_of_mapM_of_mem {xs : List α} {ys : List β} (h : xs.mapM read = .ok ys) {x : α}
    (hx : x ∈ xs) : ∃ y, read x = .ok y := by
  have hall := mapM_eq_ok_iff.mp h
  clear h
  induction hall with
  | nil => cases hx
  | cons hread _ ih =>
    rcases List.mem_cons.mp hx with rfl | hx
    · exact ⟨_, hread⟩
    · exact ih hx

theorem FailsOnly.mapM {kind : ε → Prop} (hread : ∀ x, FailsOnly kind (read x)) (xs : List α) :
    FailsOnly kind (xs.mapM read) := by
  induction xs with
  | nil => exact .ok []
  | cons x xs ih =>
    rw [mapM_cons_eq]
    exact (hread x).bind fun y _ => ih.map (y :: ·)

theorem readsInOrder_mapM (read : α → Except ε β) (xs : List α) :
    ReadsInOrder read xs (xs.mapM read) := by
  induction xs with
  | nil => exact .all .nil
  | cons x xs ih =>
    rw [mapM_cons_eq]
    cases hx : read x with
    | error e =>
      have hnone : List.Forall₂ (fun x y => read x = .ok y) [] [] := .nil
      exact .stopped hnone hx
    | ok y =>
      generalize xs.mapM read = answer at ih
      cases ih with
      | all h => exact .all (.cons hx h)
      | stopped h he =>
        have hbefore : List.Forall₂ (fun x y => read x = .ok y) (x :: _) (y :: _) := .cons hx h
        exact .stopped hbefore he

end CompanyRegister
