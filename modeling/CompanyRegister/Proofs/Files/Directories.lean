import CompanyRegister.Files.Tree
import CompanyRegister.Proofs.InOrder

/-!
# Directories that have been made

Making a directory with all directories on the way to it comes to a tree in which its path leads to
a directory (`Tree.exists_directory_of_makeDirectories`). What is put where nothing was is in
nobody's way: whoever has walked through a tree walks the same way through the new one
(`Tree.walk_put`).
-/

namespace CompanyRegister.Files.Tree

variable {t t' : Tree} {l m start : Location} {parts : List Part} {n : Node}

/-! ## What is put into a tree -/

theorem node?_put_self (h : t.node? l = none) : (t.put l n).node? l = some n := by
  cases l with
  | nil => cases h
  | cons name l => exact List.lookup_cons_self

theorem node?_put_of_ne (hne : m ≠ l) : (t.put l n).node? m = t.node? m := by
  have hlookup : ∀ nodes : List (Location × Node),
      (nodes.filter fun e => e.1 != l).lookup m = nodes.lookup m := by
    intro nodes
    induction nodes with
    | nil => rfl
    | cons e nodes ih =>
      obtain ⟨k, node⟩ := e
      by_cases hk : k = l
      · subst hk
        rw [List.filter_cons_of_neg (by simp), List.lookup_cons, beq_eq_false_iff_ne.mpr hne]
        exact ih
      · rw [List.filter_cons_of_pos (by simpa using hk), List.lookup_cons, List.lookup_cons, ih]
  cases m with
  | nil => rfl
  | cons name m =>
    show ((l, n) :: t.nodes.filter fun e => e.1 != l).lookup (name :: m) =
      t.nodes.lookup (name :: m)
    rw [List.lookup_cons, beq_eq_false_iff_ne.mpr hne]
    exact hlookup t.nodes

/-- Only from a directory one goes on. -/
theorem step_put (h : t.node? l = none) {part : Part} (hstep : t.step start part = .ok m) :
    (t.put l n).step start part = .ok m := by
  have hne : start ≠ l := by
    rintro rfl
    rw [step.eq_def, h] at hstep
    cases hstep
  rw [step.eq_def, node?_put_of_ne hne, ← step.eq_def]
  exact hstep

theorem walk_put (h : t.node? l = none) (hwalk : t.walk start parts = .ok m) :
    (t.put l n).walk start parts = .ok m := by
  induction parts generalizing start with
  | nil => exact hwalk
  | cons part parts ih =>
    obtain ⟨next, hstep, hrest⟩ := exists_of_bind_eq_ok hwalk
    show (t.put l n).step start part >>= _ = _
    rw [step_put h hstep]
    exact ih hrest

/-! ## Making directories -/

theorem isDirectory_iff : t.isDirectory start parts = true ↔
    ∃ l, t.walk start parts = .ok l ∧ t.node? l = some .directory := by
  unfold isDirectory
  cases t.walk start parts with
  | error reason => simp
  | ok l =>
    cases hnode : t.node? l with
    | none => simp [hnode]
    | some node => cases node <;> simp [hnode]

theorem isDirectory_of_makeDirectory (h : t.makeDirectory start parts = .ok t') :
    t'.isDirectory start parts = true := by
  obtain ⟨l, hwalk, h⟩ := exists_of_bind_eq_ok h
  cases hnode : t.node? l with
  | some node =>
    rw [hnode] at h
    cases h
  | none =>
    rw [hnode] at h
    cases h
    exact isDirectory_iff.mpr ⟨l, walk_put hnode hwalk, node?_put_self hnode⟩

theorem isDirectory_of_ensureDirectory (h : t.ensureDirectory start parts = .ok t') :
    t'.isDirectory start parts = true := by
  unfold ensureDirectory at h
  split at h
  · next made hmade =>
    cases h
    exact isDirectory_of_makeDirectory hmade
  · split at h
    · next hthere =>
      cases h
      exact hthere
    · cases h

theorem isDirectory_of_ensureWay {depth : Nat} (h : ensureWay start depth t parts = .ok t') :
    t'.isDirectory start parts = true := by
  cases depth with
  | zero => exact isDirectory_of_ensureDirectory h
  | succ depth =>
    unfold ensureWay at h
    split at h
    · next made hmade =>
      cases h
      exact isDirectory_of_makeDirectory hmade
    · -- Whatever has been made of the way, the directory itself is made last.
      obtain ⟨way, -, hlast⟩ := exists_of_bind_eq_ok h
      exact isDirectory_of_ensureDirectory hlast
    · split at h
      · next hthere =>
        cases h
        exact hthere
      · cases h

/-- An absolute path leads to a directory once this and the way to it have been made. -/
theorem exists_directory_of_makeDirectories {p : Pathname} (hp : p.isAbsolute = true)
    (h : t.makeDirectories p = .ok t') : ∃ l, t'.directory? p = some l := by
  obtain ⟨⟨⟩, hcheck, h⟩ := exists_of_bind_eq_ok h
  have hroot : ∀ u : Tree, u.start p = [] := fun u => if_pos hp
  rw [hroot] at h
  obtain ⟨l, hwalk, hnode⟩ := isDirectory_iff.mp (isDirectory_of_ensureWay h)
  have hlocate : t'.locate p = .ok l := by
    rw [locate, hcheck, hroot]
    exact hwalk
  refine ⟨l, ?_⟩
  rw [directory?, hlocate]
  simp only [hnode]

end CompanyRegister.Files.Tree
