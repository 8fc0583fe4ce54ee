import Mathlib.Data.List.Basic
import CompanyRegister.Log.Writer

/-!
# What is known of writers

Nobody looks into a writer; it is known by what is documented of it (`Writer.Documented`). To go on
with a log takes nothing from it. An event that the level admits comes to the end of the log, in its
last file or in a new one (`Takes`), and any other event leaves no trace. Of a directory that is not
there nothing is promised.

One event after the other, a log so holds what it held and what it has been given, but for a front
that has gone with the oldest files (`Holds`).
-/

namespace CompanyRegister.Log

open Files

/-! ## One event -/

/-- How the files of a log take an event: the last does, or a new one, for which the oldest goes. -/
inductive Takes (setup : Setup) (e : Event) : List (List Event) → List (List Event) → Prop
  | last (files : List (List Event)) (last : List Event) :
      Takes setup e (files ++ [last]) (files ++ [last ++ [e]])
  | next (files : List (List Event)) : Takes setup e files (setup.kept (files ++ [[e]]))

/-- What is documented of a writer. -/
structure Writer.Documented (w : Writer) : Prop where
  start_appends {setup : Setup} {tree : Tree} {l : Location} {journal journal' : Journal}
    (happends : setup.appends = true) (hdir : tree.directory? setup.dir = some l)
    (hstart : w.start setup tree journal = .ok journal') :
    (journal' l).flatten = (journal l).flatten
  write_admitted {setup : Setup} {tree : Tree} {l : Location} {e : Event} (journal : Journal)
    (hdir : tree.directory? setup.dir = some l) (hadmits : setup.admits e = true) :
    Takes setup e (journal l) (w.write setup tree e journal l)
  write_other {setup : Setup} {tree : Tree} {e : Event} (journal : Journal)
    (hadmits : setup.admits e = false) : w.write setup tree e journal = journal

/-! ## Any number of events -/

/-- Whether a log holds events but for a front of them, and holds all of them as long as it has no
more files than are kept. -/
def Holds (setup : Setup) (events : List Event) (files : List (List Event)) : Prop :=
  ∃ gone, events = gone ++ files.flatten ∧ (files.length ≤ setup.maxFiles → gone = [])

section Holds

variable {setup : Setup} {events given : List Event} {files files' : List (List Event)} {e : Event}

theorem holds_flatten (setup : Setup) (files : List (List Event)) :
    Holds setup files.flatten files :=
  ⟨[], rfl, fun _ => rfl⟩

/-- A log that is kept short enough holds the events as they are. -/
theorem Holds.flatten_eq (h : Holds setup events files) (hlength : files.length ≤ setup.maxFiles) :
    files.flatten = events := by
  obtain ⟨gone, heq, hgone⟩ := h
  rw [heq, hgone hlength, List.nil_append]

theorem Holds.take (h : Holds setup events files) (ht : Takes setup e files files') :
    Holds setup (events ++ [e]) files' := by
  obtain ⟨gone, rfl, hgone⟩ := h
  cases ht with
  | last front last =>
    refine ⟨gone, by simp, fun hlength => hgone ?_⟩
    simpa using hlength
  | next =>
    have hdrop : (files ++ [[e]]).length - (setup.maxFiles + 1) =
        files.length - setup.maxFiles := by
      rw [List.length_append, List.length_singleton]
      omega
    rw [Setup.kept, hdrop]
    -- What goes now goes behind what has gone before.
    refine ⟨gone ++ ((files ++ [[e]]).take (files.length - setup.maxFiles)).flatten, ?_, ?_⟩
    · rw [List.append_assoc, List.append_assoc, ← List.flatten_append, List.take_append_drop]
      simp
    · intro hlength
      rw [List.length_drop, List.length_append, List.length_singleton] at hlength
      have hfew : files.length - setup.maxFiles = 0 := by omega
      rw [hgone (by omega), hfew]
      rfl

variable {w : Writer} (hw : w.Documented) {tree : Tree} {l : Location}
  (hdir : tree.directory? setup.dir = some l)

include hw hdir

/-- Handing events to a writer adds those that the level admits. -/
theorem holds_foldl_write {journal : Journal} (h : Holds setup events (journal l)) :
    Holds setup (events ++ given.filter setup.admits)
      (given.foldl (fun journal e => w.write setup tree e journal) journal l) := by
  induction given generalizing events journal with
  | nil =>
    rw [List.filter_nil, List.append_nil]
    exact h
  | cons e given ih =>
    rw [List.foldl_cons]
    cases hadmits : setup.admits e with
    | false =>
      rw [List.filter_cons_of_neg (by simp [hadmits]), hw.write_other journal hadmits]
      exact ih h
    | true =>
      have hnext := ih (h.take (hw.write_admitted journal hdir hadmits))
      rw [List.append_assoc] at hnext
      rw [List.filter_cons_of_pos hadmits]
      exact hnext

end Holds

/-! ## A writer that does what is documented -/

namespace Writer

variable {setup : Setup}

theorem takes_extended (setup : Setup) (e : Event) (files : List (List Event)) :
    Takes setup e files (setup.extended e files) := by
  unfold Setup.extended
  cases hlast : files.getLast? with
  | none =>
    obtain rfl := List.getLast?_eq_none_iff.mp hlast
    have hkept : setup.kept [[e]] = [[e]] := by
      rw [Setup.kept, List.length_singleton, Nat.sub_eq_zero_of_le (by omega), List.drop_zero]
    have htakes : Takes setup e [] (setup.kept ([] ++ [[e]])) := .next []
    rw [List.nil_append, hkept] at htakes
    exact htakes
  | some last =>
    obtain ⟨front, rfl⟩ := List.getLast?_eq_some_iff.mp hlast
    dsimp only
    split
    · rw [List.dropLast_concat]
      exact .last front last
    · exact .next _

theorem documented_standard : standard.Documented where
  start_appends _ _ hstart := by
    cases hstart
    rfl
  write_admitted {setup tree l e} journal hdir hadmits := by
    have hwrite : standard.write setup tree e journal l = setup.extended e (journal l) := by
      show (if setup.admits e then add setup tree e journal else journal) l = _
      rw [if_pos hadmits, add, hdir]
      exact if_pos rfl
    rw [hwrite]
    exact takes_extended setup e (journal l)
  write_other {setup tree e} journal hadmits := by
    show (if setup.admits e then add setup tree e journal else journal) = _
    rw [hadmits]
    rfl

end Writer

end CompanyRegister.Log
