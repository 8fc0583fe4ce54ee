/-!
# Rows by number

A table holds its rows by a whole number each. `Rows` is a finite map from numbers to what the rows
hold, kept as a list in ascending order of the numbers, so that reading it in order is reading the
list.

The view of a map is `get?`; each operation says what it does to that view.
-/

namespace CompanyRegister.Store

/-- A finite map from whole numbers, in ascending order. -/
@[ext] structure Rows (α : Type) where
  entries : List (Int × α)
  ascending : entries.Pairwise fun a b => a.1 < b.1

namespace Rows

variable {α β : Type}

def empty : Rows α := ⟨[], .nil⟩

def get? (r : Rows α) (id : Int) : Option α := r.entries.lookup id

def contains (r : Rows α) (id : Int) : Bool := (r.get? id).isSome

def lastId? (r : Rows α) : Option Int := r.entries.getLast?.map Prod.fst

/-- The number of a new row: one more than the largest, and one in a table without rows. -/
def freshId (r : Rows α) : Int :=
  match r.lastId? with
  | some n => n + 1
  | none => 1

def below (r : Rows α) (id : Int) : List (Int × α) := r.entries.filter fun e => e.1 < id

def above (r : Rows α) (id : Int) : List (Int × α) := r.entries.filter fun e => id < e.1

theorem lt_of_mem_below {r : Rows α} {id : Int} {e : Int × α} (h : e ∈ r.below id) :
    e.1 < id := by
  simpa using (List.mem_filter.mp h).2

theorem lt_of_mem_above {r : Rows α} {id : Int} {e : Int × α} (h : e ∈ r.above id) :
    id < e.1 := by
  simpa using (List.mem_filter.mp h).2

/-- Put a row in its place; a row that has the number is replaced. -/
def put (r : Rows α) (id : Int) (a : α) : Rows α where
  entries := r.below id ++ (id, a) :: r.above id
  ascending := by
    refine List.pairwise_append.mpr ⟨r.ascending.filter _, ?_, ?_⟩
    · exact List.pairwise_cons.mpr ⟨fun e he => lt_of_mem_above he, r.ascending.filter _⟩
    · intro x hx y hy
      have hlow := lt_of_mem_below hx
      rcases List.mem_cons.mp hy with rfl | hy
      · exact hlow
      · exact Int.lt_trans hlow (lt_of_mem_above hy)

def erase (r : Rows α) (id : Int) : Rows α where
  entries := r.entries.filter fun e => e.1 != id
  ascending := r.ascending.filter _

/-- Change what every row holds, given its number. -/
def map (f : Int → α → β) (r : Rows α) : Rows β where
  entries := r.entries.map fun e => (e.1, f e.1 e.2)
  ascending := by
    rw [List.pairwise_map]
    exact r.ascending

/-! ### What the operations do to the view -/

theorem lookup_filter {es : List (Int × α)} {p : Int → Bool} {id : Int} :
    (es.filter fun e => p e.1).lookup id = if p id then es.lookup id else none := by
  induction es with
  | nil => simp
  | cons e es ih =>
    obtain ⟨n, a⟩ := e
    by_cases hp : p n = true
    · rw [List.filter_cons, if_pos hp, List.lookup_cons, List.lookup_cons, ih]
      by_cases hn : id = n
      · subst hn; simp [hp]
      · rw [beq_eq_false_iff_ne.mpr hn]
    · rw [List.filter_cons, if_neg hp, List.lookup_cons, ih]
      by_cases hn : id = n
      · subst hn; simp [hp]
      · rw [beq_eq_false_iff_ne.mpr hn]

@[simp] theorem get?_empty (id : Int) : (empty : Rows α).get? id = none := rfl

@[simp] theorem get?_put_self (r : Rows α) (id : Int) (a : α) : (r.put id a).get? id = some a := by
  have h : (r.below id).lookup id = none := by
    rw [List.lookup_eq_none_iff]
    intro e he
    exact bne_iff_ne.mpr (Int.ne_of_gt (lt_of_mem_below he))
  simp [get?, put, List.lookup_append, h]

theorem get?_put_of_ne (r : Rows α) {id other : Int} (a : α) (h : other ≠ id) :
    (r.put id a).get? other = r.get? other := by
  have hne : (other == id) = false := by simpa using h
  simp only [get?, put, List.lookup_append, List.lookup_cons, hne, below, above]
  rw [lookup_filter (p := fun n => n < id), lookup_filter (p := fun n => id < n)]
  by_cases hlt : other < id
  · have hgt : ¬ id < other := by omega
    simp [hlt, hgt]
  · have hgt : id < other := by omega
    simp [hlt, hgt]

@[simp] theorem get?_erase_self (r : Rows α) (id : Int) : (r.erase id).get? id = none := by
  simp only [get?, erase]
  rw [lookup_filter (p := fun n => n != id)]
  simp

theorem get?_erase_of_ne (r : Rows α) {id other : Int} (h : other ≠ id) :
    (r.erase id).get? other = r.get? other := by
  simp only [get?, erase]
  rw [lookup_filter (p := fun n => n != id)]
  simp [h]

theorem get?_map (f : Int → α → β) (r : Rows α) (id : Int) :
    (r.map f).get? id = (r.get? id).map (f id) := by
  simp only [get?, map]
  induction r.entries with
  | nil => rfl
  | cons e es ih =>
    obtain ⟨n, a⟩ := e
    rw [List.map_cons, List.lookup_cons, List.lookup_cons]
    by_cases hn : id = n
    · subst hn; simp
    · rw [beq_eq_false_iff_ne.mpr hn, ih]

/-! ### What the view determines -/

theorem lookup_eq_none_of_lt {es : List (Int × α)} {id : Int} (h : ∀ e ∈ es, id < e.1) :
    es.lookup id = none := by
  rw [List.lookup_eq_none_iff]
  intro e he
  exact bne_iff_ne.mpr (Int.ne_of_lt (h e he))

/-- In a list without two entries of one number, an entry is what is found under its number. -/
theorem mem_iff_lookup_eq {es : List (Int × α)} (h : es.Pairwise fun a b => a.1 < b.1)
    {n : Int} {a : α} : (n, a) ∈ es ↔ es.lookup n = some a := by
  induction es with
  | nil => simp
  | cons e es ih =>
    obtain ⟨k, b⟩ := e
    obtain ⟨hbelow, hes⟩ := List.pairwise_cons.mp h
    rw [List.mem_cons, List.lookup_cons, ih hes]
    by_cases hn : n = k
    · subst hn
      rw [beq_self_eq_true, lookup_eq_none_of_lt hbelow]
      simp [eq_comm]
    · rw [beq_eq_false_iff_ne.mpr hn]
      simp [hn]

theorem mem_entries_iff {r : Rows α} {n : Int} {a : α} :
    (n, a) ∈ r.entries ↔ r.get? n = some a :=
  mem_iff_lookup_eq r.ascending

/-- At most one entry has a number. -/
theorem filter_eq_toList {es : List (Int × α)} (h : es.Pairwise fun a b => a.1 < b.1) (id : Int) :
    es.filter (fun e => e.1 == id) = ((es.lookup id).map fun a => (id, a)).toList := by
  induction es with
  | nil => rfl
  | cons e es ih =>
    obtain ⟨n, a⟩ := e
    obtain ⟨hbelow, hes⟩ := List.pairwise_cons.mp h
    by_cases hn : n = id
    · subst hn
      have hrest : es.filter (fun e => e.1 == n) = [] := by
        rw [List.filter_eq_nil_iff]
        intro e he
        simpa using Int.ne_of_gt (hbelow e he)
      have hself : ((n, a).1 == n) = true := beq_self_eq_true n
      rw [List.filter_cons, if_pos hself, hrest, List.lookup_cons_self]
      rfl
    · have hother : ¬ ((n, a).1 == id) = true := by simpa using hn
      rw [List.filter_cons, if_neg hother, List.lookup_cons, ih hes,
        beq_eq_false_iff_ne.mpr (Ne.symm hn)]

/-- The first of two entries cannot have the smaller number if the lists look the same. -/
theorem not_lt_of_lookup_eq {n k : Int} {a b : α} {es fs : List (Int × α)}
    (hfs : ∀ f ∈ fs, k < f.1)
    (h : ∀ id, ((n, a) :: es).lookup id = ((k, b) :: fs).lookup id) : ¬ n < k := by
  intro hlt
  have hnone : ((k, b) :: fs).lookup n = none := lookup_eq_none_of_lt fun f hf => by
    rcases List.mem_cons.mp hf with rfl | hf
    · exact hlt
    · exact Int.lt_trans hlt (hfs f hf)
  rw [← h n, List.lookup_cons_self] at hnone
  cases hnone

theorem entries_eq_of_lookup_eq {es fs : List (Int × α)}
    (hes : es.Pairwise fun a b => a.1 < b.1) (hfs : fs.Pairwise fun a b => a.1 < b.1)
    (h : ∀ id, es.lookup id = fs.lookup id) : es = fs := by
  induction es generalizing fs with
  | nil =>
    cases fs with
    | nil => rfl
    | cons f fs =>
      have hf := h f.1
      rw [List.lookup_cons_self] at hf
      cases hf
  | cons e es ih =>
    cases fs with
    | nil =>
      have he := h e.1
      rw [List.lookup_cons_self] at he
      cases he
    | cons f fs =>
      obtain ⟨n, a⟩ := e
      obtain ⟨k, b⟩ := f
      obtain ⟨hbelow, hes'⟩ := List.pairwise_cons.mp hes
      obtain ⟨habove, hfs'⟩ := List.pairwise_cons.mp hfs
      have hle := not_lt_of_lookup_eq habove h
      have hge := not_lt_of_lookup_eq hbelow fun id => (h id).symm
      obtain rfl : n = k := by omega
      have hhead := h n
      rw [List.lookup_cons_self, List.lookup_cons_self] at hhead
      cases hhead
      have htail : ∀ id, es.lookup id = fs.lookup id := by
        intro id
        by_cases hid : id = n
        · subst hid
          rw [lookup_eq_none_of_lt hbelow, lookup_eq_none_of_lt habove]
        · have hcons := h id
          rwa [List.lookup_cons, List.lookup_cons, beq_eq_false_iff_ne.mpr hid] at hcons
      rw [ih hes' hfs' htail]

/-- A map is known by its view. -/
theorem ext_get? {r s : Rows α} (h : ∀ id, r.get? id = s.get? id) : r = s :=
  Rows.ext (entries_eq_of_lookup_eq r.ascending s.ascending h)

/-- A row that is put in place of another is put there at once. -/
theorem put_erase (r : Rows α) (id : Int) (a : α) : (r.erase id).put id a = r.put id a := by
  refine ext_get? fun n => ?_
  by_cases h : n = id
  · subst h
    rw [get?_put_self, get?_put_self]
  · rw [get?_put_of_ne _ _ h, get?_put_of_ne _ _ h, get?_erase_of_ne _ h]

/-- No row has a larger number than the last. -/
theorem le_lastId {r : Rows α} {n : Int} (h : r.lastId? = some n) :
    ∀ e ∈ r.entries, e.1 ≤ n := by
  obtain ⟨last, hlast, rfl⟩ := Option.map_eq_some_iff.mp h
  obtain ⟨front, hfront⟩ := List.getLast?_eq_some_iff.mp hlast
  intro e he
  rw [hfront] at he
  have hpairs := r.ascending
  rw [hfront] at hpairs
  rcases List.mem_append.mp he with he | he
  · exact Int.le_of_lt ((List.pairwise_append.mp hpairs).2.2 e he last List.mem_cons_self)
  · exact Int.le_of_eq (congrArg Prod.fst (List.mem_singleton.mp he))

/-- A fresh number is larger than those of all rows. -/
theorem lt_freshId (r : Rows α) : ∀ e ∈ r.entries, e.1 < r.freshId := by
  intro e he
  rw [freshId]
  cases hlast : r.lastId? with
  | none =>
    have hnil : r.entries = [] := by simpa [lastId?] using hlast
    rw [hnil] at he
    cases he
  | some n =>
    have hle := le_lastId hlast e he
    show e.1 < n + 1
    omega

/-- A fresh number is the number of no row. -/
theorem contains_freshId (r : Rows α) : r.contains r.freshId = false := by
  have hnone : r.get? r.freshId = none := by
    rw [get?, List.lookup_eq_none_iff]
    intro e he
    exact bne_iff_ne.mpr (Int.ne_of_gt (r.lt_freshId e he))
  rw [contains, hnone]
  rfl

end Rows

end CompanyRegister.Store
