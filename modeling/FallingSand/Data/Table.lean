/-!
# Tables of named values

A table holds values by name. Its entries stand in the order of the names, so that
two tables with the same values are the same table, in whatever order they were
written. `get?` is the one view of a table that the rest of the library uses, and
`get?_insert` says what a write does to it.
-/

namespace FallingSand

/-- Values by name. -/
structure Table (α : Type) where
  entries : List (String × α)
  sorted : entries.Pairwise (·.1 < ·.1)
  deriving DecidableEq, Repr

namespace Table

variable {α : Type}

/-- The table without names. -/
def empty : Table α := ⟨[], .nil⟩

instance : EmptyCollection (Table α) := ⟨empty⟩

instance : Inhabited (Table α) := ⟨{}⟩

/-- The value of a name in a list of entries. -/
def lookup (name : String) : List (String × α) → Option α
  | [] => none
  | (n, value) :: rest => if n = name then some value else lookup name rest

/-- The entries with a value written to a name. -/
def write (name : String) (value : α) : List (String × α) → List (String × α)
  | [] => [(name, value)]
  | (n, old) :: rest =>
    if n = name then (name, value) :: rest
    else if n < name then (n, old) :: write name value rest
    else (name, value) :: (n, old) :: rest

def get? (t : Table α) (name : String) : Option α := lookup name t.entries

theorem mem_write {name : String} {value : α} {entry : String × α}
    {entries : List (String × α)} (h : entry ∈ write name value entries) :
    entry = (name, value) ∨ entry ∈ entries := by
  induction entries with
  | nil => simpa [write] using h
  | cons first rest ih => grind [write]

theorem pairwise_write (name : String) (value : α) {entries : List (String × α)}
    (sorted : entries.Pairwise (·.1 < ·.1)) :
    (write name value entries).Pairwise (·.1 < ·.1) := by
  induction entries with
  | nil => exact List.pairwise_singleton _ _
  | cons first rest ih =>
    obtain ⟨n, old⟩ := first
    obtain ⟨above, sorted⟩ := List.pairwise_cons.mp sorted
    rw [write]
    split
    · rename_i same
      exact .cons (same ▸ above) sorted
    split
    · rename_i below
      refine .cons (fun entry member => ?_) (ih sorted)
      rcases mem_write member with rfl | member
      · exact below
      · exact above entry member
    · rename_i other notBelow
      have before : name < n := Std.lt_of_le_of_ne (String.not_lt.mp notBelow) (Ne.symm other)
      refine .cons (fun entry member => ?_) (.cons above sorted)
      rcases List.mem_cons.mp member with rfl | member
      · exact before
      · exact String.lt_trans before (above entry member)

def insert (t : Table α) (name : String) (value : α) : Table α :=
  ⟨write name value t.entries, pairwise_write name value t.sorted⟩

/-- The table with several values written, later ones over earlier ones. -/
def insertAll (t : Table α) (entries : List (String × α)) : Table α :=
  entries.foldl (fun t (name, value) => t.insert name value) t

/-- The table of a list of entries; of two with one name the later one counts. -/
def ofList (entries : List (String × α)) : Table α := empty.insertAll entries

theorem lookup_write (name other : String) (value : α) (entries : List (String × α)) :
    lookup other (write name value entries) =
      if name = other then some value else lookup other entries := by
  induction entries with
  | nil => simp [write, lookup]
  | cons entry rest ih => grind [write, lookup]

@[simp] theorem get?_empty (name : String) : (empty : Table α).get? name = none := rfl

/-- A write is seen at its own name and nowhere else. -/
theorem get?_insert (t : Table α) (name other : String) (value : α) :
    (t.insert name value).get? other = if name = other then some value else t.get? other :=
  lookup_write name other value t.entries

/-! ## Equality -/

/-- A name before all entries is not found in them. -/
theorem lookup_eq_none {name : String} {entries : List (String × α)}
    (before : ∀ entry ∈ entries, name < entry.1) : lookup name entries = none := by
  induction entries with
  | nil => rfl
  | cons first rest ih =>
    obtain ⟨here, later⟩ := List.forall_mem_cons.mp before
    rw [lookup, if_neg, ih later]
    rintro rfl
    exact String.lt_irrefl _ here

/-- The first name of some entries is not before all names of others with the same values. -/
theorem first_le {n : String} {x : α} {rest right : List (String × α)}
    (same : ∀ name, lookup name ((n, x) :: rest) = lookup name right) :
    ¬∀ entry ∈ right, n < entry.1 := by
  intro before
  have missing := same n
  rw [lookup, if_pos rfl, lookup_eq_none before] at missing
  cases missing

theorem eq_of_lookup_eq {left right : List (String × α)} (hl : left.Pairwise (·.1 < ·.1))
    (hr : right.Pairwise (·.1 < ·.1)) (same : ∀ name, lookup name left = lookup name right) :
    left = right := by
  induction left generalizing right with
  | nil =>
    cases right with
    | nil => rfl
    | cons entry rest => simpa [lookup] using same entry.1
  | cons first rest ih =>
    obtain ⟨n, x⟩ := first
    cases right with
    | nil => simpa [lookup] using same n
    | cons entry others =>
      obtain ⟨m, y⟩ := entry
      obtain ⟨above, left⟩ := List.pairwise_cons.mp hl
      obtain ⟨beyond, right⟩ := List.pairwise_cons.mp hr
      have names : m = n := by
        refine String.le_antisymm (String.not_lt.mp fun earlier => ?_)
          (String.not_lt.mp fun later => ?_)
        · refine first_le same (List.forall_mem_cons.mpr ⟨earlier, ?_⟩)
          exact fun entry member => String.lt_trans earlier (beyond entry member)
        · refine first_le (fun name => (same name).symm) (List.forall_mem_cons.mpr ⟨later, ?_⟩)
          exact fun entry member => String.lt_trans later (above entry member)
      subst names
      have values : x = y := by simpa [lookup] using same m
      have tails : rest = others := by
        refine ih left right fun name => ?_
        by_cases first : m = name
        · subst first
          rw [lookup_eq_none above, lookup_eq_none beyond]
        · simpa [lookup, first] using same name
      rw [values, tails]

/-- Tables with the same values are the same. -/
theorem ext_get? {t u : Table α} (same : ∀ name, t.get? name = u.get? name) : t = u := by
  cases t with | mk left hl
  cases u with | mk right hr
  congr 1
  exact eq_of_lookup_eq hl hr same

/-- Of two writes to a name the later one counts. -/
@[simp] theorem insert_insert (t : Table α) (name : String) (old value : α) :
    (t.insert name old).insert name value = t.insert name value := by
  refine ext_get? fun other => ?_
  simp only [get?_insert]
  split <;> rfl

/-- The order of writes to different names does not matter. -/
theorem insert_comm (t : Table α) {name other : String} (different : name ≠ other) (x y : α) :
    (t.insert name x).insert other y = (t.insert other y).insert name x := by
  refine ext_get? fun asked => ?_
  simp only [get?_insert]
  by_cases first : name = asked
  · rw [if_pos first, if_pos first, if_neg fun second => different (first.trans second.symm)]
  · rw [if_neg first, if_neg first]

end Table

end FallingSand
