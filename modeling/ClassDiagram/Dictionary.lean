/-!
# Dictionaries in order of insertion

A dictionary gives values to names and lists its entries in the order in which their names were
first inserted.  Inserting a name again replaces its value and keeps its place.

What a dictionary holds is told by `find?`: `find?_insert` says what an insertion changes, and
`names_insert` where it stands.
-/

namespace ClassDiagram

/-- Values of type `α` under distinct names, in the order of insertion. -/
structure Dictionary (α : Type) where
  /-- The names with their values. -/
  entries : List (String × α)
  /-- No name occurs twice. -/
  nodup : (entries.map Prod.fst).Nodup

namespace Dictionary

variable {α : Type}

theorem eq_of_entries_eq {d e : Dictionary α} (h : d.entries = e.entries) : d = e := by
  cases d
  cases e
  cases h
  rfl

/-! ### Looking up -/

/-- The dictionary without entries. -/
def empty : Dictionary α := ⟨[], List.nodup_nil⟩

instance : Inhabited (Dictionary α) := ⟨empty⟩

/-- The value under a name. -/
def find? (d : Dictionary α) (name : String) : Option α :=
  d.entries.lookup name

/-- Some value stands under the name. -/
def contains (d : Dictionary α) (name : String) : Bool :=
  (d.find? name).isSome

/-- The number of names. -/
def size (d : Dictionary α) : Nat :=
  d.entries.length

/-- The names in order. -/
def names (d : Dictionary α) : List String :=
  d.entries.map Prod.fst

/-! ### Inserting -/

/-- The entries with `value` under `name`: in its old place, or else at the end. -/
def put (name : String) (value : α) : List (String × α) → List (String × α)
  | [] => [(name, value)]
  | (n, v) :: rest => if n = name then (n, value) :: rest else (n, v) :: put name value rest

theorem map_fst_put (name : String) (value : α) (l : List (String × α)) :
    (put name value l).map Prod.fst =
      if name ∈ l.map Prod.fst then l.map Prod.fst else l.map Prod.fst ++ [name] := by
  induction l with
  | nil => simp [put]
  | cons e rest ih =>
    obtain ⟨n, v⟩ := e
    rw [put]
    by_cases h : n = name
    · simp [h]
    · have h' : ¬ name = n := fun hn => h hn.symm
      simp only [if_neg h, List.map_cons, List.mem_cons, h', false_or, ih]
      split <;> simp

theorem nodup_put (name : String) (value : α) {l : List (String × α)}
    (h : (l.map Prod.fst).Nodup) : ((put name value l).map Prod.fst).Nodup := by
  rw [map_fst_put]
  split
  · exact h
  · next hn =>
    refine List.nodup_append.2 ⟨h, by simp, ?_⟩
    intro a ha b hb hab
    rw [List.mem_singleton] at hb
    exact hn (hb ▸ hab ▸ ha)

/-- The dictionary with `value` under `name`. -/
def insert (d : Dictionary α) (name : String) (value : α) : Dictionary α :=
  ⟨put name value d.entries, nodup_put name value d.nodup⟩

/-- The dictionary made by inserting the pairs one after the other. -/
def ofList (pairs : List (String × α)) : Dictionary α :=
  pairs.foldl (fun d p => d.insert p.1 p.2) empty

/-! ### Laws -/

@[simp] theorem find?_empty (name : String) : (empty : Dictionary α).find? name = none := rfl

theorem lookup_cons (n name : String) (v : α) (l : List (String × α)) :
    ((n, v) :: l).lookup name = if name = n then some v else l.lookup name := by
  rw [List.lookup_cons]
  by_cases h : name = n
  · rw [if_pos h, beq_iff_eq.2 h]
  · rw [if_neg h, beq_eq_false_iff_ne.2 h]

/-- Of all names, only the one that a value is put under is looked up differently afterwards. -/
theorem lookup_put (name other : String) (value : α) (l : List (String × α)) :
    (put name value l).lookup other = if other = name then some value else l.lookup other := by
  induction l with
  | nil => rw [put, lookup_cons]
  | cons e rest ih =>
    obtain ⟨n, v⟩ := e
    rw [put, lookup_cons]
    by_cases hn : n = name
    · rw [if_pos hn, lookup_cons, hn]
      split <;> rfl
    · rw [if_neg hn, lookup_cons, ih]
      by_cases h : other = n
      · have hother : other ≠ name := fun hname => hn (h.symm.trans hname)
        rw [if_pos h, if_neg hother, if_pos h]
      · rw [if_neg h, if_neg h]

/-- An insertion changes the value under its name and no other. -/
theorem find?_insert (d : Dictionary α) (name other : String) (value : α) :
    (d.insert name value).find? other = if other = name then some value else d.find? other :=
  lookup_put name other value d.entries

/-- A new name goes to the end; an old one keeps its place. -/
theorem names_insert (d : Dictionary α) (name : String) (value : α) :
    (d.insert name value).names = if name ∈ d.names then d.names else d.names ++ [name] :=
  map_fst_put name value d.entries

/-- A dictionary contains the names that it lists. -/
theorem contains_iff (d : Dictionary α) (name : String) : d.contains name ↔ name ∈ d.names := by
  rw [contains, find?, names, List.lookup_isSome_iff, List.mem_map]
  simp only [beq_iff_eq, eq_comm (a := name)]

end Dictionary

end ClassDiagram
