set_option autoImplicit false

/-! # Tables in order of insertion

A `Table` maps names to values and remembers in which order the names came. It stands for the members of
a JSON object, the rules of a definition and the names of a registry alike. Storing a value under a name
that is already there replaces the value and leaves the name where it is. -/

namespace SchemaTyping

/-- Names with their values, in order of insertion. -/
abbrev Table (α : Type) := List (String × α)

namespace Table

variable {α : Type}

/-- The value stored under a name. -/
def get? (name : String) : Table α → Option α
  | [] => none
  | (n, v) :: rest => if n = name then some v else get? name rest

/-- Is a value stored under the name? -/
def has (name : String) (t : Table α) : Bool := (t.get? name).isSome

/-- Store a value: in the place of the name if it is there, at the end otherwise. -/
def insert (name : String) (value : α) : Table α → Table α
  | [] => [(name, value)]
  | (n, v) :: rest =>
    if n = name then (name, value) :: rest else (n, v) :: insert name value rest

/-- The names in order. -/
def names (t : Table α) : List String := t.map (·.1)

theorem get?_insert (name other : String) (value : α) (t : Table α) :
    (t.insert name value).get? other = if name = other then some value else t.get? other := by
  induction t with
  | nil => rfl
  | cons entry rest ih =>
    obtain ⟨n, v⟩ := entry
    by_cases h : n = name
    · subst h
      by_cases h' : n = other <;> simp [insert, get?, h']
    · by_cases h' : n = other
      · subst h'
        simp only [insert, if_neg h, get?]
        simp [Ne.symm h]
      · simp only [insert, if_neg h, get?, if_neg h', ih]

theorem names_insert (name : String) (value : α) (t : Table α) :
    (t.insert name value).names = if name ∈ t.names then t.names else t.names ++ [name] := by
  induction t with
  | nil => simp [insert, names]
  | cons entry rest ih =>
    obtain ⟨n, v⟩ := entry
    by_cases h : n = name
    · subst h; simp [insert, names]
    · have h' : name ≠ n := Ne.symm h
      simp only [names] at ih
      simp only [insert, if_neg h, names, List.map_cons, ih, List.mem_cons]
      by_cases hm : name ∈ List.map (·.1) rest <;> simp [hm, h']

end Table

end SchemaTyping
