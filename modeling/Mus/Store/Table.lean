/-! Tables that keep their entries in the order in which the names were first
entered. -/
namespace Mus

/-- Named entries, oldest name first. -/
abbrev Table (α : Type) := List (String × α)

namespace Table

variable {α : Type}

def find? (table : Table α) (name : String) : Option α := table.lookup name

def has (table : Table α) (name : String) : Bool := (table.find? name).isSome

/-- Sets the entry under a name. A known name keeps its place, a new one comes
last. -/
def insert (name : String) (entry : α) : Table α → Table α
  | [] => [(name, entry)]
  | (key, old) :: rest =>
      if name = key then (key, entry) :: rest else (key, old) :: insert name entry rest

def names (table : Table α) : List String := table.map Prod.fst

@[simp]
theorem find?_nil (name : String) : find? ([] : Table α) name = none := rfl

theorem find?_cons (key : String) (entry : α) (rest : Table α) (name : String) :
    find? ((key, entry) :: rest) name = if name = key then some entry else find? rest name := by
  by_cases h : name = key
  · simp [find?, h]
  · have : (name == key) = false := by simpa using h
    simp [find?, List.lookup_cons, h, this]

/-- The entry just set is found. -/
@[simp]
theorem find?_insert_self (name : String) (entry : α) (table : Table α) :
    (insert name entry table).find? name = some entry := by
  induction table with
  | nil => simp [insert, find?_cons]
  | cons head rest ih =>
      obtain ⟨key, old⟩ := head
      by_cases h : name = key
      · simp [insert, h, find?_cons]
      · simp [insert, h, find?_cons, ih]

/-- The other entries stay. -/
theorem find?_insert_of_ne {name other : String} (h : other ≠ name) (entry : α)
    (table : Table α) : (insert name entry table).find? other = table.find? other := by
  induction table with
  | nil => simp [insert, find?_cons, h]
  | cons head rest ih =>
      obtain ⟨key, old⟩ := head
      by_cases hk : name = key
      · subst hk
        simp [insert, find?_cons, h]
      · by_cases ho : other = key
        · simp [insert, hk, find?_cons, ho]
        · simp [insert, hk, find?_cons, ho, ih]

end Table

end Mus
