/-!
# Tables sorted by name

A table is a list of pairs in increasing order of their names, each name once. The order is that of
the code points, which for texts is also the order of their bytes.
-/

namespace HostBridge

/-- Pairs of a name and a value, sorted by name. -/
abbrev Keyed (β : Type) := List (String × β)

namespace Keyed

variable {β : Type}

/-- Puts a pair at its place, replacing one of the same name. -/
def insert (name : String) (value : β) : Keyed β → Keyed β
  | [] => [(name, value)]
  | (n, v) :: rest =>
    if name < n then (name, value) :: (n, v) :: rest
    else if n < name then (n, v) :: insert name value rest
    else (name, value) :: rest

/-- The value of a name. -/
def find? (name : String) : Keyed β → Option β
  | [] => none
  | (n, v) :: rest => if name = n then some v else find? name rest

/-- The table without a name. -/
def erase (name : String) (t : Keyed β) : Keyed β :=
  t.filter fun (n, _) => n != name

/-- Applies a function to the value of a name, if there is one. -/
def modify (name : String) (f : β → β) (t : Keyed β) : Keyed β :=
  t.map fun (n, v) => (n, if n = name then f v else v)

/-- Sorts pairs by name. Of two pairs with one name the later one counts. -/
def ofList (pairs : List (String × β)) : Keyed β :=
  pairs.foldl (fun t (n, v) => insert n v t) []

/-- What was put under a name is found there, and other names are not disturbed. -/
theorem find?_insert (name other : String) (value : β) (t : Keyed β) :
    find? other (insert name value t) = if other = name then some value else find? other t := by
  induction t with
  | nil => simp [insert, find?]
  | cons p rest ih =>
    obtain ⟨n, v⟩ := p
    simp only [insert]
    by_cases h₁ : name < n
    · simp [h₁, find?]
    · by_cases h₂ : n < name
      · have hne : name ≠ n := fun h => h₁ (h ▸ h₂)
        simp only [h₁, h₂, if_false, if_true, find?, ih]
        by_cases h : other = n
        · simp [h, Ne.symm hne]
        · simp [h]
      · have hn : n = name := String.le_antisymm (String.not_lt.mp h₁) (String.not_lt.mp h₂)
        simp only [h₁, h₂, if_false, find?]
        by_cases h : other = name <;> simp [h, hn]

end Keyed

end HostBridge
