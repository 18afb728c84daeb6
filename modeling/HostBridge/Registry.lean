/-!
# Numbered slots

A registry hands out a key for everything put into it and gives the thing back for its key. Keys are
used again: the key freed last is handed out first, and only when no key is free is a new one made.
The contents are listed in the order of their keys.
-/

namespace HostBridge

/-- Slots numbered from zero. -/
structure Registry (γ : Type) where
  /-- What the slots hold. -/
  slots : List (Option γ) := []
  /-- The empty slots, the one freed last in front. -/
  free : List Nat := []

namespace Registry

variable {γ : Type}

/-- What the slot of a key holds. -/
def get? (r : Registry γ) (key : Nat) : Option γ :=
  r.slots.getD key none

/-- Puts something into an empty slot. The result is the key of the slot. -/
def insert (r : Registry γ) (c : γ) : Nat × Registry γ :=
  match r.free with
  | key :: rest => (key, { slots := r.slots.set key (some c), free := rest })
  | [] => (r.slots.length, { slots := r.slots ++ [some c], free := [] })

/-- Empties the slot of a key. -/
def remove (r : Registry γ) (key : Nat) : Option γ × Registry γ :=
  match r.get? key with
  | some c => (some c, { slots := r.slots.set key none, free := key :: r.free })
  | none => (none, r)

/-- Changes what a full slot holds. -/
def modify (r : Registry γ) (key : Nat) (f : γ → γ) : Registry γ :=
  { r with slots := r.slots.modify key (Option.map f) }

/-- Everything in the registry, in the order of the keys. -/
def contents (r : Registry γ) : List γ :=
  r.slots.filterMap id

/-- The keys of the full slots, in order. -/
def keys (r : Registry γ) : List Nat :=
  (List.range r.slots.length).filter fun key => (r.get? key).isSome

/-- The number of full slots. -/
def size (r : Registry γ) : Nat :=
  r.contents.length

/-- The free keys are the numbers of the empty slots, each once. -/
def Valid (r : Registry γ) : Prop :=
  r.free.Nodup ∧ ∀ key, key ∈ r.free ↔ key < r.slots.length ∧ r.get? key = none

/-- An empty registry is valid. -/
theorem valid_empty : Valid ({} : Registry γ) := by
  simp [Valid]

end Registry

end HostBridge
