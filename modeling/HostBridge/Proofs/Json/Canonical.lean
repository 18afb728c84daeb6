import HostBridge.Json.Basic
import HostBridge.Proofs.Keyed

/-!
# Canonical values

In a canonical value the members of every object stand by increasing key, each key once, all the way
down. `canonical` turns any value into such a value and leaves it alone if it is one already, so
that the canonical values are just the ones that it leaves alone.
-/

namespace HostBridge.Json

/-- The members of every object in the value stand by increasing key, each key once. -/
inductive IsCanonical : Json → Prop where
  /-- There is no object in null. -/
  | null : IsCanonical null
  /-- There is no object in a truth value. -/
  | bool (value : Bool) : IsCanonical (bool value)
  /-- There is no object in an integer. -/
  | int (value : Int) : IsCanonical (int value)
  /-- There is no object in a floating-point number. -/
  | float (negative : Bool) (magnitude : Number.Magnitude) : IsCanonical (float negative magnitude)
  /-- There is no object in a text. -/
  | str (value : String) : IsCanonical (str value)
  /-- The items are canonical. -/
  | arr {items : List Json} (hitems : ∀ v ∈ items, IsCanonical v) : IsCanonical (arr items)
  /-- The members are sorted, and their values are canonical. -/
  | obj {members : List (String × Json)} (hsorted : Keyed.Sorted members)
      (hvalues : ∀ p ∈ members, IsCanonical p.2) : IsCanonical (obj members)

/-- An object of two members in their order. -/
theorem isCanonical_pair {k l : String} (hkl : k < l) {v w : Json} (hv : IsCanonical v)
    (hw : IsCanonical w) : IsCanonical (.obj [(k, v), (l, w)]) := by
  refine .obj (List.pairwise_pair.mpr hkl) fun p hp => ?_
  simp only [List.mem_cons, List.not_mem_nil, or_false] at hp
  rcases hp with rfl | rfl
  · exact hv
  · exact hw

/-- What is directly inside a value: the items of a list, the values of the members of an object. -/
def children : Json → List Json
  | arr items => items
  | obj members => members.map Prod.snd
  | _ => []

/-- What is inside a canonical value is canonical. -/
theorem IsCanonical.of_mem_children {v w : Json} (h : IsCanonical v) (hw : w ∈ v.children) :
    IsCanonical w := by
  cases h with
  | arr hitems => exact hitems w hw
  | obj _ hvalues =>
    obtain ⟨p, hp, rfl⟩ := List.mem_map.mp hw
    exact hvalues p hp
  | null | bool | int | float | str => cases hw

theorem canonicalItems_eq_map (items : List Json) : canonicalItems items = items.map canonical := by
  induction items with
  | nil => rfl
  | cons v rest ih => rw [canonicalItems, ih, List.map_cons]

theorem canonicalMembers_eq_map (members : List (String × Json)) :
    canonicalMembers members = members.map fun p => (p.1, canonical p.2) := by
  induction members with
  | nil => rfl
  | cons p rest ih => rw [canonicalMembers, ih, List.map_cons]

mutual

/-- Sorting the members of every object makes a value canonical. -/
theorem isCanonical_canonical : ∀ v : Json, IsCanonical (canonical v)
  | .null => .null
  | .bool b => .bool b
  | .int n => .int n
  | .float s x => .float s x
  | .str s => .str s
  | .arr items => .arr (isCanonical_of_mem_canonicalItems items)
  | .obj members => .obj (Keyed.sorted_ofList _) fun p hp =>
      isCanonical_of_mem_canonicalMembers members p (Keyed.mem_of_mem_ofList hp)

theorem isCanonical_of_mem_canonicalItems :
    ∀ items : List Json, ∀ v ∈ canonicalItems items, IsCanonical v
  | [], _, hv => by cases hv
  | w :: rest, v, hv => by
    rcases List.mem_cons.mp hv with rfl | hv
    · exact isCanonical_canonical w
    · exact isCanonical_of_mem_canonicalItems rest v hv

theorem isCanonical_of_mem_canonicalMembers :
    ∀ members : List (String × Json), ∀ p ∈ canonicalMembers members, IsCanonical p.2
  | [], _, hp => by cases hp
  | (_, w) :: rest, p, hp => by
    rcases List.mem_cons.mp hp with rfl | hp
    · exact isCanonical_canonical w
    · exact isCanonical_of_mem_canonicalMembers rest p hp

end

theorem IsCanonical.canonical_eq {v : Json} (h : IsCanonical v) : canonical v = v := by
  induction h with
  | null | bool | int | float | str => rfl
  | @arr items _ ih =>
    have hitems : items.map canonical = items :=
      (List.map_congr_left ih).trans (List.map_id' items)
    rw [canonical, canonicalItems_eq_map, hitems]
  | @obj members hsorted _ ih =>
    have hmembers : (members.map fun p => (p.1, canonical p.2)) = members :=
      (List.map_congr_left fun p hp => congrArg (Prod.mk p.1) (ih p hp)).trans
        (List.map_id' members)
    rw [canonical, canonicalMembers_eq_map, hmembers,
      Keyed.ofList_eq_of_perm hsorted (.refl members)]

/-- The canonical values are the ones in which there is nothing to sort. -/
theorem canonical_eq_self_iff {v : Json} : canonical v = v ↔ IsCanonical v :=
  ⟨fun h => h ▸ isCanonical_canonical v, IsCanonical.canonical_eq⟩

end HostBridge.Json
