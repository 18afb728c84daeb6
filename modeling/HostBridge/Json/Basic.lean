import HostBridge.Keyed
import HostBridge.Number.Binary

/-!
# JSON values

A JSON value as the programs of this library exchange it. Integers from `-2 ^ 63` up to `2 ^ 64` are
kept exactly; every other number is a binary floating-point number, so `1` and `1.0` are different
values. The members of an object are listed in the order in which they are visited and printed. A
*canonical* value lists them by increasing key, each key once.
-/

namespace HostBridge

/-- A JSON value. -/
inductive Json where
  /-- The null value. -/
  | null
  /-- A truth value. -/
  | bool (value : Bool)
  /-- An integer. -/
  | int (value : Int)
  /-- A finite floating-point number of 64 bits. -/
  | float (negative : Bool) (magnitude : Number.Magnitude)
  /-- A text. -/
  | str (value : String)
  /-- A sequence of values. -/
  | arr (items : List Json)
  /-- Named values, in the order in which they are visited. -/
  | obj (members : List (String × Json))
  deriving Inhabited, Repr

namespace Json

/-- The value is null. -/
def isNull : Json → Bool
  | null => true
  | _ => false

/-- The member of an object with the given key; none for any other value. -/
def get? (key : String) : Json → Option Json
  | obj members => Keyed.find? key members
  | _ => none

mutual

/-- The same value with the members of every object sorted by key. -/
def canonical : Json → Json
  | arr items => arr (canonicalItems items)
  | obj members => obj (Keyed.ofList (canonicalMembers members))
  | v => v
termination_by structural v => v

/-- The same items, each of them canonical. -/
def canonicalItems : List Json → List Json
  | [] => []
  | v :: rest => canonical v :: canonicalItems rest
termination_by structural vs => vs

/-- The same members in the same order, the value of each canonical. -/
def canonicalMembers : List (String × Json) → List (String × Json)
  | [] => []
  | (k, v) :: rest => (k, canonical v) :: canonicalMembers rest
termination_by structural ms => ms

end

mutual

/-- The two values are equal, where a floating-point zero equals its negative. -/
def same : Json → Json → Bool
  | null, null => true
  | bool a, bool b => a == b
  | int a, int b => a == b
  | float s x, float t y => x == y && (s == t || x.mantissa == 0)
  | str a, str b => a == b
  | arr as, arr bs => sameItems as bs
  | obj as, obj bs => sameMembers as bs
  | _, _ => false
termination_by structural v => v

/-- The two lists are equal item by item. -/
def sameItems : List Json → List Json → Bool
  | [], [] => true
  | a :: as, b :: bs => same a b && sameItems as bs
  | _, _ => false
termination_by structural vs => vs

/-- The two lists have the same keys in the same order, with equal values. -/
def sameMembers : List (String × Json) → List (String × Json) → Bool
  | [], [] => true
  | (k, a) :: as, (l, b) :: bs => k == l && same a b && sameMembers as bs
  | _, _ => false
termination_by structural ms => ms

end

/-- An optional value, null if there is none. -/
def ofOption {α : Type} (f : α → Json) : Option α → Json
  | none => null
  | some a => f a

end Json

end HostBridge
