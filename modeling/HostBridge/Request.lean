import HostBridge.Duration
import HostBridge.Error

/-!
# Query requests

A request collects a statement, its parameters and its options. Parameters are kept as JSON text,
because that is how they travel; a parameter that has no such text leaves the request as it was.
-/

namespace HostBridge

/-- A key of a map that is to be written as JSON. -/
inductive MapKey where
  /-- An integer, written as its digits. -/
  | int (value : Int)
  /-- A list, which cannot be a key. -/
  | list

/-- Something that can be given as a parameter. Besides JSON values there are values of the host
that JSON has no own form for. -/
inductive Datum where
  /-- A JSON value. -/
  | json (value : Json)
  /-- An infinity or no number, written as null. -/
  | nonFinite
  /-- A floating-point number of 32 bits. -/
  | single (negative : Bool) (magnitude : Number.Magnitude)
  /-- The empty value, written as null. -/
  | unit
  /-- Bytes, written as a list of numbers. -/
  | bytes (value : List UInt8)
  /-- Pairs of a key and a value, in order. -/
  | map (entries : List (MapKey × Json))

namespace Datum

/-- The keys of a map as texts, or the first that is none. -/
def members : List (MapKey × Json) → Except CodecFault (List (String × Json))
  | [] => .ok []
  | (.int n, v) :: rest => do
    let ms ← members rest
    return (toString n, v) :: ms
  | (.list, _) :: _ => .error .keyNotText

/-- The JSON text of a datum. -/
def encode : Datum → Except CodecFault String
  | json v => .ok v.render
  | nonFinite => .ok "null"
  | single s x =>
    .ok ((if s then "-" else "") ++ Json.numberLayout.render (Number.binary32.shortest x))
  | unit => .ok "null"
  | bytes bs => .ok (Json.arr (bs.map fun b => .int b.toNat)).render
  | map entries => (members entries).map fun ms => (Json.obj ms).render

end Datum

/-- How fresh the data of a query must be. -/
inductive ScanConsistency where
  /-- As it is. -/
  | notBounded
  /-- At least as of the request. -/
  | requestPlus
  deriving DecidableEq, Repr, Inhabited

/-- A query to be submitted. -/
structure Request where
  /-- The statement. -/
  statement : String
  /-- The database of the query context. -/
  database : Option String := none
  /-- The scope of the query context. -/
  scopeName : Option String := none
  /-- The query goes first. -/
  priority : Bool := false
  /-- The texts of the positional parameters. -/
  positional : List String := []
  /-- The texts of the named parameters. -/
  named : Keyed String := []
  /-- The query changes nothing. -/
  readOnly : Bool := false
  /-- How fresh the data must be. -/
  scanConsistency : ScanConsistency := .notBounded
  /-- The texts of further options. -/
  raw : Keyed String := []
  /-- How long the query may take. -/
  timeout : Option Duration := none
  deriving DecidableEq, Repr

namespace Request

/-- One change to a request under construction. -/
inductive Change where
  /-- Sets the query context. -/
  | scope (database scopeName : String)
  /-- Sets the priority. -/
  | priority (value : Bool)
  /-- Sets whether the query changes nothing. -/
  | readOnly (value : Bool)
  /-- Sets how fresh the data must be. -/
  | scanConsistency (value : ScanConsistency)
  /-- Sets how long the query may take. -/
  | timeout (value : Duration)
  /-- Adds a positional parameter. -/
  | positional (value : Datum)
  /-- Sets a named parameter. -/
  | named (name : String) (value : Datum)
  /-- Sets a further option. -/
  | raw (key : String) (value : Datum)

/-- The request after a change, or the fault of the parameter. -/
def apply (r : Request) : Change → Except Error Request
  | .scope database scopeName =>
    .ok { r with database := some database, scopeName := some scopeName }
  | .priority value => .ok { r with priority := value }
  | .readOnly value => .ok { r with readOnly := value }
  | .scanConsistency value => .ok { r with scanConsistency := value }
  | .timeout value => .ok { r with timeout := some value }
  | .positional value => do
    let text ← value.encode.mapError Error.codec
    return { r with positional := r.positional ++ [text] }
  | .named name value => do
    let text ← value.encode.mapError Error.codec
    return { r with named := r.named.insert name text }
  | .raw key value => do
    let text ← value.encode.mapError Error.codec
    return { r with raw := r.raw.insert key text }

/-- The request after a list of changes; those that fail are left out. -/
def applyAll (r : Request) (changes : List Change) : Request :=
  changes.foldl (fun r c => (r.apply c).toOption.getD r) r

end Request

end HostBridge
