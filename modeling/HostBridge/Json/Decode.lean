import HostBridge.Json.Printer
import HostBridge.Text.Quoted

/-!
# Decoding JSON values into typed values

A decoder takes a JSON value and either yields a typed value or says what was wrong with the first
thing it could not use. Records accept two shapes: an object, whose members are visited in their
order and whose unknown members are ignored, and an array, which lists the fields in their declared
order. Missing fields are noticed after the last member, in declared order.
-/

namespace HostBridge.Json

/-- What a decoder was looking for. -/
inductive Expected where
  /-- A text. -/
  | text
  /-- An unsigned integer of 64 bits. -/
  | unsigned64
  /-- A signed integer of 32 bits. -/
  | signed32
  /-- A list of values. -/
  | sequence
  /-- The record of the given name. -/
  | record (name : String)
  /-- A list with an item for each of the fields of the record. -/
  | recordOf (name : String) (fields : Nat)
  /-- A list with fewer items. -/
  | fewer
  /-- A text or an object that names a variant. -/
  | variant
  /-- The null value. -/
  | unit
  deriving DecidableEq, Repr

/-- Why a value was refused. -/
inductive DecodeError where
  /-- A field is absent. -/
  | missingField (name : String)
  /-- The value is of the wrong kind. -/
  | invalidType (found : Json) (expected : Expected)
  /-- The integer is out of range. -/
  | outOfRange (found : Int) (expected : Expected)
  /-- The list has the wrong number of items. -/
  | invalidLength (found : Nat) (expected : Expected)
  /-- The name is not one of the variants. -/
  | unknownVariant (name : String) (known : List String)
  /-- The object that should name a variant does not have exactly one member. -/
  | severalKeys
  deriving Repr

/-- What was looked for, in words. -/
def Expected.describe : Expected → String
  | text => "a string"
  | unsigned64 => "u64"
  | signed32 => "i32"
  | sequence => "a sequence"
  | record name => "struct " ++ name
  | recordOf name fields => "struct " ++ name ++ " with " ++ Nat.repr fields ++ " elements"
  | fewer => "fewer elements in array"
  | variant => "string or map"
  | unit => "unit"

/-- What was found, in words. -/
def describe : Json → String
  | null => "null"
  | bool b => "boolean `" ++ (if b then "true" else "false") ++ "`"
  | int n => "integer `" ++ toString n ++ "`"
  | float s x => "floating point `" ++ floatText s x ++ "`"
  | str s => "string " ++ Text.Quoted.quote s
  | arr _ => "sequence"
  | obj _ => "map"

/-- The message of a decoding error. -/
def DecodeError.message : DecodeError → String
  | missingField name => "missing field `" ++ name ++ "`"
  | invalidType found expected =>
    "invalid type: " ++ found.describe ++ ", expected " ++ expected.describe
  | outOfRange found expected =>
    "invalid value: integer `" ++ toString found ++ "`, expected " ++ expected.describe
  | invalidLength found expected =>
    "invalid length " ++ Nat.repr found ++ ", expected " ++ expected.describe
  | unknownVariant name known =>
    "unknown variant `" ++ name ++ "`, expected one of " ++
      String.intercalate ", " (known.map fun k => "`" ++ k ++ "`")
  | severalKeys => "invalid value: map, expected map with a single key"

/-- A decoder of values of a type. -/
abbrev Decoder (α : Type) := Json → Except DecodeError α

/-- Decodes a text. -/
def decodeText : Decoder String
  | str s => .ok s
  | v => .error (.invalidType v .text)

/-- Decodes an unsigned integer of 64 bits. -/
def decodeUInt64 : Decoder UInt64
  | int n =>
    if 0 ≤ n ∧ n < 0x10000000000000000 then .ok (UInt64.ofNat n.toNat)
    else .error (.outOfRange n .unsigned64)
  | v => .error (.invalidType v .unsigned64)

/-- Decodes a signed integer of 32 bits. -/
def decodeInt32 : Decoder Int32
  | int n =>
    if -0x80000000 ≤ n ∧ n < 0x80000000 then .ok (Int32.ofInt n)
    else .error (.outOfRange n .signed32)
  | v => .error (.invalidType v .signed32)

/-- Decodes the items of a list one after the other. -/
def decodeItems {α : Type} (item : Decoder α) : List Json → Except DecodeError (List α)
  | [] => .ok []
  | v :: rest => do
    let a ← item v
    let as ← decodeItems item rest
    return a :: as

/-- Decodes a list. -/
def decodeList {α : Type} (item : Decoder α) : Decoder (List α)
  | arr items => decodeItems item items
  | v => .error (.invalidType v .sequence)

/-- Decodes a value or null. -/
def decodeOption {α : Type} (some' : Decoder α) : Decoder (Option α)
  | null => .ok none
  | v => (some' v).map some

/-- A way to decode records: fields are collected in a draft, one visit for each, and the draft is
finished once all were visited. -/
structure RecordReader (δ α : Type) where
  /-- The name of the record in messages. -/
  name : String
  /-- The fields in declared order. -/
  fields : List String
  /-- The draft before any visit. -/
  blank : δ
  /-- Takes the value of a field into the draft. A name that is no field changes nothing. -/
  visit : String → Json → δ → Except DecodeError δ
  /-- Completes the draft or reports the first missing field. -/
  finish : δ → Except DecodeError α

namespace RecordReader

variable {δ α : Type}

/-- Visits named values in order. -/
def visitAll (r : RecordReader δ α) : List (String × Json) → δ → Except DecodeError δ
  | [], d => .ok d
  | (k, v) :: rest, d => do
    let d ← r.visit k v d
    r.visitAll rest d

/-- Decodes a record from either of its shapes. -/
def decode (r : RecordReader δ α) : Decoder α
  | obj members => do
    let d ← r.visitAll members r.blank
    r.finish d
  | arr items => do
    let d ← r.visitAll (r.fields.zip items) r.blank
    if items.length < r.fields.length then
      throw (.invalidLength items.length (.recordOf r.name r.fields.length))
    if r.fields.length < items.length then throw (.invalidLength items.length .fewer)
    r.finish d
  | v => .error (.invalidType v (.record r.name))

end RecordReader

/-- A required field of a draft. -/
def require {α : Type} (name : String) : Option α → Except DecodeError α
  | some a => .ok a
  | none => .error (.missingField name)

end HostBridge.Json
