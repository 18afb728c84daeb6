import HostBridge.Json.Basic
import HostBridge.Number.Decimal
import HostBridge.Text.Hex

/-!
# The text of a JSON value

Values are printed without blanks. Two alphabets are in use: the plain one keeps every character
that JSON allows inside a text, the narrow one stays within the printable ASCII characters and
writes all others as UTF-16 units.
-/

namespace HostBridge.Json

/-- Which characters may stand for themselves inside a text. -/
inductive Alphabet where
  /-- All but the quote, the backslash and the controls below the space. -/
  | plain
  /-- Printable ASCII only. -/
  | narrow
  deriving DecidableEq, Repr

/-- Numbers of magnitude from `10 ^ -5` up to `10 ^ 16` are written without an exponent. -/
def numberLayout : Number.Layout := ⟨-5, 16⟩

/-- A UTF-16 unit as `\u` and four digits. -/
def unitEscape (n : Nat) : List Char :=
  ['\\', 'u', Text.Hex.digit (n / 4096 % 16), Text.Hex.digit (n / 256 % 16),
    Text.Hex.digit (n / 16 % 16), Text.Hex.digit (n % 16)]

/-- A code point as one UTF-16 unit, or as two beyond the first plane. -/
def unitEscapes (n : Nat) : List Char :=
  if n < 0x10000 then unitEscape n
  else unitEscape (0xD800 + (n - 0x10000) / 1024) ++ unitEscape (0xDC00 + (n - 0x10000) % 1024)

/-- How a character is written inside a text. -/
def escape (a : Alphabet) (c : Char) : List Char :=
  if c = '"' then ['\\', '"']
  else if c = '\\' then ['\\', '\\']
  else if c = '\x08' then ['\\', 'b']
  else if c = '\x0c' then ['\\', 'f']
  else if c = '\n' then ['\\', 'n']
  else if c = '\r' then ['\\', 'r']
  else if c = '\t' then ['\\', 't']
  else if c.toNat < 0x20 then unitEscape c.toNat
  else if a = .narrow ∧ 0x7F ≤ c.toNat then unitEscapes c.toNat
  else [c]

/-- A text between quotes. -/
def quote (a : Alphabet) (s : String) : String :=
  "\"" ++ String.ofList (s.toList.flatMap (escape a)) ++ "\""

/-- The fewest digits that read back as the same number. -/
def floatText (negative : Bool) (x : Number.Magnitude) : String :=
  (if negative then "-" else "") ++ numberLayout.render (Number.binary64.shortest x)

mutual

/-- The text of a value in the given alphabet. -/
def renderIn (a : Alphabet) : Json → String
  | null => "null"
  | bool b => if b then "true" else "false"
  | int n => toString n
  | float s x => floatText s x
  | str s => quote a s
  | arr [] => "[]"
  | arr (v :: rest) => "[" ++ renderIn a v ++ renderItems a rest ++ "]"
  | obj [] => "\x7b\x7d"
  | obj ((k, v) :: rest) =>
    "\x7b" ++ quote a k ++ ":" ++ renderIn a v ++ renderMembers a rest ++ "\x7d"
termination_by structural v => v

/-- The texts of further items, each after a comma. -/
def renderItems (a : Alphabet) : List Json → String
  | [] => ""
  | v :: rest => "," ++ renderIn a v ++ renderItems a rest
termination_by structural vs => vs

/-- The texts of further members, each after a comma. -/
def renderMembers (a : Alphabet) : List (String × Json) → String
  | [] => ""
  | (k, v) :: rest => "," ++ quote a k ++ ":" ++ renderIn a v ++ renderMembers a rest
termination_by structural ms => ms

end

/-- The text of a value, every character kept that JSON allows. -/
def render (v : Json) : String :=
  renderIn .plain v

end HostBridge.Json
