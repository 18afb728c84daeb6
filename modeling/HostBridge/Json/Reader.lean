import HostBridge.Json.Basic
import HostBridge.Number.Scaling
import HostBridge.Text.Hex

/-!
# Reading JSON text

A recursive descent over the characters. Each level of nesting and each item of a list takes one
unit of fuel, and there is one unit for every character of the text, so fuel never decides the
result.
-/

namespace HostBridge.Json.Reader

/-- The characters that may stand between tokens. -/
def isGap (c : Char) : Bool :=
  c = ' ' || c = '\t' || c = '\n' || c = '\r'

/-- The text without the gap in front of it. -/
def skipGap (cs : List Char) : List Char :=
  cs.dropWhile isGap

/-- The text after an expected word, or none if it does not start with it. -/
def expect? : List Char → List Char → Option (List Char)
  | [], cs => some cs
  | w :: ws, c :: cs => if w = c then expect? ws cs else none
  | _ :: _, [] => none

/-! ## Texts -/

/-- The value of four hexadecimal digits and the characters after them. -/
def unit? : List Char → Option (Nat × List Char)
  | a :: b :: c :: d :: rest => do
    let a ← Text.Hex.value? a
    let b ← Text.Hex.value? b
    let c ← Text.Hex.value? c
    let d ← Text.Hex.value? d
    return (4096 * a + 256 * b + 16 * c + d, rest)
  | _ => none

/-- The character of one UTF-16 unit, or of two where the first opens a pair. -/
def unitChar? (cs : List Char) : Option (Char × List Char) := do
  let (u, rest) ← unit? cs
  if 0xD800 ≤ u ∧ u < 0xDC00 then
    let rest ← expect? ['\\', 'u'] rest
    let (v, rest) ← unit? rest
    if 0xDC00 ≤ v ∧ v < 0xE000 then
      return (Char.ofNat (0x10000 + (u - 0xD800) * 1024 + (v - 0xDC00)), rest)
    else none
  else if 0xDC00 ≤ u ∧ u < 0xE000 then none
  else return (Char.ofNat u, rest)

/-- The character that the letter after a backslash stands for. -/
def letterEscape? (c : Char) : Option Char :=
  if c = '"' then some '"'
  else if c = '\\' then some '\\'
  else if c = '/' then some '/'
  else if c = 'b' then some '\x08'
  else if c = 'f' then some '\x0c'
  else if c = 'n' then some '\n'
  else if c = 'r' then some '\r'
  else if c = 't' then some '\t'
  else none

/-- The characters up to the closing quote, given those read so far in reverse. -/
def text? : Nat → List Char → List Char → Option (String × List Char)
  | 0, _, _ => none
  | _ + 1, _, [] => none
  | fuel + 1, read, c :: rest =>
    if c = '"' then some (String.ofList read.reverse, rest)
    else if c = '\\' then
      match rest with
      | [] => none
      | e :: rest =>
        if e = 'u' then do
          let (ch, rest) ← unitChar? rest
          text? fuel (ch :: read) rest
        else do
          let ch ← letterEscape? e
          text? fuel (ch :: read) rest
    else if c.toNat < 0x20 then none
    else text? fuel (c :: read) rest

/-! ## Numbers -/

/-- The value of a decimal digit. -/
def digitValue (c : Char) : Nat :=
  c.toNat - 48

/-- The natural number that a list of digits stands for. -/
def digitsValue (ds : List Char) : Nat :=
  ds.foldl (fun n d => 10 * n + digitValue d) 0

/-- An optional sign. -/
def sign : List Char → Bool × List Char
  | '-' :: rest => (true, rest)
  | '+' :: rest => (false, rest)
  | cs => (false, cs)

/-- The exponent part, if there is one. -/
def exponent? : List Char → Option (Option Int × List Char)
  | [] => some (none, [])
  | c :: rest =>
    if c = 'e' ∨ c = 'E' then
      let (negative, rest) := sign rest
      let ds := rest.takeWhile Char.isDigit
      if ds.isEmpty then none
      else
        let n : Int := digitsValue ds
        some (some (if negative then -n else n), rest.dropWhile Char.isDigit)
    else some (none, c :: rest)

/-- The digits after a decimal point, if there is one. -/
def fraction? : List Char → Option (Option (List Char) × List Char)
  | '.' :: rest =>
    let ds := rest.takeWhile Char.isDigit
    if ds.isEmpty then none else some (some ds, rest.dropWhile Char.isDigit)
  | cs => some (none, cs)

/-- The number with the given parts. Without fraction and exponent it is an integer if it is in
range and not a negative zero. -/
def ofParts? (negative : Bool) (whole : List Char) (fraction : Option (List Char))
    (exponent : Option Int) : Option Json :=
  let n : Int := if negative then -(digitsValue whole : Int) else digitsValue whole
  if fraction.isNone ∧ exponent.isNone ∧ -0x8000000000000000 ≤ n ∧ n < 0x10000000000000000 ∧
      ¬ (negative ∧ n = 0) then
    some (.int n)
  else
    let d := Number.Decimal.ofDigits (whole.map digitValue) ((fraction.getD []).map digitValue)
      (exponent.getD 0)
    d.toMagnitude?.map (.float negative)

/-- A number and the characters after it. -/
def number? (cs : List Char) : Option (Json × List Char) := do
  let (negative, cs) := match cs with
    | '-' :: rest => (true, rest)
    | _ => (false, cs)
  let whole := cs.takeWhile Char.isDigit
  if whole.isEmpty ∨ (whole.head? = some '0' ∧ 1 < whole.length) then none
  let (fraction, cs) ← fraction? (cs.dropWhile Char.isDigit)
  let (exponent, cs) ← exponent? cs
  return (← ofParts? negative whole fraction exponent, cs)

/-! ## Values -/

mutual

/-- A value and the characters after it. -/
def value? : Nat → List Char → Option (Json × List Char)
  | 0, _ => none
  | fuel + 1, cs =>
    match skipGap cs with
    | [] => none
    | c :: rest =>
      if c = '"' then (text? (rest.length + 1) [] rest).map fun (s, rest) => (.str s, rest)
      else if c = '[' then
        match skipGap rest with
        | ']' :: rest => some (.arr [], rest)
        | rest => (items? fuel [] rest).map fun (vs, rest) => (.arr vs, rest)
      else if c = '\x7b' then
        match skipGap rest with
        | '\x7d' :: rest => some (.obj [], rest)
        | rest => (members? fuel [] rest).map fun (ms, rest) => (.obj (Keyed.ofList ms), rest)
      else if c = 'n' then (expect? ['u', 'l', 'l'] rest).map fun rest => (.null, rest)
      else if c = 't' then (expect? ['r', 'u', 'e'] rest).map fun rest => (.bool true, rest)
      else if c = 'f' then (expect? ['a', 'l', 's', 'e'] rest).map fun rest => (.bool false, rest)
      else number? (c :: rest)

/-- Items up to the closing bracket, given those read so far in reverse. -/
def items? : Nat → List Json → List Char → Option (List Json × List Char)
  | 0, _, _ => none
  | fuel + 1, read, cs => do
    let (v, rest) ← value? fuel cs
    match skipGap rest with
    | ',' :: rest => items? fuel (v :: read) rest
    | ']' :: rest => some ((v :: read).reverse, rest)
    | _ => none

/-- Members up to the closing brace, given those read so far in reverse. -/
def members? : Nat → List (String × Json) → List Char →
    Option (List (String × Json) × List Char)
  | 0, _, _ => none
  | fuel + 1, read, cs =>
    match skipGap cs with
    | '"' :: rest => do
      let (k, rest) ← text? (rest.length + 1) [] rest
      let rest ← expect? [':'] (skipGap rest)
      let (v, rest) ← value? fuel rest
      match skipGap rest with
      | ',' :: rest => members? fuel ((k, v) :: read) rest
      | '\x7d' :: rest => some (((k, v) :: read).reverse, rest)
      | _ => none
    | _ => none

end

end Reader

/-- Reads a text that holds exactly one value. Objects come out sorted by key. -/
def parse? (s : String) : Option Json :=
  let cs := s.toList
  match Reader.value? (cs.length + 1) cs with
  | some (v, rest) => if (Reader.skipGap rest).isEmpty then some v else none
  | none => none

end HostBridge.Json
