/-!
# Hexadecimal text of bytes

Bytes are written as two lower-case digits each, the high half first. Reading also takes capital
digits and refuses an odd number of digits or any other character.
-/

namespace HostBridge.Text.Hex

/-- The digit of a value below sixteen, in lower case. -/
def digit (n : Nat) : Char :=
  if n < 10 then Char.ofNat (48 + n) else Char.ofNat (87 + n)

/-- The value of a digit of either case. -/
def value? (c : Char) : Option Nat :=
  let n := c.toNat
  if 48 ≤ n ∧ n ≤ 57 then some (n - 48)
  else if 97 ≤ n ∧ n ≤ 102 then some (n - 87)
  else if 65 ≤ n ∧ n ≤ 70 then some (n - 55)
  else none

/-- The digits of a list of bytes. -/
def digits : List UInt8 → List Char
  | [] => []
  | b :: rest => digit (b.toNat / 16) :: digit (b.toNat % 16) :: digits rest

/-- The bytes that a list of digits stands for. -/
def bytes? : List Char → Option (List UInt8)
  | [] => some []
  | [_] => none
  | hi :: lo :: rest => do
    let h ← value? hi
    let l ← value? lo
    let bs ← bytes? rest
    return UInt8.ofNat (16 * h + l) :: bs

/-- The lower-case text of some bytes. -/
def encode (b : ByteArray) : String :=
  String.ofList (digits b.toList)

/-- Reads a text of digits back into bytes. -/
def decode? (s : String) : Option ByteArray :=
  (bytes? s.toList).map fun bs => ⟨bs.toArray⟩

end HostBridge.Text.Hex
