import HostBridge.Number.Binary

/-!
# Shortest decimal text of a binary magnitude

A magnitude is written with the fewest decimal digits that round back to it, and with the nearest
such digits. The search looks at one decimal grid after the other, from one digit up: on each grid
only the two neighbours of the magnitude can be the answer. Where the digits go is the business of a
`Layout`.
-/

namespace HostBridge.Number

/-- The decimal number `digits · 10 ^ exponent`. -/
structure Decimal where
  /-- The digits, as one natural number. -/
  digits : Nat
  /-- The power of ten. -/
  exponent : Int
  deriving DecidableEq, Repr, Inhabited

/-- The number of decimal digits of a natural number; one for zero. -/
def decimalLength (n : Nat) : Nat :=
  (Nat.toDigits 10 n).length

namespace Decimal

/-- Numerator and denominator of a decimal number. -/
def quotient (d : Decimal) : Nat × Nat :=
  (d.digits * Nat.pow 10 d.exponent.toNat, Nat.pow 10 (-d.exponent).toNat)

/-- Drops zeros at the end of the digits, at most as many as there is fuel. -/
def trimWith : Nat → Decimal → Decimal
  | 0, d => d
  | fuel + 1, d =>
    if d.digits ≠ 0 ∧ d.digits % 10 = 0 then trimWith fuel ⟨d.digits / 10, d.exponent + 1⟩ else d

/-- The same number without zeros at the end of its digits. -/
def trim (d : Decimal) : Decimal :=
  d.trimWith (decimalLength d.digits)

end Decimal

/-- The exponent of the leading decimal digit of the positive quotient `num / den`. -/
def leadingExponent (num den : Nat) : Int :=
  let guess : Int := (decimalLength num : Int) - decimalLength den
  if num * Nat.pow 10 (-guess).toNat < den * Nat.pow 10 guess.toNat then guess - 1 else guess

/-- The reals that round to a magnitude, in quarters of its last place. -/
structure Interval where
  /-- Four times the mantissa. -/
  value : Nat
  /-- The lower end. -/
  low : Nat
  /-- The upper end. -/
  high : Nat
  /-- Both ends belong to the interval. -/
  closed : Bool

/-- The interval of reals that round to a magnitude. Below a power of two the next magnitude is only
half as far away, except at the bottom of the format. -/
def Format.interval (f : Format) (x : Magnitude) : Interval :=
  let gap := if x.mantissa = 1 <<< (f.precision - 1) ∧ f.minExponent < x.exponent then 1 else 2
  ⟨4 * x.mantissa, 4 * x.mantissa - gap, 4 * x.mantissa + 2, x.mantissa % 2 = 0⟩

namespace Interval

/-- Whether the decimal number lies in the interval, whose unit is `2 ^ e`. -/
def contains (i : Interval) (e : Int) (d : Decimal) : Bool :=
  let (num, den) := d.quotient
  let (num, den) := scaleQuotient num den e
  if i.closed then i.low * den ≤ num ∧ num ≤ i.high * den
  else i.low * den < num ∧ num < i.high * den

/-- The neighbour with `count` digits that lies in the interval, the nearer one if both do, and the
even one if both are equally near. -/
def neighbour? (i : Interval) (e : Int) (count : Nat) : Option Decimal :=
  let num := i.value <<< e.toNat
  let den := 1 <<< (-e).toNat
  let place := leadingExponent num den - count + 1
  let num := num * Nat.pow 10 (-place).toNat
  let den := den * Nat.pow 10 place.toNat
  let below := num / den
  let nearest := roundQuotient num den
  let other := if nearest = below then below + 1 else below
  if i.contains e ⟨nearest, place⟩ then some ⟨nearest, place⟩
  else if i.contains e ⟨other, place⟩ then some ⟨other, place⟩
  else none

end Interval

/-- The fewest digits that round back to the magnitude. Seventeen digits always suffice for the
formats of this library. -/
def Format.shortest (f : Format) (x : Magnitude) : Decimal :=
  if x.mantissa = 0 then ⟨0, 0⟩
  else
    let i := f.interval x
    let found := (List.range 17).findSome? fun n => i.neighbour? (x.exponent - 2) (n + 1)
    (found.getD ⟨x.mantissa, 0⟩).trim

/-! ## Layout -/

/-- Which numbers are written without an exponent: those whose leading digit has an exponent from
`least` up to but not including `bound`. -/
structure Layout where
  /-- The least exponent written in plain form. -/
  least : Int
  /-- The least exponent above that is again written in exponent form. -/
  bound : Int
  deriving DecidableEq, Repr

namespace Layout

/-- Digits with a decimal point and at least one digit on either side of it. -/
def plain (d : Decimal) : String :=
  let ds := Nat.toDigits 10 d.digits
  let zeros (n : Int) := List.replicate n.toNat '0'
  if 0 ≤ d.exponent then String.ofList (ds ++ zeros d.exponent ++ ['.', '0'])
  else
    let padded := zeros (1 - d.exponent - ds.length) ++ ds
    let split := padded.length - (-d.exponent).toNat
    String.ofList (padded.take split ++ ['.'] ++ padded.drop split)

/-- One digit before the point, the others after it, and a signed exponent. -/
def scientific (d : Decimal) (lead : Int) : String :=
  let body := match Nat.toDigits 10 d.digits with
    | [] => []
    | [c] => [c]
    | c :: rest => c :: '.' :: rest
  String.ofList body ++ "e" ++ (if lead < 0 then "-" else "+") ++ Nat.repr lead.natAbs

/-- The text of a decimal number. -/
def render (l : Layout) (d : Decimal) : String :=
  let lead := d.exponent + decimalLength d.digits - 1
  if l.least ≤ lead ∧ lead < l.bound then plain d else scientific d lead

end Layout

end HostBridge.Number
