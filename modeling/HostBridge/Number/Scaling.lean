import HostBridge.Number.Decimal

/-!
# Reading a decimal number by scaling

A decimal number becomes a 64-bit magnitude in two roundings. Its leading digits, as many as fit
into a word of 64 bits, are rounded to a magnitude; that magnitude is multiplied or divided by a
power of ten and rounded again. This is fast rather than exact: the result of many digits may be a
unit in the last place away from the nearest magnitude.
-/

namespace HostBridge.Number

/-- Appends digits to a word of 64 bits as long as they fit. The result is the word and the digits
that are left over. -/
def appendDigits (n : Nat) : List Nat → Nat × List Nat
  | [] => (n, [])
  | d :: ds => if 10 * n + d < 0x10000000000000000 then appendDigits (10 * n + d) ds else (n, d :: ds)

/-- The leading digits of a number in decimal notation, with the exponent that gives them their
place. Digits before the point that do not fit count as zeros; digits after it that do not fit are
left out. -/
def Decimal.ofDigits (whole fraction : List Nat) (exponent : Int) : Decimal :=
  let (n, dropped) := appendDigits 0 whole
  let (n, ignored) := appendDigits n fraction
  ⟨n, exponent + dropped.length - (fraction.length - ignored.length : Nat)⟩

/-- The largest power of ten by which a magnitude is scaled at once. -/
def powerBound : Nat := 308

/-- The power of ten of a small exponent, as a magnitude. -/
def powerOfTen? (e : Nat) : Option Magnitude :=
  binary64.round? (Nat.pow 10 e) 1

/-- Scales a magnitude by a power of ten. A power too small to be a magnitude is applied in so many
steps at most, after which nothing is left of any word of 64 bits; one too large is out of range. -/
def scaleTen? : Nat → Magnitude → Int → Option Magnitude
  | 0, _, _ => some ⟨0, binary64.minExponent⟩
  | steps + 1, x, e =>
    if x.mantissa = 0 then some x
    else if 0 ≤ e then
      if e ≤ powerBound then (powerOfTen? e.toNat).bind fun p => binary64.mul? x p else none
    else if -e ≤ powerBound then (powerOfTen? (-e).toNat).bind fun p => binary64.div? x p
    else
      (powerOfTen? powerBound).bind fun p =>
        (binary64.div? x p).bind fun y => scaleTen? steps y (e + powerBound)

/-- The magnitude of a decimal number with digits of at most 64 bits, or none if it is out of
range. -/
def Decimal.toMagnitude? (d : Decimal) : Option Magnitude :=
  (binary64.round? d.digits 1).bind fun x => scaleTen? 4 x d.exponent

end HostBridge.Number
