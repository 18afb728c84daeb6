/-!
# Binary floating-point magnitudes

A finite floating-point number is a sign and a magnitude `mantissa · 2 ^ exponent`. A `Format` says
how many binary digits a mantissa may have and how far the exponent may go. Rounding a quotient of
naturals to a format is exact integer arithmetic: the nearest magnitude is taken, and of two equally
near ones the one with the even mantissa.
-/

namespace HostBridge.Number

/-- The range of a binary floating-point format. -/
structure Format where
  /-- The number of binary digits of a mantissa. -/
  precision : Nat
  /-- The exponent of the least positive magnitude. -/
  minExponent : Int
  /-- The largest exponent of a full mantissa. -/
  maxExponent : Int
  deriving DecidableEq, Repr

/-- The interchange format of 64 bits. -/
def binary64 : Format := ⟨53, -1074, 971⟩

/-- The interchange format of 32 bits. -/
def binary32 : Format := ⟨24, -149, 104⟩

/-- The magnitude `mantissa · 2 ^ exponent`. -/
structure Magnitude where
  /-- The integer factor. -/
  mantissa : Nat
  /-- The power of two. -/
  exponent : Int
  deriving DecidableEq, Repr, Inhabited

/-- Numerator and denominator of a magnitude. -/
def Magnitude.quotient (x : Magnitude) : Nat × Nat :=
  (x.mantissa <<< x.exponent.toNat, 1 <<< (-x.exponent).toNat)

/-- The integer nearest to `num / den`, the even one if two are equally near. -/
def roundQuotient (num den : Nat) : Nat :=
  let whole := num / den
  let rest := num % den
  if den < 2 * rest ∨ (2 * rest = den ∧ whole % 2 = 1) then whole + 1 else whole

/-- The quotient `num / den` divided by `2 ^ e`, as a numerator and a denominator. -/
def scaleQuotient (num den : Nat) (e : Int) : Nat × Nat :=
  (num <<< (-e).toNat, den <<< e.toNat)

namespace Format

/-- The exponent at which `num / den` fills the mantissa, or the least exponent if it cannot. -/
def exponentOf (f : Format) (num den : Nat) : Int :=
  let e : Int := (num.log2 : Int) - den.log2 - f.precision + 1
  let (n, d) := scaleQuotient num den e
  max f.minExponent (if n < d <<< (f.precision - 1) then e - 1 else e)

/-- The magnitude of the format nearest to `num / den`, or none if that is out of range. -/
def round? (f : Format) (num den : Nat) : Option Magnitude :=
  if num = 0 then some ⟨0, f.minExponent⟩
  else
    let e := f.exponentOf num den
    let (n, d) := scaleQuotient num den e
    let m := roundQuotient n d
    let r : Magnitude :=
      if m = 1 <<< f.precision then ⟨1 <<< (f.precision - 1), e + 1⟩ else ⟨m, e⟩
    if r.exponent ≤ f.maxExponent then some r else none

/-- The rounded product of two magnitudes, or none if it is out of range. -/
def mul? (f : Format) (x y : Magnitude) : Option Magnitude :=
  f.round? (x.quotient.1 * y.quotient.1) (x.quotient.2 * y.quotient.2)

/-- The rounded quotient of a magnitude by a positive one, or none if it is out of range. -/
def div? (f : Format) (x y : Magnitude) : Option Magnitude :=
  f.round? (x.quotient.1 * y.quotient.2) (x.quotient.2 * y.quotient.1)

end Format

end HostBridge.Number
