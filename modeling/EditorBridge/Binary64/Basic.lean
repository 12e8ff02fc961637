/-!
# Finite binary64 numbers

The finite numbers of the 64-bit binary floating-point format as exact values: a sign and a
magnitude `mantissa * 2 ^ exponent`. All arithmetic is on natural numbers. `ofRatio` is the one
place where rounding happens: to the nearest representable magnitude, a tie to the even mantissa,
and `none` where the nearest magnitude would be infinite. Products and quotients round the exact
result through it.
-/

namespace EditorBridge

/-- A finite binary64 number: whether the sign bit is set, the significand as an integer, and the
power of two that scales it. The mantissa is below 2^53, the exponent at least -1074, and a mantissa
below 2^52 occurs with that least exponent only, so every number has one form. -/
structure Binary64 where
  negative : Bool
  mantissa : Nat
  exponent : Int
  deriving DecidableEq, Repr

namespace Binary64

/-- The least exponent of the format. -/
def minExponent : Int := -1074

/-- The greatest exponent of the format. -/
def maxExponent : Int := 971

/-- The leading bit of a mantissa, 2^52. -/
def leadingBit : Nat := 4503599627370496

/-- Zero with a sign. -/
def zero (negative : Bool) : Binary64 :=
  ⟨negative, 0, minExponent⟩

/-- Whether the number is zero of either sign. -/
def isZero (x : Binary64) : Bool :=
  x.mantissa == 0

/-- `base ^ exponent` as a numerator and a denominator. -/
def scale (base : Nat) (exponent : Int) : Nat × Nat :=
  if 0 ≤ exponent then (Nat.pow base exponent.toNat, 1) else (1, Nat.pow base (-exponent).toNat)

/-- The magnitude as a numerator and a denominator. -/
def ratio (x : Binary64) : Nat × Nat :=
  let (up, down) := scale 2 x.exponent
  (x.mantissa * up, down)

/-- The greatest `e` with `2 ^ e ≤ num / den`, for positive arguments. -/
def floorLog2 (num den : Nat) : Int :=
  let guess : Int := (num.log2 : Int) - den.log2
  let (up, down) := scale 2 guess
  if den * up ≤ num * down then guess else guess - 1

/-- The quotient rounded to the nearest natural number, a tie to the even one. -/
def roundQuotient (num den : Nat) : Nat :=
  let q := num / den
  let r := num % den
  if 2 * r < den then q
  else if den < 2 * r then q + 1
  else if q % 2 = 0 then q else q + 1

/-- The number nearest to `num / den` with the given sign, unless that is infinite. -/
def ofRatio (negative : Bool) (num den : Nat) : Option Binary64 :=
  if num = 0 then some (zero negative)
  else
    let exponent := max (floorLog2 num den - 52) minExponent
    let (up, down) := scale 2 exponent
    let mantissa := roundQuotient (num * down) (den * up)
    let (mantissa, exponent) :=
      if mantissa = 2 * leadingBit then (leadingBit, exponent + 1) else (mantissa, exponent)
    if maxExponent < exponent then none else some ⟨negative, mantissa, exponent⟩

/-- The number nearest to a natural number, unless that is infinite. -/
def ofNat (n : Nat) : Option Binary64 :=
  ofRatio false n 1

/-- The rounded product, unless it is infinite. -/
def mul (x y : Binary64) : Option Binary64 :=
  let (a, b) := x.ratio
  let (c, d) := y.ratio
  ofRatio (x.negative != y.negative) (a * c) (b * d)

/-- The rounded quotient by a number other than zero, unless it is infinite. -/
def div (x y : Binary64) : Option Binary64 :=
  let (a, b) := x.ratio
  let (c, d) := y.ratio
  ofRatio (x.negative != y.negative) (a * d) (b * c)

/-- The magnitude rounded to an integer, a half away from zero. -/
def roundAway (x : Binary64) : Nat :=
  let (num, den) := x.ratio
  (2 * num + den) / (2 * den)

end Binary64

end EditorBridge
