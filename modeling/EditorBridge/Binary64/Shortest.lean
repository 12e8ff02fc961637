import EditorBridge.Binary64.Basic
import EditorBridge.Numeral

/-!
# Shortest decimals

The decimal that stands for a binary64 number in a text: of all decimals that round back to the
number the ones with the fewest digits, of these the nearest, and of two equally near ones the one
with the even last digit. Candidates are tried grid by grid, from one digit to seventeen; on each
grid only the two neighbours of the number can qualify. `positional` and `render` lay the digits
out.
-/

namespace EditorBridge.Binary64

/-- A decimal `0.d₁d₂… * 10 ^ point`: its digits without trailing zeros, the most significant first,
and where the decimal point stands relative to the first of them, so that numbers below one have a
point of zero or less. -/
structure Decimal where
  digits : List Char
  point : Int
  deriving DecidableEq, Repr

/-- The greatest `k` with `10 ^ k ≤ num / den`, for positive arguments. The first guess is the
binary logarithm times 1233/4096, made one smaller, and at most three steps correct it. -/
def floorLog10 (num den : Nat) : Int :=
  let guess : Int := floorLog2 num den * 1233 / 4096 - 1
  let reaches (k : Int) : Bool :=
    let (up, down) := scale 10 k
    den * up ≤ num * down
  if !reaches (guess + 1) then guess
  else if !reaches (guess + 2) then guess + 1
  else if !reaches (guess + 3) then guess + 2
  else guess + 3

/-- The multiple of `10 ^ grid` that is the best of those that round to `x`, divided by that power,
if one of them does. Quarters of the last mantissa place are the unit: the number is `4 * mantissa`,
the midpoint above it two units up, the one below it two units down, or one unit at a power of two.
The midpoints themselves round to `x` when its mantissa is even. -/
def nearestOnGrid (x : Binary64) (grid : Int) : Option Nat :=
  let (up2, down2) := scale 2 x.exponent
  let (up10, down10) := scale 10 grid
  let unit := up2 * down10
  let den := 4 * down2 * up10
  let value := 4 * x.mantissa * unit
  let gap := if x.mantissa = leadingBit ∧ minExponent < x.exponent then 1 else 2
  let low := (4 * x.mantissa - gap) * unit
  let high := (4 * x.mantissa + 2) * unit
  let even := x.mantissa % 2 = 0
  let inside (d : Nat) : Bool :=
    if even then low ≤ d * den && d * den ≤ high else low < d * den && d * den < high
  let below := value / den
  let above := below + 1
  match inside below, inside above with
  | true, true =>
      let down := value - below * den
      let up := above * den - value
      if down < up then some below
      else if up < down then some above
      else if below % 2 = 0 then some below else some above
  | true, false => some below
  | false, true => some above
  | false, false => none

/-- Tries grids of `digits`, `digits + 1`, … digits, as many as the first argument says. -/
def shortestFrom (x : Binary64) (top : Int) : Nat → Nat → Option (Nat × Int)
  | 0, _ => none
  | tries + 1, digits =>
      let grid := top - ((digits : Int) - 1)
      match nearestOnGrid x grid with
      | some d => some (d, grid)
      | none => shortestFrom x top tries (digits + 1)

/-- The shortest decimal of the magnitude; zero has the single digit zero. -/
def shortest (x : Binary64) : Decimal :=
  if x.isZero then ⟨['0'], 1⟩
  else
    let (num, den) := x.ratio
    match shortestFrom x (floorLog10 num den) 17 1 with
    | none => ⟨['0'], 1⟩
    | some (d, grid) =>
        let written := Numeral.digits d
        ⟨(written.reverse.dropWhile (· == '0')).reverse, written.length + grid⟩

/-- The digits before the decimal point and those after it, without an exponent. -/
def Decimal.split (d : Decimal) : List Char × List Char :=
  if d.point ≤ 0 then (['0'], List.replicate (-d.point).toNat '0' ++ d.digits)
  else
    let before := d.point.toNat
    let missing := before - d.digits.length
    (d.digits.take before ++ List.replicate missing '0', d.digits.drop before)

/-- The sign that is written before the digits. -/
def sign (x : Binary64) : List Char :=
  if x.negative then ['-'] else []

/-- The number without an exponent, and without a decimal point where no digit follows it. -/
def positional (x : Binary64) : List Char :=
  match x.shortest.split with
  | (whole, []) => x.sign ++ whole
  | (whole, fraction) => x.sign ++ whole ++ '.' :: fraction

/-- The number with an exponent: one digit before the decimal point, which is left out where no
digit follows it, and the exponent with its sign. -/
def scientific (x : Binary64) : List Char :=
  let d := x.shortest
  let exponent := d.point - 1
  let power := 'e' :: (if exponent < 0 then '-' else '+') :: Numeral.digits exponent.natAbs
  match d.digits with
  | [] => power
  | [lead] => x.sign ++ lead :: power
  | lead :: rest => x.sign ++ lead :: '.' :: rest ++ power

/-- The text of a number in a message: positional with at least one digit after the point from
10^-5 up to, but not including, 10^16, and with an exponent elsewhere. -/
def render (x : Binary64) : List Char :=
  let d := x.shortest
  if x.isZero || (-4 ≤ d.point && d.point ≤ 16) then
    match d.split with
    | (whole, []) => x.sign ++ whole ++ ['.', '0']
    | (whole, fraction) => x.sign ++ whole ++ '.' :: fraction
  else x.scientific

end EditorBridge.Binary64
