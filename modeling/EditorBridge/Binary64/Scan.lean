import EditorBridge.Binary64.Basic
import EditorBridge.Numeral

/-!
# Reading decimals

Two ways from a decimal literal to a binary64 number. `exact` rounds the value of the literal once.
`quick` is the one that message bodies are read with: it keeps as many leading digits as a 64-bit
word holds, rounds these, and then multiplies or divides by a power of ten that is rounded itself.
The two differ in the last place for some literals of sixteen and more digits.
-/

namespace EditorBridge.Binary64

/-- A decimal literal: whether a minus sign stands in front, the digits before and after the decimal
point, if there is one, and the power of ten written after them, if there is one. -/
structure Literal where
  negative : Bool
  whole : List Char
  fraction : Option (List Char)
  exponent : Option Int
  deriving DecidableEq, Repr

/-- The greatest 64-bit word. -/
def maxWord : Nat := UInt64.size - 1

/-- Appends digits to a word for as long as it holds them. The digits that are left come back. -/
def takeWord (word : Nat) : List Char → Nat × List Char
  | [] => (word, [])
  | c :: rest =>
      let longer := 10 * word + Numeral.digitValue c
      if maxWord < longer then (word, c :: rest) else takeWord longer rest

/-- Divides by 10^308 until the power of ten that is left is at most that, or nothing is left of
the number. Three divisions bring every word down to zero, so `steps` is four. -/
def divideDown (x : Binary64) (power : Nat) : Nat → Option Binary64
  | 0 => some x
  | steps + 1 =>
      if power ≤ 308 then (ofNat (Nat.pow 10 power)).bind x.div
      else if x.isZero then some x
      else (ofNat (Nat.pow 10 308)).bind fun ten => (x.div ten).bind fun y =>
        divideDown y (power - 308) steps

/-- A word times a power of ten, each of the two rounded and then the result; `none` where that is
infinite. -/
def ofParts (negative : Bool) (word : Nat) (power : Int) : Option Binary64 :=
  (ofNat word).bind fun x =>
    let magnitude :=
      if power < 0 then divideDown x (-power).toNat 4
      else if power ≤ 308 then (ofNat (Nat.pow 10 power.toNat)).bind x.mul
      else if x.isZero then some x
      else none
    magnitude.map fun y => { y with negative := negative }

/-- The number that a message means by a literal: a digit that no longer fits the word is dropped
together with all that follow it on its side of the decimal point. -/
def quick (l : Literal) : Option Binary64 :=
  let (word, dropped) := takeWord 0 l.whole
  let fraction := l.fraction.getD []
  let (word, ignored) := takeWord word fraction
  let kept := fraction.length - ignored.length
  ofParts l.negative word (dropped.length - kept + l.exponent.getD 0)

/-- The number nearest to the value of the literal. Exponents so great or small that the result is
infinite or zero are cut off first. -/
def exact (l : Literal) : Option Binary64 :=
  let fraction := l.fraction.getD []
  let word := Numeral.ofDigits (l.whole ++ fraction)
  let power := l.exponent.getD 0 - fraction.length
  if word = 0 then some (zero l.negative)
  else
    let size : Int := (Numeral.digits word).length + power
    if 400 < size then none
    else if size < -400 then some (zero l.negative)
    else
      let (up, down) := scale 10 power
      ofRatio l.negative (word * up) down

end EditorBridge.Binary64
