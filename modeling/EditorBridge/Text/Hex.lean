/-!
# Hexadecimal digits

Digits in base sixteen, which escapes in JSON strings, in URIs and in quoted texts are made of.
Reading takes letters of either case. Writing has `digit` for lower-case and `upperDigit` for
upper-case letters, and reading either gives the value back.
-/

namespace EditorBridge.Text.Hex

/-- The value of a digit. -/
def value? (c : Char) : Option Nat :=
  if '0' ≤ c && c ≤ '9' then some (c.toNat - 48)
  else if 'a' ≤ c && c ≤ 'f' then some (c.toNat - 87)
  else if 'A' ≤ c && c ≤ 'F' then some (c.toNat - 55)
  else none

/-- Whether a character is a digit. -/
def isDigit (c : Char) : Bool :=
  (value? c).isSome

/-- The value of a run of digits, the most significant one first. -/
def ofDigits (s : List Char) : Nat :=
  s.foldl (fun n c => 16 * n + (value? c).getD 0) 0

/-- The digit with a value below sixteen, lower-case. -/
def digit (n : Nat) : Char :=
  if n < 10 then Char.ofNat (48 + n) else Char.ofNat (87 + n)

/-- The digit with a value below sixteen, upper-case. -/
def upperDigit (n : Nat) : Char :=
  if n < 10 then Char.ofNat (48 + n) else Char.ofNat (55 + n)

/-- The shortest run of digits for a number, lower-case. -/
def digits (n : Nat) : List Char :=
  if n < 16 then [digit n] else digits (n / 16) ++ [digit (n % 16)]
termination_by n

theorem value?_digit {n : Nat} (h : n < 16) : value? (digit n) = some n := by
  have : ∀ m, m < 16 → value? (digit m) = some m := by decide
  exact this n h

theorem value?_upperDigit {n : Nat} (h : n < 16) : value? (upperDigit n) = some n := by
  have : ∀ m, m < 16 → value? (upperDigit m) = some m := by decide
  exact this n h

end EditorBridge.Text.Hex
