/-!
# Decimal numerals

Natural numbers written with ASCII digits. `digits` writes the shortest numeral, `ofDigits` is the
value of any run of digits, and `natural?` reads a numeral that may carry a plus sign. Reading
what `digits` writes gives the number back (`natural?_digits`).
-/

namespace EditorBridge.Numeral

/-- Whether a character is an ASCII digit. -/
def isDigit (c : Char) : Bool :=
  '0' ≤ c && c ≤ '9'

/-- The value of an ASCII digit. -/
def digitValue (c : Char) : Nat :=
  c.toNat - 48

/-- The digit with a value below ten. -/
def digitChar (n : Nat) : Char :=
  Char.ofNat (48 + n)

/-- The value of a run of digits, the most significant one first. -/
def ofDigits (s : List Char) : Nat :=
  s.foldl (fun n c => 10 * n + digitValue c) 0

/-- The shortest numeral of a number. -/
def digits (n : Nat) : List Char :=
  if n < 10 then [digitChar n] else digits (n / 10) ++ [digitChar (n % 10)]
termination_by n

/-- Reads one or more digits and nothing else. -/
def run? (s : List Char) : Option Nat :=
  if s.isEmpty || !s.all isDigit then none else some (ofDigits s)

/-- Reads a numeral: one or more digits, with a plus sign before them or not. -/
def natural? : List Char → Option Nat
  | '+' :: rest => run? rest
  | s => run? s

/-- The numeral of an integer, with a minus sign below zero. -/
def integer (n : Int) : List Char :=
  if n < 0 then '-' :: digits n.natAbs else digits n.natAbs

theorem isDigit_digitChar {n : Nat} (h : n < 10) : isDigit (digitChar n) = true := by
  have : ∀ m, m < 10 → isDigit (digitChar m) = true := by decide
  exact this n h

theorem digitValue_digitChar {n : Nat} (h : n < 10) : digitValue (digitChar n) = n := by
  have : ∀ m, m < 10 → digitValue (digitChar m) = m := by decide
  exact this n h

theorem digits_ne_nil (n : Nat) : digits n ≠ [] := by
  rw [digits]
  split <;> simp

theorem all_isDigit_digits (n : Nat) : (digits n).all isDigit = true := by
  induction n using Nat.strongRecOn with
  | ind n ih =>
      rw [digits]
      split
      · next h => simpa using isDigit_digitChar h
      · next h =>
          have smaller : n / 10 < n := Nat.div_lt_self (by omega) (by omega)
          simp only [List.all_append, ih _ smaller, List.all_cons, List.all_nil,
            isDigit_digitChar (Nat.mod_lt n (by omega : 0 < 10)), Bool.and_self]

theorem ofDigits_digits (n : Nat) : ofDigits (digits n) = n := by
  induction n using Nat.strongRecOn with
  | ind n ih =>
      rw [digits]
      split
      · next h => simpa [ofDigits] using digitValue_digitChar h
      · next h =>
          have smaller : n / 10 < n := Nat.div_lt_self (by omega) (by omega)
          have value := ih _ smaller
          simp only [ofDigits] at value
          simp only [ofDigits, List.foldl_append, List.foldl_cons, List.foldl_nil, value,
            digitValue_digitChar (Nat.mod_lt n (by omega : 0 < 10))]
          omega

theorem run?_digits (n : Nat) : run? (digits n) = some n := by
  have filled : (digits n).isEmpty = false := by
    cases h : digits n with
    | nil => exact absurd h (digits_ne_nil n)
    | cons _ _ => rfl
  simp [run?, filled, all_isDigit_digits, ofDigits_digits]

/-- Reading the shortest numeral of a number gives the number. -/
theorem natural?_digits (n : Nat) : natural? (digits n) = some n := by
  have unsigned : ∀ s : List Char, s.all isDigit = true → natural? s = run? s := by
    intro s digitsOnly
    unfold natural?
    split
    · simp [isDigit] at digitsOnly
    · rfl
  rw [unsigned _ (all_isDigit_digits n), run?_digits]

end EditorBridge.Numeral
