/-!
# Faults

Sums and parts that have no value. A sum of machine numbers may leave their range, and a part of an
input may be asked for that does not lie in it. What is checked comes to a fault then, and a program
whose own call comes to a fault dies of it with the code `crashCode`.
-/

namespace EditorBridge

/-- Why an expression has no value: a sum leaves 64 bits, or a part ends before it begins or behind
the input. -/
inductive Fault where
  | sum
  | part
  deriving DecidableEq, Repr

/-- What becomes of a sum that leaves 64 bits: it is a fault, or it wraps round. -/
inductive Arithmetic where
  | checked
  | wrapping
  deriving DecidableEq, Repr

namespace Arithmetic

/-- Adds two numbers of 64 bits. -/
def add (a : Arithmetic) (m n : Nat) : Except Fault Nat :=
  if m + n < UInt64.size then .ok (m + n)
  else
    match a with
    | checked => .error .sum
    | wrapping => .ok ((m + n) % UInt64.size)

variable {a : Arithmetic} {m n : Nat}

theorem add_of_lt (fits : m + n < UInt64.size) : a.add m n = .ok (m + n) :=
  if_pos fits

theorem add_of_le (great : UInt64.size ≤ m + n) :
    a.add m n =
      match a with
      | checked => .error .sum
      | wrapping => .ok ((m + n) % UInt64.size) := by
  cases a <;> exact if_neg (Nat.not_lt.mpr great)

end Arithmetic

/-- The part of an input between two positions. -/
def part (input : List UInt8) (start finish : Nat) : Except Fault (List UInt8) :=
  if start ≤ finish ∧ finish ≤ input.length then .ok ((input.take finish).drop start)
  else .error .part

/-- The code of a program that dies of a fault. -/
def crashCode : Nat := 101

end EditorBridge
