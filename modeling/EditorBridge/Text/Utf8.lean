/-!
# UTF-8

Texts as bytes and back. Reading is total: a byte sequence is cut into `pieces`, each of them a
character or a part that no well-formed sequence contains. An ill-formed part is as long as a
well-formed sequence can begin with, so a truncated character counts once. `decode?` refuses such
parts, `decodeLossy` writes the replacement character for each.
-/

namespace EditorBridge.Text.Utf8

/-- The bytes of a text. -/
def encode (s : List Char) : List UInt8 :=
  s.flatMap String.utf8EncodeChar

/-- The number of bytes of a text. -/
def byteLength (s : List Char) : Nat :=
  s.foldl (fun n c => n + c.utf8Size) 0

/-- Reads `n` continuation bytes onto the code point bits read so far. The first of them has to
lie between `low` and `high`, the others between 80 and BF (hexadecimal). The rest of the input
comes back too; a byte out of range stays in it. -/
def continuation : Nat → UInt8 → UInt8 → Nat → List UInt8 → Option Char × List UInt8
  | 0, _, _, bits, rest => (some (Char.ofNat bits), rest)
  | _ + 1, _, _, _, [] => (none, [])
  | n + 1, low, high, bits, b :: rest =>
      if low ≤ b && b ≤ high then
        continuation n 0x80 0xBF (bits * 64 + (b.toNat - 0x80)) rest
      else (none, b :: rest)

/-- The first piece of a byte sequence that starts with `b`, and what follows it. -/
def next (b : UInt8) (rest : List UInt8) : Option Char × List UInt8 :=
  let n := b.toNat
  if n < 0x80 then (some (Char.ofNat n), rest)
  else if n < 0xC2 then (none, rest)
  else if n < 0xE0 then continuation 1 0x80 0xBF (n - 0xC0) rest
  else if n == 0xE0 then continuation 2 0xA0 0xBF 0 rest
  else if n == 0xED then continuation 2 0x80 0x9F 0xD rest
  else if n < 0xF0 then continuation 2 0x80 0xBF (n - 0xE0) rest
  else if n == 0xF0 then continuation 3 0x90 0xBF 0 rest
  else if n < 0xF4 then continuation 3 0x80 0xBF (n - 0xF0) rest
  else if n == 0xF4 then continuation 3 0x80 0x8F 4 rest
  else (none, rest)

theorem length_continuation_le (n : Nat) (low high : UInt8) (bits : Nat) (s : List UInt8) :
    (continuation n low high bits s).2.length ≤ s.length := by
  induction n generalizing low high bits s with
  | zero => simp [continuation]
  | succ n ih =>
      cases s with
      | nil => simp [continuation]
      | cons b rest =>
          simp only [continuation]
          split
          · exact Nat.le_trans (ih _ _ _ _) (by simp)
          · simp

theorem length_next_le (b : UInt8) (rest : List UInt8) :
    (next b rest).2.length ≤ rest.length := by
  unfold next
  dsimp only
  repeat' split
  all_goals first | exact Nat.le_refl _ | exact length_continuation_le _ _ _ _ _

/-- The characters and the ill-formed parts of a byte sequence, in order. -/
def pieces : List UInt8 → List (Option Char)
  | [] => []
  | b :: rest => (next b rest).1 :: pieces (next b rest).2
termination_by s => s.length
decreasing_by
  have := length_next_le b rest
  simp only [List.length_cons]
  omega

/-- The text that the bytes encode, if they encode one. -/
def decode? (s : List UInt8) : Option (List Char) :=
  (pieces s).mapM id

/-- The text that the bytes encode, with U+FFFD for every ill-formed part. -/
def decodeLossy (s : List UInt8) : List Char :=
  (pieces s).map (·.getD '\uFFFD')

end EditorBridge.Text.Utf8
