import EditorBridge.Text.Hex
import EditorBridge.Text.Utf8

/-!
# Percent encoding

Bytes as text in which a percent sign and two hexadecimal digits stand for one byte. Writing leaves
the bytes alone that a predicate admits, and escapes the others with upper-case digits. Reading
takes any text: a percent sign without two digits after it stands for itself, and a character
outside an escape stands for the bytes of its UTF-8 form. Reading undoes writing as soon as the
percent sign itself is escaped (`decode_encode`).
-/

namespace EditorBridge.Uri.Percent

/-- The escape of a byte. -/
def escape (b : UInt8) : List Char :=
  ['%', Text.Hex.upperDigit (b.toNat / 16), Text.Hex.upperDigit (b.toNat % 16)]

/-- Bytes as text; the bytes that `keep` admits are written as the ASCII character they are. -/
def encode (keep : UInt8 → Bool) (bytes : List UInt8) : List Char :=
  bytes.flatMap fun b => if keep b then [Char.ofNat b.toNat] else escape b

/-- The byte that two hexadecimal digits give. -/
def byte? (high low : Char) : Option UInt8 :=
  (Text.Hex.value? high).bind fun h =>
    (Text.Hex.value? low).map fun l => UInt8.ofNat (16 * h + l)

/-- The bytes that a text stands for. -/
def decode : List Char → List UInt8
  | [] => []
  | '%' :: high :: low :: rest =>
      match byte? high low with
      | some b => b :: decode rest
      | none => 37 :: decode (high :: low :: rest)
  | c :: rest => String.utf8EncodeChar c ++ decode rest

theorem byte?_escape (b : UInt8) :
    byte? (Text.Hex.upperDigit (b.toNat / 16)) (Text.Hex.upperDigit (b.toNat % 16)) = some b := by
  have bound := b.toNat_lt
  have high : b.toNat / 16 < 16 := by omega
  have low : b.toNat % 16 < 16 := by omega
  simp only [byte?, Text.Hex.value?_upperDigit high, Text.Hex.value?_upperDigit low,
    Option.bind_some, Option.map_some, Option.some.injEq]
  rw [show 16 * (b.toNat / 16) + b.toNat % 16 = b.toNat by omega]
  exact UInt8.ofNat_toNat

theorem decode_cons_of_ne {c : Char} (rest : List Char) (h : c ≠ '%') :
    decode (c :: rest) = String.utf8EncodeChar c ++ decode rest := by
  conv => lhs; unfold decode
  split
  · next heq => exact absurd heq (by simp)
  · next heq => exact absurd (List.cons.inj heq).1 h
  · next heq =>
      obtain ⟨rfl, rfl⟩ := List.cons.inj heq
      rfl

theorem decode_escape (b : UInt8) (rest : List Char) :
    decode (escape b ++ rest) = b :: decode rest := by
  simp only [escape, List.cons_append, List.nil_append, decode, byte?_escape]

/-- The UTF-8 form of a character below U+0080 is its number. -/
theorem utf8EncodeChar_ofNat {n : Nat} (h : n < 0x80) :
    String.utf8EncodeChar (Char.ofNat n) = [UInt8.ofNat n] := by
  have : ∀ m, m < 0x80 → String.utf8EncodeChar (Char.ofNat m) = [UInt8.ofNat m] := by decide
  exact this n h

theorem ofNat_ne_percent {n : Nat} (small : n < 0x80) (h : n ≠ 37) : Char.ofNat n ≠ '%' := by
  have : ∀ m, m < 0x80 → m ≠ 37 → Char.ofNat m ≠ '%' := by decide
  exact this n small h

/-- Reading gives the bytes back if only ASCII bytes other than the percent sign are kept. -/
theorem decode_encode (keep : UInt8 → Bool)
    (plain : ∀ b, keep b = true → b.toNat < 0x80 ∧ b.toNat ≠ 37) (bytes : List UInt8)
    (rest : List Char) : decode (encode keep bytes ++ rest) = bytes ++ decode rest := by
  induction bytes with
  | nil => rfl
  | cons b bytes ih =>
      simp only [encode] at ih
      simp only [encode, List.flatMap_cons, List.append_assoc, List.cons_append]
      split
      · next kept =>
          obtain ⟨small, other⟩ := plain b kept
          rw [List.cons_append, List.nil_append, decode_cons_of_ne _ (ofNat_ne_percent small other),
            utf8EncodeChar_ofNat small, ih]
          simp [UInt8.ofNat_toNat]
      · rw [decode_escape, ih]

end EditorBridge.Uri.Percent
