import EditorBridge.Text.Utf8

/-!
# Lines and byte positions

A text as lines, and positions in it that count bytes of UTF-8. A byte position splits a text in
two if it lies between two characters; inside a character it splits nothing. `splitAtByte?` and
`byteLength` belong together: a text is split where the byte length of the first part says.
-/

namespace EditorBridge.Text

/-- The lines of a text with their line feeds. The first argument holds the line being read,
reversed. -/
def fullLinesFrom (line : List Char) : List Char → List (List Char)
  | [] => if line.isEmpty then [] else [line.reverse]
  | c :: rest =>
      if c = '\n' then (c :: line).reverse :: fullLinesFrom [] rest
      else fullLinesFrom (c :: line) rest

/-- The lines of a text, each with the line feed that ends it. -/
def fullLines (s : List Char) : List (List Char) :=
  fullLinesFrom [] s

/-- A line without its line feed, and without the carriage return in front of that. -/
def withoutLineEnd (line : List Char) : List Char :=
  match line.reverse with
  | '\n' :: '\r' :: rest => rest.reverse
  | '\n' :: rest => rest.reverse
  | _ => line

/-- The lines of a text without what ends them. -/
def lines (s : List Char) : List (List Char) :=
  (fullLines s).map withoutLineEnd

/-- The parts of a text before and after a byte position, if that lies between two characters. -/
def splitAtByte? (n : Nat) (s : List Char) : Option (List Char × List Char) :=
  match n, s with
  | 0, s => some ([], s)
  | _ + 1, [] => none
  | n + 1, c :: rest =>
      if c.utf8Size ≤ n + 1 then
        (splitAtByte? (n + 1 - c.utf8Size) rest).map fun (before, after) => (c :: before, after)
      else none
termination_by structural s

/-- The byte position of the first occurrence of a pattern, counted from `offset`. -/
def find? (offset : Nat) (pattern : List Char) : List Char → Option Nat
  | [] => if pattern.isEmpty then some offset else none
  | c :: rest =>
      if pattern.isPrefixOf (c :: rest) then some offset
      else find? (offset + c.utf8Size) pattern rest

/-- The byte positions of the occurrences of a pattern, each looked for behind the one before it.
`skip` is the number of characters that still belong to an occurrence. -/
def occurrencesFrom (pattern : List Char) (offset skip : Nat) : List Char → List Nat
  | [] => []
  | c :: rest =>
      if skip = 0 && pattern.isPrefixOf (c :: rest) then
        offset :: occurrencesFrom pattern (offset + c.utf8Size) (pattern.length - 1) rest
      else occurrencesFrom pattern (offset + c.utf8Size) (skip - 1) rest

/-- The byte positions of the occurrences of a pattern that do not overlap, from the left. -/
def occurrences (pattern s : List Char) : List Nat :=
  occurrencesFrom pattern 0 0 s

theorem byteLength_cons (c : Char) (s : List Char) :
    Utf8.byteLength (c :: s) = c.utf8Size + Utf8.byteLength s := by
  have shift : ∀ (s : List Char) (n : Nat),
      s.foldl (fun n c => n + c.utf8Size) n = n + s.foldl (fun n c => n + c.utf8Size) 0 := by
    intro s
    induction s with
    | nil => simp
    | cons c s ih =>
        intro n
        simp only [List.foldl_cons]
        rw [ih (n + c.utf8Size), ih (0 + c.utf8Size)]
        omega
  simp only [Utf8.byteLength, List.foldl_cons]
  rw [shift s (0 + c.utf8Size)]
  omega

/-- A text is split behind its first part by the byte length of that part. -/
theorem splitAtByte?_append (a b : List Char) :
    splitAtByte? (Utf8.byteLength a) (a ++ b) = some (a, b) := by
  induction a with
  | nil => cases b <;> simp [Utf8.byteLength, splitAtByte?]
  | cons c a ih =>
      have positive := Char.utf8Size_pos c
      rw [byteLength_cons]
      obtain ⟨n, hn⟩ : ∃ n, c.utf8Size + Utf8.byteLength a = n + 1 :=
        ⟨c.utf8Size + Utf8.byteLength a - 1, by omega⟩
      rw [hn, List.cons_append, splitAtByte?, if_pos (by omega), ← hn,
        show c.utf8Size + Utf8.byteLength a - c.utf8Size = Utf8.byteLength a by omega, ih]
      rfl

end EditorBridge.Text
