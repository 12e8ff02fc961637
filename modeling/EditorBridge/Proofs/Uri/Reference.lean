import EditorBridge.Proofs.Uri.File

/-!
# Files with a URI in the narrow sense

The URI of a file leaves a visible character alone if it means nothing in the path of a URI. Four of
these characters stand nowhere in the path of a reference: the square brackets, the circumflex and
the bar. So a file has a URI for a server just if its path is absolute and free of them
(`exists_ofFileStrict?_iff`).
-/

namespace EditorBridge

namespace Text

theorem mem_join_of_mem {α : Type} {separator c : α} {part : List α} {parts : List (List α)}
    (inside : part ∈ parts) (here : c ∈ part) : c ∈ join separator parts := by
  induction parts with
  | nil => cases inside
  | cons first parts ih =>
      by_cases last : parts = []
      · rw [last, List.mem_singleton] at inside
        rw [last, join, ← inside]
        exact here
      · rw [join_cons _ _ last, List.mem_append, List.mem_cons]
        rcases List.mem_cons.mp inside with rfl | later
        · exact .inl here
        · exact .inr (.inr (ih later))

/-- A character that makes no difference between spellings stands in a path just if it stands in one
of the names. -/
theorem mem_iff_mem_pathNames {path : List Char} {c : Char} (notSlash : c ≠ '/')
    (notPoint : c ≠ '.') : c ∈ path ↔ ∃ name ∈ pathNames path, c ∈ name := by
  have whole : join '/' (split (· == '/') path) = path := join_split '/' path
  constructor
  · intro inside
    rw [← whole] at inside
    rcases mem_join inside with slash | ⟨part, found, here⟩
    · exact absurd slash notSlash
    · refine ⟨part, mem_pathNames.mpr ⟨found, List.ne_nil_of_mem here, ?_⟩, here⟩
      rintro rfl
      exact notPoint (List.mem_singleton.mp here)
  · rintro ⟨name, inside, here⟩
    rw [← whole]
    exact mem_join_of_mem (mem_pathNames.mp inside).1 here

end Text

namespace Uri

/-- Whether a character stands in the URI of a file as it is, but in no path of a reference. -/
def IsStray (c : Char) : Prop :=
  c = '[' ∨ c = ']' ∨ c = '^' ∨ c = '|'

instance (c : Char) : Decidable (IsStray c) :=
  inferInstanceAs (Decidable (c = '[' ∨ c = ']' ∨ c = '^' ∨ c = '|'))

namespace Reference

/-- Whether a character stands in a path as it is. -/
def isPathChar (c : Char) : Bool :=
  isSegmentChar c || c == '/'

variable (admits : Char → Bool)

theorem consistsOf_cons {c : Char} (rest : List Char) (other : c ≠ '%') :
    consistsOf admits (c :: rest) = (admits c && consistsOf admits rest) := by
  conv => lhs; unfold consistsOf
  split
  · next form => cases form
  · next form => exact absurd (List.cons.inj form).1 other
  · next form =>
      obtain ⟨rfl, rfl⟩ := List.cons.inj form
      rw [bne_iff_ne.mpr other, Bool.true_and]

theorem consistsOf_escape (b : UInt8) (rest : List Char) :
    consistsOf admits (Percent.escape b ++ rest) = consistsOf admits rest := by
  have bound := b.toNat_lt
  have digit : ∀ n, n < 16 → Text.Hex.isDigit (Text.Hex.upperDigit n) = true := by decide
  have high := digit (b.toNat / 16) (by omega)
  have low := digit (b.toNat % 16) (by omega)
  rw [Percent.escape, List.cons_append, List.cons_append, List.cons_append, List.nil_append,
    consistsOf, high, low, Bool.true_and, Bool.true_and]

/-- Of written bytes, only those count that are written as they are. -/
theorem consistsOf_encode {keep : UInt8 → Bool}
    (plain : ∀ b, keep b = true → b.toNat < 0x80 ∧ b.toNat ≠ 37) (bytes : List UInt8)
    (rest : List Char) :
    consistsOf admits (Percent.encode keep bytes ++ rest) = true ↔
      (∀ b ∈ bytes, keep b = true → admits (Char.ofNat b.toNat) = true) ∧
        consistsOf admits rest = true := by
  induction bytes with
  | nil => simp [Percent.encode]
  | cons b bytes ih =>
      rw [Percent.encode, List.flatMap_cons, ← Percent.encode, List.append_assoc,
        List.forall_mem_cons]
      by_cases kept : keep b = true
      · obtain ⟨small, percent⟩ := plain b kept
        rw [if_pos kept, List.singleton_append,
          consistsOf_cons _ _ (Percent.ofNat_ne_percent small percent), Bool.and_eq_true, ih]
        simp [kept, and_assoc]
      · rw [if_neg kept, consistsOf_escape, ih]
        simp [kept]

end Reference

open Reference

theorem isPlain_iff {b : UInt8} (plain : isPlain b = true) :
    isPathChar (Char.ofNat b.toNat) = true ↔ ¬ IsStray (Char.ofNat b.toNat) := by
  have all : ∀ n, n < 0x7F → 0x20 < n → isPlain (UInt8.ofNat n) = true →
      (isPathChar (Char.ofNat n) = true ↔ ¬ IsStray (Char.ofNat n)) := by decide
  obtain ⟨least, most, -⟩ := isPlain_bounds plain
  exact all b.toNat most least (by rwa [UInt8.ofNat_toNat])

/-- A name is written without stray characters just if it holds none. -/
theorem forall_encode_iff {name : List Char} :
    (∀ b ∈ Text.Utf8.encode name, isPlain b = true → isPathChar (Char.ofNat b.toNat) = true) ↔
      ∀ c ∈ name, ¬ IsStray c := by
  constructor
  · intro written c inside stray
    have alone : String.utf8EncodeChar c = [UInt8.ofNat c.toNat] ∧
        isPlain (UInt8.ofNat c.toNat) = true ∧
          Char.ofNat (UInt8.ofNat c.toNat).toNat = c := by
      rcases stray with rfl | rfl | rfl | rfl <;> decide
    obtain ⟨bytes, plain, same⟩ := alone
    have here : UInt8.ofNat c.toNat ∈ Text.Utf8.encode name := by
      rw [Text.Utf8.encode, List.mem_flatMap]
      exact ⟨c, inside, by rw [bytes]; exact List.mem_singleton_self _⟩
    have admitted := written _ here plain
    rw [isPlain_iff plain, same] at admitted
    exact admitted stray
  · intro free b inside plain
    rw [Text.Utf8.encode, List.mem_flatMap] at inside
    obtain ⟨c, found, here⟩ := inside
    obtain ⟨-, most, -⟩ := isPlain_bounds plain
    obtain ⟨-, rfl⟩ := Text.Utf8.eq_of_mem_utf8EncodeChar (show b.toNat < 0x80 by omega) here
    exact (isPlain_iff plain).mpr (free _ found)

theorem isPlain_ascii {b : UInt8} (plain : isPlain b = true) :
    b.toNat < 0x80 ∧ b.toNat ≠ 37 := by
  obtain ⟨-, most, -, percent, -⟩ := isPlain_bounds plain
  exact ⟨by omega, percent⟩

theorem consistsOf_join {names : List (List Char)} :
    consistsOf isPathChar (Text.join '/' (names.map segment)) = true ↔
      ∀ name ∈ names, ∀ c ∈ name, ¬ IsStray c := by
  have encoded (name rest : List Char) : consistsOf isPathChar (segment name ++ rest) = true ↔
      (∀ c ∈ name, ¬ IsStray c) ∧ consistsOf isPathChar rest = true := by
    rw [segment, consistsOf_encode isPathChar (fun _ => isPlain_ascii), forall_encode_iff]
  induction names with
  | nil => simp [Text.join, consistsOf]
  | cons name names ih =>
      rw [List.map_cons, List.forall_mem_cons]
      by_cases last : names = []
      · have alone := encoded name []
        rw [List.append_nil] at alone
        simp [last, Text.join, alone, consistsOf]
      · have slash : isPathChar '/' = true := by decide
        rw [Text.join_cons _ _ (by simpa using last), encoded,
          consistsOf_cons _ _ (by decide), slash, Bool.true_and]
        exact and_congr_right fun _ => ih

/-- A URI without a host is a reference just if its path is one. -/
theorem isReference_file {rest : List Char} (noTail : ∀ c ∈ rest, c ≠ '?' ∧ c ≠ '#') :
    isReference (filePrefix ++ '/' :: rest) = consistsOf isPathChar rest := by
  have path : ('/' :: rest).takeWhile (fun c => c != '?' && c != '#') = '/' :: rest := by
    rw [List.takeWhile_eq_self_iff, List.forall_mem_cons]
    refine ⟨by decide, fun c inside => ?_⟩
    obtain ⟨question, hash⟩ := noTail c inside
    rw [bne_iff_ne.mpr question, bne_iff_ne.mpr hash, Bool.and_self]
  have tail : ('/' :: rest).dropWhile (fun c => c != '?' && c != '#') = [] := by
    rw [List.dropWhile_eq_nil_iff]
    exact List.takeWhile_eq_self_iff.mp path
  have hierarchy : isReference (filePrefix ++ '/' :: rest) = isPathAndTail ('/' :: rest) := rfl
  have slash : isPathChar '/' = true := by decide
  rw [hierarchy, isPathAndTail, path, tail]
  have same : isPath ('/' :: rest) = consistsOf isPathChar ('/' :: rest) := rfl
  rw [same, consistsOf_cons _ _ (by decide), slash, Bool.true_and]
  exact Bool.and_true _

/-- A file has a URI for a server just if its path is absolute and free of stray characters. -/
theorem exists_ofFileStrict?_iff {path : String} :
    (∃ uri, ofFileStrict? path = some uri) ↔
      path.toList.head? = some '/' ∧ ∀ c ∈ path.toList, ¬ IsStray c := by
  have quiet : ∀ c ∈ Text.join '/' ((Text.pathNames path.toList).map segment),
      c ≠ '?' ∧ c ≠ '#' := by
    intro c inside
    rcases Text.mem_join inside with rfl | ⟨part, found, here⟩
    · decide
    · obtain ⟨name, -, rfl⟩ := List.mem_map.mp found
      exact (isQuiet_of_mem_segment here).2.2.2
  have names : (∀ name ∈ Text.pathNames path.toList, ∀ c ∈ name, ¬ IsStray c) ↔
      ∀ c ∈ path.toList, ¬ IsStray c := by
    have same (c : Char) (stray : IsStray c) :=
      @Text.mem_iff_mem_pathNames path.toList c
        (by rintro rfl; revert stray; decide) (by rintro rfl; revert stray; decide)
    constructor
    · intro free c inside stray
      obtain ⟨name, found, here⟩ := (same c stray).mp inside
      exact free name found c here stray
    · intro free name found c here stray
      exact free c ((same c stray).mpr ⟨name, found, here⟩) stray
  rw [← names, ← consistsOf_join]
  simp only [ofFileStrict?, Option.filter_eq_some_iff, ofFile?_eq_some_iff]
  constructor
  · rintro ⟨uri, ⟨absolute, rfl⟩, reference⟩
    rw [String.toList_ofList, isReference_file quiet] at reference
    exact ⟨absolute, reference⟩
  · rintro ⟨absolute, free⟩
    refine ⟨_, ⟨absolute, rfl⟩, ?_⟩
    rw [String.toList_ofList, isReference_file quiet]
    exact free

end Uri

end EditorBridge
