import Mathlib.Data.List.DropRight
import EditorBridge.Text.Blank

/-!
# Gaps and words

A gap is made of blank characters, a word has none. Trimming takes the gaps around a text away and
nothing else (`trim_around`). A text is spaced from words if they stand in it one after the other
with a gap between any two; these words are what is read of it, whatever gap stands in front of it
or behind it (`words_of_isSpaced`).
-/

namespace EditorBridge.Text

/-- Whether a text is made of blank characters. -/
def IsGap (s : List Char) : Prop :=
  ∀ c ∈ s, isBlank c = true

/-- Whether a text has characters, and none of them is blank. -/
def IsWord (s : List Char) : Prop :=
  s ≠ [] ∧ ∀ c ∈ s, isBlank c = false

instance (s : List Char) : Decidable (IsGap s) :=
  decidable_of_iff (s.all isBlank = true) List.all_eq_true

instance (s : List Char) : Decidable (IsWord s) :=
  decidable_of_iff (s ≠ [] ∧ s.all (!isBlank ·) = true) (by simp [IsWord])

/-- Whether a text is made of words, one after the other with a gap between any two. -/
inductive IsSpaced : List (List Char) → List Char → Prop where
  | last (word : List Char) : IsSpaced [word] word
  | more {words : List (List Char)} {rest : List Char} (word gap : List Char) (filled : gap ≠ [])
      (blank : IsGap gap) (spaced : IsSpaced words rest) :
      IsSpaced (word :: words) (word ++ gap ++ rest)

variable {s t gap word : List Char}

/-! ### Trimming -/

theorem trim_eq_nil_iff {s : List Char} : trim s = [] ↔ ∀ c ∈ s, isBlank c = true := by
  have ends (t : List Char) : trimEnd t = [] ↔ ∀ c ∈ t, isBlank c = true := by
    rw [trimEnd, List.reverse_eq_nil_iff, List.dropWhile_eq_nil_iff]
    simp
  rw [trim, ends, ← List.dropWhile_eq_nil_iff, trimStart, List.dropWhile_idempotent,
    List.dropWhile_eq_nil_iff]

/-- Blanks in front of a text are trimmed. -/
theorem trim_append_of_blank {s : List Char} (blank : ∀ c ∈ s, isBlank c = true)
    (t : List Char) : trim (s ++ t) = trim t := by
  rw [trim, trim, trimStart, trimStart, List.dropWhile_append_of_pos blank]

theorem trimEnd_append_of_blank (blank : IsGap gap) (s : List Char) :
    trimEnd (s ++ gap) = trimEnd s := by
  have behind : ∀ c ∈ gap.reverse, isBlank c = true := fun c inside =>
    blank c (List.mem_reverse.mp inside)
  rw [trimEnd, trimEnd, List.reverse_append, List.dropWhile_append_of_pos behind]

theorem trimStart_of_head? (solid : ∀ c ∈ s.head?, isBlank c = false) : trimStart s = s := by
  cases s with
  | nil => rfl
  | cons c s => exact trimStart_of_head c s (solid c rfl)

theorem trimEnd_of_getLast? (solid : ∀ c ∈ s.getLast?, isBlank c = false) : trimEnd s = s := by
  have start : trimStart s.reverse = s.reverse :=
    trimStart_of_head? fun c first => solid c (List.head?_reverse ▸ first)
  rw [trimEnd, ← trimStart, start, List.reverse_reverse]

/-- What is left of a text is what stands between the gaps around it. -/
theorem trim_around {before after : List Char} (front : IsGap before) (behind : IsGap after)
    (filled : s ≠ []) (first : ∀ c ∈ s.head?, isBlank c = false)
    (last : ∀ c ∈ s.getLast?, isBlank c = false) : trim (before ++ s ++ after) = s := by
  have start : trimStart (s ++ after) = s ++ after := by
    refine trimStart_of_head? fun c inside => first c ?_
    rwa [List.head?_append_of_ne_nil _ filled] at inside
  rw [List.append_assoc, trim_append_of_blank front, trim, start, trimEnd_append_of_blank behind,
    trimEnd_of_getLast? last]

/-! ### Words -/

/-- A text without blank characters goes on with the word that is being read. -/
theorem wordsFrom_append (solid : ∀ c ∈ s, isBlank c = false) (word t : List Char) :
    wordsFrom word (s ++ t) = wordsFrom (s.reverse ++ word) t := by
  induction s generalizing word with
  | nil => rfl
  | cons c s ih =>
      rw [List.forall_mem_cons] at solid
      rw [List.cons_append, wordsFrom, if_neg (by simp [solid.1]), ih solid.2]
      simp

/-- Nothing is read of a gap in front of a text. -/
theorem words_append_of_blank (blank : IsGap gap) (t : List Char) : words (gap ++ t) = words t := by
  rw [words, words]
  induction gap with
  | nil => rfl
  | cons c gap ih =>
      obtain ⟨first, others⟩ := List.forall_mem_cons.mp blank
      rw [List.cons_append, wordsFrom, if_pos first]
      exact ih others

/-- No word is read just of the texts that are gaps. -/
theorem words_eq_nil_iff : words s = [] ↔ IsGap s := by
  have begun (s : List Char) : ∀ word, word ≠ [] → wordsFrom word s ≠ [] := by
    induction s with
    | nil => intro word filled; simp [wordsFrom, filled]
    | cons c s ih =>
        intro word filled
        rw [wordsFrom]
        split
        · simp [filled]
        · exact ih (c :: word) (List.cons_ne_nil c word)
  constructor
  · intro none c inside
    induction s with
    | nil => cases inside
    | cons d s ih =>
        rw [words, wordsFrom] at none
        by_cases blank : isBlank d = true
        · rw [if_pos blank] at none
          rcases List.mem_cons.mp inside with rfl | later
          · exact blank
          · exact ih none later
        · rw [if_neg blank] at none
          exact absurd none (begun s [d] (List.cons_ne_nil d []))
  · intro blank
    have all := words_append_of_blank blank []
    rwa [List.append_nil] at all

/-- A word ends with the gap behind it. -/
theorem words_word_append (isWord : IsWord word) (filled : gap ≠ []) (blank : IsGap gap)
    (t : List Char) : words (word ++ gap ++ t) = word :: words t := by
  obtain ⟨some, solid⟩ := isWord
  cases gap with
  | nil => exact absurd rfl filled
  | cons c gap =>
      obtain ⟨first, others⟩ := List.forall_mem_cons.mp blank
      have rest := words_append_of_blank others t
      rw [words] at rest
      rw [words, List.append_assoc, wordsFrom_append solid, List.append_nil, List.cons_append,
        wordsFrom, if_pos first, if_neg (by simpa using some), rest, List.reverse_reverse]

theorem words_word (isWord : IsWord word) (behind : IsGap gap) : words (word ++ gap) = [word] := by
  cases gap with
  | nil =>
      rw [words, wordsFrom_append isWord.2, wordsFrom]
      simp [isWord.1]
  | cons c gap =>
      have one := words_word_append isWord (List.cons_ne_nil c gap) behind []
      rw [List.append_nil] at one
      exact one

/-- What is read of a text that is spaced from words are these words. -/
theorem words_of_isSpaced {all : List (List Char)} (spaced : IsSpaced all s)
    (proper : ∀ word ∈ all, IsWord word) {before after : List Char} (front : IsGap before)
    (behind : IsGap after) : words (before ++ s ++ after) = all := by
  rw [List.append_assoc, words_append_of_blank front]
  induction spaced with
  | last word => exact words_word (proper word (List.mem_singleton_self word)) behind
  | more word gap filled blank spaced ih =>
      rw [List.forall_mem_cons] at proper
      rw [List.append_assoc, words_word_append proper.1 filled blank, ih proper.2]

end EditorBridge.Text
