import EditorBridge.Text.Components

/-!
# Normal forms of absolute paths

Many paths have the same names. One of them is in normal form: it has a slash in front of each name
and nothing else, or is a single slash if there is no name. `normalPath` gives it; a path stays as
it is exactly if it is in normal form (`normalPath_eq_self_iff`).
-/

namespace EditorBridge.Text

/-- The normal form of an absolute path: no empty name, no single point as a name, no slash at the
end. -/
def normalPath (path : List Char) : List Char :=
  '/' :: join '/' (pathNames path)

/-- Whether an absolute path is in normal form. -/
def IsNormalPath (path : List Char) : Prop :=
  ∃ names, path = '/' :: join '/' names ∧
    ∀ name ∈ names, name ≠ [] ∧ name ≠ ['.'] ∧ '/' ∉ name

theorem split_clean {α : Type} {isSeparator : α → Bool} {s part : List α}
    (inside : part ∈ split isSeparator s) : ∀ c ∈ part, isSeparator c = false := by
  induction s generalizing part with
  | nil =>
      rw [split, List.mem_singleton] at inside
      simp [inside]
  | cons c rest ih =>
      intro d here
      rw [split] at inside
      by_cases separates : isSeparator c = true
      · rw [if_pos separates] at inside
        rcases List.mem_cons.mp inside with rfl | later
        · cases here
        · exact ih later d here
      · rw [if_neg separates] at inside
        cases parts : split isSeparator rest with
        | nil => exact absurd parts (split_ne_nil _ _)
        | cons first others =>
            rw [parts] at inside ih
            rcases List.mem_cons.mp inside with rfl | later
            · rcases List.mem_cons.mp here with rfl | here
              · exact eq_false_of_ne_true separates
              · exact ih List.mem_cons_self d here
            · exact ih (List.mem_cons_of_mem _ later) d here

theorem mem_join {α : Type} {separator c : α} {parts : List (List α)}
    (inside : c ∈ join separator parts) : c = separator ∨ ∃ part ∈ parts, c ∈ part := by
  induction parts with
  | nil => cases inside
  | cons part parts ih =>
      by_cases last : parts = []
      · rw [last, join] at inside
        exact .inr ⟨part, List.mem_cons_self, inside⟩
      · rw [join_cons _ _ last, List.mem_append, List.mem_cons] at inside
        rcases inside with here | rfl | later
        · exact .inr ⟨part, List.mem_cons_self, here⟩
        · exact .inl rfl
        · rcases ih later with same | ⟨other, found, here⟩
          · exact .inl same
          · exact .inr ⟨other, List.mem_cons_of_mem _ found, here⟩

theorem mem_pathNames {path name : List Char} :
    name ∈ pathNames path ↔ name ∈ split (· == '/') path ∧ name ≠ [] ∧ name ≠ ['.'] := by
  simp [pathNames]

theorem slash_notMem_of_mem_pathNames {path name : List Char} (inside : name ∈ pathNames path) :
    '/' ∉ name := by
  intro slash
  have clean := split_clean (mem_pathNames.mp inside).1 '/' slash
  cases clean

/-- The slash at the start of a path makes no name. -/
theorem pathNames_slash (path : List Char) : pathNames ('/' :: path) = pathNames path := by
  simp [pathNames, split]

/-- The names that were joined are the names of the path. -/
theorem pathNames_join {names : List (List Char)}
    (proper : ∀ name ∈ names, name ≠ [] ∧ name ≠ ['.'] ∧ '/' ∉ name) :
    pathNames (join '/' names) = names := by
  by_cases filled : names = []
  · rw [filled]
    rfl
  · have clean : ∀ name ∈ names, ∀ c ∈ name, (c == '/') = false := by
      intro name inside c here
      rw [beq_eq_false_iff_ne]
      intro same
      exact (proper name inside).2.2 (same ▸ here)
    rw [pathNames, split_join _ _ names (by decide) filled clean, List.filter_eq_self]
    intro name inside
    obtain ⟨notEmpty, notPoint, -⟩ := proper name inside
    simp [notEmpty, notPoint]

theorem isNormalPath_normalPath (path : List Char) : IsNormalPath (normalPath path) := by
  refine ⟨pathNames path, rfl, ?_⟩
  intro name inside
  obtain ⟨-, notEmpty, notPoint⟩ := mem_pathNames.mp inside
  exact ⟨notEmpty, notPoint, slash_notMem_of_mem_pathNames inside⟩

theorem normalPath_eq_self_iff {path : List Char} : normalPath path = path ↔ IsNormalPath path := by
  constructor
  · intro same
    rw [← same]
    exact isNormalPath_normalPath path
  · rintro ⟨names, rfl, proper⟩
    rw [normalPath, pathNames_slash, pathNames_join proper]

end EditorBridge.Text
