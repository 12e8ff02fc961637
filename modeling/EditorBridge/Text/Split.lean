/-!
# Splitting at separators

A text as the list of its parts between separators, and back. There is always one part more than
there are separators, so parts may be empty. Search paths, lists of extensions, lines and the paths
of URIs are all split by `split`; joining and splitting undo each other (`split_join`,
`join_split`).
-/

namespace EditorBridge.Text

variable {α : Type}

/-- The parts of a list between the elements that are separators. -/
def split (isSeparator : α → Bool) : List α → List (List α)
  | [] => [[]]
  | c :: rest =>
      if isSeparator c then [] :: split isSeparator rest
      else
        match split isSeparator rest with
        | part :: parts => (c :: part) :: parts
        | [] => [[c]]

/-- The parts one after the other with a separator between any two. -/
def join (separator : α) : List (List α) → List α
  | [] => []
  | [part] => part
  | part :: next :: parts => part ++ separator :: join separator (next :: parts)

theorem split_ne_nil (isSeparator : α → Bool) (s : List α) : split isSeparator s ≠ [] := by
  cases s with
  | nil => simp [split]
  | cons c rest =>
      simp only [split]
      split
      · simp
      · split <;> simp

theorem split_append (isSeparator : α → Bool) (part rest : List α)
    (clean : ∀ c ∈ part, isSeparator c = false) :
    split isSeparator (part ++ rest) =
      (part ++ (split isSeparator rest).headD []) :: (split isSeparator rest).tail := by
  induction part with
  | nil =>
      cases h : split isSeparator rest with
      | nil => exact absurd h (split_ne_nil _ _)
      | cons head tail => simp [h]
  | cons c part ih =>
      simp only [List.mem_cons, forall_eq_or_imp] at clean
      simp [split, clean.1, ih clean.2]

/-- Splitting finds the parts that were joined, if none of them holds a separator. -/
theorem split_join (isSeparator : α → Bool) (separator : α) (parts : List (List α))
    (separates : isSeparator separator = true) (filled : parts ≠ [])
    (clean : ∀ part ∈ parts, ∀ c ∈ part, isSeparator c = false) :
    split isSeparator (join separator parts) = parts := by
  induction parts with
  | nil => exact absurd rfl filled
  | cons part parts ih =>
      cases parts with
      | nil =>
          have := split_append isSeparator part [] (clean part (by simp))
          simpa [join, split] using this
      | cons next parts =>
          rw [join, split_append isSeparator part _ (clean part (by simp))]
          have := ih (by simp) fun p hp => clean p (List.mem_cons_of_mem _ hp)
          simp [split, separates, this]

theorem join_cons (separator : α) (part : List α) {parts : List (List α)} (filled : parts ≠ []) :
    join separator (part :: parts) = part ++ separator :: join separator parts := by
  cases parts with
  | nil => exact absurd rfl filled
  | cons next parts => rfl

/-- Joining the parts between all occurrences of one separator gives the text back. -/
theorem join_split [DecidableEq α] (separator : α) (s : List α) :
    join separator (split (fun c => decide (c = separator)) s) = s := by
  induction s with
  | nil => rfl
  | cons c s ih =>
      have filled := split_ne_nil (fun c => decide (c = separator)) s
      simp only [split]
      split
      · next same =>
          rw [join_cons _ _ filled, ih]
          simp [of_decide_eq_true same]
      · cases h : split (fun c => decide (c = separator)) s with
        | nil => exact absurd h filled
        | cons part parts =>
            rw [h] at ih
            cases parts with
            | nil => simpa [join] using ih
            | cons next parts => simpa [join] using ih

end EditorBridge.Text
