import EditorBridge.Subscriptions
import Mathlib.Data.List.Nodup

/-!
# The table of subscriptions

What entering a subscription and striking a number do to the subscriptions of each event. The names
in the table stay apart, and none is left without a subscription.
-/

namespace EditorBridge.Subscriptions

variable {η : Type}

/-- What is always so of the table: no name stands twice, and none without a subscription. -/
structure Tidy (table : List (String × List (Subscription η))) : Prop where
  distinct : (table.map Prod.fst).Nodup
  filled : ∀ named ∈ table, named.2 ≠ []

variable {table : List (String × List (Subscription η))}

theorem tidy_cons {name : String} {entries : List (Subscription η)} :
    Tidy ((name, entries) :: table) ↔
      name ∉ table.map Prod.fst ∧ entries ≠ [] ∧ Tidy table := by
  constructor
  · intro tidy
    obtain ⟨new, distinct⟩ := List.nodup_cons.mp tidy.distinct
    refine ⟨new, tidy.filled _ List.mem_cons_self, distinct, ?_⟩
    intro named inside
    exact tidy.filled named (List.mem_cons_of_mem _ inside)
  · rintro ⟨new, filled, tidy⟩
    refine ⟨List.nodup_cons.mpr ⟨new, tidy.distinct⟩, ?_⟩
    intro named inside
    rcases List.mem_cons.mp inside with rfl | inside
    · exact filled
    · exact tidy.filled named inside

theorem lookup_of_notMem {event : String} (absent : event ∉ table.map Prod.fst) :
    lookup event table = [] := by
  induction table with
  | nil => rfl
  | cons named table ih =>
      rw [List.map_cons, List.mem_cons, not_or] at absent
      rw [lookup, if_neg (Ne.symm absent.1)]
      exact ih absent.2

theorem lookup_of_mem {named : String × List (Subscription η)} (tidy : Tidy table)
    (inside : named ∈ table) : lookup named.1 table = named.2 := by
  induction table with
  | nil => cases inside
  | cons first table ih =>
      obtain ⟨new, -, rest⟩ := tidy_cons.mp tidy
      rcases List.mem_cons.mp inside with rfl | inside
      · rw [lookup, if_pos rfl]
      · have apart : first.1 ≠ named.1 := by
          intro same
          exact new (same ▸ List.mem_map_of_mem inside)
        rw [lookup, if_neg apart]
        exact ih rest inside

theorem exists_of_mem_lookup {event : String} {entry : Subscription η}
    (inside : entry ∈ lookup event table) : ∃ named ∈ table, entry ∈ named.2 := by
  induction table with
  | nil => cases inside
  | cons first table ih =>
      rw [lookup] at inside
      split at inside
      · exact ⟨first, List.mem_cons_self, inside⟩
      · obtain ⟨named, there, here⟩ := ih inside
        exact ⟨named, List.mem_cons_of_mem _ there, here⟩

/-! ### Entering -/

theorem lookup_enter (event name : String) (new : Subscription η) :
    lookup name (enter event new table) =
      if name = event then lookup event table ++ [new] else lookup name table := by
  induction table with
  | nil =>
      by_cases same : name = event
      · simp [enter, lookup, same]
      · simp [enter, lookup, same, Ne.symm same]
  | cons first table ih =>
      obtain ⟨key, entries⟩ := first
      by_cases here : key = event
      · subst here
        by_cases same : name = key
        · simp [enter, lookup, same]
        · simp [enter, lookup, same, Ne.symm same]
      · by_cases same : name = event
        · subst same
          simpa [enter, lookup, here] using ih
        · simp only [enter, if_neg here, lookup, ih, if_neg same]

theorem names_enter (event : String) (new : Subscription η) :
    (enter event new table).map Prod.fst =
      if event ∈ table.map Prod.fst then table.map Prod.fst
      else table.map Prod.fst ++ [event] := by
  induction table with
  | nil => simp [enter]
  | cons first table ih =>
      obtain ⟨key, entries⟩ := first
      by_cases here : key = event
      · simp [enter, here]
      · rw [enter, if_neg here, List.map_cons, ih]
        by_cases there : event ∈ table.map Prod.fst
        · simp [there]
        · simp [there, Ne.symm here]

theorem tidy_enter (tidy : Tidy table) (event : String) (new : Subscription η) :
    Tidy (enter event new table) := by
  constructor
  · rw [names_enter]
    split
    · exact tidy.distinct
    · next absent =>
        refine List.nodup_append.mpr ⟨tidy.distinct, List.nodup_singleton event, ?_⟩
        intro name inside other last same
        rw [same, List.mem_singleton.mp last] at inside
        exact absent inside
  · induction table with
    | nil => simp [enter]
    | cons first table ih =>
        obtain ⟨key, entries⟩ := first
        obtain ⟨-, filled, rest⟩ := tidy_cons.mp tidy
        intro named inside
        rw [enter] at inside
        split at inside
        · rcases List.mem_cons.mp inside with rfl | inside
          · simp
          · exact rest.filled named inside
        · rcases List.mem_cons.mp inside with rfl | inside
          · exact filled
          · exact ih rest named inside

/-! ### Striking -/

theorem names_strike (id : UInt64) :
    ((strike id table).map Prod.fst).Sublist (table.map Prod.fst) := by
  induction table with
  | nil => exact List.Sublist.refl _
  | cons first table ih =>
      rw [strike]
      split
      · exact ih.cons first.1
      · exact ih.cons_cons first.1

theorem lookup_strike (tidy : Tidy table) (id : UInt64) (event : String) :
    lookup event (strike id table) = (lookup event table).filter (·.id != id) := by
  induction table with
  | nil => rfl
  | cons first table ih =>
      obtain ⟨key, entries⟩ := first
      obtain ⟨new, -, rest⟩ := tidy_cons.mp tidy
      rw [strike]
      by_cases here : key = event
      · subst here
        rw [lookup, if_pos rfl]
        split
        · next none => rw [ih rest, lookup_of_notMem new, none]; rfl
        · next left => rw [lookup, if_pos rfl, left]
      · rw [lookup, if_neg here]
        split
        · exact ih rest
        · rw [lookup, if_neg here]
          exact ih rest

theorem tidy_strike (tidy : Tidy table) (id : UInt64) : Tidy (strike id table) := by
  refine ⟨(names_strike id).nodup tidy.distinct, ?_⟩
  clear tidy
  induction table with
  | nil => simp [strike]
  | cons first table ih =>
      intro named inside
      rw [strike] at inside
      split at inside
      · exact ih named inside
      · rcases List.mem_cons.mp inside with rfl | inside
        · simp
        · exact ih named inside

theorem contains_iff {s : Subscriptions η} (tidy : Tidy s.byEvent) {id : UInt64} :
    s.contains id = true ↔ ∃ event, ∃ entry ∈ lookup event s.byEvent, entry.id = id := by
  rw [contains, List.any_eq_true]
  constructor
  · rintro ⟨named, inside, found⟩
    obtain ⟨entry, there, same⟩ := List.any_eq_true.mp found
    refine ⟨named.1, entry, ?_, beq_iff_eq.mp same⟩
    rw [lookup_of_mem tidy inside]
    exact there
  · rintro ⟨event, entry, inside, same⟩
    obtain ⟨named, there, here⟩ := exists_of_mem_lookup inside
    exact ⟨named, there, List.any_eq_true.mpr ⟨entry, here, beq_iff_eq.mpr same⟩⟩

end EditorBridge.Subscriptions
