import EditorBridge.Proofs.Text.Utf8

/-!
# Where a pattern stands in a text

The occurrences of a pattern are looked for from the left, each behind the one before it. `Scan` is
that search step by step: the text is cut at a byte position, the pattern is looked for in what
stands behind the cut, and the search goes on behind the place where it was found. The search ends,
and every cut lies between two characters (`scan_occurrences`).

Occurrences that overlap one that has been found are passed over. Whatever else stands in the text
begins inside an occurrence that has been found (`Scan.covers`). So an occurrence is not passed over
if the pattern is made of characters of one kind and the character in front of it is of another kind
(`Scan.mem_of_edge`).
-/

namespace EditorBridge.Text

open Utf8 (byteLength byteLength_append)

variable {pattern s before after : List Char} {n m : Nat}

/-! ### Byte positions -/

theorem byteLength_eq_zero_iff : byteLength s = 0 ↔ s = [] := by
  cases s with
  | nil => simp [byteLength]
  | cons c rest =>
      have positive := Char.utf8Size_pos c
      rw [byteLength_cons]
      simp
      omega

/-- What a byte position splits a text into. -/
theorem splitAtByte?_eq_some (split : splitAtByte? n s = some (before, after)) :
    s = before ++ after ∧ byteLength before = n := by
  induction s generalizing n before with
  | nil =>
      cases n with
      | zero =>
          cases split
          exact ⟨rfl, rfl⟩
      | succ n => cases split
  | cons c rest ih =>
      cases n with
      | zero =>
          cases split
          exact ⟨rfl, rfl⟩
      | succ n =>
          rw [splitAtByte?] at split
          split at split
          · next fits =>
              obtain ⟨⟨b, a⟩, found, form⟩ := Option.map_eq_some_iff.mp split
              cases form
              obtain ⟨rfl, size⟩ := ih found
              refine ⟨rfl, ?_⟩
              rw [byteLength_cons, size]
              omega
          · cases split

/-- Of two places in a text the one with fewer bytes before it comes first. -/
theorem append_of_byteLength_le {a b c d : List Char} (form : a ++ b = c ++ d)
    (le : byteLength a ≤ byteLength c) : ∃ e, c = a ++ e ∧ b = e ++ d := by
  rcases List.append_eq_append_iff.mp form with between | ⟨e, rfl, rfl⟩
  · exact between
  · rw [byteLength_append] at le
    obtain rfl : e = [] := byteLength_eq_zero_iff.mp (by omega)
    exact ⟨[], by simp, rfl⟩

/-! ### The first occurrence -/

/-- Whether a pattern stands at a byte position of a text. -/
def StandsAt (pattern s : List Char) (n : Nat) : Prop :=
  ∃ before after, s = before ++ (pattern ++ after) ∧ byteLength before = n

theorem standsAt_nil : StandsAt pattern [] n → pattern = [] := by
  rintro ⟨before, after, form, -⟩
  simp at form
  exact form.2.1

/-- A pattern stands at the beginning of a text, or behind the first character. -/
theorem standsAt_cons {c : Char} {rest : List Char} (stands : StandsAt pattern (c :: rest) n) :
    pattern <+: c :: rest ∨ ∃ m, n = c.utf8Size + m ∧ StandsAt pattern rest m := by
  obtain ⟨before, after, form, rfl⟩ := stands
  cases before with
  | nil => exact .inl ⟨after, form.symm⟩
  | cons d before =>
      obtain ⟨rfl, rfl⟩ := List.cons.inj form
      exact .inr ⟨byteLength before, byteLength_cons .., before, after, rfl, rfl⟩

/-- A pattern that is not found stands nowhere. -/
theorem not_standsAt_of_find? (absent : find? n pattern s = none) : ¬ StandsAt pattern s m := by
  induction s generalizing n m with
  | nil =>
      intro stands
      rw [standsAt_nil stands] at absent
      cases absent
  | cons c rest ih =>
      rw [find?] at absent
      split at absent
      · cases absent
      · next other =>
          intro stands
          rcases standsAt_cons stands with first | ⟨k, -, later⟩
          · exact other (List.isPrefixOf_iff_prefix.mpr first)
          · exact ih absent later

/-- A pattern is found where it stands first. -/
theorem find?_eq_some {k : Nat} (found : find? n pattern s = some k) :
    ∃ before after, s = before ++ (pattern ++ after) ∧ k = n + byteLength before ∧
      ∀ m, StandsAt pattern s m → byteLength before ≤ m := by
  induction s generalizing n with
  | nil =>
      rw [find?] at found
      split at found
      · next empty =>
          obtain rfl := List.isEmpty_iff.mp empty
          cases found
          exact ⟨[], [], rfl, rfl, fun m _ => Nat.zero_le m⟩
      · cases found
  | cons c rest ih =>
      rw [find?] at found
      split at found
      · next first =>
          obtain ⟨after, form⟩ := List.isPrefixOf_iff_prefix.mp first
          cases found
          exact ⟨[], after, form.symm, rfl, fun m _ => Nat.zero_le m⟩
      · next other =>
          obtain ⟨before, after, rfl, rfl, least⟩ := ih found
          refine ⟨c :: before, after, rfl, by rw [byteLength_cons, Nat.add_assoc], ?_⟩
          intro m stands
          rcases standsAt_cons stands with first | ⟨k, rfl, later⟩
          · exact absurd (List.isPrefixOf_iff_prefix.mpr first) other
          · rw [byteLength_cons]
            exact Nat.add_le_add_left (least k later) _

/-! ### The search -/

/-- The search of the occurrences of a pattern from a byte position of a text: the pattern does not
stand behind the position, or it does and the search goes on behind it. -/
inductive Scan (pattern s : List Char) : Nat → List Nat → Prop where
  | stop {n : Nat} {before rest : List Char} (split : splitAtByte? n s = some (before, rest))
      (absent : find? n pattern rest = none) : Scan pattern s n []
  | next {n k : Nat} {before rest : List Char} {found : List Nat}
      (split : splitAtByte? n s = some (before, rest)) (present : find? n pattern rest = some k)
      (more : Scan pattern s (k + byteLength pattern) found) : Scan pattern s n (k :: found)

theorem occurrencesFrom_of_absent (absent : find? n pattern s = none) :
    occurrencesFrom pattern n 0 s = [] := by
  induction s generalizing n with
  | nil => rfl
  | cons c rest ih =>
      rw [find?] at absent
      split at absent
      · cases absent
      · next other =>
          rw [occurrencesFrom, if_neg (by simpa using other)]
          exact ih absent

/-- Nothing is looked for in what still belongs to an occurrence. -/
theorem occurrencesFrom_skip (pattern skipped rest : List Char) (n : Nat) :
    occurrencesFrom pattern n skipped.length (skipped ++ rest) =
      occurrencesFrom pattern (n + byteLength skipped) 0 rest := by
  induction skipped generalizing n with
  | nil => rfl
  | cons c skipped ih =>
      rw [List.cons_append, List.length_cons, occurrencesFrom, if_neg (by simp), Nat.add_sub_cancel,
        ih, byteLength_cons, Nat.add_assoc]

theorem occurrencesFrom_append (filled : pattern ≠ [])
    (found : find? n pattern (before ++ (pattern ++ after)) = some (n + byteLength before)) :
    occurrencesFrom pattern n 0 (before ++ (pattern ++ after)) =
      (n + byteLength before) ::
        occurrencesFrom pattern (n + byteLength before + byteLength pattern) 0 after := by
  induction before generalizing n with
  | nil =>
      cases pattern with
      | nil => exact absurd rfl filled
      | cons p pattern =>
          rw [List.nil_append, List.cons_append, occurrencesFrom, if_pos (by simp),
            List.length_cons, Nat.add_sub_cancel, occurrencesFrom_skip, byteLength_cons]
          simp [byteLength, Nat.add_assoc]
  | cons c before ih =>
      have positive := Char.utf8Size_pos c
      rw [List.cons_append, find?] at found
      split at found
      · simp only [Option.some.injEq, byteLength_cons] at found
        omega
      · next other =>
          rw [byteLength_cons, ← Nat.add_assoc] at found ⊢
          rw [List.cons_append, occurrencesFrom, if_neg (by simpa using other)]
          exact ih found

theorem scan_append (filled : pattern ≠ []) (before rest : List Char) :
    Scan pattern (before ++ rest) (byteLength before)
      (occurrencesFrom pattern (byteLength before) 0 rest) := by
  induction size : rest.length using Nat.strongRecOn generalizing before rest with
  | ind l ih =>
      have split := splitAtByte?_append before rest
      cases found : find? (byteLength before) pattern rest with
      | none =>
          rw [occurrencesFrom_of_absent found]
          exact .stop split found
      | some k =>
          obtain ⟨left, right, rfl, rfl, -⟩ := find?_eq_some found
          rw [occurrencesFrom_append filled found]
          refine .next split found ?_
          have shorter : right.length < l := by
            have positive := List.length_pos_of_ne_nil filled
            simp only [List.length_append] at size
            omega
          have more := ih right.length shorter (before ++ (left ++ pattern)) right rfl
          simpa only [byteLength_append, List.append_assoc, Nat.add_assoc] using more

/-- The search of a pattern that is not empty ends, and it finds the occurrences. -/
theorem scan_occurrences (filled : pattern ≠ []) (s : List Char) :
    Scan pattern s 0 (occurrences pattern s) :=
  scan_append filled [] s

/-! ### What the search finds -/

variable {found : List Nat}

/-- The search cannot find anything else. -/
theorem Scan.unique (scan : Scan pattern s n found) {others : List Nat}
    (other : Scan pattern s n others) : others = found := by
  induction scan generalizing others with
  | stop split absent =>
      cases other with
      | stop => rfl
      | next again present =>
          cases split.symm.trans again
          cases absent.symm.trans present
  | @next n k before rest found split present more ih =>
      cases other with
      | stop again absent =>
          cases split.symm.trans again
          cases absent.symm.trans present
      | next again found later =>
          cases split.symm.trans again
          cases present.symm.trans found
          rw [ih later]

theorem Scan.standsAt (scan : Scan pattern s n found) {k : Nat} (inside : k ∈ found) :
    n ≤ k ∧ StandsAt pattern s k := by
  induction scan with
  | stop => cases inside
  | @next n _ front _ _ split present more ih =>
      obtain ⟨rfl, size⟩ := splitAtByte?_eq_some split
      obtain ⟨left, right, rfl, rfl, -⟩ := find?_eq_some present
      rcases List.mem_cons.mp inside with rfl | later
      · refine ⟨Nat.le_add_right _ _, front ++ left, right, ?_, ?_⟩
        · rw [List.append_assoc]
        · rw [byteLength_append, size]
      · obtain ⟨behind, stands⟩ := ih later
        exact ⟨by omega, stands⟩

/-- No two occurrences that are found overlap, and they are found from the left. -/
theorem Scan.pairwise (scan : Scan pattern s n found) :
    found.Pairwise fun j k => j + byteLength pattern ≤ k := by
  induction scan with
  | stop => exact .nil
  | next _ _ more ih => exact .cons (fun k later => (more.standsAt later).1) ih

/-- Whatever stands in the text begins inside an occurrence that is found. -/
theorem Scan.covers (scan : Scan pattern s n found) (stands : StandsAt pattern s m)
    (behind : n ≤ m) : ∃ k ∈ found, k ≤ m ∧ m < k + byteLength pattern := by
  have inRest : ∀ {n : Nat} {before rest : List Char}, splitAtByte? n s = some (before, rest) →
      n ≤ m → ∃ j, m = n + j ∧ StandsAt pattern rest j := by
    intro n before rest split behind
    obtain ⟨front, back, form, rfl⟩ := stands
    obtain ⟨rfl, rfl⟩ := splitAtByte?_eq_some split
    obtain ⟨between, rfl, rfl⟩ := append_of_byteLength_le form behind
    exact ⟨byteLength between, byteLength_append .., between, back, rfl, rfl⟩
  induction scan with
  | stop split absent =>
      obtain ⟨j, -, later⟩ := inRest split behind
      exact absurd later (not_standsAt_of_find? absent)
  | @next n _ _ _ _ split present more ih =>
      obtain ⟨j, rfl, later⟩ := inRest split behind
      obtain ⟨left, right, -, rfl, least⟩ := find?_eq_some present
      have first := least j later
      by_cases inside : n + j < n + byteLength left + byteLength pattern
      · exact ⟨_, List.mem_cons_self .., by omega, inside⟩
      · obtain ⟨k, found, covers⟩ := ih (by omega)
        exact ⟨k, List.mem_cons_of_mem _ found, covers⟩

/-- An occurrence of a pattern of characters of one kind is found if the character in front of it is
of another kind. -/
theorem Scan.mem_of_edge {isPart : Char → Bool}
    (scan : Scan pattern (before ++ (pattern ++ after)) n found)
    (part : ∀ c ∈ pattern, isPart c = true)
    (edge : ∀ c, before.getLast? = some c → isPart c = false) (behind : n ≤ byteLength before) :
    byteLength before ∈ found := by
  obtain ⟨k, inside, le, lt⟩ := scan.covers ⟨before, after, rfl, rfl⟩ behind
  obtain ⟨-, front, back, form, rfl⟩ := scan.standsAt inside
  obtain ⟨gap, rfl, rest⟩ := append_of_byteLength_le form.symm le
  rw [byteLength_append] at lt
  -- What stands between the two belongs to the pattern, so it ends with a character of its kind.
  obtain ⟨tail, rfl, -⟩ := append_of_byteLength_le rest.symm (by omega)
  cases last : gap.getLast? with
  | none =>
      rw [List.getLast?_eq_none_iff.mp last, List.append_nil]
      exact inside
  | some c =>
      have kind := part c (List.mem_append_left _ (List.mem_of_getLast? last))
      rw [edge c (by rw [List.getLast?_append, last]; rfl)] at kind
      cases kind

end EditorBridge.Text
