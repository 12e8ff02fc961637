import EditorBridge.Proofs.Rpc.Padding

/-!
# Looks make progress and look no further

Whoever looks at a stream again and again comes to its end, or to where it cannot be read on: every
look before that takes at least one byte. What a look takes is the same whatever follows
(`read_append`), provided that a line feed stands where the last of its lines ends. A look that
finds a body has that line feed in front of the body. A look that finds none may have come to the
end of the stream in the midst of a blank line, and bytes behind it would then belong to this line.
-/

namespace EditorBridge.Rpc.Frame

variable {s rest : List UInt8}

/-- A line that is ended by a line feed does not depend on what follows. -/
theorem takeLine_append_of_mem (feed : 10 ∈ s) (more : List UInt8) :
    takeLine (s ++ more) = ((takeLine s).1, (takeLine s).2 ++ more) := by
  induction s with
  | nil => cases feed
  | cons b s ih =>
      rw [List.cons_append, takeLine, takeLine]
      by_cases here : b = 10
      · rw [if_pos here, if_pos here]
      · rw [if_neg here, if_neg here, ih ((List.mem_cons.mp feed).resolve_left (Ne.symm here))]

/-- Header lines are read alike whatever follows, if a line feed ends the last one of them. -/
theorem readHeaders_append {announced : Option Nat} {headers : Headers}
    (once : readHeaders announced s = .ok (headers, rest)) (inside : headers ≠ .finished)
    (fed : rest ≠ [] ∨ s.getLast? = some 10) (more : List UInt8) :
    readHeaders announced (s ++ more) = .ok (headers, rest ++ more) := by
  -- A line that is not blank is not the last one, or the stream would end in the header lines.
  have nextLine {n : Nat} {s : List UInt8} (fed : rest ≠ [] ∨ s.getLast? = some 10)
      (others : readHeaders (some n) (takeLine s).2 = .ok (headers, rest)) :
      10 ∈ s ∧ (rest ≠ [] ∨ (takeLine s).2.getLast? = some 10) := by
    have left : (takeLine s).2 ≠ [] := by
      intro none
      rw [none, readHeaders] at others
      cases others
    refine ⟨?_, fed.imp_right fun last => ?_⟩
    · rcases takeLine_cases s with ⟨line, -, form⟩ | ⟨-, atEnd⟩
      · rw [← takeLine_append s, form]
        simp
      · exact absurd (congrArg Prod.snd atEnd) left
    · rwa [← takeLine_append s, List.getLast?_append_of_ne_nil _ left] at last
  fun_induction readHeaders announced s with
  | case1 | case5 => cases once
  | case2 =>
      obtain ⟨rfl, -⟩ := Prod.mk.inj (Except.ok.inj once)
      exact absurd rfl inside
  | case3 announced b bytes line after blank =>
      obtain ⟨rfl, rfl⟩ := Prod.mk.inj (Except.ok.inj once)
      have feed : 10 ∈ b :: bytes := by
        rcases takeLine_cases (b :: bytes) with ⟨text, -, form⟩ | ⟨-, atEnd⟩
        · rw [← takeLine_append (b :: bytes), form]
          simp
        · exact List.mem_of_getLast? (fed.resolve_left fun left => left (congrArg Prod.snd atEnd))
      rw [readHeaders_of_ne_nil (by simp), takeLine_append_of_mem feed, if_pos blank]
  | case4 announced b bytes line after filled value found length isLength ih =>
      obtain ⟨feed, fed⟩ := nextLine fed once
      rw [readHeaders_of_ne_nil (by simp), takeLine_append_of_mem feed, if_neg filled, found]
      dsimp only
      rw [isLength]
      exact ih once fed
  | case6 announced b bytes line after filled notFound ih =>
      obtain ⟨feed, fed⟩ := nextLine fed once
      rw [readHeaders_of_ne_nil (by simp), takeLine_append_of_mem feed, if_neg filled, notFound]
      exact ih once fed

/-- A look that finds a message, or whose last line is ended by a line feed, finds the same whatever
follows. -/
theorem read_append {found : FrameRead} (once : read s = .ok (found, rest))
    (goesOn : found.isClosed = false)
    (fed : found.message?.isSome ∨ rest ≠ [] ∨ s.getLast? = some 10) (more : List UInt8) :
    read (s ++ more) = .ok (found, rest ++ more) := by
  rcases headers : readHeaders none s with e | ⟨length | _ | _, behind⟩
  · rw [read, headers] at once
    cases once
  · by_cases hollow : length = 0
    · subst hollow
      rw [read_of_zero headers] at once
      obtain ⟨rfl, rfl⟩ := Prod.mk.inj (Except.ok.inj once)
      exact read_of_zero
        (readHeaders_append headers (by simp) (fed.resolve_left Bool.false_ne_true) more)
    · rw [read_of_body hollow headers] at once
      split at once
      · cases once
      · next whole =>
          -- The body starts behind the header lines, so something is left of the stream there.
          have left : behind ≠ [] := by
            rintro rfl
            exact whole (Nat.pos_of_ne_zero hollow)
          have longer : ¬ (behind ++ more).length < length := by
            rw [List.length_append]
            omega
          have fits : length ≤ behind.length := Nat.le_of_not_lt whole
          rw [read_of_body hollow (readHeaders_append headers (by simp) (.inl left) more),
            if_neg longer, List.take_append_of_le_length fits, List.drop_append_of_le_length fits]
          split at once
          · obtain ⟨rfl, rfl⟩ := Prod.mk.inj (Except.ok.inj once)
            rfl
          · cases once
  · rw [read_of_none headers] at once
    obtain ⟨rfl, rfl⟩ := Prod.mk.inj (Except.ok.inj once)
    exact read_of_none
      (readHeaders_append headers (by simp) (fed.resolve_left Bool.false_ne_true) more)
  · rw [read, headers] at once
    obtain ⟨rfl, -⟩ := Prod.mk.inj (Except.ok.inj once)
    cases goesOn

theorem ne_closed_of_isClosed {found : FrameRead} (goesOn : found.isClosed = false) :
    found ≠ .closed := by
  rintro rfl
  cases goesOn

/-- Each look takes at least one byte. -/
theorem Looks.length_le {founds : List FrameRead} (looks : Looks s founds rest) :
    founds.length + rest.length ≤ s.length := by
  induction looks with
  | none s => exact Nat.le_of_eq (Nat.zero_add _)
  | more look goesOn _ ih =>
      have shorter := Channel.Reader.length_read_lt look (ne_closed_of_isClosed goesOn)
      rw [List.length_cons]
      omega

/-- Looks come to the end of the stream, or to where it cannot be read on. -/
theorem Looks.exists_last (s : List UInt8) : ∃ founds rest, Looks s founds rest ∧
    ((∃ e, read rest = .error e) ∨ ∃ left, read rest = .ok (.closed, left)) := by
  induction size : s.length using Nat.strongRecOn generalizing s with
  | ind n ih =>
      rcases look : read s with e | ⟨found, rest⟩
      · exact ⟨[], s, .none s, .inl ⟨e, look⟩⟩
      · cases goesOn : found.isClosed with
        | true =>
            cases found with
            | closed => exact ⟨[], s, .none s, .inr ⟨rest, look⟩⟩
            | _ => cases goesOn
        | false =>
            have shorter := Channel.Reader.length_read_lt look (ne_closed_of_isClosed goesOn)
            obtain ⟨founds, last, looks, ends⟩ := ih rest.length (size ▸ shorter) rest rfl
            exact ⟨found :: founds, last, .more look goesOn looks, ends⟩

/-- What looks at a stream take of it. A look that finds something takes at least one byte from the
front (`advances`). One look after the other comes to the end of the stream or to an error (`ends`).
There are at most as many looks as bytes (`bounded`). A look that finds a message does not depend on
what follows (`message`). Neither does one that finds an empty frame or a blank line, if a line feed
is the last byte that it takes (`quiet`). -/
structure TakesItsOwn (s : List UInt8) : Prop where
  advances : ∀ found rest, read s = .ok (found, rest) → found.isClosed = false →
    ∃ front, front ≠ [] ∧ s = front ++ rest
  ends : ∃ founds rest, Looks s founds rest ∧
    ((∃ e, read rest = .error e) ∨ ∃ left, read rest = .ok (.closed, left))
  bounded : ∀ founds rest, Looks s founds rest → founds.length + rest.length ≤ s.length
  message : ∀ v rest, read s = .ok (.message v, rest) → ∀ more,
    read (s ++ more) = .ok (.message v, rest ++ more)
  quiet : ∀ found taken rest, found = .empty ∨ found = .idle → s = taken ++ [10] ++ rest →
    read s = .ok (found, rest) → ∀ more, read (s ++ more) = .ok (found, rest ++ more)

/-- A look takes what it finds and nothing else, in every stream of bytes. -/
theorem takesItsOwn (s : List UInt8) : TakesItsOwn s where
  advances := by
    intro found rest look goesOn
    obtain ⟨front, split, -⟩ := read_front look goesOn
    refine ⟨front, ?_, split⟩
    rintro rfl
    have shorter := Channel.Reader.length_read_lt look (ne_closed_of_isClosed goesOn)
    rw [split] at shorter
    exact Nat.lt_irrefl _ shorter
  ends := Looks.exists_last s
  bounded := fun _ _ looks => looks.length_le
  message := fun _ _ look more => read_append look rfl (.inl rfl) more
  quiet := by
    intro found taken rest which split look more
    have goesOn : found.isClosed = false := by
      rcases which with rfl | rfl <;> rfl
    refine read_append look goesOn (.inr ?_) more
    cases rest with
    | nil => exact .inr (by simp [split])
    | cons b rest => exact .inl (List.cons_ne_nil b rest)

end EditorBridge.Rpc.Frame
