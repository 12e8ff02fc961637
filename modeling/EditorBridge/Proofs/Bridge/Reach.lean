import EditorBridge.Proofs.Bridge.Echo
import EditorBridge.Proofs.Uri.Reference

/-!
# What can be said to a server

A command becomes a message just if its path is absolute and free of stray characters and its
coordinates can be counted from zero (`exists_toMessage?_iff`): a query has none that is zero, and a
change has all four of them and none that is zero, or none at all. The stray characters are the only
thing about the names in an absolute path that keeps a command back. There is a path of a file for
which nothing can be said (`not_exists_toMessage?_bracket`), though it has a URI that leads back to
it.
-/

namespace EditorBridge

/-- Whether a place counts from one. -/
def Spot.CountsFromOne (s : Spot) : Prop :=
  1 ≤ s.line ∧ 1 ≤ s.offset

/-- Whether a change gives no coordinates, or all of them and each counted from one. -/
def Edit.CountsFromOne (e : Edit) : Prop :=
  e.line = none ∧ e.offset = none ∧ e.endLine = none ∧ e.endOffset = none ∨
    ∃ line offset endLine endOffset, e.line = some line ∧ e.offset = some offset ∧
      e.endLine = some endLine ∧ e.endOffset = some endOffset ∧
        1 ≤ line ∧ 1 ≤ offset ∧ 1 ≤ endLine ∧ 1 ≤ endOffset

/-- Whether the coordinates of a request count from one. -/
def Request.CountsFromOne : Request → Prop
  | quickInfo spot | definition spot | references spot => spot.CountsFromOne
  | openFile _ => True
  | changeFile edit => edit.CountsFromOne

theorem Server.Position.exists_ofPoint?_iff_le {line offset : UInt32} :
    (∃ position, ofPoint? ⟨line, offset⟩ = some position) ↔ 1 ≤ line ∧ 1 ≤ offset := by
  have counted (n : UInt32) : n ≠ 0 ↔ 1 ≤ n := by
    rw [UInt32.le_iff_toNat_le, Ne, ← UInt32.toNat_inj]
    exact Nat.pos_iff_ne_zero.symm
  rw [exists_ofPoint?_iff, counted, counted]

theorem Edit.exists_range?_iff {e : Edit} :
    (∃ range, e.range? = some range) ↔ e.CountsFromOne := by
  obtain ⟨file, insertString, line, offset, endLine, endOffset, version⟩ := e
  constructor
  · rintro ⟨range, ranged⟩
    -- Only all of the coordinates or none of them make a range.
    cases line <;> cases offset <;> cases endLine <;> cases endOffset <;> try cases ranged
    case mp.none.none.none.none.refl => exact .inl ⟨rfl, rfl, rfl, rfl⟩
    case mp.some.some.some.some line offset endLine endOffset =>
      obtain ⟨start, first, ranged⟩ := Option.bind_eq_some_iff.mp ranged
      obtain ⟨finish, last, -⟩ := Option.map_eq_some_iff.mp ranged
      obtain ⟨isLine, isOffset⟩ := Server.Position.exists_ofPoint?_iff_le.mp ⟨start, first⟩
      obtain ⟨isEndLine, isEndOffset⟩ := Server.Position.exists_ofPoint?_iff_le.mp ⟨finish, last⟩
      exact .inr ⟨_, _, _, _, rfl, rfl, rfl, rfl, isLine, isOffset, isEndLine, isEndOffset⟩
  · dsimp only [Edit.CountsFromOne]
    rintro (⟨rfl, rfl, rfl, rfl⟩ | ⟨line, offset, endLine, endOffset, rfl, rfl, rfl, rfl, counted⟩)
    · exact ⟨none, rfl⟩
    · obtain ⟨isLine, isOffset, isEndLine, isEndOffset⟩ := counted
      obtain ⟨start, first⟩ := Server.Position.exists_ofPoint?_iff_le.mpr ⟨isLine, isOffset⟩
      obtain ⟨finish, last⟩ := Server.Position.exists_ofPoint?_iff_le.mpr ⟨isEndLine, isEndOffset⟩
      exact ⟨some ⟨start, finish⟩, by
        simp only [Edit.range?, first, last, Option.bind_some, Option.map_some]⟩

/-- There are arguments for a query just if its file has a URI and its place counts from one. -/
theorem Request.exists_toParams?_of_spot? {r : Request} {spot : Spot}
    (query : r.spot? = some spot) : (∃ params, r.toParams? = some params) ↔
      (∃ uri, Uri.ofFileStrict? spot.file = some uri) ∧ spot.CountsFromOne := by
  obtain ⟨more, params, -⟩ := Request.toParams?_of_spot? query
  rw [params]
  simp only [Option.map_eq_some_iff, Spot.toParams?_eq_some_iff]
  constructor
  · rintro ⟨_, _, ⟨uri, position, named, counted, -⟩, -⟩
    exact ⟨⟨uri, named⟩, Server.Position.exists_ofPoint?_iff_le.mp ⟨position, counted⟩⟩
  · rintro ⟨⟨uri, named⟩, counts⟩
    obtain ⟨position, counted⟩ := Server.Position.exists_ofPoint?_iff_le.mpr counts
    exact ⟨_, _, ⟨uri, position, named, counted, rfl⟩, rfl⟩

theorem Request.exists_toParams?_iff {r : Request} : (∃ params, r.toParams? = some params) ↔
    (∃ uri, Uri.ofFileStrict? r.file = some uri) ∧ r.CountsFromOne := by
  cases r with
  | quickInfo spot => exact Request.exists_toParams?_of_spot? rfl
  | definition spot => exact Request.exists_toParams?_of_spot? rfl
  | references spot => exact Request.exists_toParams?_of_spot? rfl
  | openFile opened =>
      simp only [Request.toParams?, OpenedFile.toParams?, Option.map_eq_some_iff]
      constructor
      · rintro ⟨_, uri, named, -⟩
        exact ⟨⟨uri, named⟩, trivial⟩
      · rintro ⟨⟨uri, named⟩, -⟩
        exact ⟨_, uri, named, rfl⟩
  | changeFile edit =>
      rw [Request.CountsFromOne, ← Edit.exists_range?_iff]
      simp only [Request.toParams?, Edit.toParams?, Option.bind_eq_some_iff, Option.map_eq_some_iff]
      constructor
      · rintro ⟨_, uri, named, range, ranged, -⟩
        exact ⟨⟨uri, named⟩, ⟨range, ranged⟩⟩
      · rintro ⟨⟨uri, named⟩, ⟨range, ranged⟩⟩
        exact ⟨_, uri, named, range, ranged, rfl⟩

/-- There is a message for a command just if its path is absolute and free of stray characters and
its coordinates count from one. -/
theorem Command.exists_toMessage?_iff {c : Command} : (∃ message, c.toMessage? = some message) ↔
    c.request.file.toList.head? = some '/' ∧
      (∀ letter ∈ c.request.file.toList, ¬ Uri.IsStray letter) ∧ c.request.CountsFromOne := by
  rw [← and_assoc, ← Uri.exists_ofFileStrict?_iff, ← Request.exists_toParams?_iff]
  simp only [Command.toMessage?, Option.map_eq_some_iff]
  constructor
  · rintro ⟨_, params, said, -⟩
    exact ⟨params, said⟩
  · rintro ⟨params, said⟩
    exact ⟨_, params, said, rfl⟩

/-- A file with a bracket in its name cannot be opened: its path is absolute and has a URI, but
there is no message. -/
theorem Command.not_exists_toMessage?_bracket :
    (Uri.ofFile? "/[").bind Uri.toFile? = some "/[" ∧
      ¬ ∀ c : Command, (∃ message, c.toMessage? = some message) ↔
        c.request.file.toList.head? = some '/' ∧ c.request.CountsFromOne := by
  refine ⟨by decide +kernel, fun all => ?_⟩
  obtain ⟨message, said⟩ := (all ⟨1, .openFile ⟨"/[", "", none, none⟩⟩).mpr ⟨by decide, trivial⟩
  have nothing : Command.toMessage? ⟨1, .openFile ⟨"/[", "", none, none⟩⟩ = none := by
    decide +kernel
  rw [nothing] at said
  cases said

end EditorBridge
