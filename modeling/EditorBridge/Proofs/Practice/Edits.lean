import EditorBridge.Bridge.Outbound
import EditorBridge.Practice.Document
import EditorBridge.Proofs.Json.Members
import EditorBridge.Proofs.Json.RoundTrip
import EditorBridge.Proofs.Text.Utf8

/-!
# Edits that arrive

A change of a range means the same to the editor and to the practice server (`applyChange_edit`).
The editor names a place in a text by the number of line feeds before it and the number of bytes
since the last of them, both from one. The server counts from zero, adds the lengths of the lines
before the place and gets the byte position of the place, whatever stands behind it
(`bytePosition_append`); it does so in 64 bits, so a text whose bytes can be counted is needed.
-/

namespace EditorBridge

open Json

namespace Text

/-! ### Lines before a place -/

/-- What stands in a text behind its last line feed. -/
def lastLine : List Char → List Char
  | [] => []
  | c :: rest => if '\n' ∈ rest then lastLine rest else if c = '\n' then rest else c :: rest

theorem lastLine_of_notMem {s : List Char} (noFeed : '\n' ∉ s) : lastLine s = s := by
  cases s with
  | nil => rfl
  | cons c rest =>
      obtain ⟨other, later⟩ := not_or.mp (mt List.mem_cons.mpr noFeed)
      rw [lastLine, if_neg later, if_neg (Ne.symm other)]

/-- The lines of a text that line feeds end before a place, and then the line up to that place. The
induction is on the text before the place; `line` is what of the first line has been read. -/
theorem flatten_take_fullLinesFrom {before : List Char} (feeds : '\n' ∈ before)
    (line after : List Char) :
    ((fullLinesFrom line (before ++ after)).take (before.count '\n')).flatten ++ lastLine before =
      line.reverse ++ before := by
  induction before generalizing line with
  | nil => cases feeds
  | cons c rest ih =>
      by_cases feed : c = '\n'
      · rw [feed, List.cons_append, fullLinesFrom, if_pos rfl, List.count_cons_self,
          List.take_succ_cons, List.flatten_cons, List.append_assoc, lastLine]
        by_cases later : '\n' ∈ rest
        · rw [if_pos later, ih later []]
          simp
        · rw [if_neg later, if_pos rfl, List.count_eq_zero_of_not_mem later]
          simp
      · have later : '\n' ∈ rest := (List.mem_cons.mp feeds).resolve_left (Ne.symm feed)
        rw [List.cons_append, fullLinesFrom, if_neg feed, List.count_cons_of_ne feed, lastLine,
          if_pos later, ih later (c :: line)]
        simp

theorem flatten_take_fullLines (before after : List Char) :
    ((fullLines (before ++ after)).take (before.count '\n')).flatten ++ lastLine before =
      before := by
  by_cases feeds : '\n' ∈ before
  · exact flatten_take_fullLinesFrom feeds [] after
  · rw [List.count_eq_zero_of_not_mem feeds, lastLine_of_notMem feeds]
    rfl

end Text

namespace Practice

/-! ### Positions -/

/-- The position of a place is the number of bytes before it. -/
theorem bytePosition_append (a : Arithmetic) {before : List Char} (after : List Char)
    (counted : Text.Utf8.byteLength before < UInt64.size) :
    bytePosition a (before ++ after) (before.count '\n')
      (Text.Utf8.byteLength (Text.lastLine before)) = .ok (Text.Utf8.byteLength before) := by
  have sum := congrArg Text.Utf8.byteLength (Text.flatten_take_fullLines before after)
  rw [Text.Utf8.byteLength_append] at sum
  simp only [bytePosition, Arithmetic.add_of_lt (sum.symm ▸ counted), sum,
    Text.Utf8.byteLength_append, bind, Except.bind, pure, Except.pure]
  rw [Nat.min_eq_left (Nat.le_add_right _ _)]

/-- The part between two byte positions is replaced. -/
theorem replace?_append (before part after new : List Char) :
    replace? (before ++ part ++ after) (Text.Utf8.byteLength before)
      (Text.Utf8.byteLength (before ++ part)) new = some (before ++ new ++ after) := by
  have first := Text.splitAtByte?_append before (part ++ after)
  have second := Text.splitAtByte?_append part after
  rw [replace?, Text.Utf8.byteLength_append, if_neg (by omega), Nat.add_sub_cancel_left,
    List.append_assoc, first, Option.bind_some]
  simp only [second, Option.map_some]

theorem natural?_uint32 (n : UInt32) : (Json.int n.toNat).natural? = some n.toNat := by
  have most : (n.toNat : Int) ≤ UInt64.size - 1 := by
    have bound := n.toNat_lt
    have size : (UInt64.size : Int) = 2 ^ 64 := rfl
    omega
  rw [natural?, intBetween?_int (Int.natCast_nonneg _) most, Option.map_some, Int.toNat_natCast]

theorem jsonPosition?_toJson (a : Arithmetic) (text : List Char) (p : Server.Position) :
    jsonPosition? a text p.toJson =
      (bytePosition a text p.line.toNat p.character.toNat).map some := by
  simp [jsonPosition?, Server.Position.toJson, ofMembers, Json.get?, lookup_sortMembers, lookup,
    natural?_uint32]

end Practice

/-! ### Places in the counting of the editor -/

/-- Whether a point is the place behind a text: the line feeds in the text are counted, and the
bytes since the last of them, both from one. -/
structure Point.IsBehind (p : Point) (s : List Char) : Prop where
  line : p.line.toNat = 1 + s.count '\n'
  offset : p.offset.toNat = 1 + Text.Utf8.byteLength (Text.lastLine s)

/-- Whether the coordinates of a change enclose a part of a text behind what stands before it. -/
structure Edit.Replaces (e : Edit) (before part : List Char) : Prop where
  start : ∃ p : Point, e.line = some p.line ∧ e.offset = some p.offset ∧ p.IsBehind before
  finish : ∃ p : Point, e.endLine = some p.line ∧ e.endOffset = some p.offset ∧
    p.IsBehind (before ++ part)

theorem Server.Position.before?_succ {n : UInt32} {k : Nat} (size : n.toNat = 1 + k) :
    ∃ m, before? n = some m ∧ m.toNat = k := by
  have nonzero : n ≠ 0 := by
    rintro rfl
    simp at size
    omega
  refine ⟨n - 1, if_neg nonzero, ?_⟩
  rw [UInt32.toNat_sub_of_le _ _ (by rw [UInt32.le_iff_toNat_le]; simp; omega), size]
  simp

/-- A place behind a text has a position for the server, which counts from zero. -/
theorem Point.IsBehind.exists_position {p : Point} {s : List Char} (behind : p.IsBehind s) :
    ∃ q, Server.Position.ofPoint? p = some q ∧ q.line.toNat = s.count '\n' ∧
      q.character.toNat = Text.Utf8.byteLength (Text.lastLine s) := by
  obtain ⟨line, lines, lineSize⟩ := Server.Position.before?_succ behind.line
  obtain ⟨character, characters, characterSize⟩ := Server.Position.before?_succ behind.offset
  exact ⟨⟨line, character⟩, by rw [Server.Position.ofPoint?, lines, characters]; rfl, lineSize,
    characterSize⟩

/-! ### Changes -/

namespace Practice

/-- The written form of one change. -/
def changeJson (range : Option Server.Range) (new : String) : Json :=
  .ofMembers (field? "range" Server.Range.toJson range ++ [("text", .string new)])

/-- A change without a range puts in a new text. -/
theorem applyChange_whole (a : Arithmetic) (text : List Char) (new : String) :
    applyChange a text (changeJson none new) = .ok new.toList := by
  simp [applyChange, changeJson, ofMembers, Json.get?, lookup_sortMembers, lookup, field?, string?]

/-- A change of a range replaces what stands between the positions of its two ends. -/
theorem applyChange_range {a : Arithmetic} {text : List Char} {start finish : Nat}
    (range : Server.Range) (new : String)
    (first : bytePosition a text range.start.line.toNat range.start.character.toNat = .ok start)
    (last : bytePosition a text range.finish.line.toNat range.finish.character.toNat =
      .ok finish) :
    applyChange a text (changeJson (some range) new) =
      .ok ((replace? text start finish new.toList).getD text) := by
  have one : range.toJson.get? "start" = some range.start.toJson := by
    simp [Server.Range.toJson, ofMembers, Json.get?, lookup_sortMembers, lookup]
  have other : range.toJson.get? "end" = some range.finish.toJson := by
    simp [Server.Range.toJson, ofMembers, Json.get?, lookup_sortMembers, lookup]
  have inserted : (changeJson (some range) new).get? "text" = some (.string new) := by
    simp [changeJson, ofMembers, Json.get?, lookup_sortMembers, lookup, field?]
  have enclosed : (changeJson (some range) new).get? "range" = some range.toJson := by
    simp [changeJson, ofMembers, Json.get?, lookup_sortMembers, lookup, field?]
  rw [applyChange, inserted, enclosed, Option.bind_some, string?]
  simp only [rangeEnd?, one, other, jsonPosition?_toJson, first, last]
  rfl

/-- The server replaces the part of its text that the editor has replaced. -/
theorem applyChange_edit (a : Arithmetic) {e : Edit} {before part : List Char}
    (after : List Char) (replaces : e.Replaces before part)
    (counted : Text.Utf8.byteLength (before ++ part) < UInt64.size) :
    ∃ range, e.range? = some (some range) ∧
      applyChange a (before ++ part ++ after) (changeJson (some range) e.insertString) =
        .ok (before ++ e.insertString.toList ++ after) := by
  obtain ⟨⟨p, line, offset, behind⟩, ⟨q, endLine, endOffset, alsoBehind⟩⟩ := replaces
  obtain ⟨start, first, startLine, startColumn⟩ := behind.exists_position
  obtain ⟨finish, last, finishLine, finishColumn⟩ := alsoBehind.exists_position
  have sum := Text.Utf8.byteLength_append before part
  refine ⟨⟨start, finish⟩, ?_, ?_⟩
  · rw [Edit.range?, line, offset, endLine, endOffset]
    simp only [first, last, Option.bind_some, Option.map_some]
  · have one := @bytePosition_append a before (part ++ after) (by omega)
    have other := bytePosition_append a after counted
    rw [← List.append_assoc] at one
    rw [← startLine, ← startColumn] at one
    rw [← finishLine, ← finishColumn] at other
    refine (applyChange_range ⟨start, finish⟩ e.insertString one other).trans ?_
    rw [replace?_append, Option.getD_some]

end Practice

end EditorBridge
