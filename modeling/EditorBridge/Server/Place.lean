import EditorBridge.Json.Record
import EditorBridge.Reply
import EditorBridge.Uri.File

/-!
# Places as a server sees them

Positions and ranges count from zero, and files are named by URIs. Here are the records that a
server uses for them, and the way from its counting to the editor's and back. `toPoint` stays at
the greatest number instead of passing it; `ofPoint?` has no answer for a line or an offset of
zero. Otherwise the two undo each other.
-/

namespace EditorBridge.Server

/-- A position in a text. The line and the offset in it are counted from zero. -/
structure Position where
  line : UInt32
  character : UInt32
  deriving DecidableEq, Repr

/-- A range of a text, from its first position to the one after the last. -/
structure Range where
  start : Position
  finish : Position
  deriving DecidableEq, Repr

/-- A range of a file, which is named by its URI. -/
structure Location where
  uri : String
  range : Range
  deriving DecidableEq, Repr

/-- A link from the range of a symbol to the file that defines it, by its URI, with the range of the
whole definition and the one of the defined name, which is selected. -/
structure LocationLink where
  origin : Option Range
  targetUri : String
  targetRange : Range
  targetSelection : Range
  deriving DecidableEq, Repr

namespace Position

/-- The greatest number of a coordinate. -/
def greatest : UInt32 := 0xFFFFFFFF

/-- The next coordinate, or the same one if there is none greater (`from_lsp_position`). -/
def next (n : UInt32) : UInt32 :=
  if n = greatest then n else n + 1

/-- The coordinate before, if there is one (`to_lsp_position`). -/
def before? (n : UInt32) : Option UInt32 :=
  if n = 0 then none else some (n - 1)

/-- The position in the editor's counting (`from_lsp_position`). -/
def toPoint (p : Position) : Point :=
  ⟨next p.line, next p.character⟩

/-- The position of a line and an offset in the editor's counting (`to_lsp_position`). -/
def ofPoint? (p : Point) : Option Position :=
  (before? p.line).bind fun line => (before? p.offset).map fun character => ⟨line, character⟩

/-- Reads a position. -/
def ofJson? (v : Json) : Option Position :=
  match v.members? ["line", "character"] 0 with
  | some [line, character] =>
      (Json.required Json.uint32? line).bind fun line =>
        (Json.required Json.uint32? character).map fun character => ⟨line, character⟩
  | _ => none

/-- The written form of a position. -/
def toJson (p : Position) : Json :=
  .ofMembers [("line", .int p.line.toNat), ("character", .int p.character.toNat)]

theorem next_of_before? {n m : UInt32} (h : before? n = some m) : next m = n := by
  unfold before? at h
  split at h
  · exact absurd h (by simp)
  · next nonzero =>
      obtain rfl := Option.some.inj h
      have bound := n.toNat_lt
      have positive : n.toNat ≠ 0 := fun zero => nonzero (UInt32.toNat_inj.mp (by simpa using zero))
      have below : (n - 1).toNat = n.toNat - 1 := by
        rw [UInt32.toNat_sub_of_le _ _ (by rw [UInt32.le_iff_toNat_le]; simp; omega)]
        simp
      unfold next
      split
      · next full =>
          have := congrArg UInt32.toNat full
          rw [below] at this
          simp [greatest] at this
          omega
      · simp

/-- A position that comes from the editor goes back to where it came from. -/
theorem toPoint_of_ofPoint? {p : Point} {q : Position} (h : ofPoint? p = some q) :
    q.toPoint = p := by
  unfold ofPoint? at h
  cases hl : before? p.line with
  | none => simp [hl] at h
  | some line =>
      cases ho : before? p.offset with
      | none => simp [hl, ho] at h
      | some character =>
          simp only [hl, ho, Option.bind_some, Option.map_some, Option.some.injEq] at h
          subst h
          simp [toPoint, next_of_before? hl, next_of_before? ho]

end Position

namespace Range

/-- Reads a range. -/
def ofJson? (v : Json) : Option Range :=
  match v.members? ["start", "end"] 0 with
  | some [start, finish] =>
      (Json.required Position.ofJson? start).bind fun start =>
        (Json.required Position.ofJson? finish).map fun finish => ⟨start, finish⟩
  | _ => none

/-- The written form of a range. -/
def toJson (r : Range) : Json :=
  .ofMembers [("start", r.start.toJson), ("end", r.finish.toJson)]

end Range

/-- Reads a URI: a string that is a reference. -/
def uri? (v : Json) : Option String :=
  v.string?.filter fun s => Uri.Reference.isReference s.toList

namespace Location

/-- Reads a location. -/
def ofJson? (v : Json) : Option Location :=
  match v.members? ["uri", "range"] 0 with
  | some [uri, range] =>
      (Json.required uri? uri).bind fun uri =>
        (Json.required Range.ofJson? range).map fun range => ⟨uri, range⟩
  | _ => none

/-- The written form of a location. -/
def toJson (l : Location) : Json :=
  .ofMembers [("uri", .string l.uri), ("range", l.range.toJson)]

end Location

namespace LocationLink

/-- Reads a link. -/
def ofJson? (v : Json) : Option LocationLink :=
  let names := ["originSelectionRange", "targetUri", "targetRange", "targetSelectionRange"]
  match v.members? names 0 with
  | some [origin, uri, range, selection] =>
      (Json.optional Range.ofJson? origin).bind fun origin =>
        (Json.required uri? uri).bind fun uri =>
          (Json.required Range.ofJson? range).bind fun range =>
            (Json.required Range.ofJson? selection).map fun selection =>
              ⟨origin, uri, range, selection⟩
  | _ => none

end LocationLink

end EditorBridge.Server
