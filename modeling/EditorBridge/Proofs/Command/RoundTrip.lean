import EditorBridge.Command.Form
import EditorBridge.Proofs.Json.Members
import EditorBridge.Proofs.Json.RoundTrip

/-!
# Reading what commands write

The text of a command is read as the command it was written for, with all of its arguments and none
that it did not have (`parse?_written`). Two facts about the written form lead there: it is an exact
value in normal form, so its text means the form itself, and each record of arguments reads its own
form.
-/

namespace EditorBridge

open Json

/-! ### Arguments -/

theorem Spot.canonical_toJson (s : Spot) : s.toJson.canonical = s.toJson := by
  simp only [Spot.toJson, canonical_ofMembers, canonicalMembers, canonical_string, canonical_int]

theorem Spot.isExact_toJson (depth : Nat) (s : Spot) : isExact (depth + 1) s.toJson = true := by
  apply isExact_ofMembers
  simp only [areExactMembers, isExact_string, isExact_uint32, Bool.and_self]

theorem Spot.ofJson?_toJson (s : Spot) : Spot.ofJson? s.toJson = some s := by
  rw [Spot.ofJson?, Spot.toJson, members?_ofMembers]
  simp [lookup, required, string?, uint32?_int]

theorem OpenedFile.canonical_toJson (o : OpenedFile) : o.toJson.canonical = o.toJson := by
  have languageId := canonicalMembers_field? "languageId" canonical_string o.languageId
  have version := @canonicalMembers_field? Int32 (fun n => .int n.toInt) "version"
    (fun n => canonical_int n.toInt) o.version
  simp only [OpenedFile.toJson, canonical_ofMembers, canonicalMembers_append, canonicalMembers,
    canonical_string, languageId, version]

theorem OpenedFile.isExact_toJson (depth : Nat) (o : OpenedFile) :
    isExact (depth + 1) o.toJson = true := by
  have languageId := areExactMembers_field? "languageId" (isExact_string depth) o.languageId
  have version := areExactMembers_field? "version" (isExact_int32 depth) o.version
  apply isExact_ofMembers
  simp only [areExactMembers_append, areExactMembers, isExact_string, languageId, version,
    Bool.and_self]

/-- The second name of the text is never written. -/
theorem OpenedFile.withText?_toJson (o : OpenedFile) : withText? o.toJson = some o.toJson := by
  have absent : lookup "fileContent" (sortMembers
      ([("file", .string o.file), ("text", .string o.text)] ++
        field? "languageId" .string o.languageId ++
        field? "version" (fun n => .int n.toInt) o.version)) = none := by
    simp [lookup_sortMembers, lookup_append, reverse_field?, lookup_field?, lookup]
  rw [OpenedFile.toJson, ofMembers, withText?, absent]
  cases lookup "text" _ <;> rfl

theorem OpenedFile.ofJson?_toJson (o : OpenedFile) : OpenedFile.ofJson? o.toJson = some o := by
  have languageId := @optional_map _ string? .string (fun _ => rfl) (fun _ => by simp) o.languageId
  have version := optional_map int32?_int (fun _ => by simp) o.version
  rw [OpenedFile.ofJson?, withText?_toJson, Option.bind_some, OpenedFile.toJson,
    members?_ofMembers]
  simp [lookup_append, reverse_field?, lookup_field?, lookup, required, string?, languageId,
    version]

theorem Edit.canonical_toJson (e : Edit) : e.toJson.canonical = e.toJson := by
  have coordinate := fun name => @canonicalMembers_field? UInt32 (fun n => .int n.toNat) name
    (fun n => canonical_int n.toNat)
  have version := @canonicalMembers_field? Int32 (fun n => .int n.toInt) "version"
    (fun n => canonical_int n.toInt) e.version
  simp only [Edit.toJson, canonical_ofMembers, canonicalMembers_append, canonicalMembers,
    canonical_string, coordinate, version]

theorem Edit.isExact_toJson (depth : Nat) (e : Edit) : isExact (depth + 1) e.toJson = true := by
  have coordinate := fun name (value : Option UInt32) =>
    areExactMembers_field? name (isExact_uint32 depth) value
  have version := areExactMembers_field? "version" (isExact_int32 depth) e.version
  apply isExact_ofMembers
  simp only [areExactMembers_append, areExactMembers, isExact_string, coordinate, version,
    Bool.and_self]

theorem Edit.ofJson?_toJson (e : Edit) : Edit.ofJson? e.toJson = some e := by
  have coordinate := optional_map uint32?_int (fun _ => by simp)
  have version := optional_map int32?_int (fun _ => by simp) e.version
  rw [Edit.ofJson?, Edit.toJson, members?_ofMembers]
  simp [lookup_append, reverse_field?, lookup_field?, lookup, required, string?, coordinate,
    version]

/-! ### Requests and commands -/

theorem Request.canonical_toJson (r : Request) : r.toJson.canonical = r.toJson := by
  cases r with
  | quickInfo spot => exact spot.canonical_toJson
  | definition spot => exact spot.canonical_toJson
  | references spot => exact spot.canonical_toJson
  | openFile opened => exact opened.canonical_toJson
  | changeFile edit => exact edit.canonical_toJson

theorem Request.isExact_toJson (depth : Nat) (r : Request) :
    isExact (depth + 1) r.toJson = true := by
  cases r with
  | quickInfo spot => exact spot.isExact_toJson depth
  | definition spot => exact spot.isExact_toJson depth
  | references spot => exact spot.isExact_toJson depth
  | openFile opened => exact opened.isExact_toJson depth
  | changeFile edit => exact edit.isExact_toJson depth

theorem Request.ofJson?_toJson (r : Request) : Request.ofJson? r.kind r.toJson = some r := by
  cases r with
  | quickInfo spot => exact congrArg (Option.map _) spot.ofJson?_toJson
  | definition spot => exact congrArg (Option.map _) spot.ofJson?_toJson
  | references spot => exact congrArg (Option.map _) spot.ofJson?_toJson
  | openFile opened => exact congrArg (Option.map _) opened.ofJson?_toJson
  | changeFile edit => exact congrArg (Option.map _) edit.ofJson?_toJson

namespace Command

theorem canonical_toJson (c : Command) : c.toJson.canonical = c.toJson := by
  simp only [toJson, canonical_ofMembers, canonicalMembers, canonical_string, canonical_int,
    Request.canonical_toJson]

theorem isExact_toJson (c : Command) : isExact maxDepth c.toJson = true := by
  have depth : maxDepth = 125 + 1 + 1 := rfl
  rw [depth, toJson]
  apply isExact_ofMembers
  simp only [areExactMembers, isExact_int64, isExact_string, Request.isExact_toJson,
    Bool.and_self]

/-- A command is read from the form in which it is written. -/
theorem ofJson?_toJson (c : Command) : ofJson? c.toJson = some c := by
  have kind : Kind.ofName? c.kind.name = some c.request.kind := Kind.ofName?_name c.kind
  rw [ofJson?, toJson, members?_ofMembers]
  simp [lookup, required, string?, orNull, int64?_int, kind, Request.ofJson?_toJson]

/-- The text of a command. -/
def written (c : Command) : String :=
  c.toJson.render

/-- Every command is read back from its text. A text that was read as a command may therefore be
replaced by the text of the command, which says the same. -/
theorem parse?_written :
    (∀ c : Command, parse? c.written = some c) ∧
      ∀ text, (parse? text).bind (fun c => parse? c.written) = parse? text := by
  have once : ∀ c : Command, parse? c.written = some c := by
    intro c
    rw [parse?, written, parse?_render c.isExact_toJson, canonical_toJson, Option.bind_some,
      ofJson?_toJson]
  refine ⟨once, fun text => ?_⟩
  cases parse? text with
  | none => rfl
  | some c => rw [Option.bind_some, once]

end Command

end EditorBridge
