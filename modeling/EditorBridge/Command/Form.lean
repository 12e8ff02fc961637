import EditorBridge.Command.Basic
import EditorBridge.Json.Reader
import EditorBridge.Json.Printer
import EditorBridge.Json.Record

/-!
# Written commands

A command is a record of a sequence number, the name of its kind, and the arguments of that kind.
`ofJson?` reads it, as an object or as an array, and refuses unknown kinds and arguments that do
not fit; `toJson` writes it with the optional arguments left out where they have no value. The text
of an opened file has a second name, `fileContent`; both names together are refused.
-/

namespace EditorBridge

namespace Spot

/-- Reads the arguments of a query (`FileLocationArgs`). -/
def ofJson? (v : Json) : Option Spot :=
  match v.members? ["file", "line", "offset"] 0 with
  | some [file, line, offset] =>
      (Json.required Json.string? file).bind fun file =>
        (Json.required Json.uint32? line).bind fun line =>
          (Json.required Json.uint32? offset).map fun offset => ⟨file, line, offset⟩
  | _ => none

/-- Writes the arguments of a query (`FileLocationArgs`). -/
def toJson (s : Spot) : Json :=
  .ofMembers
    [("file", .string s.file), ("line", .int s.line.toNat), ("offset", .int s.offset.toNat)]

end Spot

namespace OpenedFile

/-- The arguments of an opened file with the text under its first name; `none` if the text is there
under both names (`OpenArgs`). -/
def withText? : Json → Option Json
  | .object members =>
      match Json.lookup "text" members, Json.lookup "fileContent" members with
      | some _, some _ => none
      | none, some content => some (.object (("text", content) :: members))
      | _, none => some (.object members)
  | v => some v

/-- Reads the arguments of an opened file (`OpenArgs`). -/
def ofJson? (v : Json) : Option OpenedFile :=
  (withText? v).bind fun v =>
    match v.members? ["file", "text", "languageId", "version"] 2 with
    | some [file, text, languageId, version] =>
        (Json.required Json.string? file).bind fun file =>
          (Json.required Json.string? text).bind fun text =>
            (Json.optional Json.string? languageId).bind fun languageId =>
              (Json.optional Json.int32? version).map fun version =>
                ⟨file, text, languageId, version⟩
    | _ => none

/-- Writes the arguments of an opened file (`OpenArgs`). -/
def toJson (o : OpenedFile) : Json :=
  .ofMembers
    ([("file", .string o.file), ("text", .string o.text)] ++
      Json.field? "languageId" .string o.languageId ++
      Json.field? "version" (fun n => .int n.toInt) o.version)

end OpenedFile

namespace Edit

/-- Reads the arguments of a change (`ChangeArgs`). -/
def ofJson? (v : Json) : Option Edit :=
  let names := ["file", "insertString", "line", "offset", "endLine", "endOffset", "version"]
  match v.members? names 5 with
  | some [file, insertString, line, offset, endLine, endOffset, version] =>
      (Json.required Json.string? file).bind fun file =>
        (Json.required Json.string? insertString).bind fun insertString =>
          (Json.optional Json.uint32? line).bind fun line =>
            (Json.optional Json.uint32? offset).bind fun offset =>
              (Json.optional Json.uint32? endLine).bind fun endLine =>
                (Json.optional Json.uint32? endOffset).bind fun endOffset =>
                  (Json.optional Json.int32? version).map fun version =>
                    ⟨file, insertString, line, offset, endLine, endOffset, version⟩
  | _ => none

/-- Writes the arguments of a change (`ChangeArgs`). -/
def toJson (e : Edit) : Json :=
  let coordinate (n : UInt32) : Json := .int n.toNat
  .ofMembers
    ([("file", .string e.file), ("insertString", .string e.insertString)] ++
      Json.field? "line" coordinate e.line ++
      Json.field? "offset" coordinate e.offset ++
      Json.field? "endLine" coordinate e.endLine ++
      Json.field? "endOffset" coordinate e.endOffset ++
      Json.field? "version" (fun n => .int n.toInt) e.version)

end Edit

namespace Request

/-- Reads the arguments of a request of a kind (`LegacyCommand::from_value`). -/
def ofJson? : Kind → Json → Option Request
  | .quickInfo, v => (Spot.ofJson? v).map quickInfo
  | .definition, v => (Spot.ofJson? v).map definition
  | .references, v => (Spot.ofJson? v).map references
  | .openFile, v => (OpenedFile.ofJson? v).map openFile
  | .changeFile, v => (Edit.ofJson? v).map changeFile

/-- Writes the arguments of a request (`LegacyCommand::to_value`). -/
def toJson : Request → Json
  | quickInfo spot | definition spot | references spot => spot.toJson
  | openFile opened => opened.toJson
  | changeFile edit => edit.toJson

end Request

namespace Command

/-- Reads a command (`LegacyCommand::from_value`). -/
def ofJson? (v : Json) : Option Command :=
  match v.members? ["seq", "command", "arguments"] 1 with
  | some [seq, command, arguments] =>
      (Json.required Json.int64? seq).bind fun seq =>
        (Json.required Json.string? command).bind fun name =>
          (Kind.ofName? name).bind fun kind =>
            (Request.ofJson? kind (Json.orNull arguments)).map fun request => ⟨seq, request⟩
  | _ => none

/-- Writes a command (`LegacyCommand::to_value`). -/
def toJson (c : Command) : Json :=
  .ofMembers
    [("seq", .int c.seq.toInt), ("command", .string c.kind.name),
      ("arguments", c.request.toJson)]

/-- Reads a command from a text (`LegacyCommand::from_json`). -/
def parse? (text : String) : Option Command :=
  (Json.parse? text).bind ofJson?

end Command

end EditorBridge
