import EditorBridge.Command.Basic
import EditorBridge.Rpc.Message
import EditorBridge.Server.Place

/-!
# From commands to server messages

The message that a command becomes. Queries become requests whose id is the sequence number of the
command, notices become notifications. There is no message for a command that cannot be said to a
server: the path of its file is not absolute or has no URI, a line or an offset is zero, or a
change gives some but not all of the four coordinates of its range.
-/

namespace EditorBridge

/-- The language of an opened file that nobody named (`DEFAULT_LANGUAGE_ID`). -/
def defaultLanguage : String := "plaintext"

/-- The version of an opened file that nobody counted (`DEFAULT_OPEN_VERSION`). -/
def defaultOpenVersion : Int32 := 0

/-- The version of a changed file that nobody counted (`DEFAULT_CHANGE_VERSION`). -/
def defaultChangeVersion : Int32 := 1

/-- The arguments of a query about a place (`position_params`). -/
def Spot.toParams? (s : Spot) : Option (List (String × Json)) :=
  (Uri.ofFileStrict? s.file).bind fun uri =>
    (Server.Position.ofPoint? ⟨s.line, s.offset⟩).map fun position =>
      [("textDocument", .object [("uri", .string uri)]), ("position", position.toJson)]

/-- The arguments of the notice that a file was opened (`open_params`). -/
def OpenedFile.toParams? (o : OpenedFile) : Option Json :=
  (Uri.ofFileStrict? o.file).map fun uri =>
    .object [("textDocument", .ofMembers
      [("uri", .string uri), ("languageId", .string (o.languageId.getD defaultLanguage)),
        ("version", .int (o.version.getD defaultOpenVersion).toInt), ("text", .string o.text)])]

/-- The range that a change replaces, `none` for the whole content; there is no answer if some of
the coordinates are missing or zero (`change_range`). -/
def Edit.range? (e : Edit) : Option (Option Server.Range) :=
  match e.line, e.offset, e.endLine, e.endOffset with
  | some line, some offset, some endLine, some endOffset =>
      (Server.Position.ofPoint? ⟨line, offset⟩).bind fun start =>
        (Server.Position.ofPoint? ⟨endLine, endOffset⟩).map fun finish => some ⟨start, finish⟩
  | none, none, none, none => some none
  | _, _, _, _ => none

/-- The arguments of the notice that a file has changed (`change_params`). -/
def Edit.toParams? (e : Edit) : Option Json :=
  (Uri.ofFileStrict? e.file).bind fun uri =>
    e.range?.map fun range =>
      .ofMembers
        [("textDocument", .ofMembers
          [("uri", .string uri),
            ("version", .int (e.version.getD defaultChangeVersion).toInt)]),
        ("contentChanges", .array [.ofMembers
          (Json.field? "range" Server.Range.toJson range ++
            [("text", .string e.insertString)])])]

/-- The arguments of the message that a request becomes (`to_lsp_request`). -/
def Request.toParams? : Request → Option Json
  | quickInfo spot => spot.toParams?.map Json.ofMembers
  | definition spot => spot.toParams?.map Json.ofMembers
  | references spot =>
      spot.toParams?.map fun members =>
        .ofMembers (members ++ [("context", .object [("includeDeclaration", .bool false)])])
  | openFile opened => opened.toParams?
  | changeFile edit => edit.toParams?

/-- The message that a command becomes (`to_lsp_request`). -/
def Command.toMessage? (c : Command) : Option Rpc.Outgoing :=
  c.request.toParams?.map fun params =>
    if c.kind.isQuery then .call (.of (.number c.seq) c.kind.method params)
    else .notification (.of c.kind.method params)

end EditorBridge
