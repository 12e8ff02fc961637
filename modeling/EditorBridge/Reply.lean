import EditorBridge.Command.Basic
import EditorBridge.Json.Basic
import EditorBridge.Json.Record

/-!
# Messages to the editor

The two messages that the editor receives: a reply to a command, and an event that nobody asked
for. Both are written with their members in the order of the record. Three replies are made by the
bridge itself: an acknowledgement, a failure with a reason, and the failure whose reason is
`timeout`, which stands for every answer that did not come.
-/

namespace EditorBridge

/-- A line and an offset in it, both counted from one (`Location`). -/
structure Point where
  line : UInt32
  offset : UInt32
  deriving DecidableEq, Repr

/-- A span of a file, from its path, where it starts and where it ends (`FileSpan`). -/
structure Span where
  file : String
  start : Point
  finish : Point
  deriving DecidableEq, Repr

/-- What is known about a symbol (`QuickInfoBody`): the first two parts of the description, and
where the symbol starts and ends. -/
structure QuickInfo where
  displayString : Option String
  documentation : Option String
  start : Option Point
  finish : Option Point
  deriving DecidableEq, Repr

/-- The content of a successful reply to a query (`ResponseBody`). -/
inductive Body where
  | quickInfo (info : QuickInfo)
  | definition (spans : List Span)
  | references (spans : List Span)
  deriving DecidableEq, Repr

/-- A reply to the command with a sequence number and the name of its kind (`LegacyResponse`):
whether it was answered, why it was not, and the answer. -/
structure Reply where
  requestSeq : Int64
  success : Bool
  command : String
  message : Option String
  body : Option Body
  deriving DecidableEq, Repr

namespace Reply

/-- The reply with an answer (`LegacyResponse::success`). -/
def answer (kind : Kind) (requestSeq : Int64) (body : Body) : Reply :=
  ⟨requestSeq, true, kind.name, none, some body⟩

/-- The reply to a command that has no answer and was delivered (`LegacyResponse::acknowledged`). -/
def acknowledged (kind : Kind) (requestSeq : Int64) : Reply :=
  ⟨requestSeq, true, kind.name, none, none⟩

/-- The reply with a reason instead of an answer (`LegacyResponse::failure`). -/
def failure (command : String) (requestSeq : Int64) (reason : String) : Reply :=
  ⟨requestSeq, false, command, some reason, none⟩

/-- The reply to a query whose answer did not come (`LegacyResponse::timeout`). -/
def timeout (command : String) (requestSeq : Int64) : Reply :=
  failure command requestSeq "timeout"

/-- Whether the reply says that the answer did not come (`LegacyResponse::is_timeout`). -/
def isTimeout (r : Reply) : Bool :=
  !r.success && r.message == some "timeout"

end Reply

/-- A flagged range of a file, with what is wrong there (`DiagnosticEntry`). -/
structure Finding where
  text : String
  start : Point
  finish : Point
  deriving DecidableEq, Repr

/-- A message that nobody asked for (`LegacyEvent`, `DiagnosticsBody`): the findings in a file, in
the order of the server. It has the name that handlers subscribe to, and the file, if the server
names one. -/
structure Event where
  name : String
  file : Option String
  findings : List Finding
  deriving DecidableEq, Repr

/-- The name of the event that reports findings (`SYNTAX_DIAG_EVENT`). -/
def Event.findingsName : String := "syntaxDiag"

/-- The written form of a point (`Location`). -/
def Point.toJson (p : Point) : Json :=
  .object [("line", .int p.line.toNat), ("offset", .int p.offset.toNat)]

/-- The written form of a span (`FileSpan`). -/
def Span.toJson (s : Span) : Json :=
  .object [("file", .string s.file), ("start", s.start.toJson), ("end", s.finish.toJson)]

/-- The written form of what is known about a symbol (`QuickInfoBody`). -/
def QuickInfo.toJson (q : QuickInfo) : Json :=
  .object (Json.field? "displayString" .string q.displayString ++
    Json.field? "documentation" .string q.documentation ++
    Json.field? "start" Point.toJson q.start ++
    Json.field? "end" Point.toJson q.finish)

/-- The written form of an answer (`ResponseBody`, `ReferencesBody`). -/
def Body.toJson : Body → Json
  | quickInfo info => info.toJson
  | definition spans => .array (spans.map Span.toJson)
  | references spans => .object [("refs", .array (spans.map Span.toJson))]

/-- The written form of a reply (`LegacyResponse`). -/
def Reply.toJson (r : Reply) : Json :=
  .object ([("seq", .int 0), ("request_seq", .int r.requestSeq.toInt),
      ("success", .bool r.success), ("command", .string r.command)] ++
    Json.field? "message" .string r.message ++
    Json.field? "body" Body.toJson r.body ++
    [("type", .string "response")])

/-- The written form of a finding (`DiagnosticEntry`). -/
def Finding.toJson (f : Finding) : Json :=
  .object [("text", .string f.text), ("start", f.start.toJson), ("end", f.finish.toJson)]

/-- The written form of an event (`LegacyEvent::syntax_diag`). -/
def Event.toJson (e : Event) : Json :=
  .object [("seq", .int 0), ("type", .string "event"), ("event", .string e.name),
    ("body", .object (Json.field? "file" .string e.file ++
      [("diagnostics", .array (e.findings.map Finding.toJson))]))]

end EditorBridge
