import EditorBridge.Json.Reader
import EditorBridge.Json.Record
import EditorBridge.Practice.Document
import EditorBridge.Practice.Options

/-!
# The practice server

A language server to practise on: it keeps the texts of open files, and answers queries about words
in them. `handle` takes one message and says what the server does then: it writes a message, now or
later, or it exits. Its sums are checked, so that an edit may bring it down.
-/

namespace EditorBridge.Practice

/-- A message to the practice server (`Message`). A request has an id and a method, a notification a
method alone, and a response an id alone, with a failure perhaps. -/
structure Message where
  id : Option Json
  method : Option String
  params : Json
  failure : Option Json

namespace Message

/-- The members of a message. -/
def names : List String := ["id", "method", "params", "error"]

/-- Reads a message. -/
def ofJson? (v : Json) : Option Message :=
  match v.members? names 2 with
  | some [id, method, params, failure] =>
      (Json.optional some id).bind fun id =>
        (Json.optional Json.string? method).bind fun method =>
          (Json.optional some failure).map fun failure =>
            ⟨id, method, Json.orNull params, failure⟩
  | _ => none

/-- Reads a message straight from a text. -/
def parse? (text : List Char) : Option Message :=
  (Json.Source.read? text).bind fun source =>
    (source.narrow names).bind fun source =>
      (Json.ofSource Json.maxDepth source).bind ofJson?

end Message

/-- What the practice server does: it writes a message, now or after some milliseconds, or it exits
with a code. -/
inductive Act where
  | write (message : Json)
  | later (delay : Nat) (message : Json)
  | exit (code : Nat)

/-- The practice server (`MockServer`): how it behaves, the open files by URI, no URI twice, the
number of answers that were not late, and the number and the last id of its own requests. -/
structure Server where
  options : Options
  documents : List (String × Document)
  answered : Nat
  asked : Nat
  question : Option String

namespace Server

/-- The name that the server gives itself. -/
def name : String := "mockls"

/-- A server that has just started (`MockServer::new`). -/
def start (options : Options) : Server :=
  ⟨options, [], 0, 0, none⟩

/-- The document with a URI in a list of documents (`MockServer::handle_hover`). -/
def lookup (uri : String) : List (String × Document) → Option Document
  | [] => none
  | (key, document) :: rest => if key = uri then some document else lookup uri rest

/-- The documents with the one of a URI set (`MockServer::handle_notification`). -/
def put (uri : String) (document : Document) :
    List (String × Document) → List (String × Document)
  | [] => [(uri, document)]
  | (key, old) :: rest =>
      if key = uri then (uri, document) :: rest else (key, old) :: put uri document rest

/-- The document with a URI (`MockServer::handle_hover`). -/
def document? (s : Server) (uri : String) : Option Document :=
  lookup uri s.documents

/-! ### Written forms -/

/-- A number in a message. -/
def number (n : Nat) : Json := .int n

/-- A text with numbers in it. -/
def decimal (n : Nat) : String := String.ofList (Numeral.digits n)

/-- The written form of a range of columns in a line (`range_json`). -/
def rangeJson (s : Document.Stretch) : Json :=
  let position (column : Nat) : Json :=
    .ofMembers [("line", number s.line), ("character", number column)]
  .ofMembers [("start", position s.start), ("end", position s.finish)]

/-- The written form of a range in a file (`location_json`). -/
def locationJson (uri : String) (s : Document.Stretch) : Json :=
  .ofMembers [("uri", .string uri), ("range", rangeJson s)]

/-- An answer with a result (`Response::result`). -/
def resultJson (id result : Json) : Json :=
  .object [("jsonrpc", .string "2.0"), ("id", id), ("result", result)]

/-- An answer with a failure (`Response::error`). -/
def failureJson (id : Json) (code : Int) (message : String) : Json :=
  .object [("jsonrpc", .string "2.0"), ("id", id),
    ("error", .object [("code", .int code), ("message", .string message)])]

/-- A notification about the findings in a file (`MockServer::publish_diagnostics`). -/
def findingsJson (uri : String) (findings : List Json) : Json :=
  .ofMembers [("jsonrpc", .string "2.0"), ("method", .string "textDocument/publishDiagnostics"),
    ("params", .ofMembers [("uri", .string uri), ("diagnostics", .array findings)])]

/-! ### Queries -/

/-- The file, line and column that a query is about (`extract_position`). -/
def place? (params : Json) : Option (String × Nat × Nat) :=
  (((params.get? "textDocument").bind (Json.get? "uri")).bind Json.string?).bind fun uri =>
    let coordinate (name : String) : Option Nat :=
      ((params.get? "position").bind (Json.get? name)).bind Json.natural?
    (coordinate "line").bind fun line =>
      (coordinate "character").map fun column => (uri, line, column)

/-- What is known about the word at a place; the place itself, if the file is not open
(`MockServer::handle_hover`). -/
def hover? (s : Server) (params : Json) : Option Json :=
  (place? params).bind fun (uri, line, column) =>
    match s.document? uri with
    | none =>
        some (.ofMembers [("contents", .string (decimal line ++ ":" ++ decimal column)),
          ("range", rangeJson ⟨line, column, column⟩)])
    | some document =>
        (document.wordAt? line column).map fun word =>
          .ofMembers
            [("contents", .array
              [.ofMembers [("language", .string "mock"),
                ("value", .string (String.ofList word.chars))],
              .string ("version " ++ String.ofList (Numeral.integer document.version.toInt))]),
            ("range", rangeJson ⟨line, word.start, word.finish⟩)]

/-- Where the word at a place is defined; at the place itself, if the file is not open
(`MockServer::handle_definition`). -/
def definition? (s : Server) (params : Json) : Option Json :=
  (place? params).bind fun (uri, line, column) =>
    match s.document? uri with
    | none => some (locationJson uri ⟨line, column, column⟩)
    | some document =>
        (document.definition? line column).map fun place => .array [locationJson uri place]

/-- Where the word at a place occurs (`MockServer::handle_references`). -/
def references? (s : Server) (params : Json) : Option Json :=
  (place? params).bind fun (uri, line, column) =>
    (s.document? uri).bind fun document =>
      (document.references? line column).map fun places =>
        .array (places.map (locationJson uri))

/-- What the server says about itself in the handshake (`MockServer::handle_request`). -/
def greeting : Json :=
  .object [("capabilities", .ofMembers
    [("hoverProvider", .bool true), ("definitionProvider", .bool true),
    ("referencesProvider", .bool true),
    ("textDocumentSync", .ofMembers [("openClose", .bool true), ("change", .int 2)])])]

/-- The result of a request, unless its method is unknown (`MockServer::handle_request`). -/
def result? (s : Server) (method : String) (params : Json) : Option Json :=
  match method with
  | "initialize" => some greeting
  | "shutdown" => some .null
  | "textDocument/hover" => some ((s.hover? params).getD .null)
  | "textDocument/definition" => some ((s.definition? params).getD .null)
  | "textDocument/references" => some ((s.references? params).getD .null)
  | _ => none

/-! ### Requests -/

/-- Answers at once, and dies if it was the last answer (`MockServer::send_response`). -/
def answer (s : Server) (message : Json) : Server × List Act :=
  let answered := s.answered + 1
  let last := s.options.dropAfter.any (· ≤ answered)
  ({ s with answered := answered }, .write message :: if last then [.exit 1] else [])

/-- Asks for the configuration (`MockServer::send_configuration_request`). -/
def askConfiguration (s : Server) : Server × List Act :=
  let id := name ++ "-" ++ decimal (s.asked + 1)
  ({ s with asked := s.asked + 1, question := some id },
    [.write (.ofMembers [("jsonrpc", .string "2.0"), ("id", .string id),
      ("method", .string "workspace/configuration"),
      ("params", .object [("items", .array [.object [("section", .string name)]])])])])

/-- The first acts and then those of a second step, which does not happen if the first one ends with
an exit. -/
def andThen (first : Server × List Act) (second : Server → Server × List Act) :
    Server × List Act :=
  match first.2.getLast? with
  | some (.exit _) => first
  | _ =>
      let (s, acts) := second first.1
      (s, first.2 ++ acts)

/-- Takes a request (`MockServer::handle_request`). -/
def takeRequest (s : Server) (id : Json) (method : String) (params : Json) : Server × List Act :=
  if s.options.hangOn.contains method then (s, [])
  else if s.options.failOn.contains method then
    s.answer (failureJson id (-32603) (name ++ ": configured to fail on " ++ method))
  else
    let result :=
      if s.options.nullResultOn.contains method then some Json.null else s.result? method params
    match result with
    | none => s.answer (failureJson id (-32601) (name ++ ": method not found: " ++ method))
    | some result =>
        let message := resultJson id result
        let answered :=
          if s.options.slowOn.contains method then (s, [.later s.options.slowDelay message])
          else s.answer message
        if method = "initialize" && s.options.sendConfigurationRequest then
          andThen answered askConfiguration
        else answered

/-! ### Notifications and responses -/

/-- Reports the findings in a file (`MockServer::publish_diagnostics`). -/
def publish (s : Server) (uri : String) : List Act :=
  if s.options.noDiagnostics then []
  else
    match s.document? uri with
    | none => []
    | some document =>
        let finding (place : Document.Stretch) : Json :=
          .ofMembers [("range", rangeJson place), ("severity", .int 2),
            ("source", .string name),
            ("message", .string (name ++ ": error on line " ++ decimal (place.line + 1)))]
        [.write (findingsJson uri (document.flagged.map finding))]

/-- The URI in the description of a file (`MockServer::handle_notification`). -/
def uriOf (file : Json) : String :=
  ((file.get? "uri").bind Json.string?).getD ""

/-- The version in the description of a file (`MockServer::handle_notification`). -/
def versionOf (file : Json) : Int64 :=
  ((file.get? "version").bind Json.int64?).getD 0

/-- Opens a file (`MockServer::handle_notification`). -/
def openFile (s : Server) (file : Json) : Server × List Act :=
  let uri := uriOf file
  let text := ((file.get? "text").bind Json.string?).getD ""
  let documents := put uri ⟨text.toList, versionOf file⟩ s.documents
  let s : Server := { s with documents := documents }
  (s, s.publish uri)

/-- How the server adds up positions. -/
def arithmetic : Arithmetic := .checked

/-- Changes a file (`MockServer::handle_notification`). The server dies of a change that comes to a
fault. -/
def changeFile (s : Server) (file : Json) (changes : List Json) : Server × List Act :=
  let uri := uriOf file
  let old := ((s.document? uri).map (·.text)).getD []
  match changes.foldlM (applyChange arithmetic) old with
  | .error _ => (s, [.exit crashCode])
  | .ok text =>
      let documents := put uri ⟨text, versionOf file⟩ s.documents
      let s : Server := { s with documents := documents }
      (s, s.publish uri)

/-- Takes a notification (`MockServer::handle_notification`). -/
def takeNotification (s : Server) (method : String) (params : Json) : Server × List Act :=
  match method, params.get? "textDocument" with
  | "textDocument/didOpen", some file => s.openFile file
  | "textDocument/didChange", some file =>
      s.changeFile file (((params.get? "contentChanges").bind Json.array?).getD [])
  | "exit", _ => (s, [.exit 0])
  | _, _ => (s, [])

/-- Takes the answer to a request of its own, and reports how it was answered
(`MockServer::handle_client_response`). -/
def takeResponse (s : Server) (id : Json) (failure : Option Json) : List Act :=
  let isAnswered :=
    match s.question, id with
    | some question, .string answered => question == answered
    | _, _ => false
  if isAnswered then
    let code := ((failure.bind (Json.get? "code")).bind Json.int64?).getD 0
    let origin : Document.Stretch := ⟨0, 0, 0⟩
    [.write (findingsJson ("file:///" ++ name ++ "/configuration")
      [.ofMembers [("range", rangeJson origin), ("message", .string
        ("configuration answered with " ++ String.ofList (Numeral.integer code.toInt)))]])]
  else []

/-- Takes a message (`MockServer::handle_message`). -/
def handle (s : Server) (m : Message) : Server × List Act :=
  match m.method, m.id with
  | some method, some id => s.takeRequest id method m.params
  | some method, none => s.takeNotification method m.params
  | none, some id => (s, s.takeResponse id m.failure)
  | none, none => (s, [])

end Server

end EditorBridge.Practice
