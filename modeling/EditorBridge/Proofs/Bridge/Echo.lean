import EditorBridge.Bridge.Inbound
import EditorBridge.Bridge.Outbound
import EditorBridge.Proofs.Json.Members
import EditorBridge.Proofs.Json.RoundTrip
import EditorBridge.Proofs.Uri.File

/-!
# Places there and back

A query goes to a server with its place counted from zero and its file as a URI. If the server
points back at the place it was asked about, the editor gets the place it asked about: the line and
the offset of the query, and the file that its URI names (`comesBack`). The places of servers are
read as they are written; what is lost in the counting from zero is nothing, since there is no
request for a line or an offset of zero.
-/

namespace EditorBridge

open Json

namespace Server

/-! ### Written places -/

theorem Position.ofJson?_toJson (p : Position) : Position.ofJson? p.toJson = some p := by
  rw [Position.ofJson?, Position.toJson, members?_ofMembers]
  simp [lookup, required, uint32?_int]

theorem Range.ofJson?_toJson (r : Range) : Range.ofJson? r.toJson = some r := by
  rw [Range.ofJson?, Range.toJson, members?_ofMembers]
  simp [lookup, required, Position.ofJson?_toJson]

theorem Location.ofJson?_toJson {l : Location}
    (reference : Uri.Reference.isReference l.uri.toList = true) :
    Location.ofJson? l.toJson = some l := by
  rw [Location.ofJson?, Location.toJson, members?_ofMembers]
  simp [lookup, required, uri?, string?, Option.filter, reference, Range.ofJson?_toJson]

/-- There is a position for every point but those with a zero in them. -/
theorem Position.exists_ofPoint?_iff {p : Point} :
    (∃ q, ofPoint? p = some q) ↔ p.line ≠ 0 ∧ p.offset ≠ 0 := by
  rw [ofPoint?]
  by_cases line : p.line = 0
  · simp [before?, line]
  · by_cases offset : p.offset = 0
    · simp [before?, line, offset]
    · simp [before?, line, offset]

/-! ### Answers that point at one place -/

/-- The result of a hover with one text and a range. -/
def hoverAt (text : String) (range : Json) : Json :=
  .ofMembers [("contents", .string text), ("range", range)]

/-- The result with one location. -/
def locationAt (uri range : Json) : Json :=
  .array [.ofMembers [("uri", uri), ("range", range)]]

theorem Hover.ofJson?_hoverAt (text : String) (range : Range) :
    Hover.ofJson? (hoverAt text range.toJson) = some ⟨[text], some range⟩ := by
  have filled : range.toJson ≠ .null := by simp [Range.toJson, ofMembers]
  have read : Json.optional Range.ofJson? (some range.toJson) = some (some range) := by
    rw [optional_some filled, Range.ofJson?_toJson, Option.map_some]
  rw [Hover.ofJson?, hoverAt, members?_ofMembers]
  simp [lookup, required, description?, markedText?, read]

theorem listOf?_locationAt {l : Location}
    (reference : Uri.Reference.isReference l.uri.toList = true) :
    Json.listOf? Location.ofJson? (locationAt (.string l.uri) l.range.toJson) = some [l] := by
  have read := Location.ofJson?_toJson reference
  rw [Location.toJson] at read
  rw [locationAt, Json.listOf?, List.mapM_cons, read]
  rfl

theorem definitions?_locationAt {l : Location}
    (reference : Uri.Reference.isReference l.uri.toList = true) :
    definitions? (locationAt (.string l.uri) l.range.toJson) = some [l] := by
  have several : Location.ofJson? (locationAt (.string l.uri) l.range.toJson) = none := rfl
  rw [definitions?, several, listOf?_locationAt reference]

end Server

/-! ### Queries -/

/-- The place that a query is about. -/
def Request.spot? : Request → Option Spot
  | quickInfo spot | definition spot | references spot => some spot
  | openFile _ | changeFile _ => none

/-- The place in the counting of the editor. -/
def Spot.point (s : Spot) : Point :=
  ⟨s.line, s.offset⟩

/-- Whether a request asks a server what a command asks, about a document and a position. -/
structure Rpc.Call.Asks (call : Rpc.Call) (c : Command) (uri : String)
    (position : Server.Position) : Prop where
  id : call.id = .number c.seq
  method : call.method = c.kind.method
  document : (call.params.get? "textDocument").bind (Json.get? "uri") = some (.string uri)
  position : call.params.get? "position" = some position.toJson

theorem Spot.toParams?_eq_some_iff {s : Spot} {members : List (String × Json)} :
    s.toParams? = some members ↔ ∃ uri position, Uri.ofFileStrict? s.file = some uri ∧
      Server.Position.ofPoint? s.point = some position ∧
      members = [("textDocument", .object [("uri", .string uri)]),
        ("position", position.toJson)] := by
  rw [Spot.toParams?, Spot.point]
  constructor
  · intro found
    obtain ⟨uri, named, found⟩ := Option.bind_eq_some_iff.mp found
    obtain ⟨position, counted, rfl⟩ := Option.map_eq_some_iff.mp found
    exact ⟨uri, position, named, counted, rfl⟩
  · rintro ⟨uri, position, named, counted, rfl⟩
    rw [named, counted]
    rfl

/-- The arguments of a query are those of its place, and maybe some that are named otherwise. -/
theorem Request.toParams?_of_spot? {r : Request} {spot : Spot} (query : r.spot? = some spot) :
    ∃ more, r.toParams? = spot.toParams?.map (fun members => .ofMembers (members ++ more)) ∧
      lookup "textDocument" more.reverse = none ∧ lookup "position" more.reverse = none := by
  cases r with
  | quickInfo s =>
      obtain rfl := Option.some.inj query
      exact ⟨[], by simp [Request.toParams?], rfl, rfl⟩
  | definition s =>
      obtain rfl := Option.some.inj query
      exact ⟨[], by simp [Request.toParams?], rfl, rfl⟩
  | references s =>
      obtain rfl := Option.some.inj query
      exact ⟨[("context", .object [("includeDeclaration", .bool false)])], rfl, rfl, rfl⟩
  | openFile opened => cases query
  | changeFile edit => cases query

theorem Command.isQuery_of_spot? {c : Command} {spot : Spot} (query : c.request.spot? = some spot) :
    c.kind.isQuery = true := by
  unfold Command.kind
  cases form : c.request with
  | quickInfo s => rfl
  | definition s => rfl
  | references s => rfl
  | openFile opened => rw [form] at query; cases query
  | changeFile edit => rw [form] at query; cases query

/-- The request of a query asks about its place: the document that its file is, and the position
that its line and offset are. -/
theorem Command.exists_asks {c : Command} {spot : Spot} {uri : String}
    {position : Server.Position} (query : c.request.spot? = some spot)
    (named : Uri.ofFileStrict? spot.file = some uri)
    (counted : Server.Position.ofPoint? spot.point = some position) :
    ∃ call, c.toMessage? = some (.call call) ∧ call.Asks c uri position := by
  obtain ⟨more, params, noDocument, noPosition⟩ := Request.toParams?_of_spot? query
  rw [Spot.toParams?_eq_some_iff.mpr ⟨uri, position, named, counted, rfl⟩, Option.map_some]
    at params
  refine ⟨_, by rw [Command.toMessage?, params, Option.map_some,
    if_pos (Command.isQuery_of_spot? query)], rfl, rfl, ?_, ?_⟩
  · simp [Rpc.Call.of, ofMembers, Json.get?, lookup_sortMembers, lookup_append, lookup, noDocument]
  · simp [Rpc.Call.of, ofMembers, Json.get?, lookup_sortMembers, lookup_append, lookup, noPosition]

/-- There is no message for a query otherwise. -/
theorem Command.exists_of_toMessage? {c : Command} {spot : Spot} {message : Rpc.Outgoing}
    (query : c.request.spot? = some spot) (asked : c.toMessage? = some message) :
    ∃ uri position, Uri.ofFileStrict? spot.file = some uri ∧
      Server.Position.ofPoint? spot.point = some position := by
  obtain ⟨more, params, -⟩ := Request.toParams?_of_spot? query
  rw [Command.toMessage?, params, Option.map_map] at asked
  obtain ⟨members, found, -⟩ := Option.map_eq_some_iff.mp asked
  obtain ⟨uri, position, named, counted, -⟩ := Spot.toParams?_eq_some_iff.mp found
  exact ⟨uri, position, named, counted⟩

/-! ### Echoes -/

/-- The result with which a server points back at the place it was asked about. The position of
the request is the start and the end of a range; the range comes with a text if the request wants
to know about the symbol there, and otherwise with the document of the request. -/
def Rpc.Call.echo (call : Rpc.Call) (text : String) : Json :=
  let position := (call.params.get? "position").getD .null
  let range := .ofMembers [("start", position), ("end", position)]
  if call.method = Kind.quickInfo.method then Server.hoverAt text range
  else
    Server.locationAt (((call.params.get? "textDocument").bind (Json.get? "uri")).getD .null) range

/-- The answer that says nothing but a text and a span, for a kind of query. -/
def Body.pointing? (text : String) (span : Span) : Kind → Option Body
  | .quickInfo => some (quickInfo ⟨some text, none, some span.start, some span.finish⟩)
  | .definition => some (definition [span])
  | .references => some (references [span])
  | .openFile | .changeFile => none

theorem Rpc.Call.Asks.echo_eq {call : Rpc.Call} {c : Command} {uri : String}
    {position : Server.Position} (asks : call.Asks c uri position) (text : String) :
    call.echo text =
      if c.kind.method = Kind.quickInfo.method then
        Server.hoverAt text (Server.Range.toJson ⟨position, position⟩)
      else Server.locationAt (.string uri) (Server.Range.toJson ⟨position, position⟩) := by
  simp only [Rpc.Call.echo, asks.method, asks.document, asks.position, Option.getD_some,
    Server.Range.toJson]

/-- What is read out of an echo: the place that the request asks about. -/
theorem Rpc.Call.Asks.ofResult?_echo {call : Rpc.Call} {c : Command} {uri file : String}
    {position : Server.Position} (asks : call.Asks c uri position)
    (reference : Uri.Reference.isReference uri.toList = true) (named : Uri.toFile? uri = some file)
    (text : String) :
    Body.ofResult? c.kind (call.echo text) =
      Body.pointing? text ⟨file, position.toPoint, position.toPoint⟩ c.kind := by
  have located : Server.Location.toSpan? ⟨uri, ⟨position, position⟩⟩ =
      some ⟨file, position.toPoint, position.toPoint⟩ := by
    rw [Server.Location.toSpan?, named, Option.map_some]
  have list := Server.listOf?_locationAt (l := ⟨uri, ⟨position, position⟩⟩) reference
  have first := Server.definitions?_locationAt (l := ⟨uri, ⟨position, position⟩⟩) reference
  rw [asks.echo_eq]
  cases c.kind with
  | quickInfo =>
      rw [if_pos rfl, Body.ofResult?, Server.Hover.ofJson?_hoverAt]
      rfl
  | definition =>
      rw [if_neg (by decide), Body.ofResult?, first, Option.bind_some, List.head?_cons,
        Option.bind_some, located]
      rfl
  | references =>
      rw [if_neg (by decide), Body.ofResult?, list, Option.bind_some]
      simp [located, Body.pointing?]
  | openFile => rfl
  | changeFile => rfl

theorem Body.ofResult?_eq_none {v : Json} (untelling : isTelling v = false) (kind : Kind) :
    ofResult? kind v = none := by
  unfold isTelling at untelling
  split at untelling
  · cases kind <;> rfl
  · cases kind <;> rfl
  · cases kind <;> rfl
  · cases untelling

/-- What a response becomes depends on its id and on the answer in its result. A result that says
nothing needs no attention, since there is no answer in it. -/
theorem Reply.ofResponse?_of_result {r : Rpc.Response} {result : Json}
    (found : r.result = some result) (kind : Kind) :
    ofResponse? kind.method r =
      (r.id.bind Rpc.RequestId.number?).bind fun seq =>
        if seq = handshakeId then none
        else (Body.ofResult? kind result).map (answer kind seq) := by
  rw [ofResponse?, found, Option.filter_some, Kind.ofMethod?_method]
  cases telling : isTelling result with
  | true => rfl
  | false =>
      rw [Body.ofResult?_eq_none telling]
      rfl

theorem Reply.ofResponse?_eq {kind : Kind} {seq : Int64} {result : Json} {r : Rpc.Response}
    (numbered : seq ≠ handshakeId) (sameId : r.id = some (.number seq))
    (found : r.result = some result) :
    ofResponse? kind.method r = (Body.ofResult? kind result).map (answer kind seq) := by
  rw [ofResponse?_of_result found, sameId, Option.bind_some, Rpc.RequestId.number?,
    Option.bind_some, if_neg numbered]

/-- What holds of a query about a place. There is a request exactly if the line and the offset count
from one and the file has a URI (`asked`). The server that echoes the place of the request tells the
editor the place of the query (`answered`). -/
structure Command.ComesBack (c : Command) (spot : Spot) : Prop where
  asked : (∃ call, c.toMessage? = some (.call call)) ↔
    (∃ uri, Uri.ofFileStrict? spot.file = some uri) ∧ spot.line ≠ 0 ∧ spot.offset ≠ 0
  answered : ∀ call text (r : Rpc.Response), c.toMessage? = some (.call call) →
    r.id = some call.id → r.result = some (call.echo text) →
      ∃ file body, (Uri.ofFile? spot.file).bind Uri.toFile? = some file ∧
        Body.pointing? text ⟨file, spot.point, spot.point⟩ c.kind = some body ∧
        Reply.ofResponse? call.method r = some (Reply.answer c.kind c.seq body)

/-- A query that is echoed comes back to the place it asked about. -/
theorem Command.comesBack {c : Command} {spot : Spot} (query : c.request.spot? = some spot)
    (numbered : c.seq ≠ handshakeId) : c.ComesBack spot where
  asked := by
    constructor
    · rintro ⟨call, asked⟩
      obtain ⟨uri, position, named, counted⟩ := Command.exists_of_toMessage? query asked
      exact ⟨⟨uri, named⟩, Server.Position.exists_ofPoint?_iff.mp ⟨position, counted⟩⟩
    · rintro ⟨⟨uri, named⟩, fromOne⟩
      obtain ⟨position, counted⟩ :=
        (Server.Position.exists_ofPoint?_iff (p := spot.point)).mpr fromOne
      obtain ⟨call, asked, -⟩ := Command.exists_asks query named counted
      exact ⟨call, asked⟩
  answered := by
    intro call text r asked sameId pointsBack
    obtain ⟨uri, position, named, counted⟩ := Command.exists_of_toMessage? query asked
    obtain ⟨other, same, asks⟩ := Command.exists_asks query named counted
    obtain rfl : other = call := by
      rw [asked] at same
      exact (Rpc.Outgoing.call.inj (Option.some.inj same)).symm
    obtain ⟨plain, reference⟩ := Option.filter_eq_some_iff.mp named
    obtain ⟨file, back⟩ := Uri.exists_toFile?_of_ofFile? plain
    have point : position.toPoint = spot.point := Server.Position.toPoint_of_ofPoint? counted
    have body := asks.ofResult?_echo reference back text
    rw [point] at body
    obtain ⟨pointing, form⟩ :
        ∃ b, Body.pointing? text ⟨file, spot.point, spot.point⟩ c.kind = some b := by
      have isQuery := Command.isQuery_of_spot? query
      cases kind : c.kind with
      | quickInfo => exact ⟨_, rfl⟩
      | definition => exact ⟨_, rfl⟩
      | references => exact ⟨_, rfl⟩
      | openFile => rw [kind] at isQuery; cases isQuery
      | changeFile => rw [kind] at isQuery; cases isQuery
    refine ⟨file, pointing, by rw [plain, Option.bind_some, back], form, ?_⟩
    rw [asks.method, Reply.ofResponse?_eq numbered (sameId.trans (congrArg some asks.id))
      pointsBack, body, form, Option.map_some]

/-- The greatest line and the first offset of a file with a blank in its name come back. -/
theorem Command.comesBack_greatestLine :
    ∃ call, Command.toMessage? ⟨7, .definition ⟨"/a b.c", 4294967295, 1⟩⟩ = some (.call call) ∧
      Reply.ofResponse? call.method ⟨Rpc.version, some call.id, some (call.echo ""), none⟩ =
        some (.answer .definition 7
          (.definition [⟨"/a b.c", ⟨4294967295, 1⟩, ⟨4294967295, 1⟩⟩])) := by
  have query := Command.comesBack (c := ⟨7, .definition ⟨"/a b.c", 4294967295, 1⟩⟩) rfl (by decide)
  obtain ⟨call, asked⟩ := query.asked.mpr ⟨⟨"file:///a%20b.c", by decide⟩, by decide, by decide⟩
  obtain ⟨file, body, named, form, replied⟩ :=
    query.answered call "" ⟨Rpc.version, some call.id, some (call.echo ""), none⟩ asked rfl rfl
  have same : (Uri.ofFile? "/a b.c").bind Uri.toFile? = some "/a b.c" := by
    decide +kernel
  obtain rfl : "/a b.c" = file := Option.some.inj (same.symm.trans named)
  obtain rfl := Option.some.inj form
  exact ⟨call, asked, replied⟩

end EditorBridge
