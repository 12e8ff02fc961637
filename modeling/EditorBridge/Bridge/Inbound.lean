import EditorBridge.Command.Basic
import EditorBridge.Rpc.Message
import EditorBridge.Server.Answer

/-!
# From server messages to replies and events

The reply that a response becomes, and the event that a notification becomes. A response becomes no
reply if it is the answer to the handshake, has no result to speak of, or has a result that cannot
be read or names no file. A notification becomes an event if it carries a list of findings, whatever
its method is.
-/

namespace EditorBridge

/-- The span of a location, if its URI names a file (`file_span`). -/
def Server.Location.toSpan? (l : Server.Location) : Option Span :=
  (Uri.toFile? l.uri).map fun file => ⟨file, l.range.start.toPoint, l.range.finish.toPoint⟩

/-- What the editor is told about a symbol (`quickinfo_body`): the first two parts of the
description, and the range. -/
def Server.Hover.toQuickInfo (h : Server.Hover) : QuickInfo :=
  ⟨h.description[0]?, h.description[1]?, h.range.map (·.start.toPoint),
    h.range.map (·.finish.toPoint)⟩

/-- Whether a result says anything (`is_truthy`): null, false and an empty list do not. -/
def isTelling : Json → Bool
  | .null | .bool false | .array [] => false
  | _ => true

/-- The answer that the result of a query of some kind holds (`to_legacy_response`,
`first_definition`). -/
def Body.ofResult? : Kind → Json → Option Body
  | .quickInfo, v => (Server.Hover.ofJson? v).map fun hover => quickInfo hover.toQuickInfo
  | .definition, v =>
      (Server.definitions? v).bind fun locations =>
        locations.head?.bind fun location => location.toSpan?.map fun span => definition [span]
  | .references, v =>
      (Json.listOf? Server.Location.ofJson? v).bind fun locations =>
        let spans := locations.filterMap Server.Location.toSpan?
        if spans.isEmpty then none else some (references spans)
  | .openFile, _ | .changeFile, _ => none

/-- The id that the handshake has on every channel (`HANDSHAKE_ID`). -/
def handshakeId : Int64 := 0

/-- The reply that a response to a request with a method becomes (`to_legacy_response`). -/
def Reply.ofResponse? (method : String) (r : Rpc.Response) : Option Reply :=
  (r.id.bind Rpc.RequestId.number?).bind fun seq =>
    if seq = handshakeId then none
    else
      (r.result.filter isTelling).bind fun result =>
        (Kind.ofMethod? method).bind fun kind =>
          (Body.ofResult? kind result).map fun body => Reply.answer kind seq body

/-- A reply that a response becomes holds the answer that is in the result. -/
theorem Reply.exists_of_ofResponse? {method : String} {r : Rpc.Response} {reply : Reply}
    (read : ofResponse? method r = some reply) :
    ∃ seq kind result body, Kind.ofMethod? method = some kind ∧ r.result = some result ∧
      Body.ofResult? kind result = some body ∧ reply = answer kind seq body := by
  obtain ⟨seq, -, read⟩ := Option.bind_eq_some_iff.mp read
  split at read
  · cases read
  · obtain ⟨result, telling, read⟩ := Option.bind_eq_some_iff.mp read
    obtain ⟨kind, named, read⟩ := Option.bind_eq_some_iff.mp read
    obtain ⟨body, found, rfl⟩ := Option.map_eq_some_iff.mp read
    exact ⟨seq, kind, result, body, named, (Option.filter_eq_some_iff.mp telling).1, found, rfl⟩

/-- What the editor is told about a finding (`to_event`). -/
def Server.Diagnostic.toFinding (d : Server.Diagnostic) : Finding :=
  ⟨d.message, d.range.start.toPoint, d.range.finish.toPoint⟩

/-- The event that a notification becomes (`to_event`). -/
def Event.ofNotification? (n : Rpc.Notification) : Option Event :=
  ((n.params.get? "diagnostics").bind (Json.listOf? Server.Diagnostic.ofJson?)).map fun found =>
    ⟨findingsName, ((n.params.get? "uri").bind Json.string?).bind Uri.toFile?,
      found.map Server.Diagnostic.toFinding⟩

end EditorBridge
