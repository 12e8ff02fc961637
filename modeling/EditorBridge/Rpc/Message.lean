import EditorBridge.Json.Reader
import EditorBridge.Json.Record

/-!
# JSON-RPC messages

The messages that travel between the bridge and a language server: requests, responses and
notifications. A message from the server is classified by its shape alone: `Incoming.classify?`
looks whether it has a method that is a string and an id that is not null, and then reads the
record which that shape promises. Messages are written with their members in the order of the
record.
-/

namespace EditorBridge.Rpc

/-- The id of a request (`RequestId`). -/
inductive RequestId where
  | number (value : Int64)
  | text (value : String)
  deriving DecidableEq, Repr

/-- The number of a numeric id (`RequestId::as_number`). -/
def RequestId.number? : RequestId → Option Int64
  | number n => some n
  | text _ => none

/-- Reads an id (`RequestId`). -/
def RequestId.ofJson? (v : Json) : Option RequestId :=
  match v.int64? with
  | some n => some (number n)
  | none => v.string?.map text

/-- The written form of an id (`RequestId`). -/
def RequestId.toJson : RequestId → Json
  | number n => .int n.toInt
  | text s => .string s

/-- A request, which the other side has to answer with a response that carries the same id
(`RequestMessage`). Like every message it says the protocol version, what is asked for, and the
arguments. -/
structure Call where
  jsonrpc : String
  id : RequestId
  method : String
  params : Json

/-- Why a request failed (`ResponseError`): the number of the reason, the reason in words, and
whatever else the other side says about it. -/
structure Failure where
  code : Int64
  message : String
  data : Option Json

/-- The answer to a request, with the id of the request unless the other side could not read it, and
with a result or the failure that stands for it (`ResponseMessage`). -/
structure Response where
  jsonrpc : String
  id : Option RequestId
  result : Option Json
  failure : Option Failure

/-- A message that is not answered (`NotificationMessage`): what is reported, and the arguments. -/
structure Notification where
  jsonrpc : String
  method : String
  params : Json

/-- The protocol version of every message that the bridge writes. -/
def version : String := "2.0"

/-- The code of a failure because of an unknown method (`METHOD_NOT_FOUND`). -/
def methodNotFound : Int64 := -32601

/-- A request of this protocol version (`RequestMessage::new`). -/
def Call.of (id : RequestId) (method : String) (params : Json) : Call :=
  ⟨version, id, method, params⟩

/-- A notification of this protocol version (`NotificationMessage::new`). -/
def Notification.of (method : String) (params : Json) : Notification :=
  ⟨version, method, params⟩

namespace Call

/-- Reads a request (`RequestMessage`). -/
def ofJson? (v : Json) : Option Call :=
  match v.members? ["jsonrpc", "id", "method", "params"] 1 with
  | some [jsonrpc, id, method, params] =>
      (Json.required Json.string? jsonrpc).bind fun jsonrpc =>
        (Json.required RequestId.ofJson? id).bind fun id =>
          (Json.required Json.string? method).map fun method =>
            ⟨jsonrpc, id, method, Json.orNull params⟩
  | _ => none

/-- The written form of a request (`RequestMessage`). -/
def toJson (c : Call) : Json :=
  .object [("jsonrpc", .string c.jsonrpc), ("id", c.id.toJson), ("method", .string c.method),
    ("params", c.params)]

end Call

namespace Failure

/-- The members of a failure. -/
def names : List String := ["code", "message", "data"]

/-- Reads a failure (`ResponseError`). -/
def ofJson? (v : Json) : Option Failure :=
  match v.members? names 0 with
  | some [code, message, data] =>
      (Json.required Json.int64? code).bind fun code =>
        (Json.required Json.string? message).bind fun message =>
          (Json.optional some data).map fun data => ⟨code, message, data⟩
  | _ => none

/-- The written form of a failure (`ResponseError`). -/
def toJson (f : Failure) : Json :=
  .object ([("code", .int f.code.toInt), ("message", .string f.message)] ++
    Json.field? "data" (fun v => v) f.data)

end Failure

namespace Response

/-- The members of a response. -/
def names : List String := ["jsonrpc", "id", "result", "error"]

/-- Reads a response (`ResponseMessage`). -/
def ofJson? (v : Json) : Option Response :=
  match v.members? names 0 with
  | some [jsonrpc, id, result, failure] =>
      (Json.required Json.string? jsonrpc).bind fun jsonrpc =>
        (Json.optional RequestId.ofJson? id).bind fun id =>
          (Json.optional some result).bind fun result =>
            (Json.optional Failure.ofJson? failure).map fun failure =>
              ⟨jsonrpc, id, result, failure⟩
  | _ => none

/-- Reads a response straight from a text. -/
def parse? (text : String) : Option Response :=
  (Json.Source.read? text.toList).bind fun source =>
    (source.narrow names).bind fun source =>
      (source.narrowMember names "error" Failure.names).bind fun source =>
        (Json.ofSource Json.maxDepth source).bind ofJson?

/-- The written form of a response (`ResponseMessage`). -/
def toJson (r : Response) : Json :=
  .object ([("jsonrpc", .string r.jsonrpc), ("id", (r.id.map RequestId.toJson).getD .null)] ++
    Json.field? "result" (fun v => v) r.result ++ Json.field? "error" Failure.toJson r.failure)

/-- The response that declines a request because of its method (`CorrelatorTask::reject`). -/
def decline (call : Call) : Response :=
  ⟨version, some call.id, none,
    some ⟨methodNotFound, "Method not found: " ++ call.method, none⟩⟩

end Response

namespace Notification

/-- The members of a notification. -/
def names : List String := ["jsonrpc", "method", "params"]

/-- Reads a notification (`NotificationMessage`). -/
def ofJson? (v : Json) : Option Notification :=
  match v.members? names 1 with
  | some [jsonrpc, method, params] =>
      (Json.required Json.string? jsonrpc).bind fun jsonrpc =>
        (Json.required Json.string? method).map fun method =>
          ⟨jsonrpc, method, Json.orNull params⟩
  | _ => none

/-- Reads a notification straight from a text. -/
def parse? (text : String) : Option Notification :=
  (Json.Source.read? text.toList).bind fun source =>
    (source.narrow names).bind fun source =>
      (Json.ofSource Json.maxDepth source).bind ofJson?

/-- The written form of a notification (`NotificationMessage`). -/
def toJson (n : Notification) : Json :=
  .object [("jsonrpc", .string n.jsonrpc), ("method", .string n.method), ("params", n.params)]

end Notification

/-- A message that a command becomes (`OutboundMessage`). -/
inductive Outgoing where
  | call (message : Call)
  | notification (message : Notification)

namespace Outgoing

/-- What is asked for or reported (`OutboundMessage::method`). -/
def method : Outgoing → String
  | call c => c.method
  | notification n => n.method

/-- The id of a request (`OutboundMessage::id`). -/
def id? : Outgoing → Option RequestId
  | call c => some c.id
  | notification _ => none

/-- The arguments (`OutboundMessage::params`). -/
def params : Outgoing → Json
  | call c => c.params
  | notification n => n.params

/-- The written form of the message (`OutboundMessage`). -/
def toJson : Outgoing → Json
  | call c => c.toJson
  | notification n => n.toJson

end Outgoing

/-- A message from a server (`InboundMessage`): an answer to a request of the bridge, a report, or a
request of the server's own. -/
inductive Incoming where
  | response (message : Response)
  | notification (message : Notification)
  | call (message : Call)

namespace Incoming

/-- Whether the value has a method that is a string (`InboundMessage::classify`). -/
def hasMethod (v : Json) : Bool :=
  ((v.get? "method").bind Json.string?).isSome

/-- Whether the value has an id other than null (`InboundMessage::classify`). -/
def hasId (v : Json) : Bool :=
  ((v.get? "id").map fun id => !id.isNull).getD false

/-- The message that a value is, by its shape (`InboundMessage::classify`). -/
def classify? (v : Json) : Option Incoming :=
  match hasMethod v, hasId v with
  | true, true => (Call.ofJson? v).map call
  | true, false => (Notification.ofJson? v).map notification
  | false, true => (Response.ofJson? v).map response
  | false, false => none

/-- The written form of the message (`InboundMessage`). -/
def toJson : Incoming → Json
  | response r => r.toJson
  | notification n => n.toJson
  | call c => c.toJson

end Incoming

end EditorBridge.Rpc
