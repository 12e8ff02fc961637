import EditorBridge.Bridge.Inbound
import EditorBridge.Rpc.Message

/-!
# The exchange of a channel

One channel leads to one server. Its exchange keeps the table of requests that wait for an answer,
and the caller that waits for the handshake. It takes orders from callers (`order`) and messages
from the server (`receive`), and says in a list of effects what comes of each: who is answered, who
is let go without an answer, what is reported, what is written back. A caller is known by the
number of its ticket, which it keeps while it waits. Once the stream of the server has ended nobody
waits, and every later request is refused.
-/

namespace EditorBridge.Channel

/-- A request that waits for an answer, with the kind of the command it came from and the ticket of
its caller (`PendingRequest`). -/
structure Pending where
  id : Int64
  kind : Kind
  ticket : Nat
  deriving DecidableEq, Repr

/-- Why a request is not let into the table (`CorrelationError`): its id is the one of the
handshake, a request with the same id still waits, or the stream of the server has ended. -/
inductive Refusal where
  | reserved
  | duplicate (id : Int64)
  | closed
  deriving DecidableEq, Repr

/-- The wording of a refusal (`CorrelationError`). -/
def Refusal.message : Refusal → String
  | reserved => "request id 0 is reserved for the initialize handshake"
  | duplicate id =>
      "request id " ++ String.ofList (Numeral.integer id.toInt) ++ " is already pending"
  | closed => "server connection is closed"

/-- What callers ask of the exchange (`Control`): to register a request that is about to be written,
to abandon one, or to wait for the handshake. -/
inductive Order where
  | register (id : Int64) (kind : Kind) (ticket : Nat)
  | abandon (id : Int64)
  | awaitHandshake (ticket : Nat)
  deriving DecidableEq, Repr

/-- What arrives from the server (`Inbound`): a message, or the end of the stream. -/
inductive Arrival where
  | frame (value : Json)
  | ended

/-- What comes of an order or an arrival. A request is let into the table or refused; a caller gets
its reply, or is let go without one; the caller that waits for the handshake hears that the server
accepts it with a result, that it answers with an error, or nothing at all; an event is to be
dispatched, or a message to be written to the server. -/
inductive Effect where
  | accepted (ticket : Nat)
  | refused (ticket : Nat) (why : Refusal)
  | replied (ticket : Nat) (reply : Reply)
  | released (ticket : Nat)
  | greeted (ticket : Nat) (result : Json)
  | rejected (ticket : Nat)
  | dismissed (ticket : Nat)
  | raised (event : Event)
  | written (message : Rpc.Response)

/-- The state of an exchange (`CorrelatorTask`): the requests that wait for an answer, in the order
of their registration, the ticket of the caller that waits for the handshake, and whether the stream
of the server has ended. -/
structure Exchange where
  pending : List Pending
  handshake : Option Nat
  isClosed : Bool
  deriving DecidableEq, Repr

namespace Exchange

/-- The exchange of a new channel (`Correlator::spawn`). -/
def start : Exchange :=
  ⟨[], none, false⟩

/-- The request with an id that waits for an answer. -/
def find? (x : Exchange) (id : Int64) : Option Pending :=
  x.pending.find? (·.id == id)

/-- The exchange without the request with an id. -/
def forget (x : Exchange) (id : Int64) : Exchange :=
  { x with pending := x.pending.filter (·.id != id) }

/-- Why a request with an id is not let into the table, if it is not
(`CorrelatorTask::handle_control`). -/
def refusal? (x : Exchange) (id : Int64) : Option Refusal :=
  if id = handshakeId then some .reserved
  else if x.isClosed then some .closed
  else if (x.find? id).isSome then some (.duplicate id)
  else none

/-- Takes an order (`CorrelatorTask::handle_control`). -/
def order (x : Exchange) : Order → Exchange × List Effect
  | .register id kind ticket =>
      match x.refusal? id with
      | some why => (x, [.refused ticket why])
      | none => ({ x with pending := x.pending ++ [⟨id, kind, ticket⟩] }, [.accepted ticket])
  | .abandon id =>
      match x.find? id with
      | some waiting => (x.forget id, [.released waiting.ticket])
      | none => (x, [])
  | .awaitHandshake ticket =>
      if x.isClosed then (x, [.dismissed ticket])
      else
        ({ x with handshake := some ticket },
          (x.handshake.map Effect.dismissed).toList)

/-- The reply that a caller gets for the response to its request (`CorrelatorTask::resolve`): the
answer in it, or a failure that gives the reason of the server. -/
def replyTo (waiting : Pending) (r : Rpc.Response) : Reply :=
  (Reply.ofResponse? waiting.kind.method r).getD
    (Reply.failure waiting.kind.name waiting.id
      ((r.failure.map (·.message)).getD "no result"))

/-- What becomes of the caller that waits for the handshake when the response to it arrives
(`CorrelatorTask::resolve`). -/
def greeting (ticket : Nat) (r : Rpc.Response) : Effect :=
  if r.failure.isSome then .rejected ticket else .greeted ticket (r.result.getD .null)

/-- Takes a response (`CorrelatorTask::resolve`). One with an id that is no number, or that nobody
waits for, is dropped. -/
def resolve (x : Exchange) (r : Rpc.Response) : Exchange × List Effect :=
  match r.id.bind Rpc.RequestId.number? with
  | none => (x, [])
  | some id =>
      if id = handshakeId then
        ({ x with handshake := none }, (x.handshake.map (greeting · r)).toList)
      else
        match x.find? id with
        | some waiting => (x.forget id, [.replied waiting.ticket (replyTo waiting r)])
        | none => (x, [])

/-- Takes a message of the server (`CorrelatorTask::handle_frame`). -/
def take (x : Exchange) : Rpc.Incoming → Exchange × List Effect
  | .response r => x.resolve r
  | .notification n => (x, ((Event.ofNotification? n).map Effect.raised).toList)
  | .call c => (x, [.written (.decline c)])

/-- Ends the exchange (`CorrelatorTask::close`): everybody who waits is let go. -/
def close (x : Exchange) : Exchange × List Effect :=
  (⟨[], none, true⟩,
    x.pending.map (fun waiting => .released waiting.ticket) ++
      (x.handshake.map Effect.dismissed).toList)

/-- Takes what arrives from the server (`CorrelatorTask::run`). Nothing is read after the end of the
stream, and a message of unknown shape is dropped. -/
def receive (x : Exchange) (arrival : Arrival) : Exchange × List Effect :=
  if x.isClosed then (x, [])
  else
    match arrival with
    | .ended => x.close
    | .frame v =>
        match Rpc.Incoming.classify? v with
        | some message => x.take message
        | none => (x, [])

end Exchange

end EditorBridge.Channel
