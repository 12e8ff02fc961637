import EditorBridge.Bridge.Outbound
import EditorBridge.Channel.Exchange
import EditorBridge.Channel.Outlet
import EditorBridge.Lifecycle
import EditorBridge.Uri.File

/-!
# Channels

A channel leads to one server. Commands go out through its outlet, and its exchange brings the
answers back to the callers. The first request on a channel is the handshake; when the server has
accepted it, the channel notes that it is ready and says so to the server. A channel is dead as soon
as the server is gone, whatever has been noted.

Every function here is one step that nothing can come between, except `submit`, which is made of
three: the request is let into the table (`order`), it is written (`write`), and a request that
could not be written is abandoned (`order` again).
-/

namespace EditorBridge

/-- A channel (`LspClient`): the requests that wait for an answer, the place where messages to the
server are written, and the stage that was noted last. The stage as it is told also depends on the
server (`stage`). -/
structure Channel where
  exchange : Channel.Exchange
  outlet : Channel.Outlet
  noted : Lifecycle

namespace Channel

/-- What becomes of a command that is submitted (`Submission`): its answer is waited for under a
ticket, or it has no answer and was written, or it was not written. -/
inductive Submission where
  | waiting (ticket : Nat)
  | posted
  | failed
  deriving DecidableEq, Repr

/-- A new channel with an outlet to a server that has just been started (`LspClient::start`). -/
def start (outlet : Outlet) : Channel :=
  ⟨.start, outlet, .initializing⟩

/-- Whether the server is there (`LspClient::is_alive`). -/
def isAlive (c : Channel) : Bool :=
  c.outlet.isAlive

/-- The stage of the channel's life (`LspClient::state`). -/
def stage (c : Channel) : Lifecycle :=
  if c.isAlive then c.noted else .dead

/-! ### Writing -/

/-- Writes a message, and says whether it was written (`ProcessTransport::write`). -/
def write (c : Channel) (message : Json) : Channel × Bool :=
  let (outlet, outcome) := c.outlet.write message
  ({ c with outlet }, outcome.toBool)

/-- Gives an order to the exchange (`Correlator`). -/
def order (c : Channel) (o : Order) : Channel × List Effect :=
  let (exchange, effects) := c.exchange.order o
  ({ c with exchange }, effects)

/-- Nobody waits for the answer to a request any more (`LspClient::abandon`). -/
def abandon (c : Channel) (id : Int64) : Channel × List Effect :=
  c.order (.abandon id)

/-- Writes the message of a command without waiting for an answer, and says whether it was written
(`LspClient::post`). -/
def post (c : Channel) (command : Command) : Channel × Bool :=
  match command.toMessage? with
  | some message => c.write message.toJson
  | none => (c, false)

/-- Lets a request into the table and writes it (`LspClient::submit`). -/
def submitCall (c : Channel) (command : Command) (message : Json) (ticket : Nat) :
    Channel × List Effect × Submission :=
  match c.exchange.refusal? command.seq with
  | some _ => (c, [], .failed)
  | none =>
      let (c, effects) := c.order (.register command.seq command.kind ticket)
      match c.write message with
      | (c, true) => (c, effects, .waiting ticket)
      | (c, false) =>
          let (c, more) := c.abandon command.seq
          (c, effects ++ more, .failed)

/-- Writes the message of a command; the answer is waited for under a ticket, if there will be one
(`LspClient::submit`). -/
def submit (c : Channel) (command : Command) (ticket : Nat) :
    Channel × List Effect × Submission :=
  match command.toMessage? with
  | none => (c, [], .failed)
  | some (.notification message) =>
      match c.write message.toJson with
      | (c, true) => (c, [], .posted)
      | (c, false) => (c, [], .failed)
  | some (.call message) => c.submitCall command message.toJson ticket

/-! ### The handshake -/

/-- The first request on a channel, by a process with a number, for the files under a root
(`LspClient::initialize`). -/
def greeting (processId : Nat) (root : String) : Rpc.Call :=
  .of (.number handshakeId) "initialize" (.ofMembers
    [("processId", .int processId), ("rootPath", .string root),
      ("rootUri", ((Uri.ofFile? root).map Json.string).getD .null), ("capabilities", .object [])])

/-- The notification that the handshake is over (`LspClient::initialize`). -/
def thanks : Rpc.Notification :=
  .of "initialized" (.object [])

/-- Starts the handshake, and says whether it was written (`LspClient::initialize`). -/
def greet (c : Channel) (processId : Nat) (root : String) (ticket : Nat) :
    Channel × List Effect × Bool :=
  let (c, effects) := c.order (.awaitHandshake ticket)
  let (c, written) := c.write (greeting processId root).toJson
  (c, effects, written)

/-- The server has accepted the handshake (`LspClient::initialize`). -/
def accept (c : Channel) : Channel :=
  ({ c with noted := .ready }.write thanks.toJson).1

/-! ### What the server does -/

/-- Does what an effect asks of the channel itself (`CorrelatorTask::run`). -/
def carryOut (c : Channel) : Effect → Channel
  | .greeted _ _ => c.accept
  | .written message => (c.write message.toJson).1
  | _ => c

/-- Takes what arrives from the server (`CorrelatorTask::run`). With the end of the stream the
server is gone. -/
def arrive (c : Channel) (arrival : Arrival) : Channel × List Effect :=
  let outlet :=
    match arrival with
    | .ended => { c.outlet with isAlive := false }
    | .frame _ => c.outlet
  let (exchange, effects) := c.exchange.receive arrival
  (effects.foldl carryOut { c with exchange, outlet }, effects)

/-! ### The end -/

/-- Stops the server (`LspClient::stop`). Whoever waits is let go when the end of the stream
arrives. -/
def stop (c : Channel) : Channel :=
  { c with outlet := { c.outlet with isAlive := false }, noted := .dead }

/-- The last message to a server (`LspClient::shutdown`). -/
def farewell : Rpc.Notification :=
  .of "exit" .null

/-- Takes leave of the server and stops it (`LspClient::shutdown`). -/
def shutdown (c : Channel) : Channel :=
  (c.write farewell.toJson).1.stop

/-- Whether the server has been stopped or is gone, and the end of the stream has not arrived
yet. -/
def isEnding (c : Channel) : Bool :=
  !c.isAlive && !c.exchange.isClosed

theorem isAlive_write (c : Channel) (message : Json) : (c.write message).1.isAlive = c.isAlive := by
  unfold write Outlet.write
  cases c.outlet.refusal? <;> rfl

/-- A message to a server that is gone leaves no trace. -/
theorem write_of_not_alive {c : Channel} (gone : c.isAlive = false) (message : Json) :
    c.write message = (c, false) := by
  have refused : c.outlet.refusal? = some .notRunning := by
    rw [isAlive] at gone
    rw [Outlet.refusal?, gone]
    rfl
  rw [write, Outlet.write, refused]
  rfl

theorem stage_of_not_alive {c : Channel} (gone : c.isAlive = false) : c.stage = .dead := by
  simp [stage, gone]

end Channel

end EditorBridge
