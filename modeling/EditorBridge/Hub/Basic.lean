import EditorBridge.Channel.Basic
import EditorBridge.Hub.Launch
import EditorBridge.Roster
import EditorBridge.Subscriptions

/-!
# The hub

The hub is everything that the bridge keeps: the roster, and every channel, every set of
subscriptions and every workspace that has been started, each under its number, whether it still
lives or not. It runs no server. What servers do arrives through `arrive`; what the hub wants of a
server stands in the outlet of its channel. What has become of a request stands under its ticket in
`outcomes`: a reply, or nothing for a caller that was let go.
-/

namespace EditorBridge

/-- A channel with what it was started for (`ProcessTransport`): the start of the server, and the
board with the subscriptions to its events. -/
structure Link where
  launch : Launch
  board : Nat
  channel : Channel

/-- The hub of a bridge whose handlers are of type `η` (`ClientManager`, `Service`). It knows the
process that the bridge runs in, the roster, and by their numbers the channels, the boards and the
workspaces. It also holds the number of the next ticket, what has become of requests, by ticket, and
in order the handlers that have been called with the events that they were called with. -/
structure Hub (η : Type) where
  processId : Nat
  roster : Roster η
  links : List Link
  boards : List (Subscriptions η)
  workspaces : List Workspace
  nextTicket : Nat
  outcomes : List (Nat × Option Reply)
  calls : List (η × Event)

namespace Hub

variable {η : Type}

/-- The hub of a bridge that has just been started. -/
def start (processId timeout : Nat) : Hub η :=
  ⟨processId, .empty timeout, [], [], [], 0, [], []⟩

/-- The channel with a number (`Service::primary`). -/
def channel? (h : Hub η) (n : Nat) : Option Channel :=
  h.links[n]?.map Link.channel

/-- The workspace with a number. -/
def workspace? (h : Hub η) (n : Nat) : Option Workspace :=
  h.workspaces[n]?

/-- Whether the server at the end of a channel is there (`Service::is_alive`). -/
def isAlive (h : Hub η) (n : Nat) : Bool :=
  (h.channel? n).any Channel.isAlive

/-- The hub with another channel in the place of one. -/
def setChannel (h : Hub η) (n : Nat) (channel : Channel) : Hub η :=
  { h with links := h.links.modify n fun link => { link with channel } }

/-- The hub with another workspace in the place of one. -/
def setWorkspace (h : Hub η) (n : Nat) (workspace : Workspace) : Hub η :=
  { h with workspaces := h.workspaces.set n workspace }

/-- What has become of the request with a ticket, if it is decided. -/
def outcome? (h : Hub η) (ticket : Nat) : Option (Option Reply) :=
  (h.outcomes.find? (·.1 == ticket)).map Prod.snd

/-! ### Events -/

/-- Gives an event to the handlers of a set of subscriptions (`EventHandlers::dispatch`). -/
def dispatch (h : Hub η) (board : Nat) (e : Event) : Hub η :=
  match h.boards[board]? with
  | none => h
  | some subscriptions =>
      let call (handler : η) (e : Event) (state : Subscriptions η × List (η × Event)) :
          Subscriptions η × List (η × Event) := (state.1, state.2 ++ [(handler, e)])
      let ((subscriptions, calls), _) := Subscriptions.dispatch call e (subscriptions, h.calls)
      { h with boards := h.boards.set board subscriptions, calls }

/-- Subscribes a handler, and gives the number of the subscription (`Service::on_event`). -/
def subscribe (h : Hub η) (board : Nat) (event : String) (handler : η) : Hub η × UInt64 :=
  match h.boards[board]? with
  | none => (h, 0)
  | some subscriptions =>
      let (subscriptions, id) := subscriptions.add event handler
      ({ h with boards := h.boards.set board subscriptions }, id)

/-- Ends a subscription, and says whether it was there (`Service::remove_handler`). -/
def unsubscribe (h : Hub η) (board : Nat) (id : UInt64) : Hub η × Bool :=
  match h.boards[board]? with
  | none => (h, false)
  | some subscriptions =>
      let (subscriptions, removed) := subscriptions.remove id
      ({ h with boards := h.boards.set board subscriptions }, removed)

/-- Takes the oldest event that had no handler (`Service::next_event`). -/
def nextEvent (h : Hub η) (board : Nat) : Hub η × Option Event :=
  match h.boards[board]? with
  | none => (h, none)
  | some subscriptions =>
      let (subscriptions, event) := subscriptions.next
      ({ h with boards := h.boards.set board subscriptions }, event)

/-! ### Channels -/

/-- Notes what an effect on a channel means outside the channel. -/
def note (board : Nat) (h : Hub η) : Channel.Effect → Hub η
  | .replied ticket reply => { h with outcomes := h.outcomes ++ [(ticket, some reply)] }
  | .released ticket => { h with outcomes := h.outcomes ++ [(ticket, none)] }
  | .raised event => h.dispatch board event
  | _ => h

/-- Lets a channel do something, and notes the effects of it. -/
def onChannel {α : Type} (h : Hub η) (n : Nat) (otherwise : α)
    (act : Channel → Channel × List Channel.Effect × α) : Hub η × α :=
  match h.links[n]? with
  | none => (h, otherwise)
  | some link =>
      let (channel, effects, answer) := act link.channel
      (effects.foldl (note link.board) (h.setChannel n channel), answer)

/-- Takes what arrives from the server at the end of a channel (`ProcessTransport::reader_task`). -/
def arrive (h : Hub η) (n : Nat) (arrival : Channel.Arrival) : Hub η :=
  (h.onChannel n () fun c =>
    let (c, effects) := c.arrive arrival
    (c, effects, ())).1

/-- Writes a command on a channel without waiting for an answer (`LspClient::post`). -/
def post (h : Hub η) (n : Nat) (command : Command) : Hub η × Bool :=
  h.onChannel n false fun c =>
    let (c, written) := c.post command
    (c, [], written)

/-- Writes a command on a channel under a new ticket (`LspClient::request_async`). -/
def submit (h : Hub η) (n : Nat) (command : Command) : Hub η × Channel.Submission :=
  { h with nextTicket := h.nextTicket + 1 }.onChannel n .failed
    fun c => c.submit command h.nextTicket

/-- Nobody waits for the answer to a request on a channel any more (`Service::abandon`). -/
def abandon (h : Hub η) (n : Nat) (id : Int64) : Hub η :=
  (h.onChannel n () fun c =>
    let (c, effects) := c.abandon id
    (c, effects, ())).1

/-- Stops the server at the end of a channel (`LspClient::stop`). -/
def stopChannel (h : Hub η) (n : Nat) : Hub η :=
  (h.onChannel n () fun c => (c.stop, [], ())).1

/-- Takes leave of the server at the end of a channel and stops it (`LspClient::shutdown`). -/
def shutdownChannel (h : Hub η) (n : Nat) : Hub η :=
  (h.onChannel n () fun c => (c.shutdown, [], ())).1

end Hub

end EditorBridge
