import EditorBridge.Reply

/-!
# Subscriptions to events

Handlers subscribe to events by name. An event is given to every handler of its name, in the order
in which they subscribed; an event without a handler goes to a backlog, from which it can be
fetched. The backlog keeps the last `backlogLimit` events. A handler may change the subscriptions
while it runs: an event goes to the handlers that were there when its dispatch began.

What a handler is stays open here; `dispatch` is told how to run one.
-/

namespace EditorBridge

/-- A handler under the number of its subscription (`HandlerId`). -/
structure Subscription (η : Type) where
  id : UInt64
  handler : η

/-- The handlers of a channel and the events that nobody handled (`Registry`): the subscriptions to
each event by its name, where no name stands twice and the oldest subscription comes first, the
backlog of events without a handler, the oldest one first, and the number of the next subscription.
-/
structure Subscriptions (η : Type) where
  byEvent : List (String × List (Subscription η))
  backlog : List Event
  nextId : UInt64

namespace Subscriptions

variable {η σ : Type}

/-- How many events the backlog keeps (`BACKLOG_LIMIT`). -/
def backlogLimit : Nat := 256

/-- No subscriptions, and no events (`EventHandlers::new`). -/
def empty : Subscriptions η :=
  ⟨[], [], 0⟩

/-- The subscriptions to an event. -/
def lookup (event : String) : List (String × List (Subscription η)) → List (Subscription η)
  | [] => []
  | (name, entries) :: rest => if name = event then entries else lookup event rest

/-- Puts a subscription behind the others to its event (`EventHandlers::add_shared`). -/
def enter (event : String) (new : Subscription η) :
    List (String × List (Subscription η)) → List (String × List (Subscription η))
  | [] => [(event, [new])]
  | (name, entries) :: rest =>
      if name = event then (name, entries ++ [new]) :: rest
      else (name, entries) :: enter event new rest

/-- Takes a number out of the subscriptions to every event; an event that nobody has subscribed to
any more goes with it (`EventHandlers::remove_handler`). -/
def strike (id : UInt64) :
    List (String × List (Subscription η)) → List (String × List (Subscription η))
  | [] => []
  | (name, entries) :: rest =>
      match entries.filter (·.id != id) with
      | [] => strike id rest
      | first :: others => (name, first :: others) :: strike id rest

/-- Subscribes a handler to an event, and gives the number of the subscription
(`EventHandlers::add_shared`). -/
def add (s : Subscriptions η) (event : String) (handler : η) : Subscriptions η × UInt64 :=
  ({ s with byEvent := enter event ⟨s.nextId, handler⟩ s.byEvent, nextId := s.nextId + 1 },
    s.nextId)

/-- Whether a subscription is there (`EventHandlers::remove_handler`). -/
def contains (s : Subscriptions η) (id : UInt64) : Bool :=
  s.byEvent.any fun named => named.2.any (·.id == id)

/-- Ends a subscription, and says whether it was there (`EventHandlers::remove_handler`). -/
def remove (s : Subscriptions η) (id : UInt64) : Subscriptions η × Bool :=
  ({ s with byEvent := strike id s.byEvent }, s.contains id)

/-- The handlers of an event, in the order in which they subscribed (`EventHandlers::dispatch`). -/
def handlers (s : Subscriptions η) (event : String) : List η :=
  (lookup event s.byEvent).map Subscription.handler

/-- Puts an event into the backlog, at the cost of the oldest one if it is full
(`EventHandlers::dispatch`). -/
def store (s : Subscriptions η) (e : Event) : Subscriptions η :=
  let kept := if s.backlog.length = backlogLimit then s.backlog.drop 1 else s.backlog
  { s with backlog := kept ++ [e] }

/-- Takes the oldest event out of the backlog (`EventHandlers::next_event`). -/
def next (s : Subscriptions η) : Subscriptions η × Option Event :=
  ({ s with backlog := s.backlog.drop 1 }, s.backlog.head?)

/-- Gives an event to its handlers, and says to how many (`EventHandlers::dispatch`). The state `σ`
is the one that handlers work on, next to the subscriptions. -/
def dispatch (run : η → Event → Subscriptions η × σ → Subscriptions η × σ) (e : Event)
    (state : Subscriptions η × σ) : (Subscriptions η × σ) × Nat :=
  match state.1.handlers e.name with
  | [] => ((state.1.store e, state.2), 0)
  | called => (called.foldl (fun state handler => run handler e state) state, called.length)

end Subscriptions

end EditorBridge
