import EditorBridge.Channel.Exchange

/-!
# The inbox of an exchange

Orders of callers and arrivals from the server wait in two queues until the exchange takes them.
Orders come first: a request that is registered before it is written is in the table before its
answer can be taken. `settle` takes everything that waits, in this order.
-/

namespace EditorBridge.Channel

/-- What waits to be taken: the orders of callers and what has arrived from the server, in both the
oldest one first. -/
structure Inbox where
  orders : List Order
  arrivals : List Arrival

namespace Inbox

/-- An inbox where nothing waits. -/
def empty : Inbox :=
  ⟨[], []⟩

/-- The inbox with one more order (`Correlator`). -/
def pushOrder (box : Inbox) (o : Order) : Inbox :=
  { box with orders := box.orders ++ [o] }

/-- The inbox with one more arrival (`ProcessTransport::reader_task`). -/
def pushArrival (box : Inbox) (a : Arrival) : Inbox :=
  { box with arrivals := box.arrivals ++ [a] }

end Inbox

namespace Exchange

/-- Takes one order or arrival after the other, with what comes of them (`CorrelatorTask::run`). -/
def run {α : Type} (take : Exchange → α → Exchange × List Effect) (x : Exchange) :
    List α → Exchange × List Effect
  | [] => (x, [])
  | first :: rest =>
      let (x, effects) := take x first
      let (x, more) := run take x rest
      (x, effects ++ more)

/-- Takes everything that waits (`CorrelatorTask::run`): all orders, then all arrivals. -/
def settle (x : Exchange) (box : Inbox) : Exchange × List Effect :=
  let (x, effects) := x.run order box.orders
  let (x, more) := x.run receive box.arrivals
  (x, effects ++ more)

theorem run_append {α : Type} (take : Exchange → α → Exchange × List Effect) (x : Exchange)
    (first second : List α) :
    x.run take (first ++ second) =
      let (y, effects) := x.run take first
      let (z, more) := y.run take second
      (z, effects ++ more) := by
  induction first generalizing x with
  | nil => simp [run]
  | cons a first ih => simp [run, ih, List.append_assoc]

end Exchange

end EditorBridge.Channel
