import Mathlib.Logic.Function.Basic
import Mathlib.Logic.Relation
import EditorBridge.Channel.Basic
import EditorBridge.Channel.Inbox
import EditorBridge.Proofs.Channel.Registration

/-!
# The traffic of a channel

Callers, the exchange, the server and the reader of its output work side by side on one channel.
`Traffic` is all that they share and know, and `Traffic.Step` is what one of them does next; nothing
says who is next. A caller registers its request, and writes it once the exchange has let it in. The
server answers a request that has been written, or never does. Whatever may go wrong may do so at
any time: a caller runs out of patience, a message is not written, the stream ends.
-/

namespace EditorBridge.Channel

/-- The number of the request that a message to the server is. -/
def askedId? (m : Json) : Option Int64 :=
  match Rpc.Incoming.classify? m with
  | some (.call c) => c.id.number?
  | _ => none

/-- How a caller waits (`LspClient::request`, `LspClient::request_async`): it blocks until its
window is over, or it comes back for the answer and waits as long as it takes. -/
inductive Manner where
  | blocking
  | deferred
  deriving DecidableEq, Repr

/-- Who waits for the answer to a query, and how. -/
structure Caller where
  command : Command
  manner : Manner
  deriving DecidableEq, Repr

namespace Caller

/-- The request that the query becomes, as it is written. -/
def message? (c : Caller) : Option Json :=
  match c.command.toMessage? with
  | some (.call message) => some message.toJson
  | _ => none

/-- The request as it waits in the table. -/
def entry (c : Caller) (ticket : Nat) : Pending :=
  ⟨c.command.seq, c.command.kind, ticket⟩

/-- What the caller returns when no answer has come. -/
def fallback (c : Caller) : Option Reply :=
  match c.manner with
  | .blocking => some (Reply.timeout c.command.kind.name c.command.seq)
  | .deferred => none

end Caller

/-- How far a caller has come (`LspClient::submit`): it waits to hear whether its request is let in,
its request is let in and about to be written, the request is written, or the caller has returned.
-/
inductive Phase where
  | registering
  | writing
  | waiting
  | finished (result : Option Reply)
  deriving DecidableEq, Repr

/-- What effects tell the caller with a ticket about its registration. -/
def verdictOf (ticket : Nat) (effects : List Effect) : Option Bool :=
  effects.findSome? fun
    | .accepted other => if other = ticket then some true else none
    | .refused other _ => if other = ticket then some false else none
    | _ => none

/-- All that goes on around a channel. Callers are known by their tickets, which are their places in
the list of callers. Of each it is known how far it has come, whether its request was let in, once
this is decided, the reply that it is sent, or that it is let go without one, the place of its
request among the messages to the server, and whether it has abandoned it. Besides there are what
the exchange has not taken yet, the places of the requests that the server has answered, with the
answers, what the server has sent and the reader has not published, and whether the reader has
stopped. -/
structure Traffic where
  channel : Channel
  inbox : Inbox
  callers : List Caller
  phase : Nat → Phase
  verdict : Nat → Option Bool
  outcome : Nat → Option (Option Reply)
  place : Nat → Option Nat
  isAbandoned : Nat → Bool
  answers : List (Nat × Json)
  wire : List Json
  hasEnded : Bool

namespace Traffic

/-- A new channel that nobody has called on. -/
def start : Traffic where
  channel := .start .start
  inbox := .empty
  callers := []
  phase := fun _ => .registering
  verdict := fun _ => none
  outcome := fun _ => none
  place := fun _ => none
  isAbandoned := fun _ => false
  answers := []
  wire := []
  hasEnded := false

/-- The caller with a ticket. -/
def caller? (s : Traffic) (ticket : Nat) : Option Caller :=
  s.callers[ticket]?

/-- The messages to the server that have been written. -/
def sent (s : Traffic) : List Json :=
  s.channel.outlet.sent

/-- Somebody new calls. -/
def enter (s : Traffic) (c : Caller) : Traffic :=
  { s with callers := s.callers ++ [c] }

/-- The caller with a ticket comes to a phase. -/
def move (s : Traffic) (ticket : Nat) (phase : Phase) : Traffic :=
  { s with phase := Function.update s.phase ticket phase }

/-- The caller with a ticket abandons its request. -/
def giveUp (s : Traffic) (ticket : Nat) (c : Caller) : Traffic :=
  { s with
    inbox := s.inbox.pushOrder (.abandon c.command.seq)
    isAbandoned := Function.update s.isAbandoned ticket true }

/-- The request of the caller with a ticket reaches the server. -/
def deliver (s : Traffic) (ticket : Nat) (message : Json) : Traffic :=
  { s with
    channel := { s.channel with
      outlet := { s.channel.outlet with sent := s.channel.outlet.sent ++ [message] } }
    place := Function.update s.place ticket (some s.sent.length) }

/-- The exchange takes a step, and callers hear what comes of it. What a caller hears first
counts. -/
def exchanged (s : Traffic) (step : Step) : Traffic :=
  let taken := s.channel.exchange.step step
  { s with
    channel := { s.channel with exchange := taken.1 }
    verdict := fun ticket => (s.verdict ticket).or (verdictOf ticket taken.2)
    outcome := fun ticket => (s.outcome ticket).or (outcomesOf ticket taken.2).head? }

/-- What somebody does next (`LspClient::submit`, `CorrelatorTask::run`,
`ProcessTransport::reader_task`). A caller comes with a query whose number is new and not that of
the handshake; a query that cannot be said to the server fails at once (`mute`). A request that is
let in is written, or cannot be (`writeFailed`), or is written although the caller is told that it
could not (`writeLost`). A caller that waits gets its reply or is let go; the window of one that
blocks may be over at any time (`expired`), and any caller may abandon its request. The exchange
takes the orders and what has arrived, each in turn but in any order of the two.

Others may write messages that are no requests with a number of a query (`posted`) and do anything
to the outlet but to what has been sent (`disturbed`). The server answers a message that it has not
answered yet with the number that was asked (`answer`), or says something that answers nothing
(`spoken`). The reader publishes what comes in its order, until the stream ends. -/
inductive Step : Traffic → Traffic → Prop where
  | call {s : Traffic} (c : Caller) (isQuery : c.command.kind.isQuery = true)
      (nonzero : c.command.seq ≠ handshakeId)
      (fresh : ∀ d ∈ s.callers, d.command.seq ≠ c.command.seq)
      (sayable : c.message?.isSome = true) :
      Step s { s.enter c with
        inbox := s.inbox.pushOrder (.register c.command.seq c.command.kind s.callers.length) }
  | mute {s : Traffic} (c : Caller) (isQuery : c.command.kind.isQuery = true)
      (nonzero : c.command.seq ≠ handshakeId)
      (fresh : ∀ d ∈ s.callers, d.command.seq ≠ c.command.seq)
      (unsayable : c.message? = none) :
      Step s ((s.enter c).move s.callers.length (.finished c.fallback))
  | acknowledged {s : Traffic} {ticket : Nat} {c : Caller} (caller : s.caller? ticket = some c)
      (phase : s.phase ticket = .registering) (accepted : s.verdict ticket = some true) :
      Step s (s.move ticket .writing)
  | refused {s : Traffic} {ticket : Nat} {c : Caller} (caller : s.caller? ticket = some c)
      (phase : s.phase ticket = .registering) (refused : s.verdict ticket = some false) :
      Step s (s.move ticket (.finished c.fallback))
  | write {s : Traffic} {ticket : Nat} {c : Caller} {m : Json}
      (caller : s.caller? ticket = some c) (phase : s.phase ticket = .writing)
      (message : c.message? = some m) (written : (s.channel.write m).2 = true) :
      Step s ((s.deliver ticket m).move ticket .waiting)
  | writeFailed {s : Traffic} {ticket : Nat} {c : Caller} {m : Json}
      (caller : s.caller? ticket = some c) (phase : s.phase ticket = .writing)
      (message : c.message? = some m) (failed : (s.channel.write m).2 = false) :
      Step s ((s.giveUp ticket c).move ticket (.finished c.fallback))
  | writeLost {s : Traffic} {ticket : Nat} {c : Caller} {m : Json}
      (caller : s.caller? ticket = some c) (phase : s.phase ticket = .writing)
      (message : c.message? = some m) :
      Step s (((s.deliver ticket m).giveUp ticket c).move ticket (.finished c.fallback))
  | answered {s : Traffic} {ticket : Nat} {c : Caller} {reply : Reply}
      (caller : s.caller? ticket = some c) (phase : s.phase ticket = .waiting)
      (sent : s.outcome ticket = some (some reply)) :
      Step s (s.move ticket (.finished (some reply)))
  | released {s : Traffic} {ticket : Nat} {c : Caller}
      (caller : s.caller? ticket = some c) (phase : s.phase ticket = .waiting)
      (dropped : s.outcome ticket = some none) :
      Step s (s.move ticket (.finished c.fallback))
  | expired {s : Traffic} {ticket : Nat} {c : Caller} (caller : s.caller? ticket = some c)
      (phase : s.phase ticket = .waiting) (blocks : c.manner = .blocking) :
      Step s ((s.giveUp ticket c).move ticket (.finished c.fallback))
  | abandoned {s : Traffic} {ticket : Nat} {c : Caller} (caller : s.caller? ticket = some c) :
      Step s (s.giveUp ticket c)
  | awaited {s : Traffic} (ticket : Nat) :
      Step s { s with inbox := s.inbox.pushOrder (.awaitHandshake ticket) }
  | order {s : Traffic} {o : Order} {rest : List Order} (first : s.inbox.orders = o :: rest) :
      Step s { s.exchanged (.order o) with inbox := { s.inbox with orders := rest } }
  | arrival {s : Traffic} {a : Arrival} {rest : List Arrival}
      (first : s.inbox.arrivals = a :: rest) :
      Step s { s.exchanged (.arrival a) with inbox := { s.inbox with arrivals := rest } }
  | posted {s : Traffic} (m : Json) (other : ∀ n, askedId? m = some n → n = handshakeId) :
      Step s { s with channel := (s.channel.write m).1 }
  | disturbed {s : Traffic} (outlet : Outlet) (noted : Lifecycle) (kept : outlet.sent = s.sent) :
      Step s { s with channel := { s.channel with outlet, noted } }
  | answer {s : Traffic} {j : Nat} {m v : Json} {n : Int64} (written : s.sent[j]? = some m)
      (asked : askedId? m = some n) (answers : answeredId? v = some n)
      (new : j ∉ s.answers.map (·.1)) :
      Step s { s with answers := s.answers ++ [(j, v)], wire := s.wire ++ [v] }
  | spoken {s : Traffic} (v : Json) (other : ∀ n, answeredId? v = some n → n = handshakeId) :
      Step s { s with wire := s.wire ++ [v] }
  | published {s : Traffic} {v : Json} {rest : List Json} (first : s.wire = v :: rest)
      (reads : s.hasEnded = false) :
      Step s { s with inbox := s.inbox.pushArrival (.frame v), wire := rest }
  | ended {s : Traffic} (reads : s.hasEnded = false) :
      Step s { s with inbox := s.inbox.pushArrival .ended, hasEnded := true }

/-- Whether the traffic of a new channel may come to this. -/
def Reachable (s : Traffic) : Prop :=
  Relation.ReflTransGen Step start s

end Traffic

end EditorBridge.Channel
