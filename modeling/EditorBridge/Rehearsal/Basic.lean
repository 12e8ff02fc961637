import EditorBridge.Hub.Roster
import EditorBridge.Practice.Server

/-!
# Rehearsals

A rehearsal is a bridge whose servers are practice servers, with a clock of its own. Nothing in it
takes time but waiting: whatever the bridge writes is taken by the servers at once, and what they
write arrives at once (`settle`), except for late answers, which arrive when the clock has come to
their time (`step`). A server that writes and exits is gone when the bridge comes to read what it
wrote (`heard`). So what a rehearsal comes to depends on nothing but what was done in it.
-/

namespace EditorBridge

namespace Rehearsal

/-- The practice server at the end of a channel, unless it has exited, and how many messages of the
bridge it has taken. -/
structure Peer where
  server : Option Practice.Server
  taken : Nat

/-- A late answer on its way, with the time when it arrives and the channel that it arrives on. -/
structure Letter where
  due : Nat
  channel : Nat
  message : Json

end Rehearsal

/-- A rehearsal of a bridge whose handlers are of type `η`: the bridge, whether a practice server
can be started so, the servers at the ends of the channels, the late answers on their way, the next
one first, and the time in milliseconds. -/
structure Rehearsal (η : Type) where
  hub : Hub η
  isPlayable : Launch → Bool
  peers : List Rehearsal.Peer
  letters : List Rehearsal.Letter
  now : Nat

namespace Rehearsal

variable {η : Type}

/-- A rehearsal that has just begun. -/
def start (hub : Hub η) (isPlayable : Launch → Bool) : Rehearsal η :=
  ⟨hub, isPlayable, [], [], 0⟩

/-- The start of a server in a rehearsal. -/
def launch (r : Rehearsal η) (l : Launch) : Option Channel.Outlet :=
  if r.isPlayable l then some .start else none

/-! ### Servers -/

/-- The practice server that a launch starts. One that does not understand its options exits at
once. -/
def Peer.ofLaunch (l : Launch) : Peer :=
  match Practice.Options.parse l.spec.args with
  | .ok options => ⟨some (.start options), 0⟩
  | .error _ => ⟨none, 0⟩

/-- The rehearsal with the servers of new channels. -/
def seat (r : Rehearsal η) : Rehearsal η :=
  { r with peers := r.peers ++
      (r.hub.links.drop r.peers.length).map fun link => .ofLaunch link.launch }

/-- A letter among others, after those that are due no later. -/
def post (letter : Letter) : List Letter → List Letter
  | [] => [letter]
  | first :: rest =>
      if first.due ≤ letter.due then first :: post letter rest else letter :: first :: rest

/-- The server at the end of a channel is gone, and its late answers with it. -/
def remove (r : Rehearsal η) (n : Nat) : Rehearsal η :=
  { r with
    hub := r.hub.arrive n .ended
    peers := r.peers.modify n fun peer => { peer with server := none }
    letters := r.letters.filter (·.channel != n) }

/-- A server acts. -/
def perform (n : Nat) (r : Rehearsal η) : Practice.Act → Rehearsal η
  | .write message => { r with hub := r.hub.arrive n (.frame message) }
  | .later delay message => { r with letters := post ⟨r.now + delay, n, message⟩ r.letters }
  | .exit _ => r.remove n

/-- What is heard of the acts of a server. The reader of a channel that comes to a blank line finds
that the server has exited, so messages with blank lines before them are lost with it. -/
def heard (options : Practice.Options) (acts : List Practice.Act) : List Practice.Act :=
  let isExit : Practice.Act → Bool
    | .exit _ => true
    | _ => false
  if options.blankLines != 0 && acts.any isExit then acts.filter isExit else acts

/-- The server at the end of a channel takes a message. -/
def hand (n : Nat) (r : Rehearsal η) (message : Json) : Rehearsal η :=
  match r.peers[n]? with
  | none => r
  | some peer =>
      let r := { r with peers := r.peers.set n { peer with taken := peer.taken + 1 } }
      match peer.server, Practice.Message.ofJson? message with
      | some server, some message =>
          let (server, acts) := server.handle message
          (heard server.options acts).foldl (perform n)
            { r with peers := r.peers.modify n fun peer => { peer with server := some server } }
      | _, _ => r

/-- The messages that the server at the end of a channel has not taken yet. -/
def unread (r : Rehearsal η) (n : Nat) : List Json :=
  match r.hub.channel? n, r.peers[n]? with
  | some channel, some peer => channel.outlet.sent.drop peer.taken
  | _, _ => []

/-- Whether the server at the end of a channel is gone without the bridge having heard of it. -/
def isEnding (r : Rehearsal η) (n : Nat) : Bool :=
  (r.hub.channel? n).any fun c =>
    c.isEnding || (!c.exchange.isClosed && (r.peers[n]?).any (·.server.isNone))

/-- The server at the end of a channel takes what has been written for it, unless it is gone. -/
def turn (r : Rehearsal η) (n : Nat) : Rehearsal η :=
  if r.isEnding n then r.remove n else (r.unread n).foldl (hand n) r

/-- Every server takes what has been written for it. -/
def round (r : Rehearsal η) : Rehearsal η :=
  (List.range r.peers.length).foldl turn r

/-- How many rounds bring a rehearsal to rest. In the first one the servers answer the requests of
the bridge; what the bridge writes of its own accord then, thanks and refusals, they take in the
second one, and to that they may only write events. -/
def roundLimit : Nat := 4

/-- Lets everything happen that takes no time. -/
def settle (r : Rehearsal η) : Rehearsal η :=
  roundLimit.repeat round r.seat

/-- The rehearsal after something is done in the hub, and what it has come to. -/
def act {α : Type} (r : Rehearsal η) (deed : Hub η → Hub η × α) : Rehearsal η × α :=
  let (hub, answer) := deed r.hub
  ({ r with hub }.settle, answer)

/-! ### The clock -/

/-- When the next late answer arrives. -/
def nextDue? (r : Rehearsal η) : Option Nat :=
  r.letters.head?.map Letter.due

/-- The clock comes to the next late answer, and it arrives. -/
def step (r : Rehearsal η) : Rehearsal η :=
  match r.letters with
  | [] => r
  | letter :: rest =>
      { r with
        now := max r.now letter.due
        letters := rest
        hub := r.hub.arrive letter.channel (.frame letter.message) }.settle

/-- Waits until something is so, for a number of late answers at most, of which each comes before a
deadline, if there is one. -/
def waitFor (deadline : Option Nat) (isSo : Rehearsal η → Bool) :
    Nat → Rehearsal η → Rehearsal η
  | 0, r => r
  | bound + 1, r =>
      let inTime := r.nextDue?.any fun due => deadline.all (due < ·)
      if isSo r || !inTime then r else waitFor deadline isSo bound r.step

/-- Waits until something is so, or nothing is on its way any more that comes before a deadline.
Waiting puts nothing new on its way, so the answers that are on it now are all. -/
def wait (r : Rehearsal η) (deadline : Option Nat) (isSo : Rehearsal η → Bool) : Rehearsal η :=
  waitFor deadline isSo r.letters.length r

end Rehearsal

end EditorBridge
