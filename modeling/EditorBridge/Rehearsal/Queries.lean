import EditorBridge.Rehearsal.Basic

/-!
# Queries in a rehearsal

What callers get who wait for an answer. A query waits for the time of the roster at most; then it
is abandoned, and the caller is told that the answer did not come. A notice is acknowledged as soon
as it is written. A caller whose call dies gets nothing.
-/

namespace EditorBridge.Rehearsal

variable {η : Type}

/-- Whether the request with a ticket is decided. -/
def isDecided (ticket : Nat) (r : Rehearsal η) : Bool :=
  (r.hub.outcome? ticket).isSome

/-- Waits for what becomes of a command that was submitted on a channel. -/
def conclude (r : Rehearsal η) (channel : Nat) (command : Command) :
    Channel.Submission → Rehearsal η × Reply
  | .posted => (r, Reply.acknowledged command.kind command.seq)
  | .failed => (r, Reply.timeout command.kind.name command.seq)
  | .waiting ticket =>
      let deadline := r.now + r.hub.roster.timeout
      let r := r.wait (some deadline) (isDecided ticket)
      match r.hub.outcome? ticket with
      | some outcome => (r, outcome.getD (Reply.timeout command.kind.name command.seq))
      | none =>
          let r := { r with
            now := max r.now deadline
            hub := r.hub.abandon channel command.seq }
          (r, Reply.timeout command.kind.name command.seq)

/-- Submits a command on a channel and waits for its reply. -/
def requestOn (r : Rehearsal η) (channel : Nat) (command : Command) : Rehearsal η × Reply :=
  let (r, submission) := r.act (·.submit channel command)
  r.conclude channel command submission

/-- Asks a workspace a command and waits for its reply, unless the call dies. -/
def request (r : Rehearsal η) (workspace : Nat) (command : Command) :
    Rehearsal η × Option Reply :=
  let channel := ((r.hub.workspace? workspace).map Workspace.primary).getD 0
  match r.act (·.ask workspace command) with
  | (r, none) => (r, none)
  | (r, some submission) =>
      let (r, reply) := r.conclude channel command submission
      (r, some reply)

/-- Waits for what becomes of the request with a ticket, without a limit. -/
def await (r : Rehearsal η) (ticket : Nat) : Rehearsal η × Option Reply :=
  let r := r.wait none (isDecided ticket)
  (r, (r.hub.outcome? ticket).join)

/-- Whether nobody waits for the handshakes of a workspace any more. -/
def isGreeted (workspace : Nat) (r : Rehearsal η) : Bool :=
  match r.hub.workspace? workspace with
  | none => true
  | some w => (w.primary :: w.worker.toList).all fun n =>
      (r.hub.channel? n).all fun c => c.exchange.handshake.isNone

/-- The workspace for the files with an extension under a root, once its handshakes are over. -/
def workspaceFor (r : Rehearsal η) (ext root : String) : Rehearsal η × Option Nat :=
  let (r, found) := r.act (·.workspaceFor r.launch ext root)
  match found with
  | some workspace => (r.wait none (isGreeted workspace), some workspace)
  | none => (r, none)

end EditorBridge.Rehearsal
