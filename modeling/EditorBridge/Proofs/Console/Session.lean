import EditorBridge.Console.Basic
import EditorBridge.Proofs.Hub.Requests
import Mathlib.Logic.Relation

/-!
# Sessions

A bridge at work between its editor and its servers, from its start to the end of its input. The
reader of the lines takes one line after the other: it finds the workspace of a command, completes
the command, lets its request into the table of the channel, and writes it. Between any two of these
steps anything else may happen: messages and ends of streams arrive, servers die, inquiries are
answered or given up in any order, abandoned requests leave their tables, and events are written.
When the input is over and no inquiry is left, every server is stopped, and the bridge exits. If the
call that completes a command dies, the reader of the lines dies with it; what goes on beside the
reader may go on for a while then, until the bridge is gone.
-/

namespace EditorBridge.Console

/-- A query on its way to its channel, completed for its workspace, with the ticket of the request
and the time when the bridge gives up (`Service::request_async`). -/
structure Errand where
  ticket : Nat
  channel : Nat
  command : Command
  deadline : Nat

/-- The inquiry that an errand becomes when its request is written. -/
def Errand.inquiry (e : Errand) : Inquiry :=
  ⟨e.ticket, e.channel, e.command.kind, e.command.seq, e.deadline⟩

/-- What the reader of the lines is about to do (`handle_command`): it takes the next line,
completes a command for its workspace, lets a request into the table, or writes one that was let in;
or it has exited, or died of a command. -/
inductive Task where
  | reading
  | placed (command : Command) (workspace : Nat)
  | registering (e : Errand)
  | writing (e : Errand)
  | closed
  | dead (command : Command)

/-- The console after a query to which no answer will come. -/
def giveUp (c : Console) (command : Command) : Console :=
  c.reply (Reply.timeout command.kind.name command.seq)

/-- A bridge between its editor and its servers: the hub, the console, the lines that are still to
come, and what the reader of the lines is about to do. -/
structure Session where
  hub : Hub Unit
  console : Console
  input : List String
  task : Task

namespace Session

/-- A bridge that has just been set up, and the lines of its editor. -/
def start (processId timeout : Nat) (routes : Routes) (root : String) (lines : List String) :
    Session :=
  ⟨Console.hub processId timeout routes, .start root, lines, .reading⟩

/-- What happens next (`main`, `handle_command`, `await_response`). The reader takes a line: it
passes over what is no command and over a notice whose file has no workspace, and answers a query
for such a file with a failure (`skipped`, `ignored`, `unserved`). A notice is told to its workspace
in one step (`told`). A query is completed and gets a ticket, is let into the table, and is written
(`prepared`, `enrolled`, `written`); it fails if it cannot be said, is not let in, or if the writing
fails, whether or not the server gets it all the same (`unsayable`, `refused`, `unwritten`). The
reader dies of a command that cannot be completed (`died`).

Meanwhile an inquiry that is decided is answered, or the bridge gives one up at any time
(`answered`, `expired`), requests that nobody waits for leave their tables, servers say something or
are gone, anything happens to the outlets, and events are written (`abandoned`, `arrived`,
`disturbed`, `reported`). When the input is over and nobody waits for an answer any more, every
server is stopped (`closed`). -/
inductive Step : Session → Session → Prop where
  | skipped {s : Session} {line : String} {rest : List String} (task : s.task = .reading)
      (next : s.input = line :: rest) (junk : Command.parse? line = none) :
      Step s { s with input := rest }
  | unserved {s : Session} {line : String} {rest : List String} {command : Command}
      {hub : Hub Unit} (launch : Launch → Option Channel.Outlet) (task : s.task = .reading)
      (next : s.input = line :: rest) (read : Command.parse? line = some command)
      (isQuery : command.kind.isQuery = true)
      (found : s.hub.workspaceFor launch (extensionOf command.request.file) s.console.root =
        (hub, none)) :
      Step s { s with
        hub
        console := s.console.reply (Reply.failure command.kind.name command.seq
          (noServer (extensionOf command.request.file)))
        input := rest }
  | ignored {s : Session} {line : String} {rest : List String} {command : Command}
      {hub : Hub Unit} (launch : Launch → Option Channel.Outlet) (task : s.task = .reading)
      (next : s.input = line :: rest) (read : Command.parse? line = some command)
      (isNotice : command.kind.isQuery = false)
      (found : s.hub.workspaceFor launch (extensionOf command.request.file) s.console.root =
        (hub, none)) :
      Step s { s with hub, input := rest }
  | served {s : Session} {line : String} {rest : List String} {command : Command}
      {hub : Hub Unit} {workspace : Nat} (launch : Launch → Option Channel.Outlet)
      (task : s.task = .reading) (next : s.input = line :: rest)
      (read : Command.parse? line = some command)
      (found : s.hub.workspaceFor launch (extensionOf command.request.file) s.console.root =
        (hub, some workspace)) :
      Step s { s with hub, input := rest, task := .placed command workspace }
  | told {s : Session} {command : Command} {workspace : Nat} {hub : Hub Unit} {isWritten : Bool}
      (task : s.task = .placed command workspace) (isNotice : command.kind.isQuery = false)
      (told : s.hub.tell workspace command = (hub, some isWritten)) :
      Step s { s with hub, task := .reading }
  | died {s : Session} {command : Command} {workspace : Nat} {hub : Hub Unit}
      (task : s.task = .placed command workspace)
      (fails : s.hub.prepare workspace command = (hub, none)) :
      Step s { s with hub, task := .dead command }
  | prepared {s : Session} {command ready : Command} {workspace channel : Nat} {hub : Hub Unit}
      (deadline : Nat) (task : s.task = .placed command workspace)
      (isQuery : command.kind.isQuery = true)
      (complete : s.hub.prepare workspace command = (hub, some (channel, ready))) :
      Step s { s with
        hub := { hub with nextTicket := hub.nextTicket + 1 }
        task := .registering ⟨hub.nextTicket, channel, ready, deadline⟩ }
  | unsayable {s : Session} {e : Errand} (task : s.task = .registering e)
      (mute : e.command.toMessage? = none) :
      Step s { s with console := s.console.giveUp e.command, task := .reading }
  | refused {s : Session} {e : Errand} {hub : Hub Unit} (task : s.task = .registering e)
      (sayable : e.command.toMessage?.isSome = true)
      (out : s.hub.enroll e.channel e.command e.ticket = (hub, false)) :
      Step s { s with hub, console := s.console.giveUp e.command, task := .reading }
  | enrolled {s : Session} {e : Errand} {hub : Hub Unit} (task : s.task = .registering e)
      (sayable : e.command.toMessage?.isSome = true)
      (entered : s.hub.enroll e.channel e.command e.ticket = (hub, true)) :
      Step s { s with hub, task := .writing e }
  | written {s : Session} {e : Errand} {hub : Hub Unit} (task : s.task = .writing e)
      (posted : s.hub.post e.channel e.command = (hub, true)) :
      Step s { s with
        hub
        console := { s.console with inquiries := s.console.inquiries ++ [e.inquiry] }
        task := .reading }
  | unwritten {s : Session} {e : Errand} {hub : Hub Unit} {isWritten : Bool}
      (task : s.task = .writing e)
      (posted : s.hub.post e.channel e.command = (hub, isWritten)) :
      Step s { s with hub, console := s.console.giveUp e.command, task := .reading }
  | answered {s : Session} {q : Inquiry} {earlier later : List Inquiry} {outcome : Option Reply}
      (waits : s.console.inquiries = earlier ++ q :: later)
      (decided : s.hub.outcome? q.ticket = some outcome) :
      Step s { s with
        console := { s.console with inquiries := earlier ++ later }.answer q outcome }
  | expired {s : Session} {q : Inquiry} {earlier later : List Inquiry}
      (waits : s.console.inquiries = earlier ++ q :: later) :
      Step s { s with
        console := { s.console with inquiries := earlier ++ later }.answer q none }
  | abandoned {s : Session} (channel : Nat) (id : Int64) :
      Step s { s with hub := s.hub.abandon channel id }
  | arrived {s : Session} (channel : Nat) (a : Channel.Arrival) :
      Step s { s with hub := s.hub.arrive channel a }
  | disturbed {s : Session} (channel : Nat) (outlet : Channel.Outlet) (noted : Lifecycle) :
      Step s { s with
        hub := (s.hub.onChannel channel () fun c => ({ c with outlet, noted }, [], ())).1 }
  | reported {s : Session} {call : Unit × Event}
      (next : s.hub.calls[s.console.heard]? = some call) :
      Step s { s with
        console := { s.console.write call.2.toJson with heard := s.console.heard + 1 } }
  | closed {s : Session} (task : s.task = .reading) (input : s.input = [])
      (inquiries : s.console.inquiries = []) :
      Step s { s with hub := s.hub.stopAll, task := .closed }

/-- Whether a session may go from one state to another. -/
def Run : Session → Session → Prop :=
  Relation.ReflTransGen Step

end Session

end EditorBridge.Console
