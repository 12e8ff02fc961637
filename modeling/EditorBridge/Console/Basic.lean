import EditorBridge.Command.Form
import EditorBridge.Hub.Roster
import EditorBridge.Json.Printer

/-!
# The console

The bridge towards its editor. Each line of the editor is a command, and each line that the bridge
writes is a reply to a query or an event. The command goes to the workspace of its file; a query
whose file has no workspace is answered with a failure, and so is one that the server does not
answer in time. Queries that wait for their answer are the inquiries. A line that is no command is
passed over.

The functions work on the hub and the console together: `take` takes a line, `collect` writes what
has come of the inquiries, and `expire` gives up on those that have waited too long. The reader of
the lines dies with the call that it makes for a command, and the bridge with it; `take` has no
console to give then.
-/

namespace EditorBridge

namespace Console

/-- A query that waits for its answer, of some kind and with a sequence number (`await_response`):
the ticket of the request, the channel that it went to, and when the bridge gives up. -/
structure Inquiry where
  ticket : Nat
  channel : Nat
  kind : Kind
  seq : Int64
  deadline : Nat
  deriving DecidableEq, Repr

end Console

/-- The console of a bridge (`main`): the root of the files, the queries that wait for their answer,
the oldest one first, how many events have been written, and the lines that have been written, the
first one first. -/
structure Console where
  root : String
  inquiries : List Console.Inquiry
  heard : Nat
  lines : List String
  deriving Repr

namespace Console

/-- The console of a bridge that has just been started, for the files under a root (`main`). -/
def start (root : String) : Console :=
  ⟨root, [], 0, []⟩

/-- Writes a message (`emit`). -/
def write (c : Console) (message : Json) : Console :=
  { c with lines := c.lines ++ [message.render] }

/-- Writes a reply (`emit`). -/
def reply (c : Console) (r : Reply) : Console :=
  c.write r.toJson

/-- Writes the reply to an inquiry (`await_response`): the answer, or that it did not come. -/
def answer (c : Console) (inquiry : Inquiry) (outcome : Option Reply) : Console :=
  c.reply (outcome.getD (Reply.timeout inquiry.kind.name inquiry.seq))

/-- The extension of a file, empty if it has none (`handle_command`). -/
def extensionOf (file : String) : String :=
  String.ofList ((Text.extension? file.toList).getD [])

/-- The reason why there is no answer about a file with an extension (`handle_command`). -/
def noServer (ext : String) : String :=
  "no language server for '." ++ ext ++ "' files"

/-- The hub of a bridge that has just been set up (`main`). Its only handler reports findings. -/
def hub (processId timeout : Nat) (routes : Routes) : Hub Unit :=
  let h : Hub Unit := .start processId timeout
  { h with roster := { h.roster with routes } }.addHandler Event.findingsName ()

/-- Asks a workspace a query (`handle_command`). -/
def ask (now workspace : Nat) (command : Command) (h : Hub Unit) (c : Console) :
    Hub Unit × Option Console :=
  let channel := ((h.workspace? workspace).map Workspace.primary).getD 0
  match h.ask workspace command with
  | (h, none) => (h, none)
  | (h, some (.waiting ticket)) =>
      let inquiry : Inquiry :=
        ⟨ticket, channel, command.kind, command.seq, now + h.roster.timeout⟩
      (h, some { c with inquiries := c.inquiries ++ [inquiry] })
  | (h, some _) => (h, some (c.reply (Reply.timeout command.kind.name command.seq)))

/-- Tells a workspace a notice (`handle_command`). -/
def tell (workspace : Nat) (command : Command) (h : Hub Unit) (c : Console) :
    Hub Unit × Option Console :=
  let (h, told?) := h.tell workspace command
  (h, told?.map fun _ => c)

/-- Takes a command (`handle_command`). -/
def handle (launch : Launch → Option Channel.Outlet) (now : Nat) (command : Command)
    (h : Hub Unit) (c : Console) : Hub Unit × Option Console :=
  let ext := extensionOf command.request.file
  match h.workspaceFor launch ext c.root with
  | (h, some workspace) =>
      if command.kind.isQuery then ask now workspace command h c else tell workspace command h c
  | (h, none) =>
      if command.kind.isQuery then
        (h, some (c.reply (Reply.failure command.kind.name command.seq (noServer ext))))
      else (h, some c)

/-- Takes a line (`main`). There is no console any more if the bridge dies of it. -/
def take (launch : Launch → Option Channel.Outlet) (now : Nat) (line : String) (h : Hub Unit)
    (c : Console) : Hub Unit × Option Console :=
  match Command.parse? line with
  | some command => handle launch now command h c
  | none => (h, some c)

/-- Writes the events that have not been written yet (`write_output`). -/
def report (h : Hub Unit) (c : Console) : Console :=
  (h.calls.drop c.heard).foldl (fun c call => c.write call.2.toJson)
    { c with heard := h.calls.length }

/-- Writes the events that have not been written yet, and the replies to the inquiries that are
decided (`await_response`). -/
def collect (h : Hub Unit) (c : Console) : Console :=
  let c := c.report h
  c.inquiries.foldl
    (fun c inquiry =>
      match h.outcome? inquiry.ticket with
      | some outcome => c.answer inquiry outcome
      | none => { c with inquiries := c.inquiries ++ [inquiry] })
    { c with inquiries := [] }

/-- Gives up on the inquiries that have waited too long (`await_response`). -/
def expire (now : Nat) (h : Hub Unit) (c : Console) : Hub Unit × Console :=
  c.inquiries.foldl
    (fun (h, c) inquiry =>
      if inquiry.deadline ≤ now then (h.abandon inquiry.channel inquiry.seq, c.answer inquiry none)
      else (h, { c with inquiries := c.inquiries ++ [inquiry] }))
    (h, { c with inquiries := [] })

/-- When the bridge gives up on an inquiry next. -/
def nextDeadline? (c : Console) : Option Nat :=
  (c.inquiries.map Inquiry.deadline).min?

end Console

end EditorBridge
