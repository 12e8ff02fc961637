import EditorBridge.Json.Basic

/-!
# The outlet of a channel

Where messages to a server are written, a whole frame at a time. Nothing is written once the server
is gone or the outlet has been shut; a message that the server's side refuses leaves no trace. The
outlet keeps what has been written.
-/

namespace EditorBridge.Channel

/-- Why a message was not written (`TransportError`): the server is gone or the outlet is shut, or
the server's side of the stream does not take it. -/
inductive WriteError where
  | notRunning
  | sink (reason : String)
  deriving DecidableEq, Repr

/-- The wording of an error (`TransportError`). -/
def WriteError.message : WriteError → String
  | notRunning => "language server process is not running"
  | sink reason => "failed to write to language server: " ++ reason

/-- An outlet (`FrameWriter`): the messages that have been written, the first one first, whether the
server is there, whether the outlet is open, and why the server's side does not take messages, if it
does not. -/
structure Outlet where
  sent : List Json
  isAlive : Bool
  isOpen : Bool
  failing : Option String

namespace Outlet

/-- The outlet of a new channel (`FrameWriter::new`). -/
def start : Outlet :=
  ⟨[], true, true, none⟩

/-- Why a message cannot be written, if it cannot (`FrameWriter::write`). -/
def refusal? (o : Outlet) : Option WriteError :=
  if o.isAlive && o.isOpen then o.failing.map WriteError.sink else some .notRunning

/-- Writes a message (`FrameWriter::write`). -/
def write (o : Outlet) (message : Json) : Outlet × Except WriteError Unit :=
  match o.refusal? with
  | some e => (o, .error e)
  | none => ({ o with sent := o.sent ++ [message] }, .ok ())

/-- Shuts the outlet for good (`FrameWriter::shutdown`). -/
def shut (o : Outlet) : Outlet :=
  { o with isOpen := false }

end Outlet

end EditorBridge.Channel
