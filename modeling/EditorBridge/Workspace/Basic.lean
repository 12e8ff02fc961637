import EditorBridge.Settings.Routes
import EditorBridge.Text.Components
import EditorBridge.Workspace.Versions

/-!
# Workspaces

A workspace is what the bridge keeps for the files under one root and one server program: two
channels to servers of that program, the subscriptions to their events, the versions of the files,
and a counter for requests of its own. The first channel carries the commands of the editor. The
second one belongs to the worker, which can be stopped and restarted without disturbing the first.
Channels and subscriptions are known by their numbers.
-/

namespace EditorBridge

namespace Workspace

/-- What a workspace is for (`ServiceKey`): the path of its root and the name of the server program.
-/
structure Key where
  root : String
  binary : String
  deriving DecidableEq, Repr

/-- Whether two keys mean the same workspace: roots may be spelled in different ways. -/
def Key.isSame (k l : Key) : Bool :=
  Text.pathComponents k.root.toList == Text.pathComponents l.root.toList && k.binary == l.binary

end Workspace

/-- A workspace (`Service`): what it is for, how its servers are started, the channel for the
commands of the editor, the channel of the worker, if there is one, the board with the subscriptions
to the events of all its channels, the versions of the files, and the sequence number of the next
request of its own. -/
structure Workspace where
  key : Workspace.Key
  spec : ServerSpec
  primary : Nat
  worker : Option Nat
  board : Nat
  versions : Versions
  nextSeq : Int64
  deriving Repr

namespace Workspace

/-- The sequence number of the first request of a workspace's own (`Service::start`). -/
def firstSeq : Int64 := 1

/-- A new workspace with its two channels (`Service::start`). -/
def start (key : Key) (spec : ServerSpec) (primary worker board : Nat) : Workspace :=
  ⟨key, spec, primary, some worker, board, [], firstSeq⟩

/-- Completes a command, and notes the version that it tells (`Service::prepare`). There is no
completed command if the call dies. -/
def prepare (w : Workspace) (command : Command) : Workspace × Option Command :=
  let (versions, request?) := w.versions.prepare w.spec.languageId command.request
  ({ w with versions }, request?.map fun request => { command with request })

/-- Makes a request of the workspace's own a command (`Service::command`). -/
def number (w : Workspace) (request : Request) : Workspace × Command :=
  ({ w with nextSeq := w.nextSeq + 1 }, ⟨w.nextSeq, request⟩)

/-- The version of a file that has been told about (`Service::document_version`). -/
def version? (w : Workspace) (file : String) : Option Int32 :=
  w.versions.get? file

/-- Takes the channel of the worker away (`Service::stop_worker`). -/
def takeWorker (w : Workspace) : Workspace × Option Nat :=
  ({ w with worker := none }, w.worker)

/-- Puts a channel in the place of the worker's, and gives the one that was there
(`Service::restart_worker`). -/
def putWorker (w : Workspace) (channel : Nat) : Workspace × Option Nat :=
  ({ w with worker := some channel }, w.worker)

end Workspace

end EditorBridge
