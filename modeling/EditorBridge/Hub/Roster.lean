import EditorBridge.Hub.Workspaces

/-!
# The roster of the hub

How a file finds its workspace. A workspace is started when the first file under its root asks for
it, and again when its first server is gone; every handler of the roster is a handler of every
workspace. Each function is one step that nothing can come between.
-/

namespace EditorBridge.Hub

variable {η : Type}

/-- Registers a server for some extensions (`ClientManager::register_extensions`). -/
def register (h : Hub η) (exts : List String) (spec : ServerSpec) : Hub η :=
  { h with roster := h.roster.register exts spec }

/-- Whether the first server of a workspace is there (`Service::is_alive`). -/
def isRunning (h : Hub η) (n : Nat) : Bool :=
  (h.workspace? n).any fun workspace => h.isAlive workspace.primary

/-- Takes the workspace for a key off the roster and shuts it down (`ClientManager::get_client`). -/
def dismiss (h : Hub η) (key : Workspace.Key) (n : Nat) : Hub η :=
  { h with roster := h.roster.strike key }.shutdown n

/-- Starts a workspace and enters it into the roster (`ClientManager::get_client`). -/
def engage (h : Hub η) (launch : Launch → Option Channel.Outlet) (key : Workspace.Key)
    (spec : ServerSpec) : Hub η × Option Nat :=
  match h.startWorkspace launch key spec with
  | (h, none) => (h, none)
  | (h, some n) => ({ h with roster := h.roster.enter key n }, some n)

/-- The workspace for the files with an extension under a root (`ClientManager::get_client`). It is
started if it is not there or if its first server is gone. -/
def workspaceFor (h : Hub η) (launch : Launch → Option Channel.Outlet) (ext root : String) :
    Hub η × Option Nat :=
  match h.roster.routes.find? ext with
  | none => (h, none)
  | some spec =>
      let key : Workspace.Key := ⟨root, spec.binary⟩
      match h.roster.find? key with
      | none => h.engage launch key spec
      | some n =>
          if h.isRunning n then (h, some n) else (h.dismiss key n).engage launch key spec

/-- Subscribes a handler on every workspace, now and later (`ClientManager::add_event_handler`). -/
def addHandler (h : Hub η) (event : String) (handler : η) : Hub η :=
  h.roster.current.foldl
    (fun h entry =>
      match h.workspace? entry.2 with
      | some workspace => (h.subscribe workspace.board event handler).1
      | none => h)
    { h with roster := h.roster.addHandler event handler }

/-- Shuts the workspace for a key down, and says whether it was there (`ClientManager::stop`). -/
def stop (h : Hub η) (key : Workspace.Key) : Hub η × Bool :=
  match h.roster.find? key with
  | some n => (h.dismiss key n, true)
  | none => (h, false)

/-- Shuts every workspace down (`ClientManager::shutdown_all`). -/
def stopAll (h : Hub η) : Hub η :=
  h.roster.current.foldl (fun h entry => h.shutdown entry.2)
    { h with roster := { h.roster with current := [] } }

/-- What the workspaces on the roster are for (`ClientManager::clients`). -/
def keys (h : Hub η) : List Workspace.Key :=
  h.roster.current.map Prod.fst

end EditorBridge.Hub
