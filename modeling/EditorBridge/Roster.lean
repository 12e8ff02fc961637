import EditorBridge.Workspace.Basic

/-!
# The roster

The roster says which server is responsible for the files with an extension, which workspaces there
are, and which handlers every workspace has to have. There is at most one workspace for a root and a
server program.
-/

namespace EditorBridge

/-- The roster of the bridge (`ClientManager`): how long an answer is waited for, in milliseconds,
the servers by extension, the handlers of every workspace with the events that they subscribe to,
the oldest one first, and the workspaces by what they are for. Workspaces are known by their
numbers. -/
structure Roster (η : Type) where
  timeout : Nat
  routes : Routes
  handlers : List (String × η)
  current : List (Workspace.Key × Nat)

namespace Roster

variable {η : Type}

/-- An empty roster (`ClientManager::new`). -/
def empty (timeout : Nat) : Roster η :=
  ⟨timeout, [], [], []⟩

/-- The workspace that is there for a key (`ClientManager::get_client`). -/
def find? (r : Roster η) (key : Workspace.Key) : Option Nat :=
  (r.current.find? fun entry => entry.1.isSame key).map Prod.snd

/-- The roster without the workspace for a key (`ClientManager::get_client`). -/
def strike (r : Roster η) (key : Workspace.Key) : Roster η :=
  { r with current := r.current.filter fun entry => !entry.1.isSame key }

/-- The roster with one more workspace (`ClientManager::get_client`). -/
def enter (r : Roster η) (key : Workspace.Key) (workspace : Nat) : Roster η :=
  { r with current := r.current ++ [(key, workspace)] }

/-- Registers a server for some extensions (`ClientManager::register_extensions`). -/
def register (r : Roster η) (exts : List String) (spec : ServerSpec) : Roster η :=
  { r with routes := r.routes.register exts spec }

/-- The roster with one more handler (`ClientManager::add_event_handler`). -/
def addHandler (r : Roster η) (event : String) (handler : η) : Roster η :=
  { r with handlers := r.handlers ++ [(event, handler)] }

theorem find?_strike (r : Roster η) (key : Workspace.Key) : (r.strike key).find? key = none := by
  simp [find?, strike, List.find?_eq_none]

end Roster

end EditorBridge
