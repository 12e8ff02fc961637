import EditorBridge.Hub.Basic

/-!
# Workspaces in the hub

How workspaces are started, used and shut down. Whether a server can be started, and to what
outlet, is up to the function `launch` that is handed in. A start that fails half-way stops what it
has started.
-/

namespace EditorBridge.Hub

variable {η : Type}

/-! ### Starting -/

/-- Starts a channel and its handshake, and gives its number (`start_channel`). A server that does
not take the handshake is stopped. -/
def startChannel (h : Hub η) (launch : Launch → Option Channel.Outlet) (spec : ServerSpec)
    (root : String) (board : Nat) : Hub η × Option Nat :=
  let n := h.links.length
  match launch ⟨n, spec, root⟩ with
  | none => (h, none)
  | some outlet =>
      let ticket := h.nextTicket
      let h : Hub η :=
        { h with
          links := h.links ++ [⟨⟨n, spec, root⟩, board, .start outlet⟩]
          nextTicket := ticket + 1 }
      match h.onChannel n false fun c => c.greet h.processId root ticket with
      | (h, true) => (h, some n)
      | (h, false) => (h.stopChannel n, none)

/-- The hub with one more set of subscriptions, which holds the handlers of the roster
(`ClientManager::get_client`). -/
def openBoard (h : Hub η) : Hub η :=
  { h with boards := h.boards ++
      [h.roster.handlers.foldl (fun s handler => (s.add handler.1 handler.2).1) .empty] }

/-- Starts a workspace, and gives its number (`Service::start`). -/
def startWorkspace (h : Hub η) (launch : Launch → Option Channel.Outlet) (key : Workspace.Key)
    (spec : ServerSpec) : Hub η × Option Nat :=
  let board := h.boards.length
  match h.openBoard.startChannel launch spec key.root board with
  | (h, none) => (h, none)
  | (h, some primary) =>
      match h.startChannel launch spec key.root board with
      | (h, none) => (h.stopChannel primary, none)
      | (h, some worker) =>
          ({ h with workspaces := h.workspaces ++ [.start key spec primary worker board] },
            some h.workspaces.length)

/-! ### Commands -/

/-- Completes a command for a workspace, and gives the channel that it goes to (`Service::prepare`).
There is nothing to give if the call dies. -/
def prepare (h : Hub η) (n : Nat) (command : Command) : Hub η × Option (Nat × Command) :=
  match h.workspace? n with
  | none => (h, none)
  | some workspace =>
      let (workspace, command?) := workspace.prepare command
      (h.setWorkspace n workspace, command?.map fun command => (workspace.primary, command))

/-- Makes a request of a workspace's own a command (`Service::command`). -/
def number (h : Hub η) (n : Nat) (request : Request) : Hub η × Option Command :=
  match h.workspace? n with
  | none => (h, none)
  | some workspace =>
      let (workspace, command) := workspace.number request
      (h.setWorkspace n workspace, some command)

/-- Tells a workspace a command without waiting for an answer, and says whether it was written,
unless the call dies (`Service::post`). -/
def tell (h : Hub η) (n : Nat) (command : Command) : Hub η × Option Bool :=
  match h.prepare n command with
  | (h, none) => (h, none)
  | (h, some (channel, command)) =>
      let (h, isWritten) := h.post channel command
      (h, some isWritten)

/-- Asks a workspace a command, and says what has become of it, unless the call dies
(`Service::request_async`). -/
def ask (h : Hub η) (n : Nat) (command : Command) : Hub η × Option Channel.Submission :=
  match h.prepare n command with
  | (h, none) => (h, none)
  | (h, some (channel, command)) =>
      let (h, submission) := h.submit channel command
      (h, some submission)

/-! ### The worker -/

/-- Takes the worker of a workspace away, and gives its channel (`Service::stop_worker`). -/
def takeWorker (h : Hub η) (n : Nat) : Hub η × Option Nat :=
  match h.workspace? n with
  | none => (h, none)
  | some workspace =>
      let (workspace, worker) := workspace.takeWorker
      (h.setWorkspace n workspace, worker)

/-- Puts a channel in the place of a workspace's worker, and gives the one that was there
(`Service::restart_worker`). -/
def putWorker (h : Hub η) (n channel : Nat) : Hub η × Option Nat :=
  match h.workspace? n with
  | none => (h, none)
  | some workspace =>
      let (workspace, worker) := workspace.putWorker channel
      (h.setWorkspace n workspace, worker)

/-- Stops a channel if there is one. -/
def stopChannel? (h : Hub η) : Option Nat → Hub η
  | some channel => h.stopChannel channel
  | none => h

/-- Stops the worker of a workspace (`Service::stop_worker`). -/
def stopWorker (h : Hub η) (n : Nat) : Hub η :=
  let (h, worker) := h.takeWorker n
  h.stopChannel? worker

/-- Stops the worker of a workspace and starts a new one, and says whether it has been started
(`Service::restart_worker`). -/
def restartWorker (h : Hub η) (launch : Launch → Option Channel.Outlet) (n : Nat) :
    Hub η × Bool :=
  match h.workspace? n with
  | none => (h, false)
  | some workspace =>
      match (h.stopWorker n).startChannel launch workspace.spec workspace.key.root
          workspace.board with
      | (h, none) => (h, false)
      | (h, some channel) =>
          let (h, old) := h.putWorker n channel
          (h.stopChannel? old, true)

/-! ### Shutting down -/

/-- Shuts a workspace down (`Service::shutdown`): its worker is stopped, and its first server is
taken leave of. -/
def shutdown (h : Hub η) (n : Nat) : Hub η :=
  match h.workspace? n with
  | none => h
  | some workspace => (h.stopWorker n).shutdownChannel workspace.primary

end EditorBridge.Hub
