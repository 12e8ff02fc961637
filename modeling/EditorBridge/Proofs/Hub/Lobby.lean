import EditorBridge.Proofs.Hub.Upkeep
import Mathlib.Logic.Function.Basic
import Mathlib.Logic.Relation

/-!
# Visits to the hub

Many visitors are at the hub at once. One looks a workspace up, another shuts one or all of them
down, or adds a handler for all of them. Whoever reads or changes the list of workspaces holds the
lock of the hub meanwhile: a visitor that looks a workspace up keeps it until it has started what
it has to start, and one that adds a handler until every workspace has it. To shut a workspace down
takes no lock once it is off the list. `Lobby.Step` is what a visitor does next, or what goes on
outside: servers are registered and send messages, and they die. Nothing says who is next.

A visitor that is not disturbed does what the functions of the hub do in one step
(`run_workspaceFor`, `run_stop`, `run_stopAll`, `run_addHandler`).
-/

namespace EditorBridge.Hub

open Workspace (Key)

variable {η : Type}

/-- What is left to do for a workspace that is shut down (`Service::shutdown`): its worker is to be
stopped, or its first server to be taken leave of. -/
inductive Chore where
  | halt (n : Nat)
  | leave (n : Nat)
  deriving DecidableEq, Repr

namespace Chore

/-- The workspace that is shut down. -/
def workspace : Chore → Nat
  | halt n | leave n => n

/-- Does what is left to do. -/
def perform (h : Hub η) : Chore → Hub η
  | halt n => h.stopWorker n
  | leave n => h.leave n

/-- All that there is to do to shut a workspace down. -/
def all (n : Nat) : List Chore :=
  [halt n, leave n]

end Chore

/-- How far a visitor has come (`ClientManager::get_client`, `ClientManager::stop`,
`ClientManager::add_event_handler`). It looks a workspace up, knows how it would be started, and
waits for the lock (`waiting`); it shuts down one whose first server is gone (`clearing`), starts
the two servers of a new one in turn (`starting`, `pairing`), and enters it into the roster
(`entering`), until it has been given a workspace, or none (`served`). Or it shuts workspaces down,
until all it was to shut down is (`closing`, `closed`). Or it subscribes a handler on the
workspaces, until it has on every one (`spreading`, `offered`). -/
inductive Visit (η : Type) where
  | absent
  | waiting (key : Key) (spec : ServerSpec)
  | clearing (key : Key) (spec : ServerSpec) (chores : List Chore)
  | starting (key : Key) (spec : ServerSpec) (board : Nat)
  | pairing (key : Key) (spec : ServerSpec) (board primary : Nat)
  | entering (key : Key) (spec : ServerSpec) (board primary worker : Nat)
  | served (workspace : Option Nat)
  | closing (chores : List Chore)
  | closed
  | spreading (event : String) (handler : η) (rest : List Nat)
  | offered (event : String) (handler : η)

/-- What visitors have done, and what has befallen servers: a visitor has found a workspace whose
first server is gone, has found or started a first server that is there, has taken a workspace off
the roster to shut it down, or has added a handler, or a server has died. -/
inductive Deed (η : Type) where
  | missed (visitor workspace : Nat)
  | took (visitor : Nat) (key : Key) (primary : Nat)
  | struck (visitor workspace : Nat)
  | lost (channel : Nat)
  | offered (visitor : Nat) (event : String) (handler : η)

/-- A hub and those who visit it: who holds the lock, how far each visitor has come, and what has
been done, the last deed first. -/
structure Lobby (η : Type) where
  hub : Hub η
  holder : Option Nat
  phase : Nat → Visit η
  log : List (Deed η)

/-- What a visitor does next (`ClientManager::get_client`, `ClientManager::stop`,
`ClientManager::shutdown_all`, `ClientManager::add_event_handler`): the hub, the holder of the lock
and the phase of the visitor before and after, and the deeds. Workspaces on the roster are taken in
any order.

A visitor that looks a workspace up sees without the lock whether there is a server for the
extension (`unknown`, `known`). It takes the lock when nobody has it, and keeps it until it has
found a running workspace, shut down one whose first server is gone, or started a new one (`found`
to `entered`). A visitor that shuts workspaces down takes them off the roster in one step and does
the rest without the lock (`struck` to `closed`). One that adds a handler keeps the lock until the
handler is subscribed on every workspace (`offer`, `spread`, `offered`). -/
inductive Turn (i : Nat) : Hub η → Option Nat → Visit η → Hub η → Option Nat → Visit η →
    List (Deed η) → Prop where
  | unknown {h : Hub η} {o : Option Nat} (ext : String)
      (absent : h.roster.routes.find? ext = none) :
      Turn i h o .absent h o (.served none) []
  | known {h : Hub η} {o : Option Nat} {spec : ServerSpec} (ext root : String)
      (there : h.roster.routes.find? ext = some spec) :
      Turn i h o .absent h o (.waiting ⟨root, spec.binary⟩ spec) []
  | found {h : Hub η} {key : Key} {spec : ServerSpec} {n : Nat} {w : Workspace}
      (listed : h.roster.find? key = some n) (workspace : h.workspace? n = some w)
      (there : h.isAlive w.primary = true) :
      Turn i h none (.waiting key spec) h none (.served (some n)) [.took i key w.primary]
  | missed {h : Hub η} {key : Key} {spec : ServerSpec} {n : Nat}
      (listed : h.roster.find? key = some n) (gone : h.isRunning n = false) :
      Turn i h none (.waiting key spec) { h with roster := h.roster.strike key } (some i)
        (.clearing key spec (Chore.all n)) [.missed i n]
  | vacant {h : Hub η} {key : Key} {spec : ServerSpec} (unlisted : h.roster.find? key = none) :
      Turn i h none (.waiting key spec) h.openBoard (some i)
        (.starting key spec h.boards.length) []
  | clear {h : Hub η} {key : Key} {spec : ServerSpec} (chore : Chore) (rest : List Chore) :
      Turn i h (some i) (.clearing key spec (chore :: rest)) (chore.perform h) (some i)
        (.clearing key spec rest) []
  | cleared {h : Hub η} {key : Key} {spec : ServerSpec} :
      Turn i h (some i) (.clearing key spec []) h.openBoard (some i)
        (.starting key spec h.boards.length) []
  | started {h h' : Hub η} {key : Key} {spec : ServerSpec} {board primary : Nat}
      (launch : Launch → Option Channel.Outlet)
      (done : h.startChannel launch spec key.root board = (h', some primary)) :
      Turn i h (some i) (.starting key spec board) h' (some i) (.pairing key spec board primary)
        [.took i key primary]
  | failed {h h' : Hub η} {key : Key} {spec : ServerSpec} {board : Nat}
      (launch : Launch → Option Channel.Outlet)
      (done : h.startChannel launch spec key.root board = (h', none)) :
      Turn i h (some i) (.starting key spec board) h' none (.served none) []
  | paired {h h' : Hub η} {key : Key} {spec : ServerSpec} {board primary worker : Nat}
      (launch : Launch → Option Channel.Outlet)
      (done : h.startChannel launch spec key.root board = (h', some worker)) :
      Turn i h (some i) (.pairing key spec board primary) h' (some i)
        (.entering key spec board primary worker) []
  | unpaired {h h' : Hub η} {key : Key} {spec : ServerSpec} {board primary : Nat}
      (launch : Launch → Option Channel.Outlet)
      (done : h.startChannel launch spec key.root board = (h', none)) :
      Turn i h (some i) (.pairing key spec board primary) (h'.stopChannel primary) none
        (.served none) []
  | entered {h : Hub η} {key : Key} {spec : ServerSpec} {board primary worker : Nat} :
      Turn i h (some i) (.entering key spec board primary worker)
        (h.enlist key spec primary worker board) none (.served (some h.workspaces.length)) []
  | struck {h : Hub η} {key : Key} {n : Nat} (listed : h.roster.find? key = some n) :
      Turn i h none .absent { h with roster := h.roster.strike key } none
        (.closing (Chore.all n)) [.struck i n]
  | unlisted {h : Hub η} {key : Key} (absent : h.roster.find? key = none) :
      Turn i h none .absent h none .closed []
  | emptied {h : Hub η} (all : List Nat) (order : all.Perm (h.roster.current.map Prod.snd)) :
      Turn i h none .absent { h with roster := { h.roster with current := [] } } none
        (.closing (all.flatMap Chore.all)) (all.map (.struck i))
  | close {h : Hub η} {o : Option Nat} (chore : Chore) (rest : List Chore) :
      Turn i h o (.closing (chore :: rest)) (chore.perform h) o (.closing rest) []
  | closed {h : Hub η} {o : Option Nat} :
      Turn i h o (.closing []) h o .closed []
  | offer {h : Hub η} (event : String) (handler : η) (all : List Nat)
      (order : all.Perm (h.roster.current.map Prod.snd)) :
      Turn i h none .absent { h with roster := h.roster.addHandler event handler } (some i)
        (.spreading event handler all) [.offered i event handler]
  | spread {h : Hub η} {event : String} {handler : η} (n : Nat) (rest : List Nat) :
      Turn i h (some i) (.spreading event handler (n :: rest)) (h.subscribeTo event handler n)
        (some i) (.spreading event handler rest) []
  | offered {h : Hub η} {event : String} {handler : η} :
      Turn i h (some i) (.spreading event handler []) h none (.offered event handler) []

/-- What goes on while no visitor moves: a server is registered for some extensions, something
arrives in which its channel notices no death, a server dies and its channel notices, or its stream
ends and it is given up. -/
inductive Outside : Hub η → Hub η → List (Deed η) → Prop where
  | registered {h : Hub η} (exts : List String) (spec : ServerSpec) :
      Outside h (h.register exts spec) []
  | heard {h : Hub η} (c : Nat) (a : Channel.Arrival)
      (same : (h.arrive c a).isAlive c = h.isAlive c) :
      Outside h (h.arrive c a) []
  | died {h : Hub η} {c : Nat} (there : h.isAlive c = true) :
      Outside h (h.vanish c) [.lost c]
  | ended {h : Hub η} {c : Nat} (there : h.isAlive c = true) :
      Outside h (h.arrive c .ended) [.lost c]

namespace Lobby

/-- A hub that nobody has visited. -/
def start (h : Hub η) : Lobby η :=
  ⟨h, none, fun _ => .absent, []⟩

/-- The lobby after a visitor has moved. -/
def moved (s : Lobby η) (i : Nat) (hub : Hub η) (holder : Option Nat) (visit : Visit η)
    (deeds : List (Deed η)) : Lobby η :=
  ⟨hub, holder, Function.update s.phase i visit, deeds ++ s.log⟩

/-- What happens next: a visitor moves, or no visitor does. -/
inductive Step : Lobby η → Lobby η → Prop where
  | visitor {s : Lobby η} {i : Nat} {hub : Hub η} {holder : Option Nat} {visit : Visit η}
      {deeds : List (Deed η)}
      (turn : Turn i s.hub s.holder (s.phase i) hub holder visit deeds) :
      Step s (s.moved i hub holder visit deeds)
  | outside {s : Lobby η} {hub : Hub η} {deeds : List (Deed η)}
      (event : Outside s.hub hub deeds) :
      Step s { s with hub, log := deeds ++ s.log }

/-- Whether one thing may come of another. -/
def Leads (s t : Lobby η) : Prop :=
  Relation.ReflTransGen Step s t

/-- Whether visits to the hub of a bridge that has just been started may come to this. -/
def Reachable (s : Lobby η) : Prop :=
  ∃ processId timeout, (start (.start processId timeout)).Leads s

/-! ### Undisturbed visits -/

variable {s : Lobby η} {i : Nat} {h h' : Hub η} {o o' : Option Nat} {v v' : Visit η}
  {deeds deeds' : List (Deed η)}

theorem moved_moved : (s.moved i h o v deeds).moved i h' o' v' deeds' =
    s.moved i h' o' v' (deeds' ++ deeds) := by
  simp only [moved, Function.update_idem, List.append_assoc]

theorem phase_moved_self (s : Lobby η) (i : Nat) (h : Hub η) (o : Option Nat) (v : Visit η)
    (deeds : List (Deed η)) : (s.moved i h o v deeds).phase i = v := by
  unfold moved
  exact Function.update_self i v s.phase

theorem phase_moved_of_ne {j : Nat} (other : j ≠ i) :
    (s.moved i h o v deeds).phase j = s.phase j := by
  unfold moved
  exact Function.update_of_ne other v s.phase

/-- A visitor that has moved moves again. -/
theorem Leads.turn (leads : s.Leads (s.moved i h o v deeds))
    (turn : Turn i h o v h' o' v' deeds') :
    s.Leads (s.moved i h' o' v' (deeds' ++ deeds)) := by
  refine leads.tail ?_
  rw [← moved_moved]
  refine .visitor ?_
  rw [phase_moved_self]
  exact turn

theorem Leads.first (turn : Turn i s.hub s.holder (s.phase i) h o v deeds) :
    s.Leads (s.moved i h o v deeds) :=
  .single (.visitor turn)

variable {key : Key} {spec : ServerSpec} {n : Nat}

/-- A visitor that starts a workspace undisturbed. -/
theorem run_engage (launch : Launch → Option Channel.Outlet)
    (leads : s.Leads (s.moved i h.openBoard (some i) (.starting key spec h.boards.length) deeds)) :
    ∃ more, s.Leads (s.moved i (h.engage launch key spec).1 none
      (.served (h.engage launch key spec).2) more) := by
  rw [engage, startWorkspace]
  rcases first : h.openBoard.startChannel launch spec key.root h.boards.length with ⟨h₁, _ | p⟩
  · exact ⟨_, leads.turn (.failed launch first)⟩
  · have paired := leads.turn (.started launch first)
    dsimp only
    rcases second : h₁.startChannel launch spec key.root h.boards.length with ⟨h₂, _ | w⟩
    · exact ⟨_, paired.turn (.unpaired launch second)⟩
    · exact ⟨_, (paired.turn (.paired launch second)).turn .entered⟩

/-- A visitor that is not disturbed looks a workspace up as `workspaceFor` does. -/
theorem run_workspaceFor (launch : Launch → Option Channel.Outlet) (ext root : String)
    (absent : s.phase i = .absent) (free : s.holder = none) :
    ∃ deeds, s.Leads (s.moved i (s.hub.workspaceFor launch ext root).1 none
      (.served (s.hub.workspaceFor launch ext root).2) deeds) := by
  rw [workspaceFor]
  cases route : s.hub.roster.routes.find? ext with
  | none =>
      refine ⟨[], .first ?_⟩
      rw [absent, free]
      exact .unknown ext route
  | some spec =>
      have waits : s.Leads (s.moved i s.hub none (.waiting ⟨root, spec.binary⟩ spec) []) := by
        refine .first ?_
        rw [absent, free]
        exact .known ext root route
      dsimp only
      cases listed : s.hub.roster.find? ⟨root, spec.binary⟩ with
      | none => exact run_engage launch (waits.turn (.vacant listed))
      | some n =>
          dsimp only
          cases running : s.hub.isRunning n with
          | true =>
              obtain ⟨w, found, there⟩ := (Option.any_eq_true ..).mp running
              exact ⟨_, waits.turn (.found listed found there)⟩
          | false =>
              have cleared := ((waits.turn (.missed listed running)).turn
                (.clear (.halt n) [.leave n])).turn (.clear (.leave n) [])
              have started := run_engage launch (cleared.turn .cleared)
              rw [if_neg Bool.false_ne_true, dismiss, shutdown_eq]
              exact started

/-- What a visitor may come to from where visits may come to. -/
theorem Reachable.more (reachable : s.Reachable)
    (leads : ∃ deeds, s.Leads (s.moved i h o v deeds)) :
    ∃ t : Lobby η, t.Reachable ∧ t.hub = h ∧ t.holder = o ∧ t.phase i = v ∧
      ∀ j ≠ i, t.phase j = s.phase j := by
  obtain ⟨processId, timeout, first⟩ := reachable
  obtain ⟨deeds, leads⟩ := leads
  refine ⟨_, ⟨processId, timeout, first.trans leads⟩, rfl, rfl, phase_moved_self .., ?_⟩
  intro j other
  exact phase_moved_of_ne other

/-- Things may go on outside. -/
theorem Reachable.outside (reachable : s.Reachable) (event : Outside s.hub h deeds) :
    Reachable { s with hub := h, log := deeds ++ s.log } := by
  obtain ⟨processId, timeout, leads⟩ := reachable
  exact ⟨processId, timeout, leads.tail (.outside event)⟩

/-- A hub that servers have just been registered with. -/
theorem reachable_registered (processId timeout : Nat) (exts : List String) (spec : ServerSpec) :
    Reachable (Lobby.start ((Hub.start processId timeout : Hub η).register exts spec)) :=
  ⟨processId, timeout, .single (.outside (s := start _) (.registered exts spec))⟩

theorem stop_of_listed (listed : h.roster.find? key = some n) :
    (h.stop key).1 = (Chore.leave n).perform ((Chore.halt n).perform
      { h with roster := h.roster.strike key }) := by
  rw [stop, listed]
  exact shutdown_eq _ n

/-- A visitor that is not disturbed shuts a workspace down as `stop` does. -/
theorem run_stop (key : Key) (absent : s.phase i = .absent) (free : s.holder = none) :
    ∃ deeds, s.Leads (s.moved i (s.hub.stop key).1 none .closed deeds) := by
  cases listed : s.hub.roster.find? key with
  | none =>
      rw [stop, listed]
      refine ⟨[], .first ?_⟩
      rw [absent, free]
      exact .unlisted listed
  | some n =>
      rw [stop_of_listed listed]
      have struck : s.Leads (s.moved i { s.hub with roster := s.hub.roster.strike key } none
          (.closing (Chore.all n)) [.struck i n]) := by
        refine .first ?_
        rw [absent, free]
        exact .struck listed
      exact ⟨_, ((struck.turn (.close (.halt n) [.leave n])).turn
        (.close (.leave n) [])).turn .closed⟩

/-- A visitor that has taken workspaces off the roster shuts one after the other down. -/
theorem run_close (all : List Nat)
    (leads : s.Leads (s.moved i h none (.closing (all.flatMap Chore.all)) deeds)) :
    ∃ more, s.Leads (s.moved i (all.foldl shutdown h) none .closed more) := by
  induction all generalizing h deeds with
  | nil => exact ⟨_, leads.turn .closed⟩
  | cons n all ih =>
      have next := (leads.turn (.close (.halt n) _)).turn (.close (.leave n) _)
      rw [List.foldl_cons, shutdown_eq]
      exact ih next

/-- A visitor that is not disturbed shuts every workspace down as `stopAll` does. -/
theorem run_stopAll (absent : s.phase i = .absent) (free : s.holder = none) :
    ∃ deeds, s.Leads (s.moved i s.hub.stopAll none .closed deeds) := by
  have emptied : s.Leads (s.moved i { s.hub with roster := { s.hub.roster with current := [] } }
      none (.closing ((s.hub.roster.current.map Prod.snd).flatMap Chore.all))
      ((s.hub.roster.current.map Prod.snd).map (.struck i))) := by
    refine .first ?_
    rw [absent, free]
    exact .emptied _ (.refl _)
  have closed := run_close _ emptied
  rw [List.foldl_map] at closed
  exact closed

/-- A visitor that has added a handler subscribes it on one workspace after the other. -/
theorem run_spread {event : String} {handler : η} (all : List Nat)
    (leads : s.Leads (s.moved i h (some i) (.spreading event handler all) deeds)) :
    ∃ more, s.Leads (s.moved i (all.foldl (fun h n => h.subscribeTo event handler n) h) none
      (.offered event handler) more) := by
  induction all generalizing h deeds with
  | nil => exact ⟨_, leads.turn .offered⟩
  | cons n all ih => exact ih (leads.turn (.spread n all))

/-- A visitor that is not disturbed adds a handler as `addHandler` does. -/
theorem run_addHandler (event : String) (handler : η) (absent : s.phase i = .absent)
    (free : s.holder = none) :
    ∃ deeds, s.Leads (s.moved i (s.hub.addHandler event handler) none (.offered event handler)
      deeds) := by
  have offer : s.Leads (s.moved i
      { s.hub with roster := s.hub.roster.addHandler event handler } (some i)
      (.spreading event handler (s.hub.roster.current.map Prod.snd))
      [.offered i event handler]) := by
    refine .first ?_
    rw [absent, free]
    exact .offer event handler _ (.refl _)
  have spread := run_spread _ offer
  rw [List.foldl_map] at spread
  have all : s.hub.addHandler event handler =
      s.hub.roster.current.foldl (fun h entry => h.subscribeTo event handler entry.2)
        { s.hub with roster := s.hub.roster.addHandler event handler } := rfl
  rw [all]
  exact spread

end Lobby

end EditorBridge.Hub
