import EditorBridge.Proofs.Hub.Books
import EditorBridge.Proofs.Workspace.Notices
import Mathlib.Logic.Relation

/-!
# Relief of the worker

Many callers stop the worker of a workspace, start it anew, or shut the workspace down. Each of them
takes the worker out of its place and stops it then. One that starts it anew goes on to start a
server, which may fail, puts it into the place, and stops the one that it finds there. Only to look
at the place takes a lock, so that all of this may overlap, and meanwhile servers speak and die.
`Relief.Step` is what a caller does next, or what goes on elsewhere.

A caller that is not disturbed does what the functions of the hub do in one step (`run_stopWorker`,
`run_restartWorker`, `run_shutdown`). Every server of the workspace is in its place, in the hands of
one caller, or has been stopped (`Kept`), and so nobody is left behind when all callers have
returned (`settled_of_idle`).
-/

namespace EditorBridge.Hub

/-- What a caller wants: to stop the worker, to start it anew, or to shut the workspace down. -/
inductive Relief.Wish where
  | stop
  | restart
  | shutDown

/-- How far a caller has come (`Service::stop_worker`, `Service::restart_worker`,
`Service::shutdown`). It has taken the worker out of its place, if there was one, and is about to
stop it (`dismissing`); to start it anew it starts a server, puts it into the place, and stops the
one that it finds there (`hiring`, `placing`, `relieving`); to shut the workspace down it takes
leave of the first server (`leaving`). It returns when the worker has been stopped or started anew,
when no server could be started, or when the workspace has been shut down. -/
inductive Relief.Phase where
  | asking (wish : Wish)
  | dismissing (wish : Wish) (old : Option Nat)
  | hiring
  | placing (new : Nat)
  | relieving (new : Nat) (old : Option Nat)
  | leaving
  | stopped
  | failed
  | restarted (new : Nat)
  | shut

/-- What happens to the place of the worker: a caller empties it, or puts a server there. -/
inductive Relief.Posting where
  | vacated (caller : Nat)
  | filled (caller server : Nat)

namespace Relief

/-- What a caller does when it has stopped the worker that it has taken. -/
def Wish.onward : Wish → Phase
  | stop => .stopped
  | restart => .hiring
  | shutDown => .leaving

namespace Phase

/-- What a caller does when it has started a server or has failed to. -/
def hired : Option Nat → Phase
  | some new => placing new
  | none => failed

/-- The servers that a caller has in its hands. -/
def held : Phase → List Nat
  | dismissing _ old | relieving _ old => old.toList
  | placing new => [new]
  | _ => []

/-- The server that a caller has put into the place. -/
def placed? : Phase → Option Nat
  | relieving new _ | restarted new => some new
  | _ => none

/-- Whether a caller has returned. -/
def isOver : Phase → Bool
  | stopped | failed | restarted _ | shut => true
  | _ => false

end Phase

/-- The server that is in the place of the worker after all that has happened to it, the last thing
first. -/
def occupant (first : Nat) : List Posting → Option Nat
  | [] => some first
  | .vacated _ :: _ => none
  | .filled _ server :: _ => some server

end Relief

open Relief (Phase Posting Wish occupant)

/-- A hub, and those who are busy with the worker of a workspace, in the order in which they come,
with the servers that have been stopped since the first of them came, and what has happened to the
place of the worker, the last thing first. -/
structure Relief (η : Type) where
  hub : Hub η
  callers : List Phase
  stopped : List Nat
  log : List Posting

namespace Relief

variable {η : Type}

/-- A hub to which the callers are still to come. -/
def start (hub : Hub η) : Relief η :=
  ⟨hub, [], [], []⟩

/-- Something happens to the hub. -/
def become (s : Relief η) (hub : Hub η) : Relief η :=
  { s with hub, stopped := s.stopped ++ hub.halted }

/-- A caller does something. -/
def move (s : Relief η) (i : Nat) (hub : Hub η) (phase : Phase) : Relief η :=
  { s.become hub with callers := s.callers.set i phase }

/-- Something happens to the place of the worker. -/
def post (s : Relief η) (posting : Posting) : Relief η :=
  { s with log := posting :: s.log }

/-- What happens next (`Service::stop_worker`, `Service::restart_worker`, `Service::shutdown`):
somebody comes, or a caller does the next of its few things, or something goes on on a channel that
neither brings its server back nor stops it (`elsewhere`). To take a worker out of its place, to
stop it, to start a server and to put it into the place are four steps, between which others may do
any of theirs. -/
inductive Step (n : Nat) : Relief η → Relief η → Prop where
  | come {s : Relief η} (wish : Wish) :
      Step n s { s with callers := s.callers ++ [.asking wish] }
  | take {s : Relief η} {i : Nat} {wish : Wish} {h : Hub η} {old : Option Nat}
      (caller : s.callers[i]? = some (.asking wish)) (taken : s.hub.takeWorker n = (h, old)) :
      Step n s ((s.move i h (.dismissing wish old)).post (.vacated i))
  | dismiss {s : Relief η} {i : Nat} {wish : Wish} {old : Option Nat}
      (caller : s.callers[i]? = some (.dismissing wish old)) :
      Step n s (s.move i (s.hub.stopChannel? old) wish.onward)
  | hire {s : Relief η} {i : Nat} {w : Workspace} {h : Hub η} {new : Option Nat}
      (launch : Launch → Option Channel.Outlet) (caller : s.callers[i]? = some .hiring)
      (found : s.hub.workspace? n = some w)
      (done : s.hub.startChannel launch w.spec w.key.root w.board = (h, new)) :
      Step n s (s.move i h (.hired new))
  | place {s : Relief η} {i new : Nat} {h : Hub η} {old : Option Nat}
      (caller : s.callers[i]? = some (.placing new)) (put : s.hub.putWorker n new = (h, old)) :
      Step n s ((s.move i h (.relieving new old)).post (.filled i new))
  | relieve {s : Relief η} {i new : Nat} {old : Option Nat}
      (caller : s.callers[i]? = some (.relieving new old)) :
      Step n s (s.move i (s.hub.stopChannel? old) (.restarted new))
  | leave {s : Relief η} {i : Nat} (caller : s.callers[i]? = some .leaving) :
      Step n s (s.move i (s.hub.leave n) .shut)
  | elsewhere {s : Relief η} {c : Nat} {act : Channel → Channel × List Channel.Effect × Unit}
      (stays : ∀ channel, (act channel).1.isAlive = true → channel.isAlive = true)
      (spares : ∀ channel, (act channel).1.isStopped = true → channel.isStopped = true) :
      Step n s (s.become (s.hub.onChannel c () act).1)

/-- What may come of it when callers come to the workspace with a number. -/
def Reachable (n : Nat) (h : Hub η) (s : Relief η) : Prop :=
  Relation.ReflTransGen (Step n) (start h) s

/-- Whether all callers have returned. -/
def IsIdle (s : Relief η) : Prop :=
  ∀ phase ∈ s.callers, phase.isOver = true

variable {s t : Relief η} {h h' : Hub η} {w : Workspace} {n i primary first board : Nat}

theorem step_arrive (n c : Nat) (a : Channel.Arrival) (s : Relief η) :
    Step n s (s.become (s.hub.arrive c a)) :=
  .elsewhere (fun _ there => Channel.isAlive_of_arrive there)
    fun _ gone => Channel.isStopped_of_arrive gone

theorem step_vanish (n c : Nat) (s : Relief η) : Step n s (s.become (s.hub.vanish c)) :=
  .elsewhere (fun _ there => absurd there (by simp [Channel.vanish, Channel.isAlive]))
    fun _ gone => gone

/-! ### Schedules -/

/-- What the caller with a number does next. -/
def advance (launch : Launch → Option Channel.Outlet) (n : Nat) (s : Relief η) (i : Nat) :
    Relief η :=
  match s.callers[i]? with
  | some (.asking wish) =>
      let (h, old) := s.hub.takeWorker n
      (s.move i h (.dismissing wish old)).post (.vacated i)
  | some (.dismissing wish old) => s.move i (s.hub.stopChannel? old) wish.onward
  | some .hiring =>
      match s.hub.workspace? n with
      | some w =>
          let (h, new) := s.hub.startChannel launch w.spec w.key.root w.board
          s.move i h (.hired new)
      | none => s
  | some (.placing new) =>
      let (h, old) := s.hub.putWorker n new
      (s.move i h (.relieving new old)).post (.filled i new)
  | some (.relieving new old) => s.move i (s.hub.stopChannel? old) (.restarted new)
  | some .leaving => s.move i (s.hub.leave n) .shut
  | _ => s

/-- What comes of callers that all come before any of them does anything, when they have done what
they do in an order that is given by their numbers. -/
def play (launch : Launch → Option Channel.Outlet) (n : Nat) (h : Hub η) (wishes : List Wish)
    (turns : List Nat) : Relief η :=
  turns.foldl (advance launch n) { start h with callers := wishes.map .asking }

theorem Reachable.advance (reach : Reachable n h s) (launch : Launch → Option Channel.Outlet)
    (i : Nat) : Reachable n h (s.advance launch n i) := by
  rw [Relief.advance]
  split
  · next caller => exact reach.tail (.take caller rfl)
  · next caller => exact reach.tail (.dismiss caller)
  · next caller =>
      split
      · next found => exact reach.tail (.hire launch caller found rfl)
      · exact reach
  · next caller => exact reach.tail (.place caller rfl)
  · next caller => exact reach.tail (.relieve caller)
  · next caller => exact reach.tail (.leave caller)
  · exact reach

theorem Reachable.come (reach : Reachable n h s) (wishes : List Wish) :
    Reachable n h { s with callers := s.callers ++ wishes.map .asking } := by
  induction wishes generalizing s with
  | nil =>
      rw [List.map_nil, List.append_nil]
      exact reach
  | cons wish wishes ih =>
      rw [List.map_cons, ← List.singleton_append, ← List.append_assoc]
      exact ih (reach.tail (.come wish))

/-- A schedule is one of the ways in which things may go. -/
theorem reachable_play (launch : Launch → Option Channel.Outlet) (n : Nat) (h : Hub η)
    (wishes : List Wish) (turns : List Nat) :
    Reachable n h (play launch n h wishes turns) := by
  have taken (s : Relief η) (reach : Reachable n h s) :
      Reachable n h (turns.foldl (Relief.advance launch n) s) := by
    induction turns generalizing s with
    | nil => exact reach
    | cons i turns ih => exact ih _ (reach.advance launch i)
  exact taken _ (.come .refl wishes)

/-! ### Undisturbed callers -/

/-- A caller that is not disturbed stops the worker first. -/
theorem run_dismiss (h : Hub η) (n : Nat) (wish : Wish) :
    ∃ s, Reachable n h s ∧ s.hub = h.stopWorker n ∧ s.callers = [wish.onward] := by
  rcases taken : h.takeWorker n with ⟨h', old⟩
  have came : Reachable n h _ := .single (.come wish)
  have took := came.tail (.take (i := 0) rfl taken)
  refine ⟨_, took.tail (.dismiss (i := 0) rfl), ?_, rfl⟩
  rw [stopWorker, taken]
  rfl

/-- A caller that is not disturbed stops the worker as `stopWorker` does. -/
theorem run_stopWorker (h : Hub η) (n : Nat) :
    ∃ s, Reachable n h s ∧ s.hub = h.stopWorker n ∧ s.callers = [.stopped] :=
  run_dismiss h n .stop

/-- A caller that is not disturbed starts the worker anew as `restartWorker` does. -/
theorem run_restartWorker (launch : Launch → Option Channel.Outlet)
    (found : h.workspace? n = some w) :
    ∃ s phase, Reachable n h s ∧ s.hub = (h.restartWorker launch n).1 ∧ s.callers = [phase] ∧
      phase.isOver = true := by
  obtain ⟨s, reach, hub, callers⟩ := run_dismiss h n .restart
  have hiring : s.callers[0]? = some .hiring := by rw [callers]; rfl
  have idle : s.hub.workspace? n = some w.takeWorker.1 := by
    rw [hub, workspace?_stopWorker found, if_pos rfl]
  rw [restartWorker, found]
  dsimp only
  rcases done : (h.stopWorker n).startChannel launch w.spec w.key.root w.board with ⟨h', _ | c⟩
  all_goals
    rw [← hub] at done
    have hired := reach.tail (.hire launch hiring idle done)
  · exact ⟨_, .failed, hired, rfl, by rw [move, callers]; rfl, rfl⟩
  · dsimp only
    have placing : (s.callers.set 0 (Phase.hired (some c)))[0]? = some (.placing c) := by
      rw [callers]
      rfl
    rcases put : h'.putWorker n c with ⟨g, old⟩
    have placed := hired.tail (.place placing put)
    have relieving : (s.callers.set 0 (Phase.hired (some c)) |>.set 0 (.relieving c old))[0]? =
        some (.relieving c old) := by
      rw [callers]
      rfl
    refine ⟨_, .restarted c, placed.tail (.relieve relieving), rfl, ?_, rfl⟩
    change List.set (List.set (s.callers.set 0 _) 0 _) 0 _ = _
    rw [callers]
    rfl

/-- A caller that is not disturbed shuts the workspace down as `shutdown` does. -/
theorem run_shutdown (h : Hub η) (n : Nat) :
    ∃ s, Reachable n h s ∧ s.hub = h.shutdown n ∧ s.callers = [.shut] := by
  obtain ⟨s, reach, hub, callers⟩ := run_dismiss h n .shutDown
  refine ⟨_, reach.tail (.leave (i := 0) (by rw [callers]; rfl)), ?_, by rw [move, callers]; rfl⟩
  rw [shutdown_eq, ← hub]
  rfl

/-! ### Whose hands the servers are in -/

/-- The servers that are in hands: the first one, the one in the place of the worker, and those that
callers have. -/
def hands (lead : List Nat) (place : Option Nat) (callers : List Phase) : List Nat :=
  lead ++ place.toList ++ callers.flatMap Phase.held

/-- What a caller has in its hands may change, and nothing else does. -/
theorem hands_set {callers : List Phase} {phase : Phase} (caller : callers[i]? = some phase) :
    ∃ rest, (∀ lead place, (hands lead place callers).Perm
        (phase.held ++ (lead ++ (place.toList ++ rest)))) ∧
      ∀ lead place next, (hands lead place (callers.set i next)).Perm
        (next.held ++ (lead ++ (place.toList ++ rest))) := by
  obtain ⟨inside, rfl⟩ := List.getElem?_eq_some_iff.mp caller
  have whole : callers.flatMap Phase.held = (callers.take i).flatMap Phase.held ++
      (callers[i].held ++ (callers.drop (i + 1)).flatMap Phase.held) := by
    rw [← List.flatMap_cons, ← List.flatMap_append, List.getElem_cons_drop, List.take_append_drop]
  have changed (next : Phase) : (callers.set i next).flatMap Phase.held =
      (callers.take i).flatMap Phase.held ++
        (next.held ++ (callers.drop (i + 1)).flatMap Phase.held) := by
    rw [List.set_eq_take_append_cons_drop, if_pos inside, List.flatMap_append, List.flatMap_cons]
  refine ⟨(callers.take i).flatMap Phase.held ++ (callers.drop (i + 1)).flatMap Phase.held, ?_, ?_⟩
  · intro lead place
    rw [hands, whole, List.perm_iff_count]
    intro c
    simp only [List.count_append]
    omega
  · intro lead place next
    rw [hands, changed, List.perm_iff_count]
    intro c
    simp only [List.count_append]
    omega

/-- What always holds of the servers of a workspace. The workspace has the worker that was put into
the place last (`workspace`). Every server is in hands or has been stopped. The first one has been
stopped when a caller has shut the workspace down (`books`). -/
structure Kept (n primary first board : Nat) (s : Relief η) : Prop where
  workspace : ∃ w, s.hub.workspace? n = some w ∧ w.primary = primary ∧ w.board = board ∧
    w.worker = occupant first s.log
  books : ∃ lead, s.hub.Books board (hands lead (occupant first s.log) s.callers) s.stopped ∧
    (lead = [primary] ∧ .shut ∉ s.callers ∨ lead = [] ∧ primary ∈ s.stopped)

theorem Phase.held_onward (wish : Wish) : wish.onward.held = [] := by
  cases wish <;> rfl

theorem Phase.held_hired (new : Option Nat) : (hired new).held = new.toList := by
  cases new <;> rfl

theorem kept_step (kept : Kept n primary first board s) (step : Step n s t) :
    Kept n primary first board t := by
  obtain ⟨⟨w, found, isPrimary, isBoard, works⟩, lead, books, leads⟩ := kept
  have counted {h' : Hub η} (left : lead = [] ∧ primary ∈ s.stopped) :
      lead = [] ∧ primary ∈ s.stopped ++ h'.halted :=
    ⟨left.1, List.mem_append_left _ left.2⟩
  -- Whoever does not shut the workspace down has nothing to do with the first server.
  have leads' {i : Nat} {next : Phase} (h' : Hub η) (other : .shut ≠ next) :
      lead = [primary] ∧ .shut ∉ s.callers.set i next ∨
        lead = [] ∧ primary ∈ s.stopped ++ h'.halted := by
    refine leads.imp (fun led => ⟨led.1, fun inside => ?_⟩) counted
    exact (List.mem_or_eq_of_mem_set inside).elim led.2 other
  -- Work on channels leaves the workspace as it is.
  have still {h' : Hub η} (done : s.hub.Works h') : ∃ w, h'.workspace? n = some w ∧
      w.primary = primary ∧ w.board = board ∧ w.worker = occupant first s.log :=
    ⟨w, by rw [workspace?, done.workspaces]; exact found, isPrimary, isBoard, works⟩
  cases step with
  | come wish =>
      refine ⟨⟨w, found, isPrimary, isBoard, works⟩, lead, books.perm (.of_eq ?_),
        leads.imp_left fun led => ⟨led.1, ?_⟩⟩
      · simp [hands, Phase.held]
      · simpa using led.2
  -- The worker goes from the place into the hands of the caller.
  | @take i wish h old caller taken =>
      obtain ⟨rest, before, after⟩ := hands_set caller
      rw [takeWorker, found] at taken
      obtain ⟨rfl, rfl⟩ := Prod.mk.inj taken
      refine ⟨⟨_, (workspace?_setWorkspace _ found n).trans (if_pos rfl), isPrimary, isBoard, rfl⟩,
        lead, ?_, leads' _ (by simp)⟩
      have passed : (s.hub.setWorkspace n w.takeWorker.1).Books board _ s.stopped :=
        (books.perm (before _ _)).links rfl
      refine (passed.perm ?_).recount
      refine .trans ?_ (after lead none (.dismissing wish w.takeWorker.2)).symm
      change ([] ++ (lead ++ ((occupant first s.log).toList ++ rest))).Perm
        (w.worker.toList ++ (lead ++ ([] ++ rest)))
      rw [works]
      simp [List.perm_append_comm_assoc]
  | @dismiss i wish old caller =>
      obtain ⟨rest, before, after⟩ := hands_set caller
      refine ⟨still (works_stopChannel? _ old), lead, ?_,
        leads' _ (by cases wish <;> simp [Wish.onward])⟩
      refine (books.perm (before _ _)).dismiss.perm ?_
      have passed := after lead (occupant first s.log) wish.onward
      rw [Phase.held_onward] at passed
      exact passed.symm
  | @hire i v h new launch caller there done =>
      obtain ⟨rest, before, after⟩ := hands_set caller
      obtain rfl := Option.some.inj (found.symm.trans there)
      obtain ⟨more, hires, -⟩ := startChannel_hires done
      refine ⟨⟨w, by rw [← found, workspace?, workspace?]; exact congrArg (·[n]?) hires.workspaces,
        isPrimary, isBoard, works⟩, lead, ?_, leads' _ (by cases new <;> simp [Phase.hired])⟩
      rw [isBoard] at done
      refine ((books.perm (before _ _)).hire done).perm ?_
      have passed := after lead (occupant first s.log) (.hired new)
      rw [Phase.held_hired] at passed
      exact passed.symm
  -- The two servers change places.
  | @place i new h old caller put =>
      obtain ⟨rest, before, after⟩ := hands_set caller
      rw [putWorker, found] at put
      obtain ⟨rfl, rfl⟩ := Prod.mk.inj put
      refine ⟨⟨_, (workspace?_setWorkspace _ found n).trans (if_pos rfl), isPrimary, isBoard, rfl⟩,
        lead, ?_, leads' _ (by simp)⟩
      have passed : (s.hub.setWorkspace n (w.putWorker new).1).Books board _ s.stopped :=
        (books.perm (before _ _)).links rfl
      refine (passed.perm ?_).recount
      refine .trans ?_ (after lead (some new) (.relieving new (w.putWorker new).2)).symm
      change ([new] ++ (lead ++ ((occupant first s.log).toList ++ rest))).Perm
        (w.worker.toList ++ (lead ++ ([new] ++ rest)))
      rw [works, List.perm_iff_count]
      intro c
      simp only [List.count_append]
      omega
  | @relieve i new old caller =>
      obtain ⟨rest, before, after⟩ := hands_set caller
      refine ⟨still (works_stopChannel? _ old), lead, ?_, leads' _ (by simp)⟩
      exact (books.perm (before _ _)).dismiss.perm (after lead _ (.restarted new)).symm
  -- The first server may have been taken leave of before.
  | @leave i caller =>
      obtain ⟨rest, before, after⟩ := hands_set caller
      obtain rfl := isPrimary
      have passed := books.perm ((before _ _).trans (List.perm_append_comm_assoc ..))
      obtain ⟨letGo, gone⟩ := passed.leave found (leads.imp_left And.left)
      refine ⟨still (works_leave _ n), [], letGo.perm ?_, .inr ⟨rfl, ?_⟩⟩
      · exact (after [] (occupant first s.log) .shut).symm
      · exact List.mem_append_right _ (mem_halted.mpr gone)
  | elsewhere stays spares =>
      refine ⟨still (works_onChannel _ _ stays), lead, ?_, leads.imp_right counted⟩
      exact books.works (works_onChannel _ _ stays) (.refl _)
        (fun c inside out => absurd inside out)
        fun c gone => .inl (isStopped_of_onChannel spares gone)

/-- Whoever has put a server into the place is known by it. -/
def Placed (s : Relief η) : Prop :=
  ∀ i c, .filled i c ∈ s.log → (s.callers[i]?).bind Phase.placed? = some c

theorem Placed.set {phase next : Phase} (placed : Placed s) (caller : s.callers[i]? = some phase)
    (keeps : ∀ c, phase.placed? = some c → next.placed? = some c) {j c : Nat}
    (inside : .filled j c ∈ s.log) : ((s.callers.set i next)[j]?).bind Phase.placed? = some c := by
  have before := placed j c inside
  rw [List.getElem?_set]
  split
  · next here =>
      subst here
      rw [caller] at before
      rw [if_pos (List.getElem?_eq_some_iff.mp caller).1]
      exact keeps c before
  · exact before

theorem placed_step (placed : Placed s) (step : Step n s t) : Placed t := by
  cases step with
  | come wish =>
      intro j c inside
      obtain ⟨phase, there, put⟩ := Option.bind_eq_some_iff.mp (placed j c inside)
      change ((s.callers ++ [_])[j]?).bind _ = _
      rw [List.getElem?_append_left (List.getElem?_eq_some_iff.mp there).1]
      exact placed j c inside
  | take caller taken =>
      intro j c inside
      rcases List.mem_cons.mp inside with new | old
      · cases new
      · exact placed.set caller nofun old
  | dismiss caller => exact fun j c inside => placed.set caller nofun inside
  | hire launch caller found done => exact fun j c inside => placed.set caller nofun inside
  | @place i new h old caller put =>
      intro j c inside
      rcases List.mem_cons.mp inside with new | old
      · cases new
        change ((s.callers.set i _)[i]?).bind _ = _
        rw [List.getElem?_set_self (List.getElem?_eq_some_iff.mp caller).1]
        rfl
      · exact placed.set caller nofun old
  | @relieve i new old caller =>
      intro j c inside
      change ((s.callers.set i (.restarted new))[j]?).bind _ = _
      refine placed.set caller ?_ inside
      exact fun _ same => same
  | leave caller => exact fun j c inside => placed.set caller nofun inside
  | elsewhere => exact placed

/-! ### When all have returned -/

variable {key : Workspace.Key} {spec : ServerSpec} {launch : Launch → Option Channel.Outlet}

/-- What is kept from the start of a workspace on. -/
theorem kept_of_reachable (sound : h.Sound)
    (started : h.startWorkspace launch key spec = (h', some n)) (reach : Reachable n h' s) :
    ∃ primary first board, (h'.workspace? n).bind Workspace.worker = some first ∧
      Kept n primary first board s := by
  obtain ⟨primary, first, found, books⟩ := sound.books_startWorkspace started
  refine ⟨primary, first, h.boards.length, by rw [found]; rfl, ?_⟩
  induction reach with
  | refl =>
      exact ⟨⟨_, found, rfl, rfl, rfl⟩, [primary], books.perm (.swap ..), .inl ⟨rfl, nofun⟩⟩
  | tail _ step ih => exact kept_step ih step

theorem placed_of_reachable (reach : Reachable n h s) : Placed s := by
  induction reach with
  | refl => exact nofun
  | tail _ step ih => exact placed_step ih step

/-- Callers that have returned have nobody in their hands. -/
theorem hands_of_idle (idle : s.IsIdle) (lead : List Nat) (place : Option Nat) :
    hands lead place s.callers = lead ++ place.toList := by
  have empty : s.callers.flatMap Phase.held = [] := by
    refine List.flatMap_eq_nil_iff.mpr fun phase inside => ?_
    have returned := idle phase inside
    cases phase <;> first | rfl | cases returned
  rw [hands, empty, List.append_nil]

/-- How things are with a workspace whose worker was `first` at the start. Every server that was
ever started as a worker has been stopped and is gone, but for the one in the place (`others`). The
one in the place has not been stopped (`worker`). It was there from the start, or it is there after
a restart that was successful (`origin`). A restart that has failed has put nobody there (`failed`).
-/
structure Settled (s : Relief η) (w : Workspace) (first : Option Nat) : Prop where
  others : ∀ c, s.hub.boardOf? c = some w.board → c ≠ w.primary → w.worker ≠ some c →
    c ∈ s.stopped ∧ s.hub.isAlive c = false
  worker : ∀ c, w.worker = some c →
    s.hub.boardOf? c = some w.board ∧ c ≠ w.primary ∧ c ∉ s.stopped
  origin : ∀ c, w.worker = some c →
    first = some c ∨ ∃ i : Nat, s.callers[i]? = some (.restarted c)
  failed : ∀ (i c : Nat), s.callers[i]? = some .failed → .filled i c ∉ s.log

/-- When all callers have returned, no worker has been left behind. -/
theorem settled_of_idle (sound : h.Sound)
    (started : h.startWorkspace launch key spec = (h', some n)) (reach : Reachable n h' s)
    (idle : s.IsIdle) :
    ∃ w, s.hub.workspace? n = some w ∧ s.Settled w ((h'.workspace? n).bind Workspace.worker) := by
  obtain ⟨primary, first, board, atStart, ⟨w, found, rfl, rfl, works⟩, lead, books, leads⟩ :=
    kept_of_reachable sound started reach
  have placed := placed_of_reachable reach
  rw [hands_of_idle idle, ← works] at books
  have inPlace : ∀ c, w.worker = some c → c ∈ lead ++ w.worker.toList := fun c here =>
    List.mem_append_right _ (Option.mem_toList.mpr here)
  refine ⟨w, found, ?_, ?_, ?_, ?_⟩
  · intro c belongs notFirst notThere
    have counted : c ∈ s.stopped := by
      rcases books.all c belongs with inside | counted
      · rcases List.mem_append.mp inside with first | here
        · rcases leads with ⟨rfl, -⟩ | ⟨rfl, -⟩
          · exact absurd (List.mem_singleton.mp first) notFirst
          · cases first
        · exact absurd (Option.mem_toList.mp here) notThere
      · exact counted
    exact ⟨counted, books.gone c counted belongs⟩
  · intro c here
    have kept := books.kept c (inPlace c here)
    refine ⟨books.known c (inPlace c here), ?_, kept⟩
    rintro rfl
    rcases leads with ⟨rfl, -⟩ | ⟨rfl, counted⟩
    · exact (List.nodup_cons.mp books.once).1 (Option.mem_toList.mpr here)
    · exact kept counted
  · intro c here
    rw [works] at here
    rcases log : s.log with _ | ⟨_ | ⟨i, d⟩, earlier⟩
    · rw [log] at here
      exact .inl (atStart.trans here)
    · rw [log] at here
      cases here
    · rw [log] at here
      obtain rfl := Option.some.inj here
      obtain ⟨phase, caller, put⟩ :=
        Option.bind_eq_some_iff.mp (placed i d (log ▸ List.mem_cons_self))
      have returned := idle phase (List.mem_of_getElem? caller)
      cases phase with
      | restarted new =>
          obtain rfl := Option.some.inj put
          exact .inr ⟨i, caller⟩
      | relieving new old => cases returned
      | _ => cases put
  · intro i c caller inside
    have put := placed i c inside
    rw [caller] at put
    cases put

/-- Two callers that start the worker anew at the same time. Both start a server, and the one whose
server comes into the place later is to stop the other's. -/
def rivals : Relief Unit :=
  play (fun _ => some .start) 0 fresh [.restart, .restart] [0, 1, 0, 1, 0, 1, 0, 1, 1, 0]

theorem startWorkspace_fresh : (Hub.start 1 2000).startWorkspace (fun _ => some .start)
    ⟨"/", "server"⟩ ⟨"server", [], [], none⟩ = (fresh, some 0) :=
  rfl

theorem isIdle_of_callers {phases : List Phase} (callers : s.callers = phases)
    (returned : phases.all Phase.isOver = true) : s.IsIdle := by
  rw [IsIdle, callers]
  exact List.all_eq_true.mp returned

theorem settled_rivals : Reachable 0 fresh rivals ∧
    rivals.callers = [.restarted 2, .restarted 3] ∧
    ∃ w, rivals.hub.workspace? 0 = some w ∧ w.worker = some 3 ∧ rivals.Settled w (some 1) := by
  have reach : Reachable 0 fresh rivals := reachable_play ..
  have callers : rivals.callers = [.restarted 2, .restarted 3] := rfl
  obtain ⟨w, found, settled⟩ := settled_of_idle (sound_start 1 2000) startWorkspace_fresh reach
    (isIdle_of_callers callers rfl)
  have worker : (rivals.hub.workspace? 0).bind Workspace.worker = some 3 := rfl
  rw [found] at worker
  exact ⟨reach, callers, w, found, worker, settled⟩

end Relief

end EditorBridge.Hub
