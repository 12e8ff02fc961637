import EditorBridge.Proofs.Console.Course
import EditorBridge.Proofs.Console.Drain
import EditorBridge.Proofs.Hub.Provenance

/-!
# The order on the wire

The reader of the lines is done with a command before it takes the next line: it completes the
command, lets its request in, and writes it, and it does not wait for the answer. So whatever goes
on meanwhile, the commands that are completed are on the wire in the order of their lines, each of
them once or not at all, and what is not written is untranslatable or has a number that is not free.
All of them are completed just as long as no count of versions reaches the end of its range
(`inOrder_iff`).
-/

namespace EditorBridge

/-- A lookup that is given a workspace finds it, or it starts the next one. -/
theorem Hub.workspaceFor_some {η : Type} {h h' : Hub η} {launch : Launch → Option Channel.Outlet}
    {ext root : String} {w : Nat} (found : h.workspaceFor launch ext root = (h', some w)) :
    h' = h ∧ w < h.workspaces.length ∨ w = h.workspaces.length ∧
      ∃ g key spec, h.Fades g ∧ g.engage launch key spec = (h', some w) := by
  cases known : h.roster.routes.find? ext with
  | none =>
      rw [workspaceFor, known] at found
      cases found
  | some spec =>
      rcases workspaceFor_cases launch root known with
        ⟨m, v, -, there, given⟩ | ⟨g, fades, -, given⟩
      · obtain ⟨rfl, same⟩ := Prod.mk.inj (given.symm.trans found)
        obtain rfl := Option.some.inj same
        exact .inl ⟨rfl, lt_of_workspace? there⟩
      · have started := given.symm.trans found
        have engages := engages_engage g launch ⟨root, spec.binary⟩ spec
        rw [started] at engages
        rcases engages.workspaces with ⟨impossible, -⟩ | ⟨number, -⟩
        · cases impossible
        · rw [fades.count] at number
          exact .inr ⟨Option.some.inj number, g, _, spec, fades, started⟩

namespace Console

open Channel (Pending spoken)
open Workspace (brim brimming rewriting)

/-! ### The record so far -/

/-- The commands that the workspace has completed, of those that have gone to it. -/
def Task.settled (commands : List Command) : Task → List Command
  | .placed _ _ | .dead _ => commands.dropLast
  | _ => commands

/-- What the reader of the lines is about to do, it does for the last command. -/
def Task.IsFor (w n : Nat) (commands : List Command) : Task → Prop
  | .reading => True
  | .placed command workspace => workspace = w ∧ commands.getLast? = some command
  | .registering e => e.channel = n ∧ e.command.kind.isQuery = true
  | .writing e =>
      e.channel = n ∧ e.command.kind.isQuery = true ∧ e.command.toMessage?.isSome = true
  | .dead command => commands.getLast? = some command
  | .closed => False

/-- A request that waits belongs to a query that was written, or to the one that is about to be. -/
def Owed (log : List Ruling) (task : Task) (p : Pending) : Prop :=
  (∃ r ∈ log, r.command.kind.isQuery = true ∧ r.command.seq = p.id ∧ r.frames ≠ []) ∨
    ∃ e, task = .writing e ∧ e.command.seq = p.id

theorem Owed.later {log log' : List Ruling} {p : Pending} {task : Task} (owed : Owed log task p)
    (before : ∀ e, task ≠ .writing e) (more : ∀ r ∈ log, r ∈ log') (task' : Task) :
    Owed log' task' p := by
  rcases owed with ⟨r, inside, asked⟩ | ⟨e, writes, -⟩
  · exact .inl ⟨r, more r inside, asked⟩
  · exact absurd writes (before e)

namespace Session

variable {w n : Nat} {s s' : Session} {log : List Ruling} {pad : Workspace}
  {commands : List Command}

/-- What holds of a session with a steady server once a command has gone to its workspace. -/
structure Serving (w n : Nat) (pad : Workspace) (commands : List Command) (log : List Ruling)
    (s : Session) : Prop where
  primary : pad.primary = n
  workspace : s.hub.workspace? w = some (pad.after (s.task.settled commands))
  task : s.task.IsFor w n commands
  settled : pad.CompletesAll (s.task.settled commands)
  rulings : log.map Ruling.command ++ s.inHand?.toList = pad.completed commands
  channel : ∃ c, s.hub.channel? n = some c ∧ c.Takes ∧
    spoken c.outlet.sent = log.flatMap Ruling.frames ∧ ∀ p ∈ c.exchange.pending, Owed log s.task p
  fair : ∀ earlier r later, log = earlier ++ r :: later → r.IsFair earlier

theorem primary_after (v : Workspace) (commands : List Command) :
    (v.after commands).primary = v.primary := by
  induction commands generalizing v with
  | nil => rfl
  | cons c commands ih => exact ih (v.prepare c).1

theorem inHand?_of_same (workspaces : s'.hub.workspaces = s.hub.workspaces)
    (task : s'.task = s.task) : s'.inHand? = s.inHand? := by
  rw [inHand?, inHand?, task]
  cases s.task with
  | placed command workspace => simp only [Hub.workspace?, workspaces]
  | _ => rfl

/-- A ruling that is fair is added to those that are. -/
theorem fair_concat {r : Ruling}
    (fair : ∀ earlier r later, log = earlier ++ r :: later → r.IsFair earlier)
    (last : r.IsFair log) (earlier : List Ruling) (q : Ruling) (later : List Ruling)
    (split : log ++ [r] = earlier ++ q :: later) : q.IsFair earlier := by
  rcases List.eq_nil_or_concat later with rfl | ⟨front, back, rfl⟩
  · obtain ⟨rfl, same⟩ := List.append_inj' split rfl
    obtain rfl := List.singleton_inj.mp same
    exact last
  · have split : log ++ [r] = (earlier ++ q :: front) ++ [back] := by simpa using split
    exact fair earlier q front (List.append_inj' split rfl).1

namespace Serving

theorem completesAll_dropLast (serving : Serving w n pad commands log s) :
    pad.CompletesAll commands.dropLast := by
  have settled := serving.settled
  cases task : s.task with
  | placed | dead =>
      rw [task] at settled
      exact settled
  | reading | registering | writing | closed =>
      rw [task] at settled
      exact settled.dropLast

/-- What goes on beside the commands changes nothing about them. -/
theorem beside (serving : Serving w n pad commands log s) (task : s'.task = s.task)
    (workspaces : s'.hub.workspaces = s.hub.workspaces)
    (rests : ∀ c, s.hub.channel? n = some c → c.Takes →
      ∃ c', s'.hub.channel? n = some c' ∧ c.Rests c') :
    Serving w n pad commands (log ++ (ruling? n s s').toList) s' := by
  obtain ⟨c, there, takes, frames, owed⟩ := serving.channel
  obtain ⟨c', there', rests⟩ := rests c there takes
  rw [ruling?_of_same task, Option.toList_none, List.append_nil]
  refine ⟨serving.primary, ?_, task ▸ serving.task, task ▸ serving.settled, ?_, ?_, serving.fair⟩
  · rw [Hub.workspace?, workspaces, task]
    exact serving.workspace
  · rw [inHand?_of_same workspaces task]
    exact serving.rulings
  · refine ⟨c', there', rests.takes, rests.spoken.trans frames, ?_⟩
    intro p waits
    rw [task]
    exact owed p (rests.pending.subset waits)

/-- The reader of the lines is done with the command in hand. -/
theorem rule (serving : Serving w n pad commands log s) {command : Command} {c c' : Channel}
    {frames : List Json} (hand : s.inHand? = some command) (done : s'.task = .reading)
    (workspace : s'.hub.workspace? w = some (pad.after commands))
    (whole : pad.CompletesAll commands)
    (there : s.hub.channel? n = some c) (there' : s'.hub.channel? n = some c')
    (takes : c'.Takes) (sent : c'.outlet.sent = c.outlet.sent ++ frames)
    (frank : spoken frames = frames) (fair : Ruling.IsFair log ⟨command, s.waiting n, frames⟩)
    (owed : ∀ p ∈ c'.exchange.pending,
      Owed (log ++ [⟨command, s.waiting n, frames⟩]) .reading p) :
    Serving w n pad commands (log ++ (ruling? n s s').toList) s' := by
  obtain ⟨c₀, found, -, spoke, -⟩ := serving.channel
  obtain rfl := Option.some.inj (there.symm.trans found)
  have gained : (s'.sent n).drop (s.sent n).length = frames := by
    rw [sent_of_channel? there, sent_of_channel? there', sent, List.drop_left]
  have ruled : ruling? n s s' = some ⟨command, s.waiting n, frames⟩ := by
    rw [ruling?, done, hand, Option.map_some, gained]
  rw [ruled, Option.toList_some]
  refine ⟨serving.primary, ?_, ?_, done ▸ whole, ?_, ⟨c', there', takes, ?_, done ▸ owed⟩,
    fair_concat serving.fair fair⟩
  · rw [workspace, done]
    rfl
  · rw [done]
    trivial
  · rw [inHand?_of_reading done, ← serving.rulings, hand, List.map_append]
    simp
  · rw [sent, Channel.spoken_append, spoke, frank, List.flatMap_append]
    simp

/-- The workspace completes the command that goes to it, for its first channel, or the call dies. -/
theorem complete (serving : Serving w n pad commands log s) {command : Command} {v : Nat}
    (task : s.task = .placed command v) :
    ∃ hub ready?, s.hub.prepare v command = (hub, ready?.map (n, ·)) ∧ s.inHand? = ready? ∧
      hub.links = s.hub.links ∧ hub.workspace? w = some (pad.after commands) ∧
        (pad.CompletesAll commands ↔ ready?.isSome = true) ∧
          (ready? = none → pad.after commands.dropLast = pad.after commands) := by
  obtain ⟨rfl, last⟩ : v = w ∧ commands.getLast? = some command := by
    have isFor := serving.task
    rw [task] at isFor
    exact isFor
  obtain ⟨earlier, rfl⟩ := List.getLast?_eq_some_iff.mp last
  have settled := serving.settled
  have workspace := serving.workspace
  rw [task, Task.settled, List.dropLast_concat] at settled workspace
  refine ⟨s.hub.setWorkspace v ((pad.after earlier).prepare command).1,
    ((pad.after earlier).prepare command).2, ?_, inHand?_of_placed task workspace, rfl, ?_, ?_, ?_⟩
  · rw [Hub.prepare, workspace, ← serving.primary, ← primary_after pad earlier]
    rfl
  · rw [Hub.workspace?_setWorkspace _ workspace, if_pos rfl, Workspace.after_concat]
  · rw [Workspace.completesAll_concat, and_iff_right settled]
  · intro dies
    rw [List.dropLast_concat, Workspace.after_concat, Workspace.prepare_of_not_canCount]
    rw [← Workspace.isSome_prepare_iff, dies]
    exact Bool.false_ne_true

/-- A command that is posted is ruled on fairly: it is written if it can be said. -/
theorem isFair_posted (log : List Ruling) (command : Command) (waiting : List Pending) :
    Ruling.IsFair log ⟨command, waiting, command.wire?.toList⟩ := by
  cases said : command.wire? with
  | none => exact .mute said rfl
  | some message => exact .written said rfl

/-- The reader of the lines posts the command in hand. -/
theorem post (serving : Serving w n pad commands log s) (console : Console) {ready : Command}
    {hub : Hub Unit} (hand : s.inHand? = some ready)
    (workspace : hub.workspace? w = some (pad.after commands))
    (whole : pad.CompletesAll commands) (links : hub.links = s.hub.links)
    (owed : ∀ p, Owed log s.task p →
      Owed (log ++ [⟨ready, s.waiting n, ready.wire?.toList⟩]) .reading p) :
    Serving w n pad commands
      (log ++ (ruling? n s
        { s with hub := (hub.post n ready).1, console, task := .reading }).toList)
      { s with hub := (hub.post n ready).1, console, task := .reading } := by
  obtain ⟨c, there, takes, -, owing⟩ := serving.channel
  have here : hub.channel? n = some c := by rw [Hub.channel?, links]; exact there
  obtain ⟨posted, -, workspaces⟩ := Hub.post_of_takes here takes ready
  refine serving.rule hand rfl ?_ whole there posted (takes.add _) rfl (Channel.spoken_wire? ready)
    (isFair_posted log ready _) fun p waits => owed p (owing p waits)
  rw [Hub.workspace?, workspaces]
  exact workspace

/-- The reader of the lines drops the command in hand; only the table has been looked at. -/
theorem drop (serving : Serving w n pad commands log s) {command : Command} {c c' : Channel}
    (hand : s.inHand? = some command) (done : s'.task = .reading)
    (before : ∀ e, s.task ≠ .writing e)
    (workspace : s'.hub.workspace? w = some (pad.after commands))
    (whole : pad.CompletesAll commands)
    (there : s.hub.channel? n = some c) (there' : s'.hub.channel? n = some c') (takes : c'.Takes)
    (outlet : c'.outlet = c.outlet) (pending : c'.exchange.pending = c.exchange.pending)
    (fair : Ruling.IsFair log ⟨command, s.waiting n, []⟩) :
    Serving w n pad commands (log ++ (ruling? n s s').toList) s' := by
  obtain ⟨c₀, found, -, -, owed⟩ := serving.channel
  obtain rfl := Option.some.inj (there.symm.trans found)
  refine serving.rule hand done workspace whole there there' takes ?_ rfl fair ?_
  · rw [outlet, List.append_nil]
  · intro p waits
    rw [pending] at waits
    exact (owed p waits).later before (fun r => List.mem_append_left _) _

/-- A request that was let in is posted; it has a written query now. -/
theorem deliver (serving : Serving w n pad commands log s) (console : Console) {e : Errand}
    (task : s.task = .writing e) :
    Serving w n pad commands
      (log ++ (ruling? n s
        { s with hub := (s.hub.post e.channel e.command).1, console, task := .reading }).toList)
      { s with hub := (s.hub.post e.channel e.command).1, console, task := .reading } := by
  have isFor := serving.task
  have workspace := serving.workspace
  have whole := serving.settled
  rw [task] at isFor workspace whole
  obtain ⟨rfl, isQuery, sayable⟩ := isFor
  refine serving.post console (by rw [inHand?, task]) workspace whole rfl ?_
  rintro p (⟨r, inside, asked⟩ | ⟨e', writes, number⟩)
  · exact .inl ⟨r, List.mem_append_left _ inside, asked⟩
  · obtain rfl := Task.writing.inj (task.symm.trans writes)
    refine .inl ⟨_, List.mem_append_right _ List.mem_cons_self, isQuery, number, ?_⟩
    obtain ⟨message, said⟩ := Option.isSome_iff_exists.mp sayable
    simp [Command.wire?, said]

/-- A query that is completed is the command in hand still. -/
theorem ticket (serving : Serving w n pad commands log s) {command ready : Command}
    {v channel : Nat} {hub : Hub Unit} (deadline : Nat) (task : s.task = .placed command v)
    (isQuery : command.kind.isQuery = true)
    (complete : s.hub.prepare v command = (hub, some (channel, ready))) :
    Serving w n pad commands log { s with
      hub := { hub with nextTicket := hub.nextTicket + 1 }
      task := .registering ⟨hub.nextTicket, channel, ready, deadline⟩ } := by
  obtain ⟨c, there, takes, frames, owed⟩ := serving.channel
  obtain ⟨hub', ready', prepared, hand, links, completed, whole, -⟩ := serving.complete task
  rw [complete] at prepared
  obtain ⟨rfl, given⟩ := Prod.mk.inj prepared
  obtain ⟨done, rfl, same⟩ := Option.map_eq_some_iff.mp given.symm
  obtain ⟨rfl, rfl⟩ := Prod.mk.inj same
  refine ⟨serving.primary, completed, ⟨rfl, ?_⟩, whole.mpr rfl, ?_, ⟨c, ?_, takes, frames, ?_⟩,
    serving.fair⟩
  · rw [(Hub.prepare_frame complete).2.1, isQuery]
  · rw [← serving.rulings, hand]
    rfl
  · exact (congrArg (fun links => links[n]?.map Link.channel) links).trans there
  · intro p waits
    exact (owed p waits).later (by simp [task]) (fun r inside => inside) _

/-- When the call dies the command is not completed, and nothing is written for it. -/
theorem die (serving : Serving w n pad commands log s) {command : Command} {v : Nat}
    {hub : Hub Unit} (task : s.task = .placed command v)
    (fails : s.hub.prepare v command = (hub, none)) :
    Serving w n pad commands log { s with hub, task := .dead command } := by
  obtain ⟨c, there, takes, frames, owed⟩ := serving.channel
  obtain ⟨hub', ready', prepared, hand, links, completed, -, same⟩ := serving.complete task
  have isFor := serving.task
  have settled := serving.settled
  rw [task] at isFor settled
  rw [fails] at prepared
  obtain ⟨rfl, none⟩ := Prod.mk.inj prepared
  have dies := Option.map_eq_none_iff.mp none.symm
  refine ⟨serving.primary, completed.trans (congrArg some (same dies).symm), isFor.2, settled, ?_,
    ⟨c, ?_, takes, frames, ?_⟩, serving.fair⟩
  · rw [← serving.rulings, hand, dies]
    rfl
  · exact (congrArg (fun links => links[n]?.map Link.channel) links).trans there
  · intro p waits
    exact (owed p waits).later (by simp [task]) (fun r inside => inside) _

/-- A request that is let in is about to be written. -/
theorem enroll (serving : Serving w n pad commands log s) {e : Errand} {hub : Hub Unit}
    (task : s.task = .registering e) (sayable : e.command.toMessage?.isSome = true)
    (entering : s.hub.enroll e.channel e.command e.ticket = (hub, true)) :
    Serving w n pad commands log { s with hub, task := .writing e } := by
  have isFor := serving.task
  have workspace := serving.workspace
  have whole := serving.settled
  rw [task] at isFor workspace whole
  obtain ⟨rfl, isQuery⟩ := isFor
  obtain ⟨c, there, takes, frames, owed⟩ := serving.channel
  obtain ⟨c', entered, takes', outlet, verdict, workspaces⟩ :=
    Hub.enroll_of_takes there takes e.command e.ticket
  rw [entering] at entered verdict workspaces
  obtain ⟨-, pending⟩ | ⟨isOut, -⟩ := verdict
  case inr => cases isOut
  refine ⟨serving.primary, (congrArg (·[w]?) workspaces).trans workspace,
    ⟨rfl, isQuery, sayable⟩, whole, ?_, ⟨c', entered, takes', outlet ▸ frames, ?_⟩, serving.fair⟩
  · rw [← serving.rulings, inHand?, inHand?, task]
  · intro p waits
    rw [pending] at waits
    rcases List.mem_append.mp waits with old | new
    · exact (owed p old).later (by simp [task]) (fun r inside => inside) _
    · rw [List.mem_singleton.mp new]
      exact .inr ⟨e, rfl, rfl⟩

/-- A request that is not let in has the number of the handshake or of a query that waits. -/
theorem refuse (serving : Serving w n pad commands log s) {e : Errand} {hub : Hub Unit}
    (console : Console) (task : s.task = .registering e)
    (out : s.hub.enroll e.channel e.command e.ticket = (hub, false)) :
    Serving w n pad commands
      (log ++ (ruling? n s { s with hub, console, task := .reading }).toList)
      { s with hub, console, task := .reading } := by
  have isFor := serving.task
  have workspace := serving.workspace
  have whole := serving.settled
  rw [task] at isFor workspace whole
  obtain ⟨rfl, isQuery⟩ := isFor
  obtain ⟨c, there, takes, -, owed⟩ := serving.channel
  obtain ⟨c', entered, takes', outlet, verdict, workspaces⟩ :=
    Hub.enroll_of_takes there takes e.command e.ticket
  rw [out] at entered verdict workspaces
  obtain ⟨isIn, -⟩ | ⟨-, pending, reason⟩ := verdict
  · cases isIn
  have hand : s.inHand? = some e.command := by rw [inHand?, task]
  refine serving.drop hand rfl (by simp [task]) ?_ whole there entered takes' outlet pending ?_
  · exact (congrArg (·[w]?) workspaces).trans workspace
  rcases reason with zero | ⟨p, waits, number⟩
  · exact .reserved isQuery zero rfl
  · -- Nothing is about to be written, so the query with this number has been.
    rcases owed p waits with ⟨q, asked, wasQuery, same, wasWritten⟩ | ⟨e', writes, -⟩
    · refine .pending isQuery ?_ number asked wasQuery (same.trans number) wasWritten rfl
      rw [waiting_of_channel? there]
      exact waits
    · cases task.symm.trans writes

/-- The reader of the lines goes on with the command in hand. -/
theorem pursued (serving : Serving w n pad commands log s) (step : Step s s')
    (busy : s.task ≠ .reading) (moves : s'.task ≠ s.task) :
    Serving w n pad commands (log ++ (ruling? n s s').toList) s' := by
  cases step with
  | skipped reading => exact absurd reading busy
  | unserved _ reading => exact absurd reading busy
  | ignored _ reading => exact absurd reading busy
  | served _ reading => exact absurd reading busy
  | closed reading => exact absurd reading busy
  | answered => exact absurd rfl moves
  | expired => exact absurd rfl moves
  | abandoned => exact absurd rfl moves
  | arrived => exact absurd rfl moves
  | disturbed => exact absurd rfl moves
  | reported => exact absurd rfl moves
  | told task isNotice told =>
      obtain ⟨hub, ready, prepared, hand, links, completed, whole, -⟩ := serving.complete task
      rw [Hub.tell, prepared] at told
      cases ready with
      | none => cases (Prod.mk.inj told).2
      | some ready =>
          obtain ⟨rfl, -⟩ := Prod.mk.inj told
          exact serving.post _ hand completed (whole.mpr rfl) links fun p owed =>
            owed.later (by simp [task]) (fun r => List.mem_append_left _) _
  | died task fails =>
      rw [ruling?_of_busy (by simp), Option.toList_none, List.append_nil]
      exact serving.die task fails
  | prepared deadline task isQuery complete =>
      rw [ruling?_of_busy (by simp), Option.toList_none, List.append_nil]
      exact serving.ticket deadline task isQuery complete
  | @unsayable e task mute =>
      obtain ⟨c, there, takes, -⟩ := serving.channel
      have workspace := serving.workspace
      have whole := serving.settled
      rw [task] at workspace whole
      have hand : s.inHand? = some e.command := by rw [inHand?, task]
      have unsaid : e.command.wire? = none := by rw [Command.wire?, mute]; rfl
      exact serving.drop hand rfl (by simp [task]) workspace whole there there takes rfl rfl
        (.mute unsaid rfl)
  | refused task sayable out => exact serving.refuse _ task out
  | enrolled task sayable entering =>
      rw [ruling?_of_busy (by simp), Option.toList_none, List.append_nil]
      exact serving.enroll task sayable entering
  | @written e hub task posted =>
      have delivered := serving.deliver
        { s.console with inquiries := s.console.inquiries ++ [e.inquiry] } task
      rw [posted] at delivered
      exact delivered
  | @unwritten e hub isWritten task posted =>
      have delivered := serving.deliver (s.console.giveUp e.command) task
      rw [posted] at delivered
      exact delivered

/-- A command goes to the workspace that is there. -/
theorem served (serving : Serving w n pad commands log s) (task : s.task = .reading)
    (command : Command) (rest : List String) :
    Serving w n pad (commands ++ [command]) log
      { s with input := rest, task := .placed command w } := by
  obtain ⟨c, there, takes, frames, owed⟩ := serving.channel
  have found : s.hub.workspace? w = some (pad.after commands) := by
    rw [serving.workspace, task]
    rfl
  have settled := serving.settled
  rw [task] at settled
  have rulings : log.map Ruling.command = pad.completed commands := by
    rw [← serving.rulings, inHand?_of_reading task]
    exact (List.append_nil _).symm
  refine ⟨serving.primary, ?_, ⟨rfl, List.getLast?_concat⟩, ?_, ?_, ⟨c, there, takes, frames, ?_⟩,
    serving.fair⟩
  · rw [Task.settled, List.dropLast_concat]
    exact found
  · rw [Task.settled, List.dropLast_concat]
    exact settled
  · have hand : inHand? ⟨s.hub, s.console, rest, .placed command w⟩ = _ :=
      inHand?_of_placed rfl found
    rw [Workspace.completed_concat, rulings, hand]
  · intro p waits
    exact (owed p waits).later (by simp [task]) (fun r inside => inside) _

end Serving

/-- No command has gone to a workspace yet. -/
structure Dormant (s : Session) : Prop where
  links : s.hub.links = []
  workspaces : s.hub.workspaces = []
  task : s.task = .reading

/-- The first command starts the first workspace. -/
theorem Dormant.served (dormant : s.Dormant) {launch : Launch → Option Channel.Outlet}
    (blank : ∀ l outlet, launch l = some outlet → outlet.sent = []) {hub : Hub Unit}
    {ext root : String} (found : s.hub.workspaceFor launch ext root = (hub, some 0))
    (command : Command) (rest : List String) :
    ∃ pad : Workspace, pad.versions = [] ∧ Serving 0 0 pad [command] []
      { s with hub, input := rest, task := .placed command 0 } := by
  rcases Hub.workspaceFor_some found with ⟨-, inside⟩ | ⟨-, g, key, spec, fades, started⟩
  · rw [dormant.workspaces] at inside
    cases inside
  have none : g.links.length = 0 := by
    rw [← Hub.length_stamps, fades.stamps, Hub.length_stamps, dormant.links]
    rfl
  obtain ⟨worker, c, made, there, takes, quiet, free⟩ := Hub.engage_quiet blank started
  rw [none] at made there
  refine ⟨.start key spec 0 worker g.boards.length, rfl, rfl, made, ⟨rfl, rfl⟩, rfl, ?_,
    ⟨c, there, takes, quiet, ?_⟩, ?_⟩
  · rw [inHand?_of_placed rfl made]
    exact (Workspace.completed_concat _ [] command).symm
  · intro p waits
    rw [free] at waits
    cases waits
  · intro earlier r later split
    simp at split

/-- What holds of a course all along, after some of the lines. -/
def Keeps (taken : List String) (log : List Ruling) (s : Session) : Prop :=
  s.Dormant ∧ log = [] ∧ taken.filterMap Command.parse? = [] ∨
    ∃ pad : Workspace, pad.versions = [] ∧
      Serving 0 0 pad (taken.filterMap Command.parse?) log s

theorem keeps_beside {taken : List String} (keeps : Keeps taken log s) (task : s'.task = s.task)
    (workspaces : s'.hub.workspaces = s.hub.workspaces)
    (links : s'.hub.links.length = s.hub.links.length)
    (rests : ∀ c, s.hub.channel? 0 = some c → c.Takes →
      ∃ c', s'.hub.channel? 0 = some c' ∧ c.Rests c') :
    Keeps taken (log ++ (ruling? 0 s s').toList) s' := by
  rcases keeps with ⟨dormant, rfl, silent⟩ | ⟨pad, fresh, serving⟩
  · rw [ruling?_of_same task]
    refine .inl ⟨⟨?_, workspaces.trans dormant.workspaces, task.trans dormant.task⟩, rfl, silent⟩
    exact List.length_eq_zero_iff.mp (links.trans (by rw [dormant.links]; rfl))
  · exact .inr ⟨pad, fresh, serving.beside task workspaces rests⟩

/-- A step that leaves the reader of the lines alone takes no line. -/
theorem keeps_aside {taken : List String} (keeps : Keeps taken log s) (step : Step s s')
    (input : s'.input = s.input) (task : s'.task = s.task)
    (rests : ∀ c, s.hub.channel? 0 = some c → c.Takes →
      ∃ c', s'.hub.channel? 0 = some c' ∧ c.Rests c') :
    ∃ more, s.input = more ++ s'.input ∧
      Keeps (taken ++ more) (log ++ (ruling? 0 s s').toList) s' := by
  obtain ⟨workspaces, links⟩ := step.beside input task
  refine ⟨[], input.symm, ?_⟩
  rw [List.append_nil]
  exact keeps_beside keeps task workspaces links rests

/-- Each step of a steady server keeps the record, and takes the line it takes. -/
theorem keeps_step {taken : List String} (keeps : Keeps taken log s) (steady : Steady 0 0 s s') :
    ∃ more, s.input = more ++ s'.input ∧
      Keeps (taken ++ more) (log ++ (ruling? 0 s s').toList) s' := by
  cases steady with
  | @skipped line rest task next junk =>
      refine ⟨[line], next, ?_⟩
      have nothing : (taken ++ [line]).filterMap Command.parse? =
          taken.filterMap Command.parse? := by
        simp [junk]
      rw [Keeps, nothing]
      exact keeps_beside keeps rfl rfl rfl fun c there takes => ⟨c, there, .refl takes⟩
  | @served line rest command hub launch blank task next read found =>
      refine ⟨[line], next, ?_⟩
      rw [ruling?_of_busy (by simp), Option.toList_none, List.append_nil]
      refine .inr ?_
      have last : (taken ++ [line]).filterMap Command.parse? =
          taken.filterMap Command.parse? ++ [command] := by
        simp [read]
      rw [last]
      rcases keeps with ⟨dormant, rfl, silent⟩ | ⟨pad, fresh, serving⟩
      · rw [silent]
        exact dormant.served blank found command rest
      · have there := Hub.lt_of_workspace? serving.workspace
        rcases Hub.workspaceFor_some found with ⟨rfl, -⟩ | ⟨new, -⟩
        · exact ⟨pad, fresh, serving.served task command rest⟩
        · exact absurd there (new ▸ Nat.lt_irrefl _)
  | pursued step busy moves =>
      rcases keeps with ⟨dormant, -, -⟩ | ⟨pad, fresh, serving⟩
      · exact absurd dormant.task busy
      · refine ⟨[], (step.input_of_busy busy).symm, .inr ⟨pad, fresh, ?_⟩⟩
        rw [List.append_nil]
        exact serving.pursued step busy moves
  | heard value =>
      refine keeps_aside keeps (Step.arrived 0 (.frame value)) rfl rfl fun c there takes => ?_
      exact ⟨_, (Hub.onChannel_of_channel? _ _ there).1, Channel.rests_arrive takes value⟩
  | abandoned id =>
      refine keeps_aside keeps (Step.abandoned 0 id) rfl rfl fun c there takes => ?_
      exact ⟨_, (Hub.onChannel_of_channel? _ _ there).1, Channel.rests_abandon takes id⟩
  | elsewhere step input task same =>
      exact keeps_aside keeps step input task fun c there takes =>
        ⟨c, same.trans there, .refl takes⟩

theorem keeps_course {processId timeout : Nat} {routes : Routes} {root : String}
    {lines : List String}
    (course : Course 0 0 (start processId timeout routes root lines) s log) :
    ∃ taken, lines = taken ++ s.input ∧ Keeps taken log s := by
  induction course with
  | start => exact ⟨[], rfl, .inl ⟨⟨rfl, rfl, rfl⟩, rfl, rfl⟩⟩
  | step _ step ih =>
      obtain ⟨taken, split, keeps⟩ := ih
      obtain ⟨more, next, keeps⟩ := keeps_step keeps step
      refine ⟨taken ++ more, ?_, keeps⟩
      rw [split, next, List.append_assoc]

/-- While the server of the editor's commands stays alive, those that are completed are on the wire
in the order of their lines, each of them once or not at all, whenever the answers come. -/
theorem exists_orderly {processId timeout : Nat} {routes : Routes} {root : String}
    {lines : List String}
    (course : Course 0 0 (start processId timeout routes root lines) s log) :
    ∃ taken pad, Orderly lines s log taken pad := by
  obtain ⟨taken, split, ⟨dormant, rfl, silent⟩ | ⟨pad, fresh, serving⟩⟩ := keeps_course course
  · have nobody (n : Nat) : s.hub.workspace? n = none := by
      rw [Hub.workspace?, dormant.workspaces]
      rfl
    refine ⟨taken, .start ⟨root, ""⟩ ⟨"", [], [], none⟩ 0 0 0, split, rfl, ?_, ?_, ?_, ?_, ?_⟩
    · intro v found
      rw [nobody] at found
      cases found
    · rw [inHand?_of_reading dormant.task, silent]
      rfl
    · rw [silent]
      rfl
    · rw [sent, Hub.channel?, dormant.links]
      rfl
    · intro earlier r later empty
      simp at empty
  · obtain ⟨c, there, -, frames, -⟩ := serving.channel
    refine ⟨taken, pad, split, fresh, ?_, serving.rulings, ?_, ?_, serving.fair⟩
    · intro v found
      obtain rfl := Option.some.inj (serving.workspace.symm.trans found)
      exact ⟨Workspace.spec_after pad _, (primary_after pad _).trans serving.primary⟩
    · exact serving.completesAll_dropLast
    · rw [sent_of_channel? there]
      exact frames

/-- All commands are on the wire so just as long as no count of versions reaches the end of its
range; the bridge dies of the command that would pass it. -/
theorem inOrder_iff {processId timeout : Nat} {routes : Routes} {root : String}
    {lines : List String}
    (course : Course 0 0 (start processId timeout routes root lines) s log) :
    ∃ taken pad, Orderly lines s log taken pad ∧
      ((∃ taken pad, InOrder lines s log taken pad) ↔
        Command.HaveRoom (taken.filterMap Command.parse?)) := by
  obtain ⟨taken, pad, orderly⟩ := exists_orderly course
  refine ⟨taken, pad, orderly, ?_⟩
  rw [← Workspace.completesAll_iff orderly.fresh]
  constructor
  · rintro ⟨taken', pad', inOrder⟩
    obtain rfl := List.append_cancel_right (orderly.lines.symm.trans inOrder.lines)
    rw [Workspace.completesAll_iff orderly.fresh, ← Workspace.completesAll_iff inOrder.fresh]
    exact inOrder.all
  · exact fun all => ⟨taken, pad, orderly, all⟩

/-- A server that has just been started has been written nothing. -/
theorem blank_start (l : Launch) (outlet : Channel.Outlet)
    (started : (fun _ => some Channel.Outlet.start) l = some outlet) : outlet.sent = [] := by
  cases started
  rfl

/-- The query of a glance. -/
def glanced : Command :=
  ⟨7, .quickInfo ⟨"/a", 1, 1⟩⟩

/-- A bridge whose editor glances at a file, and glances again before the answer has come. -/
def insistent : Session :=
  start 0 0 [("", ⟨"server", [], [], none⟩)] "/" ["?", glance, glance]

/-- Its hub when the query has been written once. -/
def glancing : Hub Unit :=
  let opened := (insistent.hub.workspaceFor (fun _ => some .start) "" "/").1
  let entered := ({ opened with nextTicket := 3 }.enroll 0 glanced 2).1
  (entered.post 0 glanced).1

/-- The query is written when it is asked first, and then it is not. -/
theorem inOrder_insistent : ∃ s log, Course 0 0 insistent s log ∧
    (∃ taken pad, InOrder ["?", glance, glance] s log taken pad) ∧ s.input = [] ∧
    log.map (fun r => r.frames.length) = [1, 0] := by
  have junk : Command.parse? "?" = none := by decide +kernel
  have read : Command.parse? glance = some glanced := by decide +kernel
  have there : glancing.workspaceFor (fun _ => some .start) "" "/" = (glancing, some 0) := rfl
  have passed : Course 0 0 insistent _ _ := Course.start.step (.skipped rfl rfl junk)
  have asked := (passed.step (.served blank_start rfl rfl read rfl)).step
    (.pursued (.prepared 0 rfl rfl rfl) nofun nofun)
  have entered := asked.step (.pursued (.enrolled rfl rfl rfl) nofun nofun)
  have written := entered.step (.pursued (.written rfl (rfl : _ = (glancing, true))) nofun nofun)
  have again := (written.step (.served blank_start rfl rfl read there)).step
    (.pursued (.prepared 0 rfl rfl rfl) nofun nofun)
  have refused := again.step (.pursued (.refused rfl rfl rfl) nofun nofun)
  obtain ⟨taken, pad, orderly, iff⟩ := inOrder_iff refused
  obtain rfl : ["?", glance, glance] = taken := by simpa using orderly.lines
  refine ⟨_, _, refused, iff.mpr ?_, rfl, rfl⟩
  simp only [List.filterMap_cons, junk, read, List.filterMap_nil]
  exact fun n c found => by
    obtain rfl : c = glanced := by
      have inside := List.mem_of_getElem? found
      simpa using inside
    trivial

/-- A bridge whose editor opens a file in the greatest version and changes it. -/
def bold : Session :=
  start 0 0 [("", ⟨"server", [], [], none⟩)] "/" (brim.map Command.written)

/-- Its hub when the file has been opened. -/
def opened : Hub Unit :=
  ((bold.hub.workspaceFor (fun _ => some .start) "" "/").1.tell 0 brimming).1

/-- The bridge dies of the change, and nothing is written for it. -/
theorem not_inOrder_brim : ∃ s log, Course 0 0 bold s log ∧
    s.task = .dead (rewriting 2 "/a" none) ∧ log.map (fun r => r.frames.length) = [1] ∧
    ¬ ∃ taken pad, InOrder (brim.map Command.written) s log taken pad := by
  have readFirst : Command.parse? brimming.written = some brimming := by decide +kernel
  have readSecond : Command.parse? (rewriting 2 "/a" none).written =
      some (rewriting 2 "/a" none) := by decide +kernel
  have there : opened.workspaceFor (fun _ => some .start) "" "/" = (opened, some 0) := rfl
  have placed : Course 0 0 bold _ _ := Course.start.step (.served blank_start rfl rfl readFirst rfl)
  have told := placed.step (.pursued (.told rfl rfl (rfl : _ = (opened, some true))) nofun nofun)
  have again := told.step (.served blank_start rfl rfl readSecond there)
  have died := again.step (.pursued (.died rfl rfl) nofun nofun)
  refine ⟨_, _, died, rfl, rfl, ?_⟩
  rintro ⟨taken, pad, inOrder⟩
  obtain rfl : brim.map Command.written = taken := by simpa using inOrder.lines
  have room := (Workspace.completesAll_iff inOrder.fresh).mp inOrder.all
  simp only [brim, List.map_cons, List.map_nil, List.filterMap_cons, readFirst, readSecond,
    List.filterMap_nil] at room
  exact absurd (room 1 (rewriting 2 "/a" none) rfl) (by decide)

end Session

end Console

end EditorBridge
