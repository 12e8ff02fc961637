import EditorBridge.Proofs.Channel.Formalities
import EditorBridge.Proofs.Console.Session
import EditorBridge.Proofs.Workspace.Headroom

/-!
# Sessions with a steady server

A session whose commands all go to one workspace, while its server stays alive (`Steady`). A
`Course` is a run of such a session together with the record of what came of the commands: each time
the reader of the lines is done with a command, the record has what was written for it. What is to
be expected of the record is that the commands are `InOrder`; the commands that are completed are
`Orderly`.
-/

namespace EditorBridge

namespace Console

open Channel (Pending spoken)

/-- A command that the reader of the lines is done with, completed for its workspace, with the
requests that waited for an answer then and what the server was written. -/
structure Ruling where
  command : Command
  waiting : List Pending
  frames : List Json

/-- What may come of a command, after what has come of others. It is written once (`written`). It
cannot be said, and nothing is written (`mute`). It is a query with the number of the handshake, and
nothing is written (`reserved`). It is a query with the number of a query that was written before
and still waits for its answer, and nothing is written (`pending`). -/
inductive Ruling.IsFair (earlier : List Ruling) (r : Ruling) : Prop where
  | written {message : Json} (said : r.command.wire? = some message) (once : r.frames = [message])
  | mute (unsayable : r.command.wire? = none) (nothing : r.frames = [])
  | reserved (isQuery : r.command.kind.isQuery = true) (zero : r.command.seq = 0)
      (nothing : r.frames = [])
  | pending {p : Pending} {q : Ruling} (isQuery : r.command.kind.isQuery = true)
      (waits : p ∈ r.waiting) (number : p.id = r.command.seq) (asked : q ∈ earlier)
      (wasQuery : q.command.kind.isQuery = true) (same : q.command.seq = r.command.seq)
      (wasWritten : q.frames ≠ []) (nothing : r.frames = [])

namespace Session

/-- The command that the reader of the lines has in hand, completed for its workspace. -/
def inHand? (s : Session) : Option Command :=
  match s.task with
  | .placed command workspace =>
      (s.hub.workspace? workspace).bind fun workspace => (workspace.prepare command).2
  | .registering e | .writing e => some e.command
  | .reading | .closed | .dead _ => none

/-- Everything that has been written on a channel. -/
def sent (s : Session) (n : Nat) : List Json :=
  ((s.hub.channel? n).map fun c => c.outlet.sent).getD []

/-- The requests that wait for an answer on a channel. -/
def waiting (s : Session) (n : Nat) : List Pending :=
  ((s.hub.channel? n).map fun c => c.exchange.pending).getD []

/-- What a step makes of the command in hand on a channel, if the reader is done with it then. -/
def ruling? (n : Nat) (s s' : Session) : Option Ruling :=
  match s'.task with
  | .reading => s.inHand?.map fun command =>
      ⟨command, s.waiting n, (s'.sent n).drop (s.sent n).length⟩
  | _ => none

/-- What happens next when all commands go to the workspace `w`, and the server of its first channel
`n` stays alive: it takes what is written to it, and the stream from it does not end. Nothing else
about the session is limited until its servers are stopped. A line that is no command is passed over
(`skipped`). A command goes to the workspace. A server that is started for it has been written
nothing (`served`). The reader of the lines goes on with the command in hand (`pursued`). A message
of the server arrives (`heard`). A request to the server that nobody waits for any more leaves the
table (`abandoned`). Something happens that has nothing to do with the channel: an inquiry is
answered or given up, an event is written, or another server does something or is gone
(`elsewhere`). -/
inductive Steady (w n : Nat) : Session → Session → Prop where
  | skipped {s : Session} {line : String} {rest : List String} (task : s.task = .reading)
      (next : s.input = line :: rest) (junk : Command.parse? line = none) :
      Steady w n s { s with input := rest }
  | served {s : Session} {line : String} {rest : List String} {command : Command} {hub : Hub Unit}
      {launch : Launch → Option Channel.Outlet}
      (blank : ∀ l outlet, launch l = some outlet → outlet.sent = [])
      (task : s.task = .reading) (next : s.input = line :: rest)
      (read : Command.parse? line = some command)
      (found : s.hub.workspaceFor launch (extensionOf command.request.file) s.console.root =
        (hub, some w)) :
      Steady w n s { s with hub, input := rest, task := .placed command w }
  | pursued {s s' : Session} (step : Step s s') (busy : s.task ≠ .reading)
      (moves : s'.task ≠ s.task) : Steady w n s s'
  | heard {s : Session} (value : Json) :
      Steady w n s { s with hub := s.hub.arrive n (.frame value) }
  | abandoned {s : Session} (id : Int64) : Steady w n s { s with hub := s.hub.abandon n id }
  | elsewhere {s s' : Session} (step : Step s s') (input : s'.input = s.input)
      (task : s'.task = s.task) (same : s'.hub.channel? n = s.hub.channel? n) : Steady w n s s'

/-- A run of a session with a steady server, and what has come of the commands. -/
inductive Course (w n : Nat) (s₀ : Session) : Session → List Ruling → Prop where
  | start : Course w n s₀ s₀ []
  | step {s s' : Session} {log : List Ruling} (course : Course w n s₀ s log)
      (step : Steady w n s s') : Course w n s₀ s' (log ++ (ruling? n s s').toList)

/-- How the commands that are completed are on the wire. Some of the lines have been taken
(`lines`). The workspace had been told of no file when it was started (`fresh`). It is the one that
the commands go to, and the channel is its first one (`workspace`). The reader is done with all the
commands that are completed, but for the one in hand (`commands`). All the commands in the lines are
completed but for the last one, which the bridge may die of (`latest`). What has been written on the
channel but for formalities has been written for them in turn (`frames`). Each of them has come to
what it may come to (`fair`). -/
structure Orderly (lines : List String) (s : Session) (log : List Ruling) (taken : List String)
    (pad : Workspace) : Prop where
  lines : lines = taken ++ s.input
  fresh : pad.versions = []
  workspace : ∀ v, s.hub.workspace? 0 = some v → v.spec = pad.spec ∧ v.primary = 0
  commands : log.map Ruling.command ++ s.inHand?.toList =
    pad.completed (taken.filterMap Command.parse?)
  latest : pad.CompletesAll (taken.filterMap Command.parse?).dropLast
  frames : spoken (s.sent 0) = log.flatMap Ruling.frames
  fair : ∀ earlier r later, log = earlier ++ r :: later → r.IsFair earlier

/-- How the commands among the lines are on the wire if all of them are completed. The reader is
done with all the commands in the lines, but for the one in hand (`all`). -/
structure InOrder (lines : List String) (s : Session) (log : List Ruling) (taken : List String)
    (pad : Workspace) : Prop extends Orderly lines s log taken pad where
  all : pad.CompletesAll (taken.filterMap Command.parse?)

/-! ### Steps -/

variable {w n : Nat} {s s' : Session} {log : List Ruling} {pad : Workspace}
  {commands : List Command}

/-- A steady server is a server: what happens next may happen in any session. -/
theorem Steady.step (steady : Steady w n s s') : Step s s' := by
  cases steady with
  | skipped task next junk => exact .skipped task next junk
  | served blank task next read found => exact .served _ task next read found
  | pursued step busy moves => exact step
  | heard value => exact .arrived n (.frame value)
  | abandoned id => exact .abandoned n id
  | elsewhere step input task same => exact step

theorem Course.run {s₀ : Session} (course : Course w n s₀ s log) : Run s₀ s := by
  induction course with
  | start => exact .refl
  | step _ step ih => exact ih.tail step.step

theorem inHand?_of_reading (task : s.task = .reading) : s.inHand? = none := by
  rw [inHand?, task]

theorem inHand?_of_placed {command : Command} {workspace : Nat} {v : Workspace}
    (task : s.task = .placed command workspace) (found : s.hub.workspace? workspace = some v) :
    s.inHand? = (v.prepare command).2 := by
  simp only [inHand?, task, found, Option.bind_some]

theorem ruling?_of_same (task : s'.task = s.task) : ruling? n s s' = none := by
  rw [ruling?, task]
  cases now : s.task with
  | reading => rw [inHand?_of_reading now]; rfl
  | _ => rfl

theorem ruling?_of_busy (busy : s'.task ≠ .reading) : ruling? n s s' = none := by
  rw [ruling?]
  split
  · next reading => exact absurd reading busy
  · rfl

theorem sent_of_channel? {c : Channel} (there : s.hub.channel? n = some c) :
    s.sent n = c.outlet.sent := by
  rw [sent, there]
  rfl

theorem waiting_of_channel? {c : Channel} (there : s.hub.channel? n = some c) :
    s.waiting n = c.exchange.pending := by
  rw [waiting, there]
  rfl

/-- Only a reader with nothing in hand takes a line. -/
theorem Step.input_of_busy (step : Step s s') (busy : s.task ≠ .reading) :
    s'.input = s.input := by
  cases step with
  | skipped reading _ _ => exact absurd reading busy
  | unserved _ reading _ _ _ _ => exact absurd reading busy
  | ignored _ reading _ _ _ _ => exact absurd reading busy
  | served _ reading _ _ _ => exact absurd reading busy
  | _ => rfl

/-- What leaves the reader of the lines alone touches no workspace. -/
theorem Step.beside (step : Step s s') (input : s'.input = s.input) (task : s'.task = s.task) :
    s'.hub.workspaces = s.hub.workspaces ∧ s'.hub.links.length = s.hub.links.length := by
  have shorter {line : String} {rest : List String} (next : s.input = line :: rest)
      (same : rest = s.input) : False :=
    List.cons_ne_self line rest (next.symm.trans same.symm)
  have acted (m : Nat) (act : Channel → Channel × List Channel.Effect × Unit) :
      (s.hub.onChannel m () act).1.workspaces = s.hub.workspaces ∧
        (s.hub.onChannel m () act).1.links.length = s.hub.links.length := by
    refine ⟨Hub.workspaces_onChannel m () act, ?_⟩
    cases found : s.hub.links[m]? with
    | none => rw [Hub.onChannel, found]
    | some link =>
        rw [(Hub.onChannel_frame () act found).1, Hub.setChannel, List.length_modify]
  cases step with
  | skipped _ next _ => exact (shorter next input).elim
  | unserved _ _ next _ _ _ => exact (shorter next input).elim
  | ignored _ _ next _ _ _ => exact (shorter next input).elim
  | served _ _ next _ _ => exact (shorter next input).elim
  | told busy _ _ => cases task.trans busy
  | died busy _ => cases task.trans busy
  | prepared _ busy _ _ => cases task.trans busy
  | unsayable busy _ => cases task.trans busy
  | refused busy _ _ => cases task.trans busy
  | enrolled busy _ _ => cases task.trans busy
  | written busy _ => cases task.trans busy
  | unwritten busy _ => cases task.trans busy
  | closed reading _ _ => cases task.trans reading
  | answered => exact ⟨rfl, rfl⟩
  | expired => exact ⟨rfl, rfl⟩
  | reported => exact ⟨rfl, rfl⟩
  | abandoned => exact acted _ _
  | arrived => exact acted _ _
  | disturbed => exact acted _ _

end Session

end Console

end EditorBridge
