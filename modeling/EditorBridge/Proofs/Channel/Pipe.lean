import Mathlib.Logic.Relation
import EditorBridge.Proofs.Channel.Reading
import EditorBridge.Proofs.Rpc.Pieces

/-!
# A server, its pipe, and the reader at the other end

A server writes into a pipe and exits when it likes, and the pipe keeps what is written until it is
read. The reader looks at the pipe as soon as a look can be completed, and sees whether the server
has exited whenever it has found a blank line. So it matters where the reader is when the server
exits: what stands behind a blank line after which the reader finds the server gone is lost, and
nothing else is (`accounted`). A server that writes no blank lines may exit when it likes.
-/

namespace EditorBridge.Channel

open Rpc (FrameRead)
open Rpc.Frame (Looks Piece read read_nil read_piece)

/-- What a reader at the end of a pipe does next (`ProcessTransport::reader_task`): it looks at the
pipe and publishes what it finds, after a blank line it sees whether the server has exited, it sees
whether it has been asked to stop, it marks the server as gone, it publishes that it has ended, or
it does nothing any more. -/
inductive Pipe.Stage where
  | looking
  | checking
  | asking
  | marking (why : Reason)
  | ending (why : Reason)
  | done (why : Reason)
  deriving DecidableEq

/-- Whether a reader has nothing to do any more. -/
def Pipe.Stage.isDone : Stage → Bool
  | done _ => true
  | _ => false

/-- Why a reader stops, if it has left the pipe. -/
def Pipe.Stage.reason? : Stage → Option Reason
  | marking why | ending why | done why => some why
  | _ => none

/-- A pipe with a server at one end and a reader at the other: what the server has written, what of
it has not been read yet, whether the server can still write and whether it has exited, what the
reader has published and does next, whether the server counts as running, whether the reader has
been asked to stop, and whether somebody takes what it publishes. -/
structure Pipe where
  written : List UInt8
  unread : List UInt8
  isOpen : Bool
  hasExited : Bool
  published : List Arrival
  stage : Pipe.Stage
  isAlive : Bool
  isAsked : Bool
  isHeard : Bool

namespace Pipe

/-- A server and a reader that have just been started. -/
def start : Pipe :=
  ⟨[], [], true, false, [], .looking, true, false, true⟩

/-- Whether these bytes may still be written into a pipe. -/
def MayCome (p : Pipe) (more : List UInt8) : Prop :=
  p.isOpen = false → more = []

/-- Whether a look at a pipe is completed by what is in it, and what it finds and leaves, whatever
may still come. -/
def Finds (p : Pipe) (found : FrameRead) (rest : List UInt8) : Prop :=
  ∀ more, p.MayCome more → read (p.unread ++ more) = .ok (found, rest ++ more)

/-- A step of the server, of the reader, or of somebody else (`ProcessTransport::reader_task`). The
server writes as long as its output is open; it may close it and go on, but not after its exit. The
reader publishes a message if somebody listens (`publish`, `miss`), passes over a frame without a
body (`pass`), comes to the end of the pipe only when the output is closed (`exhaust`), and gives up
when whatever may still come leaves what it sees broken (`stumble`). After a blank line it first
sees whether the server has exited (`pause`, `stay`, `desert`), and after everything else whether it
has been asked to stop (`proceed`, `obey`). In the end it marks the server as gone before it
publishes that it has ended (`mark`, `finish`). -/
inductive Step (p : Pipe) : Pipe → Prop
  | write (bytes : List UInt8) (canWrite : p.isOpen = true) :
      Step p { p with written := p.written ++ bytes, unread := p.unread ++ bytes }
  | close : Step p { p with isOpen := false }
  | exit : Step p { p with isOpen := false, hasExited := true }
  | publish {value : Json} {rest : List UInt8} (looking : p.stage = .looking)
      (finds : p.Finds (.message value) rest) (heard : p.isHeard = true) :
      Step p { p with
        unread := rest, published := p.published ++ [.frame value], stage := .asking }
  | miss {value : Json} {rest : List UInt8} (looking : p.stage = .looking)
      (finds : p.Finds (.message value) rest) (unheard : p.isHeard = false) :
      Step p { p with stage := .marking .unheard }
  | pass {rest : List UInt8} (looking : p.stage = .looking) (finds : p.Finds .empty rest) :
      Step p { p with unread := rest, stage := .asking }
  | pause {rest : List UInt8} (looking : p.stage = .looking) (finds : p.Finds .idle rest) :
      Step p { p with unread := rest, stage := .checking }
  | exhaust {rest : List UInt8} (looking : p.stage = .looking) (isShut : p.isOpen = false)
      (finds : p.Finds .closed rest) : Step p { p with stage := .marking .exhausted }
  | stumble (looking : p.stage = .looking)
      (broken : ∀ more, p.MayCome more → ∃ e, read (p.unread ++ more) = .error e) :
      Step p { p with stage := .marking .broken }
  | stay (checking : p.stage = .checking) (there : p.hasExited = false) :
      Step p { p with stage := .asking }
  | desert (checking : p.stage = .checking) (gone : p.hasExited = true) :
      Step p { p with stage := .marking .deserted }
  | proceed (asking : p.stage = .asking) (notAsked : p.isAsked = false) :
      Step p { p with stage := .looking }
  | obey (asking : p.stage = .asking) (asked : p.isAsked = true) :
      Step p { p with stage := .marking .asked }
  | mark {why : Reason} (marking : p.stage = .marking why) :
      Step p { p with isAlive := false, stage := .ending why }
  | finish {why : Reason} (ending : p.stage = .ending why) :
      Step p { p with
        published := if p.isHeard then p.published ++ [.ended] else p.published
        stage := .done why }
  | ask : Step p { p with isAsked := true }
  | leave : Step p { p with isHeard := false }

/-- Whether a pipe is reached from the start of its server and its reader. -/
def IsReached (p : Pipe) : Prop :=
  Relation.ReflTransGen Step start p

/-! ### What always holds -/

/-- What is so if a reader with these looks behind it stops for a reason. -/
def Stops (founds : List FrameRead) (p : Pipe) : Reason → Prop
  | .exhausted => ∃ rest, p.isOpen = false ∧ p.Finds .closed rest
  | .broken => ∀ more, p.MayCome more → ∃ e, read (p.unread ++ more) = .error e
  | .deserted => p.hasExited = true ∧ ∃ before, founds = before ++ [.idle]
  | .asked => p.isAsked = true
  | .unheard => p.isHeard = false

/-- What always holds when looks have found these: they lead from what was written to what is
unread, whatever may still come. -/
structure Sound (founds : List FrameRead) (p : Pipe) : Prop where
  looks : ∀ more, p.MayCome more → Looks (p.written ++ more) founds (p.unread ++ more)
  published : p.published = Reading.frames founds ∧
      (p.stage.isDone = true → p.isHeard = false) ∨
    p.published = Reading.frames founds ++ [.ended] ∧ p.stage.isDone = true
  stops : ∀ why, p.stage.reason? = some why → p.Stops founds why
  paused : p.stage = .checking → ∃ before, founds = before ++ [.idle]

variable {p q : Pipe} {founds : List FrameRead}

theorem sound_start : start.Sound [] :=
  ⟨fun more _ => .none more, .inl ⟨rfl, nofun⟩, nofun, nofun⟩

/-- What others do changes nothing that the reader has done, nor the reasons for it. -/
theorem Sound.others (sound : p.Sound founds) (written : q.written = p.written)
    (unread : q.unread = p.unread) (published : q.published = p.published)
    (stage : q.stage = p.stage) (shut : p.isOpen = false → q.isOpen = false)
    (exited : p.hasExited = true → q.hasExited = true)
    (asked : p.isAsked = true → q.isAsked = true)
    (heard : p.isHeard = false → q.isHeard = false) : q.Sound founds := by
  have mayCome : ∀ {more}, q.MayCome more → p.MayCome more := fun may isShut => may (shut isShut)
  refine ⟨fun more may => ?_, ?_, fun why there => ?_, stage ▸ sound.paused⟩
  · rw [written, unread]
    exact sound.looks more (mayCome may)
  · rw [published, stage]
    exact sound.published.imp_left fun ⟨all, left⟩ => ⟨all, fun done => heard (left done)⟩
  · have stops := sound.stops why (stage ▸ there)
    cases why with
    | exhausted =>
        obtain ⟨rest, isShut, finds⟩ := stops
        refine ⟨rest, shut isShut, fun more may => ?_⟩
        rw [unread]
        exact finds more (mayCome may)
    | broken =>
        intro more may
        rw [unread]
        exact stops more (mayCome may)
    | deserted => exact ⟨exited stops.1, stops.2⟩
    | asked => exact asked stops
    | unheard => exact heard stops

/-- What the server writes comes behind everything that is there. -/
theorem Sound.write (sound : p.Sound founds) (bytes : List UInt8) (canWrite : p.isOpen = true) :
    { p with written := p.written ++ bytes, unread := p.unread ++ bytes }.Sound founds := by
  have mayCome : ∀ more, p.MayCome more := fun more isShut => by
    rw [canWrite] at isShut
    cases isShut
  refine ⟨fun more _ => ?_, sound.published, fun why there => ?_, sound.paused⟩
  · have looks := sound.looks (bytes ++ more) (mayCome _)
    rwa [← List.append_assoc, ← List.append_assoc] at looks
  · have stops := sound.stops why there
    cases why with
    | exhausted =>
        obtain ⟨rest, isShut, -⟩ := stops
        rw [canWrite] at isShut
        cases isShut
    | broken =>
        intro more _
        have broken := stops (bytes ++ more) (mayCome _)
        rwa [← List.append_assoc] at broken
    | deserted => exact stops
    | asked => exact stops
    | unheard => exact stops

theorem Sound.working (sound : p.Sound founds) (working : p.stage.isDone = false) :
    p.published = Reading.frames founds := by
  rcases sound.published with ⟨all, -⟩ | ⟨-, done⟩
  · exact all
  · rw [working] at done
    cases done

/-- The reader goes on after a look. -/
theorem Sound.finds (sound : p.Sound founds) {found : FrameRead} {rest : List UInt8} {next : Stage}
    (looking : p.stage = .looking) (finds : p.Finds found rest) (goesOn : found.isClosed = false)
    (on : next = .asking ∨ next = .checking ∧ found = .idle) :
    { p with
      unread := rest
      published := p.published ++ Reading.frames [found]
      stage := next }.Sound (founds ++ [found]) := by
  have all := sound.working (by rw [looking]; rfl)
  have notDone : next.isDone = false := by rcases on with rfl | ⟨rfl, -⟩ <;> rfl
  have inside : next.reason? = none := by rcases on with rfl | ⟨rfl, -⟩ <;> rfl
  refine ⟨fun more may => (sound.looks more may).concat (finds more may) goesOn, .inl ⟨?_, ?_⟩,
    fun why there => ?_, fun checking => ?_⟩
  · rw [Reading.frames_append, all]
  · intro done
    rw [notDone] at done
    cases done
  · rw [inside] at there
    cases there
  · rcases on with rfl | ⟨-, rfl⟩
    · cases checking
    · exact ⟨founds, rfl⟩

/-- The reader goes on. -/
theorem Sound.turns (sound : p.Sound founds) {next : Stage} (working : p.stage.isDone = false)
    (on : next = .looking ∨ next = .asking) : { p with stage := next }.Sound founds := by
  have notDone : next.isDone = false := by rcases on with rfl | rfl <;> rfl
  have inside : next.reason? = none := by rcases on with rfl | rfl <;> rfl
  refine ⟨sound.looks, .inl ⟨sound.working working, ?_⟩, fun why there => ?_, fun checking => ?_⟩
  · intro done
    rw [notDone] at done
    cases done
  · rw [inside] at there
    cases there
  · rcases on with rfl | rfl <;> cases checking

/-- The reader leaves the pipe for a reason. -/
theorem Sound.leaves (sound : p.Sound founds) (why : Reason) (working : p.stage.isDone = false)
    (stops : p.Stops founds why) : { p with stage := .marking why }.Sound founds := by
  refine ⟨sound.looks, .inl ⟨sound.working working, nofun⟩, fun other same => ?_, nofun⟩
  obtain rfl := Option.some.inj same
  cases why <;> exact stops

theorem Sound.step (sound : p.Sound founds) (step : p.Step q) : ∃ others, q.Sound others := by
  cases step with
  | write bytes canWrite => exact ⟨_, sound.write bytes canWrite⟩
  | close => exact ⟨_, sound.others rfl rfl rfl rfl (fun _ => rfl) id id id⟩
  | exit => exact ⟨_, sound.others rfl rfl rfl rfl (fun _ => rfl) (fun _ => rfl) id id⟩
  | publish looking finds heard => exact ⟨_, sound.finds looking finds rfl (.inl rfl)⟩
  | miss looking finds unheard =>
      exact ⟨_, sound.leaves .unheard (by rw [looking]; rfl) unheard⟩
  | pass looking finds =>
      have passed := sound.finds looking finds rfl (.inl rfl)
      rw [show Reading.frames [.empty] = [] from rfl, List.append_nil] at passed
      exact ⟨_, passed⟩
  | pause looking finds =>
      have paused := sound.finds looking finds rfl (.inr ⟨rfl, rfl⟩)
      rw [show Reading.frames [.idle] = [] from rfl, List.append_nil] at paused
      exact ⟨_, paused⟩
  | exhaust looking isShut finds =>
      exact ⟨_, sound.leaves .exhausted (by rw [looking]; rfl) ⟨_, isShut, finds⟩⟩
  | stumble looking broken => exact ⟨_, sound.leaves .broken (by rw [looking]; rfl) broken⟩
  | stay checking there => exact ⟨_, sound.turns (by rw [checking]; rfl) (.inr rfl)⟩
  | desert checking gone =>
      exact ⟨_, sound.leaves .deserted (by rw [checking]; rfl) ⟨gone, sound.paused checking⟩⟩
  | proceed asking notAsked => exact ⟨_, sound.turns (by rw [asking]; rfl) (.inl rfl)⟩
  | obey asking asked => exact ⟨_, sound.leaves .asked (by rw [asking]; rfl) asked⟩
  | @mark why marking =>
      have all := sound.working (by rw [marking]; rfl)
      refine ⟨founds, sound.looks, .inl ⟨all, nofun⟩, fun other same => ?_, nofun⟩
      obtain rfl := Option.some.inj same
      have stops := sound.stops why (by rw [marking]; rfl)
      cases why <;> exact stops
  | @finish why ending =>
      have all := sound.working (by rw [ending]; rfl)
      refine ⟨founds, sound.looks, ?_, fun other same => ?_, nofun⟩
      · cases heard : p.isHeard with
        | true => exact .inr ⟨congrArg (· ++ [Arrival.ended]) all, rfl⟩
        | false => exact .inl ⟨all, fun _ => rfl⟩
      · obtain rfl := Option.some.inj same
        have stops := sound.stops why (by rw [ending]; rfl)
        cases why <;> exact stops
  | ask => exact ⟨_, sound.others rfl rfl rfl rfl id id (fun _ => rfl) id⟩
  | leave => exact ⟨_, sound.others rfl rfl rfl rfl id id id (fun _ => rfl)⟩

theorem IsReached.sound (reached : p.IsReached) : ∃ founds, p.Sound founds := by
  induction reached with
  | refl => exact ⟨_, sound_start⟩
  | tail _ step ih =>
      obtain ⟨founds, sound⟩ := ih
      exact sound.step step

/-! ### What is accounted for -/

/-- What is published of pieces that are all read: the messages in their order. -/
def frames (pieces : List Piece) : List Arrival :=
  Reading.frames (pieces.map Piece.found)

theorem Sound.ended (sound : p.Sound founds) (ended : .ended ∈ p.published) :
    p.published = Reading.frames founds ++ [.ended] ∧ ∃ why, p.stage = .done why := by
  rcases sound.published with ⟨all, -⟩ | ⟨all, done⟩
  · exact absurd (all ▸ ended) (Reading.ended_notMem_frames founds)
  · refine ⟨all, ?_⟩
    cases stage : p.stage with
    | done why => exact ⟨why, rfl⟩
    | _ => rw [stage] at done; cases done

/-- A reader that has left because the server was gone saw that behind a blank line, and has
published no message since. -/
theorem IsReached.checked (reached : p.IsReached) :
    p.stage.reason? = some .deserted → ∃ q : Pipe, q.IsReached ∧
      Relation.ReflTransGen Step q p ∧ q.stage = .checking ∧ q.hasExited = true ∧
      (p.published = q.published ∨
        p.stage = .done .deserted ∧ p.published = q.published ++ [.ended]) := by
  induction reached with
  | refl => nofun
  | @tail p p' reach step ih =>
      have others (stage : p'.stage = p.stage) (published : p'.published = p.published)
          (left : p'.stage.reason? = some .deserted) : ∃ q : Pipe, q.IsReached ∧
            Relation.ReflTransGen Step q p' ∧ q.stage = .checking ∧ q.hasExited = true ∧
              (p'.published = q.published ∨
                p'.stage = .done .deserted ∧ p'.published = q.published ++ [.ended]) := by
        obtain ⟨q, reached, steps, checking, gone, all⟩ := ih (stage ▸ left)
        exact ⟨q, reached, steps.tail step, checking, gone, by rwa [stage, published]⟩
      cases step with
      | write bytes canWrite => exact others rfl rfl
      | close => exact others rfl rfl
      | exit => exact others rfl rfl
      | ask => exact others rfl rfl
      | leave => exact others rfl rfl
      | publish | pass | pause | stay | proceed => nofun
      | miss | exhaust | stumble | obey => nofun
      | desert checking gone =>
          exact fun _ => ⟨p, reach, .single (.desert checking gone), checking, gone, .inl rfl⟩
      | @mark why marking =>
          intro left
          obtain rfl := Option.some.inj left
          obtain ⟨q, reached, steps, checking, gone, all⟩ := ih (by rw [marking]; rfl)
          refine ⟨q, reached, steps.tail (.mark marking), checking, gone, .inl ?_⟩
          rcases all with same | ⟨done, -⟩
          · exact same
          · cases marking.symm.trans done
      | @finish why ending =>
          intro left
          obtain rfl := Option.some.inj left
          obtain ⟨q, reached, steps, checking, gone, all⟩ := ih (by rw [ending]; rfl)
          refine ⟨q, reached, steps.tail (.finish ending), checking, gone, ?_⟩
          rcases all with same | ⟨done, -⟩
          · cases heard : p.isHeard with
            | true => exact .inr ⟨rfl, congrArg (· ++ [Arrival.ended]) same⟩
            | false => exact .inl same
          · cases ending.symm.trans done

/-- Nothing comes behind the last piece, if looks only find that the stream is over or broken. -/
theorem eq_nil_of_read {behind : List Piece}
    (last : (∃ rest, read (behind.flatMap Piece.bytes) = .ok (.closed, rest)) ∨
      ∃ e, read (behind.flatMap Piece.bytes) = .error e) : behind = [] := by
  cases behind with
  | nil => rfl
  | cons piece behind =>
      rw [List.flatMap_cons, read_piece] at last
      rcases last with ⟨rest, closed⟩ | ⟨e, broken⟩
      · have goesOn := piece.isClosed_found
        rw [(Prod.mk.inj (Except.ok.inj closed)).1] at goesOn
        cases goesOn
      · cases broken

/-- When a reader that was not asked to stop, and that somebody has listened to, has published that
it has ended, then it has published the messages of all that the server wrote before that, in their
order; or it has come to one of the blank lines and has found then that the server had exited, and
it has published the messages in front of this line. -/
theorem accounted {p : Pipe} {pieces : List Piece} (reached : p.IsReached)
    (wrote : p.written = pieces.flatMap Piece.bytes) (notAsked : p.isAsked = false)
    (heard : p.isHeard = true) (ended : .ended ∈ p.published) :
    p.published = frames pieces ++ [.ended] ∨
      p.hasExited = true ∧ ∃ before line behind, pieces = before ++ line :: behind ∧
        line.isBlank = true ∧ p.published = frames before ++ [.ended] ∧
        ∃ q : Pipe, q.IsReached ∧ Relation.ReflTransGen Step q p ∧ q.hasExited = true ∧
          q.stage = .checking ∧ q.published = frames before := by
  obtain ⟨founds, sound⟩ := reached.sound
  obtain ⟨all, why, done⟩ := sound.ended ended
  have looks := sound.looks [] fun _ => rfl
  rw [List.append_nil, List.append_nil, wrote] at looks
  obtain ⟨front, behind, rfl, rfl, left⟩ := looks.pieces
  have stops := sound.stops why (by rw [done]; rfl)
  cases why with
  | exhausted =>
      obtain ⟨rest, -, finds⟩ := stops
      have once := finds [] fun _ => rfl
      rw [List.append_nil, left] at once
      obtain rfl := eq_nil_of_read (.inl ⟨_, once⟩)
      exact .inl (by rw [List.append_nil]; exact all)
  | broken =>
      obtain ⟨e, once⟩ := stops [] fun _ => rfl
      rw [List.append_nil, left] at once
      obtain rfl := eq_nil_of_read (.inr ⟨e, once⟩)
      exact .inl (by rw [List.append_nil]; exact all)
  | deserted =>
      obtain ⟨gone, before, last⟩ := stops
      obtain ⟨first, lines, rfl, rfl, blank⟩ := List.map_eq_append_iff.mp last
      obtain ⟨line, rfl, found⟩ := List.map_eq_singleton_iff.mp blank
      rw [List.map_append, Reading.frames_append, blank,
        show Reading.frames [.idle] = [] from rfl, List.append_nil] at all
      refine .inr ⟨gone, first, line, behind, by simp, Piece.found_eq_idle_iff.mp found, all, ?_⟩
      obtain ⟨q, came, steps, checking, exited, published⟩ := reached.checked (by rw [done]; rfl)
      refine ⟨q, came, steps, exited, checking, ?_⟩
      obtain ⟨founds, soundThen⟩ := came.sound
      have whole := soundThen.working (by rw [checking]; rfl)
      rcases published with same | ⟨-, more⟩
      · rw [same, whole] at ended
        exact absurd ended (Reading.ended_notMem_frames founds)
      · exact List.append_cancel_right (more.symm.trans all)
  | asked => exact absurd (notAsked.symm.trans stops) nofun
  | unheard => exact absurd (heard.symm.trans stops) nofun

theorem finds_piece {piece : Piece} {rest : List UInt8} (unread : p.unread = piece.bytes ++ rest) :
    p.Finds piece.found rest := by
  intro more _
  rw [unread, List.append_assoc, read_piece]

/-- The frame of the number five. -/
def five : Piece :=
  .wholeFrame (.ofValue (.int 5) ⟨by decide +kernel, by decide, by simp [Json.canonical]⟩)

/-- A server that writes a frame and exits before the reader has looked: the frame is published. -/
theorem accounted_five :
    ∃ p : Pipe, p.IsReached ∧ p.hasExited = true ∧ p.published = [.frame (.int 5), .ended] := by
  have wrote : Step start ⟨five.bytes, five.bytes, true, false, [], .looking, true, false, true⟩ :=
    .write five.bytes rfl
  have finds := @finds_piece
    ⟨five.bytes, five.bytes, false, true, [], .looking, true, false, true⟩ five []
    (List.append_nil _).symm
  have isOver : Finds ⟨five.bytes, [], false, true, [.frame (.int 5)], .looking, true, false, true⟩
      .closed [] := by
    intro more may
    rw [may rfl, List.append_nil, read_nil]
  have reached : IsReached
      ⟨five.bytes, [], false, true, [.frame (.int 5), .ended], .done .exhausted, false, false,
        true⟩ :=
    .head wrote (.head .exit (.head (.publish rfl finds rfl) (.head (.proceed rfl rfl)
      (.head (.exhaust rfl rfl isOver) (.head (.mark rfl) (.single (.finish rfl)))))))
  refine ⟨_, reached, rfl, ?_⟩
  rcases @accounted _ [five] reached (List.append_nil _).symm rfl rfl (by simp) with
    all | ⟨-, before, line, behind, split, blank, -⟩
  · exact all
  · -- There is no blank line.
    obtain rfl : line = five := List.mem_singleton.mp (by rw [split]; simp)
    exact absurd blank nofun

/-! ### What may be lost -/

/-- While the server is there, nothing keeps the reader from reading the next piece. -/
theorem reads_piece {piece : Piece} {rest : List UInt8} (looking : p.stage = .looking)
    (unread : p.unread = piece.bytes ++ rest) (there : p.hasExited = false)
    (notAsked : p.isAsked = false) (heard : p.isHeard = true) :
    Relation.ReflTransGen Step p
      { p with unread := rest, published := p.published ++ frames [piece] } := by
  have finds := finds_piece unread
  obtain ⟨written, stream, isOpen, hasExited, published, stage, isAlive, isAsked, isHeard⟩ := p
  obtain rfl : stage = .looking := looking
  have proceed := fun (q : Pipe) (asking : q.stage = .asking) (so : q.isAsked = false) =>
    Relation.ReflTransGen.single (Step.proceed asking so)
  cases piece with
  | blankLine line =>
      rw [show frames [.blankLine line] = [] from rfl, List.append_nil]
      exact .head (.pause rfl finds) (.head (.stay rfl there) (proceed _ rfl notAsked))
  | hollowFrame frame =>
      rw [show frames [.hollowFrame frame] = [] from rfl, List.append_nil]
      exact .head (.pass rfl finds) (proceed _ rfl notAsked)
  | wholeFrame frame => exact .head (.publish rfl finds heard) (proceed _ rfl notAsked)

theorem reads_through {pieces : List Piece} {rest : List UInt8} (looking : p.stage = .looking)
    (unread : p.unread = pieces.flatMap Piece.bytes ++ rest) (there : p.hasExited = false)
    (notAsked : p.isAsked = false) (heard : p.isHeard = true) :
    Relation.ReflTransGen Step p
      { p with unread := rest, published := p.published ++ frames pieces } := by
  induction pieces generalizing p with
  | nil =>
      have same : { p with unread := rest, published := p.published ++ frames [] } = p := by
        rw [show frames [] = [] from rfl, List.append_nil, show rest = p.unread from unread.symm]
      rw [same]
  | cons piece pieces ih =>
      rw [List.flatMap_cons, List.append_assoc] at unread
      have others : frames (piece :: pieces) = frames [piece] ++ frames pieces :=
        Reading.frames_append [piece.found] _
      rw [others, ← List.append_assoc]
      exact (reads_piece looking unread there notAsked heard).trans
        (ih (p := { p with
          unread := pieces.flatMap Piece.bytes ++ rest
          published := p.published ++ frames [piece] }) looking rfl there notAsked heard)

/-- Whatever a server writes, and whichever of its blank lines the reader comes to as the first one
after the exit of the server: what stands behind this line may be lost. -/
theorem exists_lost (before behind : List Piece) {line : Piece} (blank : line.isBlank = true) :
    ∃ p : Pipe, p.IsReached ∧ p.written = (before ++ line :: behind).flatMap Piece.bytes ∧
      p.isAsked = false ∧ p.isHeard = true ∧ p.published = frames before ++ [.ended] := by
  have split : (before ++ line :: behind).flatMap Piece.bytes =
      before.flatMap Piece.bytes ++ (line.bytes ++ behind.flatMap Piece.bytes) := by
    rw [List.flatMap_append, List.flatMap_cons]
  generalize (before ++ line :: behind).flatMap Piece.bytes = bytes at split
  have wrote : Step start ⟨bytes, bytes, true, false, [], .looking, true, false, true⟩ :=
    .write bytes rfl
  have read := reads_through (p := ⟨bytes, bytes, true, false, [], .looking, true, false, true⟩)
    rfl split rfl rfl rfl
  have finds := finds_piece
    (p := ⟨bytes, line.bytes ++ behind.flatMap Piece.bytes, false, true, frames before, .looking,
      true, false, true⟩) rfl
  rw [Piece.found_eq_idle_iff.mpr blank] at finds
  exact ⟨_, .head wrote (read.trans (.head .exit (.head (.pause rfl finds)
    (.head (.desert rfl rfl) (.head (.mark rfl) (.single (.finish rfl))))))), rfl, rfl, rfl, rfl⟩

/-- So not everything that is written is published, though nobody has asked the reader to stop and
somebody has listened. -/
theorem not_all_published :
    ¬ ∀ (p : Pipe) (pieces : List Piece), p.IsReached →
      p.written = pieces.flatMap Piece.bytes → p.isAsked = false → p.isHeard = true →
        .ended ∈ p.published → p.published = frames pieces ++ [.ended] := by
  intro all
  obtain ⟨p, reached, wrote, notAsked, heard, published⟩ :=
    @exists_lost [] [five] (.blankLine .withReturn) rfl
  have every := all p _ reached wrote notAsked heard (by rw [published]; simp)
  rw [published] at every
  have lengths := congrArg List.length every
  simp [frames, Reading.frames, five, Piece.found, FrameRead.message?] at lengths

end Pipe

end EditorBridge.Channel
