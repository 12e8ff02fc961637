import EditorBridge.Channel.Outlet
import EditorBridge.Proofs.Rpc.Padding

/-!
# What a reader publishes

A reader shares the outlet of its channel with those who write, and nothing holds it up: between any
two of its steps the server may exit, somebody may ask it to stop or write a message, or nobody may
listen any more. Whatever comes in between, it publishes the messages that one look at the output
after the other finds, until the output is over or broken, then that it has ended, and nothing else
(`faithful_run`). The state holds what is still unread, so the invariant is that the looks so far
lead from the whole output to there. Fillers between frames make no difference
(`messages_of_padded`).
-/

namespace EditorBridge

open Rpc (FrameRead)
open Rpc.Frame (Dangling Filler Looks Padded read_filler read_front)

namespace Channel.Reader

variable {s t rest boundary : List UInt8} {found : FrameRead} {founds : List FrameRead}

/-! ### The messages of a stream -/

theorem messages_of_read (look : Rpc.Frame.read s = .ok (found, rest))
    (goesOn : found.isClosed = false) :
    messages s = (found.message?.toList ++ (messages rest).1, (messages rest).2) := by
  rw [messages]
  split
  all_goals
    next form =>
      rw [turn, look] at form
      cases found <;> cases form <;> first | rfl | cases goesOn

theorem messages_of_looks (looks : Looks s founds boundary) :
    messages s = (founds.filterMap FrameRead.message? ++ (messages boundary).1,
      (messages boundary).2) := by
  induction looks with
  | none s => rfl
  | more look goesOn others ih =>
      rw [messages_of_read look goesOn, ih, List.filterMap_cons]
      cases FrameRead.message? _ <;> rfl

theorem messages_fill (filler : Filler) (t : List UInt8) :
    messages (filler.bytes ++ t) = messages t := by
  obtain ⟨found, goesOn, silent, look⟩ :=
    @read_filler [] t none rfl filler fun _ _ => rfl
  rw [List.nil_append] at look
  rw [messages_of_read look goesOn, silent]
  rfl

/-- Fillers that follow a blank line without its line feed. -/
theorem messages_of_dangling {front : List UInt8} (dangling : Dangling front)
    (padded : Padded s t) (atEnd : s = []) (filled : t ≠ []) :
    messages (front ++ t) = messages t := by
  cases padded with
  | same => exact absurd atEnd filled
  | fill filler others =>
      obtain ⟨last, nothing, behind⟩ := dangling
      obtain ⟨found, goesOn, silent, look⟩ := read_filler nothing filler behind
      rw [messages_of_read look goesOn, silent, messages_fill]
      rfl
  | skip look goesOn others =>
      rw [atEnd, Rpc.Frame.read_nil] at look
      obtain ⟨rfl, -⟩ := Prod.mk.inj (Except.ok.inj look)
      cases goesOn

theorem messages_of_padded (padded : Padded s t) : messages t = messages s := by
  induction padded with
  | same s => rfl
  | fill filler others ih => rw [messages_fill, ih]
  | @skip front rest t found look goesOn others ih =>
      obtain ⟨before, split, reads⟩ := read_front look goesOn
      obtain rfl := List.append_cancel_right split
      rcases reads with whole | ⟨rfl, silent, dangling⟩
      · rw [messages_of_read (whole t) goesOn, messages_of_read look goesOn, ih]
      · rw [messages_of_read look goesOn, silent]
        -- What was put in goes on with the blank line, so the look ends with the first filler.
        by_cases filled : t = []
        · subst filled
          rw [messages_of_read look goesOn, silent]
        · rw [messages_of_dangling dangling others rfl filled, ih]
          rfl

/-- Between the fillers there is one message, and behind them the output is broken. -/
example : (messages (Text.Utf8.encode ("\r\nContent-Length: 0\r\n\r\n" ++
    "Content-Length: 1\r\n\r\n5 \nX: y\n\nx\n").toList)).1.map Json.chars = [['5']] := by
  decide +kernel

end Channel.Reader

namespace Channel

/-! ### A reader at work -/

/-- Why a reader stops: the output is over, it is broken and the server is killed, the server had
exited when there was a blank line, the reader was asked to, or nobody listens. -/
inductive Reason where
  | exhausted
  | broken
  | deserted
  | asked
  | unheard
  deriving DecidableEq

/-- What a reader does next (`ProcessTransport::reader_task`): it looks at the output and publishes
what it finds, it sees whether it has been asked to stop, it marks the server as gone, it publishes
that it has ended, or it does nothing any more. -/
inductive Stage where
  | looking
  | asking
  | marking (why : Reason)
  | ending (why : Reason)
  | done (why : Reason)
  deriving DecidableEq

/-- Whether a reader has nothing to do any more. -/
def Stage.isDone : Stage → Bool
  | done _ => true
  | _ => false

/-- Whether the server has been marked as gone. -/
def Stage.isMarked : Stage → Bool
  | ending _ | done _ => true
  | _ => false

/-- Why a reader stops, if it has left the output. -/
def Stage.reason? : Stage → Option Reason
  | marking why | ending why | done why => some why
  | _ => none

/-- A reader and what it shares with others (`ProcessTransport::reader_task`): the output that it
has not read yet, what it has published and does next, the outlet to the server, whether the server
has exited, whether the reader has been asked to stop, and whether somebody takes what it publishes.
-/
structure Reading where
  unread : List UInt8
  published : List Arrival
  stage : Stage
  outlet : Outlet
  hasExited : Bool
  isAsked : Bool
  isHeard : Bool

namespace Reading

/-- A reader that has just been started, with all that the server will ever put out. -/
def start (outlet : Outlet) (output : List UInt8) : Reading :=
  ⟨output, [], .looking, outlet, false, false, true⟩

/-- One look at the output. What is found when nobody listens is lost with the rest. -/
def look (s : Reading) : Reading :=
  match Reader.turn s.hasExited s.unread with
  | .publish value rest =>
      if s.isHeard then
        { s with unread := rest, published := s.published ++ [.frame value], stage := .asking }
      else { s with stage := .marking .unheard }
  | .pass rest => { s with unread := rest, stage := .asking }
  | .stop true => { s with stage := .marking .broken }
  | .stop false =>
      -- The reader would have gone on if the server had been there.
      if (Reader.turn false s.unread).rest?.isSome then { s with stage := .marking .deserted }
      else { s with stage := .marking .exhausted }

/-- The next step of the reader. -/
def advance (s : Reading) : Reading :=
  match s.stage with
  | .looking => s.look
  | .asking => { s with stage := if s.isAsked then .marking .asked else .looking }
  | .marking why =>
      { s with outlet := { s.outlet with isAlive := false }, stage := .ending why }
  | .ending why =>
      { s with
        published := if s.isHeard then s.published ++ [.ended] else s.published
        stage := .done why }
  | .done _ => s

/-- A step of the reader, or of somebody else: the server exits, or is stopped and the reader asked
to, nobody listens any more, a message to the server is written, or the outlet is shut or does not
take messages any more. -/
inductive Move where
  | advance
  | exit
  | ask
  | leave
  | write (message : Json)
  | shut
  | fail (reason : String)

/-- Whether a step is one of the reader. -/
def Move.isAdvance : Move → Bool
  | advance => true
  | _ => false

/-- What a step leads to. -/
def step (s : Reading) : Move → Reading
  | .advance => s.advance
  | .exit => { s with hasExited := true }
  | .ask => { s with isAsked := true, outlet := { s.outlet with isAlive := false } }
  | .leave => { s with isHeard := false }
  | .write message => { s with outlet := (s.outlet.write message).1 }
  | .shut => { s with outlet := s.outlet.shut }
  | .fail reason => { s with outlet := { s.outlet with failing := some reason } }

/-- What steps lead to. -/
def run (s : Reading) (moves : List Move) : Reading :=
  moves.foldl step s

/-- What is published of some looks. -/
def frames (founds : List FrameRead) : List Arrival :=
  (founds.filterMap FrameRead.message?).map .frame

variable {output rest : List UInt8} {s : Reading} {why : Reason}

theorem frames_append (founds others : List FrameRead) :
    frames (founds ++ others) = frames founds ++ frames others := by
  rw [frames, List.filterMap_append, List.map_append]
  rfl

/-- A look finds the end of the output or something wrong, or a blank line when the server has
exited, or a message that nobody takes, or the reader goes on with the rest. -/
theorem look_cases (s : Reading) :
    (∃ e, Rpc.Frame.read s.unread = .error e ∧ s.look = { s with stage := .marking .broken }) ∨
    (∃ rest, Rpc.Frame.read s.unread = .ok (.closed, rest) ∧
      s.look = { s with stage := .marking .exhausted }) ∨
    (∃ rest, Rpc.Frame.read s.unread = .ok (.idle, rest) ∧ s.hasExited = true ∧
      s.look = { s with stage := .marking .deserted }) ∨
    (s.isHeard = false ∧ s.look = { s with stage := .marking .unheard }) ∨
    ∃ found rest, Rpc.Frame.read s.unread = .ok (found, rest) ∧ found.isClosed = false ∧
      s.look = { s with
        unread := rest, published := s.published ++ frames [found], stage := .asking } := by
  rcases once : Rpc.Frame.read s.unread with e | ⟨found, rest⟩
  · exact .inl ⟨e, rfl, by rw [look, Reader.turn, once]⟩
  · cases found with
    | closed =>
        refine .inr (.inl ⟨rest, rfl, ?_⟩)
        rw [look, Reader.turn, Reader.turn, once]
        rfl
    | idle =>
        cases gone : s.hasExited with
        | true =>
            refine .inr (.inr (.inl ⟨rest, rfl, rfl, ?_⟩))
            rw [look, Reader.turn, Reader.turn, once, gone]
            rfl
        | false =>
            refine .inr (.inr (.inr (.inr ⟨.idle, rest, rfl, rfl, ?_⟩)))
            rw [look, Reader.turn, once, gone]
            simp [frames, FrameRead.message?]
    | empty =>
        refine .inr (.inr (.inr (.inr ⟨.empty, rest, rfl, rfl, ?_⟩)))
        rw [look, Reader.turn, once]
        simp [frames, FrameRead.message?]
    | message value =>
        cases heard : s.isHeard with
        | true =>
            refine .inr (.inr (.inr (.inr ⟨.message value, rest, rfl, rfl, ?_⟩)))
            rw [look, Reader.turn, once, heard]
            rfl
        | false =>
            refine .inr (.inr (.inr (.inl ⟨rfl, ?_⟩)))
            rw [look, Reader.turn, once, heard]
            rfl

/-! ### What always holds -/

/-- What is so if a reader stops for a reason. -/
def Stops (s : Reading) : Reason → Prop
  | .exhausted => ∃ rest, Rpc.Frame.read s.unread = .ok (.closed, rest)
  | .broken => ∃ e, Rpc.Frame.read s.unread = .error e
  | .deserted => s.hasExited = true ∧ ∃ rest, Rpc.Frame.read s.unread = .ok (.idle, rest)
  | .asked => s.isAsked = true
  | .unheard => s.isHeard = false

/-- What always holds of a reader: the looks so far lead to what is unread. -/
structure Sound (output : List UInt8) (s : Reading) : Prop where
  looks : ∃ founds, Looks output founds s.unread ∧
    (s.published = frames founds ∧ (s.stage.isDone = true → s.isHeard = false) ∨
      s.published = frames founds ++ [.ended] ∧ s.stage.isDone = true)
  stops : ∀ why, s.stage.reason? = some why → s.Stops why
  gone : s.stage.isMarked = true → s.outlet.isAlive = false

theorem sound_start (outlet : Outlet) (output : List UInt8) :
    (start outlet output).Sound output :=
  ⟨⟨[], .none output, .inl ⟨rfl, nofun⟩⟩, nofun, nofun⟩

/-- What others do does not change what the reader has done. -/
theorem Sound.others {s' : Reading} (sound : s.Sound output) (unread : s'.unread = s.unread)
    (published : s'.published = s.published) (stage : s'.stage = s.stage)
    (gone : s.outlet.isAlive = false → s'.outlet.isAlive = false)
    (exited : s.hasExited = true → s'.hasExited = true)
    (asked : s.isAsked = true → s'.isAsked = true)
    (heard : s.isHeard = false → s'.isHeard = false) : s'.Sound output := by
  refine ⟨?_, ?_, ?_⟩
  · rw [unread, published, stage]
    obtain ⟨founds, looks, so⟩ := sound.looks
    exact ⟨founds, looks, so.imp_left fun ⟨all, left⟩ => ⟨all, fun done => heard (left done)⟩⟩
  · intro why there
    have stops := sound.stops why (stage ▸ there)
    cases why with
    | exhausted => rw [Stops, unread]; exact stops
    | broken => rw [Stops, unread]; exact stops
    | deserted => rw [Stops, unread]; exact ⟨exited stops.1, stops.2⟩
    | asked => exact asked stops
    | unheard => exact heard stops
  · intro marked
    exact gone (sound.gone (stage ▸ marked))

theorem Sound.working (sound : s.Sound output) (working : s.stage.isDone = false) :
    ∃ founds, Looks output founds s.unread ∧ s.published = frames founds := by
  obtain ⟨founds, looks, ⟨all, -⟩ | ⟨-, done⟩⟩ := sound.looks
  · exact ⟨founds, looks, all⟩
  · rw [working] at done
    cases done

/-- The reader leaves the output for a reason. -/
theorem Sound.leave (sound : s.Sound output) (why : Reason) (working : s.stage.isDone = false)
    (stops : s.Stops why) : { s with stage := .marking why }.Sound output := by
  obtain ⟨founds, looks, all⟩ := sound.working working
  refine ⟨⟨founds, looks, .inl ⟨all, nofun⟩⟩, ?_, nofun⟩
  intro other same
  obtain rfl := Option.some.inj same
  cases why <;> exact stops

theorem Sound.look (sound : s.Sound output) (looking : s.stage = .looking) :
    s.look.Sound output := by
  have working : s.stage.isDone = false := by rw [looking]; rfl
  rcases look_cases s with ⟨e, once, result⟩ | ⟨rest, once, result⟩ | ⟨rest, once, gone, result⟩ |
    ⟨left, result⟩ | ⟨found, rest, once, goesOn, result⟩
  · exact result ▸ sound.leave .broken working ⟨e, once⟩
  · exact result ▸ sound.leave .exhausted working ⟨rest, once⟩
  · exact result ▸ sound.leave .deserted working ⟨gone, rest, once⟩
  · exact result ▸ sound.leave .unheard working left
  · obtain ⟨founds, looks, all⟩ := sound.working working
    rw [result]
    refine ⟨⟨founds ++ [found], looks.concat once goesOn, .inl ⟨?_, nofun⟩⟩, nofun, nofun⟩
    rw [frames_append, ← all]

theorem Sound.advance (sound : s.Sound output) : s.advance.Sound output := by
  rw [Reading.advance]
  split
  · next looking => exact sound.look looking
  · next asking =>
      have working : s.stage.isDone = false := by rw [asking]; rfl
      split
      · next asked => exact sound.leave .asked working asked
      · obtain ⟨founds, looks, all⟩ := sound.working working
        exact ⟨⟨founds, looks, .inl ⟨all, nofun⟩⟩, nofun, nofun⟩
  · next why marking =>
      have stops := sound.stops why (by rw [marking]; rfl)
      obtain ⟨founds, looks, all⟩ := sound.working (by rw [marking]; rfl)
      refine ⟨⟨founds, looks, .inl ⟨all, nofun⟩⟩, ?_, fun _ => rfl⟩
      intro other same
      obtain rfl := Option.some.inj same
      cases why <;> exact stops
  · next why ending =>
      have stops := sound.stops why (by rw [ending]; rfl)
      have gone := sound.gone (by rw [ending]; rfl)
      obtain ⟨founds, looks, all⟩ := sound.working (by rw [ending]; rfl)
      refine ⟨⟨founds, looks, ?_⟩, ?_, fun _ => gone⟩
      · dsimp only
        cases heard : s.isHeard with
        | true => exact .inr ⟨congrArg (· ++ [Arrival.ended]) all, rfl⟩
        | false => exact .inl ⟨all, fun _ => rfl⟩
      · intro other same
        obtain rfl := Option.some.inj same
        cases why <;> exact stops
  · exact sound

theorem Sound.step (sound : s.Sound output) (move : Move) : (s.step move).Sound output := by
  cases move with
  | advance => exact sound.advance
  | exit => exact sound.others rfl rfl rfl id (fun _ => rfl) id id
  | ask => exact sound.others rfl rfl rfl (fun _ => rfl) id (fun _ => rfl) id
  | leave => exact sound.others rfl rfl rfl id id id (fun _ => rfl)
  | write message =>
      refine sound.others rfl rfl rfl (fun gone => ?_) id id id
      rw [Reading.step, Outlet.write]
      cases s.outlet.refusal? <;> exact gone
  | shut => exact sound.others rfl rfl rfl id id id id
  | fail reason => exact sound.others rfl rfl rfl id id id id

theorem sound_run (sound : s.Sound output) (moves : List Move) : (s.run moves).Sound output := by
  induction moves generalizing s with
  | nil => exact sound
  | cons move moves ih => exact ih (sound.step move)

/-! ### The end -/

theorem step_of_done (done : s.stage = .done why) (move : Move) :
    (s.step move).stage = .done why ∧ (s.step move).published = s.published := by
  cases move with
  | advance =>
      rw [Reading.step, Reading.advance, done]
      exact ⟨done, rfl⟩
  | _ => exact ⟨done, rfl⟩

/-- A reader that is done stays so. -/
theorem run_of_done (done : s.stage = .done why) (moves : List Move) :
    (s.run moves).stage = .done why ∧ (s.run moves).published = s.published := by
  induction moves generalizing s with
  | nil => exact ⟨done, rfl⟩
  | cons move moves ih =>
      obtain ⟨still, same⟩ := step_of_done done move
      exact ⟨(ih still).1, (ih still).2.trans same⟩

/-- How many steps a reader takes at most. -/
def rank (s : Reading) : Nat :=
  match s.stage with
  | .looking => 2 * s.unread.length + 4
  | .asking => 2 * s.unread.length + 5
  | .marking _ => 2
  | .ending _ => 1
  | .done _ => 0

theorem rank_advance (s : Reading) : s.advance.rank ≤ s.rank - 1 := by
  rw [advance]
  cases stage : s.stage with
  | looking =>
      rw [rank, rank, stage]
      dsimp only
      rcases look_cases s with ⟨e, -, result⟩ | ⟨rest, -, result⟩ | ⟨rest, -, -, result⟩ |
        ⟨-, result⟩ | ⟨found, rest, once, goesOn, result⟩
      all_goals rw [result]; dsimp only
      · omega
      · omega
      · omega
      · omega
      · have shorter := Reader.length_read_lt once fun same => by
          rw [same] at goesOn
          cases goesOn
        omega
  | asking =>
      rw [rank, rank, stage]
      dsimp only
      cases s.isAsked with
      | true => simp
      | false => simp
  | marking why => simp [rank, stage]
  | ending why => simp [rank, stage]
  | done why => simp [rank, stage]

theorem rank_step (s : Reading) {move : Move} (other : move.isAdvance = false) :
    (s.step move).rank = s.rank := by
  cases move with
  | advance => cases other
  | _ => rfl

/-- With enough steps of its own a reader is done, whatever comes in between. -/
theorem isDone_run (s : Reading) (moves : List Move)
    (enough : s.rank ≤ moves.countP Move.isAdvance) : (s.run moves).stage.isDone = true := by
  induction moves generalizing s with
  | nil =>
      rw [List.countP_nil] at enough
      cases stage : s.stage with
      | done why => rw [run, List.foldl_nil, stage]; rfl
      | _ => simp [rank, stage] at enough
  | cons move moves ih =>
      refine ih (s.step move) ?_
      cases own : move.isAdvance with
      | false =>
          rw [List.countP_cons, own] at enough
          rw [rank_step s own]
          simpa using enough
      | true =>
          cases move with
          | advance =>
              have less : (s.step .advance).rank ≤ s.rank - 1 := rank_advance s
              rw [List.countP_cons, own, if_pos rfl] at enough
              omega
          | _ => cases own

/-- Whether a reader has come to the end on its own: it was not asked to stop, somebody has listened
all the time, and the server was there whenever there was a blank line. -/
def IsWhole (s : Reading) : Prop :=
  (∃ why, s.stage = .done why ∧ why ≠ .deserted) ∧ s.isAsked = false ∧ s.isHeard = true

/-- Whether the next look at an output finds its end or something wrong. -/
def IsLast (output : List UInt8) : Prop :=
  (∃ rest, Rpc.Frame.read output = .ok (.closed, rest)) ∨ ∃ e, Rpc.Frame.read output = .error e

theorem messages_of_isLast (last : IsLast output) : (Reader.messages output).1 = [] := by
  have stops : ∃ isBroken, Reader.turn false output = .stop isBroken := by
    rcases last with ⟨rest, once⟩ | ⟨e, once⟩
    · exact ⟨false, by rw [Reader.turn, once]⟩
    · exact ⟨true, by rw [Reader.turn, once]⟩
  obtain ⟨isBroken, stop⟩ := stops
  rw [Reader.messages]
  split
  · next form => rw [stop] at form; cases form
  · next form => rw [stop] at form; cases form
  · rfl

theorem ended_notMem_frames (founds : List FrameRead) : Arrival.ended ∉ frames founds := by
  rw [frames, List.mem_map]
  rintro ⟨value, -, same⟩
  cases same

theorem Sound.isDone_of_ended (sound : s.Sound output) (ended : .ended ∈ s.published) :
    s.stage.isDone = true := by
  obtain ⟨founds, -, ⟨all, -⟩ | ⟨-, done⟩⟩ := sound.looks
  · exact absurd (all ▸ ended) (ended_notMem_frames founds)
  · exact done

theorem Sound.ended (sound : s.Sound output) (done : s.stage.isDone = true)
    (heard : s.isHeard = true) :
    ∃ founds, Looks output founds s.unread ∧ s.published = frames founds ++ [.ended] := by
  obtain ⟨founds, looks, ⟨-, left⟩ | ⟨all, -⟩⟩ := sound.looks
  · rw [left done] at heard
    cases heard
  · exact ⟨founds, looks, all⟩

theorem Sound.isLast (sound : s.Sound output) (whole : s.IsWhole) : IsLast s.unread := by
  obtain ⟨⟨why, done, there⟩, notAsked, heard⟩ := whole
  have stops := sound.stops why (by rw [done]; rfl)
  cases why with
  | exhausted => exact .inl stops
  | broken => exact .inr stops
  | deserted => exact absurd rfl there
  | asked => exact absurd (notAsked.symm.trans stops) nofun
  | unheard => exact absurd (heard.symm.trans stops) nofun

theorem Sound.published_of_isWhole (sound : s.Sound output) (whole : s.IsWhole) :
    s.published = Reader.arrivals output := by
  have last := sound.isLast whole
  obtain ⟨⟨why, done, -⟩, -, heard⟩ := whole
  obtain ⟨founds, looks, all⟩ := sound.ended (by rw [done]; rfl) heard
  rw [Reader.arrivals, Reader.messages_of_looks looks, messages_of_isLast last, List.append_nil]
  exact all

/-- What is promised of a reader of an output, whatever comes between its steps. Until it is done it
has published the messages of its looks so far, each as one frame and in their order (`meanwhile`).
When it has come to the end on its own, the looks have gone up to the end of the output or to what
is wrong with it, and behind their messages it has published that it has ended (`whole`). It comes
to the end on its own, unless it is asked to stop, or nobody listens any more, or the server has
exited and there is a blank line (`reason`). When it has published that it has ended, it publishes
nothing any more, and nothing is written to the server any more (`settled`). With enough steps of
its own it is done (`finishes`). A reader of the same output with fillers in it publishes the same
(`padded`). -/
structure Faithful (output : List UInt8) (s : Reading) : Prop where
  meanwhile : s.stage.isDone = false → ∃ founds, Looks output founds s.unread ∧
    s.published = frames founds
  whole : s.IsWhole → ∃ founds, Looks output founds s.unread ∧ IsLast s.unread ∧
    s.published = frames founds ++ [.ended]
  reason : ∀ why, s.stage = .done why → s.IsWhole ∨ s.isAsked = true ∨ s.isHeard = false ∨
    s.hasExited = true ∧ ∃ rest, Rpc.Frame.read s.unread = .ok (.idle, rest)
  settled : .ended ∈ s.published → ∀ moves, (s.run moves).published = s.published ∧
    ∀ message, (s.run moves).outlet.write message =
      ((s.run moves).outlet, .error .notRunning)
  finishes : ∀ moves, 2 * s.unread.length + 5 ≤ moves.countP Move.isAdvance →
    (s.run moves).stage.isDone = true
  padded : ∀ other padded moves, Padded output padded → s.IsWhole →
    ((start other padded).run moves).IsWhole →
      ((start other padded).run moves).published = s.published

theorem faithful_run (outlet : Outlet) (output : List UInt8) (moves : List Move) :
    ((start outlet output).run moves).Faithful output := by
  have sound := sound_run (sound_start outlet output) moves
  generalize (start outlet output).run moves = s at sound
  refine ⟨sound.working, ?_, ?_, ?_, ?_, ?_⟩
  · intro whole
    have last := sound.isLast whole
    obtain ⟨⟨why, done, -⟩, -, heard⟩ := whole
    obtain ⟨founds, looks, all⟩ := sound.ended (by rw [done]; rfl) heard
    exact ⟨founds, looks, last, all⟩
  · intro why done
    have stops := sound.stops why (by rw [done]; rfl)
    by_cases there : why = .deserted
    · subst there
      exact .inr (.inr (.inr stops))
    · cases asked : s.isAsked with
      | true => exact .inr (.inl rfl)
      | false =>
          cases heard : s.isHeard with
          | true => exact .inl ⟨⟨why, done, there⟩, asked, heard⟩
          | false => exact .inr (.inr (.inl rfl))
  · intro ended moves
    have done := sound.isDone_of_ended ended
    cases stage : s.stage with
    | done why =>
        obtain ⟨still, same⟩ := run_of_done stage moves
        refine ⟨same, fun message => ?_⟩
        have gone := (sound_run sound moves).gone (by rw [still]; rfl)
        rw [Outlet.write, Outlet.refusal?, gone]
        rfl
    | _ => rw [stage] at done; cases done
  · intro moves enough
    refine isDone_run s moves (Nat.le_trans ?_ enough)
    rw [rank]
    cases s.stage <;> dsimp only <;> omega
  · intro other padded moves fillers whole whole'
    rw [(sound_run (sound_start other padded) moves).published_of_isWhole whole',
      sound.published_of_isWhole whole, Reader.arrivals, Reader.arrivals,
      Reader.messages_of_padded fillers]

end Reading

end Channel

end EditorBridge
