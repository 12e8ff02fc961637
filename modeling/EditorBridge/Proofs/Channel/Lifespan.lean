import EditorBridge.Channel.Basic
import EditorBridge.Proofs.Channel.Step
import Mathlib.Data.List.Basic
import Mathlib.Logic.Relation

/-!
# The lifespan of a channel

Several parties have a hand in the stage of a channel. The one who waits for the handshake notes
that the channel is ready, and thanks the server after that; whoever stops the server or takes leave
of it notes that the channel is dead; and the reader stops when the output ends. Whoever asks for
the stage looks first whether the server is there, and then at what has been noted. They all work
side by side, and `Lifespan.Step` is what one of them does next. To stop a server is one step, and
to note it is another. A party that is not disturbed does what the functions on channels do.

What has been noted may go back from dead to ready, for an answer to the handshake may be acted upon
after the server has been stopped. The stage never goes back (`stage_step`), since a server that is
gone does not return, and nobody notes that the channel is dead before it is gone (`Mortal`).
-/

namespace EditorBridge.Channel

/-- Not more than one thing comes of a message of the server. -/
theorem Exchange.length_receive_frame (x : Exchange) (v : Json) :
    (x.receive (.frame v)).2.length ≤ 1 := by
  rw [receive]
  split
  · exact Nat.zero_le _
  · cases Rpc.Incoming.classify? v with
    | none => exact Nat.zero_le _
    | some message =>
        cases message with
        | notification n =>
            simp only [take]
            cases EditorBridge.Event.ofNotification? n <;> simp
        | call c => exact Nat.le_refl _
        | response r =>
            simp only [take, resolve]
            cases r.id.bind Rpc.RequestId.number? with
            | none => exact Nat.zero_le _
            | some id =>
                simp only
                split
                · cases x.handshake <;> simp
                · cases x.find? id <;> simp

/-- The end of the stream asks nothing of the channel. -/
theorem foldl_carryOut_close (x : Exchange) (c : Channel) : x.close.2.foldl carryOut c = c := by
  rw [Exchange.close, List.foldl_append, List.foldl_map]
  have released : x.pending.foldl (fun c p => carryOut c (.released p.ticket)) c = c :=
    List.foldl_fixed' (fun _ => rfl) _
  rw [released]
  cases x.handshake <;> rfl

/-- How far the one who waits for the handshake has come (`LspClient::initialize`): it waits for the
answer, it has heard that the server accepts and is about to note that the channel is ready, it has
noted that and is about to thank the server, or it has nothing left to do. -/
inductive Lifespan.Greeter where
  | waiting
  | heard
  | thanking
  | done
  deriving DecidableEq, Repr

/-- How far somebody who ends the life of the server has come (`LspClient::shutdown`,
`LspClient::stop`): about to look whether the server is there, to write the farewell, to stop the
server, or to note that the channel is dead, or back. -/
inductive Lifespan.Ender where
  | leaving
  | parting
  | stopping
  | noting
  | over
  deriving DecidableEq, Repr

/-- How far somebody who asks for the stage has come (`LspClient::state`): about to look whether the
server is there, or, having seen it, at what has been noted, or told a stage. -/
inductive Lifespan.Asker where
  | asking
  | seeing
  | told (stage : Lifecycle)
  deriving DecidableEq, Repr

/-- What happens in the life of a channel: the exchange takes what has arrived, the server is
thanked, as far as it can be, somebody who has stopped the server returns, the reader stops, or
somebody begins to ask for the stage or is told it. Those who end the life of the server and those
who ask are known by their places. -/
inductive Lifespan.Event where
  | taken (arrival : Arrival)
  | thanked
  | stopped (ender : Nat)
  | left
  | asked (asker : Nat)
  | told (asker : Nat) (stage : Lifecycle)

/-- A channel, and those who have a hand in its stage: the one who waits for the handshake, those
who end the life of the server and those who ask for the stage, in the order in which they come, and
what has happened, the last thing first. -/
structure Lifespan where
  channel : Channel
  greeter : Lifespan.Greeter
  enders : List Lifespan.Ender
  askers : List Lifespan.Asker
  log : List Lifespan.Event

namespace Lifespan

/-- What the one who waits for the handshake does when it hears of an effect. -/
def Greeter.hear : Greeter → Effect → Greeter
  | waiting, .greeted _ _ => heard
  | waiting, .rejected _ | waiting, .dismissed _ => done
  | g, _ => g

/-- A channel on which the handshake has been started. Nobody waits for it if it could not be
written. -/
def start (outlet : Outlet) (processId : Nat) (root : String) (ticket : Nat) : Lifespan :=
  let (channel, _, written) := (Channel.start outlet).greet processId root ticket
  ⟨channel, if written then .waiting else .done, [], [], []⟩

/-- Something happens. -/
def record (s : Lifespan) (e : Event) : Lifespan :=
  { s with log := e :: s.log }

/-- A stage is noted. -/
def note (s : Lifespan) (stage : Lifecycle) : Lifespan :=
  { s with channel := { s.channel with noted := stage } }

/-- The server is gone. -/
def lose (s : Lifespan) : Lifespan :=
  { s with channel := { s.channel with outlet := { s.channel.outlet with isAlive := false } } }

/-- A message is written, if the server takes it. -/
def write (s : Lifespan) (message : Json) : Lifespan :=
  { s with channel := (s.channel.write message).1 }

/-- The exchange takes what has arrived. -/
def take (s : Lifespan) (a : Arrival) : Lifespan :=
  { s with
    channel := { s.channel with exchange := (s.channel.exchange.receive a).1 }
    greeter := (s.channel.exchange.receive a).2.foldl Greeter.hear s.greeter }

/-- The one who waits for the handshake goes on. -/
def setGreeter (s : Lifespan) (g : Greeter) : Lifespan :=
  { s with greeter := g }

/-- Somebody comes to end the life of the server. -/
def come (s : Lifespan) (e : Ender) : Lifespan :=
  { s with enders := s.enders ++ [e] }

/-- Somebody who ends the life of the server goes on. -/
def setEnder (s : Lifespan) (i : Nat) (e : Ender) : Lifespan :=
  { s with enders := s.enders.set i e }

/-- Somebody begins to ask for the stage. -/
def call (s : Lifespan) : Lifespan :=
  { s with
    askers := s.askers ++ [.asking]
    log := .asked s.askers.length :: s.log }

/-- Somebody who asks for the stage goes on. -/
def setAsker (s : Lifespan) (i : Nat) (a : Asker) : Lifespan :=
  { s with askers := s.askers.set i a }

/-- Somebody is told a stage. -/
def tell (s : Lifespan) (i : Nat) (stage : Lifecycle) : Lifespan :=
  (s.setAsker i (.told stage)).record (.told i stage)

/-- What happens next (`LspClient::initialize`, `LspClient::shutdown`, `LspClient::stop`,
`LspClient::state`). The exchange takes what arrives until the stream ends, and orders, of which
none waits for the handshake, since the greeter does. Anybody may write. The greeter notes that the
channel is ready before it thanks the server (`ready`, `thank`). Whoever takes leave of the server
looks first whether it is there, and writes the farewell only then (`seek`, `part`).

To stop the server (`ProcessTransport::stop`) is taken as one step (`halt`): that a stop is asked
for and that the server is gone are noted together. So nothing is said of a second stop that comes
between the two and returns before the server counts as gone. To note that the channel is dead is a
step of its own (`bury`), and only with it has the stop returned. Whoever asks for the stage is told
that the channel is dead if the server is gone, and otherwise goes on to what has been noted (`see`,
`miss`, `read`). -/
inductive Step : Lifespan → Lifespan → Prop where
  | take {s : Lifespan} (a : Arrival) (goesOn : s.channel.exchange.isClosed = false) :
      Step s ((s.take a).record (.taken a))
  | order {s : Lifespan} (o : Order) (other : ∀ ticket, o ≠ .awaitHandshake ticket) :
      Step s { s with channel := (s.channel.order o).1 }
  | write {s : Lifespan} (message : Json) : Step s (s.write message)
  | ready {s : Lifespan} (greeter : s.greeter = .heard) :
      Step s ((s.note .ready).setGreeter .thanking)
  | thank {s : Lifespan} (greeter : s.greeter = .thanking) :
      Step s (((s.write thanks.toJson).setGreeter .done).record .thanked)
  | leave {s : Lifespan} : Step s (s.lose.record .left)
  | comeToStop {s : Lifespan} : Step s (s.come .stopping)
  | comeToPart {s : Lifespan} : Step s (s.come .leaving)
  | seek {s : Lifespan} {i : Nat} (ender : s.enders[i]? = some .leaving) :
      Step s (s.setEnder i (if s.channel.isAlive then .parting else .stopping))
  | part {s : Lifespan} {i : Nat} (ender : s.enders[i]? = some .parting) :
      Step s ((s.write farewell.toJson).setEnder i .stopping)
  | halt {s : Lifespan} {i : Nat} (ender : s.enders[i]? = some .stopping) :
      Step s (s.lose.setEnder i .noting)
  | bury {s : Lifespan} {i : Nat} (ender : s.enders[i]? = some .noting) :
      Step s (((s.note .dead).setEnder i .over).record (.stopped i))
  | ask {s : Lifespan} : Step s s.call
  | see {s : Lifespan} {i : Nat} (asker : s.askers[i]? = some .asking)
      (there : s.channel.isAlive = true) : Step s (s.setAsker i .seeing)
  | miss {s : Lifespan} {i : Nat} (asker : s.askers[i]? = some .asking)
      (gone : s.channel.isAlive = false) : Step s (s.tell i .dead)
  | read {s : Lifespan} {i : Nat} (asker : s.askers[i]? = some .seeing) :
      Step s (s.tell i s.channel.noted)

/-- What may come of it. -/
def Steps : Lifespan → Lifespan → Prop :=
  Relation.ReflTransGen Step

variable {s t : Lifespan} {i : Nat}

/-! ### Undisturbed parties -/

theorem enders_come (s : Lifespan) (e : Ender) :
    (s.come e).enders[s.enders.length]? = some e := by
  simp [come]

theorem enders_setEnder_come (s : Lifespan) (e f : Ender) :
    ((s.come e).setEnder s.enders.length f).enders[s.enders.length]? = some f := by
  simp [come, setEnder]

theorem askers_call (s : Lifespan) : s.call.askers[s.askers.length]? = some .asking := by
  simp [call]

theorem askers_setAsker_call (s : Lifespan) (a : Asker) :
    (s.call.setAsker s.askers.length a).askers[s.askers.length]? = some a := by
  simp [call, setAsker]

/-- A party that is not disturbed stops the server as `stop` does. -/
theorem steps_stop (s : Lifespan) :
    ∃ t, Steps s t ∧ t.channel = s.channel.stop ∧ t.log = .stopped s.enders.length :: s.log := by
  have came : Steps s _ := .single .comeToStop
  have halted := came.tail (.halt (s.enders_come .stopping))
  have buried := halted.tail (.bury (s.enders_setEnder_come .stopping .noting))
  exact ⟨_, buried, rfl, rfl⟩

/-- A party that is not disturbed takes leave of the server as `shutdown` does. -/
theorem steps_shutdown (s : Lifespan) :
    ∃ t, Steps s t ∧ t.channel = s.channel.shutdown ∧
      t.log = .stopped s.enders.length :: s.log := by
  have came : Steps s _ := .single .comeToPart
  have sought := came.tail (.seek (s.enders_come .leaving))
  have next := s.enders_setEnder_come .leaving
  cases there : s.channel.isAlive with
  | true =>
      rw [show (s.come .leaving).channel.isAlive = true from there, if_pos rfl] at sought
      have parted := sought.tail (.part (next .parting))
      have halted := parted.tail (.halt (i := s.enders.length) (by simp [setEnder, write, come]))
      have buried := halted.tail (.bury (i := s.enders.length)
        (by simp [setEnder, lose, write, come]))
      exact ⟨_, buried, rfl, rfl⟩
  | false =>
      rw [show (s.come .leaving).channel.isAlive = false from there, if_neg nofun] at sought
      have halted := sought.tail (.halt (next .stopping))
      have buried := halted.tail (.bury (i := s.enders.length) (by simp [setEnder, lose, come]))
      refine ⟨_, buried, ?_, rfl⟩
      rw [shutdown, write_of_not_alive there]
      rfl

/-- A greeter that is not disturbed does what `accept` does. -/
theorem steps_accept (greeter : s.greeter = .heard) :
    ∃ t, Steps s t ∧ t.channel = s.channel.accept ∧ t.log = .thanked :: s.log := by
  have noted : Steps s _ := .single (.ready greeter)
  exact ⟨_, noted.tail (.thank rfl), rfl, rfl⟩

/-- Whoever asks for the stage and is not disturbed is told what `stage` says. -/
theorem steps_stage (s : Lifespan) :
    ∃ t, Steps s t ∧ t.channel = s.channel ∧
      t.log = .told s.askers.length s.channel.stage :: .asked s.askers.length :: s.log := by
  have asked : Steps s _ := .single .ask
  cases there : s.channel.isAlive with
  | true =>
      have saw := asked.tail (.see s.askers_call there)
      refine ⟨_, saw.tail (.read (s.askers_setAsker_call .seeing)), rfl, ?_⟩
      simp [tell, record, setAsker, call, stage, there]
  | false =>
      refine ⟨_, asked.tail (.miss s.askers_call there), rfl, ?_⟩
      simp [tell, record, setAsker, call, stage, there]

/-- What arrives while the greeter waits and nobody is disturbed is dealt with as `arrive` does. -/
theorem steps_arrive (goesOn : s.channel.exchange.isClosed = false) (waits : s.greeter = .waiting)
    (a : Arrival) : ∃ t, Steps s t ∧ t.channel = (s.channel.arrive a).1 := by
  have taken : Steps s _ := .single (.take a goesOn)
  cases a with
  | ended =>
      refine ⟨_, taken.tail .leave, ?_⟩
      have ended : s.channel.exchange.receive .ended = s.channel.exchange.close := by
        simp [Exchange.receive, goesOn]
      have arrived : (s.channel.arrive .ended).1 =
          (s.channel.exchange.receive .ended).2.foldl carryOut
            ((s.take .ended).record (.taken .ended)).lose.channel := rfl
      rw [arrived, ended, foldl_carryOut_close]
      rfl
  | frame v =>
      have arrived : (s.channel.arrive (.frame v)).1 =
          (s.channel.exchange.receive (.frame v)).2.foldl carryOut (s.take (.frame v)).channel :=
        rfl
      have most := s.channel.exchange.length_receive_frame v
      rw [arrived]
      cases form : (s.channel.exchange.receive (.frame v)).2 with
      | nil => exact ⟨_, taken, rfl⟩
      | cons e rest =>
          obtain rfl : rest = [] := by
            rw [form, List.length_cons] at most
            exact List.eq_nil_of_length_eq_zero (by omega)
          cases e with
          | greeted ticket result =>
              have heard : ((s.take (.frame v)).record (.taken (.frame v))).greeter = .heard := by
                simp [Lifespan.take, record, waits, form, Greeter.hear]
              obtain ⟨t, accepted, channel, -⟩ := steps_accept heard
              exact ⟨t, taken.trans accepted, channel⟩
          | written message => exact ⟨_, taken.tail (.write message.toJson), rfl⟩
          | _ => exact ⟨_, taken, rfl⟩

/-! ### The server and what is noted -/

/-- What always holds of the server and of those who end its life. Nobody notes that the channel is
dead before the server is gone (`buried`). Whoever is about to note it has stopped the server
(`noting`). -/
structure Mortal (s : Lifespan) : Prop where
  buried : s.channel.noted = .dead → s.channel.isAlive = false
  noting : .noting ∈ s.enders → s.channel.isAlive = false

theorem mortal_start (outlet : Outlet) (processId : Nat) (root : String) (ticket : Nat) :
    Mortal (start outlet processId root ticket) :=
  ⟨nofun, nofun⟩

theorem Mortal.setEnder (mortal : Mortal s) {e : Ender} (other : e ≠ .noting) :
    Mortal (s.setEnder i e) := by
  refine ⟨mortal.buried, fun inside => mortal.noting ?_⟩
  exact (List.mem_or_eq_of_mem_set inside).resolve_right other.symm

theorem Mortal.come (mortal : Mortal s) {e : Ender} (other : e ≠ .noting) : Mortal (s.come e) := by
  refine ⟨mortal.buried, fun inside => mortal.noting ?_⟩
  exact (List.mem_append.mp inside).resolve_right fun new => other (List.mem_singleton.mp new).symm

theorem Mortal.write (mortal : Mortal s) (message : Json) : Mortal (s.write message) := by
  have kept : (s.write message).channel.isAlive = s.channel.isAlive := isAlive_write ..
  have noted : (s.write message).channel.noted = s.channel.noted := rfl
  exact ⟨fun dead => kept.trans (mortal.buried (noted ▸ dead)),
    fun inside => kept.trans (mortal.noting inside)⟩

theorem mortal_step (mortal : Mortal s) (step : Step s t) : Mortal t := by
  cases step with
  | ready => exact ⟨nofun, mortal.noting⟩
  | take | order | ask | see | miss | read => exact ⟨mortal.buried, mortal.noting⟩
  | write message => exact mortal.write message
  | thank => exact ⟨(mortal.write _).buried, (mortal.write _).noting⟩
  | leave => exact ⟨fun _ => rfl, fun _ => rfl⟩
  | comeToStop | comeToPart => exact mortal.come nofun
  | seek => exact mortal.setEnder (by split <;> nofun)
  | part => exact (mortal.write _).setEnder nofun
  | halt => exact ⟨fun _ => rfl, fun _ => rfl⟩
  | bury ender =>
      have gone := mortal.noting (List.mem_of_getElem? ender)
      exact ⟨fun _ => gone, fun _ => gone⟩

/-- A server that is gone does not return. -/
theorem isAlive_step (step : Step s t) (gone : s.channel.isAlive = false) :
    t.channel.isAlive = false := by
  cases step with
  | write | thank | part => exact (isAlive_write ..).trans gone
  | leave | halt => rfl
  | _ => exact gone

/-- Once a channel has been noted to be ready or dead it is never noted to be initializing. -/
theorem noted_step (step : Step s t) (begun : s.channel.noted ≠ .initializing) :
    t.channel.noted ≠ .initializing := by
  cases step with
  | ready | bury => nofun
  | _ => exact begun

/-- The stage of a channel does not go back. -/
theorem stage_step (mortal : Mortal s) (step : Step s t) :
    s.channel.stage.toByte ≤ t.channel.stage.toByte := by
  cases there : s.channel.isAlive with
  | false =>
      rw [stage_of_not_alive there, stage_of_not_alive (isAlive_step step there)]
      exact UInt8.le_refl _
  | true =>
      rw [stage, there, if_pos rfl]
      cases noted : s.channel.noted with
      | initializing => exact UInt8.zero_le
      | ready =>
          have begun := noted_step step (by rw [noted]; decide)
          rw [stage]
          split
          · cases later : t.channel.noted with
            | initializing => exact absurd later begun
            | ready => decide
            | dead => decide
          · decide
      | dead =>
          rw [mortal.buried noted] at there
          cases there

end Lifespan

end EditorBridge.Channel
