import EditorBridge.Proofs.Channel.Traffic
import EditorBridge.Proofs.Rpc.Shapes

/-!
# The ledger of a channel

Who wrote which message to the server, who is answered by which message of the server, and which of
these answers are still on their way. A request is written once and answered at most once, so an
answer that is on its way is the only one for its caller. Every step of the traffic keeps the
ledger (`ledger_step`).
-/

namespace EditorBridge.Channel

/-! ### What messages ask for -/

theorem askedId?_call (n : Int64) (method : String) (params : Json) :
    askedId? (Rpc.Call.of (.number n) method params).toJson = some n := by
  have shape : Rpc.Incoming.classify? (Rpc.Call.of (.number n) method params).toJson =
      some (.call (.of (.number n) method params)) :=
    Rpc.Incoming.classify?_eq_some_iff.mpr (Rpc.Call.isWritten_toJson _)
  rw [askedId?, shape]
  rfl

theorem askedId?_message {c : Caller} {m : Json} (message : c.message? = some m) :
    askedId? m = some c.command.seq := by
  rw [Caller.message?, Command.toMessage?] at message
  cases params : c.command.request.toParams? with
  | none => simp [params] at message
  | some value =>
      by_cases isQuery : c.command.kind.isQuery = true
      · simp only [params, Option.map_some, isQuery, if_true, Option.some.injEq] at message
        rw [← message, askedId?_call]
      · simp [params, isQuery] at message

/-- Whether a message of the server answers a request other than the handshake. -/
def isAnswer (v : Json) : Bool :=
  (answeredId? v).any (· != handshakeId)

/-- Two messages of the server that do not answer the same request. -/
def Apart (v w : Json) : Prop :=
  ∀ n, n ≠ handshakeId → answeredId? v = some n → answeredId? w ≠ some n

theorem isAnswer_of_answeredId? {v : Json} {n : Int64} (answers : answeredId? v = some n)
    (nonzero : n ≠ handshakeId) : isAnswer v = true := by
  simp [isAnswer, answers, nonzero]

theorem isAnswer_eq_false {v : Json}
    (other : ∀ n, answeredId? v = some n → n = handshakeId) : isAnswer v = false := by
  unfold isAnswer
  cases answers : answeredId? v with
  | none => rfl
  | some n => simp [other n answers]

/-- The message that arrives. -/
def Arrival.value? : Arrival → Option Json
  | frame v => some v
  | ended => none

namespace Traffic

/-- The messages of the server that the exchange has not taken, the oldest one first. -/
def frames (s : Traffic) : List Json :=
  s.inbox.arrivals.filterMap Arrival.value? ++ s.wire

theorem caller?_enter_eq_some {s : Traffic} {c d : Caller} {t : Nat} :
    (s.enter c).caller? t = some d ↔
      s.caller? t = some d ∨ (t = s.callers.length ∧ d = c) := by
  rw [caller?, caller?, enter, List.getElem?_append]
  by_cases inside : t < s.callers.length
  · simp [inside, Nat.ne_of_lt inside]
  · rw [if_neg inside, List.getElem?_eq_none_iff.mpr (Nat.le_of_not_lt inside)]
    by_cases last : t = s.callers.length
    · simp [last, eq_comm]
    · rw [List.getElem?_eq_none_iff.mpr (by simp only [List.length_singleton]; omega)]
      simp [last]

/-! ### The ledger -/

/-- Who wrote which message, and who is answered by which. A request stands where its caller says
(`placed`). Every request was written by its caller (`asked`). The server answers requests only
(`logged`). No request is answered twice (`once`). Whatever answers a request and is on its way is
one of the answers (`flight`). -/
structure Ledger (s : Traffic) : Prop where
  nonzero : ∀ t c, s.caller? t = some c → c.command.seq ≠ handshakeId
  distinct : ∀ t u c d, s.caller? t = some c → s.caller? u = some d →
    c.command.seq = d.command.seq → t = u
  placed : ∀ t j, s.place t = some j →
    ∃ c m, s.caller? t = some c ∧ c.message? = some m ∧ s.sent[j]? = some m
  asked : ∀ j m n, s.sent[j]? = some m → askedId? m = some n → n ≠ handshakeId →
    ∃ t c, s.caller? t = some c ∧ c.command.seq = n ∧ s.place t = some j
  logged : ∀ j v, (j, v) ∈ s.answers →
    ∃ m n, s.sent[j]? = some m ∧ askedId? m = some n ∧ answeredId? v = some n
  once : (s.answers.map (·.2)).Pairwise Apart
  flight : (s.frames.filter isAnswer).Sublist (s.answers.map (·.2))

theorem ledger_start : start.Ledger where
  nonzero := by simp [start, caller?]
  distinct := by simp [start, caller?]
  placed := by simp [start]
  asked := by simp [start, sent, Channel.start, Outlet.start]
  logged := by simp [start]
  once := by simp [start]
  flight := by simp [start, frames, Inbox.empty]

namespace Ledger

variable {s : Traffic}

theorem enter (ledger : s.Ledger) {c : Caller} (nonzero : c.command.seq ≠ handshakeId)
    (fresh : ∀ d ∈ s.callers, d.command.seq ≠ c.command.seq) : (s.enter c).Ledger := by
  refine ⟨?_, ?_, ?_, ?_, ledger.logged, ledger.once, ledger.flight⟩
  · intro t d found
    rcases caller?_enter_eq_some.mp found with old | ⟨-, rfl⟩
    · exact ledger.nonzero t d old
    · exact nonzero
  · intro t u d e foundD foundE same
    rcases caller?_enter_eq_some.mp foundD with oldD | ⟨rfl, rfl⟩
    · rcases caller?_enter_eq_some.mp foundE with oldE | ⟨rfl, rfl⟩
      · exact ledger.distinct t u d e oldD oldE same
      · exact absurd same (fresh d (List.mem_of_getElem? oldD))
    · rcases caller?_enter_eq_some.mp foundE with oldE | ⟨rfl, -⟩
      · exact absurd same.symm (fresh e (List.mem_of_getElem? oldE))
      · rfl
  · intro t j place
    obtain ⟨d, m, found, message, stands⟩ := ledger.placed t j place
    exact ⟨d, m, caller?_enter_eq_some.mpr (.inl found), message, stands⟩
  · intro j m n stands asks nonzero
    obtain ⟨t, d, found, named, place⟩ := ledger.asked j m n stands asks nonzero
    exact ⟨t, d, caller?_enter_eq_some.mpr (.inl found), named, place⟩

theorem move (ledger : s.Ledger) (t : Nat) (phase : Phase) : (s.move t phase).Ledger :=
  ⟨ledger.nonzero, ledger.distinct, ledger.placed, ledger.asked, ledger.logged, ledger.once,
    ledger.flight⟩

theorem giveUp (ledger : s.Ledger) (t : Nat) (c : Caller) : (s.giveUp t c).Ledger :=
  ⟨ledger.nonzero, ledger.distinct, ledger.placed, ledger.asked, ledger.logged, ledger.once,
    ledger.flight⟩

theorem deliver (ledger : s.Ledger) {t : Nat} {c : Caller} {m : Json}
    (caller : s.caller? t = some c) (message : c.message? = some m)
    (unplaced : s.place t = none) : (s.deliver t m).Ledger := by
  have kept : ∀ {j : Nat} {k : Json}, s.sent[j]? = some k → (s.deliver t m).sent[j]? = some k := by
    intro j k stands
    have inside := (List.getElem?_eq_some_iff.mp stands).1
    exact (List.getElem?_append_left inside).trans stands
  have last : (s.deliver t m).sent[s.sent.length]? = some m := List.getElem?_concat_length
  have place : ∀ u, (s.deliver t m).place u = if u = t then some s.sent.length else s.place u :=
    fun u => Function.update_apply ..
  refine ⟨ledger.nonzero, ledger.distinct, ?_, ?_, ?_, ledger.once, ledger.flight⟩
  · intro u j here
    rw [place] at here
    split at here
    · next same =>
        obtain rfl := Option.some.inj here
        exact ⟨c, m, same ▸ caller, message, last⟩
    · obtain ⟨d, k, found, message, stands⟩ := ledger.placed u j here
      exact ⟨d, k, found, message, kept stands⟩
  · intro j k n stands asks nonzero
    rw [sent, Traffic.deliver, List.getElem?_append] at stands
    split at stands
    · obtain ⟨u, d, found, named, here⟩ := ledger.asked j k n stands asks nonzero
      have other : u ≠ t := by
        rintro rfl
        rw [unplaced] at here
        cases here
      exact ⟨u, d, found, named, by rw [place, if_neg other, here]⟩
    · next behind =>
        obtain ⟨bound, rfl⟩ := List.getElem?_eq_some_iff.mp stands
        simp only [List.length_singleton] at bound
        have same : j = s.sent.length := by
          have : s.sent.length = s.channel.outlet.sent.length := rfl
          omega
        simp only [List.getElem_singleton] at asks
        rw [askedId?_message message] at asks
        exact ⟨t, c, caller, Option.some.inj asks, by rw [place, if_pos rfl, same]⟩
  · intro j v inside
    obtain ⟨k, n, stands, asks, answers⟩ := ledger.logged j v inside
    exact ⟨k, n, kept stands, asks, answers⟩

/-- Another message does not change who wrote what. -/
theorem post (ledger : s.Ledger) {m : Json} (other : ∀ n, askedId? m = some n → n = handshakeId) :
    Traffic.Ledger { s with channel := (s.channel.write m).1 } := by
  have form : (s.channel.write m).1.outlet.sent = s.sent ∨
      (s.channel.write m).1.outlet.sent = s.sent ++ [m] := by
    simp only [Channel.write, Outlet.write]
    split
    · exact .inl rfl
    · exact .inr rfl
  have kept : ∀ {j : Nat} {k : Json}, s.sent[j]? = some k →
      (s.channel.write m).1.outlet.sent[j]? = some k := by
    intro j k stands
    have inside := (List.getElem?_eq_some_iff.mp stands).1
    rcases form with form | form
    · rw [form, stands]
    · rw [form, List.getElem?_append_left inside, stands]
  refine ⟨ledger.nonzero, ledger.distinct, ?_, ?_, ?_, ledger.once, ledger.flight⟩
  · intro t j place
    obtain ⟨c, k, found, message, stands⟩ := ledger.placed t j place
    exact ⟨c, k, found, message, kept stands⟩
  · intro j k n stands asks nonzero
    refine ledger.asked j k n ?_ asks nonzero
    rcases form with form | form
    · exact form ▸ stands
    · rw [sent, form, List.getElem?_append] at stands
      split at stands
      · exact stands
      · obtain ⟨bound, rfl⟩ := List.getElem?_eq_some_iff.mp stands
        simp only [List.getElem_singleton] at asks
        exact absurd (other n asks) nonzero
  · intro j v inside
    obtain ⟨k, n, stands, asks, answers⟩ := ledger.logged j v inside
    exact ⟨k, n, kept stands, asks, answers⟩

/-- An answer to a request that has none yet. -/
theorem answer (ledger : s.Ledger) {j : Nat} {m v : Json} {n : Int64}
    (written : s.sent[j]? = some m) (asked : askedId? m = some n) (answers : answeredId? v = some n)
    (new : j ∉ s.answers.map (·.1)) :
    Traffic.Ledger { s with answers := s.answers ++ [(j, v)], wire := s.wire ++ [v] } := by
  refine ⟨ledger.nonzero, ledger.distinct, ledger.placed, ledger.asked, ?_, ?_, ?_⟩
  · intro k w inside
    rcases List.mem_append.mp inside with inside | last
    · exact ledger.logged k w inside
    · obtain ⟨rfl, rfl⟩ := Prod.mk.inj (List.mem_singleton.mp last)
      exact ⟨m, n, written, asked, answers⟩
  · rw [List.map_append, List.pairwise_append]
    refine ⟨ledger.once, List.pairwise_singleton _ _, ?_⟩
    intro w answered last isLast k nonzero answersK same
    obtain ⟨⟨i, w⟩, inside, rfl⟩ := List.mem_map.mp answered
    obtain rfl := List.mem_singleton.mp isLast
    rw [answers] at same
    obtain rfl := Option.some.inj same
    -- Both answers are to the request of the caller with this number, which was written once.
    obtain ⟨k, n', writtenI, askedI, answersI⟩ := ledger.logged i w inside
    rw [answersK] at answersI
    obtain rfl := Option.some.inj answersI
    obtain ⟨t, c, callerT, namedT, placeT⟩ := ledger.asked i k n writtenI askedI nonzero
    obtain ⟨u, d, callerU, namedU, placeU⟩ := ledger.asked j m n written asked nonzero
    obtain rfl := ledger.distinct t u c d callerT callerU (namedT.trans namedU.symm)
    obtain rfl := Option.some.inj (placeT.symm.trans placeU)
    exact new (List.mem_map.mpr ⟨_, inside, rfl⟩)
  · have frames : frames { s with answers := s.answers ++ [(j, v)], wire := s.wire ++ [v] } =
        s.frames ++ [v] := by simp [Traffic.frames]
    rw [frames, List.filter_append, List.map_append]
    exact ledger.flight.append List.filter_sublist

/-- Messages of the server that are on their way may get lost or be joined by others that answer
nobody. -/
theorem of_flight (ledger : s.Ledger) {inbox : Inbox} {wire : List Json} {hasEnded : Bool}
    (flight : ((inbox.arrivals.filterMap Arrival.value? ++ wire).filter isAnswer).Sublist
      (s.frames.filter isAnswer)) : Traffic.Ledger { s with inbox, wire, hasEnded } :=
  ⟨ledger.nonzero, ledger.distinct, ledger.placed, ledger.asked, ledger.logged, ledger.once,
    flight.trans ledger.flight⟩

theorem exchanged (ledger : s.Ledger) (step : Channel.Step) : (s.exchanged step).Ledger :=
  ⟨ledger.nonzero, ledger.distinct, ledger.placed, ledger.asked, ledger.logged, ledger.once,
    ledger.flight⟩

theorem queue (ledger : s.Ledger) (o : Order) :
    Traffic.Ledger { s with inbox := s.inbox.pushOrder o } :=
  ledger.of_flight (List.Sublist.refl _)

/-- The server says something that answers no request. -/
theorem speak (ledger : s.Ledger) {v : Json}
    (other : ∀ n, answeredId? v = some n → n = handshakeId) :
    Traffic.Ledger { s with wire := s.wire ++ [v] } := by
  refine ledger.of_flight ?_
  rw [← List.append_assoc, List.filter_append _ [v],
    List.filter_cons_of_neg (by simp [isAnswer_eq_false other]), List.filter_nil,
    List.append_nil]
  exact List.Sublist.refl _

theorem publish (ledger : s.Ledger) {v : Json} {rest : List Json} (first : s.wire = v :: rest) :
    Traffic.Ledger { s with inbox := s.inbox.pushArrival (.frame v), wire := rest } := by
  refine ledger.of_flight ?_
  simp only [Inbox.pushArrival, List.filterMap_append, frames, first, List.append_assoc]
  exact List.Sublist.refl _

theorem finish (ledger : s.Ledger) :
    Traffic.Ledger { s with inbox := s.inbox.pushArrival .ended, hasEnded := true } := by
  refine ledger.of_flight ?_
  simp only [Inbox.pushArrival, List.filterMap_append, frames, List.append_assoc]
  exact List.Sublist.refl _

theorem take (ledger : s.Ledger) {a : Arrival} {rest : List Arrival}
    (first : s.inbox.arrivals = a :: rest) :
    Traffic.Ledger { s with inbox := { s.inbox with arrivals := rest } } := by
  refine ledger.of_flight (List.Sublist.filter _ ?_)
  rw [frames, first]
  exact ((List.sublist_cons_self a rest).filterMap _).append_right _

theorem disturb (ledger : s.Ledger) {outlet : Outlet} (noted : Lifecycle)
    (kept : outlet.sent = s.sent) :
    Traffic.Ledger { s with channel := { s.channel with outlet, noted } } := by
  have same : sent { s with channel := { s.channel with outlet, noted } } = s.sent := kept
  refine ⟨ledger.nonzero, ledger.distinct, ?_, ?_, ?_, ledger.once, ledger.flight⟩
  · rw [same]
    exact ledger.placed
  · rw [same]
    exact ledger.asked
  · rw [same]
    exact ledger.logged

end Ledger

/-- Every step keeps the ledger, if nobody is about to write its request a second time. -/
theorem ledger_step {s s' : Traffic} (ledger : s.Ledger)
    (unplaced : ∀ t, s.phase t = .writing → s.place t = none) (step : Step s s') : s'.Ledger := by
  cases step with
  | call c _ nonzero fresh _ =>
      exact Ledger.queue (s := s.enter c) (ledger.enter nonzero fresh) _
  | mute c _ nonzero fresh _ => exact (ledger.enter nonzero fresh).move _ _
  | acknowledged => exact ledger.move _ _
  | refused => exact ledger.move _ _
  | write caller phase message _ =>
      exact (ledger.deliver caller message (unplaced _ phase)).move _ _
  | writeFailed => exact (ledger.giveUp _ _).move _ _
  | writeLost caller phase message =>
      exact ((ledger.deliver caller message (unplaced _ phase)).giveUp _ _).move _ _
  | answered => exact ledger.move _ _
  | released => exact ledger.move _ _
  | expired => exact (ledger.giveUp _ _).move _ _
  | abandoned => exact ledger.giveUp _ _
  | awaited => exact ledger.queue _
  | order => exact Ledger.of_flight (ledger.exchanged _) (List.Sublist.refl _)
  | arrival first => exact Ledger.take (ledger.exchanged _) first
  | posted m other => exact ledger.post other
  | disturbed outlet noted kept => exact ledger.disturb noted kept
  | answer written asked answers new => exact ledger.answer written asked answers new
  | spoken v other => exact ledger.speak other
  | published first _ => exact ledger.publish first
  | ended _ => exact ledger.finish

end Traffic

end EditorBridge.Channel
