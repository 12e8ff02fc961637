import EditorBridge.Proofs.Channel.Desk

/-!
# Callers get their own answers

Whatever the order in which callers, the exchange, the server and the reader move, an answer finds
its request in the table unless the caller has given up or the stream has ended, and a caller
returns the answer to its own request or none (`isolated`). The ledger and the desk are what this
rests on: the answer that is on its way to a caller is the only one there will ever be, and until it
is taken nothing else removes the request from the table.
-/

namespace EditorBridge.Channel.Traffic

/-- Whether a reply is made of the server's answer to the request that the caller wrote. -/
def IsAnswered (s : Traffic) (t : Nat) (c : Caller) (reply : Reply) : Prop :=
  ∃ j v r, s.place t = some j ∧ (j, v) ∈ s.answers ∧ answeredId? v = some c.command.seq ∧
    response? v = some r ∧ reply = Exchange.replyTo (c.entry t) r

/-- What callers have been sent and what they have returned. When a caller has its reply, no other
answer for it is on its way (`spent`). -/
structure Honest (s : Traffic) : Prop where
  replied : ∀ t c reply, s.caller? t = some c → s.outcome t = some (some reply) →
    s.IsAnswered t c reply
  spent : ∀ t c reply, s.caller? t = some c → s.outcome t = some (some reply) →
    ∀ v ∈ s.frames, answeredId? v ≠ some c.command.seq
  finished : ∀ t c result, s.caller? t = some c → s.phase t = .finished result →
    result = c.fallback ∨ ∃ reply, s.outcome t = some (some reply) ∧ result = some reply

theorem honest_start : start.Honest where
  replied := by simp [start]
  spent := by simp [start]
  finished := by simp [start]

namespace Honest

variable {s : Traffic}

theorem enter (honest : s.Honest) (desk : s.Desk) (c : Caller) : (s.enter c).Honest := by
  have unborn := desk.unborn s.callers.length (Nat.le_refl _)
  have silent : s.outcome s.callers.length = none :=
    desk.silent _ (by rw [unborn.1]; exact Option.some_ne_none _ ∘ Eq.symm)
  refine ⟨?_, ?_, ?_⟩
  · intro t d reply caller sent
    rcases caller?_enter_eq_some.mp caller with old | ⟨rfl, -⟩
    · exact honest.replied t d reply old sent
    · cases silent.symm.trans sent
  · intro t d reply caller sent
    rcases caller?_enter_eq_some.mp caller with old | ⟨rfl, -⟩
    · exact honest.spent t d reply old sent
    · cases silent.symm.trans sent
  · intro t d result caller phase
    rcases caller?_enter_eq_some.mp caller with old | ⟨rfl, -⟩
    · exact honest.finished t d result old phase
    · cases unborn.2.symm.trans phase

theorem move (honest : s.Honest) {t : Nat} {phase : Phase}
    (result : ∀ r c, phase = .finished r → s.caller? t = some c →
      r = c.fallback ∨ ∃ reply, s.outcome t = some (some reply) ∧ r = some reply) :
    (s.move t phase).Honest := by
  refine ⟨honest.replied, honest.spent, ?_⟩
  intro u c r caller now
  have phaseOf : (s.move t phase).phase u = if u = t then phase else s.phase u :=
    Function.update_apply ..
  rw [phaseOf] at now
  split at now
  · next same => exact same ▸ result r c now (same ▸ caller)
  · exact honest.finished u c r caller now

theorem giveUp (honest : s.Honest) (t : Nat) (c : Caller) : (s.giveUp t c).Honest :=
  ⟨honest.replied, honest.spent, honest.finished⟩

theorem deliver (honest : s.Honest) (m : Json) {t : Nat} (unplaced : s.place t = none) :
    (s.deliver t m).Honest := by
  refine ⟨?_, honest.spent, honest.finished⟩
  intro u c reply caller sent
  obtain ⟨j, v, r, place, answered⟩ := honest.replied u c reply caller sent
  have other : u ≠ t := by
    rintro rfl
    cases unplaced.symm.trans place
  exact ⟨j, v, r, (Function.update_of_ne other ..).trans place, answered⟩

/-- The callers do not notice what happens on the way to the server and back, unless it brings
another answer for somebody who has one. -/
theorem beside (honest : s.Honest) {channel : Channel} {inbox : Inbox}
    {answers : List (Nat × Json)} {wire : List Json} {hasEnded : Bool}
    (kept : ∀ e ∈ s.answers, e ∈ answers)
    (carried : ∀ v ∈ inbox.arrivals.filterMap Arrival.value? ++ wire, v ∈ s.frames ∨
      ∀ t c reply, s.caller? t = some c → s.outcome t = some (some reply) →
        answeredId? v ≠ some c.command.seq) :
    Traffic.Honest { s with channel, inbox, answers, wire, hasEnded } := by
  refine ⟨?_, ?_, honest.finished⟩
  · intro t c reply caller sent
    obtain ⟨j, v, r, place, inside, answered⟩ := honest.replied t c reply caller sent
    exact ⟨j, v, r, place, kept _ inside, answered⟩
  · intro t c reply caller sent v inside
    rcases carried v inside with old | other
    · exact honest.spent t c reply caller sent v old
    · exact other t c reply caller sent

/-- A step that has no reply for anybody. -/
theorem exchanged (honest : s.Honest) (desk : s.Desk) {step : Channel.Step}
    (silent : ∀ p, step.reply? p = none) : (s.exchanged step).Honest := by
  have old : ∀ {t reply}, (s.exchanged step).outcome t = some (some reply) →
      s.outcome t = some (some reply) := by
    intro t reply sent
    rcases outcome_exchanged desk.orderly sent with old | ⟨p, -, -, -, new⟩
    · exact old
    · rw [silent p] at new
      cases new
  refine ⟨?_, ?_, ?_⟩
  · intro t c reply caller sent
    exact honest.replied t c reply caller (old sent)
  · intro t c reply caller sent
    exact honest.spent t c reply caller (old sent)
  · intro t c result caller phase
    rcases honest.finished t c result caller phase with none | ⟨reply, sent, same⟩
    · exact .inl none
    · exact .inr ⟨reply, Option.or_eq_some_iff.mpr (.inl sent), same⟩

end Honest

/-- An answer that is on its way was given to the request of one caller. -/
theorem answered_of_flight {s : Traffic} (ledger : s.Ledger) {v : Json} {n : Int64}
    (inside : v ∈ s.frames) (answers : answeredId? v = some n) (nonzero : n ≠ handshakeId) :
    ∃ t c j, s.caller? t = some c ∧ c.command.seq = n ∧ s.place t = some j ∧
      (j, v) ∈ s.answers := by
  have flies : v ∈ s.frames.filter isAnswer :=
    List.mem_filter.mpr ⟨inside, isAnswer_of_answeredId? answers nonzero⟩
  obtain ⟨⟨j, w⟩, answered, rfl⟩ := List.mem_map.mp (ledger.flight.subset flies)
  obtain ⟨m, k, written, asks, answersK⟩ := ledger.logged j w answered
  obtain rfl := Option.some.inj (answers.symm.trans answersK)
  obtain ⟨t, c, caller, named, place⟩ := ledger.asked j m n written asks nonzero
  exact ⟨t, c, j, caller, named, place, answered⟩

/-- The exchange takes what has arrived first, and its caller hears of it. -/
theorem honest_arrival {s : Traffic} (honest : s.Honest) (desk : s.Desk) (ledger : s.Ledger)
    {a : Arrival} {rest : List Arrival} (first : s.inbox.arrivals = a :: rest) :
    Honest { s.exchanged (.arrival a) with inbox := { s.inbox with arrivals := rest } } := by
  cases a with
  | ended =>
      refine (honest.exchanged desk fun _ => rfl).beside (fun _ inside => inside) ?_
      intro v inside
      left
      change v ∈ s.inbox.arrivals.filterMap Arrival.value? ++ s.wire
      rw [first]
      exact inside
  | frame v =>
      have queue : s.frames = v :: (rest.filterMap Arrival.value? ++ s.wire) := by
        rw [frames, first]
        rfl
      -- Who gets a reply now gets it for the message that is taken, which answers its request.
      have now : ∀ {t reply}, (s.exchanged (.arrival (.frame v))).outcome t = some (some reply) →
          s.outcome t = some (some reply) ∨ ∃ d r, s.caller? t = some d ∧
            answeredId? v = some d.command.seq ∧ response? v = some r ∧
            reply = Exchange.replyTo (d.entry t) r := by
        intro t reply sent
        rcases outcome_exchanged desk.orderly sent with old | ⟨p, inside, rfl, concerned, new⟩
        · exact .inl old
        · obtain ⟨d, caller, form, -⟩ := desk.entries p inside
          obtain ⟨r, response, same⟩ := Option.map_eq_some_iff.mp new.symm
          have answers : answeredId? v = some p.id := Channel.Step.concerns_frame.mp concerned
          refine .inr ⟨d, r, caller, ?_, response, by rw [← same, ← form]⟩
          rw [answers, form]
          rfl
      refine ⟨?_, ?_, ?_⟩
      · intro t c reply caller sent
        change s.caller? t = some c at caller
        rcases now sent with old | ⟨d, r, callerD, answers, response, same⟩
        · exact honest.replied t c reply caller old
        · obtain rfl := Option.some.inj (caller.symm.trans callerD)
          have nonzero := ledger.nonzero t c caller
          obtain ⟨u, e, j, callerU, named, place, inside⟩ :=
            answered_of_flight ledger (by simp [queue]) answers nonzero
          obtain rfl := ledger.distinct u t e c callerU caller named
          exact ⟨j, v, r, place, inside, answers, response, same⟩
      · intro t c reply caller sent w inside
        change s.caller? t = some c at caller
        change w ∈ rest.filterMap Arrival.value? ++ s.wire at inside
        rcases now sent with old | ⟨d, r, callerD, answers, -⟩
        · refine honest.spent t c reply caller old w ?_
          rw [queue]
          exact List.mem_cons_of_mem v inside
        · obtain rfl := Option.some.inj (caller.symm.trans callerD)
          have nonzero := ledger.nonzero t c caller
          intro again
          have apart := ledger.once.sublist ledger.flight
          rw [queue, List.filter_cons_of_pos (isAnswer_of_answeredId? answers nonzero),
            List.pairwise_cons] at apart
          have behind := List.mem_filter.mpr ⟨inside, isAnswer_of_answeredId? again nonzero⟩
          exact apart.1 w behind c.command.seq nonzero answers again
      · intro t c result caller phase
        rcases honest.finished t c result caller phase with none | ⟨reply, sent, same⟩
        · exact .inl none
        · exact .inr ⟨reply, Option.or_eq_some_iff.mpr (.inl sent), same⟩

/-- Every step keeps callers honest. -/
theorem honest_step {s s' : Traffic} (honest : s.Honest) (desk : s.Desk) (ledger : s.Ledger)
    (step : Step s s') : s'.Honest := by
  have fallback : ∀ {t c}, s.caller? t = some c → ∀ r d,
      Phase.finished c.fallback = .finished r → s.caller? t = some d →
      r = d.fallback ∨ ∃ reply, s.outcome t = some (some reply) ∧ r = some reply := by
    intro t c caller r d same callerD
    obtain rfl := Phase.finished.inj same
    obtain rfl := Option.some.inj (caller.symm.trans callerD)
    exact .inl rfl
  cases step with
  | call c _ _ _ _ =>
      exact (honest.enter desk c).beside (fun _ inside => inside) fun v inside => .inl inside
  | mute c _ _ _ _ =>
      refine (honest.enter desk c).move ?_
      intro r d same caller
      obtain rfl := Phase.finished.inj same
      rcases caller?_enter_eq_some.mp caller with old | ⟨-, rfl⟩
      · exact absurd (lt_of_caller? old) (Nat.lt_irrefl _)
      · exact .inl rfl
  | acknowledged _ _ _ => exact honest.move fun _ _ => Phase.noConfusion
  | refused caller _ _ => exact honest.move (fallback caller)
  | write caller phase _ _ =>
      exact (honest.deliver _ (desk.writing _ phase).2).move fun _ _ => Phase.noConfusion
  | writeFailed caller _ _ _ => exact (honest.giveUp _ _).move (fallback caller)
  | writeLost caller phase _ =>
      exact ((honest.deliver _ (desk.writing _ phase).2).giveUp _ _).move (fallback caller)
  | @answered t c reply caller _ sent =>
      refine honest.move fun r d same _ => ?_
      obtain rfl := Phase.finished.inj same
      exact .inr ⟨reply, sent, rfl⟩
  | released caller _ _ => exact honest.move (fallback caller)
  | expired caller _ _ => exact (honest.giveUp _ _).move (fallback caller)
  | abandoned _ => exact honest.giveUp _ _
  | awaited t => exact honest.beside (fun _ inside => inside) fun v inside => .inl inside
  | @order o rest first =>
      refine (honest.exchanged desk ?_).beside (fun _ inside => inside) fun v inside => .inl inside
      intro p
      rfl
  | arrival first => exact honest_arrival honest desk ledger first
  | posted m _ => exact honest.beside (fun _ inside => inside) fun v inside => .inl inside
  | disturbed outlet noted _ =>
      exact honest.beside (fun _ inside => inside) fun v inside => .inl inside
  | @answer j m v n written asked answers new =>
      refine honest.beside (fun _ inside => List.mem_append_left _ inside) ?_
      intro w inside
      rw [← List.append_assoc] at inside
      rcases List.mem_append.mp inside with old | last
      · exact .inl old
      · right
        obtain rfl := List.mem_singleton.mp last
        intro t c reply caller sent same
        -- The caller has an answer to its request, which is this one.
        obtain ⟨i, v, r, place, inside, -⟩ := honest.replied t c reply caller sent
        have nonzero := ledger.nonzero t c caller
        obtain rfl := Option.some.inj (answers.symm.trans same)
        obtain ⟨u, d, callerU, named, placeU⟩ := ledger.asked j m _ written asked nonzero
        obtain rfl := ledger.distinct u t d c callerU caller named
        obtain rfl := Option.some.inj (place.symm.trans placeU)
        exact new (List.mem_map.mpr ⟨_, inside, rfl⟩)
  | spoken v other =>
      refine honest.beside (fun _ inside => inside) ?_
      intro w inside
      rw [← List.append_assoc] at inside
      rcases List.mem_append.mp inside with old | last
      · exact .inl old
      · right
        obtain rfl := List.mem_singleton.mp last
        intro t c reply caller _ same
        exact ledger.nonzero t c caller (other _ same)
  | published first _ =>
      refine honest.beside (fun _ inside => inside) ?_
      intro w inside
      simp only [Inbox.pushArrival, List.filterMap_append, List.append_assoc] at inside
      rw [frames, first]
      exact .inl inside
  | ended _ =>
      refine honest.beside (fun _ inside => inside) ?_
      intro w inside
      simp only [Inbox.pushArrival, List.filterMap_append, List.append_assoc] at inside
      exact .inl inside

/-! ### Every run -/

/-- What holds of the traffic of a channel at any time. The answer that the exchange takes next was
given to the request of one caller, and this request is in the table unless its caller has abandoned
it or the stream has ended (`waits`). A caller returns the reply made of the answer to its own
request, or what stands for no answer (`returns`). Whatever it returns carries its own number and
the name of its own command (`named`). -/
structure Isolated (s : Traffic) : Prop where
  waits : ∀ v rest n, s.inbox.arrivals = .frame v :: rest → answeredId? v = some n →
    n ≠ handshakeId → ∃ t c j, s.caller? t = some c ∧ c.command.seq = n ∧ s.place t = some j ∧
      (j, v) ∈ s.answers ∧ (c.entry t ∈ s.channel.exchange.pending ∨ s.isAbandoned t = true ∨
        s.channel.exchange.isClosed = true)
  returns : ∀ t c result, s.caller? t = some c → s.phase t = .finished result →
    result = c.fallback ∨ ∃ reply, result = some reply ∧ s.IsAnswered t c reply
  named : ∀ t c reply, s.caller? t = some c → s.phase t = .finished (some reply) →
    reply.requestSeq = c.command.seq ∧ reply.command = c.command.kind.name

theorem named_of_isAnswered {s : Traffic} {t : Nat} {c : Caller} {reply : Reply}
    (answered : s.IsAnswered t c reply) :
    reply.requestSeq = c.command.seq ∧ reply.command = c.command.kind.name := by
  obtain ⟨j, v, r, -, -, answers, response, rfl⟩ := answered
  rw [answeredId?, response, Option.bind_some] at answers
  exact Exchange.replyTo_names (p := c.entry t) answers

theorem named_of_fallback {c : Caller} {reply : Reply} (none : some reply = c.fallback) :
    reply.requestSeq = c.command.seq ∧ reply.command = c.command.kind.name := by
  rw [Caller.fallback] at none
  cases manner : c.manner with
  | blocking =>
      rw [manner] at none
      obtain rfl := Option.some.inj none
      exact ⟨rfl, rfl⟩
  | deferred =>
      rw [manner] at none
      cases none

theorem invariants {s : Traffic} (reach : s.Reachable) : s.Ledger ∧ s.Desk ∧ s.Honest := by
  induction reach with
  | refl => exact ⟨ledger_start, desk_start, honest_start⟩
  | tail _ step ih =>
      obtain ⟨ledger, desk, honest⟩ := ih
      exact ⟨ledger_step ledger (fun t phase => (desk.writing t phase).2) step,
        desk_step desk ledger step, honest_step honest desk ledger step⟩

/-- In every order of steps an answer finds its request, and callers get no answers but their
own. -/
theorem isolated {s : Traffic} (reach : s.Reachable) : s.Isolated := by
  obtain ⟨ledger, desk, honest⟩ := invariants reach
  have returns : ∀ t c result, s.caller? t = some c → s.phase t = .finished result →
      result = c.fallback ∨ ∃ reply, result = some reply ∧ s.IsAnswered t c reply := by
    intro t c result caller phase
    rcases honest.finished t c result caller phase with none | ⟨reply, sent, same⟩
    · exact .inl none
    · exact .inr ⟨reply, same, honest.replied t c reply caller sent⟩
  refine ⟨?_, returns, ?_⟩
  · intro v rest n first answers nonzero
    have inside : v ∈ s.frames := by simp [frames, first, Arrival.value?]
    obtain ⟨t, c, j, caller, rfl, place, answered⟩ :=
      answered_of_flight ledger inside answers nonzero
    refine ⟨t, c, j, caller, rfl, place, answered, ?_⟩
    rcases desk.accepted t c caller (desk.placed t j place) with waiting | told
    · exact .inl waiting
    · obtain ⟨o, told⟩ := Option.ne_none_iff_exists'.mp told
      cases o with
      | none => exact .inr (desk.released t told)
      | some reply => exact absurd answers (honest.spent t c reply caller told v inside)
  · intro t c reply caller phase
    rcases returns t c _ caller phase with none | ⟨own, same, answered⟩
    · exact named_of_fallback none
    · obtain rfl := Option.some.inj same
      exact named_of_isAnswered answered

/-- A caller that blocks for what is known about the first symbol of a file. -/
def visitor : Caller :=
  ⟨⟨1, .quickInfo ⟨"/a", 1, 1⟩⟩, .blocking⟩

/-- A caller that comes back for where it is defined. -/
def lodger : Caller :=
  ⟨⟨2, .definition ⟨"/a", 1, 1⟩⟩, .deferred⟩

/-- A response that has nothing to tell. -/
def shrug (id : Int) : Json :=
  .object [("id", .int id), ("jsonrpc", .string "2.0"), ("result", .null)]

/-- Both write their requests, the later one is answered first, and each returns what it was
told. -/
theorem isolated_visitor : ∃ s : Traffic, s.Reachable ∧ s.caller? 0 = some visitor ∧
    s.caller? 1 = some lodger ∧ s.answers = [(1, shrug 2), (0, shrug 1)] ∧
    s.phase 0 = .finished (some (.failure "quickinfo" 1 "no result")) ∧
    s.phase 1 = .finished (some (.failure "definition" 2 "no result")) ∧ s.Isolated := by
  obtain ⟨m, message⟩ : ∃ m, visitor.message? = some m := ⟨_, rfl⟩
  obtain ⟨m', message'⟩ : ∃ m', lodger.message? = some m' := ⟨_, rfl⟩
  have called := Relation.ReflTransGen.single
    (Step.call (s := start) visitor rfl (by decide) (fun _ => nofun) rfl)
  have registered := called.tail (Step.order rfl)
  have acknowledged := registered.tail (@Step.acknowledged _ 0 visitor rfl rfl rfl)
  have written := acknowledged.tail (@Step.write _ 0 visitor m rfl rfl message rfl)
  have joined := written.tail
    (Step.call lodger rfl (by decide) (fun d inside => by
      rw [List.mem_singleton.mp inside]
      decide) rfl)
  have bothRegistered := joined.tail (Step.order rfl)
  have bothAcknowledged := bothRegistered.tail (@Step.acknowledged _ 1 lodger rfl rfl rfl)
  have bothWritten := bothAcknowledged.tail (@Step.write _ 1 lodger m' rfl rfl message' rfl)
  have answered := bothWritten.tail
    (@Step.answer _ 1 m' (shrug 2) 2 rfl (askedId?_message message') rfl nofun)
  have unanswered : 0 ∉ [1] := by decide
  have bothAnswered := answered.tail
    (@Step.answer _ 0 m (shrug 1) 1 rfl (askedId?_message message) rfl unanswered)
  have published := (bothAnswered.tail (Step.published rfl rfl)).tail (Step.published rfl rfl)
  have taken := (published.tail (Step.arrival rfl)).tail (Step.arrival rfl)
  have finished := taken.tail (@Step.answered _ 0 visitor _ rfl rfl rfl)
  have bothFinished := finished.tail (@Step.answered _ 1 lodger _ rfl rfl rfl)
  exact ⟨_, bothFinished, rfl, rfl, rfl, rfl, rfl, isolated bothFinished⟩

/-! ### Submitting at once -/

theorem write_eq (c : Channel) (m : Json) :
    c.write m = if (c.write m).2 then
        ({ c with outlet := { c.outlet with sent := c.outlet.sent ++ [m] } }, true)
      else (c, false) := by
  cases refused : c.outlet.refusal? <;> simp [Channel.write, Outlet.write, refused, Except.toBool]

/-- Submitting a request when no order waits is a run of the caller and the exchange alone: the
request is let in or not, written or not, and abandoned if it is not written. -/
theorem run_submitCall {s : Traffic} (reach : s.Reachable) (quiet : s.inbox.orders = [])
    {c : Caller} {m : Json} (isQuery : c.command.kind.isQuery = true)
    (nonzero : c.command.seq ≠ handshakeId)
    (fresh : ∀ d ∈ s.callers, d.command.seq ≠ c.command.seq) (message : c.message? = some m) :
    ∃ s', Relation.ReflTransGen Step s s' ∧
      s'.channel = (s.channel.submitCall c.command m s.callers.length).1 ∧
      s'.phase s.callers.length =
        match (s.channel.submitCall c.command m s.callers.length).2.2 with
        | .waiting _ => .waiting
        | _ => .finished c.fallback := by
  obtain ⟨-, desk, -⟩ := invariants reach
  obtain ⟨unheard, phase⟩ := desk.unborn s.callers.length (Nat.le_refl _)
  have caller : (s.enter c).caller? s.callers.length = some c :=
    caller?_enter_eq_some.mpr (.inr ⟨rfl, rfl⟩)
  have called := Relation.ReflTransGen.single
    (Step.call c isQuery nonzero fresh (by rw [message]; rfl))
  have registered := called.tail (Step.order (by
    simp only [Inbox.pushOrder, quiet, List.nil_append]
    rfl))
  have verdict : (s.verdict s.callers.length).or (verdictOf s.callers.length
      (s.channel.exchange.order (.register c.command.seq c.command.kind s.callers.length)).2) =
      some (s.channel.exchange.refusal? c.command.seq).isNone := by
    have told := Exchange.verdictOf_step s.channel.exchange
      (.order (.register c.command.seq c.command.kind s.callers.length)) s.callers.length
    simp only [if_true] at told
    rw [unheard, Option.none_or]
    exact told
  cases refused : s.channel.exchange.refusal? c.command.seq with
  | some why =>
      rw [refused] at verdict
      refine ⟨_, registered.tail (Step.refused caller phase verdict), ?_, ?_⟩
      · simp [Channel.submitCall, refused, move, exchanged, Exchange.step, Exchange.order, enter]
      · simp [Channel.submitCall, refused, move, enter]
  | none =>
      rw [refused] at verdict
      have acknowledged := registered.tail (Step.acknowledged caller phase verdict)
      cases written : ((s.channel.order
          (.register c.command.seq c.command.kind s.callers.length)).1.write m).2 with
      | true =>
          have sent := acknowledged.tail
            (Step.write caller (Function.update_self ..) message written)
          refine ⟨_, sent, ?_, ?_⟩
          · rw [Channel.submitCall, refused]
            dsimp only
            rw [write_eq, written]
            rfl
          · rw [Channel.submitCall, refused]
            dsimp only
            rw [write_eq, written]
            exact Function.update_self ..
      | false =>
          have failed := acknowledged.tail
            (Step.writeFailed caller (Function.update_self ..) message written)
          have abandoned := failed.tail (Step.order rfl)
          refine ⟨_, abandoned, ?_, ?_⟩
          · rw [Channel.submitCall, refused]
            dsimp only
            rw [write_eq, written]
            rfl
          · rw [Channel.submitCall, refused]
            dsimp only
            rw [write_eq, written]
            exact Function.update_self ..

end EditorBridge.Channel.Traffic
