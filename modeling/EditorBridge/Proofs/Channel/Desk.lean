import EditorBridge.Proofs.Channel.Ledger

/-!
# Where a request is

Between a caller and the table of the exchange stands a queue of orders. The desk says where the
request of a caller is on its way: in the queue as long as nothing is decided, then in the table,
and when it has left the table its caller has been told. Only a caller whose request has been let in
writes it, and it does so once. Every step of the traffic keeps the desk (`desk_step`).
-/

namespace EditorBridge.Channel

/-- The ticket of the caller that an order registers. -/
def Order.registrant? : Order → Option Nat
  | register _ _ ticket => some ticket
  | _ => none

theorem registrants_push {orders : List Order} {o : Order} (other : o.registrant? = none) :
    (orders ++ [o]).filterMap Order.registrant? = orders.filterMap Order.registrant? := by
  rw [List.filterMap_append, List.filterMap_cons_none other, List.filterMap_nil, List.append_nil]

namespace Exchange

/-! ### Verdicts -/

theorem verdictOf_receive (x : Exchange) (a : Arrival) (t : Nat) :
    verdictOf t (x.receive a).2 = none := by
  cases closed : x.isClosed with
  | true => simp [receive, closed, verdictOf]
  | false =>
      cases a with
      | ended => cases form : x.handshake <;> simp [receive, closed, close, form, verdictOf]
      | frame v =>
          simp only [receive, closed, Bool.false_eq_true, if_false]
          cases Rpc.Incoming.classify? v with
          | none => rfl
          | some message =>
              cases message with
              | notification n =>
                  simp only [take]
                  cases Event.ofNotification? n <;> rfl
              | call c => rfl
              | response r =>
                  simp only [take, resolve]
                  cases r.id.bind Rpc.RequestId.number? with
                  | none => rfl
                  | some id =>
                      by_cases zero : id = handshakeId
                      · simp only [zero, if_true]
                        cases x.handshake with
                        | none => rfl
                        | some ticket =>
                            simp only [Option.map_some, Option.toList_some, greeting]
                            split <;> rfl
                      · simp only [zero, if_false]
                        cases x.find? id <;> rfl

/-- A registration is the only step that tells its caller whether a request is let in. -/
theorem verdictOf_step (x : Exchange) (step : Channel.Step) (t : Nat) :
    verdictOf t (x.step step).2 =
      match step with
      | .order (.register id _ u) => if u = t then some (x.refusal? id).isNone else none
      | _ => none := by
  rcases step with (⟨id, kind, u⟩ | id | u) | a
  · simp only [Exchange.step, order]
    cases x.refusal? id <;> simp [verdictOf]
  · simp only [Exchange.step, order]
    cases x.find? id <;> rfl
  · simp only [Exchange.step, order]
    split
    · rfl
    · cases x.handshake <;> rfl
  · exact verdictOf_receive x a t

end Exchange

namespace Traffic

/-- Where the requests of callers are. A request in the table is that of a caller who has been told
so and nothing else (`entries`). A request in the queue is that of a caller who has been told
nothing (`queued`). Callers abandon their own requests (`abandons`). A request that was let in is in
the table until its caller is told what became of it (`accepted`). -/
structure Desk (s : Traffic) : Prop where
  orderly : s.channel.exchange.Orderly
  entries : ∀ p ∈ s.channel.exchange.pending, ∃ c, s.caller? p.ticket = some c ∧
    p = c.entry p.ticket ∧ s.verdict p.ticket = some true ∧ s.outcome p.ticket = none
  queued : ∀ id kind t, .register id kind t ∈ s.inbox.orders →
    ∃ c, s.caller? t = some c ∧ c.entry t = ⟨id, kind, t⟩ ∧ s.verdict t = none
  queuedOnce : (s.inbox.orders.filterMap Order.registrant?).Nodup
  abandons : ∀ id, .abandon id ∈ s.inbox.orders →
    ∃ t c, s.caller? t = some c ∧ c.command.seq = id ∧ s.isAbandoned t = true
  silent : ∀ t, s.verdict t ≠ some true → s.outcome t = none
  accepted : ∀ t c, s.caller? t = some c → s.verdict t = some true →
    c.entry t ∈ s.channel.exchange.pending ∨ s.outcome t ≠ none
  released : ∀ t, s.outcome t = some none →
    s.isAbandoned t = true ∨ s.channel.exchange.isClosed = true
  registering : ∀ t, s.phase t = .registering → s.place t = none
  writing : ∀ t, s.phase t = .writing → s.verdict t = some true ∧ s.place t = none
  placed : ∀ t j, s.place t = some j → s.verdict t = some true
  unborn : ∀ t, s.callers.length ≤ t → s.verdict t = none ∧ s.phase t = .registering

theorem desk_start : start.Desk where
  orderly := Exchange.orderly_start
  entries := by simp [start, Channel.start, Exchange.start]
  queued := by simp [start, Inbox.empty]
  queuedOnce := by simp [start, Inbox.empty]
  abandons := by simp [start, Inbox.empty]
  silent := by simp [start]
  accepted := by simp [start]
  released := by simp [start]
  registering := by simp [start]
  writing := by simp [start]
  placed := by simp [start]
  unborn := by simp [start]

theorem lt_of_caller? {s : Traffic} {t : Nat} {c : Caller} (caller : s.caller? t = some c) :
    t < s.callers.length :=
  (List.getElem?_eq_some_iff.mp caller).1

/-! ### What a step of the exchange tells callers -/

/-- A caller that has been told what became of its request was told so before, or its request was in
the table and the step concerned it. -/
theorem outcome_exchanged {s : Traffic} (orderly : s.channel.exchange.Orderly)
    {step : Channel.Step} {t : Nat} {o : Option Reply}
    (told : (s.exchanged step).outcome t = some o) :
    s.outcome t = some o ∨ ∃ p ∈ s.channel.exchange.pending,
      p.ticket = t ∧ step.concerns p.id = true ∧ o = step.reply? p := by
  rcases Option.or_eq_some_iff.mp told with old | ⟨-, new⟩
  · exact .inl old
  · rw [Exchange.outcomesOf_step orderly] at new
    obtain ⟨p, inside, rfl⟩ := List.mem_map.mp (List.mem_of_mem_head? new)
    obtain ⟨inside, concerned⟩ := List.mem_filter.mp inside
    obtain ⟨inside, named⟩ := List.mem_filter.mp inside
    exact .inr ⟨p, inside, beq_iff_eq.mp named, concerned, rfl⟩

theorem outcome_exchanged_ne_none {s : Traffic} (orderly : s.channel.exchange.Orderly)
    {step : Channel.Step} {p : Pending} (inside : p ∈ s.channel.exchange.pending)
    (concerned : step.concerns p.id = true) : (s.exchanged step).outcome p.ticket ≠ none := by
  intro silent
  have nothing := (Option.or_eq_none_iff.mp silent).2
  rw [Exchange.outcomesOf_step orderly, List.head?_eq_none_iff, List.map_eq_nil_iff] at nothing
  have here : p ∈ (s.channel.exchange.pending.filter (·.ticket == p.ticket)).filter
      (step.concerns ·.id) :=
    List.mem_filter.mpr ⟨List.mem_filter.mpr ⟨inside, beq_self_eq_true _⟩, concerned⟩
  rw [nothing] at here
  cases here

theorem outcome_exchanged_of_ne_none {s : Traffic} {step : Channel.Step} {t : Nat}
    (told : s.outcome t ≠ none) : (s.exchanged step).outcome t ≠ none := by
  intro silent
  exact told (Option.or_eq_none_iff.mp silent).1

theorem verdict_exchanged_of_some {s : Traffic} {step : Channel.Step} {t : Nat} {b : Bool}
    (told : s.verdict t = some b) : (s.exchanged step).verdict t = some b :=
  Option.or_eq_some_iff.mpr (.inl told)

/-- A caller is told about its registration when the exchange takes it. -/
theorem verdict_exchanged {s : Traffic} {step : Channel.Step} {t : Nat} {b : Bool}
    (told : (s.exchanged step).verdict t = some b) :
    s.verdict t = some b ∨ ∃ id kind, step = .order (.register id kind t) ∧
      b = (s.channel.exchange.refusal? id).isNone := by
  rcases Option.or_eq_some_iff.mp told with old | ⟨-, new⟩
  · exact .inl old
  · rw [Exchange.verdictOf_step] at new
    split at new
    · next id kind u =>
        split at new
        · next same => exact .inr ⟨id, kind, by rw [same], (Option.some.inj new).symm⟩
        · cases new
    · cases new

namespace Desk

variable {s : Traffic}

/-- The entry of a caller is known by its ticket. -/
theorem entry_unique (desk : s.Desk) {p q : Pending} (insideP : p ∈ s.channel.exchange.pending)
    (insideQ : q ∈ s.channel.exchange.pending) (same : q.ticket = p.ticket) : q = p := by
  obtain ⟨c, callerP, formP, -⟩ := desk.entries p insideP
  obtain ⟨d, callerQ, formQ, -⟩ := desk.entries q insideQ
  rw [same, callerP] at callerQ
  obtain rfl := Option.some.inj callerQ
  rw [formQ, formP, same]

/-! ### Steps of the exchange -/

/-- A step of the exchange. What it takes from the queue is said about the step: who registers has
been told nothing and is not in the queue any more, and who abandons does so by its own will. -/
theorem exchanged (desk : s.Desk) (ledger : s.Ledger) {step : Channel.Step} {rest : List Order}
    (registers : ∀ id kind t, step = .order (.register id kind t) →
      (∃ c, s.caller? t = some c ∧ c.entry t = ⟨id, kind, t⟩ ∧ s.verdict t = none) ∧
        t ∉ rest.filterMap Order.registrant?)
    (abandons : ∀ id, step = .order (.abandon id) →
      ∃ t c, s.caller? t = some c ∧ c.command.seq = id ∧ s.isAbandoned t = true)
    (others : rest.Sublist s.inbox.orders) :
    Traffic.Desk { s.exchanged step with inbox := { s.inbox with orders := rest } } := by
  have table : (s.exchanged step).channel.exchange.pending =
      s.channel.exchange.pending.filter (fun p => !step.concerns p.id) ++
        (step.admitted? s.channel.exchange).toList := Exchange.pending_step desk.orderly step
  have closed : (s.exchanged step).channel.exchange.isClosed =
      (s.channel.exchange.isClosed || step.isEnd) := Exchange.isClosed_step _ step
  refine ⟨Exchange.orderly_step desk.orderly step, ?_, ?_, ?_, ?_, ?_, ?_, ?_, desk.registering,
    ?_, ?_, ?_⟩
  · intro p inside
    have nothing : s.outcome p.ticket = none →
        (∀ q ∈ s.channel.exchange.pending, q.ticket = p.ticket → step.concerns q.id = false) →
          (s.exchanged step).outcome p.ticket = none := by
      intro silent passes
      by_contra told
      obtain ⟨o, told⟩ := Option.ne_none_iff_exists'.mp told
      rcases outcome_exchanged desk.orderly told with old | ⟨q, insideQ, same, concerned, -⟩
      · rw [silent] at old
        cases old
      · rw [passes q insideQ same] at concerned
        cases concerned
    change p ∈ (s.exchanged step).channel.exchange.pending at inside
    rw [table] at inside
    rcases List.mem_append.mp inside with inside | new
    · obtain ⟨inside, passes⟩ := List.mem_filter.mp inside
      obtain ⟨c, caller, form, accepted, silent⟩ := desk.entries p inside
      refine ⟨c, caller, form, verdict_exchanged_of_some accepted, nothing silent ?_⟩
      intro q insideQ same
      rw [desk.entry_unique inside insideQ same]
      simpa using passes
    · obtain ⟨form, allowed⟩ := Exchange.admitted?_eq_some.mp (Option.mem_toList.mp new)
      obtain ⟨⟨c, caller, entry, unheard⟩, -⟩ := registers _ _ _ form
      have silent := desk.silent p.ticket (by rw [unheard]; simp)
      refine ⟨c, caller, entry.symm, ?_, nothing silent ?_⟩
      · refine Option.or_eq_some_iff.mpr (.inr ⟨unheard, ?_⟩)
        simp [Exchange.verdictOf_step, form, allowed]
      · intro q _ _
        rw [form]
        rfl
  · intro id kind t inside
    obtain ⟨c, caller, entry, unheard⟩ := desk.queued id kind t (others.subset inside)
    refine ⟨c, caller, entry, ?_⟩
    by_contra told
    obtain ⟨b, told⟩ := Option.ne_none_iff_exists'.mp told
    rcases verdict_exchanged told with old | ⟨id', kind', form, -⟩
    · rw [unheard] at old
      cases old
    · exact (registers id' kind' t form).2 (List.mem_filterMap.mpr ⟨_, inside, rfl⟩)
  · exact desk.queuedOnce.sublist (others.filterMap _)
  · intro id inside
    exact desk.abandons id (others.subset inside)
  · intro t refused
    by_contra told
    obtain ⟨o, told⟩ := Option.ne_none_iff_exists'.mp told
    have accepted : s.verdict t = some true := by
      rcases outcome_exchanged desk.orderly told with old | ⟨p, inside, rfl, -, -⟩
      · by_contra other
        rw [desk.silent t other] at old
        cases old
      · obtain ⟨c, -, -, accepted, -⟩ := desk.entries p inside
        exact accepted
    exact refused (verdict_exchanged_of_some accepted)
  · intro t c caller accepted
    change s.caller? t = some c at caller
    rcases verdict_exchanged accepted with old | ⟨id, kind, form, allowed⟩
    · rcases desk.accepted t c caller old with inside | told
      · by_cases concerned : step.concerns (c.entry t).id = true
        · exact .inr (outcome_exchanged_ne_none desk.orderly inside concerned)
        · left
          change c.entry t ∈ (s.exchanged step).channel.exchange.pending
          rw [table]
          exact List.mem_append_left _ (List.mem_filter.mpr ⟨inside, by simpa using concerned⟩)
      · exact .inr (outcome_exchanged_of_ne_none told)
    · left
      change c.entry t ∈ (s.exchanged step).channel.exchange.pending
      obtain ⟨⟨d, callerD, entry, -⟩, -⟩ := registers id kind t form
      obtain rfl := Option.some.inj (caller.symm.trans callerD)
      have admitted : step.admitted? s.channel.exchange = some ⟨id, kind, t⟩ :=
        Exchange.admitted?_eq_some.mpr ⟨form, Option.isNone_iff_eq_none.mp allowed.symm⟩
      rw [table, entry, admitted]
      exact List.mem_append_right _ (List.mem_singleton_self _)
  · intro t dropped
    rcases outcome_exchanged desk.orderly dropped with old | ⟨p, inside, rfl, concerned, noReply⟩
    · rcases desk.released t old with abandoned | gone
      · exact .inl abandoned
      · right
        change (s.exchanged step).channel.exchange.isClosed = true
        rw [closed, gone, Bool.true_or]
    · rcases step with (⟨id, kind, u⟩ | id | u) | (v | _)
      · cases concerned
      · obtain ⟨u, d, callerU, named, abandoned⟩ := abandons id rfl
        obtain ⟨c, caller, form, -⟩ := desk.entries p inside
        have same : c.command.seq = d.command.seq := by
          have : p.id = c.command.seq := by rw [form]; rfl
          rw [← this, named]
          exact beq_iff_eq.mp concerned
        rw [ledger.distinct p.ticket u c d caller callerU same]
        exact .inl abandoned
      · cases concerned
      · cases response : response? v with
        | none => simp [Step.concerns, answeredId?, response] at concerned
        | some r =>
            rw [Step.reply?, response] at noReply
            cases noReply
      · right
        change (s.exchanged (.arrival .ended)).channel.exchange.isClosed = true
        rw [closed]
        exact Bool.or_true _
  · intro t phase
    obtain ⟨accepted, unplaced⟩ := desk.writing t phase
    exact ⟨verdict_exchanged_of_some accepted, unplaced⟩
  · intro t j place
    exact verdict_exchanged_of_some (desk.placed t j place)
  · intro t beyond
    obtain ⟨unheard, phase⟩ := desk.unborn t beyond
    refine ⟨?_, phase⟩
    by_contra told
    obtain ⟨b, told⟩ := Option.ne_none_iff_exists'.mp told
    rcases verdict_exchanged told with old | ⟨id, kind, form, -⟩
    · rw [unheard] at old
      cases old
    · obtain ⟨⟨c, caller, -⟩, -⟩ := registers id kind t form
      exact absurd (lt_of_caller? caller) (Nat.not_lt_of_le beyond)

/-! ### Steps of callers and of the others -/

theorem enter (desk : s.Desk) (c : Caller) : (s.enter c).Desk := by
  have kept : ∀ {t d}, s.caller? t = some d → (s.enter c).caller? t = some d :=
    fun found => caller?_enter_eq_some.mpr (.inl found)
  have beyond : ∀ {t}, (s.enter c).callers.length ≤ t → s.callers.length ≤ t := by
    intro t bound
    rw [Traffic.enter, List.length_append] at bound
    omega
  refine ⟨desk.orderly, ?_, ?_, desk.queuedOnce, ?_, desk.silent, ?_, desk.released,
    desk.registering, desk.writing, desk.placed, fun t bound => desk.unborn t (beyond bound)⟩
  · intro p inside
    obtain ⟨d, caller, told⟩ := desk.entries p inside
    exact ⟨d, kept caller, told⟩
  · intro id kind t inside
    obtain ⟨d, caller, told⟩ := desk.queued id kind t inside
    exact ⟨d, kept caller, told⟩
  · intro id inside
    obtain ⟨t, d, caller, told⟩ := desk.abandons id inside
    exact ⟨t, d, kept caller, told⟩
  · intro t d caller accepted
    rcases caller?_enter_eq_some.mp caller with old | ⟨rfl, -⟩
    · exact desk.accepted t d old accepted
    · have unheard := (desk.unborn _ (Nat.le_refl _)).1
      cases unheard.symm.trans accepted

/-- Somebody new registers its request. -/
theorem call (desk : s.Desk) (c : Caller) :
    Traffic.Desk { s.enter c with
      inbox := s.inbox.pushOrder (.register c.command.seq c.command.kind s.callers.length) } := by
  have entered := desk.enter c
  refine ⟨desk.orderly, entered.entries, ?_, ?_, ?_, desk.silent, entered.accepted, desk.released,
    desk.registering, desk.writing, desk.placed, entered.unborn⟩
  · intro id kind t inside
    rcases List.mem_append.mp inside with inside | last
    · exact entered.queued id kind t inside
    · obtain ⟨rfl, rfl, rfl⟩ := Order.register.inj (List.mem_singleton.mp last)
      exact ⟨c, caller?_enter_eq_some.mpr (.inr ⟨rfl, rfl⟩), rfl,
        (desk.unborn _ (Nat.le_refl _)).1⟩
  · change ((s.inbox.orders ++ [_]).filterMap Order.registrant?).Nodup
    rw [List.filterMap_append, List.nodup_append]
    refine ⟨desk.queuedOnce, List.pairwise_singleton _ _, ?_⟩
    intro t registered u last
    obtain ⟨o, inside, registers⟩ := List.mem_filterMap.mp registered
    cases o with
    | register id kind v =>
        obtain rfl := Option.some.inj registers
        obtain ⟨d, caller, -⟩ := desk.queued id kind v inside
        rw [List.mem_singleton.mp last]
        exact Nat.ne_of_lt (lt_of_caller? caller)
    | abandon id => cases registers
    | awaitHandshake v => cases registers
  · intro id inside
    rcases List.mem_append.mp inside with inside | last
    · exact entered.abandons id inside
    · cases List.mem_singleton.mp last

/-- A caller comes to a phase where it has not to register any more. -/
theorem move (desk : s.Desk) {t : Nat} {phase : Phase} (born : t < s.callers.length)
    (registered : phase ≠ .registering)
    (allowed : phase = .writing → s.verdict t = some true ∧ s.place t = none) :
    (s.move t phase).Desk := by
  have phaseOf : ∀ u, (s.move t phase).phase u = if u = t then phase else s.phase u :=
    fun u => Function.update_apply ..
  refine ⟨desk.orderly, desk.entries, desk.queued, desk.queuedOnce, desk.abandons, desk.silent,
    desk.accepted, desk.released, ?_, ?_, desk.placed, ?_⟩
  · intro u now
    rw [phaseOf] at now
    split at now
    · exact absurd now registered
    · exact desk.registering u now
  · intro u now
    rw [phaseOf] at now
    split at now
    · next same => exact same ▸ allowed now
    · exact desk.writing u now
  · intro u beyond
    change s.callers.length ≤ u at beyond
    obtain ⟨unheard, now⟩ := desk.unborn u beyond
    exact ⟨unheard, by rw [phaseOf, if_neg (by omega), now]⟩

theorem giveUp (desk : s.Desk) {t : Nat} {c : Caller} (caller : s.caller? t = some c) :
    (s.giveUp t c).Desk := by
  have given : ∀ u, s.isAbandoned u = true → (s.giveUp t c).isAbandoned u = true := by
    intro u abandoned
    by_cases same : u = t
    · rw [same]
      exact Function.update_self ..
    · exact (Function.update_of_ne same ..).trans abandoned
  refine ⟨desk.orderly, desk.entries, ?_, ?_, ?_, desk.silent, desk.accepted, ?_,
    desk.registering, desk.writing, desk.placed, desk.unborn⟩
  · intro id kind u inside
    rcases List.mem_append.mp inside with inside | last
    · exact desk.queued id kind u inside
    · cases List.mem_singleton.mp last
  · change ((s.inbox.orders ++ [_]).filterMap Order.registrant?).Nodup
    rw [registrants_push rfl]
    exact desk.queuedOnce
  · intro id inside
    rcases List.mem_append.mp inside with inside | last
    · obtain ⟨u, d, callerU, named, abandoned⟩ := desk.abandons id inside
      exact ⟨u, d, callerU, named, given u abandoned⟩
    · obtain rfl := Order.abandon.inj (List.mem_singleton.mp last)
      exact ⟨t, c, caller, rfl, Function.update_self ..⟩
  · intro u dropped
    rcases desk.released u dropped with abandoned | gone
    · exact .inl (given u abandoned)
    · exact .inr gone

/-- A caller whose request has been let in writes it, and goes on to another phase. -/
theorem deliver (desk : s.Desk) {t : Nat} {phase : Phase} (m : Json)
    (now : s.phase t = .writing) (born : t < s.callers.length)
    (behind : phase ≠ .registering ∧ phase ≠ .writing) : ((s.deliver t m).move t phase).Desk := by
  have moved := desk.move born behind.1 fun again => absurd again behind.2
  have phaseOf : ∀ u, (s.move t phase).phase u = if u = t then phase else s.phase u :=
    fun u => Function.update_apply ..
  have placeOf : ∀ u, (s.deliver t m).place u = if u = t then some s.sent.length else s.place u :=
    fun u => Function.update_apply ..
  refine ⟨desk.orderly, desk.entries, desk.queued, desk.queuedOnce, desk.abandons, desk.silent,
    desk.accepted, desk.released, ?_, ?_, ?_, moved.unborn⟩
  · intro u phaseU
    change (s.move t phase).phase u = _ at phaseU
    have other : u ≠ t := by
      rintro rfl
      rw [phaseOf, if_pos rfl] at phaseU
      exact behind.1 phaseU
    exact (placeOf u).trans ((if_neg other).trans (moved.registering u phaseU))
  · intro u phaseU
    change (s.move t phase).phase u = _ at phaseU
    have other : u ≠ t := by
      rintro rfl
      rw [phaseOf, if_pos rfl] at phaseU
      exact behind.2 phaseU
    obtain ⟨accepted, unplaced⟩ := moved.writing u phaseU
    exact ⟨accepted, (placeOf u).trans ((if_neg other).trans unplaced)⟩
  · intro u j here
    by_cases same : u = t
    · rw [same]
      exact (desk.writing t now).1
    · change (s.deliver t m).place u = some j at here
      rw [placeOf, if_neg same] at here
      exact desk.placed u j here

theorem await (desk : s.Desk) (t : Nat) :
    Traffic.Desk { s with inbox := s.inbox.pushOrder (.awaitHandshake t) } := by
  refine ⟨desk.orderly, desk.entries, ?_, ?_, ?_, desk.silent, desk.accepted, desk.released,
    desk.registering, desk.writing, desk.placed, desk.unborn⟩
  · intro id kind u inside
    rcases List.mem_append.mp inside with inside | last
    · exact desk.queued id kind u inside
    · cases List.mem_singleton.mp last
  · change ((s.inbox.orders ++ [_]).filterMap Order.registrant?).Nodup
    rw [registrants_push rfl]
    exact desk.queuedOnce
  · intro id inside
    rcases List.mem_append.mp inside with inside | last
    · exact desk.abandons id inside
    · cases List.mem_singleton.mp last

/-- What happens on the way to the server and back does not matter to the desk. -/
theorem beside (desk : s.Desk) (outlet : Outlet) (noted : Lifecycle) (arrivals : List Arrival)
    (answers : List (Nat × Json)) (wire : List Json) (hasEnded : Bool) :
    Traffic.Desk { s with
      channel := { s.channel with outlet, noted }, inbox := { s.inbox with arrivals },
      answers, wire, hasEnded } :=
  ⟨desk.orderly, desk.entries, desk.queued, desk.queuedOnce, desk.abandons, desk.silent,
    desk.accepted, desk.released, desk.registering, desk.writing, desk.placed, desk.unborn⟩

/-- The exchange takes the first order of the queue. -/
theorem order (desk : s.Desk) (ledger : s.Ledger) {o : Order} {rest : List Order}
    (first : s.inbox.orders = o :: rest) :
    Traffic.Desk { s.exchanged (.order o) with inbox := { s.inbox with orders := rest } } := by
  refine desk.exchanged ledger ?_ ?_ (first ▸ List.sublist_cons_self o rest)
  · intro id kind t form
    obtain rfl := Step.order.inj form
    refine ⟨desk.queued id kind t (by simp [first]), ?_⟩
    have once := desk.queuedOnce
    rw [first, List.filterMap_cons_some (show Order.registrant? (.register id kind t) = some t
      from rfl), List.nodup_cons] at once
    exact once.1
  · intro id form
    obtain rfl := Step.order.inj form
    exact desk.abandons id (by simp [first])

/-- The exchange takes something that has arrived. -/
theorem arrival (desk : s.Desk) (ledger : s.Ledger) (a : Arrival) (rest : List Arrival) :
    Traffic.Desk { s.exchanged (.arrival a) with inbox := { s.inbox with arrivals := rest } } := by
  have taken : Traffic.Desk { s.exchanged (.arrival a) with inbox := s.inbox } := by
    refine desk.exchanged ledger ?_ ?_ (List.Sublist.refl _)
    · intro id kind t form
      cases form
    · intro id form
      cases form
  exact taken.beside _ _ rest _ _ _

end Desk

/-- Every step keeps the desk. -/
theorem desk_step {s s' : Traffic} (desk : s.Desk) (ledger : s.Ledger) (step : Step s s') :
    s'.Desk := by
  cases step with
  | call c _ _ _ _ => exact desk.call c
  | mute c _ _ _ _ =>
      refine (desk.enter c).move ?_ Phase.noConfusion Phase.noConfusion
      simp [enter]
  | acknowledged caller phase accepted =>
      refine desk.move (lt_of_caller? caller) Phase.noConfusion fun _ => ?_
      exact ⟨accepted, desk.registering _ phase⟩
  | refused caller _ _ =>
      exact desk.move (lt_of_caller? caller) Phase.noConfusion Phase.noConfusion
  | write caller phase _ _ =>
      exact desk.deliver _ phase (lt_of_caller? caller) ⟨Phase.noConfusion, Phase.noConfusion⟩
  | writeFailed caller _ _ _ =>
      exact (desk.giveUp caller).move (lt_of_caller? caller) Phase.noConfusion Phase.noConfusion
  | writeLost caller phase _ =>
      exact (desk.giveUp caller).deliver _ phase (lt_of_caller? caller)
        ⟨Phase.noConfusion, Phase.noConfusion⟩
  | answered caller _ _ =>
      exact desk.move (lt_of_caller? caller) Phase.noConfusion Phase.noConfusion
  | released caller _ _ =>
      exact desk.move (lt_of_caller? caller) Phase.noConfusion Phase.noConfusion
  | expired caller _ _ =>
      exact (desk.giveUp caller).move (lt_of_caller? caller) Phase.noConfusion Phase.noConfusion
  | abandoned caller => exact desk.giveUp caller
  | awaited t => exact desk.await t
  | order first => exact desk.order ledger first
  | arrival first => exact desk.arrival ledger _ _
  | posted m _ => exact desk.beside _ _ _ _ _ _
  | disturbed outlet noted _ => exact desk.beside _ _ _ _ _ _
  | answer _ _ _ _ => exact desk.beside _ _ _ _ _ _
  | spoken v _ => exact desk.beside _ _ _ _ _ _
  | published _ _ => exact desk.beside _ _ _ _ _ _
  | ended _ => exact desk.beside _ _ _ _ _ _

end Traffic

end EditorBridge.Channel
