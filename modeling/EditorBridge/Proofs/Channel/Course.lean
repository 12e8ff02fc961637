import EditorBridge.Proofs.Channel.Lifespan

/-!
# The course of a channel's life

What comes of it when parties have a hand in the stage of a channel in any order (`Lifespan.Steps`).
Those who ask for the stage are told stages that do not go back, though each of them looks twice
and others come between (`Candid`). The server has accepted the handshake before anybody is told
that the channel is ready, and before it is thanked (`Consent`).
-/

namespace EditorBridge.Channel

/-! ### The answer to the handshake -/

/-- Whether a message of the server says that it accepts the handshake. -/
def AcceptsHandshake (v : Json) : Prop :=
  ∃ r, response? v = some r ∧ r.id.bind Rpc.RequestId.number? = some handshakeId ∧
    r.failure = none

theorem greeted_resolve {x : Exchange} {r : Rpc.Response} {ticket : Nat} {result : Json}
    (greeted : .greeted ticket result ∈ (x.resolve r).2) :
    x.handshake.isSome = true ∧ r.id.bind Rpc.RequestId.number? = some handshakeId ∧
      r.failure = none := by
  rw [Exchange.resolve] at greeted
  cases id : r.id.bind Rpc.RequestId.number? with
  | none => simp [id] at greeted
  | some n =>
      simp only [id] at greeted
      split at greeted
      · next zero =>
          simp only [Option.mem_toList, Option.map_eq_some_iff] at greeted
          obtain ⟨waiting, found, form⟩ := greeted
          refine ⟨by rw [found]; rfl, by rw [zero], ?_⟩
          cases failure : r.failure with
          | none => rfl
          | some e => simp [Exchange.greeting, failure] at form
      · cases found : x.find? n <;> simp [found] at greeted

/-- The caller that waits for the handshake is greeted by a message that accepts it. -/
theorem accepts_of_greeted {x : Exchange} {a : Arrival} {ticket : Nat} {result : Json}
    (greeted : .greeted ticket result ∈ (x.receive a).2) :
    x.handshake.isSome = true ∧ ∃ v, a = .frame v ∧ AcceptsHandshake v := by
  cases closed : x.isClosed with
  | true => simp [Exchange.receive, closed] at greeted
  | false =>
      simp only [Exchange.receive, closed, Bool.false_eq_true, if_false] at greeted
      cases a with
      | ended => simp [Exchange.close] at greeted
      | frame v =>
          cases shape : Rpc.Incoming.classify? v with
          | none => simp [shape] at greeted
          | some message =>
              cases message with
              | notification n => simp [shape, Exchange.take] at greeted
              | call c => simp [shape, Exchange.take] at greeted
              | response r =>
                  simp only [shape, Exchange.take] at greeted
                  obtain ⟨waits, id, accepts⟩ := greeted_resolve greeted
                  exact ⟨waits, v, rfl, r, by rw [response?, shape], id, accepts⟩

/-- Somebody waits for the handshake only as long as it is not answered. -/
theorem handshake_receive {x : Exchange} {a : Arrival}
    (waits : (x.receive a).1.handshake.isSome = true) (goesOn : x.isClosed = false) :
    x.handshake.isSome = true ∧ ∀ v, a = .frame v → answeredId? v ≠ some handshakeId := by
  cases a with
  | ended => simp [Exchange.receive, goesOn, Exchange.close] at waits
  | frame v =>
      rw [Exchange.receive_answer goesOn] at waits
      cases answer : response? v with
      | none =>
          rw [answer] at waits
          refine ⟨waits, ?_⟩
          rintro w ⟨⟩
          simp [answeredId?, answer]
      | some r =>
          simp only [answer, Exchange.resolve] at waits
          cases id : r.id.bind Rpc.RequestId.number? with
          | none =>
              simp only [id] at waits
              refine ⟨waits, ?_⟩
              rintro w ⟨⟩
              simp [answeredId?, answer, id]
          | some n =>
              by_cases zero : n = handshakeId
              · simp [id, zero] at waits
              · have kept : x.handshake.isSome = true := by
                  simp only [id, if_neg zero] at waits
                  cases found : x.find? n <;> simp only [found] at waits <;> exact waits
                refine ⟨kept, ?_⟩
                rintro w ⟨⟩
                simp [answeredId?, answer, id, zero]

/-- Nobody comes to wait for the handshake with an order of another kind. -/
theorem handshake_order {x : Exchange} {o : Order} (other : ∀ ticket, o ≠ .awaitHandshake ticket) :
    (x.order o).1.handshake = x.handshake := by
  cases o with
  | register id kind ticket =>
      rw [Exchange.order]
      cases x.refusal? id <;> rfl
  | abandon id =>
      rw [Exchange.order]
      cases x.find? id <;> rfl
  | awaitHandshake ticket => exact absurd rfl (other ticket)

namespace Lifespan

variable {s t : Lifespan} {i : Nat}

/-! ### What those who ask are told -/

/-- Whether an event means that the server is gone. -/
def Event.isFinal : Event → Bool
  | stopped _ | left | told _ .dead => true
  | _ => false

/-- Whether somebody has been told a stage who began to ask for it after an event. -/
def ToldSince (log : List Event) (e : Event) (stage : Lifecycle) : Prop :=
  ∃ i, [.told i stage, .asked i, e].Sublist log

/-- What always holds of those who ask. The server is gone if something has happened that means so
(`ended`). The channel has been noted to be ready if somebody has been told so (`begun`). Whoever
has seen the server began to ask before it was gone (`seeing`). Whoever began to ask when the server
was gone has been told so (`dead`). Whoever began to ask when somebody had been told that the
channel is ready has not been told that it is initializing (`later`). -/
structure Candid (s : Lifespan) : Prop where
  ended : ∀ e ∈ s.log, e.isFinal = true → s.channel.isAlive = false
  begun : ∀ i, .told i .ready ∈ s.log → s.channel.noted ≠ .initializing
  seeing : ∀ i : Nat, s.askers[i]? = some .seeing → ∀ e : Event, e.isFinal = true →
    ¬ [.asked i, e].Sublist s.log
  dead : ∀ (e : Event) stage, e.isFinal = true → ToldSince s.log e stage → stage = .dead
  later : ∀ i stage, ToldSince s.log (.told i .ready) stage → stage ≠ .initializing

theorem not_toldSince_nil (e : Event) (stage : Lifecycle) : ¬ ToldSince [] e stage := by
  rintro ⟨i, nothing⟩
  cases nothing

theorem candid_start (outlet : Outlet) (processId : Nat) (root : String) (ticket : Nat) :
    Candid (start outlet processId root ticket) where
  ended := nofun
  begun := nofun
  seeing := nofun
  dead e stage _ since := absurd since (not_toldSince_nil e stage)
  later i stage since := absurd since (not_toldSince_nil (.told i .ready) stage)

/-- After an event that tells nobody anything, those have been told a stage that had been told
before. -/
theorem ToldSince.of_cons {log : List Event} {e x : Event} {stage : Lifecycle}
    (since : ToldSince (x :: log) e stage) (silent : ∀ i stage, x ≠ .told i stage) :
    ToldSince log e stage := by
  obtain ⟨i, sublist⟩ := since
  rcases List.sublist_cons_iff.mp sublist with before | ⟨rest, form, -⟩
  · exact ⟨i, before⟩
  · exact absurd (List.cons.inj form).1.symm (silent i stage)

/-- What holds of those who ask stays if nobody is told anything. -/
theorem Candid.silent (candid : Candid s) (step : Step s t) (log : t.log = s.log)
    (seeing : ∀ i : Nat, t.askers[i]? = some .seeing →
      s.askers[i]? = some .seeing ∨ s.channel.isAlive = true) : Candid t where
  ended e inside final := isAlive_step step (candid.ended e (log ▸ inside) final)
  begun i inside := noted_step step (candid.begun i (log ▸ inside))
  seeing i sees e final sublist := by
    rw [log] at sublist
    rcases seeing i sees with before | there
    · exact candid.seeing i before e final sublist
    · have inside : e ∈ s.log := sublist.subset (by simp)
      rw [candid.ended e inside final] at there
      cases there
  dead e stage final since := candid.dead e stage final (log ▸ since)
  later i stage since := candid.later i stage (log ▸ since)

theorem Candid.record (candid : Candid s) (step : Step s t) {x : Event} (log : t.log = x :: s.log)
    (silent : ∀ i stage, x ≠ .told i stage) (final : x.isFinal = true → t.channel.isAlive = false)
    (seeing : ∀ i : Nat, t.askers[i]? = some .seeing →
      s.askers[i]? = some .seeing ∧ x ≠ .asked i) : Candid t where
  ended e inside isFinal := by
    rw [log] at inside
    rcases List.mem_cons.mp inside with rfl | before
    · exact final isFinal
    · exact isAlive_step step (candid.ended e before isFinal)
  begun i inside := by
    rw [log] at inside
    have before := (List.mem_cons.mp inside).resolve_left (silent i .ready).symm
    exact noted_step step (candid.begun i before)
  seeing i sees e isFinal sublist := by
    obtain ⟨before, other⟩ := seeing i sees
    rw [log] at sublist
    rcases List.sublist_cons_iff.mp sublist with sublist | ⟨rest, form, -⟩
    · exact candid.seeing i before e isFinal sublist
    · exact other (List.cons.inj form).1.symm
  dead e stage isFinal since := candid.dead e stage isFinal ((log ▸ since).of_cons silent)
  later i stage since := candid.later i stage ((log ▸ since).of_cons silent)

/-- Whoever is told a stage has seen that the server is gone, or has seen the server and looks at
what has been noted. -/
theorem Candid.tell (candid : Candid s) (mortal : Mortal s) {stage : Lifecycle}
    (told : s.channel.isAlive = false ∧ stage = .dead ∨
      s.askers[i]? = some .seeing ∧ stage = s.channel.noted) : Candid (s.tell i stage) where
  ended e inside final := by
    rcases List.mem_cons.mp inside with rfl | before
    · rcases told with ⟨gone, -⟩ | ⟨-, rfl⟩
      · exact gone
      · refine mortal.buried ?_
        cases noted : s.channel.noted <;> simp_all [Event.isFinal]
    · exact candid.ended e before final
  begun j inside := by
    rcases List.mem_cons.mp inside with same | before
    · obtain ⟨rfl, rfl⟩ := Event.told.inj same
      rcases told with ⟨-, dead⟩ | ⟨-, noted⟩
      · cases dead
      · have kept : (s.tell j .ready).channel.noted = .ready := noted.symm
        rw [kept]
        decide
    · exact candid.begun j before
  seeing j sees e final sublist := by
    rcases List.sublist_cons_iff.mp sublist with sublist | ⟨rest, form, -⟩
    · refine candid.seeing j ?_ e final sublist
      rw [Lifespan.tell, Lifespan.record, setAsker, List.getElem?_set] at sees
      split at sees
      · split at sees <;> cases sees
      · exact sees
    · cases (List.cons.inj form).1
  dead e stage' final since := by
    obtain ⟨j, sublist⟩ := since
    rcases List.sublist_cons_iff.mp sublist with sublist | ⟨rest, form, sublist⟩
    · exact candid.dead e stage' final ⟨j, sublist⟩
    · obtain ⟨same, rfl⟩ := List.cons.inj form
      obtain ⟨rfl, rfl⟩ := Event.told.inj same
      rcases told with ⟨-, dead⟩ | ⟨sees, -⟩
      · exact dead
      · exact absurd sublist (candid.seeing j sees e final)
  later j stage' since := by
    obtain ⟨k, sublist⟩ := since
    rcases List.sublist_cons_iff.mp sublist with sublist | ⟨rest, form, sublist⟩
    · exact candid.later j stage' ⟨k, sublist⟩
    · obtain ⟨same, rfl⟩ := List.cons.inj form
      obtain ⟨rfl, rfl⟩ := Event.told.inj same
      rcases told with ⟨-, rfl⟩ | ⟨-, rfl⟩
      · decide
      · exact candid.begun j (sublist.subset (by simp))

theorem candid_step (candid : Candid s) (mortal : Mortal s) (step : Step s t) : Candid t := by
  cases step with
  | @take a goesOn =>
      exact candid.record (.take a goesOn) rfl nofun nofun fun i sees => ⟨sees, nofun⟩
  | @order o other => exact candid.silent (.order o other) rfl fun i sees => .inl sees
  | @write m => exact candid.silent (.write m) rfl fun i sees => .inl sees
  | ready greeter => exact candid.silent (.ready greeter) rfl fun i sees => .inl sees
  | thank greeter =>
      exact candid.record (.thank greeter) rfl nofun nofun fun i sees => ⟨sees, nofun⟩
  | leave => exact candid.record .leave rfl nofun (fun _ => rfl) fun i sees => ⟨sees, nofun⟩
  | comeToStop => exact candid.silent .comeToStop rfl fun i sees => .inl sees
  | comeToPart => exact candid.silent .comeToPart rfl fun i sees => .inl sees
  | seek ender => exact candid.silent (.seek ender) rfl fun i sees => .inl sees
  | part ender => exact candid.silent (.part ender) rfl fun i sees => .inl sees
  | halt ender => exact candid.silent (.halt ender) rfl fun i sees => .inl sees
  | bury ender =>
      refine candid.record (.bury ender) rfl nofun (fun _ => ?_) fun i sees => ⟨sees, nofun⟩
      exact mortal.noting (List.mem_of_getElem? ender)
  | ask =>
      refine candid.record .ask rfl nofun nofun fun i sees => ?_
      rw [call, List.getElem?_append] at sees
      split at sees
      · next inside =>
          refine ⟨sees, fun same => ?_⟩
          exact absurd (Event.asked.inj same) (Nat.ne_of_gt inside)
      · have last := List.mem_of_getElem? sees
        cases List.mem_singleton.mp last
  | @see i asker there => exact candid.silent (.see asker there) rfl fun _ _ => .inr there
  | miss asker gone => exact candid.tell mortal (.inl ⟨gone, rfl⟩)
  | read asker => exact candid.tell mortal (.inr ⟨asker, rfl⟩)

/-! ### Those who act on the answer to the handshake -/

/-- The greeter hears that the server accepts from an effect that says so. -/
theorem Greeter.eq_heard_of_foldl {effects : List Effect} {g : Greeter}
    (heard : effects.foldl hear g = .heard) :
    g = .heard ∨ ∃ ticket result, .greeted ticket result ∈ effects := by
  induction effects generalizing g with
  | nil => exact .inl heard
  | cons first effects ih =>
      rcases ih heard with before | ⟨ticket, result, inside⟩
      · cases first with
        | greeted ticket result => exact .inr ⟨ticket, result, List.mem_cons_self ..⟩
        | _ => cases g <;> first | exact .inl rfl | cases before
      · exact .inr ⟨ticket, result, List.mem_cons_of_mem _ inside⟩

/-- A greeter that does not wait does not mind what comes of an arrival. -/
theorem Greeter.foldl_hear_of_ne (effects : List Effect) {g : Greeter} (busy : g ≠ .waiting) :
    effects.foldl hear g = g := by
  induction effects with
  | nil => rfl
  | cons first effects ih =>
      have same : g.hear first = g := by
        cases g with
        | waiting => exact absurd rfl busy
        | _ => rfl
      rw [List.foldl_cons, same, ih]

/-- Nobody thanks the server because of what comes of an arrival. -/
theorem Greeter.eq_thanking_of_foldl {effects : List Effect} {g : Greeter}
    (thanking : effects.foldl hear g = .thanking) : g = .thanking := by
  induction effects generalizing g with
  | nil => exact thanking
  | cons first effects ih =>
      have next := ih thanking
      cases g with
      | waiting => cases first <;> cases next
      | _ => exact next

/-- Whether the first answer to the handshake that has been taken says that the server accepts
it. -/
def IsAccepted (log : List Event) : Prop :=
  ∃ later v earlier, log = later ++ .taken (.frame v) :: earlier ∧ AcceptsHandshake v ∧
    ∀ w, .taken (.frame w) ∈ earlier → answeredId? w ≠ some handshakeId

theorem IsAccepted.cons {log : List Event} (accepted : IsAccepted log) (e : Event) :
    IsAccepted (e :: log) := by
  obtain ⟨later, v, earlier, form, accepts, first⟩ := accepted
  exact ⟨e :: later, v, earlier, congrArg (e :: ·) form, accepts, first⟩

/-- Whether nothing of the kind may happen unless the server has accepted the handshake. -/
def Event.needsConsent : Event → Bool
  | thanked | told _ .ready => true
  | _ => false

/-- Whether the greeter acts on what it has heard, or the channel has been noted to be ready. -/
def IsGreeted (s : Lifespan) : Prop :=
  s.greeter = .heard ∨ s.greeter = .thanking ∨ s.channel.noted = .ready

/-- What always holds of the one who waits for the handshake. Nobody has answered while somebody
waits for the answer (`unanswered`). The server has accepted the handshake if that is acted upon
(`given`). The server had accepted when something happened that may not happen before (`before`). A
greeter that has thanked the server has nothing left to do (`thanked`). The server has been thanked
at most once (`once`). -/
structure Consent (s : Lifespan) : Prop where
  unanswered : s.channel.exchange.handshake.isSome = true →
    ∀ v, .taken (.frame v) ∈ s.log → answeredId? v ≠ some handshakeId
  given : s.IsGreeted → IsAccepted s.log
  before : ∀ (e : Event) later earlier, e.needsConsent = true → s.log = later ++ e :: earlier →
    IsAccepted earlier
  thanked : .thanked ∈ s.log → s.greeter = .done
  once : ¬ [Event.thanked, .thanked].Sublist s.log

theorem consent_start (outlet : Outlet) (processId : Nat) (root : String) (ticket : Nat) :
    Consent (start outlet processId root ticket) where
  unanswered _ _ := nofun
  given acts := by
    simp only [IsGreeted, start] at acts
    rcases acts with heard | thanking | ready
    · split at heard <;> cases heard
    · split at thanking <;> cases thanking
    · cases ready
  before e later earlier _ form := by
    cases later <;> cases form
  thanked := nofun
  once := nofun

theorem Consent.silent (consent : Consent s) (log : t.log = s.log)
    (handshake : t.channel.exchange.handshake.isSome = true →
      s.channel.exchange.handshake.isSome = true)
    (greeted : t.IsGreeted → s.IsGreeted) (done : s.greeter = .done → t.greeter = .done) :
    Consent t where
  unanswered waits v inside := consent.unanswered (handshake waits) v (log ▸ inside)
  given acts := log ▸ consent.given (greeted acts)
  before e later earlier needs form := consent.before e later earlier needs (log ▸ form)
  thanked inside := done (consent.thanked (log ▸ inside))
  once := log ▸ consent.once

theorem Consent.record (consent : Consent s) {x : Event} (log : t.log = x :: s.log)
    (handshake : t.channel.exchange.handshake.isSome = true →
      s.channel.exchange.handshake.isSome = true ∧
        ∀ v, x = .taken (.frame v) → answeredId? v ≠ some handshakeId)
    (greeted : t.IsGreeted → s.IsGreeted ∨ IsAccepted t.log)
    (needs : x.needsConsent = true → s.IsGreeted)
    (done : s.greeter = .done → t.greeter = .done)
    (thanks : x = .thanked → s.greeter ≠ .done ∧ t.greeter = .done) : Consent t where
  unanswered waits v inside := by
    obtain ⟨before, other⟩ := handshake waits
    rw [log] at inside
    rcases List.mem_cons.mp inside with same | earlier
    · exact other v same.symm
    · exact consent.unanswered before v earlier
  given acts := by
    rcases greeted acts with before | accepted
    · rw [log]
      exact (consent.given before).cons x
    · exact accepted
  before e later earlier needsIt form := by
    rw [log] at form
    cases later with
    | nil =>
        obtain ⟨rfl, rfl⟩ := List.cons.inj form
        exact consent.given (needs needsIt)
    | cons first later => exact consent.before e later earlier needsIt (List.cons.inj form).2
  thanked inside := by
    rw [log] at inside
    rcases List.mem_cons.mp inside with same | earlier
    · exact (thanks same.symm).2
    · exact done (consent.thanked earlier)
  once twice := by
    rw [log] at twice
    rcases List.sublist_cons_iff.mp twice with twice | ⟨rest, form, again⟩
    · exact consent.once twice
    · obtain ⟨same, rfl⟩ := List.cons.inj form
      exact (thanks same.symm).1 (consent.thanked (again.subset (List.mem_singleton_self _)))

/-- The greeter hears that the server accepts when the first answer to the handshake says so. -/
theorem Consent.take (consent : Consent s) (a : Arrival)
    (goesOn : s.channel.exchange.isClosed = false) : Consent ((s.take a).record (.taken a)) := by
  refine consent.record rfl ?handshake ?greeted nofun ?done nofun
  case handshake =>
    intro waits
    obtain ⟨before, other⟩ := handshake_receive waits goesOn
    exact ⟨before, fun v same => other v (Event.taken.inj same)⟩
  case greeted =>
    rintro (heard | thanking | ready)
    · rcases Greeter.eq_heard_of_foldl heard with before | ⟨ticket, result, inside⟩
      · exact .inl (.inl before)
      · obtain ⟨waits, v, rfl, accepts⟩ := accepts_of_greeted inside
        exact .inr ⟨[], v, s.log, rfl, accepts, consent.unanswered waits⟩
    · exact .inl (.inr (.inl (Greeter.eq_thanking_of_foldl thanking)))
    · exact .inl (.inr (.inr ready))
  case done =>
    intro idle
    refine (Greeter.foldl_hear_of_ne _ ?_).trans idle
    rw [idle]
    nofun

theorem consent_step (consent : Consent s) (step : Step s t) : Consent t := by
  cases step with
  | take a goesOn => exact consent.take a goesOn
  | order o other =>
      refine consent.silent rfl (fun waits => ?_) id id
      rw [← handshake_order other]
      exact waits
  | leave => exact consent.record rfl (fun waits => ⟨waits, nofun⟩) .inl nofun id nofun
  | ready greeter =>
      refine consent.silent rfl id (fun _ => .inl greeter) fun idle => ?_
      rw [greeter] at idle
      cases idle
  | thank greeter =>
      refine consent.record rfl (fun waits => ⟨waits, nofun⟩) ?_ (fun _ => .inr (.inl greeter))
        (fun _ => rfl) fun _ => ⟨?_, rfl⟩
      · exact fun _ => .inl (.inr (.inl greeter))
      · rw [greeter]
        nofun
  | bury =>
      refine consent.record rfl (fun waits => ⟨waits, nofun⟩) ?_ nofun id nofun
      rintro (heard | thanking | ready)
      · exact .inl (.inl heard)
      · exact .inl (.inr (.inl thanking))
      · cases ready
  | ask => exact consent.record rfl (fun waits => ⟨waits, nofun⟩) .inl nofun id nofun
  | miss => exact consent.record rfl (fun waits => ⟨waits, nofun⟩) .inl nofun id nofun
  | @read i asker =>
      refine consent.record rfl (fun waits => ⟨waits, nofun⟩) .inl (fun needs => ?_) id nofun
      cases noted : s.channel.noted with
      | ready => exact .inr (.inr noted)
      | _ =>
          rw [noted] at needs
          cases needs
  | _ => exact consent.silent rfl id id id

/-! ### What comes of it -/

/-- What always holds of a channel and of all who have a hand in its stage. -/
structure Sound (s : Lifespan) : Prop where
  mortal : Mortal s
  candid : Candid s
  consent : Consent s

theorem sound_start (outlet : Outlet) (processId : Nat) (root : String) (ticket : Nat) :
    Sound (start outlet processId root ticket) :=
  ⟨mortal_start .., candid_start .., consent_start ..⟩

theorem sound_step (sound : Sound s) (step : Step s t) : Sound t :=
  ⟨mortal_step sound.mortal step, candid_step sound.candid sound.mortal step,
    consent_step sound.consent step⟩

theorem sound_steps (sound : Sound s) (steps : Steps s t) : Sound t := by
  induction steps with
  | refl => exact sound
  | tail _ step ih => exact sound_step ih step

/-- The stage of a channel does not go back, whatever comes. -/
theorem stage_steps (sound : Sound s) (steps : Steps s t) :
    s.channel.stage.toByte ≤ t.channel.stage.toByte := by
  induction steps with
  | refl => exact UInt8.le_refl _
  | tail before step ih =>
      exact UInt8.le_trans ih (stage_step (sound_steps sound before).mortal step)

/-- What must hold of the course of a channel's life. The stage never goes back (`onward`). Nobody
is told a stage that lies before one which somebody had been told when it began to ask (`forward`).
Nobody is told that the channel is ready before the server has accepted the handshake (`ready`).
When somebody who stopped the server has returned, or the reader has stopped, the channel is dead
whatever is noted, and whoever asks from then on is told so (`final`). The server is thanked once at
most (`once`). The server is not thanked before it has accepted the handshake (`thanked`). -/
structure RunsItsCourse (s : Lifespan) : Prop where
  onward : ∀ t, Steps s t → s.channel.stage.toByte ≤ t.channel.stage.toByte
  forward : ∀ i a b, ToldSince s.log (.told i a) b → a.toByte ≤ b.toByte
  ready : ∀ i later earlier, s.log = later ++ .told i .ready :: earlier → IsAccepted earlier
  final : ∀ e ∈ s.log, (∃ i, e = .stopped i) ∨ e = .left →
    s.channel.stage = .dead ∧ ∀ a, ToldSince s.log e a → a = .dead
  once : ¬ [Event.thanked, .thanked].Sublist s.log
  thanked : ∀ later earlier, s.log = later ++ .thanked :: earlier → IsAccepted earlier

theorem Candid.forward (candid : Candid s) {a b : Lifecycle}
    (since : ToldSince s.log (.told i a) b) : a.toByte ≤ b.toByte := by
  cases a with
  | initializing => exact UInt8.zero_le
  | ready =>
      have later := candid.later i b since
      cases b with
      | initializing => exact absurd rfl later
      | ready | dead => decide
  | dead =>
      rw [candid.dead (.told i .dead) b rfl since]
      exact UInt8.le_refl _

/-- Whatever the parties do and in whatever order, the life of a channel runs its course. -/
theorem runsItsCourse {outlet : Outlet} {processId : Nat} {root : String} {ticket : Nat}
    (reach : Steps (start outlet processId root ticket) s) : RunsItsCourse s := by
  have sound := sound_steps (sound_start outlet processId root ticket) reach
  refine ⟨?onward, ?forward, ?ready, ?final, sound.consent.once, ?thanked⟩
  case onward => exact fun t steps => stage_steps sound steps
  case forward => exact fun i a b since => sound.candid.forward since
  case ready => exact fun i later earlier => sound.consent.before _ later earlier rfl
  case final =>
    intro e inside ends
    have final : e.isFinal = true := by rcases ends with ⟨i, rfl⟩ | rfl <;> rfl
    exact ⟨stage_of_not_alive (sound.candid.ended e inside final),
      fun a since => sound.candid.dead e a final since⟩
  case thanked => exact fun later earlier => sound.consent.before _ later earlier rfl

/-- The server accepts the handshake and is stopped, then the greeter notes that the channel is
ready: whoever asked first is told that the channel is initializing, and whoever asks in the end
that it is dead. -/
theorem runsItsCourse_noted_late :
    ∃ s, Steps (start .start 1 "/w" 0) s ∧ s.channel.noted = .ready ∧
      ToldSince s.log (.told 0 .initializing) .dead ∧ RunsItsCourse s := by
  let accepted : Arrival :=
    .frame (.object [("jsonrpc", .string "2.0"), ("id", .int 0), ("result", .null)])
  have asked : Steps (start .start 1 "/w" 0) _ := .single .ask
  have told := (asked.tail (.see (i := 0) rfl rfl)).tail (.read (i := 0) rfl)
  have taken := told.tail (.take accepted rfl)
  have halted := (taken.tail .comeToStop).tail (.halt (i := 0) rfl)
  have buried := halted.tail (.bury (i := 0) rfl)
  have thanked := (buried.tail (.ready rfl)).tail (.thank rfl)
  have reach := (thanked.tail .ask).tail (.miss (i := 1) rfl rfl)
  have since : [Event.told 1 .dead, .asked 1, .told 0 .initializing].Sublist
      [.told 1 .dead, .asked 1, .thanked, .stopped 0, .taken accepted, .told 0 .initializing,
        .asked 0] :=
    .cons_cons _ (.cons_cons _ (.cons _ (.cons _ (.cons _ (.cons_cons _ (List.nil_sublist _))))))
  exact ⟨_, reach, rfl, ⟨1, since⟩, runsItsCourse reach⟩

end Lifespan

end EditorBridge.Channel
