import EditorBridge.Hub.Roster
import EditorBridge.Proofs.Channel.Step
import EditorBridge.Proofs.Workspace.Counting

/-!
# Requests in the hub

The requests that wait in the tables of all channels, and what becomes of them. Whatever the hub
does short of letting a new request in, no request comes into a table, and all that is noted under
tickets is about requests that were there: a reply carries the number and the command of the request
that it is for. `Follows` says this of two states of a hub, and it holds for every function that the
console and the servers use.
-/

namespace EditorBridge

namespace Channel

/-- Whether what has become of a request is right for it: it is noted under its ticket, and a reply
carries its number and the name of its command. -/
def Pending.Fits (p : Pending) (outcome : Nat × Option Reply) : Prop :=
  outcome.1 = p.ticket ∧
    ∀ reply, outcome.2 = some reply → reply.requestSeq = p.id ∧ reply.command = p.kind.name

theorem fits_step {p : Pending} {step : Step} (concerned : step.concerns p.id = true) :
    p.Fits (p.ticket, step.reply? p) := by
  refine ⟨rfl, fun reply replied => ?_⟩
  rcases step with o | (v | _)
  · cases replied
  · have answers := Step.concerns_frame.mp concerned
    obtain ⟨r, response, rfl⟩ := Option.map_eq_some_iff.mp replied
    rw [answeredId?, response, Option.bind_some] at answers
    exact Exchange.replyTo_names answers
  · cases replied

/-- A channel after something that lets no request in. -/
structure Keeps (c c' : Channel) (effects : List Effect) : Prop where
  orderly : c'.exchange.Orderly
  pending : ∀ p ∈ c'.exchange.pending, p ∈ c.exchange.pending
  outcomes : ∀ o ∈ effects.filterMap Effect.outcome?, ∃ p ∈ c.exchange.pending, p.Fits o

theorem keeps_same {c c' : Channel} (orderly : c.exchange.Orderly)
    (same : c'.exchange = c.exchange) : c.Keeps c' [] :=
  ⟨same ▸ orderly, by simp [same], by simp⟩

theorem keeps_step {c c' : Channel} (step : Step) (orderly : c.exchange.Orderly)
    (new : step.admitted? c.exchange = none) (same : c'.exchange = (c.exchange.step step).1) :
    c.Keeps c' (c.exchange.step step).2 := by
  refine ⟨same ▸ Exchange.orderly_step orderly step, ?_, ?_⟩
  · intro p inside
    rw [same, Exchange.pending_step orderly, new, Option.toList_none, List.append_nil] at inside
    exact (List.mem_filter.mp inside).1
  · intro o inside
    rw [Exchange.outcomes_step orderly] at inside
    obtain ⟨p, waited, rfl⟩ := List.mem_map.mp inside
    obtain ⟨waited, concerned⟩ := List.mem_filter.mp waited
    exact ⟨p, waited, fits_step concerned⟩

theorem exchange_foldl_carryOut (effects : List Effect) (c : Channel) :
    (effects.foldl carryOut c).exchange = c.exchange := by
  induction effects generalizing c with
  | nil => rfl
  | cons e effects ih =>
      rw [List.foldl_cons, ih]
      cases e <;> rfl

variable {c : Channel}

theorem keeps_arrive (orderly : c.exchange.Orderly) (a : Arrival) :
    c.Keeps (c.arrive a).1 (c.arrive a).2 := by
  have kept : (c.arrive a).1.exchange = (c.exchange.step (.arrival a)).1 :=
    exchange_foldl_carryOut ..
  exact keeps_step (.arrival a) orderly rfl kept

theorem keeps_abandon (orderly : c.exchange.Orderly) (id : Int64) :
    c.Keeps (c.abandon id).1 (c.abandon id).2 :=
  keeps_step (.order (.abandon id)) orderly rfl rfl

theorem exchange_post (c : Channel) (command : Command) :
    (c.post command).1.exchange = c.exchange := by
  rw [post]
  cases command.toMessage? <;> rfl

theorem keeps_greet (orderly : c.exchange.Orderly) (processId : Nat) (root : String)
    (ticket : Nat) :
    c.Keeps (c.greet processId root ticket).1 (c.greet processId root ticket).2.1 :=
  keeps_step (.order (.awaitHandshake ticket)) orderly rfl rfl

end Channel

open Channel (Pending Effect)

namespace Hub

variable {η : Type} {h h' h'' : Hub η}

/-- The requests that wait on any channel. -/
def pendings (h : Hub η) : List Pending :=
  h.links.flatMap fun link => link.channel.exchange.pending

/-- Whether the table of every channel is orderly. -/
def Tidy (h : Hub η) : Prop :=
  ∀ link ∈ h.links, link.channel.exchange.Orderly

/-- What holds of a hub after anything that lets no request in. What has become of requests since
became of some that waited (`outcomes`). -/
structure Follows (h h' : Hub η) : Prop where
  tidy : h'.Tidy
  pendings : ∀ p ∈ h'.pendings, p ∈ h.pendings
  outcomes : ∀ o ∈ h'.outcomes, o ∈ h.outcomes ∨ ∃ p ∈ h.pendings, p.Fits o
  tickets : h.nextTicket ≤ h'.nextTicket
  calls : h.calls <+: h'.calls

theorem Follows.refl (tidy : h.Tidy) : h.Follows h :=
  ⟨tidy, fun _ inside => inside, fun _ inside => .inl inside, Nat.le_refl _, List.prefix_refl _⟩

theorem Follows.trans (first : h.Follows h') (second : h'.Follows h'') : h.Follows h'' := by
  refine ⟨second.tidy, fun p inside => first.pendings p (second.pendings p inside), ?_,
    Nat.le_trans first.tickets second.tickets, first.calls.trans second.calls⟩
  intro o inside
  rcases second.outcomes o inside with old | ⟨p, waited, fits⟩
  · exact first.outcomes o old
  · exact .inr ⟨p, first.pendings p waited, fits⟩

theorem Follows.of_eq {α : Type} {done : Hub η × α} {a : α} (follows : h.Follows done.1)
    (form : done = (h', a)) : h.Follows h' := by
  rw [form] at follows
  exact follows

/-- Workspaces, subscriptions and the roster have nothing to do with requests. -/
theorem follows_of_same (tidy : h.Tidy) (links : h'.links = h.links)
    (outcomes : h'.outcomes = h.outcomes) (calls : h'.calls = h.calls)
    (tickets : h.nextTicket ≤ h'.nextTicket) : h.Follows h' := by
  refine ⟨?_, ?_, ?_, tickets, calls ▸ List.prefix_refl _⟩
  · intro link inside
    exact tidy link (links ▸ inside)
  · intro p inside
    rw [Hub.pendings, links] at inside
    exact inside
  · intro o inside
    exact .inl (outcomes ▸ inside)

/-! ### Channels -/

theorem mem_pendings {p : Pending} :
    p ∈ h.pendings ↔ ∃ link ∈ h.links, p ∈ link.channel.exchange.pending :=
  List.mem_flatMap

theorem mem_links_setChannel {n : Nat} {channel : Channel} {link : Link}
    (inside : link ∈ (h.setChannel n channel).links) :
    link ∈ h.links ∨ link.channel = channel := by
  obtain ⟨i, found⟩ := List.mem_iff_getElem?.mp inside
  rw [setChannel, List.getElem?_modify] at found
  split at found
  · obtain ⟨old, -, rfl⟩ := Option.map_eq_some_iff.mp found
    exact .inr rfl
  · have old : h.links[i]? = some link := by simpa using found
    exact .inl (List.mem_of_getElem? old)

theorem dispatch_frame (h : Hub η) (board : Nat) (e : Event) :
    (h.dispatch board e).links = h.links ∧ (h.dispatch board e).outcomes = h.outcomes ∧
      (h.dispatch board e).nextTicket = h.nextTicket ∧ h.calls <+: (h.dispatch board e).calls := by
  have more : ∀ (called : List η) (state : Subscriptions η × List (η × Event)), state.2 <+:
      (called.foldl (fun state handler => (state.1, state.2 ++ [(handler, e)])) state).2 := by
    intro called
    induction called with
    | nil => exact fun state => List.prefix_refl _
    | cons handler called ih =>
        intro state
        exact (List.prefix_append _ _).trans (ih (state.1, state.2 ++ [(handler, e)]))
  rw [dispatch]
  cases h.boards[board]? with
  | none => exact ⟨rfl, rfl, rfl, List.prefix_refl _⟩
  | some subscriptions =>
      refine ⟨rfl, rfl, rfl, ?_⟩
      dsimp only [Subscriptions.dispatch]
      cases subscriptions.handlers e.name with
      | nil => exact List.prefix_refl _
      | cons handler called => exact more (handler :: called) (subscriptions, h.calls)

/-- Effects add the outcomes that are among them to what is noted, and touch no channel. -/
theorem foldl_note (board : Nat) (effects : List Effect) (h : Hub η) :
    (effects.foldl (note board) h).links = h.links ∧
      (effects.foldl (note board) h).outcomes =
        h.outcomes ++ effects.filterMap Effect.outcome? ∧
      (effects.foldl (note board) h).nextTicket = h.nextTicket ∧
      h.calls <+: (effects.foldl (note board) h).calls := by
  induction effects generalizing h with
  | nil => simp
  | cons e effects ih =>
      obtain ⟨links, outcomes, tickets, calls⟩ := ih (note board h e)
      rw [List.foldl_cons, links, outcomes, tickets]
      cases e with
      | replied ticket reply => exact ⟨rfl, by simp [note, Effect.outcome?], rfl, calls⟩
      | released ticket => exact ⟨rfl, by simp [note, Effect.outcome?], rfl, calls⟩
      | raised e =>
          obtain ⟨linksE, outcomesE, ticketsE, callsE⟩ := dispatch_frame h board e
          simp only [note, linksE, outcomesE, ticketsE, Effect.outcome?, List.filterMap_cons]
          exact ⟨trivial, trivial, trivial, callsE.trans calls⟩
      | accepted ticket => exact ⟨rfl, rfl, rfl, calls⟩
      | refused ticket why => exact ⟨rfl, rfl, rfl, calls⟩
      | greeted ticket result => exact ⟨rfl, rfl, rfl, calls⟩
      | rejected ticket => exact ⟨rfl, rfl, rfl, calls⟩
      | dismissed ticket => exact ⟨rfl, rfl, rfl, calls⟩
      | written message => exact ⟨rfl, rfl, rfl, calls⟩

theorem onChannel_frame {α : Type} {n : Nat} {link : Link} (otherwise : α)
    (act : Channel → Channel × List Effect × α) (found : h.links[n]? = some link) :
    (h.onChannel n otherwise act).1.links = (h.setChannel n (act link.channel).1).links ∧
      (h.onChannel n otherwise act).1.outcomes =
        h.outcomes ++ (act link.channel).2.1.filterMap Effect.outcome? ∧
      (h.onChannel n otherwise act).1.nextTicket = h.nextTicket ∧
      h.calls <+: (h.onChannel n otherwise act).1.calls := by
  rw [onChannel, found]
  exact foldl_note link.board (act link.channel).2.1 (h.setChannel n (act link.channel).1)

/-- What a channel does is what the hub does, if the channel lets no request in. -/
theorem follows_onChannel {α : Type} {otherwise : α} {n : Nat}
    {act : Channel → Channel × List Effect × α} (tidy : h.Tidy)
    (keeps : ∀ c : Channel, c.exchange.Orderly → c.Keeps (act c).1 (act c).2.1) :
    h.Follows (h.onChannel n otherwise act).1 := by
  cases found : h.links[n]? with
  | none =>
      rw [onChannel, found]
      exact .refl tidy
  | some link =>
      have there := List.mem_of_getElem? found
      have kept := keeps link.channel (tidy link there)
      obtain ⟨links, outcomes, tickets, calls⟩ := onChannel_frame otherwise act found
      refine ⟨?_, ?_, ?_, Nat.le_of_eq tickets.symm, calls⟩
      · intro other inside
        rw [links] at inside
        rcases mem_links_setChannel inside with old | new
        · exact tidy other old
        · exact new ▸ kept.orderly
      · intro p inside
        obtain ⟨other, inside, waits⟩ := mem_pendings.mp inside
        rw [links] at inside
        rcases mem_links_setChannel inside with old | new
        · exact mem_pendings.mpr ⟨other, old, waits⟩
        · exact mem_pendings.mpr ⟨link, there, kept.pending p (new ▸ waits)⟩
      · intro o inside
        rw [outcomes] at inside
        rcases List.mem_append.mp inside with old | new
        · exact .inl old
        · obtain ⟨p, waits, fits⟩ := kept.outcomes o new
          exact .inr ⟨p, mem_pendings.mpr ⟨link, there, waits⟩, fits⟩

theorem follows_arrive (tidy : h.Tidy) (n : Nat) (a : Channel.Arrival) :
    h.Follows (h.arrive n a) :=
  follows_onChannel tidy fun _ orderly => Channel.keeps_arrive orderly a

theorem follows_abandon (tidy : h.Tidy) (n : Nat) (id : Int64) : h.Follows (h.abandon n id) :=
  follows_onChannel tidy fun _ orderly => Channel.keeps_abandon orderly id

theorem follows_post (tidy : h.Tidy) (n : Nat) (command : Command) :
    h.Follows (h.post n command).1 :=
  follows_onChannel tidy fun c orderly => Channel.keeps_same orderly (c.exchange_post command)

theorem follows_stopChannel (tidy : h.Tidy) (n : Nat) : h.Follows (h.stopChannel n) :=
  follows_onChannel tidy fun _ orderly => Channel.keeps_same orderly rfl

theorem follows_shutdownChannel (tidy : h.Tidy) (n : Nat) : h.Follows (h.shutdownChannel n) :=
  follows_onChannel tidy fun _ orderly => Channel.keeps_same orderly rfl

theorem follows_stopChannel? (tidy : h.Tidy) (n : Option Nat) : h.Follows (h.stopChannel? n) := by
  cases n with
  | none => exact .refl tidy
  | some n => exact follows_stopChannel tidy n

/-! ### Workspaces -/

theorem follows_prepare (tidy : h.Tidy) (n : Nat) (command : Command) :
    h.Follows (h.prepare n command).1 := by
  rw [prepare]
  cases h.workspace? n with
  | none => exact .refl tidy
  | some workspace => exact follows_of_same tidy rfl rfl rfl (Nat.le_refl _)

/-- To complete a command changes neither its number nor its kind, and it goes to the first channel
of its workspace. -/
theorem prepare_frame {n channel : Nat} {command ready : Command}
    (complete : h.prepare n command = (h', some (channel, ready))) :
    ready.seq = command.seq ∧ ready.kind = command.kind ∧
      (h.workspace? n).map Workspace.primary = some channel := by
  rw [prepare] at complete
  cases found : h.workspace? n with
  | none =>
      rw [found] at complete
      cases complete
  | some workspace =>
      rw [found] at complete
      obtain ⟨done, finished, same⟩ := Option.map_eq_some_iff.mp (Prod.mk.inj complete).2
      obtain ⟨rfl, rfl⟩ := Prod.mk.inj same
      obtain ⟨seq, kind⟩ := Workspace.frame_prepare finished
      exact ⟨seq, kind, rfl⟩

theorem follows_tell (tidy : h.Tidy) (n : Nat) (command : Command) :
    h.Follows (h.tell n command).1 := by
  have prepared := follows_prepare tidy n command
  rw [tell]
  rcases form : h.prepare n command with ⟨h₁, none | ⟨channel, command⟩⟩
  · exact prepared.of_eq form
  · have completed := prepared.of_eq form
    exact completed.trans (follows_post completed.tidy channel command)

theorem follows_stopWorker (tidy : h.Tidy) (n : Nat) : h.Follows (h.stopWorker n) := by
  have taken : h.Follows (h.takeWorker n).1 := by
    rw [takeWorker]
    cases h.workspace? n with
    | none => exact .refl tidy
    | some workspace => exact follows_of_same tidy rfl rfl rfl (Nat.le_refl _)
  exact taken.trans (follows_stopChannel? taken.tidy _)

theorem follows_shutdown (tidy : h.Tidy) (n : Nat) : h.Follows (h.shutdown n) := by
  rw [shutdown]
  cases h.workspace? n with
  | none => exact .refl tidy
  | some workspace =>
      have stopped := follows_stopWorker tidy n
      exact stopped.trans (follows_shutdownChannel stopped.tidy _)

/-- A new channel has an empty table. -/
theorem follows_startChannel (tidy : h.Tidy) (launch : Launch → Option Channel.Outlet)
    (spec : ServerSpec) (root : String) (board : Nat) :
    h.Follows (h.startChannel launch spec root board).1 := by
  rw [startChannel]
  cases launch ⟨h.links.length, spec, root⟩ with
  | none => exact .refl tidy
  | some outlet =>
      let opened : Hub η :=
        { h with
          links := h.links ++ [⟨⟨h.links.length, spec, root⟩, board, .start outlet⟩]
          nextTicket := h.nextTicket + 1 }
      have started : h.Follows opened := by
        refine ⟨?_, ?_, fun o inside => .inl inside, Nat.le_succ _, List.prefix_refl _⟩
        · intro link inside
          rcases List.mem_append.mp inside with old | new
          · exact tidy link old
          · obtain rfl := List.mem_singleton.mp new
            exact Channel.Exchange.orderly_start
        · intro p inside
          obtain ⟨link, inside, waits⟩ := mem_pendings.mp inside
          rcases List.mem_append.mp inside with old | new
          · exact mem_pendings.mpr ⟨link, old, waits⟩
          · obtain rfl := List.mem_singleton.mp new
            cases waits
      have greeted : opened.Follows
          (opened.onChannel h.links.length false
            fun c => c.greet opened.processId root h.nextTicket).1 :=
        follows_onChannel started.tidy fun _ orderly => Channel.keeps_greet orderly _ _ _
      have reached := started.trans greeted
      dsimp only
      split
      · next form => exact reached.of_eq form
      · next form =>
          have failed := reached.of_eq form
          exact failed.trans (follows_stopChannel failed.tidy _)

theorem follows_startWorkspace (tidy : h.Tidy) (launch : Launch → Option Channel.Outlet)
    (key : Workspace.Key) (spec : ServerSpec) :
    h.Follows (h.startWorkspace launch key spec).1 := by
  have opened : h.Follows h.openBoard := follows_of_same tidy rfl rfl rfl (Nat.le_refl _)
  have first := opened.trans
    (follows_startChannel opened.tidy launch spec key.root h.boards.length)
  rw [startWorkspace]
  rcases formFirst : h.openBoard.startChannel launch spec key.root h.boards.length with
    ⟨h₁, none | primary⟩
  · exact first.of_eq formFirst
  · have started := first.of_eq formFirst
    have second := started.trans
      (follows_startChannel started.tidy launch spec key.root h.boards.length)
    dsimp only
    rcases formSecond : h₁.startChannel launch spec key.root h.boards.length with
      ⟨h₂, none | worker⟩
    · have failed := second.of_eq formSecond
      exact failed.trans (follows_stopChannel failed.tidy primary)
    · have both := second.of_eq formSecond
      exact both.trans (follows_of_same both.tidy rfl rfl rfl (Nat.le_refl _))

theorem follows_dismiss (tidy : h.Tidy) (key : Workspace.Key) (n : Nat) :
    h.Follows (h.dismiss key n) := by
  have struck : h.Follows { h with roster := h.roster.strike key } :=
    follows_of_same tidy rfl rfl rfl (Nat.le_refl _)
  exact struck.trans (follows_shutdown struck.tidy n)

theorem follows_engage (tidy : h.Tidy) (launch : Launch → Option Channel.Outlet)
    (key : Workspace.Key) (spec : ServerSpec) : h.Follows (h.engage launch key spec).1 := by
  have started := follows_startWorkspace tidy launch key spec
  rw [engage]
  rcases form : h.startWorkspace launch key spec with ⟨h₁, none | n⟩
  · exact started.of_eq form
  · have entered := started.of_eq form
    exact entered.trans (follows_of_same entered.tidy rfl rfl rfl (Nat.le_refl _))

theorem follows_workspaceFor (tidy : h.Tidy) (launch : Launch → Option Channel.Outlet)
    (ext root : String) : h.Follows (h.workspaceFor launch ext root).1 := by
  rw [workspaceFor]
  cases h.roster.routes.find? ext with
  | none => exact .refl tidy
  | some spec =>
      dsimp only
      cases h.roster.find? ⟨root, spec.binary⟩ with
      | none => exact follows_engage tidy launch _ spec
      | some n =>
          dsimp only
          split
          · exact .refl tidy
          · have dismissed := follows_dismiss tidy ⟨root, spec.binary⟩ n
            exact dismissed.trans (follows_engage dismissed.tidy launch _ spec)

theorem follows_stopAll (tidy : h.Tidy) : h.Follows h.stopAll := by
  have shutDown : ∀ (entries : List (Workspace.Key × Nat)) (h : Hub η), h.Tidy →
      h.Follows (entries.foldl (fun h entry => h.shutdown entry.2) h) := by
    intro entries
    induction entries with
    | nil => exact fun _ tidy => .refl tidy
    | cons entry entries ih =>
        intro h tidy
        have first := follows_shutdown tidy entry.2
        exact first.trans (ih _ first.tidy)
  have cleared : h.Follows { h with roster := { h.roster with current := [] } } :=
    follows_of_same tidy rfl rfl rfl (Nat.le_refl _)
  exact cleared.trans (shutDown _ _ cleared.tidy)

/-! ### Letting a request in -/

/-- Lets the request of a command into the table of a channel, and says whether it was let in. -/
def enter (command : Command) (ticket : Nat) (c : Channel) : Channel × List Effect × Bool :=
  let (changed, effects) := c.order (.register command.seq command.kind ticket)
  (changed, effects, (c.exchange.refusal? command.seq).isNone)

@[inherit_doc enter]
def enroll (h : Hub η) (n : Nat) (command : Command) (ticket : Nat) : Hub η × Bool :=
  h.onChannel n false (enter command ticket)

/-- A request that is let in is the only one that was not there before. -/
theorem enroll_frame (tidy : h.Tidy) (n : Nat) (command : Command) (ticket : Nat) :
    (h.enroll n command ticket).1.Tidy ∧
      (∀ p ∈ (h.enroll n command ticket).1.pendings,
        p ∈ h.pendings ∨ p = ⟨command.seq, command.kind, ticket⟩) ∧
      (h.enroll n command ticket).1.outcomes = h.outcomes ∧
      (h.enroll n command ticket).1.nextTicket = h.nextTicket ∧
      h.calls <+: (h.enroll n command ticket).1.calls := by
  cases found : h.links[n]? with
  | none =>
      rw [enroll, onChannel, found]
      exact ⟨tidy, fun p inside => .inl inside, rfl, rfl, List.prefix_refl _⟩
  | some link =>
      have there := List.mem_of_getElem? found
      let step : Channel.Step := .order (.register command.seq command.kind ticket)
      have orderly := Channel.Exchange.orderly_step (tidy link there) step
      have table := Channel.Exchange.pending_step (tidy link there) step
      have nothing := Channel.Exchange.outcomes_step (tidy link there) step
      obtain ⟨links, outcomes, tickets, calls⟩ :=
        onChannel_frame false (enter command ticket) found
      rw [← enroll] at links outcomes tickets calls
      refine ⟨?_, ?_, ?_, tickets, calls⟩
      · intro other inside
        rw [links] at inside
        rcases mem_links_setChannel inside with old | new
        · exact tidy other old
        · exact new ▸ orderly
      · intro p inside
        obtain ⟨other, inside, waits⟩ := mem_pendings.mp inside
        rw [links] at inside
        rcases mem_links_setChannel inside with old | new
        · exact .inl (mem_pendings.mpr ⟨other, old, waits⟩)
        · rw [new] at waits
          change p ∈ (link.channel.exchange.step step).1.pending at waits
          rw [table] at waits
          rcases List.mem_append.mp waits with old | admitted
          · exact .inl (mem_pendings.mpr ⟨link, there, (List.mem_filter.mp old).1⟩)
          · obtain ⟨form, -⟩ :=
              Channel.Exchange.admitted?_eq_some.mp (Option.mem_toList.mp admitted)
            obtain ⟨id, kind, named⟩ := Channel.Order.register.inj (Channel.Step.order.inj form)
            right
            rw [id, kind, named]
      · have unconcerned : (link.channel.exchange.pending.filter (step.concerns ·.id)).map
            (fun p => (p.ticket, step.reply? p)) = [] := by
          rw [List.map_eq_nil_iff, List.filter_eq_nil_iff]
          exact fun _ _ => Bool.noConfusion
        rw [unconcerned] at nothing
        refine outcomes.trans ?_
        change h.outcomes ++ (link.channel.exchange.step step).2.filterMap Effect.outcome? = _
        rw [nothing, List.append_nil]

end Hub

end EditorBridge
