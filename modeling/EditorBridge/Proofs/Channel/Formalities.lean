import EditorBridge.Proofs.Hub.Frames
import EditorBridge.Proofs.Workspace.Notices

/-!
# Formalities

Not every message on a channel is said for a command: the bridge greets its server, thanks it for
the handshake, and declines its requests. Such a message is a formality, and no command becomes one
(`isFormality_of_wire?`). As long as a server is there and takes what is written to it, a command
that is posted is written at once (`post_of_takes`), and whatever the channel does on its own
account leaves the messages for commands as they are and lets no request in (`Rests`).
-/

namespace EditorBridge

namespace Channel

/-- Whether a message to a server belongs to the handshake or answers a request of the server. -/
def isFormality (message : Json) : Bool :=
  match (message.get? "method").bind Json.string? with
  | some method => method == "initialize" || method == "initialized"
  | none => true

/-- The messages that are no formalities. -/
def spoken (messages : List Json) : List Json :=
  messages.filter fun message => !isFormality message

theorem spoken_append (first second : List Json) :
    spoken (first ++ second) = spoken first ++ spoken second :=
  List.filter_append ..

theorem spoken_eq_nil {messages : List Json} (formalities : ∀ m ∈ messages, isFormality m = true) :
    spoken messages = [] :=
  List.filter_eq_nil_iff.mpr fun m inside => by simp [formalities m inside]

theorem isFormality_greeting (processId : Nat) (root : String) :
    isFormality (greeting processId root).toJson = true :=
  rfl

theorem isFormality_thanks : isFormality thanks.toJson = true :=
  rfl

theorem isFormality_response (r : Rpc.Response) : isFormality r.toJson = true := by
  obtain ⟨jsonrpc, id, result, failure⟩ := r
  cases result <;> cases failure <;> rfl

/-- No command is said like a formality. -/
theorem isFormality_of_wire? {c : Command} {message : Json} (said : c.wire? = some message) :
    isFormality message = false := by
  have ordinary : (c.kind.method == "initialize" || c.kind.method == "initialized") = false := by
    cases c.kind <;> rfl
  rw [Command.wire?, Command.toMessage?, Option.map_map] at said
  obtain ⟨params, -, rfl⟩ := Option.map_eq_some_iff.mp said
  dsimp only [Function.comp_apply]
  split
  · exact ordinary
  · exact ordinary

theorem spoken_wire? (c : Command) : spoken c.wire?.toList = c.wire?.toList := by
  refine List.filter_eq_self.mpr fun m inside => ?_
  rw [isFormality_of_wire? (Option.mem_toList.mp inside)]
  rfl

/-! ### Writing -/

/-- Whether the server is there and takes what is written to it. -/
structure Takes (c : Channel) : Prop where
  opened : c.outlet.refusal? = none
  goesOn : c.exchange.isClosed = false

/-- The channel with more messages written. -/
def add (c : Channel) (messages : List Json) : Channel :=
  { c with outlet := { c.outlet with sent := c.outlet.sent ++ messages } }

variable {c : Channel}

theorem Takes.add (takes : c.Takes) (messages : List Json) : (c.add messages).Takes :=
  ⟨takes.opened, takes.goesOn⟩

/-- An outlet that takes a message takes any. -/
theorem opened_of_written {message : Json} (written : (c.write message).2 = true) :
    c.outlet.refusal? = none := by
  rw [write, Outlet.write] at written
  cases refused : c.outlet.refusal? with
  | none => rfl
  | some e =>
      rw [refused] at written
      cases written

theorem opened_of_greet {processId ticket : Nat} {root : String}
    (written : (c.greet processId root ticket).2.2 = true) : c.outlet.refusal? = none :=
  opened_of_written (c := (c.order (.awaitHandshake ticket)).1) written

theorem write_of_takes (takes : c.Takes) (message : Json) :
    c.write message = (c.add [message], true) := by
  rw [write, Outlet.write, takes.opened]
  rfl

/-- What can be said is written. -/
theorem post_of_takes (takes : c.Takes) (command : Command) :
    c.post command = (c.add command.wire?.toList, command.wire?.isSome) := by
  rw [post, Command.wire?]
  cases command.toMessage? with
  | none => simp [Channel.add]
  | some message => exact write_of_takes takes message.toJson

/-- A request is let in unless its number is reserved or in use. -/
theorem enter_of_takes (takes : c.Takes) (command : Command) (ticket : Nat) :
    (Hub.enter command ticket c).1.Takes ∧ (Hub.enter command ticket c).1.outlet = c.outlet ∧
      ((Hub.enter command ticket c).2.2 = true ∧
          (Hub.enter command ticket c).1.exchange.pending =
            c.exchange.pending ++ [⟨command.seq, command.kind, ticket⟩] ∨
        (Hub.enter command ticket c).2.2 = false ∧
          (Hub.enter command ticket c).1.exchange.pending = c.exchange.pending ∧
          (command.seq = handshakeId ∨ ∃ p ∈ c.exchange.pending, p.id = command.seq)) := by
  rw [Hub.enter, order, Exchange.order]
  cases refused : c.exchange.refusal? command.seq with
  | none => exact ⟨⟨takes.opened, takes.goesOn⟩, rfl, .inl ⟨rfl, rfl⟩⟩
  | some why =>
      refine ⟨⟨takes.opened, takes.goesOn⟩, rfl, .inr ⟨rfl, rfl, ?_⟩⟩
      by_contra free
      obtain ⟨regular, new⟩ := not_or.mp free
      have unused : ∀ p ∈ c.exchange.pending, p.id ≠ command.seq :=
        fun p inside same => new ⟨p, inside, same⟩
      rw [Exchange.refusal?_eq_none.mpr ⟨regular, takes.goesOn, unused⟩] at refused
      cases refused

/-! ### What a channel does on its own account -/

/-- What stays when a channel does something beside the commands. -/
structure Rests (c c' : Channel) : Prop where
  takes : c'.Takes
  spoken : spoken c'.outlet.sent = spoken c.outlet.sent
  pending : c'.exchange.pending.Sublist c.exchange.pending

theorem Rests.refl (takes : c.Takes) : c.Rests c :=
  ⟨takes, rfl, List.Sublist.refl _⟩

theorem Rests.trans {c' c'' : Channel} (first : c.Rests c') (second : c'.Rests c'') :
    c.Rests c'' :=
  ⟨second.takes, second.spoken.trans first.spoken, second.pending.trans first.pending⟩

theorem rests_add (takes : c.Takes) {messages : List Json}
    (formalities : ∀ m ∈ messages, isFormality m = true) : c.Rests (c.add messages) := by
  refine ⟨takes.add messages, ?_, List.Sublist.refl _⟩
  rw [add, spoken_append, spoken_eq_nil formalities, List.append_nil]

theorem rests_write (takes : c.Takes) {message : Json} (formality : isFormality message = true) :
    c.Rests (c.write message).1 := by
  rw [write_of_takes takes]
  exact rests_add takes fun m only => List.mem_singleton.mp only ▸ formality

theorem rests_carryOut (takes : c.Takes) (e : Effect) : c.Rests (c.carryOut e) := by
  cases e with
  | greeted ticket result =>
      have noted : c.Rests { c with noted := .ready } :=
        ⟨⟨takes.opened, takes.goesOn⟩, rfl, List.Sublist.refl _⟩
      exact noted.trans (rests_write noted.takes isFormality_thanks)
  | written message => exact rests_write takes (isFormality_response message)
  | _ => exact .refl takes

theorem rests_foldl_carryOut (takes : c.Takes) (effects : List Effect) :
    c.Rests (effects.foldl carryOut c) := by
  induction effects generalizing c with
  | nil => exact .refl takes
  | cons e effects ih =>
      have first := rests_carryOut takes e
      exact first.trans (ih first.takes)

/-- No message of the server lets a request in. -/
theorem pending_receive (x : Exchange) (value : Json) :
    (x.receive (.frame value)).1.pending.Sublist x.pending := by
  cases closed : x.isClosed with
  | true => simp [Exchange.receive, closed]
  | false =>
      rw [Exchange.receive_answer closed]
      cases response? value with
      | none => exact List.Sublist.refl _
      | some r =>
          simp only [Exchange.resolve]
          split
          · exact List.Sublist.refl _
          · split
            · exact List.Sublist.refl _
            · split
              · exact List.filter_sublist
              · exact List.Sublist.refl _

/-- A message of the server is taken beside the commands. -/
theorem rests_arrive (takes : c.Takes) (value : Json) : c.Rests (c.arrive (.frame value)).1 := by
  have goesOn := Exchange.isClosed_step c.exchange (.arrival (.frame value))
  have received :
      c.Rests { c with exchange := (c.exchange.receive (.frame value)).1 } :=
    ⟨⟨takes.opened, goesOn.trans (by rw [takes.goesOn]; rfl)⟩, rfl,
      pending_receive c.exchange value⟩
  exact received.trans (rests_foldl_carryOut received.takes _)

/-- To abandon a request writes nothing. -/
theorem rests_abandon (takes : c.Takes) (id : Int64) : c.Rests (c.abandon id).1 := by
  rw [abandon, order, Exchange.order]
  cases c.exchange.find? id with
  | none => exact .refl takes
  | some waiting => exact ⟨⟨takes.opened, takes.goesOn⟩, rfl, List.filter_sublist⟩

/-- The handshake is a formality. -/
theorem rests_greet (takes : c.Takes) (processId : Nat) (root : String) (ticket : Nat) :
    c.Rests (c.greet processId root ticket).1 := by
  have awaited : c.Rests (c.order (.awaitHandshake ticket)).1 := by
    rw [order, Exchange.order, if_neg (by simp [takes.goesOn])]
    exact ⟨⟨takes.opened, takes.goesOn⟩, rfl, List.Sublist.refl _⟩
  exact awaited.trans (rests_write awaited.takes (isFormality_greeting processId root))

end Channel

namespace Hub

variable {η : Type} {h : Hub η} {n : Nat} {c : Channel}

/-! ### The channels of a hub -/

theorem workspaces_onChannel {α : Type} (n : Nat) (otherwise : α)
    (act : Channel → Channel × List Channel.Effect × α) :
    (h.onChannel n otherwise act).1.workspaces = h.workspaces := by
  rw [onChannel]
  cases h.links[n]? with
  | none => rfl
  | some link => exact (works_foldl_note link.board _ _).workspaces

/-- What a channel does is what becomes of it in the hub. -/
theorem onChannel_of_channel? {α : Type} (otherwise : α)
    (act : Channel → Channel × List Channel.Effect × α) (there : h.channel? n = some c) :
    (h.onChannel n otherwise act).1.channel? n = some (act c).1 ∧
      (h.onChannel n otherwise act).2 = (act c).2.2 := by
  obtain ⟨link, found, rfl⟩ := Option.map_eq_some_iff.mp there
  refine ⟨?_, ?_⟩
  · rw [channel?, (onChannel_frame otherwise act found).1, found_setChannel _ found]
    rfl
  · rw [onChannel_of_found _ _ found]

theorem post_of_takes (there : h.channel? n = some c) (takes : c.Takes) (command : Command) :
    (h.post n command).1.channel? n = some (c.add command.wire?.toList) ∧
      (h.post n command).2 = command.wire?.isSome ∧
      (h.post n command).1.workspaces = h.workspaces := by
  obtain ⟨posted, answer⟩ : (h.post n command).1.channel? n = some (c.post command).1 ∧
      (h.post n command).2 = (c.post command).2 :=
    onChannel_of_channel? _ _ there
  rw [Channel.post_of_takes takes] at posted answer
  exact ⟨posted, answer, workspaces_onChannel ..⟩

theorem enroll_of_takes (there : h.channel? n = some c) (takes : c.Takes) (command : Command)
    (ticket : Nat) :
    ∃ c', (h.enroll n command ticket).1.channel? n = some c' ∧ c'.Takes ∧ c'.outlet = c.outlet ∧
      ((h.enroll n command ticket).2 = true ∧
          c'.exchange.pending = c.exchange.pending ++ [⟨command.seq, command.kind, ticket⟩] ∨
        (h.enroll n command ticket).2 = false ∧ c'.exchange.pending = c.exchange.pending ∧
          (command.seq = handshakeId ∨ ∃ p ∈ c.exchange.pending, p.id = command.seq)) ∧
      (h.enroll n command ticket).1.workspaces = h.workspaces := by
  obtain ⟨entered, answer⟩ := onChannel_of_channel? false (enter command ticket) there
  obtain ⟨takes, outlet, verdict⟩ := Channel.enter_of_takes takes command ticket
  rw [← enroll] at entered answer
  rw [← answer] at verdict
  exact ⟨_, entered, takes, outlet, verdict, workspaces_onChannel ..⟩

/-! ### Starting -/

variable {h' : Hub η} {launch : Launch → Option Channel.Outlet} {spec : ServerSpec}
  {root : String} {board : Nat}

/-- On a channel that has just been started only the handshake has been written. -/
theorem startChannel_quiet (blank : ∀ l outlet, launch l = some outlet → outlet.sent = [])
    (started : h.startChannel launch spec root board = (h', some n)) :
    ∃ c, h'.channel? n = some c ∧ c.Takes ∧ Channel.spoken c.outlet.sent = [] ∧
      c.exchange.pending = [] := by
  rw [startChannel_eq] at started
  cases launched : launch ⟨h.links.length, spec, root⟩ with
  | none => rw [launched] at started; cases started
  | some outlet =>
      rw [launched] at started
      have there : (h.extend ⟨⟨h.links.length, spec, root⟩, board, .start outlet⟩).channel?
          h.links.length = some (.start outlet) := by
        rw [channel?, extend, List.getElem?_concat_length]
        rfl
      obtain ⟨greeted, answer⟩ := onChannel_of_channel? false
        (fun c => c.greet h.processId root h.nextTicket) there
      rw [← hire] at greeted answer
      dsimp only at started
      rcases form : h.hire spec root board outlet with ⟨h₁, _ | _⟩
      all_goals rw [form] at started greeted answer
      · cases started
      · obtain ⟨rfl, same⟩ := Prod.mk.inj started
        obtain rfl := Option.some.inj same
        have takes : (Channel.start outlet).Takes :=
          ⟨Channel.opened_of_greet answer.symm, rfl⟩
        have rests := Channel.rests_greet takes h.processId root h.nextTicket
        refine ⟨_, greeted, rests.takes, ?_, List.sublist_nil.mp rests.pending⟩
        refine rests.spoken.trans ?_
        rw [Channel.start, blank _ outlet launched]
        rfl

/-- A workspace that has just been started has told its server nothing. -/
theorem engage_quiet {key : Workspace.Key} {w : Nat}
    (blank : ∀ l outlet, launch l = some outlet → outlet.sent = [])
    (started : h.engage launch key spec = (h', some w)) :
    ∃ worker c, h'.workspace? w = some (.start key spec h.links.length worker h.boards.length) ∧
      h'.channel? h.links.length = some c ∧ c.Takes ∧ Channel.spoken c.outlet.sent = [] ∧
      c.exchange.pending = [] := by
  rw [engage, startWorkspace] at started
  rcases first : h.openBoard.startChannel launch spec key.root h.boards.length with ⟨h₁, _ | p⟩
  · rw [first] at started
    cases started
  rw [first] at started
  dsimp only at started
  rcases second : h₁.startChannel launch spec key.root h.boards.length with ⟨h₂, _ | worker⟩
  · rw [second] at started
    cases started
  rw [second] at started
  obtain ⟨rfl, same⟩ := Prod.mk.inj started
  obtain rfl := Option.some.inj same
  obtain ⟨c, there, takes, quiet, free⟩ := startChannel_quiet blank first
  obtain ⟨rfl, hires, -⟩ := startChannel_some first
  have inside : h.openBoard.links.length < h₁.links.length := by
    rw [← length_stamps h₁, hires.stamps, List.length_append, length_stamps]
    exact Nat.lt_succ_self _
  have kept := channel?_startChannel second inside
  exact ⟨worker, c, List.getElem?_concat_length, kept.trans there, takes, quiet, free⟩

end Hub

end EditorBridge
