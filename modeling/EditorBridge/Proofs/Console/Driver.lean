import EditorBridge.Proofs.Console.Session

/-!
# The console as a session

What the console does at once is made of the steps of a session that nothing comes between: to take
a line, to write what has come of the inquiries, and to give up on those that have waited too long.
-/

namespace EditorBridge

open Channel (Effect)
open Console (Inquiry Errand)

/-! ### Submitting a query -/

namespace Hub

variable {η : Type} {h : Hub η} {n : Nat} {link : Link}

theorem onChannel_of_found {α : Type} (otherwise : α) (act : Channel → Channel × List Effect × α)
    (found : h.links[n]? = some link) :
    h.onChannel n otherwise act =
      ((act link.channel).2.1.foldl (note link.board) (h.setChannel n (act link.channel).1),
        (act link.channel).2.2) := by
  rw [onChannel, found]

theorem found_setChannel (c : Channel) (found : h.links[n]? = some link) :
    (h.setChannel n c).links[n]? = some { link with channel := c } := by
  rw [setChannel, List.getElem?_modify_eq, found]
  rfl

theorem setChannel_setChannel (c d : Channel) :
    (h.setChannel n c).setChannel n d = h.setChannel n d := by
  simp only [setChannel, List.modify_modify_eq]
  rfl

theorem setChannel_same (found : h.links[n]? = some link) : h.setChannel n link.channel = h := by
  have same : h.links.modify n (fun l => { l with channel := link.channel }) = h.links := by
    refine List.ext_getElem? fun i => ?_
    rw [List.getElem?_modify]
    by_cases here : n = i
    · subst here
      simp [found]
    · simp [here]
  rw [setChannel, same]

/-- A query that cannot be said takes a ticket, and nothing else happens. -/
theorem submit_of_mute {command : Command} (mute : command.toMessage? = none) :
    h.submit n command = ({ h with nextTicket := h.nextTicket + 1 }, .failed) := by
  rw [submit]
  cases found : h.links[n]? with
  | none => rw [onChannel, found]
  | some link =>
      have there : { h with nextTicket := h.nextTicket + 1 }.links[n]? = some link := found
      rw [onChannel_of_found _ _ there, Channel.submit, mute]
      simp only [List.foldl_nil, setChannel_same there]

theorem enroll_of_found {command : Command} {ticket : Nat} (found : h.links[n]? = some link) :
    h.enroll n command ticket =
      (h.setChannel n (link.channel.order (.register command.seq command.kind ticket)).1,
        (link.channel.exchange.refusal? command.seq).isNone) := by
  rw [enroll, onChannel_of_found _ _ found]
  cases refused : link.channel.exchange.refusal? command.seq <;>
    simp only [enter, Channel.order, Channel.Exchange.order, refused] <;> rfl

theorem post_of_found {command : Command} {message : Rpc.Outgoing}
    (found : h.links[n]? = some link) (said : command.toMessage? = some message) :
    h.post n command =
      (h.setChannel n (link.channel.write message.toJson).1,
        (link.channel.write message.toJson).2) := by
  rw [post, onChannel_of_found _ _ found, Channel.post, said]
  rfl

/-- To submit a query is to let its request in, to write it, and to abandon it if it is not
written. -/
theorem submit_of_query {command : Command} (isQuery : command.kind.isQuery = true)
    (sayable : command.toMessage?.isSome = true) :
    h.submit n command =
      match { h with nextTicket := h.nextTicket + 1 }.enroll n command h.nextTicket with
      | (h₁, false) => (h₁, .failed)
      | (h₁, true) =>
          match h₁.post n command with
          | (h₂, true) => (h₂, .waiting h.nextTicket)
          | (h₂, false) => (h₂.abandon n command.seq, .failed) := by
  obtain ⟨message, said⟩ := Option.isSome_iff_exists.mp sayable
  obtain ⟨call, rfl⟩ : ∃ call, message = .call call := by
    obtain ⟨params, -, rfl⟩ := Option.map_eq_some_iff.mp said
    rw [isQuery]
    exact ⟨_, rfl⟩
  rw [submit]
  cases found : h.links[n]? with
  | none => rw [onChannel, found, enroll, onChannel, found]
  | some link =>
      have there : { h with nextTicket := h.nextTicket + 1 }.links[n]? = some link := found
      rw [onChannel_of_found _ _ there, enroll_of_found there, Channel.submit, said]
      dsimp only
      rw [Channel.submitCall]
      cases refused : link.channel.exchange.refusal? command.seq with
      | some why =>
          simp only [Channel.order, Channel.Exchange.order, refused, Option.isNone_some]
          rfl
      | none =>
          obtain ⟨c₁, entering⟩ : ∃ c₁, link.channel.order
              (.register command.seq command.kind h.nextTicket) =
                (c₁, [.accepted h.nextTicket]) := by
            rw [Channel.order, Channel.Exchange.order, refused]
            exact ⟨_, rfl⟩
          have entered := found_setChannel c₁ there
          rw [entering]
          simp only [Option.isNone_none, post_of_found entered said, Rpc.Outgoing.toJson,
            setChannel_setChannel]
          rcases c₁.write call.toJson with ⟨c₂, _ | _⟩
          · have unwritten := found_setChannel c₂ there
            simp only [List.singleton_append]
            rw [abandon, onChannel_of_found _ _ unwritten, setChannel_setChannel]
            rfl
          · rfl

end Hub

namespace Console.Session

variable {h h' : Hub Unit} {c : Console} {input : List String} {task : Task}

/-! ### Taking a line -/

/-- The end of a query that was submitted: an inquiry, or the reply that no answer will come. -/
def afterSubmit (c : Console) (input : List String) (channel deadline : Nat) (command : Command) :
    Hub Unit × Channel.Submission → Session
  | (h, .waiting ticket) =>
      ⟨h, { c with inquiries := c.inquiries ++
        [⟨ticket, channel, command.kind, command.seq, deadline⟩] }, input, .reading⟩
  | (h, _) => ⟨h, c.giveUp command, input, .reading⟩

/-- To submit a query is to let its request in and to write it. -/
theorem run_submit {command : Command} {channel : Nat} (deadline : Nat)
    (isQuery : command.kind.isQuery = true) :
    Run ⟨{ h with nextTicket := h.nextTicket + 1 }, c, input,
        .registering ⟨h.nextTicket, channel, command, deadline⟩⟩
      (afterSubmit c input channel deadline command (h.submit channel command)) := by
  let e : Errand := ⟨h.nextTicket, channel, command, deadline⟩
  let issued : Hub Unit := { h with nextTicket := h.nextTicket + 1 }
  cases said : command.toMessage? with
  | none =>
      rw [Hub.submit_of_mute said]
      have unsayable := @Step.unsayable ⟨issued, c, input, .registering e⟩ e rfl said
      exact .single unsayable
  | some message =>
      have sayable : command.toMessage?.isSome = true := by rw [said]; rfl
      rw [Hub.submit_of_query isQuery sayable]
      rcases entering : issued.enroll channel command h.nextTicket with ⟨h₁, _ | _⟩
      · have refused := @Step.refused ⟨issued, c, input, .registering e⟩ e h₁ rfl sayable entering
        exact .single refused
      have enrolled := @Step.enrolled ⟨issued, c, input, .registering e⟩ e h₁ rfl sayable entering
      dsimp only
      rcases posted : h₁.post channel command with ⟨h₂, _ | _⟩
      · have unwritten := @Step.unwritten ⟨h₁, c, input, .writing e⟩ e h₂ false rfl posted
        have abandoned := (Relation.ReflTransGen.single enrolled).tail unwritten |>.tail
          (Step.abandoned channel command.seq)
        exact abandoned
      · have written := @Step.written ⟨h₁, c, input, .writing e⟩ e h₂ rfl posted
        exact (Relation.ReflTransGen.single enrolled).tail written

/-- Whether a session may come to what has become of the console: the reader of the lines goes on,
or it has died of a command. -/
def Comes (s : Session) (c : Console) (input : List String) : Hub Unit × Option Console → Prop
  | (h, some c') => Run s ⟨h, c', input, .reading⟩
  | (h, none) => ∃ command, Run s ⟨h, c, input, .dead command⟩

theorem Comes.after {s s' : Session} {done : Hub Unit × Option Console} (run : Run s s')
    (comes : Comes s' c input done) : Comes s c input done := by
  rcases done with ⟨h', _ | c'⟩
  · obtain ⟨command, died⟩ := comes
    exact ⟨command, run.trans died⟩
  · exact run.trans comes

/-- To ask a workspace a query is to complete it and to submit it. -/
theorem comes_ask {command : Command} {workspace : Nat} (now : Nat)
    (isQuery : command.kind.isQuery = true) :
    Comes ⟨h, c, input, .placed command workspace⟩ c input (ask now workspace command h c) := by
  rw [ask, Hub.ask]
  rcases complete : h.prepare workspace command with ⟨h₁, _ | ⟨channel, ready⟩⟩
  · exact ⟨command, .single (Step.died rfl complete)⟩
  obtain ⟨seq, kind, primary⟩ := Hub.prepare_frame complete
  rw [primary, ← seq, ← kind]
  have prepared := fun deadline => Relation.ReflTransGen.single
    (Step.prepared (s := ⟨h, c, input, .placed command workspace⟩) deadline rfl isQuery complete)
  have submitted := fun deadline =>
    (prepared deadline).trans (run_submit deadline (kind ▸ isQuery))
  dsimp only
  rcases done : h₁.submit channel ready with ⟨h₂, ticket | _ | _⟩ <;> rw [done] at submitted
  · exact submitted (now + h₂.roster.timeout)
  · exact submitted 0
  · exact submitted 0

/-- To tell a workspace a notice is one step. -/
theorem comes_tell {command : Command} {workspace : Nat}
    (isNotice : command.kind.isQuery = false) :
    Comes ⟨h, c, input, .placed command workspace⟩ c input (tell workspace command h c) := by
  rw [tell]
  rcases told : h.tell workspace command with ⟨h₁, _ | isWritten⟩
  · have fails : h.prepare workspace command = (h₁, none) := by
      rw [Hub.tell] at told
      rcases prepared : h.prepare workspace command with ⟨h₂, _ | ⟨channel, ready⟩⟩
      · rw [prepared] at told
        obtain ⟨rfl, -⟩ := Prod.mk.inj told
        rfl
      · rw [prepared] at told
        cases told
    exact ⟨command, .single (Step.died rfl fails)⟩
  · exact .single (Step.told rfl isNotice told)

/-- To take a line is a run of the reader of the lines. -/
theorem comes_take (launch : Launch → Option Channel.Outlet) (now : Nat) (line : String)
    (rest : List String) :
    Comes ⟨h, c, line :: rest, .reading⟩ c rest (take launch now line h c) := by
  rw [take]
  cases read : Command.parse? line with
  | none => exact .single (Step.skipped rfl rfl read)
  | some command =>
      dsimp only
      rw [handle]
      rcases found : h.workspaceFor launch (extensionOf command.request.file) c.root with
        ⟨h₁, _ | workspace⟩
      · cases isQuery : command.kind.isQuery with
        | true => exact .single (Step.unserved launch rfl rfl read isQuery found)
        | false => exact .single (Step.ignored launch rfl rfl read isQuery found)
      · have served := Relation.ReflTransGen.single
          (Step.served (s := ⟨h, c, line :: rest, .reading⟩) launch rfl rfl read found)
        cases isQuery : command.kind.isQuery with
        | true => exact (comes_ask now isQuery).after served
        | false => exact (comes_tell isQuery).after served

/-! ### Writing -/

/-- To write the events that have not been written is to write them one by one. -/
theorem run_report (heard : c.heard ≤ h.calls.length) :
    Run ⟨h, c, input, task⟩ ⟨h, c.report h, input, task⟩ := by
  obtain ⟨left, split⟩ := Nat.exists_eq_add_of_le heard
  induction left generalizing c with
  | zero =>
      have nothing : h.calls.drop c.heard = [] := List.drop_eq_nil_of_le (Nat.le_of_eq split)
      have same : c.report h = c := by
        rw [report, nothing, split]
        rfl
      rw [same]
      exact .refl
  | succ left ih =>
      have there : c.heard < h.calls.length := by omega
      let next : Console :=
        { c.write h.calls[c.heard].2.toJson with heard := c.heard + 1 }
      have reported : Step ⟨h, c, input, task⟩ ⟨h, next, input, task⟩ :=
        Step.reported (List.getElem?_eq_getElem there)
      have same : next.report h = c.report h := by
        rw [report, report, List.drop_eq_getElem_cons there]
        rfl
      have fewer : h.calls.length = c.heard + 1 + left := by omega
      have rest := ih (c := next) there fewer
      exact same ▸ rest.head reported

/-- What each inquiry in turn comes to is what all of them come to. -/
theorem run_foldl {σ : Type} {f : σ → Inquiry → σ} {before : σ → List Inquiry → Session}
    (each : ∀ x q later, Run (before x (q :: later)) (before (f x q) later))
    (waiting : List Inquiry) (x : σ) : Run (before x waiting) (before (waiting.foldl f x) []) := by
  induction waiting generalizing x with
  | nil => exact .refl
  | cons q later ih => exact (each x q later).trans (ih (f x q))

/-- A session in which some inquiries have not been looked at yet. -/
def amid (h : Hub Unit) (c : Console) (input : List String) (task : Task)
    (waiting : List Inquiry) : Session :=
  ⟨h, { c with inquiries := c.inquiries ++ waiting }, input, task⟩

theorem amid_nil : amid h c input task [] = ⟨h, c, input, task⟩ := by
  rw [amid, List.append_nil]

theorem amid_cons (q : Inquiry) (later : List Inquiry) :
    amid h c input task (q :: later) =
      amid h { c with inquiries := c.inquiries ++ [q] } input task later := by
  rw [amid, amid, List.append_assoc]
  rfl

/-- To write what has come of the inquiries is to answer one inquiry after the other. -/
theorem run_collect (heard : c.heard ≤ h.calls.length) :
    Run ⟨h, c, input, task⟩ ⟨h, c.collect h, input, task⟩ := by
  refine (run_report heard).trans ?_
  rw [← @amid_nil h (c.collect h) input task]
  refine @run_foldl Console _ (fun c waiting => amid h c input task waiting) ?_
    (c.report h).inquiries { c.report h with inquiries := [] }
  intro c q later
  cases decided : h.outcome? q.ticket with
  | some outcome => exact .single (Step.answered rfl decided)
  | none =>
      rw [amid_cons]
      exact .refl

/-- To give up on inquiries that have waited too long is to answer and to abandon one after the
other. -/
theorem run_expire (now : Nat) :
    Run ⟨h, c, input, task⟩ ⟨(expire now h c).1, (expire now h c).2, input, task⟩ := by
  rw [← @amid_nil (expire now h c).1 (expire now h c).2 input task]
  refine @run_foldl (Hub Unit × Console) _ (fun x waiting => amid x.1 x.2 input task waiting) ?_
    c.inquiries (h, { c with inquiries := [] })
  rintro ⟨h, c⟩ q later
  by_cases late : q.deadline ≤ now
  · have expired : Step (amid h c input task (q :: later))
        (amid h (c.answer q none) input task later) := Step.expired rfl
    have abandoned := (Relation.ReflTransGen.single expired).tail
      (Step.abandoned q.channel q.seq)
    simp only [if_pos late]
    exact abandoned
  · simp only [if_neg late]
    rw [amid_cons]
    exact .refl

end Console.Session

end EditorBridge
