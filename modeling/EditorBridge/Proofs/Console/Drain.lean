import EditorBridge.Proofs.Console.Lines
import EditorBridge.Proofs.Console.Session

/-!
# Every query is answered once

The queries of the editor are accounted for at any time: each of them has its response, or the
reader of the lines has it in hand, or its inquiry waits, or its line is still to come, and never
two of these. What keeps the answers right is that a ticket belongs to one inquiry. When the bridge
has exited, only responses are left, so there is one for each query.
-/

namespace EditorBridge

open Console (Inquiry Errand)

/-! ### Who waits under a ticket -/

/-- What holds of a hub while some inquiries wait: a request under the ticket of an inquiry is the
request of that inquiry, and so is a reply. -/
structure Hub.Serves (h : Hub Unit) (inquiries : List Inquiry) : Prop where
  tidy : h.Tidy
  pendings : ∀ p ∈ h.pendings, p.ticket < h.nextTicket
  outcomes : ∀ o ∈ h.outcomes, o.1 < h.nextTicket
  tickets : ∀ q ∈ inquiries, q.ticket < h.nextTicket
  owned : ∀ q ∈ inquiries, ∀ p ∈ h.pendings, p.ticket = q.ticket → p.id = q.seq ∧ p.kind = q.kind
  told : ∀ q ∈ inquiries, ∀ reply, (q.ticket, some reply) ∈ h.outcomes →
    reply.requestSeq = q.seq ∧ reply.command = q.kind.name

namespace Hub.Serves

variable {h h' : Hub Unit} {inquiries fewer : List Inquiry}

theorem subset (serves : h.Serves inquiries) (left : fewer ⊆ inquiries) : h.Serves fewer :=
  ⟨serves.tidy, serves.pendings, serves.outcomes, fun q inside => serves.tickets q (left inside),
    fun q inside => serves.owned q (left inside), fun q inside => serves.told q (left inside)⟩

/-- What lets no request in gives nobody another's answer. -/
theorem follows (serves : h.Serves inquiries) (follows : h.Follows h') : h'.Serves inquiries := by
  refine ⟨follows.tidy, ?_, ?_, ?_, ?_, ?_⟩
  · intro p inside
    exact Nat.lt_of_lt_of_le (serves.pendings p (follows.pendings p inside)) follows.tickets
  · intro o inside
    rcases follows.outcomes o inside with old | ⟨p, waited, fits⟩
    · exact Nat.lt_of_lt_of_le (serves.outcomes o old) follows.tickets
    · rw [fits.1]
      exact Nat.lt_of_lt_of_le (serves.pendings p waited) follows.tickets
  · intro q inside
    exact Nat.lt_of_lt_of_le (serves.tickets q inside) follows.tickets
  · intro q inside p waits
    exact serves.owned q inside p (follows.pendings p waits)
  · intro q inside reply noted
    rcases follows.outcomes _ noted with old | ⟨p, waited, named, carries⟩
    · exact serves.told q inside reply old
    · obtain ⟨id, kind⟩ := serves.owned q inside p waited named.symm
      obtain ⟨number, command⟩ := carries reply rfl
      exact ⟨number.trans id, command.trans (congrArg Kind.name kind)⟩

/-- Nobody has a new ticket. -/
theorem issue (serves : h.Serves inquiries) {q : Inquiry} (new : q.ticket = h.nextTicket) :
    { h with nextTicket := h.nextTicket + 1 }.Serves (q :: inquiries) := by
  have noRequest : ∀ p ∈ h.pendings, p.ticket ≠ q.ticket := by
    intro p inside
    have old := serves.pendings p inside
    omega
  have noOutcome : ∀ o ∈ h.outcomes, o.1 ≠ q.ticket := by
    intro o inside
    have old := serves.outcomes o inside
    omega
  refine ⟨serves.tidy, ?_, ?_, ?_, ?_, ?_⟩
  · intro p inside
    exact Nat.lt_succ_of_lt (serves.pendings p inside)
  · intro o inside
    exact Nat.lt_succ_of_lt (serves.outcomes o inside)
  · intro r inside
    rcases List.mem_cons.mp inside with rfl | old
    · exact Nat.lt_succ_of_le (Nat.le_of_eq new)
    · exact Nat.lt_succ_of_lt (serves.tickets r old)
  · intro r inside p waits same
    rcases List.mem_cons.mp inside with rfl | old
    · exact absurd same (noRequest p waits)
    · exact serves.owned r old p waits same
  · intro r inside reply noted
    rcases List.mem_cons.mp inside with rfl | old
    · exact absurd rfl (noOutcome _ noted)
    · exact serves.told r old reply noted

/-- The request of an errand is let in under the ticket of its inquiry. -/
theorem enroll {e : Errand} (serves : h.Serves (e.inquiry :: inquiries))
    (alone : ∀ q ∈ inquiries, q.ticket ≠ e.ticket) :
    (h.enroll e.channel e.command e.ticket).1.Serves (e.inquiry :: inquiries) := by
  obtain ⟨tidy, requests, outcomes, tickets, -⟩ :=
    enroll_frame serves.tidy e.channel e.command e.ticket
  refine ⟨tidy, ?_, ?_, ?_, ?_, ?_⟩
  · intro p inside
    rw [tickets]
    rcases requests p inside with old | rfl
    · exact serves.pendings p old
    · exact serves.tickets e.inquiry List.mem_cons_self
  · rw [outcomes, tickets]
    exact serves.outcomes
  · rw [tickets]
    exact serves.tickets
  · intro q inside p waits same
    rcases requests p waits with old | rfl
    · exact serves.owned q inside p old same
    · rcases List.mem_cons.mp inside with rfl | other
      · exact ⟨rfl, rfl⟩
      · exact absurd same.symm (alone q other)
  · rw [outcomes]
    exact serves.told

end Hub.Serves

theorem Hub.mem_of_outcome? {h : Hub Unit} {ticket : Nat} {outcome : Option Reply}
    (decided : h.outcome? ticket = some outcome) : (ticket, outcome) ∈ h.outcomes := by
  obtain ⟨⟨other, _⟩, found, rfl⟩ := Option.map_eq_some_iff.mp decided
  have same : other = ticket := by simpa using List.find?_some found
  exact same ▸ List.mem_of_find?_eq_some found

namespace Console

/-! ### The account -/

/-- The number and the command that a response to a command names. -/
def subject (command : Command) : Option Int64 × Option String :=
  (some command.seq, some command.kind.name)

/-- What a line asks, if it is a query. -/
def query? (line : String) : Option (Option Int64 × Option String) :=
  (Command.parse? line).bind fun command =>
    if command.kind.isQuery then some (subject command) else none

/-- The query that the reader of the lines has in hand. -/
def Task.subjects : Task → List (Option Int64 × Option String)
  | .placed command _ | .dead command => if command.kind.isQuery then [subject command] else []
  | .registering e | .writing e => [subject e.command]
  | .reading | .closed => []

/-- The errand that the reader of the lines is on. -/
def Task.errand? : Task → Option Errand
  | .registering e | .writing e => some e
  | _ => none

/-- What an inquiry waits for. -/
def Inquiry.subject (q : Inquiry) : Option Int64 × Option String :=
  (some q.seq, some q.kind.name)

namespace Session

/-- The inquiries, and the one that is about to wait. -/
def inquiries (s : Session) : List Inquiry :=
  (s.task.errand?.map Errand.inquiry).toList ++ s.console.inquiries

/-- The responses that have been written. -/
def responses (s : Session) : List (Option Int64 × Option String) :=
  s.console.lines.filterMap response?

/-- What has become of the queries: those that are answered, in hand, waiting, and still to come. -/
def account (s : Session) : List (Option Int64 × Option String) :=
  s.responses ++ s.task.subjects ++ s.console.inquiries.map Inquiry.subject ++
    s.input.filterMap query?

/-- What keeps the answers right: the tickets of the inquiries belong to them alone. No event is
written that has not been raised. -/
structure Guarded (s : Session) : Prop where
  serves : s.hub.Serves s.inquiries
  alone : ∀ e, s.task.errand? = some e → ∀ q ∈ s.console.inquiries, q.ticket ≠ e.ticket
  heard : s.console.heard ≤ s.hub.calls.length

variable {s s' : Session}

theorem inquiries_of_none (none : s.task.errand? = none) : s.inquiries = s.console.inquiries := by
  rw [inquiries, none]
  rfl

theorem inquiries_of_some {e : Errand} (some : s.task.errand? = some e) :
    s.inquiries = e.inquiry :: s.console.inquiries := by
  rw [inquiries, some]
  rfl

theorem alone_of_none (none : s.task.errand? = none) :
    ∀ e, s.task.errand? = some e → ∀ q ∈ s.console.inquiries, q.ticket ≠ e.ticket := by
  intro e errand
  rw [none] at errand
  cases errand

theorem subset_of_waits {q : Inquiry} {earlier later : List Inquiry}
    (waits : s.console.inquiries = earlier ++ q :: later) :
    earlier ++ later ⊆ s.console.inquiries := by
  rw [waits]
  exact ((List.sublist_cons_self q later).append_left earlier).subset

namespace Guarded

/-- The reader of the lines does nothing with a ticket, and no inquiry is new. -/
theorem settle (guarded : s.Guarded) (follows : s.hub.Follows s'.hub)
    (free : s'.task.errand? = none) (fewer : s'.console.inquiries ⊆ s.console.inquiries)
    (heard : s'.console.heard = s.console.heard) : s'.Guarded := by
  refine ⟨?_, ?_, heard ▸ Nat.le_trans guarded.heard follows.calls.length_le⟩
  · have left : s'.inquiries ⊆ s.inquiries := by
      rw [inquiries_of_none free]
      exact List.subset_append_of_subset_right _ fewer
    exact (guarded.serves.follows follows).subset left
  · exact alone_of_none free

/-- Something happens beside the reader of the lines. -/
theorem beside (guarded : s.Guarded) (follows : s.hub.Follows s'.hub) (task : s'.task = s.task)
    (fewer : s'.console.inquiries ⊆ s.console.inquiries)
    (heard : s'.console.heard = s.console.heard) : s'.Guarded := by
  refine ⟨?_, ?_, heard ▸ Nat.le_trans guarded.heard follows.calls.length_le⟩
  · have left : s'.inquiries ⊆ s.inquiries := by
      rw [inquiries, inquiries, task]
      exact List.append_subset.mpr ⟨List.subset_append_left _ _,
        List.subset_append_of_subset_right _ fewer⟩
    exact (guarded.serves.follows follows).subset left
  · intro e errand q inside
    exact guarded.alone e (task ▸ errand) q (fewer inside)

/-- The request of the errand that the reader of the lines is on is let in or refused. -/
theorem enroll {e : Errand} {hub : Hub Unit} {isIn : Bool} (guarded : s.Guarded)
    (errand : s.task.errand? = some e)
    (entered : s.hub.enroll e.channel e.command e.ticket = (hub, isIn)) :
    hub.Serves (e.inquiry :: s.console.inquiries) ∧ s.console.heard ≤ hub.calls.length := by
  have serves := (inquiries_of_some errand ▸ guarded.serves).enroll (guarded.alone e errand)
  obtain ⟨-, -, -, -, calls⟩ :=
    Hub.enroll_frame guarded.serves.tidy e.channel e.command e.ticket
  rw [entered] at serves calls
  exact ⟨serves, Nat.le_trans guarded.heard calls.length_le⟩

end Guarded

theorem guarded_start (processId timeout : Nat) (routes : Routes) (root : String)
    (lines : List String) : (start processId timeout routes root lines).Guarded := by
  have links : (Console.hub processId timeout routes).links = [] := rfl
  have outcomes : (Console.hub processId timeout routes).outcomes = [] := rfl
  have nobody : (Console.hub processId timeout routes).pendings = [] := by
    rw [Hub.pendings, links, List.flatMap_nil]
  have serves : (Console.hub processId timeout routes).Serves [] := by
    refine ⟨?_, ?_, ?_, ?_, ?_, ?_⟩
    · simp [Hub.Tidy, links]
    · simp [nobody]
    · simp [outcomes]
    · simp
    · simp
    · simp
  exact ⟨serves, alone_of_none rfl, Nat.zero_le _⟩

theorem guarded_step (guarded : s.Guarded) (step : Step s s') : s'.Guarded := by
  have tidy := guarded.serves.tidy
  have still := Hub.Follows.refl tidy
  cases step with
  | skipped task next junk => exact guarded.beside still rfl (List.Subset.refl _) rfl
  | unserved launch task next read isQuery found =>
      have followed := (Hub.follows_workspaceFor tidy launch _ _).of_eq found
      exact guarded.beside followed rfl (List.Subset.refl _) rfl
  | ignored launch task next read isNotice found =>
      have followed := (Hub.follows_workspaceFor tidy launch _ _).of_eq found
      exact guarded.beside followed rfl (List.Subset.refl _) rfl
  | served launch task next read found =>
      have followed := (Hub.follows_workspaceFor tidy launch _ _).of_eq found
      exact guarded.settle followed rfl (List.Subset.refl _) rfl
  | told task isNotice told =>
      have followed := (Hub.follows_tell tidy _ _).of_eq told
      exact guarded.settle followed rfl (List.Subset.refl _) rfl
  | died task fails =>
      have followed := (Hub.follows_prepare tidy _ _).of_eq fails
      exact guarded.settle followed rfl (List.Subset.refl _) rfl
  | @prepared command ready workspace channel hub deadline task isQuery complete =>
      have followed := (Hub.follows_prepare tidy _ _).of_eq complete
      have serves := guarded.serves.follows followed
      rw [inquiries_of_none (by rw [task]; rfl)] at serves
      -- Every inquiry has an earlier ticket than the one that is given out now.
      refine ⟨serves.issue rfl, ?_, Nat.le_trans guarded.heard followed.calls.length_le⟩
      rintro e ⟨⟩ q inside
      exact Nat.ne_of_lt (serves.tickets q inside)
  | unsayable task mute => exact guarded.settle still rfl (List.Subset.refl _) rfl
  | @refused e hub task sayable out =>
      have errand : s.task.errand? = some e := by rw [task]; rfl
      obtain ⟨serves, heard⟩ := guarded.enroll errand out
      exact ⟨serves.subset (List.subset_cons_self _ _), alone_of_none rfl, heard⟩
  | @enrolled e hub task sayable entered =>
      have errand : s.task.errand? = some e := by rw [task]; rfl
      obtain ⟨serves, heard⟩ := guarded.enroll errand entered
      refine ⟨serves, ?_, heard⟩
      rintro _ ⟨⟩
      exact guarded.alone e errand
  | @written e hub task posted =>
      have errand : s.task.errand? = some e := by rw [task]; rfl
      have followed := (Hub.follows_post tidy _ _).of_eq posted
      have serves := inquiries_of_some errand ▸ guarded.serves.follows followed
      refine ⟨serves.subset ?_, alone_of_none rfl,
        Nat.le_trans guarded.heard followed.calls.length_le⟩
      intro q inside
      change q ∈ s.console.inquiries ++ [e.inquiry] at inside
      rcases List.mem_append.mp inside with old | new
      · exact List.mem_cons_of_mem _ old
      · exact List.mem_singleton.mp new ▸ List.mem_cons_self
  | unwritten task posted =>
      have followed := (Hub.follows_post tidy _ _).of_eq posted
      exact guarded.settle followed rfl (List.Subset.refl _) rfl
  | answered waits decided => exact guarded.beside still rfl (subset_of_waits waits) rfl
  | expired waits => exact guarded.beside still rfl (subset_of_waits waits) rfl
  | abandoned channel id =>
      exact guarded.beside (Hub.follows_abandon tidy channel id) rfl (List.Subset.refl _) rfl
  | arrived channel a =>
      exact guarded.beside (Hub.follows_arrive tidy channel a) rfl (List.Subset.refl _) rfl
  | disturbed channel outlet noted =>
      have followed : s.hub.Follows
          (s.hub.onChannel channel () fun c => ({ c with outlet, noted }, [], ())).1 :=
        Hub.follows_onChannel tidy fun _ orderly => Channel.keeps_same orderly rfl
      exact guarded.beside followed rfl (List.Subset.refl _) rfl
  | reported next =>
      exact ⟨guarded.serves, guarded.alone, (List.getElem?_eq_some_iff.mp next).1⟩
  | closed task input inquiries =>
      exact guarded.settle (Hub.follows_stopAll tidy) rfl (List.Subset.refl _) rfl

theorem guarded_run (guarded : s.Guarded) (run : Run s s') : s'.Guarded := by
  induction run with
  | refl => exact guarded
  | tail _ step ih => exact guarded_step ih step

/-! ### The account is kept -/

@[simp] theorem inquiries_reply (c : Console) (r : Reply) : (c.reply r).inquiries = c.inquiries :=
  rfl

@[simp] theorem inquiries_giveUp (c : Console) (command : Command) :
    (c.giveUp command).inquiries = c.inquiries :=
  rfl

@[simp] theorem inquiries_answer (c : Console) (q : Inquiry) (outcome : Option Reply) :
    (c.answer q outcome).inquiries = c.inquiries :=
  rfl

theorem responses_write (c : Console) (message : Json) :
    (c.write message).lines.filterMap response? =
      c.lines.filterMap response? ++ (response? message.render).toList := by
  rw [write, List.filterMap_append]
  cases form : response? message.render <;> simp [form]

theorem responses_reply (c : Console) (r : Reply) :
    (c.reply r).lines.filterMap response? =
      c.lines.filterMap response? ++ [(some r.requestSeq, some r.command)] := by
  rw [reply, responses_write, response?_reply]
  rfl

theorem responses_giveUp (c : Console) (command : Command) :
    (c.giveUp command).lines.filterMap response? =
      c.lines.filterMap response? ++ [subject command] :=
  responses_reply ..

/-- The reply to an inquiry is about its query. -/
theorem responses_answer (guarded : s.Guarded) {c : Console} {q : Inquiry}
    {outcome : Option Reply} (waits : q ∈ s.console.inquiries)
    (right : outcome = none ∨ s.hub.outcome? q.ticket = some outcome) :
    (c.answer q outcome).lines.filterMap response? =
      c.lines.filterMap response? ++ [q.subject] := by
  rw [answer, responses_reply]
  cases outcome with
  | none => rfl
  | some reply =>
      have decided := right.resolve_left (Option.some_ne_none reply)
      have noted := Hub.mem_of_outcome? decided
      have inside : q ∈ s.inquiries := List.mem_append_right _ waits
      obtain ⟨number, command⟩ := guarded.serves.told q inside reply noted
      rw [Option.getD_some, number, command]
      rfl

theorem query?_eq_none {line : String} (junk : Command.parse? line = none) :
    query? line = none := by
  rw [query?, junk]
  rfl

theorem query?_eq_some {line : String} {command : Command}
    (read : Command.parse? line = some command) :
    query? line = if command.kind.isQuery then some (subject command) else none := by
  rw [query?, read]
  rfl

/-- An inquiry that gets its reply goes from the inquiries to the responses. -/
theorem account_answer (guarded : s.Guarded) {q : Inquiry} {earlier later : List Inquiry}
    {outcome : Option Reply} (waits : s.console.inquiries = earlier ++ q :: later)
    (right : outcome = none ∨ s.hub.outcome? q.ticket = some outcome) :
    account { s with
      console := { s.console with inquiries := earlier ++ later }.answer q outcome } |>.Perm
        s.account := by
  have inside : q ∈ s.console.inquiries := waits ▸ List.mem_append_right _ List.mem_cons_self
  rw [List.perm_iff_count]
  intro k
  simp only [account, responses, responses_answer guarded inside right, inquiries_answer, waits,
    List.map_append, List.map_cons, List.count_append, List.count_cons, List.count_nil]
  omega

/-- Whatever happens, each query stays in the account, in one place or another. -/
theorem account_step (guarded : s.Guarded) (step : Step s s') : s'.account.Perm s.account := by
  -- The places are concatenated, so it is counted how often each query occurs in all of them.
  rw [List.perm_iff_count]
  intro k
  cases step with
  | skipped task next junk =>
      simp only [account, responses, task, next, List.filterMap_cons, query?_eq_none junk]
  | unserved launch task next read isQuery found =>
      simp only [account, responses, task, next, responses_reply, inquiries_reply,
        List.filterMap_cons, query?_eq_some read, isQuery, if_true, List.count_append,
        List.count_cons, List.count_nil, Task.subjects, subject, Reply.failure]
      omega
  | ignored launch task next read isNotice found =>
      simp only [account, responses, task, next, List.filterMap_cons, query?_eq_some read,
        isNotice, Bool.false_eq_true, if_false]
  | @served line rest command hub workspace launch task next read found =>
      simp only [account, responses, task, next, Task.subjects, List.filterMap_cons,
        query?_eq_some read]
      cases command.kind.isQuery with
      | true =>
          simp only [if_true, List.count_append, List.count_cons, List.count_nil]
          omega
      | false => rfl
  | told task isNotice told =>
      simp only [account, responses, task, Task.subjects, isNotice, Bool.false_eq_true, if_false]
  | died task fails => simp only [account, responses, task, Task.subjects]
  | prepared deadline task isQuery complete =>
      obtain ⟨seq, kind, -⟩ := Hub.prepare_frame complete
      simp only [account, responses, task, Task.subjects, isQuery, if_true, subject, seq, kind]
  | unsayable task mute =>
      simp only [account, responses, task, Task.subjects, responses_giveUp,
        inquiries_giveUp, List.append_nil]
  | refused task sayable out =>
      simp only [account, responses, task, Task.subjects, responses_giveUp,
        inquiries_giveUp, List.append_nil]
  | enrolled task sayable entered =>
      simp only [account, responses, task, Task.subjects]
  | @written e hub task posted =>
      have same : e.inquiry.subject = subject e.command := rfl
      simp only [account, responses, task, Task.subjects, List.map_append, List.map_cons,
        List.map_nil, same, List.count_append, List.count_cons, List.count_nil]
      omega
  | unwritten task posted =>
      simp only [account, responses, task, Task.subjects, responses_giveUp,
        inquiries_giveUp, List.append_nil]
  | answered waits decided =>
      exact List.perm_iff_count.mp (account_answer guarded waits (.inr decided)) k
  | expired waits => exact List.perm_iff_count.mp (account_answer guarded waits (.inl rfl)) k
  | abandoned channel id => rfl
  | arrived channel a => rfl
  | disturbed channel outlet noted => rfl
  | @reported call next =>
      have silent := responses_write s.console call.2.toJson
      rw [response?_event, Option.toList_none, List.append_nil] at silent
      simp only [account, responses, silent]
      rfl
  | closed task input inquiries =>
      simp only [account, responses, task, Task.subjects]

/-! ### Lines -/

/-- Whether no line that was written is broken. -/
def OneLine (c : Console) : Prop :=
  ∀ line ∈ c.lines, '\n' ∉ line.toList

theorem lineFeed_notMem_reply (r : Reply) : '\n' ∉ r.toJson.render.toList :=
  Json.lineFeed_notMem_render r.isExact_toJson

theorem lineFeed_notMem_event (e : Event) : '\n' ∉ e.toJson.render.toList :=
  Json.lineFeed_notMem_render e.isExact_toJson

theorem oneLine_write {c : Console} {message : Json} (whole : OneLine c)
    (unbroken : '\n' ∉ message.render.toList) : OneLine (c.write message) := by
  intro line inside
  rcases List.mem_append.mp inside with old | new
  · exact whole line old
  · exact List.mem_singleton.mp new ▸ unbroken

theorem oneLine_reply {c : Console} (whole : OneLine c) (r : Reply) : OneLine (c.reply r) :=
  oneLine_write whole (lineFeed_notMem_reply r)

theorem oneLine_step (whole : OneLine s.console) (step : Step s s') : OneLine s'.console := by
  cases step with
  | unserved launch task next read isQuery found => exact oneLine_reply whole _
  | unsayable task mute => exact oneLine_reply whole _
  | refused task sayable out => exact oneLine_reply whole _
  | unwritten task posted => exact oneLine_reply whole _
  | @answered q earlier later outcome waits decided =>
      exact oneLine_reply (c := { s.console with inquiries := earlier ++ later }) whole _
  | @expired q earlier later waits =>
      exact oneLine_reply (c := { s.console with inquiries := earlier ++ later }) whole _
  | @reported call next =>
      have written := oneLine_write whole (lineFeed_notMem_event call.2)
      exact written
  | _ => exact whole

/-! ### The end of the input -/

/-- Whether nothing is left to be done. -/
def Idle (s : Session) : Prop :=
  s.input = [] ∧ s.console.inquiries = []

theorem idle_step (idle : s.task = .closed → s.Idle) (step : Step s s') :
    s'.task = .closed → s'.Idle := by
  -- After the exit no inquiry is left that could be answered.
  have answering : ∀ {q : Inquiry} {earlier later : List Inquiry},
      s.console.inquiries = earlier ++ q :: later → s.task ≠ .closed := by
    intro q earlier later waits exited
    rw [(idle exited).2] at waits
    exact List.append_ne_nil_of_right_ne_nil _ (List.cons_ne_nil _ _) waits.symm
  intro exited
  cases step with
  | skipped task next junk => cases task.symm.trans exited
  | unserved launch task next read isQuery found => cases task.symm.trans exited
  | ignored launch task next read isNotice found => cases task.symm.trans exited
  | served | told | died | prepared | unsayable | refused | enrolled | written | unwritten =>
      cases exited
  | answered waits decided => exact absurd exited (answering waits)
  | expired waits => exact absurd exited (answering waits)
  | abandoned | arrived | disturbed | reported => exact idle exited
  | closed task input inquiries => exact ⟨input, inquiries⟩

/-- What a bridge owes the editor for some lines: a response to each query, which names its number
and its command, and no other response; and each message is one line. -/
structure Answers (s : Session) (lines : List String) : Prop where
  responses : (s.console.lines.filterMap response?).Perm (lines.filterMap query?)
  oneLine : ∀ line ∈ s.console.lines, '\n' ∉ line.toList

/-- What is so at any time between the start and the end. -/
structure Sound (s : Session) (lines : List String) : Prop where
  guarded : s.Guarded
  account : s.account.Perm (lines.filterMap query?)
  oneLine : OneLine s.console
  idle : s.task = .closed → s.Idle

theorem sound_start (processId timeout : Nat) (routes : Routes) (root : String)
    (lines : List String) :
    (start processId timeout routes root lines).Sound lines :=
  ⟨guarded_start processId timeout routes root lines, List.Perm.refl _, nofun, nofun⟩

theorem sound_run {lines : List String} (sound : s.Sound lines) (run : Run s s') :
    s'.Sound lines := by
  induction run with
  | refl => exact sound
  | tail _ step ih =>
      have account := (account_step ih.guarded step).trans ih.account
      exact ⟨guarded_step ih.guarded step, account, oneLine_step ih.oneLine step,
        idle_step ih.idle step⟩

/-- At the end only responses are left in the account. -/
theorem Sound.answers {lines : List String} (sound : s.Sound lines) (exited : s.task = .closed) :
    s.Answers lines := by
  obtain ⟨input, inquiries⟩ := sound.idle exited
  have account := sound.account
  rw [Session.account, exited, input, inquiries] at account
  simp only [Task.subjects, List.map_nil, List.filterMap_nil, List.append_nil] at account
  exact ⟨account, sound.oneLine⟩

/-- A bridge that has exited at the end of its input has answered every query of its editor once,
whatever its servers have done. -/
theorem drained {processId timeout : Nat} {routes : Routes} {root : String} {lines : List String}
    (run : Run (start processId timeout routes root lines) s) (exited : s.task = .closed) :
    s.Answers lines ∧ (∀ r : Reply, '\n' ∉ r.toJson.render.toList) ∧
      ∀ e : Event, '\n' ∉ e.toJson.render.toList := by
  have sound := sound_run (sound_start processId timeout routes root lines) run
  exact ⟨sound.answers exited, lineFeed_notMem_reply, lineFeed_notMem_event⟩

/-- A line that asks what is known about the first symbol of a file. -/
def glance : String :=
  "\x7b\"seq\":7,\"command\":\"quickinfo\"," ++
    "\"arguments\":\x7b\"file\":\"/a\",\"line\":1,\"offset\":1\x7d\x7d"

/-- A line that asks the same of a file that there is a server for. -/
def stare : String :=
  "\x7b\"seq\":8,\"command\":\"quickinfo\"," ++
    "\"arguments\":\x7b\"file\":\"/b.ts\",\"line\":1,\"offset\":1\x7d\x7d"

/-- A bridge with one server, and an editor that asks about both files. -/
def observant : Session :=
  start 0 0 [("ts", ⟨"server", [], [], none⟩)] "/" ["?", glance, stare]

/-- What the server answers. -/
def symbol : Json :=
  .object [("id", .int 8), ("jsonrpc", .string "2.0"),
    ("result", .object [("contents", .string "b")])]

/-- The bridge passes over a line that is no command, answers one query itself and the other one
with what the server says, and exits. -/
theorem drained_glance : ∃ s : Session, Run observant s ∧ s.task = .closed ∧
    s.Answers ["?", glance, stare] ∧ ["?", glance, stare].filterMap query? =
      [(some 7, some "quickinfo"), (some 8, some "quickinfo")] ∧
    ∃ body, s.console.lines.getLast? = some (Reply.answer .quickInfo 8 body).toJson.render := by
  have junk : Command.parse? "?" = none := by decide +kernel
  have read : Command.parse? glance = some ⟨7, .quickInfo ⟨"/a", 1, 1⟩⟩ := by decide +kernel
  have readMore : Command.parse? stare = some ⟨8, .quickInfo ⟨"/b.ts", 1, 1⟩⟩ := by decide +kernel
  have skipped := Relation.ReflTransGen.single (Step.skipped (s := observant) rfl rfl junk)
  have failed := skipped.tail (Step.unserved (fun _ => none) rfl rfl read rfl rfl)
  have served := failed.tail (Step.served (fun _ => some .start) rfl rfl readMore rfl)
  have prepared := served.tail (Step.prepared 0 rfl rfl rfl)
  have enrolled := prepared.tail (Step.enrolled rfl rfl rfl)
  have written := enrolled.tail (Step.written rfl rfl)
  have arrived := written.tail (Step.arrived 0 (.frame symbol))
  have answered := arrived.tail (@Step.answered _ _ [] [] _ rfl rfl)
  have closed := answered.tail (Step.closed rfl rfl rfl)
  refine ⟨_, closed, rfl, (drained closed rfl).1, ?_, _, rfl⟩
  simp only [List.filterMap_cons, query?_eq_none junk, query?_eq_some read, query?_eq_some readMore]
  rfl

end Session

end Console

end EditorBridge
