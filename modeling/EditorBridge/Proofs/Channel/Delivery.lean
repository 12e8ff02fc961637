import EditorBridge.Proofs.Channel.Registration

/-!
# What a caller is told of a response

A response carries a result, or the reason why there is none, or by mistake both. A caller that
waits for it is told at once, and its request leaves the table. What it is told follows from the two
members: the reason if there is one, else the answer in the result, else that there is none
(`Conveys`). So it is for every response that does not carry both a reason and a result in which
there is an answer (`conveys_iff`). Of those the caller gets the answer and does not learn of the
reason (`not_conveys_both`).
-/

namespace EditorBridge.Channel

/-- Whether a reply to a request tells of a response what it says. If there is a reason, it is
given, whatever the result (`reason`). If there is none, the answer is given (`answer`), or the word
that there is no result (`nothing`). -/
inductive Conveys (p : Pending) (r : Rpc.Response) (reply : Reply) : Prop
  | reason {failure : Rpc.Failure} (failed : r.failure = some failure)
      (unsuccessful : reply.success = false) (bare : reply.body = none)
      (given : reply.message = some failure.message)
  | answer (fine : r.failure = none) (read : Reply.ofResponse? p.kind.method r = some reply)
      (successful : reply.success = true)
  | nothing (fine : r.failure = none) (unread : Reply.ofResponse? p.kind.method r = none)
      (unsuccessful : reply.success = false) (given : reply.message = some "no result")

namespace Exchange

variable {p : Pending} {r : Rpc.Response} {v : Json}

/-- What is read out of a response is a successful reply with a body. -/
theorem success_of_ofResponse? {method : String} {reply : Reply}
    (read : Reply.ofResponse? method r = some reply) :
    reply.success = true ∧ reply.body.isSome := by
  obtain ⟨seq, kind, result, body, -, -, -, rfl⟩ := Reply.exists_of_ofResponse? read
  exact ⟨rfl, rfl⟩

theorem conveys_replyTo_iff : Conveys p r (replyTo p r) ↔
    ¬ (r.failure.isSome ∧ (Reply.ofResponse? p.kind.method r).isSome) := by
  cases read : Reply.ofResponse? p.kind.method r with
  | some answer =>
      have told : replyTo p r = answer := by rw [replyTo, read, Option.getD_some]
      have successful := (success_of_ofResponse? read).1
      rw [told]
      constructor
      · rintro (⟨-, unsuccessful, -, -⟩ | ⟨fine, -, -⟩ | ⟨-, unread, -, -⟩) ⟨failed, -⟩
        · rw [successful] at unsuccessful
          cases unsuccessful
        · rw [fine] at failed
          cases failed
        · rw [read] at unread
          cases unread
      · intro notBoth
        have fine : r.failure = none := by
          rw [← Option.not_isSome_iff_eq_none]
          exact fun failed => notBoth ⟨failed, rfl⟩
        exact .answer fine read successful
  | none =>
      refine ⟨fun _ both => absurd both.2 nofun, fun _ => ?_⟩
      rw [replyTo, read, Option.getD_none]
      cases failed : r.failure with
      | some failure => exact .reason failed rfl rfl rfl
      | none => exact .nothing failed read rfl rfl

/-- A response to a request that waits brings one reply, and the request leaves the table. -/
theorem step_answer {x : Exchange} (orderly : x.Orderly) (waits : p ∈ x.pending)
    (answer : response? v = some r) (answers : r.id.bind Rpc.RequestId.number? = some p.id) :
    x.step (.arrival (.frame v)) = (x.forget p.id, [.replied p.ticket (replyTo p r)]) := by
  have goesOn : x.isClosed = false := by
    rw [← Bool.not_eq_true]
    intro closed
    rw [orderly.emptied closed] at waits
    cases waits
  have found : x.find? p.id = some p := by
    have mine : p ∈ x.pending.filter (·.id == p.id) :=
      List.mem_filter.mpr ⟨waits, beq_self_eq_true p.id⟩
    rw [filter_id orderly] at mine
    exact Option.mem_toList.mp mine
  rw [step, receive_answer goesOn, answer]
  simp only [resolve, answers, if_neg (orderly.nonzero p waits), found]

/-- Whoever waits for a response is told what it says, unless it carries both a reason and an
answer; then the answer is all that is told. -/
theorem conveys_iff {inputs : List Input} (waits : p ∈ (after inputs).pending)
    (answer : response? v = some r) (answers : r.id.bind Rpc.RequestId.number? = some p.id) :
    ∃ reply, (after inputs).step (.arrival (.frame v)) =
        ((after inputs).forget p.id, [.replied p.ticket reply]) ∧
      (∀ q ∈ ((after inputs).forget p.id).pending, q.id ≠ p.id) ∧
      reply.requestSeq = p.id ∧ reply.command = p.kind.name ∧
      (Conveys p r reply ↔
        ¬ (r.failure.isSome ∧ (Reply.ofResponse? p.kind.method r).isSome)) ∧
      ∀ read, Reply.ofResponse? p.kind.method r = some read → reply = read := by
  obtain ⟨numbered, named⟩ := replyTo_names answers
  refine ⟨replyTo p r, step_answer (orderly_after inputs) waits answer answers, ?_, numbered, named,
    conveys_replyTo_iff, ?_⟩
  · intro q inside
    exact bne_iff_ne.mp (List.mem_filter.mp inside).2
  · intro read same
    rw [replyTo, same, Option.getD_some]

/-- A response to a hover with the id 7 that gives a reason and some result. -/
def refusal (result : Json) : Json :=
  .object [("jsonrpc", .string "2.0"), ("id", .int 7), ("result", result),
    ("error", .object [("code", .int (-32803)), ("message", .string "busy")])]

/-- A reason is given beside a result that is no answer. -/
theorem conveys_refusal :
    ∃ reply, ((after [.awaitHandshake, .register 7 .quickInfo]).step
        (.arrival (.frame (refusal (.array []))))).2 = [.replied 1 reply] ∧
      reply.success = false ∧ reply.body = none ∧ reply.message = some "busy" := by
  have waits : (⟨7, .quickInfo, 1⟩ : Pending) ∈
      (after [.awaitHandshake, .register 7 .quickInfo]).pending := by decide
  have answer : response? (refusal (.array [])) = some _ := rfl
  obtain ⟨reply, told, -, -, -, conveys, -⟩ := conveys_iff waits answer rfl
  refine ⟨reply, congrArg Prod.snd told, ?_⟩
  rcases conveys.mpr (by decide) with ⟨failed, unsuccessful, bare, given⟩ | ⟨fine⟩ | ⟨fine⟩
  · obtain rfl := Option.some.inj failed
    exact ⟨unsuccessful, bare, given⟩
  · cases fine
  · cases fine

/-- A hover that is answered with a reason and with a description is told the description as if
nothing had been wrong. -/
theorem not_conveys_both :
    ¬ ∀ (inputs : List Input) (p : Pending) (v : Json) (r : Rpc.Response),
      p ∈ (after inputs).pending → response? v = some r →
      r.id.bind Rpc.RequestId.number? = some p.id →
        ∃ reply, ((after inputs).step (.arrival (.frame v))).2 = [.replied p.ticket reply] ∧
          Conveys p r reply := by
  intro all
  obtain ⟨reply, told, conveys⟩ := all [.register 7 .quickInfo] ⟨7, .quickInfo, 0⟩
    (refusal (.object [("contents", .string "func main()")])) _ (by decide) rfl rfl
  cases told
  rcases conveys with ⟨-, unsuccessful, -, -⟩ | ⟨fine⟩ | ⟨fine⟩
  · cases unsuccessful
  · cases fine
  · cases fine

end Exchange

end EditorBridge.Channel
