import EditorBridge.Proofs.Channel.Registration

/-!
# Answers that come late

A caller that has waited long enough abandons its request, and the answer that comes after that is
meant to be dropped. An answer names its request by the id alone, though, and an id is free again as
soon as its request is abandoned. So a late answer is dropped just if no later request with the same
id waits when it comes (`dropsLate_iff`). One that waits gets the answer to the other request
(`not_dropsLate_overtaken`).
-/

namespace EditorBridge.Channel

/-- What reaches an exchange, and what its server means: with the message at a place it answers the
request whose registration has the place `meant` gives, if it gives one. -/
structure Run where
  inputs : List Input
  meant : Nat → Option Nat

namespace Run

open Exchange

/-- What comes of the input at a place. -/
def effects (run : Run) (place : Nat) : List Effect :=
  match run.inputs[place]? with
  | some i => ((after (run.inputs.take place)).step (i.step place)).2
  | none => []

/-- Whether the server answers requests, each of them at most once, after they have been let in. An
answer carries the id of a request that was let in before it (`answers`). Whatever carries the id of
a request is meant for one (`explained`). No request is answered twice (`once`). -/
structure Sensible (run : Run) : Prop where
  answers : ∀ place first, run.meant place = some first → first < place ∧ ∃ id kind v,
    run.inputs[first]? = some (.register id kind) ∧ Accepts (run.inputs.take first) id kind ∧
      run.inputs[place]? = some (.frame v) ∧ answeredId? v = some id
  explained : ∀ place v id, run.inputs[place]? = some (.frame v) → answeredId? v = some id →
    id ≠ handshakeId → ∃ first, run.meant place = some first
  once : ∀ place other first, run.meant place = some first → run.meant other = some first →
    place = other

/-- Whether the message at a place answers a request that was abandoned before another one with the
same id was registered. The server means the first one (`meant`). It was abandoned while it waited
(`abandoned`). The other one came after that (`again`). -/
structure IsLate (run : Run) (place : Nat) (p q : Pending) : Prop where
  meant : run.meant place = some p.ticket
  abandoned : ∃ n < q.ticket, run.inputs[n]? = some (.abandon p.id) ∧
    Waits (run.inputs.take n) p
  again : run.inputs[q.ticket]? = some (.register q.id q.kind)
  sameId : q.id = p.id

/-- Whether the answer to an abandoned request is never the reply to a later one. -/
def DropsLate (run : Run) : Prop :=
  ∀ place p q, run.IsLate place p q → ∀ reply, .replied q.ticket reply ∉ run.effects place

end Run

namespace Exchange

variable {inputs : List Input} {p q : Pending} {v : Json}

theorem Waits.registered (waits : Waits inputs p) :
    inputs[p.ticket]? = some (.register p.id p.kind) := by
  obtain ⟨before, later, rfl, place, -⟩ := waits
  rw [place, List.getElem?_append_right (Nat.le_refl _), Nat.sub_self, List.getElem?_cons_zero]

theorem Waits.registered_take {place : Nat} (waits : Waits (inputs.take place) p) :
    p.ticket < place ∧ inputs[p.ticket]? = some (.register p.id p.kind) := by
  have here := waits.registered
  rw [List.getElem?_take, Option.ite_none_right_eq_some] at here
  exact here

/-- A step brings a reply to the requests that it concerns and has a reply for. -/
theorem replied_mem_step_iff {x : Exchange} (orderly : x.Orderly) {s : Step} {ticket : Nat}
    {reply : Reply} :
    .replied ticket reply ∈ (x.step s).2 ↔
      ∃ p ∈ x.pending, s.concerns p.id = true ∧ p.ticket = ticket ∧ s.reply? p = some reply := by
  have told : .replied ticket reply ∈ (x.step s).2 ↔
      (ticket, some reply) ∈ (x.step s).2.filterMap Effect.outcome? := by
    rw [List.mem_filterMap]
    constructor
    · exact fun inside => ⟨_, inside, rfl⟩
    · rintro ⟨e, inside, outcome⟩
      cases e <;> cases outcome
      exact inside
  rw [told, outcomes_step orderly]
  simp only [List.mem_map, List.mem_filter, Prod.mk.injEq, and_assoc]

/-- An answer is the reply to a request just if that waits. -/
theorem replied_frame_iff {place : Nat} (answers : answeredId? v = some q.id)
    (registered : inputs[q.ticket]? = some (.register q.id q.kind)) :
    (∃ reply, .replied q.ticket reply ∈
        ((after (inputs.take place)).step (.arrival (.frame v))).2) ↔
      Waits (inputs.take place) q := by
  simp only [replied_mem_step_iff (orderly_after _), mem_pending_iff]
  constructor
  · rintro ⟨reply, p, waits, concerned, sameTicket, -⟩
    have sameId : p.id = q.id :=
      Option.some.inj ((Step.concerns_frame.mp concerned).symm.trans answers)
    have here := waits.registered_take.2
    rw [sameTicket, registered] at here
    have sameKind : q.kind = p.kind := (Input.register.inj (Option.some.inj here)).2
    have same : (⟨p.id, p.kind, p.ticket⟩ : Pending) = ⟨q.id, q.kind, q.ticket⟩ := by
      rw [sameId, sameKind, sameTicket]
    exact (show p = q from same) ▸ waits
  · intro waits
    obtain ⟨r, response, -⟩ := Option.bind_eq_some_iff.mp answers
    exact ⟨_, q, waits, Step.concerns_frame.mpr answers, rfl, by rw [Step.reply?, response]; rfl⟩

end Exchange

namespace Run

open Exchange

/-- Late answers are dropped just if no later request with the same id waits when they come. -/
theorem dropsLate_iff {run : Run} (sensible : run.Sensible) :
    run.DropsLate ↔
      ∀ place p q, run.IsLate place p q → ¬ Waits (run.inputs.take place) q := by
  refine forall_congr' fun place => forall_congr' fun p => forall_congr' fun q =>
    forall_congr' fun late => ?_
  obtain ⟨-, id, kind, v, asked, -, here, answers⟩ := sensible.answers place p.ticket late.meant
  obtain ⟨n, -, -, waited⟩ := late.abandoned
  obtain ⟨rfl, -⟩ := Input.register.inj
    (Option.some.inj (asked.symm.trans waited.registered_take.2))
  rw [← late.sameId] at answers
  rw [effects, here, ← not_exists, not_iff_not]
  exact replied_frame_iff answers late.again

/-- The answer to a hover with the id 7. -/
def described (text : String) : Json :=
  .object [("jsonrpc", .string "2.0"), ("id", .int 7),
    ("result", .object [("contents", .string text)])]

/-- A late answer comes before its id is used again, and the later request gets its own one. -/
def inTime : Run where
  inputs := [.register 7 .quickInfo, .abandon 7, .frame (described "alpha"),
    .register 7 .quickInfo, .frame (described "beta")]
  meant
    | 2 => some 0
    | 4 => some 3
    | _ => none

/-- A late answer comes when its id is used again. -/
def overtaken : Run where
  inputs := [.register 7 .quickInfo, .abandon 7, .register 7 .quickInfo,
    .frame (described "alpha")]
  meant
    | 3 => some 0
    | _ => none

theorem sensible_inTime : inTime.Sensible where
  answers := by
    intro place first meant
    rcases place with _ | _ | _ | _ | _ | place <;> cases meant
    · exact ⟨by decide, 7, .quickInfo, _, rfl, accepts_iff_refusal?.mpr (by decide), rfl, rfl⟩
    · exact ⟨by decide, 7, .quickInfo, _, rfl, accepts_iff_refusal?.mpr (by decide), rfl, rfl⟩
  explained := by
    intro place v id here answers nonzero
    rcases place with _ | _ | _ | _ | _ | place <;> cases here
    · exact ⟨0, rfl⟩
    · exact ⟨3, rfl⟩
  once := by
    intro place other first meant same
    rcases place with _ | _ | _ | _ | _ | place <;> cases meant <;>
      rcases other with _ | _ | _ | _ | _ | other <;> cases same <;> rfl

theorem sensible_overtaken : overtaken.Sensible where
  answers := by
    intro place first meant
    rcases place with _ | _ | _ | _ | place <;> cases meant
    exact ⟨by decide, 7, .quickInfo, _, rfl, accepts_iff_refusal?.mpr (by decide), rfl, rfl⟩
  explained := by
    intro place v id here answers nonzero
    rcases place with _ | _ | _ | _ | place <;> cases here
    exact ⟨0, rfl⟩
  once := by
    intro place other first meant same
    rcases place with _ | _ | _ | _ | place <;> cases meant
    rcases other with _ | _ | _ | _ | other <;> cases same
    rfl

/-- An answer that comes before its id is used again is dropped. -/
theorem dropsLate_inTime : inTime.Sensible ∧ inTime.DropsLate := by
  refine ⟨sensible_inTime, (dropsLate_iff sensible_inTime).mpr ?_⟩
  intro place p q late waits
  obtain ⟨n, before, -, waited⟩ := late.abandoned
  have first := waited.registered_take.1
  have second := waits.registered_take.1
  have meant := late.meant
  -- There is no room for an abandonment and a registration before the answer.
  rcases place with _ | _ | _ | _ | _ | place <;>
    simp only [inTime, reduceCtorEq, Option.some.injEq] at meant <;> omega

/-- A request with an id that was abandoned before gets the answer to the abandoned request. -/
theorem not_dropsLate_overtaken : overtaken.Sensible ∧ ¬ overtaken.DropsLate := by
  refine ⟨sensible_overtaken, fun dropsLate => ?_⟩
  have late : overtaken.IsLate 3 ⟨7, .quickInfo, 0⟩ ⟨7, .quickInfo, 2⟩ :=
    { meant := rfl
      abandoned := ⟨1, by decide, rfl, [], [], rfl, rfl, accepts_iff_refusal?.mpr (by decide),
        List.forall_mem_nil _⟩
      again := rfl
      sameId := rfl }
  have told : overtaken.effects 3 = [.replied 2 _] := rfl
  exact dropsLate 3 _ _ late _ (told ▸ List.mem_singleton_self _)

end Run

end EditorBridge.Channel
