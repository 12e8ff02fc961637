import EditorBridge.Channel.Inbox

/-!
# What one step does to an exchange

An exchange takes orders and arrivals, one at a time. What a step does to the table is said once for
all kinds of steps: the requests that the step concerns leave it, and a request that is let in is
put at its end (`pending_step`). Everybody whose request leaves is told, and nobody else is
(`outcomes_step`). Both need the table to be orderly, and every step keeps it so (`orderly_step`).
-/

namespace EditorBridge.Channel

/-- The response that a message of the server is. -/
def response? (v : Json) : Option Rpc.Response :=
  match Rpc.Incoming.classify? v with
  | some (.response r) => some r
  | _ => none

/-- The number of the request that a message of the server answers. -/
def answeredId? (v : Json) : Option Int64 :=
  (response? v).bind fun r => r.id.bind Rpc.RequestId.number?

/-- What an exchange takes at a time. -/
inductive Step where
  | order (o : Order)
  | arrival (a : Arrival)

namespace Step

/-- Whether the request with an id does not wait any longer after the step: it is abandoned or
answered, or the stream has ended. -/
def concerns (id : Int64) : Step → Bool
  | order (.abandon other) => id == other
  | arrival (.frame v) => (answeredId? v).any (id == ·)
  | arrival .ended => true
  | _ => false

theorem concerns_frame {v : Json} {id : Int64} :
    (arrival (.frame v)).concerns id = true ↔ answeredId? v = some id := by
  rw [concerns]
  cases answeredId? v with
  | none => simp
  | some n =>
      rw [Option.any_some, beq_iff_eq, Option.some.injEq]
      exact eq_comm

/-- Whether the step is the end of the stream. -/
def isEnd : Step → Bool
  | arrival .ended => true
  | _ => false

/-- The reply that the step has for a request which it concerns. -/
def reply? (waiting : Pending) : Step → Option Reply
  | arrival (.frame v) => (response? v).map (Exchange.replyTo waiting)
  | _ => none

/-- The request that the step puts into the table. -/
def admitted? (x : Exchange) : Step → Option Pending
  | order (.register id kind ticket) =>
      if (x.refusal? id).isSome then none else some ⟨id, kind, ticket⟩
  | _ => none

end Step

/-- What an effect means for the caller with a ticket: it gets a reply, or it is let go with
none. -/
def Effect.outcome? : Effect → Option (Nat × Option Reply)
  | replied ticket reply => some (ticket, some reply)
  | released ticket => some (ticket, none)
  | _ => none

namespace Exchange

/-- Takes an order or an arrival. -/
def step (x : Exchange) : Step → Exchange × List Effect
  | .order o => x.order o
  | .arrival a => x.receive a

/-- What is always so of the table: no request has the id of the handshake, no two have the same id,
and nobody waits after the end of the stream. -/
structure Orderly (x : Exchange) : Prop where
  nonzero : ∀ p ∈ x.pending, p.id ≠ handshakeId
  distinct : (x.pending.map (·.id)).Nodup
  emptied : x.isClosed = true → x.pending = []

theorem orderly_start : Orderly start :=
  ⟨by simp [start], by simp [start], by simp [start]⟩

/-! ### Requests by their ids -/

theorem find?_eq_none {x : Exchange} {id : Int64} :
    x.find? id = none ↔ ∀ p ∈ x.pending, p.id ≠ id := by
  simp [find?, List.find?_eq_none]

theorem id_of_find? {x : Exchange} {id : Int64} {p : Pending} (found : x.find? id = some p) :
    p.id = id := by
  simpa using List.find?_some found

theorem mem_of_find? {x : Exchange} {id : Int64} {p : Pending} (found : x.find? id = some p) :
    p ∈ x.pending :=
  List.mem_of_find?_eq_some found

/-- There is at most one request with an id. -/
theorem filter_id {x : Exchange} (orderly : x.Orderly) (id : Int64) :
    x.pending.filter (·.id == id) = (x.find? id).toList := by
  have once : ∀ table : List Pending, (table.map (·.id)).Nodup →
      table.filter (·.id == id) = (table.find? (·.id == id)).toList := by
    intro table distinct
    induction table with
    | nil => rfl
    | cons first table ih =>
        rw [List.map_cons, List.nodup_cons] at distinct
        by_cases named : first.id = id
        · have others : table.filter (·.id == id) = [] := by
            rw [List.filter_eq_nil_iff]
            intro p inside same
            rw [beq_iff_eq, ← named] at same
            exact distinct.1 (same ▸ List.mem_map_of_mem inside)
          simp [named, others]
        · simp [named, ih distinct.2]
  exact once x.pending orderly.distinct

theorem filter_other {x : Exchange} {id : Int64} (absent : x.find? id = none) :
    x.pending.filter (·.id != id) = x.pending := by
  rw [List.filter_eq_self]
  intro p inside
  simpa using find?_eq_none.mp absent p inside

/-! ### What a message of the server is -/

theorem receive_answer {x : Exchange} {v : Json} (goesOn : x.isClosed = false) :
    x.receive (.frame v) =
      match response? v with
      | some r => x.resolve r
      | none => (x, (x.receive (.frame v)).2) := by
  unfold receive response?
  simp only [goesOn, Bool.false_eq_true, if_false]
  cases Rpc.Incoming.classify? v with
  | none => rfl
  | some message => cases message <;> rfl

/-- A message that is no response moves no caller. -/
theorem outcomes_of_no_response {x : Exchange} {v : Json} (other : response? v = none) :
    (x.receive (.frame v)).2.filterMap Effect.outcome? = [] := by
  cases closed : x.isClosed with
  | true => simp [receive, closed]
  | false =>
      simp only [receive, closed, Bool.false_eq_true, if_false]
      rw [response?] at other
      cases shape : Rpc.Incoming.classify? v with
      | none => rfl
      | some message =>
          cases message with
          | response r => simp [shape] at other
          | notification n =>
              simp only [take]
              cases Event.ofNotification? n <;> rfl
          | call c => rfl

/-! ### The table after a step -/

/-- The requests that a step concerns leave the table, and one that is let in comes last. -/
theorem pending_step {x : Exchange} (orderly : x.Orderly) (s : Step) :
    (x.step s).1.pending =
      x.pending.filter (fun p => !s.concerns p.id) ++ (s.admitted? x).toList := by
  have unmoved : x.pending.filter (fun _ => true) = x.pending := by simp
  rcases s with (⟨id, kind, ticket⟩ | id | ticket) | (v | _)
  · simp only [step, order, Step.concerns, Step.admitted?, Bool.not_false, unmoved]
    cases refused : x.refusal? id <;> simp
  · simp only [step, order, Step.concerns, Step.admitted?, Option.toList_none, List.append_nil]
    cases found : x.find? id with
    | none => exact (filter_other found).symm
    | some p => rfl
  · simp only [step, order, Step.concerns, Step.admitted?, Bool.not_false, unmoved]
    split <;> simp
  · simp only [step, Step.concerns, Step.admitted?, Option.toList_none, List.append_nil]
    cases closed : x.isClosed with
    | true => simp [receive, closed, orderly.emptied closed]
    | false =>
        rw [receive_answer closed, answeredId?]
        cases response? v with
        | none => exact unmoved.symm
        | some r =>
            simp only [resolve, Option.bind_some]
            cases r.id.bind Rpc.RequestId.number? with
            | none => exact unmoved.symm
            | some id =>
                simp only [Option.any_some]
                split
                · next zero =>
                    refine (List.filter_eq_self.mpr fun p inside => ?_).symm
                    simpa [zero] using orderly.nonzero p inside
                · cases found : x.find? id with
                  | none => exact (filter_other found).symm
                  | some p => rfl
  · simp only [step, receive, Step.concerns, Step.admitted?]
    split
    · next closed => simp [orderly.emptied closed]
    · simp [close]

/-- Everybody whose request leaves the table gets the reply of the step or is let go without one,
and nobody else. -/
theorem outcomes_step {x : Exchange} (orderly : x.Orderly) (s : Step) :
    (x.step s).2.filterMap Effect.outcome? =
      (x.pending.filter (s.concerns ·.id)).map fun p => (p.ticket, s.reply? p) := by
  have nobody : x.pending.filter (fun _ => false) = [] := by simp
  rcases s with (⟨id, kind, ticket⟩ | id | ticket) | (v | _)
  · simp only [step, order, Step.concerns, nobody]
    cases refused : x.refusal? id <;> rfl
  · simp only [step, order, Step.concerns, Step.reply?, filter_id orderly]
    cases found : x.find? id <;> rfl
  · simp only [step, order, Step.concerns, nobody]
    split
    · rfl
    · cases x.handshake <;> rfl
  · simp only [step, Step.concerns, Step.reply?]
    cases closed : x.isClosed with
    | true => simp [receive, closed, orderly.emptied closed]
    | false =>
        cases answer : response? v with
        | none => simp [outcomes_of_no_response answer, answeredId?, answer]
        | some r =>
            rw [receive_answer closed, answer]
            simp only [answeredId?, answer, resolve, Option.bind_some, Option.map_some]
            cases r.id.bind Rpc.RequestId.number? with
            | none => simp
            | some id =>
                simp only [Option.any_some, filter_id orderly]
                split
                · next zero =>
                    have absent : x.find? id = none :=
                      find?_eq_none.mpr fun p inside => zero ▸ orderly.nonzero p inside
                    rw [absent]
                    cases x.handshake with
                    | none => rfl
                    | some ticket =>
                        simp only [Option.map_some, Option.toList_some, greeting]
                        split <;> rfl
                · cases found : x.find? id <;> rfl
  · simp only [step, receive, Step.concerns, Step.reply?]
    split
    · next closed => simp [orderly.emptied closed]
    · have everybody : x.pending.filter (fun _ => true) = x.pending := by simp
      rw [everybody]
      cases form : x.handshake <;>
        simp [close, form, Effect.outcome?, Function.comp_def]

theorem isClosed_step (x : Exchange) (s : Step) :
    (x.step s).1.isClosed = (x.isClosed || s.isEnd) := by
  rcases s with (⟨id, kind, ticket⟩ | id | ticket) | (v | _)
  · simp only [step, order, Step.isEnd, Bool.or_false]
    split <;> rfl
  · simp only [step, order, Step.isEnd, Bool.or_false]
    split <;> rfl
  · simp only [step, order, Step.isEnd, Bool.or_false]
    split <;> rfl
  · simp only [step, Step.isEnd, Bool.or_false]
    cases closed : x.isClosed with
    | true => simp [receive, closed]
    | false =>
        rw [receive_answer closed]
        cases response? v with
        | none => exact closed
        | some r =>
            simp only [resolve]
            split
            · exact closed
            · split
              · exact closed
              · split <;> exact closed
  · simp only [step, receive, Step.isEnd, Bool.or_true]
    split
    · next closed => exact closed
    · rfl

/-- A request is refused if its id is that of the handshake or of a request that waits, or if the
stream has ended; otherwise it is let in. -/
theorem refusal?_eq_none {x : Exchange} {id : Int64} :
    x.refusal? id = none ↔
      id ≠ handshakeId ∧ x.isClosed = false ∧ ∀ p ∈ x.pending, p.id ≠ id := by
  rw [refusal?]
  by_cases zero : id = handshakeId
  · simp [zero]
  · cases x.isClosed with
    | true => simp [zero]
    | false =>
        cases found : x.find? id with
        | none => simpa [zero] using find?_eq_none.mp found
        | some p =>
            have inside := mem_of_find? found
            simp only [zero, if_false, Bool.false_eq_true, Option.isSome_some, if_true,
              reduceCtorEq, false_iff]
            exact fun allowed => allowed.2.2 p inside (id_of_find? found)

theorem admitted?_eq_some {x : Exchange} {s : Step} {p : Pending} :
    s.admitted? x = some p ↔
      s = .order (.register p.id p.kind p.ticket) ∧ x.refusal? p.id = none := by
  constructor
  · intro admitted
    rcases s with (⟨id, kind, ticket⟩ | id | ticket) | a
    · simp only [Step.admitted?] at admitted
      split at admitted
      · cases admitted
      · next accepted =>
          obtain rfl := Option.some.inj admitted
          exact ⟨rfl, by simpa using accepted⟩
    all_goals cases admitted
  · rintro ⟨rfl, accepted⟩
    simp [Step.admitted?, accepted]

/-- Every step keeps the table orderly. -/
theorem orderly_step {x : Exchange} (orderly : x.Orderly) (s : Step) :
    (x.step s).1.Orderly := by
  have table := pending_step orderly s
  cases admitted : s.admitted? x with
  | none =>
      rw [admitted, Option.toList_none, List.append_nil] at table
      refine ⟨?_, ?_, ?_⟩
      · intro p inside
        rw [table] at inside
        exact orderly.nonzero p (List.mem_filter.mp inside).1
      · rw [table]
        exact orderly.distinct.sublist (List.filter_sublist.map _)
      · intro closed
        rw [isClosed_step, Bool.or_eq_true] at closed
        rw [table]
        rcases closed with closed | ends
        · simp [orderly.emptied closed]
        · have all : ∀ id, s.concerns id = true := by
            rcases s with o | (v | _)
            · cases ends
            · cases ends
            · exact fun _ => rfl
          simp [all]
  | some p =>
      obtain ⟨rfl, accepted⟩ := admitted?_eq_some.mp admitted
      obtain ⟨nonzero, goesOn, new⟩ := refusal?_eq_none.mp accepted
      have same : x.pending.filter (fun q => !Step.concerns q.id
          (.order (.register p.id p.kind p.ticket))) = x.pending := by simp [Step.concerns]
      rw [admitted, same, Option.toList_some] at table
      refine ⟨?_, ?_, ?_⟩
      · intro q inside
        rw [table] at inside
        rcases List.mem_append.mp inside with inside | inside
        · exact orderly.nonzero q inside
        · exact List.mem_singleton.mp inside ▸ nonzero
      · rw [table, List.map_append, List.map_singleton, List.nodup_append]
        refine ⟨orderly.distinct, by simp, ?_⟩
        intro a named b last
        obtain ⟨q, inside, rfl⟩ := List.mem_map.mp named
        rw [List.mem_singleton.mp last]
        exact new q inside
      · intro closed
        rw [isClosed_step, goesOn] at closed
        exact absurd closed (by simp [Step.isEnd])

/-! ### Replies -/

/-- The reply to a request carries the number that the response answers and the name of the
command. -/
theorem replyTo_names {p : Pending} {r : Rpc.Response}
    (answers : r.id.bind Rpc.RequestId.number? = some p.id) :
    (replyTo p r).requestSeq = p.id ∧ (replyTo p r).command = p.kind.name := by
  unfold replyTo
  cases answer : Reply.ofResponse? p.kind.method r with
  | none => exact ⟨rfl, rfl⟩
  | some reply =>
      rw [Reply.ofResponse?, answers, Option.bind_some] at answer
      split at answer
      · cases answer
      · obtain ⟨result, -, answer⟩ := Option.bind_eq_some_iff.mp answer
        rw [Kind.ofMethod?_method, Option.bind_some] at answer
        obtain ⟨body, -, rfl⟩ := Option.map_eq_some_iff.mp answer
        exact ⟨rfl, rfl⟩

end Exchange

end EditorBridge.Channel
