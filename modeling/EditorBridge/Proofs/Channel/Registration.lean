import Mathlib.Data.List.Basic
import Mathlib.Data.List.Induction
import EditorBridge.Proofs.Channel.Step

/-!
# What becomes of a registered request

Inputs reach an exchange in any order and any number. The caller of a registration is known by the
place of the registration among the inputs, so that every caller has a ticket of its own. Whether a
registration is accepted depends on the inputs before it, and what its caller gets on the first
input behind it that concerns its id: the reply to the response, or nothing when the request is
abandoned or the stream ends (`answersOnce`).
-/

namespace EditorBridge.Channel

/-- What reaches an exchange: a request that is about to be written, the word that nobody waits for
one any more, a caller that waits for the handshake, a message of the server, or the end of its
stream. -/
inductive Input where
  | register (id : Int64) (kind : Kind)
  | abandon (id : Int64)
  | awaitHandshake
  | frame (value : Json)
  | ended

/-- The step that an input is. Its place among the inputs is the ticket of its caller. -/
def Input.step (place : Nat) : Input → Step
  | register id kind => .order (.register id kind place)
  | abandon id => .order (.abandon id)
  | awaitHandshake => .order (.awaitHandshake place)
  | frame v => .arrival (.frame v)
  | ended => .arrival .ended

/-- The steps that inputs are when the first of them has a place. -/
def steps (place : Nat) : List Input → List Step
  | [] => []
  | i :: rest => i.step place :: steps (place + 1) rest

/-- Whether the request with an id does not wait any longer after the input. -/
def Input.concerns (id : Int64) : Input → Bool
  | abandon other => id == other
  | frame v => (answeredId? v).any (id == ·)
  | ended => true
  | _ => false

/-- The replies that the effects bring to the caller with a ticket; `none` means that it is let go
without one. -/
def outcomesOf (ticket : Nat) (effects : List Effect) : List (Option Reply) :=
  ((effects.filterMap Effect.outcome?).filter (·.1 == ticket)).map (·.2)

namespace Exchange

/-- The exchange of a new channel after inputs. -/
def after (inputs : List Input) : Exchange :=
  (start.run step (steps 0 inputs)).1

/-- Everything that comes of inputs to a new channel, for the caller of the one at a place. -/
def outcomes (inputs : List Input) (place : Nat) : List (Option Reply) :=
  outcomesOf place (start.run step (steps 0 inputs)).2

/-- Whether a registration that follows the inputs is accepted: that is all that comes of it. -/
def Accepts (before : List Input) (id : Int64) (kind : Kind) : Prop :=
  ((after before).step ((Input.register id kind).step before.length)).2 =
    [.accepted before.length]

/-- Whether a registration that follows the inputs is refused: that is all that comes of it, and the
exchange stays as it is. -/
def Refuses (before : List Input) (id : Int64) (kind : Kind) : Prop :=
  ∃ why, (after before).step ((Input.register id kind).step before.length) =
    (after before, [.refused before.length why])

/-- Whether a registration of the id has been accepted among the inputs, and none of those behind it
concerns the id. -/
def IsOpen (inputs : List Input) (id : Int64) : Prop :=
  ∃ before kind later, inputs = before ++ .register id kind :: later ∧ Accepts before id kind ∧
    ∀ i ∈ later, ¬ i.concerns id

/-- Whether a request waits after the inputs: its registration at the place that is its ticket has
been accepted, and none of the inputs behind it concerns its id. -/
def Waits (inputs : List Input) (p : Pending) : Prop :=
  ∃ before later, inputs = before ++ .register p.id p.kind :: later ∧ p.ticket = before.length ∧
    Accepts before p.id p.kind ∧ ∀ i ∈ later, ¬ i.concerns p.id

/-- What holds of an exchange after any inputs. A registration is accepted exactly if its id is not
that of the handshake, the stream has not ended, and no request with the id is open (`accepts`). One
that is not accepted is refused (`refuses`). Until an input concerns it, an accepted request waits
in the table (`waits`). A response that comes first brings one reply, and nothing else follows
(`answered`). If the request is abandoned first, or the stream ends first, the caller is let go
(`released`). No caller gets more than that (`once`). The id of the handshake never waits in the
table (`reserved`). After the end of the stream nobody waits and everybody is refused (`ending`). -/
structure AnswersOnce (inputs : List Input) : Prop where
  accepts : ∀ id kind, Accepts inputs id kind ↔
    id ≠ handshakeId ∧ .ended ∉ inputs ∧ ¬ IsOpen inputs id
  refuses : ∀ id kind, ¬ Accepts inputs id kind → Refuses inputs id kind
  waits : ∀ before id kind later, inputs = before ++ .register id kind :: later →
    Accepts before id kind → (∀ i ∈ later, ¬ i.concerns id) →
      ⟨id, kind, before.length⟩ ∈ (after inputs).pending ∧ outcomes inputs before.length = []
  answered : ∀ before id kind quiet v rest,
    inputs = before ++ .register id kind :: (quiet ++ .frame v :: rest) →
    Accepts before id kind → (∀ i ∈ quiet, ¬ i.concerns id) → answeredId? v = some id →
      ∃ reply, outcomes inputs before.length = [some reply] ∧
        reply.requestSeq = id ∧ reply.command = kind.name
  released : ∀ before id kind quiet decisive rest,
    inputs = before ++ .register id kind :: (quiet ++ decisive :: rest) →
    Accepts before id kind → (∀ i ∈ quiet, ¬ i.concerns id) →
    decisive = .abandon id ∨ decisive = .ended → outcomes inputs before.length = [none]
  once : ∀ place, (outcomes inputs place).length ≤ 1
  reserved : ∀ p ∈ (after inputs).pending, p.id ≠ handshakeId
  ending : .ended ∈ inputs →
    (after inputs).pending = [] ∧ ∀ id kind, Refuses inputs id kind

/-! ### Inputs one after the other -/

theorem steps_append (place : Nat) (first second : List Input) :
    steps place (first ++ second) = steps place first ++ steps (place + first.length) second := by
  induction first generalizing place with
  | nil => rfl
  | cons i first ih =>
      rw [List.cons_append, steps, ih, steps, List.length_cons, List.cons_append]
      congr 3
      omega

theorem run_cons (x : Exchange) (s : Step) (items : List Step) :
    x.run step (s :: items) =
      (((x.step s).1.run step items).1, (x.step s).2 ++ ((x.step s).1.run step items).2) := rfl

theorem after_snoc (inputs : List Input) (i : Input) :
    after (inputs ++ [i]) = ((after inputs).step (i.step inputs.length)).1 := by
  simp [after, steps_append, run_append, steps, run]

theorem orderly_run {x : Exchange} (orderly : x.Orderly) (items : List Step) :
    (x.run step items).1.Orderly := by
  induction items generalizing x with
  | nil => exact orderly
  | cons s items ih => exact ih (orderly_step orderly s)

theorem orderly_after (inputs : List Input) : (after inputs).Orderly :=
  orderly_run orderly_start _

theorem concerns_step (i : Input) (place : Nat) (id : Int64) :
    (i.step place).concerns id = i.concerns id := by
  cases i <;> rfl

theorem isEnd_step (i : Input) (place : Nat) : (i.step place).isEnd = true ↔ .ended = i := by
  cases i <;> simp [Input.step, Step.isEnd]

theorem isClosed_after (inputs : List Input) :
    (after inputs).isClosed = true ↔ .ended ∈ inputs := by
  induction inputs using List.reverseRecOn with
  | nil => simp [after, steps, run, start]
  | append_singleton inputs i ih =>
      rw [after_snoc, isClosed_step, Bool.or_eq_true, ih, isEnd_step, List.mem_append,
        List.mem_singleton]

/-! ### Acceptance -/

theorem accepts_iff_refusal? {before : List Input} {id : Int64} {kind : Kind} :
    Accepts before id kind ↔ (after before).refusal? id = none := by
  simp only [Accepts, Input.step, step, order]
  cases (after before).refusal? id <;> simp

theorem refuses_of_not_accepts {before : List Input} {id : Int64} {kind : Kind}
    (notAccepted : ¬ Accepts before id kind) : Refuses before id kind := by
  rw [accepts_iff_refusal?] at notAccepted
  obtain ⟨why, refused⟩ := Option.ne_none_iff_exists'.mp notAccepted
  exact ⟨why, by simp [Input.step, step, order, refused]⟩

theorem admitted?_step {x : Exchange} {i : Input} {place : Nat} {p : Pending}
    (admitted : (i.step place).admitted? x = some p) :
    i = .register p.id p.kind ∧ p.ticket = place ∧ x.refusal? p.id = none := by
  obtain ⟨form, accepted⟩ := admitted?_eq_some.mp admitted
  cases i with
  | register id kind =>
      obtain ⟨rfl, rfl, rfl⟩ := Order.register.inj (Step.order.inj form)
      exact ⟨rfl, rfl, accepted⟩
  | abandon id => cases Step.order.inj form
  | awaitHandshake => cases Step.order.inj form
  | frame v => cases form
  | ended => cases form

/-- A request waits if it did so before the last input and that does not concern it, or if the last
input is its registration. -/
theorem waits_snoc {inputs : List Input} {i : Input} {p : Pending} :
    Waits (inputs ++ [i]) p ↔
      (Waits inputs p ∧ i.concerns p.id = false) ∨
        (i = .register p.id p.kind ∧ p.ticket = inputs.length ∧ Accepts inputs p.id p.kind) := by
  constructor
  · rintro ⟨before, later, form, place, accepted, quiet⟩
    rcases List.eq_nil_or_concat' later with rfl | ⟨later, last, rfl⟩
    · obtain ⟨rfl, same⟩ := List.append_inj' form rfl
      exact .inr ⟨(List.cons.inj same).1, place, accepted⟩
    · rw [← List.cons_append, ← List.append_assoc] at form
      obtain ⟨rfl, same⟩ := List.append_inj' form rfl
      obtain rfl := (List.cons.inj same).1
      refine .inl ⟨⟨before, later, rfl, place, accepted, fun j inside => ?_⟩, ?_⟩
      · exact quiet j (List.mem_append_left _ inside)
      · simpa using quiet i (by simp)
  · rintro (⟨⟨before, later, rfl, place, accepted, quiet⟩, passes⟩ | ⟨rfl, place, accepted⟩)
    · refine ⟨before, later ++ [i], by simp, place, accepted, fun j inside => ?_⟩
      rcases List.mem_append.mp inside with inside | last
      · exact quiet j inside
      · simpa [List.mem_singleton.mp last] using passes
    · exact ⟨inputs, [], rfl, place, accepted, by simp⟩

/-- The requests in the table are those that wait. -/
theorem mem_pending_iff {inputs : List Input} {p : Pending} :
    p ∈ (after inputs).pending ↔ Waits inputs p := by
  induction inputs using List.reverseRecOn with
  | nil => simp [after, steps, run, start, Waits]
  | append_singleton inputs i ih =>
      rw [waits_snoc, ← ih, after_snoc, pending_step (orderly_after inputs), List.mem_append,
        List.mem_filter, concerns_step, Bool.not_eq_true', Option.mem_toList]
      refine or_congr_right ⟨fun admitted => ?_, ?_⟩
      · obtain ⟨form, place, accepted⟩ := admitted?_step admitted
        exact ⟨form, place, accepts_iff_refusal?.mpr accepted⟩
      · rintro ⟨rfl, place, accepted⟩
        rw [← place]
        exact admitted?_eq_some.mpr ⟨rfl, accepts_iff_refusal?.mp accepted⟩

/-- The ids in the table are those of the open registrations. -/
theorem exists_pending_iff_isOpen (inputs : List Input) (id : Int64) :
    (∃ p ∈ (after inputs).pending, p.id = id) ↔ IsOpen inputs id := by
  constructor
  · rintro ⟨p, inside, rfl⟩
    obtain ⟨before, later, form, -, open_⟩ := mem_pending_iff.mp inside
    exact ⟨before, p.kind, later, form, open_⟩
  · rintro ⟨before, kind, later, form, accepted, quiet⟩
    exact ⟨⟨id, kind, before.length⟩,
      mem_pending_iff.mpr ⟨before, later, form, rfl, accepted, quiet⟩, rfl⟩

theorem accepts_iff (inputs : List Input) (id : Int64) (kind : Kind) :
    Accepts inputs id kind ↔ id ≠ handshakeId ∧ .ended ∉ inputs ∧ ¬ IsOpen inputs id := by
  have goesOn : (after inputs).isClosed = false ↔ .ended ∉ inputs := by
    rw [← isClosed_after, Bool.not_eq_true]
  have nobody : (∀ p ∈ (after inputs).pending, p.id ≠ id) ↔ ¬ IsOpen inputs id := by
    rw [← exists_pending_iff_isOpen]
    simp
  rw [accepts_iff_refusal?, refusal?_eq_none, goesOn, nobody]

/-! ### Outcomes -/

theorem outcomesOf_append (ticket : Nat) (first second : List Effect) :
    outcomesOf ticket (first ++ second) = outcomesOf ticket first ++ outcomesOf ticket second := by
  simp [outcomesOf]

/-- What a step brings to the caller with a ticket. -/
theorem outcomesOf_step {x : Exchange} (orderly : x.Orderly) (s : Step) (ticket : Nat) :
    outcomesOf ticket (x.step s).2 =
      ((x.pending.filter (·.ticket == ticket)).filter (s.concerns ·.id)).map s.reply? := by
  rw [outcomesOf, outcomes_step orderly, List.filter_map, List.map_map, List.filter_filter,
    List.filter_filter]
  simp only [Function.comp_def, Bool.and_comm]

/-- Whether no step is a registration with the ticket. -/
def Spares (ticket : Nat) (items : List Step) : Prop :=
  ∀ s ∈ items, ∀ x p, s.admitted? x = some p → p.ticket ≠ ticket

theorem spares_steps {place ticket : Nat} (inputs : List Input)
    (apart : ticket < place ∨ place + inputs.length ≤ ticket) :
    Spares ticket (steps place inputs) := by
  induction inputs generalizing place with
  | nil => simp [Spares, steps]
  | cons i inputs ih =>
      rw [List.length_cons] at apart
      intro s inside x p admitted
      rcases List.mem_cons.mp inside with rfl | inside
      · have here := (admitted?_step admitted).2.1
        omega
      · exact ih (by omega) s inside x p admitted

/-- The requests with a ticket after a step that is no registration with the ticket. -/
theorem filter_ticket_step {x : Exchange} (orderly : x.Orderly) {s : Step} {ticket : Nat}
    (spares : ∀ p, s.admitted? x = some p → p.ticket ≠ ticket) :
    (x.step s).1.pending.filter (·.ticket == ticket) =
      (x.pending.filter (·.ticket == ticket)).filter fun p => !s.concerns p.id := by
  have none : (s.admitted? x).toList.filter (·.ticket == ticket) = [] := by
    rw [List.filter_eq_nil_iff]
    intro p inside
    simpa using spares p (Option.mem_toList.mp inside)
  rw [pending_step orderly, List.filter_append, none, List.append_nil, List.filter_filter,
    List.filter_filter]
  simp only [Bool.and_comm]

/-- A caller that does not wait gets nothing. -/
theorem outcomesOf_run_of_absent {x : Exchange} {ticket : Nat} {items : List Step}
    (orderly : x.Orderly) (absent : x.pending.filter (·.ticket == ticket) = [])
    (spares : Spares ticket items) : outcomesOf ticket (x.run step items).2 = [] := by
  induction items generalizing x with
  | nil => rfl
  | cons s items ih =>
      have still : (x.step s).1.pending.filter (·.ticket == ticket) = [] := by
        rw [filter_ticket_step orderly (spares s (by simp) x), absent]
        rfl
      have later := ih (orderly_step orderly s) still fun t inside =>
        spares t (List.mem_cons_of_mem _ inside)
      have now := outcomesOf_step orderly s ticket
      rw [absent] at now
      rw [run_cons, outcomesOf_append, now, later]
      rfl

/-- A caller that waits gets what the first step that concerns it has for it. -/
theorem outcomesOf_run_of_waiting {x : Exchange} {p : Pending} {items : List Step}
    (orderly : x.Orderly) (waiting : x.pending.filter (·.ticket == p.ticket) = [p])
    (spares : Spares p.ticket items) :
    outcomesOf p.ticket (x.run step items).2 =
      ((items.find? (·.concerns p.id)).map fun s => s.reply? p).toList := by
  induction items generalizing x with
  | nil => rfl
  | cons s items ih =>
      have next := filter_ticket_step orderly (spares s (by simp) x)
      have now := outcomesOf_step orderly s p.ticket
      have others : Spares p.ticket items := fun t inside =>
        spares t (List.mem_cons_of_mem _ inside)
      rw [waiting] at next now
      rw [run_cons]
      cases concerned : s.concerns p.id with
      | true =>
          have mine : [p].filter (s.concerns ·.id) = [p] := by simp [concerned]
          rw [mine] at now
          have gone : (x.step s).1.pending.filter (·.ticket == p.ticket) = [] := by
            simp [next, concerned]
          have later := outcomesOf_run_of_absent (orderly_step orderly s) gone others
          rw [List.find?_cons_of_pos concerned, outcomesOf_append, now, later]
          rfl
      | false =>
          have passes : ¬ s.concerns p.id = true := by simp [concerned]
          have notMine : [p].filter (s.concerns ·.id) = [] := by simp [concerned]
          rw [notMine] at now
          have still : (x.step s).1.pending.filter (·.ticket == p.ticket) = [p] := by
            simp [next, concerned]
          have later := ih (orderly_step orderly s) still others
          rw [List.find?_cons_of_neg passes, outcomesOf_append, now]
          exact later

/-! ### The caller of one registration -/

theorem ticket_lt_length (inputs : List Input) :
    ∀ p ∈ (after inputs).pending, p.ticket < inputs.length := by
  induction inputs using List.reverseRecOn with
  | nil => simp [after, steps, run, start]
  | append_singleton inputs i ih =>
      intro p inside
      rw [after_snoc, pending_step (orderly_after inputs)] at inside
      rw [List.length_append, List.length_singleton]
      rcases List.mem_append.mp inside with inside | new
      · exact Nat.lt_succ_of_lt (ih p (List.mem_filter.mp inside).1)
      · have here := (admitted?_step (Option.mem_toList.mp new)).2.1
        omega

theorem filter_ticket_after (inputs : List Input) {place : Nat} (behind : inputs.length ≤ place) :
    (after inputs).pending.filter (·.ticket == place) = [] := by
  rw [List.filter_eq_nil_iff]
  intro p inside
  have := ticket_lt_length inputs p inside
  simp only [beq_iff_eq]
  omega

theorem outcomes_of_place_ge {inputs : List Input} {place : Nat} (behind : inputs.length ≤ place) :
    outcomes inputs place = [] :=
  outcomesOf_run_of_absent orderly_start rfl (spares_steps inputs (by omega))

/-- The inputs before a registration bring nothing to its caller, and neither does the registration
itself. -/
theorem outcomes_split (before : List Input) (i : Input) (later : List Input) :
    outcomes (before ++ i :: later) before.length =
      outcomesOf before.length
        ((after (before ++ [i])).run step (steps (before.length + 1) later)).2 := by
  have earlier := outcomes_of_place_ge (Nat.le_refl before.length)
  have here := outcomesOf_step (orderly_after before) (i.step before.length) before.length
  rw [filter_ticket_after before (Nat.le_refl _)] at here
  have first : outcomesOf before.length (start.run step (steps 0 (before ++ [i]))).2 = [] := by
    rw [steps_append, run_append]
    simp only [steps, run, List.append_nil, Nat.zero_add, outcomesOf_append]
    exact List.append_eq_nil_iff.mpr ⟨earlier, here⟩
  rw [outcomes, List.append_cons, steps_append, run_append, outcomesOf_append, first]
  simp [after]

theorem find?_steps (id : Int64) (place : Nat) (quiet : List Input)
    (passes : ∀ i ∈ quiet, ¬ i.concerns id) (rest : List Step) :
    (steps place quiet ++ rest).find? (·.concerns id) = rest.find? (·.concerns id) := by
  induction quiet generalizing place with
  | nil => rfl
  | cons i quiet ih =>
      rw [steps, List.cons_append, List.find?_cons_of_neg (by
        rw [concerns_step]; exact passes i (by simp))]
      exact ih _ fun j inside => passes j (List.mem_cons_of_mem _ inside)

/-- What the caller of an accepted registration gets of the inputs behind it. -/
theorem outcomes_of_accepts {before : List Input} {id : Int64} {kind : Kind}
    (accepted : Accepts before id kind) (later : List Input) :
    outcomes (before ++ .register id kind :: later) before.length =
      (((steps (before.length + 1) later).find? (·.concerns id)).map
        fun s => s.reply? ⟨id, kind, before.length⟩).toList := by
  have admitted : ((Input.register id kind).step before.length).admitted? (after before) =
      some ⟨id, kind, before.length⟩ :=
    admitted?_eq_some.mpr ⟨rfl, accepts_iff_refusal?.mp accepted⟩
  have waiting : (after (before ++ [.register id kind])).pending.filter
      (·.ticket == before.length) = [⟨id, kind, before.length⟩] := by
    rw [after_snoc, pending_step (orderly_after before), admitted, List.filter_append,
      List.filter_filter]
    have others := filter_ticket_after before (Nat.le_refl _)
    simp only [Input.step, Step.concerns, Bool.not_false, Bool.and_true, others]
    simp
  rw [outcomes_split]
  exact outcomesOf_run_of_waiting (p := ⟨id, kind, before.length⟩) (orderly_after _) waiting
    (spares_steps later (.inl (Nat.lt_succ_self _)))

/-- What the first input that concerns an accepted registration has for its caller is all that the
caller gets. -/
theorem outcomes_of_decisive {before quiet : List Input} {id : Int64} {kind : Kind}
    {decisive : Input} (rest : List Input) (accepted : Accepts before id kind)
    (passes : ∀ i ∈ quiet, ¬ i.concerns id) (concerned : decisive.concerns id = true) :
    ∃ place, outcomes (before ++ .register id kind :: (quiet ++ decisive :: rest)) before.length =
      [(decisive.step place).reply? ⟨id, kind, before.length⟩] := by
  have fate := outcomes_of_accepts accepted (quiet ++ decisive :: rest)
  rw [steps_append, find?_steps _ _ _ passes, steps, List.find?_cons_of_pos (by
    rw [concerns_step]; exact concerned)] at fate
  exact ⟨_, fate⟩

/-! ### All of it -/

theorem length_outcomes_le_one (inputs : List Input) (place : Nat) :
    (outcomes inputs place).length ≤ 1 := by
  by_cases inside : place < inputs.length
  · obtain ⟨before, i, later, rfl, rfl⟩ : ∃ before i later,
        inputs = before ++ i :: later ∧ before.length = place :=
      ⟨inputs.take place, inputs[place], inputs.drop (place + 1), by simp,
        by simp [Nat.le_of_lt inside]⟩
    rw [outcomes_split]
    have spares : Spares before.length (steps (before.length + 1) later) :=
      spares_steps later (.inl (Nat.lt_succ_self _))
    have table : (after (before ++ [i])).pending.filter (·.ticket == before.length) =
        ((i.step before.length).admitted? (after before)).toList := by
      have others := filter_ticket_after before (Nat.le_refl _)
      rw [after_snoc, pending_step (orderly_after before), List.filter_append,
        List.filter_filter]
      have none : (after before).pending.filter (fun p =>
          p.ticket == before.length && !(i.step before.length).concerns p.id) = [] := by
        rw [← List.filter_filter, List.filter_comm, others]
        rfl
      rw [none, List.nil_append, List.filter_eq_self]
      intro p inside
      simpa using (admitted?_step (Option.mem_toList.mp inside)).2.1
    cases admitted : (i.step before.length).admitted? (after before) with
    | none =>
        rw [admitted] at table
        rw [outcomesOf_run_of_absent (orderly_after _) table spares]
        exact Nat.zero_le 1
    | some p =>
        rw [admitted] at table
        obtain ⟨-, named, -⟩ := admitted?_step admitted
        rw [← named] at table spares ⊢
        rw [outcomesOf_run_of_waiting (orderly_after _) table spares]
        exact Option.length_toList_le
  · rw [outcomes_of_place_ge (Nat.le_of_not_lt inside)]
    exact Nat.zero_le 1

/-- Every registered request is answered at most once, and the first input that concerns it decides
how. -/
theorem answersOnce (inputs : List Input) : AnswersOnce inputs where
  accepts := accepts_iff inputs
  refuses := fun _ _ => refuses_of_not_accepts
  waits := by
    rintro before id kind later rfl accepted quiet
    have nothing := find?_steps id (before.length + 1) later quiet []
    rw [List.append_nil] at nothing
    refine ⟨mem_pending_iff.mpr ⟨before, later, rfl, rfl, accepted, quiet⟩, ?_⟩
    rw [outcomes_of_accepts accepted later, nothing]
    rfl
  answered := by
    rintro before id kind quiet v rest rfl accepted passes answers
    have concerned : (Input.frame v).concerns id = true := by simp [Input.concerns, answers]
    obtain ⟨place, fate⟩ := outcomes_of_decisive rest accepted passes concerned
    obtain ⟨r, response, named⟩ := Option.bind_eq_some_iff.mp answers
    have names := replyTo_names (p := ⟨id, kind, before.length⟩) named
    refine ⟨replyTo ⟨id, kind, before.length⟩ r, ?_, names.1, names.2⟩
    rw [fate, Input.step, Step.reply?, response]
    rfl
  released := by
    rintro before id kind quiet decisive rest rfl accepted passes released
    have concerned : decisive.concerns id = true := by
      rcases released with rfl | rfl <;> simp [Input.concerns]
    obtain ⟨place, fate⟩ := outcomes_of_decisive rest accepted passes concerned
    rw [fate]
    rcases released with rfl | rfl <;> rfl
  once := length_outcomes_le_one inputs
  reserved := (orderly_after inputs).nonzero
  ending := by
    intro ended
    refine ⟨(orderly_after inputs).emptied ((isClosed_after inputs).mpr ended), ?_⟩
    intro id kind
    refine refuses_of_not_accepts fun accepted => ?_
    exact ((accepts_iff inputs id kind).mp accepted).2.1 ended

end Exchange

end EditorBridge.Channel
