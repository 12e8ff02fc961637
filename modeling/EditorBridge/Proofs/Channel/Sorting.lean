import Mathlib.Data.List.Forall2
import EditorBridge.Channel.Basic
import EditorBridge.Proofs.Channel.Registration
import EditorBridge.Proofs.Rpc.Shapes

/-!
# Answers, reports and requests of the server

A server sends three kinds of messages over one stream, and numbers its own requests as it likes.
They do not get into each other's way: a report becomes an event or nothing, a request of the
server's own is declined, and neither moves anybody who waits, whatever its id is (`sortsMessages`).
What an exchange does besides telling callers is said for one step (`besides_step`) and for a run
(`besides_run`); that callers do not notice it, again for a step (`step_of_isAside`) and for a run
(`run_purged`).
-/

namespace EditorBridge

/-! ### Declined requests -/

namespace Rpc

/-- Whether a response says to a request that its method is not known. -/
structure Call.IsDeclinedBy (call : Call) (r : Response) : Prop where
  answers : r.id = some call.id
  empty : r.result = none
  unknown : r.failure.map (·.code) = some (-32601)

theorem Call.isDeclinedBy_decline (call : Call) : call.IsDeclinedBy (.decline call) :=
  ⟨rfl, rfl, rfl⟩

/-- The server reads what declines its request as a response. -/
theorem Incoming.classify?_decline (call : Call) :
    classify? (Response.decline call).toJson = some (.response (.decline call)) := by
  have plain : (Response.decline call).IsPlain := by
    refine ⟨⟨call.id, rfl⟩, nofun, ?_⟩
    rintro f ⟨⟩
    exact nofun
  exact classify?_eq_some_iff.mpr (Response.isWritten_toJson plain)

end Rpc

namespace Channel

/-! ### Kinds of messages -/

/-- The report that a message of the server is. -/
def notification? (v : Json) : Option Rpc.Notification :=
  match Rpc.Incoming.classify? v with
  | some (.notification n) => some n
  | _ => none

/-- The request of the server's own that a message is. -/
def call? (v : Json) : Option Rpc.Call :=
  match Rpc.Incoming.classify? v with
  | some (.call c) => some c
  | _ => none

theorem classify?_of_response? {v : Json} {r : Rpc.Response} (answer : response? v = some r) :
    Rpc.Incoming.classify? v = some (.response r) := by
  rw [response?] at answer
  split at answer
  · next form => rw [form, Option.some.inj answer]
  · cases answer

theorem classify?_of_call? {v : Json} {c : Rpc.Call} (asks : call? v = some c) :
    Rpc.Incoming.classify? v = some (.call c) := by
  rw [call?] at asks
  split at asks
  · next form => rw [form, Option.some.inj asks]
  · cases asks

/-- Whether a message of the server is no answer: it has a method, or its shape is unknown. -/
def isAside (v : Json) : Bool :=
  Rpc.Incoming.hasMethod v || (Rpc.Incoming.classify? v).isNone

theorem response?_eq_none_iff {v : Json} : response? v = none ↔ isAside v = true := by
  rw [response?, isAside, Rpc.Incoming.classify?]
  cases Rpc.Incoming.hasMethod v with
  | true =>
      cases Rpc.Incoming.hasId v with
      | true => cases Rpc.Call.ofJson? v <;> simp
      | false => cases Rpc.Notification.ofJson? v <;> simp
  | false =>
      cases Rpc.Incoming.hasId v with
      | true => cases Rpc.Response.ofJson? v <;> simp
      | false => simp

/-- Whether the step is a message that is no answer. -/
def Step.isAside : Step → Bool
  | arrival (.frame v) => Channel.isAside v
  | _ => false

/-- The messages that are taken: those before the end of the stream. -/
def handled : List Step → List Json
  | [] => []
  | .arrival .ended :: _ => []
  | .arrival (.frame v) :: rest => v :: handled rest
  | .order _ :: rest => handled rest

theorem handled_cons (s : Step) (rest : List Step) :
    handled (s :: rest) = handled [s] ++ if s.isEnd then [] else handled rest := by
  rcases s with o | (v | _)
  · rfl
  · rfl
  · rfl

namespace Effect

/-- The event that is dispatched. -/
def event? : Effect → Option Event
  | raised e => some e
  | _ => none

/-- The message that is written. -/
def message? : Effect → Option Rpc.Response
  | written r => some r
  | _ => none

/-- Whether the effect is for somebody who has given an order. -/
def isForCaller : Effect → Bool
  | raised _ | written _ => false
  | _ => true

end Effect

/-- What comes of effects besides what callers are told. -/
def besides (effects : List Effect) : List Effect :=
  effects.filter (!·.isForCaller)

/-- What callers are told. -/
def told (effects : List Effect) : List Effect :=
  effects.filter Effect.isForCaller

theorem besides_append (first second : List Effect) :
    besides (first ++ second) = besides first ++ besides second :=
  List.filter_append ..

theorem told_append (first second : List Effect) :
    told (first ++ second) = told first ++ told second :=
  List.filter_append ..

theorem filterMap_besides {α : Type} {f : Effect → Option α}
    (silent : ∀ e, e.isForCaller = true → f e = none) (effects : List Effect) :
    (besides effects).filterMap f = effects.filterMap f := by
  rw [besides, List.filterMap_filter]
  congr 1
  funext e
  cases forCaller : e.isForCaller with
  | true => simp [silent e forCaller]
  | false => simp

/-- What comes of a message besides what callers are told. -/
def asides (v : Json) : List Effect :=
  (((notification? v).bind Event.ofNotification?).map Effect.raised).toList ++
    ((call? v).map fun c => Effect.written (.decline c)).toList

theorem filterMap_event?_asides (v : Json) :
    (asides v).filterMap Effect.event? =
      ((notification? v).bind Event.ofNotification?).toList := by
  rw [asides]
  cases (notification? v).bind Event.ofNotification? <;> cases call? v <;> rfl

theorem filterMap_message?_asides (v : Json) :
    (asides v).filterMap Effect.message? = ((call? v).map Rpc.Response.decline).toList := by
  rw [asides]
  cases (notification? v).bind Event.ofNotification? <;> cases call? v <;> rfl

theorem told_asides (v : Json) : told (asides v) = [] := by
  rw [asides]
  cases (notification? v).bind Event.ofNotification? <;> cases call? v <;> rfl

theorem besides_asides (v : Json) : besides (asides v) = asides v := by
  rw [asides]
  cases (notification? v).bind Event.ofNotification? <;> cases call? v <;> rfl

theorem asides_of_response {v : Json} {r : Rpc.Response} (answer : response? v = some r) :
    asides v = [] := by
  rw [asides, notification?, call?, classify?_of_response? answer]
  rfl

namespace Exchange

/-! ### One step -/

theorem besides_order (x : Exchange) (o : Order) : besides (x.order o).2 = [] := by
  cases o with
  | register id kind ticket =>
      rw [order]
      cases x.refusal? id <;> rfl
  | abandon id =>
      rw [order]
      cases x.find? id <;> rfl
  | awaitHandshake ticket =>
      rw [order]
      split
      · rfl
      · cases x.handshake <;> rfl

theorem besides_resolve (x : Exchange) (r : Rpc.Response) : besides (x.resolve r).2 = [] := by
  rw [resolve]
  cases r.id.bind Rpc.RequestId.number? with
  | none => rfl
  | some id =>
      simp only
      split
      · cases x.handshake with
        | none => rfl
        | some ticket =>
            simp only [Option.map_some, Option.toList_some, greeting]
            split <;> rfl
      · cases x.find? id <;> rfl

theorem besides_close (x : Exchange) : besides x.close.2 = [] := by
  rw [close, besides_append, List.append_eq_nil_iff]
  constructor
  · rw [besides, List.filter_eq_nil_iff]
    intro e waits
    obtain ⟨p, -, rfl⟩ := List.mem_map.mp waits
    simp [Effect.isForCaller]
  · cases x.handshake <;> rfl

/-- A message that is no answer leaves the exchange as it is. -/
theorem receive_of_isAside {v : Json} (aside : isAside v = true) (x : Exchange) :
    x.receive (.frame v) = (x, if x.isClosed then [] else asides v) := by
  have other := response?_eq_none_iff.mpr aside
  rw [response?] at other
  cases closed : x.isClosed with
  | true => simp [receive, closed]
  | false =>
      simp only [receive, closed, Bool.false_eq_true, if_false, asides, notification?, call?]
      cases shape : Rpc.Incoming.classify? v with
      | none => rfl
      | some message =>
          cases message with
          | response r => simp [shape] at other
          | notification n => simp [take]
          | call c => rfl

theorem besides_step (x : Exchange) (s : Step) :
    besides (x.step s).2 = if x.isClosed then [] else (handled [s]).flatMap asides := by
  rcases s with o | (v | _)
  · simp [step, besides_order, handled]
  · simp only [step, handled, List.flatMap_cons, List.flatMap_nil, List.append_nil]
    cases answer : response? v with
    | none =>
        rw [receive_of_isAside (response?_eq_none_iff.mp answer)]
        cases x.isClosed with
        | true => rfl
        | false => exact besides_asides v
    | some r =>
        cases closed : x.isClosed with
        | true => simp [receive, closed, besides]
        | false =>
            simp [receive_answer closed, answer, besides_resolve, asides_of_response answer]
  · simp only [step, receive, handled, List.flatMap_nil, ite_self]
    split
    · rfl
    · exact besides_close x

theorem step_of_isAside {s : Step} (aside : s.isAside = true) (x : Exchange) :
    (x.step s).1 = x ∧ told (x.step s).2 = [] := by
  rcases s with o | (v | _)
  · cases aside
  · rw [step, receive_of_isAside aside]
    refine ⟨rfl, ?_⟩
    cases x.isClosed with
    | true => rfl
    | false => exact told_asides v
  · cases aside

/-! ### A run -/

/-- What comes of a run besides what callers are told is what comes of the messages taken. -/
theorem besides_run (x : Exchange) (items : List Step) :
    besides (x.run step items).2 = if x.isClosed then [] else (handled items).flatMap asides := by
  induction items generalizing x with
  | nil => simp [run, handled, besides]
  | cons s items ih =>
      rw [run_cons, besides_append, besides_step, ih, isClosed_step, handled_cons s items]
      cases x.isClosed with
      | true => rfl
      | false => cases s.isEnd <;> simp

/-- What can be seen of a run but not by callers is what can be seen of the messages taken. -/
theorem filterMap_run {α : Type} {f : Effect → Option α} {g : Json → Option α}
    (silent : ∀ e, e.isForCaller = true → f e = none)
    (seen : ∀ v, (asides v).filterMap f = (g v).toList) (items : List Step) :
    (start.run step items).2.filterMap f = (handled items).filterMap g := by
  have goesOn : start.isClosed = false := rfl
  rw [← filterMap_besides silent, besides_run, goesOn, if_neg Bool.false_ne_true,
    List.filterMap_flatMap, List.filterMap_eq_flatMap_toList]
  simp only [seen]

/-- Callers do not notice messages that are no answers. -/
theorem run_purged (x : Exchange) (items : List Step) :
    (x.run step (items.filter (!·.isAside))).1 = (x.run step items).1 ∧
      told (x.run step (items.filter (!·.isAside))).2 = told (x.run step items).2 := by
  induction items generalizing x with
  | nil => exact ⟨rfl, rfl⟩
  | cons s items ih =>
      rw [run_cons, told_append]
      cases aside : s.isAside with
      | true =>
          obtain ⟨unmoved, silent⟩ := step_of_isAside aside x
          rw [List.filter_cons_of_neg (by simp [aside]), unmoved, silent, List.nil_append]
          exact ih x
      | false =>
          obtain ⟨same, heard⟩ := ih (x.step s).1
          rw [List.filter_cons_of_pos (by simp [aside]), run_cons, told_append, heard]
          exact ⟨same, rfl⟩

theorem isClosed_run (x : Exchange) (items : List Step) :
    (x.run step items).1.isClosed = (x.isClosed || items.any Step.isEnd) := by
  induction items generalizing x with
  | nil => simp [run]
  | cons s items ih => rw [run_cons, ih, isClosed_step, List.any_cons, Bool.or_assoc]

end Exchange

/-! ### Channels -/

theorem arrive_call {c : Channel} {v : Json} {call : Rpc.Call}
    (goesOn : c.exchange.isClosed = false) (asks : call? v = some call) :
    c.arrive (.frame v) =
      ((c.write (Rpc.Response.decline call).toJson).1, [.written (.decline call)]) := by
  simp [arrive, Exchange.receive, goesOn, classify?_of_call? asks, Exchange.take, carryOut]

theorem sent_write {c : Channel} (takes : c.outlet.refusal? = none) (message : Json) :
    (c.write message).1.outlet.sent = c.outlet.sent ++ [message] := by
  simp [write, Outlet.write, takes]

/-! ### All of it -/

namespace Exchange

/-- What holds of an exchange that takes orders and arrivals. The events are those that the reports
become, in the order of the stream (`raised`). Every request of the server's own is declined once,
and nothing else is written (`declined`). The channel of the exchange sends one message for the next
such request, which the server reads as the response that declines it (`sent`). A message with a
method or of unknown shape moves nobody, whoever waits (`unmoved`). Without it everything would come
as it does, whatever follows it (`unheard`). -/
structure SortsMessages (items : List Step) : Prop where
  raised : (start.run step items).2.filterMap Effect.event? =
    ((handled items).filterMap notification?).filterMap Event.ofNotification?
  declined : List.Forall₂ Rpc.Call.IsDeclinedBy ((handled items).filterMap call?)
    ((start.run step items).2.filterMap Effect.message?)
  sent : ∀ (c : Channel) v call, c.exchange = (start.run step items).1 →
    .arrival .ended ∉ items → c.outlet.refusal? = none → call? v = some call →
      ∃ m, (c.arrive (.frame v)).1.outlet.sent = c.outlet.sent ++ [m] ∧
        Rpc.Incoming.classify? m = some (.response (.decline call))
  unmoved : ∀ v, Rpc.Incoming.hasMethod v = true ∨ Rpc.Incoming.classify? v = none →
    ((start.run step items).1.receive (.frame v)).1 = (start.run step items).1 ∧
      told ((start.run step items).1.receive (.frame v)).2 = []
  unheard : ∀ before v later, items = before ++ .arrival (.frame v) :: later →
    Rpc.Incoming.hasMethod v = true ∨ Rpc.Incoming.classify? v = none →
      (start.run step (before ++ later)).1 = (start.run step items).1 ∧
        told (start.run step (before ++ later)).2 = told (start.run step items).2

theorem isAside_iff {v : Json} : isAside v = true ↔
    Rpc.Incoming.hasMethod v = true ∨ Rpc.Incoming.classify? v = none := by
  rw [isAside, Bool.or_eq_true, Option.isNone_iff_eq_none]

/-- What a server sends is sorted, and only answers move callers. -/
theorem sortsMessages (items : List Step) : SortsMessages items where
  raised := by
    have silent : ∀ e : Effect, e.isForCaller = true → e.event? = none := by
      intro e forCaller
      cases e with
      | raised _ => cases forCaller
      | _ => rfl
    rw [filterMap_run silent filterMap_event?_asides, List.filterMap_filterMap]
  declined := by
    have silent : ∀ e : Effect, e.isForCaller = true → e.message? = none := by
      intro e forCaller
      cases e with
      | written _ => cases forCaller
      | _ => rfl
    rw [filterMap_run silent filterMap_message?_asides, ← List.map_filterMap,
      List.forall₂_map_right_iff, List.forall₂_same]
    intro call _
    exact call.isDeclinedBy_decline
  sent := by
    intro c v call same goesOn takes asks
    have opened : c.exchange.isClosed = false := by
      rw [same, isClosed_run, Bool.or_eq_false_iff, List.any_eq_false]
      refine ⟨rfl, ?_⟩
      intro s inside
      rcases s with o | (w | _)
      · simp [Step.isEnd]
      · simp [Step.isEnd]
      · exact absurd inside goesOn
    refine ⟨_, ?_, Rpc.Incoming.classify?_decline call⟩
    rw [arrive_call opened asks, sent_write takes]
  unmoved := by
    intro v aside
    exact step_of_isAside (s := .arrival (.frame v)) (isAside_iff.mpr aside) _
  unheard := by
    rintro before v later rfl aside
    have same : (before ++ .arrival (.frame v) :: later).filter (!·.isAside) =
        (before ++ later).filter (!·.isAside) := by
      have dropped : Step.isAside (.arrival (.frame v)) = true := isAside_iff.mpr aside
      rw [List.filter_append, List.filter_cons_of_neg (by simp [dropped]), List.filter_append]
    obtain ⟨withIt, heardWith⟩ := run_purged start (before ++ .arrival (.frame v) :: later)
    obtain ⟨without, heardWithout⟩ := run_purged start (before ++ later)
    rw [← withIt, ← heardWith, ← without, ← heardWithout, same]
    exact ⟨rfl, rfl⟩

/-- A request of the server's own with the id of a request that waits leaves it where it is. -/
example : (start.run step [.order (.register 5 .quickInfo 0), .arrival (.frame (.object
    [("jsonrpc", .string "2.0"), ("id", .int 5), ("method", .string "m")]))]).1.pending =
      [⟨5, .quickInfo, 0⟩] := by
  decide

end Exchange

end Channel

end EditorBridge
