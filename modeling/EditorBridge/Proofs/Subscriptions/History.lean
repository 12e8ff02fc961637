import EditorBridge.Proofs.Subscriptions.Table
import Mathlib.Data.List.Basic

/-!
# The history of subscriptions

Subscriptions with an account of all that has been done with them. What may be done is a `Course`:
handlers subscribe and are unsubscribed, events are dispatched and fetched, and a handler that is
called may do all of this too, so that a dispatch may run inside another one. `Reached` are the
accounts on the way, also those inside of handlers. In all of them the table says who has subscribed
and has not been unsubscribed, in the order of the history (`Mirrors`), and every answer in the
history is right (`Right`).
-/

namespace EditorBridge.Subscriptions

variable {η : Type}

/-- Something that was done with subscriptions. A handler subscribed to an event and got a number; a
number was unsubscribed, and it was said whether it was there; the oldest event of the backlog was
fetched; a dispatch began, called a handler, or ended and said how many handlers it had called. A
dispatch is known by its place in the history. -/
inductive Deed (η : Type) where
  | added (id : UInt64) (event : String) (handler : η)
  | removed (id : UInt64) (wasThere : Bool)
  | fetched (e : Option Event)
  | began (e : Event)
  | called (dispatch : Nat) (handler : η) (e : Event)
  | ended (dispatch : Nat) (count : Nat)

/-- A handler that listens to an event under a number. -/
structure Listener (η : Type) where
  id : UInt64
  event : String
  handler : η

namespace Deed

/-- The number that was given out. -/
def id? : Deed η → Option UInt64
  | added id _ _ => some id
  | _ => none

/-- The dispatch that called a handler or ended. -/
def dispatch? : Deed η → Option Nat
  | called dispatch _ _ => some dispatch
  | ended dispatch _ => some dispatch
  | _ => none

/-- The call that a dispatch made. -/
def callOf? (dispatch : Nat) : Deed η → Option (η × Event)
  | called other handler e => if other = dispatch then some (handler, e) else none
  | _ => none

/-- Who listens after the deed. -/
def change (listeners : List (Listener η)) : Deed η → List (Listener η)
  | added id event handler => listeners ++ [⟨id, event, handler⟩]
  | removed id _ => listeners.filter (·.id != id)
  | _ => listeners

end Deed

/-- The numbers that were given out, the first one first. -/
def ids (history : List (Deed η)) : List UInt64 :=
  history.filterMap Deed.id?

/-- The calls that a dispatch made, the first one first. -/
def calls (dispatch : Nat) (history : List (Deed η)) : List (η × Event) :=
  history.filterMap (Deed.callOf? dispatch)

/-- Who listens after a history, the oldest listener first. -/
def listeners (history : List (Deed η)) : List (Listener η) :=
  history.foldl Deed.change []

/-- Who listens to an event after a history. -/
def audience (event : String) (history : List (Deed η)) : List (Listener η) :=
  (listeners history).filter (·.event == event)

/-- Subscriptions with the history of what has been done with them. -/
structure Account (η : Type) where
  state : Subscriptions η
  history : List (Deed η)

namespace Account

/-- Subscriptions with which nothing has been done. -/
def start : Account η :=
  ⟨.empty, []⟩

/-- Notes a deed. -/
def note (a : Account η) (deed : Deed η) : Account η :=
  { a with history := a.history ++ [deed] }

/-- Subscribes a handler. -/
def add (a : Account η) (event : String) (handler : η) : Account η :=
  let (state, id) := a.state.add event handler
  ⟨state, a.history ++ [.added id event handler]⟩

/-- Unsubscribes a number. -/
def remove (a : Account η) (id : UInt64) : Account η :=
  let (state, wasThere) := a.state.remove id
  ⟨state, a.history ++ [.removed id wasThere]⟩

/-- Fetches an event. -/
def next (a : Account η) : Account η :=
  let (state, e) := a.state.next
  ⟨state, a.history ++ [.fetched e]⟩

/-- Dispatches an event, where `run` is what handlers do. -/
def dispatch (run : η → Event → Account η → Account η) (e : Event) (a : Account η) : Account η :=
  let number := a.history.length
  let call (handler : η) (e : Event) (state : Subscriptions η × List (Deed η)) :
      Subscriptions η × List (Deed η) :=
    let a := run handler e ⟨state.1, state.2 ++ [.called number handler e]⟩
    (a.state, a.history)
  let ((state, history), count) := Subscriptions.dispatch call e (a.state, a.history ++ [.began e])
  ⟨state, history ++ [.ended number count]⟩

/-- An account in the midst of a dispatch, when some handlers have been called. -/
def midway (run : η → Event → Account η → Account η) (e : Event) (called : List η)
    (a : Account η) : Account η :=
  called.foldl (fun b handler => run handler e (b.note (.called a.history.length handler e)))
    (a.note (.began e))

/-- All that may be done with subscriptions one after the other. What a handler does when it is
called is such a course too. -/
inductive Course : Account η → Account η → Prop where
  | idle (a : Account η) : Course a a
  | add {a b : Account η} (so : Course a b) (event : String) (handler : η) :
      Course a (b.add event handler)
  | remove {a b : Account η} (so : Course a b) (id : UInt64) : Course a (b.remove id)
  | next {a b : Account η} (so : Course a b) : Course a b.next
  | dispatch {a b : Account η} (so : Course a b) (e : Event)
      (run : η → Event → Account η → Account η)
      (proper : ∀ handler e c, Course c (run handler e c)) : Course a (b.dispatch run e)

/-- An account that can come about. Besides what a course leads to there are the accounts that
handlers find when they are called. -/
inductive Reached : Account η → Prop where
  | start : Reached start
  | course {a b : Account η} (so : Reached a) (course : Course a b) : Reached b
  | calling {a : Account η} (so : Reached a) (e : Event) (run : η → Event → Account η → Account η)
      (proper : ∀ handler e c, Course c (run handler e c)) {earlier later : List η} {handler : η}
      (inOrder : a.state.handlers e.name = earlier ++ handler :: later) :
      Reached ((a.midway run e earlier).note (.called a.history.length handler e))

end Account

/-! ### What a history says -/

variable {history more : List (Deed η)}

theorem listeners_concat (history : List (Deed η)) (deed : Deed η) :
    listeners (history ++ [deed]) = deed.change (listeners history) := by
  rw [listeners, List.foldl_append]
  rfl

theorem calls_append (dispatch : Nat) (history more : List (Deed η)) :
    calls dispatch (history ++ more) = calls dispatch history ++ calls dispatch more :=
  List.filterMap_append

/-- Whether deeds belong to dispatches from a place on. -/
def Since (place : Nat) (deeds : List (Deed η)) : Prop :=
  ∀ deed ∈ deeds, ∀ dispatch, deed.dispatch? = some dispatch → place ≤ dispatch

theorem Since.append {place : Nat} {first second : List (Deed η)} (since : Since place first)
    (later : Since place second) : Since place (first ++ second) := by
  intro deed inside
  rcases List.mem_append.mp inside with old | new
  · exact since deed old
  · exact later deed new

theorem Since.mono {low high : Nat} {deeds : List (Deed η)} (since : Since high deeds)
    (le : low ≤ high) : Since low deeds :=
  fun deed inside dispatch belongs => Nat.le_trans le (since deed inside dispatch belongs)

theorem calls_of_since {place dispatch : Nat} {deeds : List (Deed η)} (since : Since place deeds)
    (earlier : dispatch < place) : calls dispatch deeds = [] := by
  rw [calls, List.filterMap_eq_nil_iff]
  intro deed inside
  cases deed with
  | called other handler e =>
      have later := since _ inside other rfl
      exact if_neg (by omega)
  | _ => rfl

/-- Whether the deed at a place of a history is as it should be. A call is made while its dispatch
is running; the end of a dispatch tells the number of its calls, and these went to everybody who
listened to the event when it began, in their order. -/
def Right (history : List (Deed η)) (place : Nat) : Deed η → Prop
  | .removed id wasThere => wasThere = (listeners (history.take place)).any (·.id == id)
  | .called dispatch _ e => history[dispatch]? = some (.began e) ∧
      ∀ count, .ended dispatch count ∉ history.take place
  | .ended dispatch count =>
      ∃ e, history[dispatch]? = some (.began e) ∧
        calls dispatch (history.take place) =
          (audience e.name (history.take dispatch)).map (fun l => (l.handler, e)) ∧
        count = (audience e.name (history.take dispatch)).length
  | _ => True

theorem right_append {place : Nat} {deed : Deed η} (found : history[place]? = some deed)
    (right : Right history place deed) (more : List (Deed η)) :
    Right (history ++ more) place deed := by
  have inside : place < history.length := (List.getElem?_eq_some_iff.mp found).1
  have before {n : Nat} (le : n ≤ history.length) : (history ++ more).take n = history.take n :=
    List.take_append_of_le_length le
  have kept {n : Nat} {d : Deed η} (there : history[n]? = some d) :
      (history ++ more)[n]? = some d := by
    rw [List.getElem?_append_left (List.getElem?_eq_some_iff.mp there).1, there]
  cases deed with
  | added id event handler => exact True.intro
  | removed id wasThere =>
      rw [Right, before (Nat.le_of_lt inside)]
      exact right
  | fetched e => exact True.intro
  | began e => exact True.intro
  | called dispatch handler e =>
      obtain ⟨began, running⟩ := right
      refine ⟨kept began, ?_⟩
      rw [before (Nat.le_of_lt inside)]
      exact running
  | ended dispatch count =>
      obtain ⟨e, began, called, number⟩ := right
      have earlier := (List.getElem?_eq_some_iff.mp began).1
      refine ⟨e, kept began, ?_⟩
      rw [before (Nat.le_of_lt inside), before (Nat.le_of_lt earlier)]
      exact ⟨called, number⟩

/-- Whether the deed at a place of a history is right and, if it began a dispatch, the dispatch has
ended. -/
def Settled (history : List (Deed η)) (place : Nat) (deed : Deed η) : Prop :=
  Right history place deed ∧
    ∀ e, deed = .began e → ∃ (n count : Nat), history[n]? = some (.ended place count)

/-- Whether every deed of a history from a place on is settled. -/
def SettledFrom (start : Nat) (history : List (Deed η)) : Prop :=
  ∀ n deed, start ≤ n → history[n]? = some deed → Settled history n deed

/-- A deed behind a history, if it is not one of the deeds before. -/
theorem eq_of_getElem?_concat {deed d : Deed η} {n : Nat} (beyond : history.length ≤ n)
    (found : (history ++ [deed])[n]? = some d) : n = history.length ∧ d = deed := by
  have inside := (List.getElem?_eq_some_iff.mp found).1
  rw [List.length_append, List.length_singleton] at inside
  obtain rfl : n = history.length := by omega
  rw [List.getElem?_concat_length] at found
  exact ⟨rfl, (Option.some.inj found).symm⟩

theorem settledFrom_concat {deed : Deed η}
    (settled : Settled (history ++ [deed]) history.length deed) :
    SettledFrom history.length (history ++ [deed]) := by
  intro n d beyond found
  obtain ⟨rfl, rfl⟩ := eq_of_getElem?_concat beyond found
  exact settled

/-- What is settled stays so, whatever is done afterwards. -/
theorem settledFrom_append {start : Nat} (old : SettledFrom start history)
    (new : SettledFrom history.length (history ++ more)) : SettledFrom start (history ++ more) := by
  intro n deed beyond found
  by_cases before : n < history.length
  · rw [List.getElem?_append_left before] at found
    obtain ⟨right, ends⟩ := old n deed beyond found
    refine ⟨right_append found right more, ?_⟩
    intro e began
    obtain ⟨k, count, ended⟩ := ends e began
    refine ⟨k, count, ?_⟩
    rw [List.getElem?_append_left (List.getElem?_eq_some_iff.mp ended).1, ended]
  · exact new n deed (Nat.le_of_not_lt before) found

/-! ### What the table says -/

/-- Whether subscriptions are as their history says: everybody who listens stands in the table, in
the order of the history, and numbers were given out one after the other. No dispatch has called
anyone before it began. -/
structure Account.Mirrors (a : Account η) : Prop where
  tidy : Tidy a.state.byEvent
  lists : ∀ event, lookup event a.state.byEvent =
    (audience event a.history).map fun l => ⟨l.id, l.handler⟩
  numbered : ids a.history = (List.range (ids a.history).length).map UInt64.ofNat
  nextId : a.state.nextId = UInt64.ofNat (ids a.history).length
  past : ∀ deed ∈ a.history, ∀ dispatch, deed.dispatch? = some dispatch →
    dispatch < a.history.length

namespace Account

variable {a b c : Account η}

theorem mirrors_start : (start : Account η).Mirrors where
  tidy := ⟨List.nodup_nil, by simp [start, empty]⟩
  lists := fun _ => rfl
  numbered := rfl
  nextId := rfl
  past := by simp [start]

theorem past_concat (mirrors : a.Mirrors) {deed : Deed η}
    (past : ∀ dispatch, deed.dispatch? = some dispatch → dispatch < a.history.length) :
    ∀ d ∈ a.history ++ [deed], ∀ dispatch, d.dispatch? = some dispatch →
      dispatch < (a.history ++ [deed]).length := by
  intro d inside dispatch belongs
  rw [List.length_append, List.length_singleton]
  rcases List.mem_append.mp inside with old | new
  · exact Nat.lt_succ_of_lt (mirrors.past d old dispatch belongs)
  · rw [List.mem_singleton] at new
    subst new
    exact Nat.lt_succ_of_lt (past dispatch belongs)

theorem mirrors_add (mirrors : a.Mirrors) (event : String) (handler : η) :
    (a.add event handler).Mirrors := by
  have given : ids (a.add event handler).history = ids a.history ++ [a.state.nextId] := by
    simp [ids, Account.add, Subscriptions.add, Deed.id?]
  refine ⟨tidy_enter mirrors.tidy event _, ?_, ?_, ?_, past_concat mirrors nofun⟩
  · intro name
    rw [audience, Account.add, listeners_concat, Deed.change, List.filter_append, List.map_append]
    change lookup name (enter event _ _) = _
    rw [lookup_enter, mirrors.lists, mirrors.lists]
    by_cases same : name = event
    · simp [same, audience, Subscriptions.add]
    · simp [same, Ne.symm same, audience]
  · rw [given, List.length_append, List.length_singleton, List.range_succ, List.map_append,
      ← mirrors.numbered, mirrors.nextId]
    rfl
  · rw [given, List.length_append, List.length_singleton, UInt64.ofNat_add, ← mirrors.nextId]
    rfl

theorem contains_eq (mirrors : a.Mirrors) (id : UInt64) :
    a.state.contains id = (listeners a.history).any (·.id == id) := by
  rw [Bool.eq_iff_iff, contains_iff mirrors.tidy, List.any_eq_true]
  constructor
  · rintro ⟨event, entry, inside, same⟩
    rw [mirrors.lists] at inside
    obtain ⟨l, listens, rfl⟩ := List.mem_map.mp inside
    exact ⟨l, (List.mem_filter.mp listens).1, beq_iff_eq.mpr same⟩
  · rintro ⟨l, listens, same⟩
    refine ⟨l.event, ⟨l.id, l.handler⟩, ?_, beq_iff_eq.mp same⟩
    rw [mirrors.lists]
    exact List.mem_map.mpr ⟨l, List.mem_filter.mpr ⟨listens, beq_iff_eq.mpr rfl⟩, rfl⟩

theorem mirrors_remove (mirrors : a.Mirrors) (id : UInt64) : (a.remove id).Mirrors := by
  have given : ids (a.remove id).history = ids a.history := by
    simp [ids, Account.remove, Deed.id?]
  refine ⟨tidy_strike mirrors.tidy id, ?_, ?_, ?_, past_concat mirrors nofun⟩
  · intro event
    rw [audience, Account.remove, listeners_concat, Deed.change, List.filter_filter]
    change lookup event (strike id _) = _
    rw [lookup_strike mirrors.tidy, mirrors.lists, audience, List.filter_map, List.filter_filter]
    congr 2
    funext l
    exact Bool.and_comm _ _
  · rw [given]
    exact mirrors.numbered
  · rw [given]
    exact mirrors.nextId

/-- What gives out no number and changes no table leaves everything as the history says. -/
theorem mirrors_same (mirrors : a.Mirrors) {deed : Deed η} (state : Subscriptions η)
    (table : state.byEvent = a.state.byEvent) (number : state.nextId = a.state.nextId)
    (unnumbered : deed.id? = none) (same : ∀ ls, deed.change ls = ls)
    (past : ∀ dispatch, deed.dispatch? = some dispatch → dispatch < a.history.length) :
    (⟨state, a.history ++ [deed]⟩ : Account η).Mirrors := by
  have given : ids (a.history ++ [deed]) = ids a.history := by
    simp [ids, unnumbered]
  refine ⟨table ▸ mirrors.tidy, ?_, ?_, ?_, past_concat mirrors past⟩
  · intro event
    rw [audience, listeners_concat, same, table]
    exact mirrors.lists event
  · rw [given]
    exact mirrors.numbered
  · rw [given, number]
    exact mirrors.nextId

theorem handlers_eq (mirrors : a.Mirrors) (event : String) :
    a.state.handlers event = (audience event a.history).map Listener.handler := by
  rw [handlers, mirrors.lists, List.map_map]
  rfl

/-! ### Going on -/

/-- Whether an account is as its history says, and the history is right. -/
structure Sound (a : Account η) : Prop where
  mirrors : a.Mirrors
  right : ∀ n deed, a.history[n]? = some deed → Right a.history n deed

/-- An account that goes on from another one: what has been done since is settled and belongs to
dispatches that have begun since. -/
structure Continues (a b : Account η) : Prop where
  more : ∃ more, b.history = a.history ++ more ∧ Since a.history.length more
  mirrors : b.Mirrors
  settled : SettledFrom a.history.length b.history

theorem Continues.refl (mirrors : a.Mirrors) : Continues a a := by
  refine ⟨⟨[], by simp, nofun⟩, mirrors, ?_⟩
  intro n deed beyond found
  exact absurd (List.getElem?_eq_some_iff.mp found).1 (Nat.not_lt.mpr beyond)

theorem Continues.trans (first : Continues a b) (second : Continues b c) : Continues a c := by
  obtain ⟨early, fromA, sinceA⟩ := first.more
  obtain ⟨late, fromB, sinceB⟩ := second.more
  have longer : a.history.length ≤ b.history.length := by
    rw [fromA, List.length_append]
    exact Nat.le_add_right _ _
  have settled := second.settled
  rw [fromB] at settled
  refine ⟨⟨early ++ late, ?_, sinceA.append (sinceB.mono longer)⟩, second.mirrors, ?_⟩
  · rw [fromB, fromA, List.append_assoc]
  · rw [fromB]
    exact settledFrom_append first.settled settled

theorem Continues.sound (goesOn : Continues a b) (sound : a.Sound) : b.Sound := by
  refine ⟨goesOn.mirrors, ?_⟩
  intro n deed found
  by_cases old : n < a.history.length
  · obtain ⟨more, form, -⟩ := goesOn.more
    rw [form, List.getElem?_append_left old] at found
    rw [form]
    exact right_append found (sound.right n deed found) more
  · exact (goesOn.settled n deed (Nat.le_of_not_lt old) found).1

/-- A deed that belongs to no dispatch, begins none and is right goes on from what was before. -/
theorem continues_concat {state : Subscriptions η} {deed : Deed η}
    (mirrors : (⟨state, a.history ++ [deed]⟩ : Account η).Mirrors) (free : deed.dispatch? = none)
    (other : ∀ e, deed ≠ .began e) (right : Right (a.history ++ [deed]) a.history.length deed) :
    Continues a ⟨state, a.history ++ [deed]⟩ := by
  refine ⟨⟨[deed], rfl, ?_⟩, mirrors, settledFrom_concat ⟨right, ?_⟩⟩
  · intro d inside dispatch belongs
    rw [List.mem_singleton.mp inside, free] at belongs
    cases belongs
  · intro e began
    exact absurd began (other e)

theorem continues_add (mirrors : a.Mirrors) (event : String) (handler : η) :
    Continues a (a.add event handler) :=
  continues_concat (mirrors_add mirrors event handler) rfl nofun True.intro

theorem continues_remove (mirrors : a.Mirrors) (id : UInt64) : Continues a (a.remove id) := by
  refine continues_concat (mirrors_remove mirrors id) rfl nofun ?_
  rw [Right, List.take_left]
  exact contains_eq mirrors id

theorem continues_next (mirrors : a.Mirrors) : Continues a a.next :=
  continues_concat (mirrors_same mirrors _ rfl rfl rfl (fun _ => rfl) nofun) rfl nofun True.intro

end Account

end EditorBridge.Subscriptions
