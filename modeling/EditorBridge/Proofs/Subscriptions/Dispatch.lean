import EditorBridge.Proofs.Subscriptions.History
import Mathlib.Data.List.Induction

/-!
# Dispatches

A dispatch calls everybody who listens to its event when it begins, once and in their order,
whatever the handlers do meanwhile. `During` is what holds while it runs; every call keeps it
(`during_call`). So a whole course goes on from where it started (`continues_course`), and every
account that can come about, also in the midst of dispatches, is sound (`sound_of_reached`).
-/

namespace EditorBridge.Subscriptions.Account

variable {η : Type} {a b c : Account η} {e : Event} {made : List (η × Event)}

/-- An account while a dispatch runs that has made some calls. It began where the first account
left off. -/
structure During (a : Account η) (e : Event) (b : Account η) (made : List (η × Event)) : Prop where
  more : ∃ more, b.history = a.history ++ .began e :: more ∧ Since a.history.length more ∧
    calls a.history.length more = made ∧ ∀ count, .ended a.history.length count ∉ more
  mirrors : b.Mirrors
  settled : SettledFrom (a.history.length + 1) b.history

theorem during_begin (mirrors : a.Mirrors) {state : Subscriptions η}
    (table : state.byEvent = a.state.byEvent) (number : state.nextId = a.state.nextId) :
    During a e ⟨state, a.history ++ [.began e]⟩ [] := by
  refine ⟨⟨[], rfl, nofun, rfl, nofun⟩, ?_, ?_⟩
  · exact mirrors_same mirrors state table number rfl (fun _ => rfl) nofun
  · intro n deed beyond found
    have here := (eq_of_getElem?_concat (Nat.le_of_lt beyond) found).1
    exact absurd here (Nat.ne_of_gt beyond)

theorem During.began (during : During a e b made) :
    b.history[a.history.length]? = some (.began e) := by
  obtain ⟨more, form, -⟩ := during.more
  rw [form, List.getElem?_append_right (Nat.le_refl _), Nat.sub_self]
  rfl

theorem During.longer (during : During a e b made) : a.history.length < b.history.length :=
  (List.getElem?_eq_some_iff.mp during.began).1

theorem During.running (during : During a e b made) (mirrors : a.Mirrors) (count : Nat) :
    .ended a.history.length count ∉ b.history := by
  obtain ⟨more, form, -, -, running⟩ := during.more
  rw [form]
  intro inside
  rcases List.mem_append.mp inside with old | new
  · exact Nat.lt_irrefl _ (mirrors.past _ old _ rfl)
  · rcases List.mem_cons.mp new with began | new
    · cases began
    · exact running count new

theorem During.sound (during : During a e b made) (sound : a.Sound) : b.Sound := by
  refine ⟨during.mirrors, ?_⟩
  intro n deed found
  obtain ⟨more, form, -⟩ := during.more
  rcases Nat.lt_trichotomy n a.history.length with old | here | new
  · rw [form, List.getElem?_append_left old] at found
    rw [form]
    exact right_append found (sound.right n deed found) _
  · subst here
    rw [during.began] at found
    obtain rfl := Option.some.inj found
    exact True.intro
  · exact (during.settled n deed new found).1

/-! ### Calls -/

/-- The call of a handler is noted while the dispatch runs. -/
theorem during_note (during : During a e b made) (mirrors : a.Mirrors) (handler : η) :
    During a e (b.note (.called a.history.length handler e)) (made ++ [(handler, e)]) := by
  obtain ⟨more, form, since, called, running⟩ := during.more
  refine ⟨⟨more ++ [.called a.history.length handler e], ?_, ?_, ?_, ?_⟩, ?_, ?_⟩
  · rw [note, form, List.append_assoc, List.cons_append]
  · refine since.append ?_
    intro deed inside dispatch belongs
    rw [List.mem_singleton.mp inside] at belongs
    exact Nat.le_of_eq (Option.some.inj belongs)
  · rw [calls_append, called]
    simp [calls, Deed.callOf?]
  · intro count inside
    rcases List.mem_append.mp inside with old | new
    · exact running count old
    · cases List.mem_singleton.mp new
  · refine mirrors_same during.mirrors b.state rfl rfl rfl (fun _ => rfl) ?_
    intro dispatch belongs
    obtain rfl := Option.some.inj belongs
    exact during.longer
  · -- The dispatch has begun, and its end is not in the history yet.
    refine settledFrom_append during.settled (settledFrom_concat ⟨⟨?_, ?_⟩, ?_⟩)
    · rw [List.getElem?_append_left during.longer]
      exact during.began
    · rw [List.take_left]
      exact during.running mirrors
    · intro other began
      cases began

/-- What a handler does leaves its dispatch as it was. -/
theorem during_continues (during : During a e b made) (goesOn : Continues b c) :
    During a e c made := by
  obtain ⟨more, form, since, called, running⟩ := during.more
  obtain ⟨late, formLate, sinceLate⟩ := goesOn.more
  have others := calls_of_since sinceLate during.longer
  have settled := goesOn.settled
  rw [formLate] at settled
  refine ⟨⟨more ++ late, ?_, ?_, ?_, ?_⟩, goesOn.mirrors, ?_⟩
  · rw [formLate, form, List.append_assoc, List.cons_append]
  · exact since.append (sinceLate.mono (Nat.le_of_lt during.longer))
  · rw [calls_append, called, others, List.append_nil]
  · intro count inside
    rcases List.mem_append.mp inside with old | new
    · exact running count old
    · exact Nat.lt_irrefl _ (Nat.lt_of_lt_of_le during.longer (sinceLate _ new _ rfl))
  · rw [formLate]
    exact settledFrom_append during.settled settled

variable {run : η → Event → Account η → Account η}

/-- Whether a handler goes on from what it finds. -/
def Proper (run : η → Event → Account η → Account η) : Prop :=
  ∀ (handler : η) (e : Event) (c : Account η), c.Mirrors → Continues c (run handler e c)

theorem during_midway (mirrors : a.Mirrors) (proper : Proper run) (called : List η) :
    During a e (a.midway run e called) (called.map fun handler => (handler, e)) := by
  induction called using List.reverseRecOn with
  | nil => exact during_begin mirrors rfl rfl
  | append_singleton called handler ih =>
      have noted := during_note ih mirrors handler
      rw [midway, List.foldl_append, List.map_append]
      exact during_continues noted (proper handler e _ noted.mirrors)

/-- A dispatch has made no calls before it began. -/
theorem calls_past (mirrors : a.Mirrors) : calls a.history.length a.history = [] := by
  rw [calls, List.filterMap_eq_nil_iff]
  intro deed inside
  cases deed with
  | called other handler e =>
      have earlier := mirrors.past _ inside other rfl
      exact if_neg (Nat.ne_of_lt earlier)
  | _ => rfl

/-- At its end a dispatch has called everybody who listened when it began. -/
theorem continues_end (during : During a e b made) (mirrors : a.Mirrors)
    (all : made = (audience e.name a.history).map fun l => (l.handler, e)) :
    Continues a (b.note (.ended a.history.length made.length)) := by
  obtain ⟨more, form, since, called, running⟩ := during.more
  have base (deed : Deed η) : (b.history ++ [deed]).take a.history.length = a.history := by
    rw [form, List.append_assoc, List.take_left]
  have began (deed : Deed η) : (b.history ++ [deed])[a.history.length]? = some (.began e) := by
    rw [List.getElem?_append_left during.longer]
    exact during.began
  refine ⟨⟨.began e :: more ++ [.ended a.history.length made.length], ?_, ?_⟩, ?_, ?_⟩
  · rw [note, form, List.append_assoc]
  · intro deed inside dispatch belongs
    rcases List.mem_append.mp inside with old | new
    · rcases List.mem_cons.mp old with rfl | old
      · cases belongs
      · exact since deed old dispatch belongs
    · rw [List.mem_singleton.mp new] at belongs
      exact Nat.le_of_eq (Option.some.inj belongs)
  · refine mirrors_same during.mirrors b.state rfl rfl rfl (fun _ => rfl) ?_
    intro dispatch belongs
    obtain rfl := Option.some.inj belongs
    exact during.longer
  · have since : SettledFrom (a.history.length + 1)
        (b.history ++ [.ended a.history.length made.length]) := by
      refine settledFrom_append during.settled (settledFrom_concat ⟨⟨e, began _, ?_, ?_⟩, ?_⟩)
      · rw [List.take_left, base, ← all, ← called, form, calls_append, calls_past mirrors,
          List.nil_append]
        rfl
      · rw [base, all, List.length_map]
      · intro other again
        cases again
    -- What was still open is the beginning alone.
    intro n deed beyond found
    rcases Nat.eq_or_lt_of_le beyond with first | later
    · subst first
      obtain rfl := Option.some.inj ((began _).symm.trans found)
      exact ⟨True.intro, fun _ _ => ⟨b.history.length, made.length, List.getElem?_concat_length⟩⟩
    · exact since n deed later found

/-! ### Whole dispatches -/

/-- A dispatch that finds handlers calls them all and ends. -/
theorem dispatch_eq {called : List η} (some : a.state.handlers e.name = called)
    (heard : called ≠ []) :
    a.dispatch run e = (a.midway run e called).note (.ended a.history.length called.length) := by
  -- The handlers work on the subscriptions and the history side by side.
  have through (called : List η) (b : Account η) :
      called.foldl (fun (state : Subscriptions η × List (Deed η)) handler =>
          ((run handler e ⟨state.1, state.2 ++ [.called a.history.length handler e]⟩).state,
            (run handler e ⟨state.1, state.2 ++ [.called a.history.length handler e]⟩).history))
        (b.state, b.history) =
      ((called.foldl (fun b handler =>
          run handler e (b.note (.called a.history.length handler e))) b).state,
        (called.foldl (fun b handler =>
          run handler e (b.note (.called a.history.length handler e))) b).history) := by
    induction called generalizing b with
    | nil => rfl
    | cons handler called ih => exact ih _
  have whole := through called (a.note (.began e))
  cases called with
  | nil => exact absurd rfl heard
  | cons handler others =>
      rw [dispatch, Subscriptions.dispatch]
      dsimp only [note] at whole ⊢
      rw [some]
      dsimp only
      rw [whole]
      rfl

theorem continues_dispatch (mirrors : a.Mirrors) (proper : Proper run) :
    Continues a (a.dispatch run e) := by
  have all := handlers_eq mirrors e.name
  by_cases heard : a.state.handlers e.name = []
  · have begun : During a e ⟨a.state.store e, a.history ++ [.began e]⟩ [] :=
      during_begin mirrors rfl rfl
    rw [heard, eq_comm, List.map_eq_nil_iff] at all
    have ended := continues_end begun mirrors (by rw [all]; rfl)
    rw [dispatch, Subscriptions.dispatch]
    dsimp only
    rw [heard]
    exact ended
  · have during := during_midway (e := e) mirrors proper (a.state.handlers e.name)
    have ended := continues_end during mirrors (by
      rw [all, List.map_map]
      rfl)
    rw [List.length_map] at ended
    rw [dispatch_eq rfl heard]
    exact ended

theorem continues_course (course : Course a b) (mirrors : a.Mirrors) : Continues a b := by
  -- By induction on the course; the handlers of a dispatch have courses of their own.
  induction course with
  | idle a => exact .refl mirrors
  | add so event handler ih =>
      have before := ih mirrors
      exact before.trans (continues_add before.mirrors event handler)
  | remove so id ih =>
      have before := ih mirrors
      exact before.trans (continues_remove before.mirrors id)
  | next so ih =>
      have before := ih mirrors
      exact before.trans (continues_next before.mirrors)
  | dispatch so e run proper ih inner =>
      have before := ih mirrors
      exact before.trans (continues_dispatch before.mirrors inner)

theorem sound_of_reached (reached : Reached a) : a.Sound := by
  induction reached with
  | start => exact ⟨mirrors_start, nofun⟩
  | course so course ih => exact (continues_course course ih.mirrors).sound ih
  | calling so e run proper inOrder ih =>
      have keeps : Proper run := fun handler e c => continues_course (proper handler e c)
      exact (during_note (during_midway ih.mirrors keeps _) ih.mirrors _).sound ih

end EditorBridge.Subscriptions.Account
