import EditorBridge.Numeral
import EditorBridge.Proofs.Subscriptions.Dispatch
import EditorBridge.Proofs.Subscriptions.Waiting

/-!
# What comes out of the backlog

The backlog holds what waits unheard, and a fetch brings the first of it, in every account that can
come about (`stocked_of_reached`). A course keeps it so deed by deed, and handlers have courses of
their own. So events come out in the order of their dispatches, each at most once, none that
somebody heard, and only what 256 others crowd out is lost (`delivers`).
-/

namespace EditorBridge.Subscriptions.Account

variable {η : Type} {a b : Account η} {e : Event}

/-- Whether the backlog and the fetches are as the history says. -/
structure Stocked (a : Account η) : Prop where
  backlog : a.state.backlog = (waiting a.history a.history.length).map Prod.snd
  fetches : FetchesFirst a.history

theorem stocked_start : (start : Account η).Stocked :=
  ⟨rfl, nofun⟩

/-- One more deed keeps the account so, if the backlog goes along with it. -/
theorem stocked_concat (stocked : a.Stocked) {state : Subscriptions η} {deed : Deed η}
    (backlog : state.backlog =
      (waiting (a.history ++ [deed]) (a.history.length + 1)).map Prod.snd)
    (first : ∀ f, deed = .fetched f → f = a.state.backlog.head?) :
    (⟨state, a.history ++ [deed]⟩ : Account η).Stocked := by
  refine ⟨?_, ?_⟩
  · rw [List.length_append, List.length_singleton]
    exact backlog
  · intro place f found
    by_cases old : place < a.history.length
    · rw [List.getElem?_append_left old] at found
      rw [waiting_append (Nat.le_of_lt old)]
      exact stocked.fetches place f found
    · obtain ⟨rfl, same⟩ := eq_of_getElem?_concat (Nat.le_of_not_lt old) found
      rw [first f same.symm, stocked.backlog, waiting_append (Nat.le_refl _), List.head?_map]

/-- A deed that neither fetches nor begins a dispatch that nobody hears leaves the backlog alone. -/
theorem stocked_same (stocked : a.Stocked) {state : Subscriptions η} {deed : Deed η}
    (same : state.backlog = a.state.backlog) (other : ∀ f, deed ≠ .fetched f)
    (heard : ∀ e, deed = .began e → audience e.name a.history ≠ []) :
    (⟨state, a.history ++ [deed]⟩ : Account η).Stocked := by
  refine stocked_concat stocked ?_ fun f fetched => absurd fetched (other f)
  have nobody : unheard? (a.history ++ [deed]) a.history.length = none := by
    rw [Option.eq_none_iff_forall_ne_some]
    intro e unheard
    obtain ⟨began, silent⟩ := unheard?_eq_some_iff.mp unheard
    rw [List.getElem?_concat_length, Option.some.injEq] at began
    rw [List.take_left] at silent
    exact heard e began silent
  have notFetched (f : Option Event) :
      (a.history ++ [deed])[a.history.length]? ≠ some (.fetched f) := by
    rw [List.getElem?_concat_length]
    exact fun found => other f (Option.some.inj found)
  rw [waiting_of_other nobody notFetched, waiting_append (Nat.le_refl _), same, stocked.backlog]

theorem stocked_next (stocked : a.Stocked) : a.next.Stocked := by
  refine stocked_concat stocked ?_ fun f fetched => (Deed.fetched.inj fetched).symm
  have found : (a.history ++ [Deed.fetched a.state.backlog.head?])[a.history.length]? =
      some (.fetched a.state.backlog.head?) := List.getElem?_concat_length
  rw [waiting_of_fetched found, waiting_append (Nat.le_refl _), List.map_drop, ← stocked.backlog]

/-- An event that nobody hears goes to the end of the backlog. -/
theorem stocked_store (stocked : a.Stocked) (nobody : audience e.name a.history = []) :
    (⟨a.state.store e, a.history ++ [.began e]⟩ : Account η).Stocked := by
  refine stocked_concat stocked ?_ nofun
  have unheard : unheard? (a.history ++ [.began e]) a.history.length = some e :=
    unheard?_eq_some_iff.mpr ⟨List.getElem?_concat_length, by rw [List.take_left, nobody]⟩
  have size : a.state.backlog.length = (waiting a.history a.history.length).length := by
    rw [stocked.backlog, List.length_map]
  rw [waiting_of_unheard unheard, waiting_append (Nat.le_refl _), List.map_append, store, size]
  dsimp only
  split
  · rw [List.map_drop, ← stocked.backlog]
    rfl
  · rw [← stocked.backlog]
    rfl

variable {run : η → Event → Account η → Account η}

/-- Whether a handler keeps the backlog as the history says. -/
def Keeps (run : η → Event → Account η → Account η) : Prop :=
  ∀ (handler : η) (e : Event) (c : Account η), c.Mirrors → c.Stocked → (run handler e c).Stocked

theorem stocked_midway (mirrors : a.Mirrors) (stocked : a.Stocked) (proper : Proper run)
    (keeps : Keeps run) (heard : audience e.name a.history ≠ []) (called : List η) :
    (a.midway run e called).Stocked := by
  induction called using List.reverseRecOn with
  | nil =>
      refine stocked_same stocked rfl (by simp) ?_
      rintro e' ⟨⟩
      exact heard
  | append_singleton called handler ih =>
      have during := during_note (during_midway (e := e) mirrors proper called) mirrors handler
      rw [midway, List.foldl_append]
      exact keeps handler e _ during.mirrors (stocked_same ih rfl (by simp) (by simp))

/-- A dispatch that nobody hears stores the event. -/
theorem dispatch_of_unheard (nobody : a.state.handlers e.name = []) : a.dispatch run e =
    ⟨a.state.store e, a.history ++ [.began e] ++ [.ended a.history.length 0]⟩ := by
  rw [dispatch, Subscriptions.dispatch]
  dsimp only
  rw [nobody]

theorem stocked_dispatch (mirrors : a.Mirrors) (stocked : a.Stocked) (proper : Proper run)
    (keeps : Keeps run) : (a.dispatch run e).Stocked := by
  have all := handlers_eq mirrors e.name
  by_cases heard : a.state.handlers e.name = []
  · rw [heard, eq_comm, List.map_eq_nil_iff] at all
    rw [dispatch_of_unheard heard]
    exact stocked_same (stocked_store stocked all) rfl nofun nofun
  · have listens : audience e.name a.history ≠ [] := by
      intro nobody
      rw [nobody] at all
      exact heard all
    rw [dispatch_eq rfl heard]
    exact stocked_same (stocked_midway mirrors stocked proper keeps listens _) rfl nofun nofun

theorem stocked_course (course : Course a b) (mirrors : a.Mirrors) (stocked : a.Stocked) :
    b.Stocked := by
  -- By induction on the course; the handlers of a dispatch have courses of their own.
  induction course with
  | idle a => exact stocked
  | add so event handler ih => exact stocked_same (ih mirrors stocked) rfl nofun nofun
  | remove so id ih => exact stocked_same (ih mirrors stocked) rfl nofun nofun
  | next so ih => exact stocked_next (ih mirrors stocked)
  | dispatch so e run proper ih inner =>
      have before := (continues_course so mirrors).mirrors
      exact stocked_dispatch before (ih mirrors stocked)
        (fun handler e c => continues_course (proper handler e c)) inner

theorem stocked_of_reached (reached : Reached a) : a.Stocked := by
  induction reached with
  | start => exact stocked_start
  | course so course ih => exact stocked_course course (sound_of_reached so).mirrors ih
  | @calling a so e run proper earlier later handler inOrder ih =>
      have mirrors := (sound_of_reached so).mirrors
      have heard : audience e.name a.history ≠ [] := by
        intro nobody
        rw [handlers_eq mirrors, nobody] at inOrder
        cases earlier <;> cases inOrder
      have kept := stocked_midway mirrors ih
        (fun handler e c => continues_course (proper handler e c))
        (fun handler e c => stocked_course (proper handler e c)) heard earlier
      exact stocked_same kept rfl nofun nofun

/-- What is promised of the backlog. `source` tells the dispatch that what is fetched at a place of
the history comes from. The backlog never holds more than 256 events (`bounded`). It holds the last
of those that nobody heard, and nothing that somebody heard (`holds`). What is fetched was
dispatched before, and nobody heard it (`comes`). Events come out in the order of their dispatches,
and each only once (`ordered`). When a fetch finds nothing any more, all that nobody heard has come
out, except for what was crowded out while it waited (`lost`). -/
structure Delivers (a : Account η) (source : Nat → Nat) : Prop where
  bounded : a.state.backlog.length ≤ 256
  holds : ∃ last, last <:+ unheard a.history a.history.length ∧
    a.state.backlog = last.map Prod.snd
  comes : ∀ f e, a.history[f]? = some (.fetched (some e)) → (source f, e) ∈ unheard a.history f
  ordered : ∀ f g d e, f < g → a.history[f]? = some (.fetched (some d)) →
    a.history[g]? = some (.fetched (some e)) → source f < source g
  lost : ∀ n e g, (n, e) ∈ unheard a.history g → a.history[g]? = some (.fetched none) →
    ((∀ f < g, ∀ d, a.history[f]? = some (.fetched (some d)) → source f ≠ n) ↔
      ∃ m < g, CrowdsOut a.history source n m)

/-- The backlog delivers in every account that can come about, also in the midst of dispatches. -/
theorem delivers (reached : Reached a) : ∃ source, a.Delivers source := by
  have stocked := stocked_of_reached reached
  have few := length_waiting_le a.history a.history.length
  refine ⟨sourceOf a.history, ?_, ?_, ?_, ?_, ?_⟩
  · rw [stocked.backlog, List.length_map]
    exact few
  · exact ⟨_, waiting_suffix _ _, stocked.backlog⟩
  · exact fun f e found => stocked.fetches.mem_unheard found
  · exact fun f g d e less first second => stocked.fetches.sourceOf_strictMono less first second
  · exact fun n e g inside drained => stocked.fetches.lost_iff inside drained

/-- One of many different events. -/
def numbered (n : Nat) : Event :=
  ⟨Event.findingsName, some (String.ofList (Numeral.digits n)), []⟩

/-- Many events have been dispatched, and nobody listened. -/
def flooded : Nat → Account Unit
  | 0 => start
  | n + 1 => (flooded n).dispatch (fun _ _ c => c) (numbered n)

theorem reached_flooded (n : Nat) : Reached (flooded n) := by
  induction n with
  | zero => exact .start
  | succ n ih =>
      exact ih.course (.dispatch (.idle _) _ _ fun _ _ c => .idle c)

theorem state_flooded {n : Nat} (room : n ≤ 256) :
    (flooded n).state = ⟨[], (List.range n).map numbered, 0⟩ := by
  induction n with
  | zero => rfl
  | succ n ih =>
      have before := ih (Nat.le_of_succ_le room)
      have fits : ((List.range n).map numbered).length ≠ backlogLimit := by
        rw [List.length_map, List.length_range]
        exact Nat.ne_of_lt room
      rw [flooded, dispatch_of_unheard (by rw [before]; rfl), before, store, List.range_succ,
        List.map_append]
      dsimp only
      rw [if_neg fits]
      rfl

/-- Of 257 events that nobody hears the first one is lost, and the second one comes out first. -/
theorem delivers_flooded :
    ∃ a : Account Unit, Reached a ∧ a.history.getLast? = some (.fetched (some (numbered 1))) ∧
      ∃ source, a.Delivers source := by
  have reached : Reached (flooded 257).next := (reached_flooded 257).course (.next (.idle _))
  have second : (flooded 257).state.next.2 = some (numbered 1) := by
    have full := state_flooded (Nat.le_refl 256)
    have atLimit : ((List.range 256).map numbered).length = backlogLimit := by
      rw [List.length_map, List.length_range]
      rfl
    rw [flooded, dispatch_of_unheard (by rw [full]; rfl), full, Subscriptions.next, store]
    dsimp only
    rw [if_pos atLimit, List.head?_append, List.head?_drop, List.getElem?_map,
      List.getElem?_range (by decide)]
    rfl
  refine ⟨_, reached, ?_, delivers reached⟩
  rw [next, List.getLast?_concat, second]

end EditorBridge.Subscriptions.Account
