import EditorBridge.Proofs.Subscriptions.Dispatch

/-!
# Subscriptions are orderly

What is promised of subscriptions as long as the numbers last (`Account.orderly`): the numbers are
apart, a dispatch calls everybody who listens when it begins, and a number that is unsubscribed
takes its own listener along and nobody else.
-/

namespace EditorBridge.Subscriptions

variable {η : Type} {history : List (Deed η)} {a : Account η}

/-- Those who listen have got their numbers one after the other. -/
theorem ids_listeners (history : List (Deed η)) :
    ((listeners history).map Listener.id).Sublist (ids history) := by
  induction history using List.reverseRecOn with
  | nil => exact List.Sublist.refl _
  | append_singleton history deed ih =>
      have given : ids (history ++ [deed]) = ids history ++ deed.id?.toList := by
        cases deed <;> simp [ids, Deed.id?]
      rw [listeners_concat, given]
      cases deed with
      | added id event handler =>
          rw [Deed.change, List.map_append]
          exact ih.append (List.Sublist.refl _)
      | removed id wasThere =>
          have fewer := (List.filter_sublist (p := fun l : Listener η => l.id != id)
            (l := listeners history)).map Listener.id
          exact (fewer.trans ih).trans (List.sublist_append_left _ _)
      | _ => exact ih.trans (List.sublist_append_left _ _)

/-- Striking a number takes out its one listener. -/
theorem filter_of_nodup {ls earlier later : List (Listener η)} {l : Listener η}
    (distinct : (ls.map Listener.id).Nodup) (form : ls = earlier ++ l :: later) :
    ls.filter (·.id != l.id) = earlier ++ later := by
  rw [form, List.map_append, List.map_cons, List.nodup_middle, List.nodup_cons] at distinct
  have apart (other : Listener η) (inside : other ∈ earlier ++ later) :
      (other.id != l.id) = true := by
    rw [bne_iff_ne]
    intro same
    apply distinct.1
    rw [← List.map_append, ← same]
    exact List.mem_map_of_mem inside
  rw [form, List.filter_append, List.filter_cons_of_neg (by simp), ← List.filter_append]
  exact List.filter_eq_self.mpr apart

namespace Account

theorem ids_nodup (mirrors : a.Mirrors) (fewer : (ids a.history).length < UInt64.size) :
    (ids a.history).Nodup := by
  rw [mirrors.numbered]
  refine List.Nodup.map_on ?_ List.nodup_range
  intro n low m high same
  rw [List.mem_range] at low high
  have numbers := congrArg UInt64.toNat same
  rw [UInt64.toNat_ofNat_of_lt' (Nat.lt_trans low fewer),
    UInt64.toNat_ofNat_of_lt' (Nat.lt_trans high fewer)] at numbers
  exact numbers

/-- What is promised of subscriptions. `Right` says what the answers in the history are. No number
is given out twice (`distinct`). The deeds of the history are as they should be (`right`). Everybody
who listens stands under their event, in the order in which they subscribed (`lists`). No name is
left without anybody who listens, and none stands twice (`tidy`). To unsubscribe a number takes out
its listener and nobody else, whatever the event (`struck`). To unsubscribe a number of nobody
changes nothing (`absent`). A dispatch that begins in a course also ends in it (`ends`). -/
structure Orderly (a : Account η) : Prop where
  distinct : (ids a.history).Nodup
  right : ∀ n deed, a.history[n]? = some deed → Right a.history n deed
  lists : ∀ event, lookup event a.state.byEvent =
    (audience event a.history).map fun l => ⟨l.id, l.handler⟩
  tidy : (∀ named ∈ a.state.byEvent, named.2 ≠ []) ∧ (a.state.byEvent.map Prod.fst).Nodup
  struck : ∀ l ∈ listeners a.history, (a.state.remove l.id).2 = true ∧
    ∃ earlier later, listeners a.history = earlier ++ l :: later ∧
      ∀ event, lookup event (a.state.remove l.id).1.byEvent =
        ((earlier ++ later).filter (·.event == event)).map fun l => ⟨l.id, l.handler⟩
  absent : ∀ id, (∀ l ∈ listeners a.history, l.id ≠ id) → (a.state.remove id).2 = false ∧
    ∀ event, lookup event (a.state.remove id).1.byEvent = lookup event a.state.byEvent
  ends : ∀ b, Course a b → ∀ n e, a.history.length ≤ n → b.history[n]? = some (.began e) →
    ∃ (k count : Nat), b.history[k]? = some (.ended n count)

/-- Subscriptions are orderly in every account that can come about, also in the midst of dispatches,
as long as fewer than 2⁶⁴ numbers have been given out. -/
theorem orderly (reached : Reached a) (fewer : (ids a.history).length < UInt64.size) :
    a.Orderly := by
  have sound := sound_of_reached reached
  have mirrors := sound.mirrors
  have distinct := ids_nodup mirrors fewer
  refine ⟨distinct, sound.right, mirrors.lists, ⟨mirrors.tidy.filled, mirrors.tidy.distinct⟩,
    ?_, ?_, ?_⟩
  · intro l listens
    obtain ⟨earlier, later, form⟩ := List.append_of_mem listens
    refine ⟨?_, earlier, later, form, ?_⟩
    · change a.state.contains l.id = true
      rw [contains_eq mirrors, List.any_eq_true]
      exact ⟨l, listens, beq_self_eq_true _⟩
    · intro event
      have lists := (mirrors_remove mirrors l.id).lists event
      rw [audience, remove, listeners_concat, Deed.change,
        filter_of_nodup ((ids_listeners _).nodup distinct) form] at lists
      exact lists
  · intro id nobody
    refine ⟨?_, ?_⟩
    · change a.state.contains id = false
      rw [contains_eq mirrors, List.any_eq_false]
      intro l listens same
      exact nobody l listens (beq_iff_eq.mp same)
    · intro event
      have lists := (mirrors_remove mirrors id).lists event
      have all : (listeners a.history).filter (·.id != id) = listeners a.history := by
        refine List.filter_eq_self.mpr ?_
        intro l listens
        exact bne_iff_ne.mpr (nobody l listens)
      rw [audience, remove, listeners_concat, Deed.change, all] at lists
      rw [mirrors.lists]
      exact lists
  · intro b course n e later began
    exact ((continues_course course mirrors).settled n (.began e) later began).2 e rfl

/-- An event with no findings. -/
def quiet : Event :=
  ⟨Event.findingsName, none, []⟩

/-- A busy handler subscribes an idle one, unsubscribes the first number and dispatches the event
again. -/
def obey (busy : Bool) (e : Event) (a : Account Bool) : Account Bool :=
  if busy then ((a.add e.name false).remove 0).dispatch (fun _ _ c => c) e else a

theorem course_obey (busy : Bool) (e : Event) (a : Account Bool) : Course a (obey busy e a) := by
  cases busy with
  | false => exact .idle a
  | true => exact .dispatch (.remove (.add (.idle a) e.name false) 0) e _ fun _ _ c => .idle c

/-- A busy handler and an idle one are called once each, although the busy one leaves when it is
called. The dispatch inside of its call goes to the two idle handlers that listen by then. -/
theorem orderly_busy :
    ∃ a : Account Bool, Reached a ∧ (ids a.history).length < UInt64.size ∧
      calls 2 a.history = [(true, quiet), (false, quiet)] ∧
      calls 6 a.history = [(false, quiet), (false, quiet)] ∧ a.Orderly := by
  have listening :=
    Course.add (.add (.idle (start : Account Bool)) quiet.name true) quiet.name false
  have reached := Reached.start.course (.dispatch listening quiet obey course_obey)
  have fewer : (ids (((start.add quiet.name true).add quiet.name false).dispatch
      obey quiet).history).length < UInt64.size := by decide
  exact ⟨_, reached, fewer, by decide, by decide, orderly reached fewer⟩

end Account

end EditorBridge.Subscriptions
