import EditorBridge.Proofs.Hub.Turns
import EditorBridge.Proofs.Subscriptions.Table

/-!
# Who hears the events of a workspace

Every handler that was added to the roster is a handler of every workspace on it, once for each time
that it was added and in the same order (`Lobby.informed_of_reachable`). A workspace gets those that
were added before it was started from the one who starts it, and each later one from the visitor who
adds it. Both hold the lock meanwhile, so no handler comes both ways, and none comes neither way.
-/

namespace EditorBridge

namespace Subscriptions

variable {η : Type}

theorem handlers_add (s : Subscriptions η) (event : String) (handler : η) (name : String) :
    (s.add event handler).1.handlers name =
      s.handlers name ++ if name = event then [handler] else [] := by
  rw [add, handlers, handlers, lookup_enter]
  split
  · next here => rw [here, List.map_append]; rfl
  · rw [List.append_nil]

end Subscriptions

namespace Hub

open Workspace (Key)

variable {η : Type} {h h' : Hub η} {i n board : Nat} {o o' : Option Nat} {v v' : Visit η}
  {deeds : List (Deed η)}

/-- The handlers of an event among some, in the same order. -/
def called (name : String) (handlers : List (String × η)) : List η :=
  (handlers.filter fun handler => handler.1 == name).map Prod.snd

/-- The handlers of an event in a set of subscriptions. -/
def handlersAt (h : Hub η) (board : Nat) (name : String) : List η :=
  (h.boards[board]?).elim [] fun s => s.handlers name

theorem called_concat (name event : String) (handler : η) (handlers : List (String × η)) :
    called name (handlers ++ [(event, handler)]) =
      called name handlers ++ if name = event then [handler] else [] := by
  rw [called, called, List.filter_append, List.map_append]
  by_cases here : name = event
  · simp [here]
  · simp [here, Ne.symm here]

/-- An event goes to the handlers of its name, once to each. -/
theorem calls_dispatch (h : Hub η) (board : Nat) (e : Event) :
    (h.dispatch board e).calls =
      h.calls ++ (h.handlersAt board e.name).map fun handler => (handler, e) := by
  rw [handlersAt]
  cases found : h.boards[board]? with
  | none => rw [dispatch, found]; exact (List.append_nil _).symm
  | some s =>
      obtain ⟨s', -, result⟩ := dispatch_of_found e found
      rw [result]
      rfl

/-! ### What the steps of a visitor do to subscriptions -/

theorem handlersAt_eq (h : Hub η) (board : Nat) (name : String) : h.handlersAt board name =
    (h.tables[board]?).elim [] fun table =>
      (Subscriptions.lookup name table).map Subscription.handler := by
  rw [handlersAt, tables, List.getElem?_map]
  cases h.boards[board]? <;> rfl

theorem handlersAt_of_more (more : h.tables <+: h'.tables) (old : board < h.boards.length)
    (name : String) : h'.handlersAt board name = h.handlersAt board name := by
  obtain ⟨new, all⟩ := more
  rw [handlersAt_eq, handlersAt_eq, ← all, List.getElem?_append_left]
  rw [length_tables]
  exact old

theorem handlers_foldl_add (handlers : List (String × η)) (s : Subscriptions η) (name : String) :
    (handlers.foldl (fun s handler => (s.add handler.1 handler.2).1) s).handlers name =
      s.handlers name ++ called name handlers := by
  induction handlers generalizing s with
  | nil => exact (List.append_nil _).symm
  | cons first handlers ih =>
      rw [List.foldl_cons, ih, Subscriptions.handlers_add, List.append_assoc]
      by_cases here : name = first.1
      · simp [called, here]
      · simp [called, here, Ne.symm here]

/-- A new set of subscriptions has the handlers of the roster. -/
theorem handlersAt_openBoard (h : Hub η) (name : String) :
    h.openBoard.handlersAt h.boards.length name = called name h.roster.handlers := by
  rw [handlersAt, openBoard, List.getElem?_concat_length]
  exact handlers_foldl_add h.roster.handlers .empty name

theorem tables_openBoard (h : Hub η) : h.tables <+: h.openBoard.tables := by
  rw [tables, tables, openBoard, List.map_append]
  exact List.prefix_append _ _

/-- To subscribe a handler on a workspace adds it to the handlers of its event. -/
theorem handlersAt_subscribeTo {w : Workspace} (found : h.workspace? n = some w)
    (opened : w.board < h.boards.length) (event : String) (handler : η) (board : Nat)
    (name : String) : (h.subscribeTo event handler n).handlersAt board name =
      h.handlersAt board name ++ if board = w.board ∧ name = event then [handler] else [] := by
  have there : h.boards[w.board]? = some h.boards[w.board] := List.getElem?_eq_getElem opened
  rw [subscribeTo, found]
  dsimp only
  rw [subscribe, there, handlersAt, handlersAt]
  dsimp only
  by_cases here : board = w.board
  · subst here
    rw [List.getElem?_set_self opened, there]
    simp only [Option.elim_some, true_and]
    exact Subscriptions.handlers_add _ event handler name
  · rw [List.getElem?_set_ne (Ne.symm here), if_neg (fun both => here both.1), List.append_nil]

theorem handlersAt_subscribeTo_of_ne (sound : h.Sound) {m : Nat} {w : Workspace}
    (found : h.workspace? m = some w) (other : m ≠ n) (event : String) (handler : η)
    (name : String) :
    (h.subscribeTo event handler n).handlersAt w.board name = h.handlersAt w.board name := by
  cases there : h.workspace? n with
  | none => rw [subscribeTo, there]
  | some v =>
      have opened := sound.opened _ _ (sound.primary n v there)
      have apart : w.board ≠ v.board := fun same => other (sound.apart m n w v found there same)
      rw [handlersAt_subscribeTo there opened, if_neg (fun both => apart both.1), List.append_nil]

/-- No workspace stands on the roster twice. -/
theorem Sound.nodup_listed (sound : h.Sound) : (h.roster.current.map Prod.snd).Nodup := by
  refine List.pairwise_map.mpr (sound.keys.imp_of_mem ?_)
  intro a b first second apart same
  obtain ⟨w, found, key⟩ := sound.listed a.1 a.2 first
  obtain ⟨v, found', key'⟩ := sound.listed b.1 b.2 second
  rw [same, found'] at found
  cases found
  rw [← key, ← key', Key.isSame_refl] at apart
  cases apart

/-- The handler that was added, if one was, and by whom. -/
def Deed.registration? : Deed η → Option (Nat × String × η)
  | offered visitor event handler => some (visitor, event, handler)
  | _ => none

namespace Turn

/-- A visitor adds a handler to the roster, or subscribes one on a workspace, or leaves alone who is
subscribed to what. -/
theorem sorts (turn : Turn i h o v h' o' v' deeds) :
    (∃ event handler all, o = none ∧ all.Perm (h.roster.current.map Prod.snd) ∧
        h' = { h with roster := h.roster.addHandler event handler } ∧
        v' = .spreading event handler all ∧ deeds = [.offered i event handler]) ∨
      (∃ event handler n rest, o = some i ∧ v = .spreading event handler (n :: rest) ∧
        h' = h.subscribeTo event handler n ∧ v' = .spreading event handler rest ∧ deeds = []) ∨
      h.tables <+: h'.tables ∧ h'.roster.handlers = h.roster.handlers ∧
        deeds.filterMap Deed.registration? = [] ∧
        (∀ event handler rest, v' ≠ .spreading event handler rest) ∧
        ∀ event handler rest, v = .spreading event handler rest → rest = [] := by
  cases turn with
  | offer event handler all order =>
      exact .inl ⟨event, handler, all, rfl, order, rfl, rfl, rfl⟩
  | @spread event handler n rest =>
      exact .inr (.inl ⟨event, handler, n, rest, rfl, rfl, rfl, rfl, rfl⟩)
  | vacant | cleared => exact .inr (.inr ⟨tables_openBoard h, rfl, rfl, nofun, nofun⟩)
  | clear chore | close chore =>
      refine .inr (.inr ⟨?_, ?_, rfl, nofun, nofun⟩)
      · exact chore.tables h ▸ List.prefix_refl _
      · rw [chore.roster h]
  | started launch done | failed launch done | paired launch done =>
      obtain ⟨roster, tables, -⟩ := startChannel_frame done
      exact .inr (.inr ⟨tables ▸ List.prefix_refl _, by rw [roster], rfl, nofun, nofun⟩)
  | unpaired launch done =>
      obtain ⟨roster, tables, -⟩ := startChannel_frame done
      refine .inr (.inr ⟨?_, ?_, rfl, nofun, nofun⟩)
      · exact ((works_stopChannel _ _).tables.trans tables) ▸ List.prefix_refl _
      · rw [(works_stopChannel _ _).roster, roster]
  | emptied =>
      refine .inr (.inr ⟨List.prefix_refl _, rfl, ?_, nofun, nofun⟩)
      rw [List.filterMap_map]
      exact List.filterMap_eq_nil_iff.mpr fun _ _ => rfl
  | offered =>
      refine .inr (.inr ⟨List.prefix_refl _, rfl, rfl, nofun, ?_⟩)
      intro event handler rest same
      cases same
      rfl
  | _ => exact .inr (.inr ⟨List.prefix_refl _, rfl, rfl, nofun, nofun⟩)

/-- Whoever has a site has opened it, or had it before. -/
theorem site (turn : Turn i h o v h' o' v' deeds) {crew : List Nat}
    (site : v'.site? = some (board, crew)) :
    (∃ before, v.site? = some (board, before)) ∨ h' = h.openBoard ∧ board = h.boards.length := by
  cases turn with
  | vacant | cleared =>
      obtain ⟨rfl, -⟩ := Prod.mk.inj (Option.some.inj site)
      exact .inr ⟨rfl, rfl⟩
  | started | paired =>
      obtain ⟨rfl, -⟩ := Prod.mk.inj (Option.some.inj site)
      exact .inl ⟨_, rfl⟩
  | _ => cases site

/-- A workspace that is new on the roster comes from a site. -/
theorem enters (turn : Turn i h o v h' o' v' deeds) {key : Key} {w : Workspace}
    (listed : (key, n) ∈ h'.roster.current) (found : h'.workspace? n = some w) :
    (key, n) ∈ h.roster.current ∨ ∃ crew, v.site? = some (w.board, crew) := by
  cases turn with
  | missed | struck => exact .inl (Roster.mem_strike.mp listed).1
  | emptied => cases listed
  | clear chore | close chore => exact .inl (chore.roster h ▸ listed)
  | started launch done | failed launch done | paired launch done =>
      exact .inl ((startChannel_frame done).1 ▸ listed)
  | unpaired launch done =>
      rw [(works_stopChannel _ _).roster, (startChannel_frame done).1] at listed
      exact .inl listed
  | entered =>
      rcases List.mem_append.mp listed with old | new
      · exact .inl old
      · obtain ⟨rfl, rfl⟩ := Prod.mk.inj (List.mem_singleton.mp new)
        rw [workspace?_enlist, if_pos rfl] at found
        cases found
        exact .inr ⟨_, rfl⟩
  | spread => exact .inl ((subscribeTo_frame h _ _ _).1 ▸ listed)
  | _ => exact .inl listed

end Turn

theorem Outside.sorts (event : Outside h h' deeds) : h'.tables = h.tables ∧
    h'.roster.handlers = h.roster.handlers ∧ deeds.filterMap Deed.registration? = [] := by
  cases event with
  | registered exts spec => exact ⟨rfl, rfl, rfl⟩
  | heard c a => exact ⟨(works_arrive h c a).tables, by rw [(works_arrive h c a).roster], rfl⟩
  | died => exact ⟨(works_vanish h _).tables, by rw [(works_vanish h _).roster], rfl⟩
  | ended => exact ⟨(works_arrive h _ _).tables, by rw [(works_arrive h _ _).roster], rfl⟩

namespace Lobby

/-- The handlers that have been added and by whom, the first one first. -/
def registrations (s : Lobby η) : List (Nat × String × η) :=
  s.log.reverse.filterMap Deed.registration?

/-- The handlers that have been added. -/
def registered (s : Lobby η) : List (String × η) :=
  s.registrations.map Prod.snd

/-- What is always so of the handlers of workspaces. A workspace that is being started has every
handler (`site`). So has one on the roster, unless the last one is still to be subscribed on it
(`level`). -/
structure Heard (s : Lobby η) : Prop where
  roster : s.hub.roster.handlers = s.registered
  site : ∀ i board crew, (s.phase i).site? = some (board, crew) →
    ∀ name, s.hub.handlersAt board name = called name s.registered
  level : ∀ key n w, (key, n) ∈ s.hub.roster.current → s.hub.workspace? n = some w →
    (∀ i event handler rest, s.phase i = .spreading event handler rest → n ∉ rest) →
    ∀ name, s.hub.handlersAt w.board name = called name s.registered
  behind : ∀ i event handler rest, s.phase i = .spreading event handler rest → rest.Nodup ∧
    ∃ old, s.registrations = old ++ [(i, event, handler)] ∧ ∀ n ∈ rest, ∀ w,
      s.hub.workspace? n = some w →
        ∀ name, s.hub.handlersAt w.board name = called name (old.map Prod.snd)

variable {s t : Lobby η} {hub : Hub η} {holder : Option Nat} {visit : Visit η}

theorem registrations_moved (i : Nat) : (s.moved i hub holder visit deeds).registrations =
    s.registrations ++ deeds.reverse.filterMap Deed.registration? := by
  rw [registrations, moved, List.reverse_append, List.filterMap_append, registrations]

/-- When the one who moves has the lock, or takes it, no one else stands inside after the move. -/
theorem Orderly.eq_of_inside {j : Nat} (orderly : s.Orderly)
    (free : s.holder = none ∨ s.holder = some i)
    (inside : ((s.moved i hub holder visit deeds).phase j).isInside = true) : j = i := by
  by_contra other
  rw [phase_moved_of_ne other, orderly.alone free other] at inside
  cases inside

theorem heard_offer {event : String} {handler : η} {all : List Nat} (orderly : s.Orderly)
    (heard : s.Heard) (free : s.holder = none)
    (order : all.Perm (s.hub.roster.current.map Prod.snd)) :
    (s.moved i { s.hub with roster := s.hub.roster.addHandler event handler } holder
      (.spreading event handler all) [.offered i event handler]).Heard := by
  have idle (j : Nat) : (s.phase j).isInside = false := by
    cases inside : (s.phase j).isInside with
    | false => rfl
    | true => rw [orderly.locked j inside] at free; cases free
  refine ⟨?_, ?_, ?_, ?_⟩
  · rw [registered, registrations_moved, List.map_append, ← registered, ← heard.roster]
    rfl
  · intro j board crew site
    obtain rfl := orderly.eq_of_inside (.inl free) (Visit.isInside_of_site? site)
    rw [phase_moved_self] at site
    cases site
  · intro key n w listed found told
    refine absurd ?_ (told i event handler all (phase_moved_self ..))
    exact order.mem_iff.mpr (List.mem_map.mpr ⟨(key, n), listed, rfl⟩)
  · intro j event' handler' rest spreads
    obtain rfl := orderly.eq_of_inside (.inl free) (by rw [spreads]; rfl)
    rw [phase_moved_self] at spreads
    cases spreads
    refine ⟨order.nodup_iff.mpr orderly.sound.nodup_listed, s.registrations, ?_, ?_⟩
    · exact registrations_moved _
    · intro n inside w found
      obtain ⟨⟨key, m⟩, listed, rfl⟩ := List.mem_map.mp (order.mem_iff.mp inside)
      refine heard.level key m w listed found ?_
      intro k event'' handler'' rest' other
      have calm := idle k
      rw [other] at calm
      cases calm

theorem heard_spread {event : String} {handler : η} {rest : List Nat} (orderly : s.Orderly)
    (heard : s.Heard) (phase : s.phase i = .spreading event handler (n :: rest)) :
    (s.moved i (s.hub.subscribeTo event handler n) holder (.spreading event handler rest)
      []).Heard := by
  have mine : s.holder = some i := orderly.locked i (by rw [phase]; rfl)
  obtain ⟨roster, -, workspaces⟩ := subscribeTo_frame s.hub event handler n
  have before {m : Nat} {w : Workspace}
      (found : (s.hub.subscribeTo event handler n).workspace? m = some w) :
      s.hub.workspace? m = some w := by
    rw [workspace?, workspaces] at found
    exact found
  obtain ⟨nodup, old, all, less⟩ := heard.behind i event handler (n :: rest) phase
  obtain ⟨new, nodup⟩ := List.nodup_cons.mp nodup
  have same : (s.moved i (s.hub.subscribeTo event handler n) holder
      (.spreading event handler rest) []).registered = s.registered := rfl
  refine ⟨?_, ?_, ?_, ?_⟩
  · rw [same, ← heard.roster]
    exact congrArg _ roster
  · intro j board crew site
    obtain rfl := orderly.eq_of_inside (.inr mine) (Visit.isInside_of_site? site)
    rw [phase_moved_self] at site
    cases site
  · intro key m w listed found told name
    have known := before found
    rw [same]
    by_cases here : m = n
    · subst here
      have opened := orderly.sound.opened _ _ (orderly.sound.primary m w known)
      change (s.hub.subscribeTo event handler m).handlersAt w.board name = _
      rw [handlersAt_subscribeTo known opened, less m List.mem_cons_self w known, registered, all,
        List.map_append, List.map_singleton, called_concat]
      simp only [true_and]
    · refine (handlersAt_subscribeTo_of_ne orderly.sound known here event handler name).trans ?_
      refine heard.level key m w (roster ▸ listed) known ?_ name
      intro j event' handler' rest' spreads
      by_cases me : j = i
      · rw [me, phase] at spreads
        cases spreads
        refine List.not_mem_cons_of_ne_of_not_mem here ?_
        exact told i event handler rest (phase_moved_self ..)
      · have outside := orderly.alone (.inr mine) me
        rw [spreads] at outside
        cases outside
  · intro j event' handler' rest' spreads
    obtain rfl := orderly.eq_of_inside (.inr mine) (by rw [spreads]; rfl)
    rw [phase_moved_self] at spreads
    cases spreads
    refine ⟨nodup, old, all, ?_⟩
    intro m inside w found name
    have known := before found
    have other : m ≠ n := fun is => new (is ▸ inside)
    refine (handlersAt_subscribeTo_of_ne orderly.sound known other event handler name).trans ?_
    exact less m (List.mem_cons_of_mem n inside) w known name

theorem heard_other (orderly : s.Orderly) (heard : s.Heard)
    (turn : Turn i s.hub s.holder (s.phase i) hub holder visit deeds)
    (more : s.hub.tables <+: hub.tables)
    (same : hub.roster.handlers = s.hub.roster.handlers)
    (silent : deeds.filterMap Deed.registration? = [])
    (idle : ∀ event handler rest, visit ≠ .spreading event handler rest)
    (done : ∀ event handler rest, s.phase i = .spreading event handler rest → rest = []) :
    (s.moved i hub holder visit deeds).Heard := by
  have sound := orderly.sound
  obtain ⟨-, ages⟩ := turn.sound_ages sound (orderly.fits i)
  have whole : (s.moved i hub holder visit deeds).registrations = s.registrations := by
    rw [registrations_moved, List.filterMap_reverse, silent]
    exact List.append_nil _
  have all : (s.moved i hub holder visit deeds).registered = s.registered := by
    rw [registered, whole, registered]
  have opened {j board : Nat} {crew : List Nat} (site : (s.phase j).site? = some (board, crew)) :
      board < s.hub.boards.length := ((orderly.fits j).site board crew site).opened
  refine ⟨?_, ?_, ?_, ?_⟩
  · rw [all, ← heard.roster]
    exact same
  · intro j board crew site name
    rw [all]
    by_cases here : j = i
    · rw [here, phase_moved_self] at site
      rcases turn.site site with ⟨crew', before⟩ | ⟨rfl, rfl⟩
      · exact (handlersAt_of_more more (opened before) name).trans
          (heard.site i board crew' before name)
      · rw [← heard.roster]
        exact handlersAt_openBoard s.hub name
    · rw [phase_moved_of_ne here] at site
      exact (handlersAt_of_more more (opened site) name).trans
        (heard.site j board crew site name)
  · intro key n w listed found told name
    rw [all]
    rcases turn.enters listed found with old | ⟨crew, site⟩
    · obtain ⟨v, before, -⟩ := sound.listed key n old
      obtain ⟨w', after, -, -, -, board, -⟩ := ages.later before
      obtain rfl := Option.some.inj (found.symm.trans after)
      have within := sound.opened _ _ (sound.primary n v before)
      change hub.handlersAt w.board name = _
      rw [board, handlersAt_of_more more within]
      refine heard.level key n v old before ?_ name
      intro j event handler rest spreads
      by_cases here : j = i
      · rw [done event handler rest (here ▸ spreads)]
        exact List.not_mem_nil
      · exact told j event handler rest ((phase_moved_of_ne here).trans spreads)
    · exact (handlersAt_of_more more (opened site) name).trans
        (heard.site i w.board crew site name)
  · intro j event handler rest spreads
    by_cases here : j = i
    · rw [here, phase_moved_self] at spreads
      exact absurd spreads (idle event handler rest)
    · rw [phase_moved_of_ne here] at spreads
      obtain ⟨nodup, old, last, less⟩ := heard.behind j event handler rest spreads
      refine ⟨nodup, old, whole.trans last, ?_⟩
      intro n inside w found name
      rcases turn.alone with ⟨fades, -⟩ | free
      · obtain ⟨v, before, kept⟩ := fades.old found
        have within := sound.opened _ _ (sound.primary n v before)
        have board : w.board = v.board := by rcases kept with rfl | ⟨rfl, -⟩ <;> rfl
        change hub.handlersAt w.board name = _
        rw [board, handlersAt_of_more more within]
        exact less n inside v before name
      · have calm := orderly.alone free here
        rw [spreads] at calm
        cases calm

theorem registrations_outside (event : Outside s.hub hub deeds) :
    ({ s with hub, log := deeds ++ s.log } : Lobby η).registrations = s.registrations := by
  rw [registrations, List.reverse_append, List.filterMap_append,
    List.filterMap_reverse (l := deeds), event.sorts.2.2]
  exact List.append_nil _

theorem heard_outside (heard : s.Heard) (event : Outside s.hub hub deeds) :
    Heard { s with hub, log := deeds ++ s.log } := by
  obtain ⟨roster, workspaces⟩ := event.frame
  obtain ⟨tables, handlers, -⟩ := event.sorts
  have whole := registrations_outside event
  have all : ({ s with hub, log := deeds ++ s.log } : Lobby η).registered = s.registered := by
    rw [registered, whole, registered]
  have kept (board : Nat) (name : String) :
      hub.handlersAt board name = s.hub.handlersAt board name := by
    rw [handlersAt_eq, handlersAt_eq, tables]
  refine ⟨?_, ?_, ?_, ?_⟩
  · rw [all, ← heard.roster]
    exact handlers
  · intro j board crew site name
    rw [all]
    exact (kept board name).trans (heard.site j board crew site name)
  · intro key n w listed found told name
    rw [all]
    refine (kept w.board name).trans (heard.level key n w (roster ▸ listed) ?_ told name)
    rw [workspace?, ← workspaces]
    exact found
  · intro j event handler rest spreads
    obtain ⟨nodup, old, last, less⟩ := heard.behind j event handler rest spreads
    refine ⟨nodup, old, whole.trans last, ?_⟩
    intro n inside w found name
    refine (kept w.board name).trans (less n inside w ?_ name)
    rw [workspace?, ← workspaces]
    exact found

theorem heard_of_reachable (reachable : s.Reachable) : s.Heard := by
  obtain ⟨processId, timeout, leads⟩ := reachable
  induction leads with
  | refl => exact ⟨rfl, nofun, nofun, nofun⟩
  | @tail t u before step ih =>
      have orderly := orderly_of_reachable ⟨processId, timeout, before⟩
      cases step with
      | @visitor i hub holder visit deeds turn =>
          rcases turn.sorts with ⟨event, handler, all, free, order, rfl, rfl, rfl⟩ |
            ⟨event, handler, n, rest, -, phase, rfl, rfl, rfl⟩ | ⟨more, same, silent, idle, done⟩
          · exact heard_offer orderly ih free order
          · exact heard_spread orderly ih phase
          · exact heard_other orderly ih turn more same silent idle done
      | outside event => exact heard_outside ih event

end Lobby

/-- The handler that a visitor has added, if it has. -/
def Visit.handler? : Visit η → Option (String × η)
  | spreading event handler _ | offered event handler => some (event, handler)
  | _ => none

/-- A visitor that adds a handler has not added one before, and keeps in mind which one it is. -/
theorem Turn.registers (turn : Turn i h o v h' o' v' deeds) :
    deeds.filterMap Deed.registration? = [] ∧ v'.handler? = v.handler? ∨
      ∃ event handler, deeds = [.offered i event handler] ∧ v.handler? = none ∧
        v'.handler? = some (event, handler) := by
  cases turn with
  | offer event handler => exact .inr ⟨event, handler, rfl, rfl, rfl⟩
  | emptied =>
      refine .inl ⟨?_, rfl⟩
      rw [List.filterMap_map]
      exact List.filterMap_eq_nil_iff.mpr fun _ _ => rfl
  | _ => exact .inl ⟨rfl, rfl⟩

namespace Lobby

variable {s t : Lobby η}

/-- What is always so of those who add handlers. -/
structure Signed (s : Lobby η) : Prop where
  by_whom : ∀ i handler, (i, handler) ∈ s.registrations ↔ (s.phase i).handler? = some handler
  once : (s.registrations.map Prod.fst).Nodup

theorem signed_step (signed : s.Signed) (step : Step s t) : t.Signed := by
  cases step with
  | outside event =>
      refine ⟨?_, (registrations_outside event).symm ▸ signed.once⟩
      intro i handler
      rw [registrations_outside event]
      exact signed.by_whom i handler
  | @visitor i hub holder visit deeds turn =>
      rcases turn.registers with ⟨silent, same⟩ | ⟨event, handler, rfl, new, now⟩
      · have whole : (s.moved i hub holder visit deeds).registrations = s.registrations := by
          rw [registrations_moved, List.filterMap_reverse, silent]
          exact List.append_nil _
        refine ⟨?_, whole ▸ signed.once⟩
        intro j registered
        rw [whole, signed.by_whom]
        by_cases here : j = i
        · rw [here, phase_moved_self, same]
        · rw [phase_moved_of_ne here]
      · have whole : (s.moved i hub holder visit [.offered i event handler]).registrations =
            s.registrations ++ [(i, event, handler)] := registrations_moved i
        have absent : i ∉ s.registrations.map Prod.fst := by
          intro inside
          obtain ⟨⟨j, other⟩, there, rfl⟩ := List.mem_map.mp inside
          rw [(signed.by_whom j other).mp there] at new
          cases new
        refine ⟨?_, ?_⟩
        · intro j registered
          rw [whole, List.mem_append, List.mem_singleton, signed.by_whom]
          by_cases here : j = i
          · subst here
            rw [phase_moved_self, new, now]
            simp [eq_comm]
          · rw [phase_moved_of_ne here]
            simp [here]
        · rw [whole, List.map_append]
          exact List.nodup_append.mpr ⟨signed.once, List.nodup_singleton _, by
            intro a inside b last same
            rw [List.mem_singleton.mp last] at same
            obtain rfl : a = i := same
            exact absent inside⟩

theorem signed_of_reachable (reachable : s.Reachable) : s.Signed := by
  obtain ⟨processId, timeout, leads⟩ := reachable
  induction leads with
  | refl => exact ⟨fun _ _ => ⟨nofun, nofun⟩, List.nodup_nil⟩
  | tail _ step ih => exact signed_step ih step

/-- Every workspace on the roster has every handler. A visitor adds no more than one handler
(`once`). A workspace on the roster has the handlers that have been added, each once and in this
order, and gives events to them. Only the last one may still be missing, while the visitor that adds
it is on its way to the workspace. A visitor that has added its handler has added it here as well
(`carries`). -/
structure Informed (s : Lobby η) : Prop where
  once : (s.registrations.map Prod.fst).Nodup
  carries : ∀ key n w, (key, n) ∈ s.hub.roster.current → s.hub.workspace? n = some w →
    ∃ known later, s.registrations = known ++ later ∧
      (∀ name, s.hub.handlersAt w.board name = called name (known.map Prod.snd)) ∧
      (∀ e, (s.hub.dispatch w.board e).calls = s.hub.calls ++
        (called e.name (known.map Prod.snd)).map fun handler => (handler, e)) ∧
      (∀ i event handler, s.phase i = .offered event handler → (i, event, handler) ∈ known) ∧
      (later = [] ∨ ∃ i event handler rest, later = [(i, event, handler)] ∧
        s.phase i = .spreading event handler rest ∧ n ∈ rest)

theorem informed_of_reachable (reachable : s.Reachable) : s.Informed := by
  have heard := heard_of_reachable reachable
  have signed := signed_of_reachable reachable
  refine ⟨signed.once, ?_⟩
  intro key n w listed found
  have added {i : Nat} {event : String} {handler : η} (done : s.phase i = .offered event handler) :
      (i, event, handler) ∈ s.registrations := by
    rw [signed.by_whom, done]
    rfl
  have given {known : List (Nat × String × η)}
      (has : ∀ name, s.hub.handlersAt w.board name = called name (known.map Prod.snd))
      (e : Event) : (s.hub.dispatch w.board e).calls = s.hub.calls ++
        (called e.name (known.map Prod.snd)).map fun handler => (handler, e) := by
    rw [calls_dispatch, has]
  by_cases told : ∀ i event handler rest, s.phase i = .spreading event handler rest → n ∉ rest
  · have has := heard.level key n w listed found told
    refine ⟨s.registrations, [], (List.append_nil _).symm, has, given has, ?_, .inl rfl⟩
    intro i event handler done
    exact added done
  · simp only [not_forall, not_not] at told
    obtain ⟨i, event, handler, rest, spreads, inside⟩ := told
    obtain ⟨-, old, last, less⟩ := heard.behind i event handler rest spreads
    have has := less n inside w found
    refine ⟨old, _, last, has, given has, ?_, .inr ⟨i, event, handler, rest, rfl, spreads, inside⟩⟩
    intro j event' handler' done
    have there := added done
    rw [last] at there
    rcases List.mem_append.mp there with earlier | other
    · exact earlier
    · obtain ⟨rfl, -⟩ := Prod.mk.inj (List.mem_singleton.mp other)
      rw [done] at spreads
      cases spreads

/-- A handler is added before a workspace is started, and another one while its first server is
dead. The workspace that replaces it has both. -/
theorem informed_latecomers : ∃ (s : Lobby String) (w : Workspace), s.Informed ∧
    (w.key, 1) ∈ s.hub.roster.current ∧ s.hub.workspace? 1 = some w ∧
    s.hub.handlersAt w.board "diagnostics" = ["early", "late"] := by
  have begun := @reachable_registered String 1 2000 ["rs"] ⟨"server", [], [], none⟩
  obtain ⟨s₁, reach₁, hub₁, free₁, -, rest₁⟩ :=
    begun.more (run_addHandler (i := 0) "diagnostics" "early" rfl rfl)
  obtain ⟨s₂, reach₂, hub₂, free₂, -, rest₂⟩ := reach₁.more
    (run_workspaceFor (i := 1) (fun _ => some .start) "rs" "/w" (rest₁ 1 (by decide)) free₁)
  have there : s₂.hub.isAlive 0 = true := by
    rw [hub₂, hub₁]
    rfl
  have absent : s₂.phase 2 = .absent := by
    rw [rest₂ 2 (by decide), rest₁ 2 (by decide)]
    rfl
  obtain ⟨s₃, reach₃, hub₃, free₃, -, rest₃⟩ := (reach₂.outside (.died there)).more
    (run_addHandler (i := 2) "diagnostics" "late" absent free₂)
  have absent' : s₃.phase 3 = .absent := by
    rw [rest₃ 3 (by decide)]
    exact (rest₂ 3 (by decide)).trans (rest₁ 3 (by decide))
  obtain ⟨s₄, reach₄, hub₄, -⟩ := reach₃.more
    (run_workspaceFor (i := 3) (fun _ => some .start) "rs" "/w" absent' free₃)
  refine ⟨s₄, .start ⟨"/w", "server"⟩ ⟨"server", [], [], none⟩ 2 3 1,
    informed_of_reachable reach₄, ?_, ?_, ?_⟩
  · rw [hub₄, hub₃, hub₂, hub₁]
    exact List.mem_singleton_self _
  · rw [hub₄, hub₃, hub₂, hub₁]
    rfl
  · rw [hub₄, hub₃, hub₂, hub₁]
    rfl

end Lobby

end Hub

end EditorBridge
