import EditorBridge.Hub.Roster
import EditorBridge.Proofs.Hub.Requests

/-!
# What the functions of the hub leave alone

Most functions of the hub touch one channel, one workspace or one set of subscriptions. `Works` says
what is left alone by everything that goes on over channels: who the channels belong to, who has
subscribed, the workspaces and the roster. No server that is gone comes back.
-/

namespace EditorBridge

namespace Channel

theorem isAlive_carryOut (c : Channel) (e : Effect) : (c.carryOut e).isAlive = c.isAlive := by
  cases e with
  | greeted ticket result => exact isAlive_write { c with noted := .ready } thanks.toJson
  | written message => exact isAlive_write c message.toJson
  | _ => rfl

theorem isAlive_foldl_carryOut (effects : List Effect) (c : Channel) :
    (effects.foldl carryOut c).isAlive = c.isAlive := by
  induction effects generalizing c with
  | nil => rfl
  | cons e effects ih => rw [List.foldl_cons, ih, isAlive_carryOut]

theorem isAlive_arrive_frame (c : Channel) (value : Json) :
    (c.arrive (.frame value)).1.isAlive = c.isAlive :=
  (isAlive_foldl_carryOut _ _).trans rfl

theorem isAlive_arrive_ended (c : Channel) : (c.arrive .ended).1.isAlive = false :=
  (isAlive_foldl_carryOut _ _).trans rfl

/-- Nothing that arrives brings a server back. -/
theorem isAlive_of_arrive {c : Channel} {a : Arrival} (there : (c.arrive a).1.isAlive = true) :
    c.isAlive = true := by
  cases a with
  | frame value => exact (isAlive_arrive_frame c value).symm.trans there
  | ended => exact absurd there (by simp [isAlive_arrive_ended])

theorem isAlive_greet (c : Channel) (processId : Nat) (root : String) (ticket : Nat) :
    (c.greet processId root ticket).1.isAlive = c.isAlive :=
  isAlive_write (c.order (.awaitHandshake ticket)).1 _

theorem isAlive_of_written {c : Channel} {message : Json} (written : (c.write message).2 = true) :
    c.isAlive = true := by
  cases there : c.isAlive with
  | true => rfl
  | false =>
      rw [write_of_not_alive there] at written
      cases written

theorem isAlive_of_greet (c : Channel) {processId ticket : Nat} {root : String}
    (written : (c.greet processId root ticket).2.2 = true) : c.isAlive = true :=
  isAlive_of_written (c := (c.order (.awaitHandshake ticket)).1) written

/-- The server at the end of a channel is gone, and nobody has read the end of its stream yet. -/
def vanish (c : Channel) : Channel :=
  { c with outlet := { c.outlet with isAlive := false } }

end Channel

namespace Hub

variable {η : Type} {h h' h'' : Hub η}

/-- What each channel was started for, and the subscriptions to its events. -/
def stamps (h : Hub η) : List (Launch × Nat) :=
  h.links.map fun link => (link.launch, link.board)

/-- The subscriptions to the events of a channel. -/
def boardOf? (h : Hub η) (c : Nat) : Option Nat :=
  (h.stamps[c]?).map Prod.snd

/-- The tables of all sets of subscriptions. -/
def tables (h : Hub η) : List (List (String × List (Subscription η))) :=
  h.boards.map Subscriptions.byEvent

/-- The server at the end of a channel is gone. -/
def vanish (h : Hub η) (n : Nat) : Hub η :=
  (h.onChannel n () fun c => (c.vanish, [], ())).1

theorem length_stamps (h : Hub η) : h.stamps.length = h.links.length :=
  List.length_map _

theorem length_tables (h : Hub η) : h.tables.length = h.boards.length :=
  List.length_map _

theorem lt_of_isAlive {c : Nat} (there : h.isAlive c = true) : c < h.links.length := by
  rw [isAlive, channel?] at there
  refine Nat.lt_of_not_le fun beyond => ?_
  rw [List.getElem?_eq_none beyond] at there
  cases there

/-! ### Work on channels -/

/-- What work on channels leaves alone. -/
structure Works (h h' : Hub η) : Prop where
  roster : h'.roster = h.roster
  workspaces : h'.workspaces = h.workspaces
  stamps : h'.stamps = h.stamps
  tables : h'.tables = h.tables
  alive : ∀ c, h'.isAlive c = true → h.isAlive c = true

theorem Works.refl (h : Hub η) : h.Works h :=
  ⟨rfl, rfl, rfl, rfl, fun _ there => there⟩

theorem Works.trans (first : h.Works h') (second : h'.Works h'') : h.Works h'' := by
  refine ⟨?_, ?_, ?_, ?_, ?_⟩
  · exact second.roster.trans first.roster
  · exact second.workspaces.trans first.workspaces
  · exact second.stamps.trans first.stamps
  · exact second.tables.trans first.tables
  · intro c there
    exact first.alive c (second.alive c there)

theorem dispatch_of_found {board : Nat} {s : Subscriptions η} (e : Event)
    (found : h.boards[board]? = some s) :
    ∃ s' : Subscriptions η, s'.byEvent = s.byEvent ∧ h.dispatch board e =
      { h with
        boards := h.boards.set board s'
        calls := h.calls ++ (s.handlers e.name).map fun handler => (handler, e) } := by
  have called : ∀ (handlers : List η) (state : Subscriptions η × List (η × Event)),
      handlers.foldl (fun state handler => (state.1, state.2 ++ [(handler, e)])) state =
        (state.1, state.2 ++ handlers.map fun handler => (handler, e)) := by
    intro handlers
    induction handlers with
    | nil => intro state; simp
    | cons handler handlers ih => intro state; simp [ih]
  rw [dispatch, found]
  dsimp only [Subscriptions.dispatch]
  cases s.handlers e.name with
  | nil => exact ⟨s.store e, rfl, by simp⟩
  | cons handler handlers => exact ⟨s, rfl, by simp only [called]⟩

theorem map_set_of_same {α β : Type} {f : α → β} {xs : List α} {n : Nat} {x y : α}
    (found : xs[n]? = some x) (same : f y = f x) : (xs.set n y).map f = xs.map f := by
  refine List.ext_getElem? fun i => ?_
  rw [List.getElem?_map, List.getElem?_map, List.getElem?_set]
  split
  · next here =>
      subst here
      split
      · simp [found, same]
      · next beyond => simp [List.getElem?_eq_none (Nat.le_of_not_lt beyond)]
  · rfl

theorem works_dispatch (h : Hub η) (board : Nat) (e : Event) : h.Works (h.dispatch board e) := by
  cases found : h.boards[board]? with
  | none =>
      rw [dispatch, found]
      exact .refl h
  | some s =>
      obtain ⟨s', same, result⟩ := dispatch_of_found e found
      rw [result]
      exact ⟨rfl, rfl, rfl, map_set_of_same found same, fun _ there => there⟩

theorem works_note (board : Nat) (h : Hub η) (e : Channel.Effect) : h.Works (note board h e) := by
  cases e with
  | raised e => exact works_dispatch h board e
  | replied ticket reply => exact ⟨rfl, rfl, rfl, rfl, fun _ there => there⟩
  | released ticket => exact ⟨rfl, rfl, rfl, rfl, fun _ there => there⟩
  | _ => exact .refl h

theorem works_foldl_note (board : Nat) (effects : List Channel.Effect) (h : Hub η) :
    h.Works (effects.foldl (note board) h) := by
  induction effects generalizing h with
  | nil => exact .refl h
  | cons e effects ih => exact (works_note board h e).trans (ih _)

theorem isAlive_of_links (links : h'.links = h.links) (c : Nat) : h'.isAlive c = h.isAlive c := by
  rw [isAlive, isAlive, channel?, channel?, links]

theorem stamps_setChannel (h : Hub η) (n : Nat) (c : Channel) :
    (h.setChannel n c).stamps = h.stamps := by
  refine List.ext_getElem? fun i => ?_
  rw [stamps, stamps, List.getElem?_map, List.getElem?_map, setChannel, List.getElem?_modify]
  cases h.links[i]? with
  | none => split <;> rfl
  | some link => split <;> rfl

/-- What a channel does leaves the others as they are. -/
theorem channel?_onChannel {α : Type} (n : Nat) (otherwise : α)
    (act : Channel → Channel × List Channel.Effect × α) (c : Nat) :
    (h.onChannel n otherwise act).1.channel? c =
      if n = c then (h.channel? n).map (fun channel => (act channel).1) else h.channel? c := by
  cases found : h.links[n]? with
  | none =>
      have result : (h.onChannel n otherwise act).1 = h := by rw [onChannel, found]
      rw [result, channel?, channel?, found]
      split
      · next here => rw [← here, found]; rfl
      · rfl
  | some link =>
      rw [channel?, (onChannel_frame otherwise act found).1, setChannel, List.getElem?_modify,
        channel?, channel?, found]
      split
      · next here => rw [← here, found]; rfl
      · rw [Option.map_eq_map, Option.map_id']

theorem channel?_onChannel_of_ne {α : Type} {m n : Nat} (other : m ≠ n) (otherwise : α)
    (act : Channel → Channel × List Channel.Effect × α) :
    (h.onChannel m otherwise act).1.channel? n = h.channel? n := by
  rw [channel?_onChannel, if_neg other]

/-- What a channel does decides whether its server is still there, and nothing about any other. -/
theorem isAlive_onChannel {α : Type} (n : Nat) (otherwise : α)
    (act : Channel → Channel × List Channel.Effect × α) (c : Nat) :
    (h.onChannel n otherwise act).1.isAlive c =
      if n = c then (h.channel? n).any (fun channel => (act channel).1.isAlive)
      else h.isAlive c := by
  rw [isAlive, channel?_onChannel]
  split
  · exact Option.any_map
  · rfl

theorem works_onChannel {α : Type} (n : Nat) (otherwise : α)
    {act : Channel → Channel × List Channel.Effect × α}
    (keeps : ∀ c : Channel, (act c).1.isAlive = true → c.isAlive = true) :
    h.Works (h.onChannel n otherwise act).1 := by
  cases found : h.links[n]? with
  | none =>
      rw [onChannel, found]
      exact .refl h
  | some link =>
      have noted := works_foldl_note link.board (act link.channel).2.1
        (h.setChannel n (act link.channel).1)
      have stamps := stamps_setChannel h n (act link.channel).1
      have result : (h.onChannel n otherwise act).1 =
          (act link.channel).2.1.foldl (note link.board)
            (h.setChannel n (act link.channel).1) := by
        rw [onChannel, found]
      refine ⟨?_, ?_, ?_, ?_, ?_⟩
      · rw [result]; exact noted.roster
      · rw [result]; exact noted.workspaces
      · rw [result]; exact noted.stamps.trans stamps
      · rw [result]; exact noted.tables
      · intro c there
        rw [isAlive_onChannel] at there
        split at there
        · next here =>
            rw [channel?, found] at there
            rw [← here, isAlive, channel?, found]
            exact keeps link.channel there
        · exact there

theorem works_arrive (h : Hub η) (n : Nat) (a : Channel.Arrival) : h.Works (h.arrive n a) :=
  works_onChannel n () fun _ there => Channel.isAlive_of_arrive there

theorem works_vanish (h : Hub η) (n : Nat) : h.Works (h.vanish n) :=
  works_onChannel n () fun _ there => absurd there (by simp [Channel.vanish, Channel.isAlive])

theorem works_stopChannel (h : Hub η) (n : Nat) : h.Works (h.stopChannel n) :=
  works_onChannel n () fun _ there => absurd there (by simp [Channel.stop, Channel.isAlive])

theorem works_shutdownChannel (h : Hub η) (n : Nat) : h.Works (h.shutdownChannel n) :=
  works_onChannel n () fun _ there =>
    absurd there (by simp [Channel.shutdown, Channel.stop, Channel.isAlive])

/-- A channel that ends whatever it does leaves the others as they are. -/
theorem isAlive_onChannel_ending {α : Type} {n : Nat} {otherwise : α}
    {act : Channel → Channel × List Channel.Effect × α}
    (ends : ∀ c : Channel, (act c).1.isAlive = false) (c : Nat) :
    (h.onChannel n otherwise act).1.isAlive c = (h.isAlive c && n != c) := by
  rw [isAlive_onChannel]
  by_cases here : n = c
  · rw [if_pos here, here, bne_self_eq_false, Bool.and_false]
    cases h.channel? c with
    | none => rfl
    | some channel => exact ends channel
  · rw [if_neg here, bne_iff_ne.mpr here, Bool.and_true]

theorem isAlive_vanish (h : Hub η) (n c : Nat) :
    (h.vanish n).isAlive c = (h.isAlive c && n != c) :=
  isAlive_onChannel_ending (fun _ => rfl) c

theorem isAlive_stopChannel (h : Hub η) (n c : Nat) :
    (h.stopChannel n).isAlive c = (h.isAlive c && n != c) :=
  isAlive_onChannel_ending (fun _ => rfl) c

theorem isAlive_shutdownChannel (h : Hub η) (n c : Nat) :
    (h.shutdownChannel n).isAlive c = (h.isAlive c && n != c) :=
  isAlive_onChannel_ending (fun _ => rfl) c

theorem isAlive_arrive_ended (h : Hub η) (n c : Nat) :
    (h.arrive n .ended).isAlive c = (h.isAlive c && n != c) :=
  isAlive_onChannel_ending Channel.isAlive_arrive_ended c

/-! ### Starting -/

/-- What the start of a channel leaves alone. -/
structure Hires (h h' : Hub η) (more : List (Launch × Nat)) : Prop where
  roster : h'.roster = h.roster
  workspaces : h'.workspaces = h.workspaces
  stamps : h'.stamps = h.stamps ++ more
  tables : h'.tables = h.tables

/-- The hub with one more channel. -/
def extend (h : Hub η) (link : Link) : Hub η :=
  { h with links := h.links ++ [link], nextTicket := h.nextTicket + 1 }

theorem hires_extend (h : Hub η) (link : Link) :
    h.Hires (h.extend link) [(link.launch, link.board)] :=
  ⟨rfl, rfl, List.map_append, rfl⟩

theorem Hires.works {more : List (Launch × Nat)} (hires : h.Hires h' more) (works : h'.Works h'') :
    h.Hires h'' more :=
  ⟨works.roster.trans hires.roster, works.workspaces.trans hires.workspaces,
    works.stamps.trans hires.stamps, works.tables.trans hires.tables⟩

theorem Hires.trans {more later : List (Launch × Nat)} (first : h.Hires h' more)
    (second : h'.Hires h'' later) : h.Hires h'' (more ++ later) := by
  refine ⟨second.roster.trans first.roster, second.workspaces.trans first.workspaces, ?_,
    second.tables.trans first.tables⟩
  rw [second.stamps, first.stamps, List.append_assoc]

theorem channel?_extend (h : Hub η) (link : Link) (c : Nat) :
    (h.extend link).channel? c =
      if h.links.length = c then some link.channel else h.channel? c := by
  rw [channel?, extend]
  split
  · next here => rw [← here, List.getElem?_concat_length]; rfl
  · next apart =>
      by_cases old : c < h.links.length
      · rw [List.getElem?_append_left old, channel?]
      · have beyond : h.links.length < c := Nat.lt_of_le_of_ne (Nat.le_of_not_lt old) apart
        rw [channel?, List.getElem?_eq_none (Nat.le_of_not_lt old),
          List.getElem?_eq_none (by rw [List.length_append]; exact beyond)]

theorem isAlive_extend (h : Hub η) (link : Link) (c : Nat) :
    (h.extend link).isAlive c =
      if h.links.length = c then link.channel.isAlive else h.isAlive c := by
  rw [isAlive, channel?_extend]
  split <;> rfl

variable {launch : Launch → Option Channel.Outlet} {spec : ServerSpec} {root : String}
  {board n : Nat}

/-- A channel is there and its handshake has been started; says whether it was written. -/
def hire (h : Hub η) (spec : ServerSpec) (root : String) (board : Nat) (outlet : Channel.Outlet) :
    Hub η × Bool :=
  (h.extend ⟨⟨h.links.length, spec, root⟩, board, .start outlet⟩).onChannel h.links.length false
    fun c => c.greet h.processId root h.nextTicket

theorem startChannel_eq (h : Hub η) (launch : Launch → Option Channel.Outlet) (spec : ServerSpec)
    (root : String) (board : Nat) :
    h.startChannel launch spec root board =
      match launch ⟨h.links.length, spec, root⟩ with
      | none => (h, none)
      | some outlet =>
          match h.hire spec root board outlet with
          | (h', true) => (h', some h.links.length)
          | (h', false) => (h'.stopChannel h.links.length, none) := by
  rw [startChannel]
  cases launch ⟨h.links.length, spec, root⟩ <;> rfl

theorem hires_hire (h : Hub η) (spec : ServerSpec) (root : String) (board : Nat)
    (outlet : Channel.Outlet) :
    h.Hires (h.hire spec root board outlet).1 [(⟨h.links.length, spec, root⟩, board)] := by
  refine (hires_extend h ⟨_, board, .start outlet⟩).works (works_onChannel _ _ ?_)
  intro c there
  exact (c.isAlive_greet _ _ _).symm.trans there

theorem isAlive_hire (h : Hub η) (spec : ServerSpec) (root : String) (board : Nat)
    (outlet : Channel.Outlet) (c : Nat) :
    (h.hire spec root board outlet).1.isAlive c =
      if h.links.length = c then outlet.isAlive else h.isAlive c := by
  rw [hire, isAlive_onChannel, channel?, isAlive_extend]
  split
  · rw [extend, List.getElem?_concat_length]
    exact Channel.isAlive_greet _ _ _ _
  · rfl

theorem isAlive_of_hire {outlet : Channel.Outlet}
    (written : (h.hire spec root board outlet).2 = true) : outlet.isAlive = true := by
  rw [hire, onChannel, extend, List.getElem?_concat_length] at written
  exact (Channel.start outlet).isAlive_of_greet written

/-- A channel that is started has the next number, and its server is there. -/
theorem startChannel_some (started : h.startChannel launch spec root board = (h', some n)) :
    n = h.links.length ∧ h.Hires h' [(⟨n, spec, root⟩, board)] ∧
      ∀ c, h'.isAlive c = if n = c then true else h.isAlive c := by
  rw [startChannel_eq] at started
  cases launched : launch ⟨h.links.length, spec, root⟩ with
  | none => rw [launched] at started; cases started
  | some outlet =>
      rw [launched] at started
      have hires := hires_hire h spec root board outlet
      have alive := isAlive_hire h spec root board outlet
      have there := @isAlive_of_hire η h spec root board outlet
      dsimp only at started
      rcases form : h.hire spec root board outlet with ⟨h₁, written⟩
      rw [form] at started hires alive there
      cases written with
      | false => cases started
      | true =>
          obtain ⟨rfl, same⟩ := Prod.mk.inj started
          obtain rfl := Option.some.inj same
          refine ⟨rfl, hires, ?_⟩
          intro c
          rw [alive, there rfl]

/-- A channel that is not started may leave a number behind, but no server. -/
theorem startChannel_none (failed : h.startChannel launch spec root board = (h', none)) :
    (∃ more, h.Hires h' more ∧
        ∀ stamp ∈ more, stamp.1.spec = spec ∧ stamp.1.root = root ∧ stamp.2 = board) ∧
      ∀ c, h'.isAlive c = h.isAlive c := by
  rw [startChannel_eq] at failed
  cases launched : launch ⟨h.links.length, spec, root⟩ with
  | none =>
      rw [launched] at failed
      obtain ⟨rfl, -⟩ := Prod.mk.inj failed
      exact ⟨⟨[], ⟨rfl, rfl, (List.append_nil _).symm, rfl⟩, nofun⟩, fun _ => rfl⟩
  | some outlet =>
      rw [launched] at failed
      have hires := hires_hire h spec root board outlet
      have alive := isAlive_hire h spec root board outlet
      dsimp only at failed
      rcases form : h.hire spec root board outlet with ⟨h₁, written⟩
      rw [form] at failed hires alive
      cases written with
      | true => cases failed
      | false =>
          obtain ⟨rfl, -⟩ := Prod.mk.inj failed
          refine ⟨⟨_, hires.works (works_stopChannel _ _), ?_⟩, ?_⟩
          · intro stamp inside
            rw [List.mem_singleton.mp inside]
            exact ⟨rfl, rfl, rfl⟩
          · intro c
            rw [isAlive_stopChannel, alive]
            by_cases here : h.links.length = c
            · rw [here, bne_self_eq_false, Bool.and_false]
              cases there : h.isAlive c with
              | false => rfl
              | true => exact absurd (lt_of_isAlive there) (here ▸ Nat.lt_irrefl _)
            · rw [if_neg here, bne_iff_ne.mpr here, Bool.and_true]

/-- To start a server leaves the channels to the others as they are. -/
theorem channel?_startChannel {result : Option Nat}
    (done : h.startChannel launch spec root board = (h', result)) (old : n < h.links.length) :
    h'.channel? n = h.channel? n := by
  have other : h.links.length ≠ n := Nat.ne_of_gt old
  have hired (outlet : Channel.Outlet) :
      (h.hire spec root board outlet).1.channel? n = h.channel? n := by
    rw [hire, channel?_onChannel_of_ne other, channel?_extend, if_neg other]
  rw [startChannel_eq] at done
  cases launched : launch ⟨h.links.length, spec, root⟩ with
  | none =>
      rw [launched] at done
      rw [← (Prod.mk.inj done).1]
  | some outlet =>
      have before := hired outlet
      rw [launched] at done
      dsimp only at done
      rcases form : h.hire spec root board outlet with ⟨h₁, _ | _⟩
      all_goals
        rw [form] at before done
        rw [← (Prod.mk.inj done).1]
      · exact (channel?_onChannel_of_ne other () _).trans before
      · exact before

/-- Whether a channel is started or not: what may be new is for the same server, and no other server
comes or goes. -/
theorem startChannel_hires {result : Option Nat}
    (done : h.startChannel launch spec root board = (h', result)) :
    ∃ more, h.Hires h' more ∧
      (∀ stamp ∈ more, stamp.1.spec = spec ∧ stamp.1.root = root ∧ stamp.2 = board) ∧
      ∀ c < h.links.length, h'.isAlive c = h.isAlive c := by
  cases result with
  | none =>
      obtain ⟨⟨more, hires, alike⟩, alive⟩ := startChannel_none done
      exact ⟨more, hires, alike, fun c _ => alive c⟩
  | some c =>
      obtain ⟨rfl, hires, alive⟩ := startChannel_some done
      refine ⟨_, hires, ?_, ?_⟩
      · intro stamp only
        rw [List.mem_singleton.mp only]
        exact ⟨rfl, rfl, rfl⟩
      · intro c old
        rw [alive, if_neg (Nat.ne_of_gt old)]

end Hub

end EditorBridge
