import EditorBridge.Proofs.Hub.Lobby

/-!
# The lock of the hub

What always holds while visitors come and go (`Lobby.Orderly`): the hub is in good order, a visitor
that needs the lock holds it, and what a visitor believes of the hub is so (`Visit.Fits`). Only the
visitor that holds the lock makes anything new; for all others the hub does no more than fade.
-/

namespace EditorBridge.Hub

open Workspace (Key)

variable {η : Type}

namespace Visit

/-- Whether a visitor that has come so far holds the lock. -/
def isInside : Visit η → Bool
  | clearing .. | starting .. | pairing .. | entering .. | spreading .. => true
  | _ => false

/-- What a visitor is about to start a workspace for. -/
def room? : Visit η → Option Key
  | clearing key .. | starting key .. | pairing key .. | entering key .. => some key
  | _ => none

/-- The subscriptions of the workspace that a visitor starts, and the servers that it has started
for it. -/
def site? : Visit η → Option (Nat × List Nat)
  | starting _ _ board => some (board, [])
  | pairing _ _ board primary => some (board, [primary])
  | entering _ _ board primary worker => some (board, [primary, worker])
  | _ => none

/-- The first server that a visitor has started, and what for. -/
def raising? : Visit η → Option (Key × Nat)
  | pairing key _ _ primary | entering key _ _ primary _ => some (key, primary)
  | _ => none

/-- What a visitor still has to do for workspaces that are shut down. -/
def chores : Visit η → List Chore
  | clearing _ _ chores | closing chores => chores
  | _ => []

/-- What a visitor still has to do for the workspace that it replaces. -/
def clearance : Visit η → List Chore
  | clearing _ _ chores => chores
  | _ => []

/-- What a visitor may rely on. -/
structure Fits (v : Visit η) (h : Hub η) : Prop where
  vacant : ∀ key, v.room? = some key → h.roster.find? key = none
  site : ∀ board crew, v.site? = some (board, crew) → h.Site board crew
  chores : ∀ chore ∈ v.chores, chore.workspace < h.workspaces.length ∧
    ∀ key, (key, chore.workspace) ∉ h.roster.current

variable {v : Visit η} {h h' : Hub η}

theorem fits_of_idle (room : v.room? = none) (site : v.site? = none) (chores : v.chores = []) :
    v.Fits h := by
  refine ⟨?_, ?_, ?_⟩
  · rw [room]; nofun
  · rw [site]; nofun
  · rw [chores]; nofun

theorem isInside_of_room? {key : Key} (room : v.room? = some key) : v.isInside = true := by
  cases v <;> first | rfl | cases room

theorem isInside_of_site? {site : Nat × List Nat} (has : v.site? = some site) :
    v.isInside = true := by
  cases v <;> first | rfl | cases has

/-- A visitor that shuts down what it replaces has the lock, and no site yet. -/
theorem isInside_of_clearance {chore : Chore} (due : chore ∈ v.clearance) :
    v.isInside = true ∧ v.site? = none := by
  cases v <;> first | exact ⟨rfl, rfl⟩ | cases due

/-- The first server that a visitor has started is on its site. -/
theorem site?_of_raising? {key : Key} {p : Nat} (raising : v.raising? = some (key, p)) :
    v.room? = some key ∧ ∃ board crew, v.site? = some (board, crew) ∧ p ∈ crew := by
  cases v with
  | pairing key' spec board primary =>
      obtain ⟨rfl, rfl⟩ := Prod.mk.inj (Option.some.inj raising)
      exact ⟨rfl, board, [primary], rfl, List.mem_singleton_self _⟩
  | entering key' spec board primary worker =>
      obtain ⟨rfl, rfl⟩ := Prod.mk.inj (Option.some.inj raising)
      exact ⟨rfl, board, [primary, worker], rfl, List.mem_cons_self⟩
  | _ => cases raising

/-- What a visitor relies on is so as long as nothing is new. -/
theorem Fits.fades (fits : v.Fits h) (fades : h.Fades h') : v.Fits h' := by
  refine ⟨?_, ?_, ?_⟩
  · intro key room
    exact fades.vacant (fits.vacant key room)
  · intro board crew site
    exact (fits.site board crew site).fades fades
  · intro chore inside
    obtain ⟨known, off⟩ := fits.chores chore inside
    exact ⟨fades.count ▸ known, fun key listed => off key (fades.roster.subset listed)⟩

/-- What a visitor without the lock relies on is always so. -/
theorem Fits.ages (fits : v.Fits h) (outside : v.isInside = false) (ages : h.Ages h') :
    v.Fits h' := by
  refine ⟨?_, ?_, ?_⟩
  · intro key room
    rw [isInside_of_room? room] at outside
    cases outside
  · intro board crew site
    rw [isInside_of_site? site] at outside
    cases outside
  · intro chore inside
    obtain ⟨known, off⟩ := fits.chores chore inside
    refine ⟨Nat.lt_of_lt_of_le known ages.count, ?_⟩
    intro key listed
    rcases ages.roster _ listed with old | new
    · exact off key old
    · exact Nat.not_lt_of_le new known

end Visit

theorem Chore.fades (chore : Chore) (h : Hub η) : h.Fades (chore.perform h) := by
  cases chore with
  | halt n => exact fades_stopWorker h n
  | leave n => exact (works_leave h n).fades

theorem Chore.tables (chore : Chore) (h : Hub η) : (chore.perform h).tables = h.tables := by
  cases chore with
  | halt n => exact (stopWorker_frame h n).2.2.1
  | leave n => exact (works_leave h n).tables

variable {h h' : Hub η} {key : Key} {n : Nat}

/-- A workspace that is taken off the roster stands on it no more. -/
theorem Sound.off_strike (sound : h.Sound) (listed : h.roster.find? key = some n) (k : Key) :
    (k, n) ∉ (h.roster.strike key).current := by
  intro still
  obtain ⟨old, other⟩ := Roster.mem_strike.mp still
  obtain ⟨l, same, inside⟩ := Roster.mem_of_find? listed
  obtain ⟨w, found, rfl⟩ := sound.listed l n inside
  obtain ⟨v, found', rfl⟩ := sound.listed k n old
  obtain rfl := Option.some.inj (found.symm.trans found')
  rw [same] at other
  cases other

theorem Sound.lt_of_listed (sound : h.Sound) (listed : (key, n) ∈ h.roster.current) :
    n < h.workspaces.length := by
  obtain ⟨w, found, -⟩ := sound.listed key n listed
  exact lt_of_workspace? found

theorem fades_strike (h : Hub η) (key : Key) :
    h.Fades { h with roster := h.roster.strike key } :=
  fades_roster List.filter_sublist

theorem workspace_of_mem_all {chore : Chore} (inside : chore ∈ Chore.all n) :
    chore.workspace = n := by
  rcases List.mem_cons.mp inside with rfl | other
  · rfl
  · rw [List.mem_singleton.mp other]
    rfl

/-- What is to be done for a workspace that is taken off the roster. -/
theorem Sound.chores_strike (sound : h.Sound) (listed : h.roster.find? key = some n)
    {chore : Chore} (inside : chore ∈ Chore.all n) :
    chore.workspace < h.workspaces.length ∧
      ∀ k, (k, chore.workspace) ∉ (h.roster.strike key).current := by
  obtain ⟨k, -, there⟩ := Roster.mem_of_find? listed
  rw [workspace_of_mem_all inside]
  exact ⟨sound.lt_of_listed there, sound.off_strike listed⟩

theorem mem_chores {all : List Nat} {chore : Chore} (inside : chore ∈ all.flatMap Chore.all) :
    chore.workspace ∈ all := by
  obtain ⟨n, there, one⟩ := List.mem_flatMap.mp inside
  exact workspace_of_mem_all one ▸ there

namespace Turn

variable {i : Nat} {o o' : Option Nat} {v v' : Visit η} {deeds : List (Deed η)}

/-- Whoever has not the lock and does not take it makes nothing new. -/
theorem alone (turn : Turn i h o v h' o' v' deeds) :
    h.Fades h' ∧ h'.tables = h.tables ∧ o' = o ∨ o = none ∨ o = some i := by
  cases turn with
  | unknown => exact .inl ⟨.refl h, rfl, rfl⟩
  | known => exact .inl ⟨.refl h, rfl, rfl⟩
  | close chore => exact .inl ⟨chore.fades h, chore.tables h, rfl⟩
  | closed => exact .inl ⟨.refl h, rfl, rfl⟩
  | found => exact .inr (.inl rfl)
  | missed => exact .inr (.inl rfl)
  | vacant => exact .inr (.inl rfl)
  | struck => exact .inr (.inl rfl)
  | unlisted => exact .inr (.inl rfl)
  | emptied => exact .inr (.inl rfl)
  | offer => exact .inr (.inl rfl)
  | _ => exact .inr (.inr rfl)

theorem inside (turn : Turn i h o v h' o' v' deeds) (needs : v'.isInside = true) :
    o' = some i := by
  cases turn <;> first | rfl | cases needs

/-- A server that a visitor starts for its site. -/
theorem sound_startChannel {launch : Launch → Option Channel.Outlet} {spec : ServerSpec}
    {root : String} {board : Nat} {crew : List Nat} {result : Option Nat} (sound : h.Sound)
    (site : h.Site board crew) (done : h.startChannel launch spec root board = (h', result)) :
    h'.Sound ∧ h.Ages h' := by
  obtain ⟨more, hires, alike, alive⟩ := startChannel_hires done
  have still : ∀ c < h.links.length, h'.isAlive c = true → h.isAlive c = true :=
    fun c old there => (alive c old).symm.trans there
  have boards : ∀ stamp ∈ more, stamp.2 = board := fun stamp new => (alike stamp new).2.2
  exact ⟨sound.hires site hires boards still, hires.ages still⟩

theorem trans_works {h'' : Hub η} (before : h'.Sound ∧ h.Ages h') (works : h'.Works h'') :
    h''.Sound ∧ h.Ages h'' := by
  have fades := works.fades
  refine ⟨before.1.fades fades, ?_, ?_, ?_, ?_, ?_, ?_⟩
  · intro entry listed
    exact before.2.roster entry (works.roster ▸ listed)
  · exact works.stamps ▸ before.2.stamps
  · exact fades.boards ▸ before.2.boards
  · intro c old there
    exact before.2.alive c old (works.alive c there)
  · exact fades.count ▸ before.2.count
  · intro n w found
    rw [workspace?, works.workspaces]
    exact before.2.workspaces n w found

/-- The hub stays in good order whatever a visitor does. -/
theorem sound_ages (turn : Turn i h o v h' o' v' deeds) (sound : h.Sound) (fits : v.Fits h) :
    h'.Sound ∧ h.Ages h' := by
  have fading {h' : Hub η} (fades : h.Fades h') : h'.Sound ∧ h.Ages h' :=
    ⟨sound.fades fades, fades.ages⟩
  cases turn with
  | missed => exact fading (fades_strike h _)
  | vacant => exact ⟨sound.openBoard, ages_openBoard h⟩
  | clear chore => exact fading (chore.fades h)
  | cleared => exact ⟨sound.openBoard, ages_openBoard h⟩
  | started launch done => exact sound_startChannel sound (fits.site _ _ rfl) done
  | failed launch done => exact sound_startChannel sound (fits.site _ _ rfl) done
  | paired launch done => exact sound_startChannel sound (fits.site _ _ rfl) done
  | unpaired launch done =>
      exact trans_works (sound_startChannel sound (fits.site _ _ rfl) done)
        (works_stopChannel _ _)
  | entered => exact ⟨sound.enlist (fits.site _ _ rfl) (fits.vacant _ rfl), ages_enlist h _ _ _ _ _⟩
  | struck => exact fading (fades_strike h _)
  | emptied => exact fading (fades_roster (List.nil_sublist _))
  | close chore => exact fading (chore.fades h)
  | offer => exact fading (fades_roster (List.Sublist.refl _))
  | spread n => exact fading (fades_subscribeTo h _ _ n)
  | _ => exact fading (.refl h)

/-- What a visitor relies on when it has moved. -/
theorem fits (turn : Turn i h o v h' o' v' deeds) (sound : h.Sound) (fits : v.Fits h) :
    v'.Fits h' := by
  cases turn with
  | missed listed =>
      refine ⟨?_, nofun, fun chore inside => sound.chores_strike listed inside⟩
      intro k room
      obtain rfl := Option.some.inj room
      exact h.roster.find?_strike _
  | vacant unlisted =>
      refine ⟨?_, ?_, nofun⟩
      · intro k room
        obtain rfl := Option.some.inj room
        exact unlisted
      · intro board crew site
        obtain ⟨rfl, rfl⟩ := Prod.mk.inj (Option.some.inj site)
        exact sound.site
  | clear chore rest =>
      have later := fits.fades (chore.fades h)
      exact ⟨later.vacant, nofun, fun other inside => later.chores other (.tail chore inside)⟩
  | cleared =>
      refine ⟨?_, ?_, nofun⟩
      · intro k room
        exact fits.vacant k room
      · intro board crew site
        obtain ⟨rfl, rfl⟩ := Prod.mk.inj (Option.some.inj site)
        exact sound.site
  | started launch done =>
      refine ⟨?_, ?_, nofun⟩
      · intro k room
        rw [(startChannel_some done).2.1.roster]
        exact fits.vacant k room
      · intro board crew site
        obtain ⟨rfl, rfl⟩ := Prod.mk.inj (Option.some.inj site)
        exact (fits.site _ _ rfl).hires done
  | paired launch done =>
      refine ⟨?_, ?_, nofun⟩
      · intro k room
        rw [(startChannel_some done).2.1.roster]
        exact fits.vacant k room
      · intro board crew site
        obtain ⟨rfl, rfl⟩ := Prod.mk.inj (Option.some.inj site)
        exact (fits.site _ _ rfl).hires done
  | struck listed =>
      exact ⟨nofun, nofun, fun chore inside => sound.chores_strike listed inside⟩
  | emptied all order =>
      refine ⟨nofun, nofun, ?_⟩
      intro chore one
      obtain ⟨entry, inside, same⟩ := List.mem_map.mp (order.mem_iff.mp (mem_chores one))
      exact ⟨same ▸ sound.lt_of_listed inside, fun key => List.not_mem_nil⟩
  | close chore rest =>
      have later := fits.fades (chore.fades h)
      exact ⟨nofun, nofun, fun other inside => later.chores other (.tail chore inside)⟩
  | _ => exact Visit.fits_of_idle rfl rfl rfl

end Turn

theorem Outside.fades {deeds : List (Deed η)} (event : Outside h h' deeds) : h.Fades h' := by
  cases event with
  | registered exts spec => exact fades_roster (List.Sublist.refl _)
  | heard c a => exact (works_arrive h c a).fades
  | died => exact (works_vanish h _).fades
  | ended => exact (works_arrive h _ _).fades

namespace Lobby

/-- What always holds while visitors come and go. -/
structure Orderly (s : Lobby η) : Prop where
  sound : s.hub.Sound
  locked : ∀ i, (s.phase i).isInside = true → s.holder = some i
  fits : ∀ i, (s.phase i).Fits s.hub

variable {s t : Lobby η}

/-- Who has the lock has it alone. -/
theorem Orderly.alone (orderly : s.Orderly) {i j : Nat}
    (free : s.holder = none ∨ s.holder = some i) (other : j ≠ i) :
    (s.phase j).isInside = false := by
  cases inside : (s.phase j).isInside with
  | false => rfl
  | true =>
      have holds := orderly.locked j inside
      rcases free with free | mine
      · rw [free] at holds
        cases holds
      · exact absurd (Option.some.inj (holds.symm.trans mine)) other

theorem orderly_start {h : Hub η} (sound : h.Sound) : (start h).Orderly :=
  ⟨sound, nofun, fun _ => Visit.fits_of_idle rfl rfl rfl⟩

theorem orderly_step (orderly : s.Orderly) (step : Step s t) : t.Orderly := by
  cases step with
  | @visitor i hub holder visit deeds turn =>
      obtain ⟨sound, ages⟩ := turn.sound_ages orderly.sound (orderly.fits i)
      refine ⟨sound, ?_, ?_⟩
      · intro j inside
        by_cases here : j = i
        · subst here
          rw [phase_moved_self] at inside
          exact turn.inside inside
        · rw [phase_moved_of_ne here] at inside
          rcases turn.alone with ⟨-, -, same⟩ | free
          · exact same.trans (orderly.locked j inside)
          · rw [orderly.alone free here] at inside
            cases inside
      · intro j
        by_cases here : j = i
        · subst here
          rw [phase_moved_self]
          exact turn.fits orderly.sound (orderly.fits j)
        · rw [phase_moved_of_ne here]
          rcases turn.alone with ⟨fades, -⟩ | free
          · exact (orderly.fits j).fades fades
          · exact (orderly.fits j).ages (orderly.alone free here) ages
  | outside event =>
      have fades := event.fades
      exact ⟨orderly.sound.fades fades, orderly.locked, fun i => (orderly.fits i).fades fades⟩

theorem orderly_of_leads (orderly : s.Orderly) (leads : s.Leads t) : t.Orderly := by
  induction leads with
  | refl => exact orderly
  | tail _ step ih => exact orderly_step ih step

theorem orderly_of_reachable (reachable : s.Reachable) : s.Orderly := by
  obtain ⟨processId, timeout, leads⟩ := reachable
  exact orderly_of_leads (orderly_start (sound_start processId timeout)) leads

end Lobby

/-- The hub stays in good order when a workspace is looked up. -/
theorem Sound.workspaceFor (sound : h.Sound) (launch : Launch → Option Channel.Outlet)
    (ext root : String) : (h.workspaceFor launch ext root).1.Sound := by
  obtain ⟨deeds, leads⟩ :=
    Lobby.run_workspaceFor (s := Lobby.start h) (i := 0) launch ext root rfl rfl
  exact (Lobby.orderly_of_leads (Lobby.orderly_start sound) leads).sound

end EditorBridge.Hub
