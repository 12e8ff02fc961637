import EditorBridge.Proofs.Hub.Worker

/-!
# Who is hired and who is let go

The books on servers: which of them are new, which have been stopped, and which belong to a
workspace on the roster (`Housed`). Of the servers that a function of the hub starts, those that it
does not stop again are a crew (`Recruits`); it has settled its business (`Settles`) when its crew
is housed, and everybody who has lost a house has been stopped. So do all functions that start or
shut down anything, and what fails has no crew.
-/

namespace EditorBridge

namespace Channel

/-- Whether a server has been stopped. Nothing else notes that it is dead, not even that its stream
ends. -/
def isStopped (c : Channel) : Bool :=
  decide (c.noted = .dead)

theorem isStopped_of_carryOut {c : Channel} {e : Effect} (gone : (c.carryOut e).isStopped = true) :
    c.isStopped = true := by
  cases e with
  | greeted ticket result =>
      have ready : (c.carryOut (.greeted ticket result)).noted = .ready := rfl
      rw [isStopped, ready] at gone
      cases gone
  | _ => exact gone

theorem isStopped_of_arrive {c : Channel} {a : Arrival} (gone : (c.arrive a).1.isStopped = true) :
    c.isStopped = true := by
  have carried : ∀ (effects : List Effect) (c : Channel),
      (effects.foldl carryOut c).isStopped = true → c.isStopped = true := by
    intro effects
    induction effects with
    | nil => intro c gone; exact gone
    | cons e effects ih => intro c gone; exact isStopped_of_carryOut (ih _ gone)
  have before := carried _ _ gone
  exact before

end Channel

/-- Whether a channel is one of the two of a workspace. -/
def Workspace.Employs (w : Workspace) (c : Nat) : Prop :=
  c = w.primary ∨ w.worker = some c

open Workspace (Key)

namespace Hub

variable {η : Type} {h h' h'' : Hub η} {c n : Nat} {w : Workspace} {key : Key} {spec : ServerSpec}
  {crew more : List Nat} {launch : Launch → Option Channel.Outlet}

/-- Whether the server at the end of a channel has been stopped. -/
def isStopped (h : Hub η) (c : Nat) : Bool :=
  (h.channel? c).any Channel.isStopped

theorem lt_of_isStopped (gone : h.isStopped c = true) : c < h.links.length := by
  refine Nat.lt_of_not_le fun beyond => ?_
  rw [isStopped, channel?, List.getElem?_eq_none beyond] at gone
  cases gone

/-! ### Who is new -/

/-- What happens when no server that has been stopped comes back, and those that are new are a crew
or have been stopped again. -/
structure Recruits (h h' : Hub η) (crew : List Nat) : Prop where
  stopped : ∀ c, h.isStopped c = true → h'.isStopped c = true
  new : ∀ c, h.links.length ≤ c → c < h'.links.length → c ∈ crew ∨ h'.isStopped c = true

theorem recruits_of_links (same : h'.links = h.links) : h.Recruits h' [] := by
  refine ⟨?_, ?_⟩
  · intro c gone
    rw [isStopped, channel?, same]
    exact gone
  · intro c new old
    rw [same] at old
    exact absurd new (Nat.not_le_of_lt old)

theorem Recruits.trans (first : h.Recruits h' crew) (second : h'.Recruits h'' more) :
    h.Recruits h'' (crew ++ more) := by
  refine ⟨fun c gone => second.stopped c (first.stopped c gone), ?_⟩
  intro c new there
  by_cases early : c < h'.links.length
  · rcases first.new c new early with hired | gone
    · exact .inl (List.mem_append_left _ hired)
    · exact .inr (second.stopped c gone)
  · rcases second.new c (Nat.le_of_not_lt early) there with hired | gone
    · exact .inl (List.mem_append_right _ hired)
    · exact .inr gone

/-- A new server that has been stopped need not be counted. -/
theorem Recruits.dismissed (recruits : h.Recruits h' [c]) (gone : h'.isStopped c = true) :
    h.Recruits h' [] := by
  refine ⟨recruits.stopped, ?_⟩
  intro d new there
  rcases recruits.new d new there with hired | gone'
  · rw [List.mem_singleton.mp hired]
    exact .inr gone
  · exact .inr gone'

theorem Works.length_links (works : h.Works h') : h'.links.length = h.links.length := by
  rw [← length_stamps, works.stamps, length_stamps]

/-- A channel that stops its server stops no other. -/
theorem recruits_onChannel_stopping {α : Type} {otherwise : α}
    {act : Channel → Channel × List Channel.Effect × α}
    (stops : ∀ c : Channel, (act c).1.isStopped = true)
    (same : (h.onChannel n otherwise act).1.links.length = h.links.length) :
    h.Recruits (h.onChannel n otherwise act).1 [] ∧
      (n < h.links.length → (h.onChannel n otherwise act).1.isStopped n = true) := by
  have stopped : n < h.links.length → (h.onChannel n otherwise act).1.isStopped n = true := by
    intro there
    rw [isStopped, channel?_onChannel, if_pos rfl, channel?, List.getElem?_eq_getElem there]
    exact stops _
  refine ⟨⟨?_, ?_⟩, stopped⟩
  · intro c gone
    by_cases here : n = c
    · subst here
      exact stopped (lt_of_isStopped gone)
    · rw [isStopped, channel?_onChannel_of_ne here]
      exact gone
  · intro c new there
    rw [same] at there
    exact absurd new (Nat.not_le_of_lt there)

theorem recruits_stopChannel (h : Hub η) (n : Nat) : h.Recruits (h.stopChannel n) [] ∧
    (n < h.links.length → (h.stopChannel n).isStopped n = true) :=
  recruits_onChannel_stopping (fun _ => rfl) (works_stopChannel h n).length_links

theorem recruits_shutdownChannel (h : Hub η) (n : Nat) : h.Recruits (h.shutdownChannel n) [] ∧
    (n < h.links.length → (h.shutdownChannel n).isStopped n = true) :=
  recruits_onChannel_stopping (fun _ => rfl) (works_shutdownChannel h n).length_links

theorem isStopped_of_onChannel {α : Type} {otherwise : α}
    {act : Channel → Channel × List Channel.Effect × α}
    (only : ∀ c : Channel, (act c).1.isStopped = true → c.isStopped = true)
    (gone : (h.onChannel n otherwise act).1.isStopped c = true) : h.isStopped c = true := by
  rw [isStopped, channel?_onChannel] at gone
  by_cases here : n = c
  · subst here
    rw [if_pos rfl, Option.any_map] at gone
    obtain ⟨channel, found, stopped⟩ := (Option.any_eq_true ..).mp gone
    rw [isStopped, found]
    exact only channel stopped
  · rw [if_neg here] at gone
    exact gone

theorem isStopped_of_arrive {a : Channel.Arrival} (gone : (h.arrive n a).isStopped c = true) :
    h.isStopped c = true :=
  isStopped_of_onChannel (fun _ stopped => Channel.isStopped_of_arrive stopped) gone

theorem isStopped_of_vanish (gone : (h.vanish n).isStopped c = true) : h.isStopped c = true :=
  isStopped_of_onChannel (fun _ stopped => stopped) gone

/-- A start makes the server new that it gives, and none if it gives none. -/
theorem recruits_startChannel {root : String} {board : Nat} {result : Option Nat}
    (done : h.startChannel launch spec root board = (h', result)) :
    h.Recruits h' result.toList := by
  refine ⟨?_, ?_⟩
  · intro c gone
    rw [isStopped, channel?_startChannel done (lt_of_isStopped gone)]
    exact gone
  · intro c new there
    rw [startChannel_eq] at done
    cases launched : launch ⟨h.links.length, spec, root⟩ with
    | none =>
        rw [launched] at done
        obtain ⟨rfl, -⟩ := Prod.mk.inj done
        exact absurd new (Nat.not_le_of_lt there)
    | some outlet =>
        rw [launched] at done
        dsimp only at done
        have hires := hires_hire h spec root board outlet
        rcases form : h.hire spec root board outlet with ⟨h₁, written⟩
        rw [form] at hires done
        have count : h₁.links.length = h.links.length + 1 := by
          rw [← length_stamps, hires.stamps, List.length_append, length_stamps]
          rfl
        cases written with
        | true =>
            obtain ⟨rfl, rfl⟩ := Prod.mk.inj done
            have here : c = h.links.length := by omega
            exact .inl (by simp [here])
        | false =>
            obtain ⟨rfl, rfl⟩ := Prod.mk.inj done
            rw [(works_stopChannel h₁ h.links.length).length_links] at there
            have here : c = h.links.length := by omega
            rw [here]
            exact .inr ((recruits_stopChannel h₁ h.links.length).2 (by omega))

/-! ### Who is housed -/

/-- Whether a channel is one of the two of the workspace with a number. -/
def Belongs (h : Hub η) (n c : Nat) : Prop :=
  ∃ w, h.workspace? n = some w ∧ w.Employs c

/-- Whether a channel is one of the two of a workspace on the roster. -/
def Housed (h : Hub η) (c : Nat) : Prop :=
  ∃ entry ∈ h.roster.current, h.Belongs entry.2 c

theorem Sound.boardOf?_of_employs (sound : h.Sound) (found : h.workspace? n = some w)
    (employs : w.Employs c) : h.boardOf? c = some w.board := by
  rcases employs with rfl | works
  · exact sound.primary n w found
  · exact sound.worker n w c found works

/-- A channel is of one workspace only. -/
theorem Sound.eq_of_belongs (sound : h.Sound) {m : Nat} (first : h.Belongs n c)
    (second : h.Belongs m c) : n = m := by
  obtain ⟨w, found, employs⟩ := first
  obtain ⟨v, other, employs'⟩ := second
  have known := sound.boardOf?_of_employs found employs
  rw [sound.boardOf?_of_employs other employs'] at known
  exact sound.apart n m w v found other (Option.some.inj known).symm

/-- The workspace that is entered under two keys is entered twice under one. -/
theorem Sound.eq_of_listed (sound : h.Sound) {entry other : Key × Nat}
    (listed : entry ∈ h.roster.current) (listed' : other ∈ h.roster.current)
    (same : entry.2 = other.2) : entry = other := by
  obtain ⟨w, found, named⟩ := sound.listed entry.1 entry.2 listed
  obtain ⟨v, found', named'⟩ := sound.listed other.1 other.2 listed'
  rw [← same, found] at found'
  obtain rfl := Option.some.inj found'
  exact Prod.ext (named.symm.trans named') same

theorem belongs_of_workspaces (same : h'.workspaces = h.workspaces) :
    h'.Belongs n c ↔ h.Belongs n c := by
  rw [Belongs, Belongs, workspace?, workspace?, same]

theorem housed_of_same (roster : h'.roster.current = h.roster.current)
    (workspaces : h'.workspaces = h.workspaces) : h'.Housed c ↔ h.Housed c := by
  simp only [Housed, roster, belongs_of_workspaces workspaces]

/-! ### Shutting down -/

theorem recruits_stopWorker (h : Hub η) (n : Nat) : h.Recruits (h.stopWorker n) [] := by
  cases found : h.workspace? n with
  | none => rw [stopWorker_of_none found]; exact recruits_of_links rfl
  | some w =>
      rw [stopWorker_of_found found]
      cases w.worker with
      | none => exact recruits_of_links rfl
      | some c =>
          have set : h.Recruits (h.setWorkspace n w.takeWorker.1) [] := recruits_of_links rfl
          exact set.trans (recruits_stopChannel _ c).1

theorem recruits_leave (h : Hub η) (n : Nat) : h.Recruits (h.leave n) [] := by
  rw [leave]
  cases h.workspace? n with
  | none => exact recruits_of_links rfl
  | some w => exact (recruits_shutdownChannel h w.primary).1

theorem recruits_shutdown (h : Hub η) (n : Nat) : h.Recruits (h.shutdown n) [] := by
  rw [shutdown_eq]
  exact (recruits_stopWorker h n).trans (recruits_leave _ n)

theorem fades_shutdown (h : Hub η) (n : Nat) : h.Fades (h.shutdown n) := by
  rw [shutdown_eq]
  exact (fades_stopWorker h n).trans (works_leave _ n).fades

theorem recruits_foldl_shutdown (entries : List (Key × Nat)) (h : Hub η) :
    h.Recruits (entries.foldl (fun h entry => h.shutdown entry.2) h) [] := by
  induction entries generalizing h with
  | nil => exact recruits_of_links rfl
  | cons entry entries ih => exact (recruits_shutdown h entry.2).trans (ih _)

theorem fades_foldl_shutdown (entries : List (Key × Nat)) (h : Hub η) :
    h.Fades (entries.foldl (fun h entry => h.shutdown entry.2) h) := by
  induction entries generalizing h with
  | nil => exact .refl h
  | cons entry entries ih => exact (fades_shutdown h entry.2).trans (ih _)

/-- The worker that is taken from a workspace is stopped. -/
theorem Sound.belongs_stopWorker (sound : h.Sound) (n : Nat) {m : Nat} (belongs : h.Belongs m c) :
    (h.stopWorker n).Belongs m c ∨ (h.stopWorker n).isStopped c = true := by
  obtain ⟨w, found, employs⟩ := belongs
  by_cases here : n = m
  · subst here
    rcases employs with first | second
    · exact .inl ⟨w.takeWorker.1, (workspace?_stopWorker found n).trans (if_pos rfl), .inl first⟩
    · have known := lt_of_boardOf? (sound.worker n w c found second)
      rw [stopWorker_of_found found, second]
      exact .inr ((recruits_stopChannel (h.setWorkspace n w.takeWorker.1) c).2 known)
  · refine .inl ⟨w, ?_, employs⟩
    cases other : h.workspace? n with
    | none => rw [stopWorker_of_none other]; exact found
    | some v => rw [workspace?_stopWorker other, if_neg here]; exact found

/-- Both servers of a workspace that is shut down are stopped, and no server of another. -/
theorem Sound.belongs_shutdown (sound : h.Sound) (n : Nat) {m : Nat} (belongs : h.Belongs m c) :
    n ≠ m ∧ (h.shutdown n).Belongs m c ∨ (h.shutdown n).isStopped c = true := by
  rw [shutdown_eq]
  rcases sound.belongs_stopWorker n belongs with still | gone
  · by_cases here : n = m
    · subst here
      obtain ⟨w, found, employs⟩ := still
      obtain ⟨v, before, -⟩ := belongs
      have idle := (workspace?_stopWorker before n).trans (if_pos rfl)
      obtain rfl := Option.some.inj (found.symm.trans idle)
      rcases employs with rfl | ⟨⟨⟩⟩
      have known := lt_of_boardOf? ((sound.fades (fades_stopWorker h n)).primary n _ found)
      rw [leave, found]
      exact .inr ((recruits_shutdownChannel _ _).2 known)
    · exact .inl ⟨here, (belongs_of_workspaces (works_leave _ n).workspaces).mpr still⟩
  · exact .inr ((recruits_leave _ n).stopped c gone)

/-- The servers of all workspaces that are shut down are stopped. -/
theorem Sound.stopped_foldl_shutdown {entries : List (Key × Nat)} (sound : h.Sound)
    {entry : Key × Nat} (inside : entry ∈ entries) (belongs : h.Belongs entry.2 c) :
    (entries.foldl (fun h entry => h.shutdown entry.2) h).isStopped c = true := by
  induction entries generalizing h with
  | nil => cases inside
  | cons first entries ih =>
      rw [List.foldl_cons]
      rcases sound.belongs_shutdown first.2 belongs with ⟨other, still⟩ | gone
      · rcases List.mem_cons.mp inside with rfl | inside
        · exact absurd rfl other
        · exact ih (sound.fades (fades_shutdown h _)) inside still
      · exact (recruits_foldl_shutdown entries _).stopped c gone

/-! ### What is settled -/

/-- What happens when every server that is housed stays so or is stopped, and those that are new are
a crew that is housed, or have been stopped again. -/
structure Settles (h h' : Hub η) (crew : List Nat) : Prop where
  kept : ∀ c, h.Housed c → h'.Housed c ∨ h'.isStopped c = true
  new : ∀ c, h.links.length ≤ c → c < h'.links.length → c ∈ crew ∨ h'.isStopped c = true
  housed : ∀ c ∈ crew, h'.Housed c

/-- Those that are new need no house if there are none. -/
theorem Recruits.settles (recruits : h.Recruits h' [])
    (kept : ∀ c, h.Housed c → h'.Housed c ∨ h'.isStopped c = true) : h.Settles h' [] :=
  ⟨kept, recruits.new, fun _ inside => absurd inside List.not_mem_nil⟩

theorem Settles.refl (h : Hub η) : h.Settles h [] :=
  (recruits_of_links rfl).settles fun _ housed => .inl housed

/-- Nothing is started after all has been settled but what is settled in turn. -/
theorem Settles.after (first : h.Settles h' []) (second : h'.Settles h'' crew)
    (recruits : h'.Recruits h'' crew) : h.Settles h'' crew := by
  refine ⟨?_, ?_, second.housed⟩
  · intro c housed
    rcases first.kept c housed with still | gone
    · exact second.kept c still
    · exact .inr (recruits.stopped c gone)
  · intro c new there
    by_cases early : c < h'.links.length
    · rcases first.new c new early with ⟨⟨⟩⟩ | gone
      exact .inr (recruits.stopped c gone)
    · exact second.new c (Nat.le_of_not_lt early) there

theorem roster_shutdown (h : Hub η) (n : Nat) : (h.shutdown n).roster = h.roster := by
  rw [shutdown_eq, (works_leave _ n).roster, (stopWorker_frame h n).1]

theorem Sound.settles_stopWorker (sound : h.Sound) (n : Nat) : h.Settles (h.stopWorker n) [] := by
  refine (recruits_stopWorker h n).settles ?_
  rintro c ⟨entry, listed, belongs⟩
  rcases sound.belongs_stopWorker n belongs with still | gone
  · exact .inl ⟨entry, (stopWorker_frame h n).1 ▸ listed, still⟩
  · exact .inr gone

/-- The servers of a workspace that is taken off the roster are stopped. -/
theorem Sound.settles_dismiss (sound : h.Sound) (found : h.roster.find? key = some n) :
    h.Settles (h.dismiss key n) [] := by
  have struck := sound.fades (fades_strike h key)
  have none : h.Recruits { h with roster := h.roster.strike key } [] := recruits_of_links rfl
  refine (none.trans (recruits_shutdown _ n)).settles ?_
  rintro c ⟨entry, listed, belongs⟩
  rcases struck.belongs_shutdown n belongs with ⟨other, still⟩ | gone
  · refine .inl ⟨entry, ?_, still⟩
    rw [roster_shutdown, Roster.mem_strike]
    refine ⟨listed, Bool.eq_false_iff.mpr fun same => ?_⟩
    exact other (Roster.eq_of_find? sound.keys found listed same).symm
  · exact .inr gone

/-- All servers are stopped when every workspace is shut down. -/
theorem Sound.settles_stopAll (sound : h.Sound) : h.Settles h.stopAll [] := by
  have emptied := sound.fades (@fades_roster η h { h.roster with current := [] } (by simp))
  have none : h.Recruits { h with roster := { h.roster with current := [] } } [] :=
    recruits_of_links rfl
  refine (none.trans (recruits_foldl_shutdown h.roster.current _)).settles ?_
  rintro c ⟨entry, listed, belongs⟩
  exact .inr (emptied.stopped_foldl_shutdown listed belongs)

/-! ### Starting -/

theorem Hires.length_links {stamps : List (Launch × Nat)} (hires : h.Hires h' stamps) :
    h'.links.length = h.links.length + stamps.length := by
  rw [← length_stamps, hires.stamps, List.length_append, length_stamps]

/-- Who is housed stays so when a workspace is entered. -/
theorem Housed.enlist {primary worker board : Nat} (housed : h.Housed c) :
    (h.enlist key spec primary worker board).Housed c := by
  obtain ⟨entry, listed, w, found, employs⟩ := housed
  refine ⟨entry, List.mem_append_left _ listed, w, ?_, employs⟩
  rw [workspace?_enlist, if_neg (Nat.ne_of_lt (lt_of_workspace? found))]
  exact found

/-- The servers of a workspace that is entered are housed. -/
theorem housed_enlist (h : Hub η) (key : Key) (spec : ServerSpec) (primary worker board : Nat)
    {c : Nat} (inside : c ∈ [primary, worker]) :
    (h.enlist key spec primary worker board).Housed c := by
  refine ⟨(key, h.workspaces.length), List.mem_append_right _ (List.mem_singleton_self _),
    .start key spec primary worker board, ?_, ?_⟩
  · rw [workspace?_enlist, if_pos rfl]
  · rcases List.mem_cons.mp inside with first | second
    · exact .inl first
    · exact .inr (congrArg some (List.mem_singleton.mp second).symm)

/-- A start that fails stops all that it has started. -/
theorem settles_engage (h : Hub η) (launch : Launch → Option Channel.Outlet) (key : Key)
    (spec : ServerSpec) :
    ∃ crew, h.Recruits (h.engage launch key spec).1 crew ∧
      h.Settles (h.engage launch key spec).1 crew ∧
      ((h.engage launch key spec).2 = none → crew = []) := by
  have opened : h.Recruits h.openBoard [] := recruits_of_links rfl
  rw [engage, startWorkspace]
  rcases first : h.openBoard.startChannel launch spec key.root h.boards.length with ⟨h₁, _ | p⟩
  · obtain ⟨stamps, hires, -⟩ := startChannel_hires first
    have recruits := opened.trans (recruits_startChannel first)
    have same (c : Nat) : h₁.Housed c ↔ h.Housed c :=
      housed_of_same (congrArg _ hires.roster) hires.workspaces
    exact ⟨[], recruits, recruits.settles fun c housed => .inl ((same c).mpr housed), fun _ => rfl⟩
  · obtain ⟨rfl, hires, -⟩ := startChannel_some first
    have recruits := opened.trans (recruits_startChannel first)
    dsimp only
    rcases second : h₁.startChannel launch spec key.root h.boards.length with ⟨h₂, _ | w⟩
    all_goals
      obtain ⟨stamps, hires', -⟩ := startChannel_hires second
      have both := hires.trans hires'
      have recruits' := recruits.trans (recruits_startChannel second)
      have same (c : Nat) : h₂.Housed c ↔ h.Housed c :=
        housed_of_same (congrArg _ both.roster) both.workspaces
    · have stops := recruits_stopChannel h₂ h.openBoard.links.length
      have works := works_stopChannel h₂ h.openBoard.links.length
      have known : h.openBoard.links.length < h₂.links.length := by
        rw [both.length_links, List.length_append, List.length_singleton]
        omega
      have none := Recruits.dismissed (recruits'.trans stops.1) (stops.2 known)
      refine ⟨[], none, none.settles fun c housed => .inl ?_, fun _ => rfl⟩
      exact (housed_of_same (congrArg _ works.roster) works.workspaces).mpr ((same c).mpr housed)
    · have entered : h₂.Recruits
          (h₂.enlist key spec h.openBoard.links.length w h.boards.length) [] :=
        recruits_of_links rfl
      have all := recruits'.trans entered
      refine ⟨_, all, ⟨fun c housed => .inl ?_, all.new, ?_⟩,
        fun failed => absurd failed (Option.some_ne_none _)⟩
      · exact ((same c).mpr housed).enlist
      · intro c inside
        exact housed_enlist h₂ key spec _ w h.boards.length (by simpa using inside)

/-- What a lookup starts is housed, and nothing is left of it if it is given nothing. -/
theorem Sound.settles_workspaceFor (sound : h.Sound) (launch : Launch → Option Channel.Outlet)
    (ext root : String) :
    ∃ crew, h.Settles (h.workspaceFor launch ext root).1 crew ∧
      ((h.workspaceFor launch ext root).2 = none → crew = []) := by
  rw [Hub.workspaceFor]
  cases h.roster.routes.find? ext with
  | none => exact ⟨[], .refl h, fun _ => rfl⟩
  | some spec =>
      dsimp only
      cases listed : h.roster.find? ⟨root, spec.binary⟩ with
      | none =>
          obtain ⟨crew, -, settles, failing⟩ := settles_engage h launch ⟨root, spec.binary⟩ spec
          exact ⟨crew, settles, failing⟩
      | some n =>
          dsimp only
          cases h.isRunning n with
          | true => exact ⟨[], .refl h, fun _ => rfl⟩
          | false =>
              obtain ⟨crew, recruits, settles, failing⟩ :=
                settles_engage (h.dismiss ⟨root, spec.binary⟩ n) launch ⟨root, spec.binary⟩ spec
              exact ⟨crew, (sound.settles_dismiss listed).after settles recruits, failing⟩

/-- The worker that is started anew is housed, and there is none if it could not be started. -/
theorem Sound.settles_restartWorker (sound : h.Sound) (launch : Launch → Option Channel.Outlet)
    (listed : (key, n) ∈ h.roster.current) :
    ∃ crew, h.Settles (h.restartWorker launch n).1 crew ∧
      ((h.restartWorker launch n).2 = false → crew = []) := by
  obtain ⟨w, found, -⟩ := sound.listed key n listed
  rcases done : (h.stopWorker n).startChannel launch w.spec w.key.root w.board with ⟨g, result⟩
  obtain ⟨stamps, hires, -⟩ := startChannel_hires done
  have idle : g.workspace? n = some w.takeWorker.1 := by
    rw [workspace?, hires.workspaces]
    exact (workspace?_stopWorker found n).trans (if_pos rfl)
  have roster : (g.setWorkspace n { w with worker := result }).roster = h.roster :=
    hires.roster.trans (stopWorker_frame h n).1
  have changed := workspace?_setWorkspace { w with worker := result } idle
  have recruits : h.Recruits (g.setWorkspace n { w with worker := result }) result.toList := by
    have started : h.Recruits g result.toList :=
      (recruits_stopWorker h n).trans (recruits_startChannel done)
    have set : g.Recruits (g.setWorkspace n { w with worker := result }) [] := recruits_of_links rfl
    exact List.append_nil result.toList ▸ started.trans set
  rw [restartWorker_of_found found done]
  refine ⟨result.toList, ⟨?_, recruits.new, ?_⟩, ?_⟩
  · rintro c ⟨entry, inside, belongs⟩
    rcases sound.belongs_stopWorker n belongs with ⟨v, there, employs⟩ | gone
    · refine .inl ⟨entry, roster ▸ inside, ?_⟩
      by_cases here : n = entry.2
      · rw [← here, workspace?_stopWorker found, if_pos rfl] at there
        obtain rfl := Option.some.inj there
        rcases employs with first | ⟨⟨⟩⟩
        exact ⟨_, (changed entry.2).trans (if_pos here), .inl first⟩
      · refine ⟨v, ?_, employs⟩
        rw [changed, if_neg here, workspace?, hires.workspaces]
        exact there
    · have started := (recruits_startChannel done).stopped c gone
      exact .inr started
  · intro c inside
    exact ⟨(key, n), roster ▸ listed, _, (changed n).trans (if_pos rfl),
      .inr (Option.mem_toList.mp inside)⟩
  · intro failed
    rw [Option.isSome_eq_false_iff, Option.isNone_iff_eq_none] at failed
    rw [failed]
    rfl

/-- What goes on over channels starts no server, and moves none out of its house. -/
theorem Works.settles (works : h.Works h') : h.Settles h' [] := by
  refine ⟨?_, ?_, fun _ inside => absurd inside List.not_mem_nil⟩
  · intro c housed
    exact .inl ((housed_of_same (congrArg _ works.roster) works.workspaces).mpr housed)
  · intro c new there
    rw [works.length_links] at there
    exact absurd new (Nat.not_le_of_lt there)

end Hub

end EditorBridge
