import EditorBridge.Proofs.Hub.Hiring

/-!
# No server is lost

A household is a hub together with the servers that run: they have been started, and have neither
died nor been stopped. Whatever is done with the hub, each of them is the first server or the worker
of a workspace on the roster, and of one workspace only (`wellKept_after`). A lookup that is given
nothing leaves no server of its own running, and neither does the start of a worker that fails.
-/

namespace EditorBridge

open Workspace (Key)

/-- A hub and the servers that run, by the numbers of their channels: each of them has been started,
and has neither died nor been stopped. -/
structure Household (η : Type) where
  hub : Hub η
  running : List Nat

namespace Household

variable {η : Type} {s : Household η} {h : Hub η}

/-- What is done with a hub and its workspaces, and what befalls servers meanwhile. A server that
vanishes takes nothing any more; one that dies has not been noticed yet. -/
inductive Act where
  | register (exts : List String) (spec : ServerSpec)
  | lookUp (launch : Launch → Option Channel.Outlet) (ext root : String)
  | stop (key : Key)
  | stopAll
  | stopWorker (key : Key)
  | restartWorker (launch : Launch → Option Channel.Outlet) (key : Key)
  | arrive (c : Nat) (a : Channel.Arrival)
  | vanish (c : Nat)
  | die (c : Nat)

/-- What becomes of the hub. -/
def Act.run (h : Hub η) : Act → Hub η
  | register exts spec => h.register exts spec
  | lookUp launch ext root => (h.workspaceFor launch ext root).1
  | stop key => (h.stop key).1
  | stopAll => h.stopAll
  | stopWorker key =>
      match h.roster.find? key with
      | some n => h.stopWorker n
      | none => h
  | restartWorker launch key =>
      match h.roster.find? key with
      | some n => (h.restartWorker launch n).1
      | none => h
  | arrive c a => h.arrive c a
  | vanish c => h.vanish c
  | die _ => h

/-- Whether a lookup is given nothing, or a worker cannot be started anew. -/
def Act.fails (h : Hub η) : Act → Bool
  | lookUp launch ext root => (h.workspaceFor launch ext root).2.isNone
  | restartWorker launch key =>
      match h.roster.find? key with
      | some n => !(h.restartWorker launch n).2
      | none => false
  | _ => false

/-- The server that dies. -/
def Act.victim? : Act → Option Nat
  | die c => some c
  | _ => none

/-- Before anything has been done. -/
def start (processId timeout : Nat) : Household η :=
  ⟨.start processId timeout, []⟩

/-- The servers that run afterwards are those that ran before and those that have been started, but
for those that have been stopped and the one that dies. -/
def perform (s : Household η) (act : Act) : Household η :=
  let hub := act.run s.hub
  let started := List.range' s.hub.links.length (hub.links.length - s.hub.links.length)
  ⟨hub, (s.running ++ started).filter fun c => !hub.isStopped c && act.victim? != some c⟩

/-- The household after all that has been done. -/
def after (s : Household η) (acts : List Act) : Household η :=
  acts.foldl perform s

theorem of_mem_perform {act : Act} {c : Nat} (inside : c ∈ (s.perform act).running) :
    (c ∈ s.running ∨
      s.hub.links.length ≤ c ∧ c < (act.run s.hub).links.length) ∧
        (act.run s.hub).isStopped c = false := by
  obtain ⟨there, lives⟩ := List.mem_filter.mp inside
  obtain ⟨runs, -⟩ := Bool.and_eq_true_iff.mp lives
  refine ⟨?_, (Bool.not_eq_true' _).mp runs⟩
  rcases List.mem_append.mp there with old | new
  · exact .inl old
  · obtain ⟨least, most⟩ := List.mem_range'_1.mp new
    exact .inr ⟨least, by omega⟩

/-- The end of a stream is not the end of a server, and neither is anything else that the hub hears
of it. -/
theorem running_perform_of_works {act : Act} (works : s.hub.Works (act.run s.hub))
    (runs : ∀ c ∈ s.running, (act.run s.hub).isStopped c = false) (alive : act.victim? = none) :
    (s.perform act).running = s.running := by
  rw [perform, works.length_links, Nat.sub_self, alive]
  simp only [List.range'_zero, List.append_nil, List.filter_eq_self]
  intro c inside
  rw [runs c inside]
  rfl

theorem sound_run (sound : h.Sound) (act : Act) : (act.run h).Sound := by
  cases act with
  | register exts spec => exact sound.fades (Hub.fades_roster (List.Sublist.refl _))
  | lookUp launch ext root => exact sound.workspaceFor launch ext root
  | stop key =>
      rw [Act.run, Hub.stop]
      cases h.roster.find? key with
      | none => exact sound
      | some n => exact sound.fades ((Hub.fades_strike h key).trans (Hub.fades_shutdown _ n))
  | stopAll =>
      exact (sound.fades (Hub.fades_roster (List.nil_sublist _))).fades
        (Hub.fades_foldl_shutdown h.roster.current _)
  | stopWorker key =>
      rw [Act.run]
      cases h.roster.find? key with
      | none => exact sound
      | some n => exact sound.fades (Hub.fades_stopWorker h n)
  | restartWorker launch key =>
      rw [Act.run]
      cases h.roster.find? key with
      | none => exact sound
      | some n => exact sound.restartWorker launch n
  | arrive c a => exact sound.fades (Hub.works_arrive h c a).fades
  | vanish c => exact sound.fades (Hub.works_vanish h c).fades
  | die c => exact sound

/-- Whatever is done, the servers are settled afterwards. -/
theorem settles_run (sound : h.Sound) (act : Act) :
    ∃ crew, h.Settles (act.run h) crew ∧ (act.fails h = true → crew = []) := by
  have quiet {h' : Hub η} (settles : h.Settles h' []) {p : Prop} :
      ∃ crew, h.Settles h' crew ∧ (p → crew = []) := ⟨[], settles, fun _ => rfl⟩
  cases act with
  | register exts spec =>
      have none : h.Recruits (h.register exts spec) [] := Hub.recruits_of_links rfl
      exact quiet (none.settles fun c housed => .inl housed)
  | lookUp launch ext root =>
      obtain ⟨crew, settles, failing⟩ := sound.settles_workspaceFor launch ext root
      exact ⟨crew, settles, fun fails => failing (Option.isNone_iff_eq_none.mp fails)⟩
  | stop key =>
      rw [Act.run, Hub.stop]
      cases listed : h.roster.find? key with
      | none => exact quiet (.refl h)
      | some n => exact quiet (sound.settles_dismiss listed)
  | stopAll => exact quiet sound.settles_stopAll
  | stopWorker key =>
      rw [Act.run]
      cases h.roster.find? key with
      | none => exact quiet (.refl h)
      | some n => exact quiet (sound.settles_stopWorker n)
  | restartWorker launch key =>
      rw [Act.run, Act.fails]
      cases listed : h.roster.find? key with
      | none => exact quiet (.refl h)
      | some n =>
          obtain ⟨k, -, there⟩ := Roster.mem_of_find? listed
          obtain ⟨crew, settles, failing⟩ := sound.settles_restartWorker launch there
          exact ⟨crew, settles, fun fails => failing ((Bool.not_eq_true' _).mp fails)⟩
  | arrive c a => exact quiet (Hub.works_arrive h c a).settles
  | vanish c => exact quiet (Hub.works_vanish h c).settles
  | die c => exact quiet (.refl h)

/-- Whether no server is lost. Every server that runs is the first server or the worker of a
workspace on the roster (`housed`). No two workspaces on the roster share one (`apart`). What fails
leaves no server of its own running (`failing`). All go on running whatever is heard of them, if
only that a stream has ended (`quiet`). -/
structure WellKept (s : Household η) : Prop where
  housed : ∀ c ∈ s.running, ∃ key n w, (key, n) ∈ s.hub.roster.current ∧
    s.hub.workspace? n = some w ∧ (c = w.primary ∨ w.worker = some c)
  apart : ∀ entry ∈ s.hub.roster.current, ∀ other ∈ s.hub.roster.current, ∀ w v c,
    s.hub.workspace? entry.2 = some w → s.hub.workspace? other.2 = some v →
      (c = w.primary ∨ w.worker = some c) → (c = v.primary ∨ v.worker = some c) → entry = other
  failing : ∀ act : Act, act.fails s.hub = true → (s.perform act).running ⊆ s.running
  quiet : ∀ c, (∀ a, (s.perform (.arrive c a)).running = s.running) ∧
    (s.perform (.vanish c)).running = s.running

theorem housed_perform (sound : s.hub.Sound) (housed : ∀ c ∈ s.running, s.hub.Housed c)
    (act : Act) : ∀ c ∈ (s.perform act).running, (s.perform act).hub.Housed c := by
  obtain ⟨crew, settles, -⟩ := settles_run sound act
  intro c inside
  obtain ⟨old | ⟨new, there⟩, runs⟩ := of_mem_perform inside
  · rcases settles.kept c (housed c old) with still | gone
    · exact still
    · rw [runs] at gone
      cases gone
  · rcases settles.new c new there with hired | gone
    · exact settles.housed c hired
    · rw [runs] at gone
      cases gone

theorem wellKept_of_housed (sound : s.hub.Sound) (housed : ∀ c ∈ s.running, s.hub.Housed c)
    (runs : ∀ c ∈ s.running, s.hub.isStopped c = false) : s.WellKept := by
  refine ⟨?_, ?_, ?_, ?_⟩
  · intro c inside
    obtain ⟨⟨key, n⟩, listed, w, found, employs⟩ := housed c inside
    exact ⟨key, n, w, listed, found, employs⟩
  · intro entry listed other listed' w v c found found' first second
    exact sound.eq_of_listed listed listed'
      (sound.eq_of_belongs ⟨w, found, first⟩ ⟨v, found', second⟩)
  · intro act fails c inside
    obtain ⟨crew, settles, failing⟩ := settles_run sound act
    obtain ⟨old | ⟨new, there⟩, runs⟩ := of_mem_perform inside
    · exact old
    · rcases settles.new c new there with hired | gone
      · rw [failing fails] at hired
        cases hired
      · rw [runs] at gone
        cases gone
  · intro c
    refine ⟨?_, ?_⟩
    · intro a
      refine running_perform_of_works (Hub.works_arrive s.hub c a) ?_ rfl
      intro d inside
      exact Bool.eq_false_iff.mpr fun gone =>
        Bool.eq_false_iff.mp (runs d inside) (Hub.isStopped_of_arrive gone)
    · refine running_perform_of_works (Hub.works_vanish s.hub c) ?_ rfl
      intro d inside
      exact Bool.eq_false_iff.mpr fun gone =>
        Bool.eq_false_iff.mp (runs d inside) (Hub.isStopped_of_vanish gone)

/-- No server is lost, whatever has been done from the start. -/
theorem wellKept_after (processId timeout : Nat) (acts : List Act) :
    ((start processId timeout : Household η).after acts).WellKept := by
  have kept : ∀ (acts : List Act) (s : Household η), s.hub.Sound →
      (∀ c ∈ s.running, s.hub.Housed c ∧ s.hub.isStopped c = false) →
        (s.after acts).WellKept := by
    intro acts
    induction acts with
    | nil =>
        intro s sound all
        exact wellKept_of_housed sound (fun c inside => (all c inside).1)
          fun c inside => (all c inside).2
    | cons act acts ih =>
        intro s sound all
        refine ih (s.perform act) (sound_run sound act) fun c inside => ⟨?_, ?_⟩
        · exact housed_perform sound (fun c inside => (all c inside).1) act c inside
        · exact (of_mem_perform inside).2
  exact kept acts (start processId timeout) (Hub.sound_start processId timeout) nofun

/-- The worker of a new workspace is started anew. -/
example : ((start 1 2500 : Household Unit).after
    [.register ["ts"] ⟨"server", [], [], none⟩, .lookUp (fun _ => some .start) "ts" "/w",
      .restartWorker (fun _ => some .start) ⟨"/w", "server"⟩]).running = [0, 2] := by
  decide +kernel

end Household

end EditorBridge
