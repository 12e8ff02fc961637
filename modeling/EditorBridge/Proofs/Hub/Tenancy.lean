import EditorBridge.Proofs.Hub.Turns

/-!
# One workspace for one key

Whoever looks up a workspace for one key is given the same one, as long as its first server is there
and nobody shuts it down (`Lobby.shared_of_reachable`). What is shown is an invariant of what
visitors have done: a server that a visitor has taken up is on the roster, or is about to be entered
by this visitor, until it dies or is taken off.
-/

namespace EditorBridge.Hub

open Workspace (Key)

variable {η : Type} {h h' : Hub η} {i j n p q : Nat} {k l : Key}

/-- Whether a server is the first one of a workspace on the roster for a key. -/
def Tenant (h : Hub η) (key : Key) (p : Nat) : Prop :=
  ∃ l n w, (l, n) ∈ h.roster.current ∧ l.isSame key = true ∧ h.workspace? n = some w ∧
    w.primary = p

/-- Whether a server has died, or its workspace has been taken off the roster to be shut down. -/
def Ended (h : Hub η) (p : Nat) (deeds : List (Deed η)) : Prop :=
  .lost p ∈ deeds ∨ ∃ i n w, h.workspace? n = some w ∧ w.primary = p ∧ .struck i n ∈ deeds

theorem Ended.ages {since : List (Deed η)} (ended : h.Ended p since) (ages : h.Ages h')
    (deeds : List (Deed η)) : h'.Ended p (deeds ++ since) := by
  rcases ended with lost | ⟨i, n, w, found, first, struck⟩
  · exact .inl (List.mem_append_right _ lost)
  · obtain ⟨w', later, -, -, same, -⟩ := ages.later found
    exact .inr ⟨i, n, w', later, same.trans first, List.mem_append_right _ struck⟩

/-- On the roster there is one first server for a key. -/
theorem Sound.eq_of_tenant (sound : h.Sound) {w : Workspace} (tenant : h.Tenant l p)
    (listed : h.roster.find? k = some n) (found : h.workspace? n = some w)
    (same : l.isSame k = true) : w.primary = p := by
  obtain ⟨key, m, v, inside, alike, found', rfl⟩ := tenant
  obtain rfl := Roster.eq_of_find? sound.keys listed inside (Key.isSame_trans alike same)
  rw [Option.some.inj (found.symm.trans found')]

theorem not_tenant (unlisted : h.roster.find? k = none) (same : l.isSame k = true) :
    ¬ h.Tenant l p := by
  rintro ⟨key, m, v, inside, alike, -⟩
  have other := Roster.find?_eq_none.mp unlisted _ inside
  rw [Key.isSame_trans alike same] at other
  cases other

/-- A deed among what has been done is an earlier one, or the one that was done last. -/
theorem split_cases {α : Type} {new old since before : List α} {deed : α}
    (whole : new ++ old = since ++ deed :: before) (single : deed ∈ new → new = [deed]) :
    (∃ rest, since = new ++ rest ∧ old = rest ++ deed :: before) ∨
      new = [deed] ∧ since = [] ∧ before = old := by
  rcases List.append_eq_append_iff.mp whole with ⟨rest, all, earlier⟩ | ⟨rest, all, later⟩
  · exact .inl ⟨rest, all, earlier⟩
  · cases rest with
    | nil => exact .inl ⟨[], by simpa using all.symm, later.symm⟩
    | cons first rest =>
        obtain ⟨rfl, rfl⟩ := List.cons_eq_cons.mp later
        have alone := single (by rw [all]; exact List.mem_append_right _ List.mem_cons_self)
        rw [alone] at all
        obtain ⟨rfl, rfl⟩ : since = [] ∧ rest = [] := by
          rcases List.append_eq_singleton_iff.mp all.symm with ⟨none, only⟩ | ⟨-, other⟩
          · exact ⟨none, (List.cons.inj only).2⟩
          · cases other
        exact .inr ⟨alone, rfl, rfl⟩

namespace Lobby

/-- What is always so of the deeds of visitors, the last deed first. -/
structure Recorded (s : Lobby η) : Prop where
  lost : ∀ c, .lost c ∈ s.log → c < s.hub.links.length ∧ s.hub.isAlive c = false
  missed : ∀ i n, .missed i n ∈ s.log → s.phase i ≠ .served (some n) ∧
    (∀ key, (key, n) ∉ s.hub.roster.current) ∧
    ∃ w, s.hub.workspace? n = some w ∧ s.hub.isAlive w.primary = false ∧
      (.halt n ∈ (s.phase i).clearance ∨ w.worker = none)
  taken : ∀ i key p, .took i key p ∈ s.log → s.phase i = .served none ∨
    (∃ n w, s.phase i = .served (some n) ∧ s.hub.workspace? n = some w ∧ w.primary = p ∧
      w.key.isSame key = true) ∨ (s.phase i).raising? = some (key, p)
  raising : ∀ i key p, (s.phase i).raising? = some (key, p) → .took i key p ∈ s.log
  served : ∀ i n, s.phase i = .served (some n) → ∃ key p, .took i key p ∈ s.log
  standing : ∀ since i key p before, s.log = since ++ .took i key p :: before →
    s.phase i = .served none ∨ s.hub.Ended p since ∨ s.hub.isAlive p = true ∧
      (s.hub.Tenant key p ∨ (s.phase i).raising? = some (key, p))
  fresh : ∀ since i key p before, s.log = since ++ .took i key p :: before → .lost p ∉ before
  paired : ∀ later j key' q since i key p before,
    s.log = later ++ .took j key' q :: (since ++ .took i key p :: before) →
    key.isSame key' = true → s.phase i = .served none ∨ s.phase j = .served none ∨ p = q ∨
      s.hub.Ended p since

variable {s t : Lobby η}

/-! ### Turns of visitors -/

section visitor

variable {hub : Hub η} {holder : Option Nat} {visit : Visit η} {deeds : List (Deed η)}

theorem lost_visitor (recorded : s.Recorded) (ages : s.hub.Ages hub)
    (turn : Turn i s.hub s.holder (s.phase i) hub holder visit deeds) (c : Nat)
    (lost : .lost c ∈ deeds ++ s.log) : c < hub.links.length ∧ hub.isAlive c = false := by
  rcases List.mem_append.mp lost with new | old
  · exact absurd new (turn.lost_notMem c)
  · obtain ⟨known, gone⟩ := recorded.lost c old
    refine ⟨Nat.lt_of_lt_of_le known ?_, ?_⟩
    · rw [← length_stamps, ← length_stamps]
      exact ages.stamps.length_le
    · rw [Bool.eq_false_iff] at gone ⊢
      exact fun there => gone (ages.alive c known there)

/-- What is gone stays gone. -/
theorem missed_ages {w : Workspace} (sound : s.hub.Sound) (ages : s.hub.Ages hub)
    (found : s.hub.workspace? n = some w) (gone : s.hub.isAlive w.primary = false)
    (off : ∀ key, (key, n) ∉ s.hub.roster.current) :
    (∀ key, (key, n) ∉ hub.roster.current) ∧ ∃ w', hub.workspace? n = some w' ∧
      hub.isAlive w'.primary = false ∧ (w'.worker = w.worker ∨ w'.worker = none) := by
  refine ⟨?_, ?_⟩
  · intro key listed
    rcases ages.roster _ listed with old | new
    · exact off key old
    · exact Nat.not_lt_of_le new (lt_of_workspace? found)
  · obtain ⟨w', later, -, -, first, -, worker⟩ := ages.later found
    refine ⟨w', later, ?_, worker⟩
    rw [first, Bool.eq_false_iff] at *
    exact fun there => gone (ages.alive _ (lt_of_boardOf? (sound.primary n w found)) there)

theorem missed_visitor (recorded : s.Recorded) (sound : s.hub.Sound) (ages : s.hub.Ages hub)
    (turn : Turn i s.hub s.holder (s.phase i) hub holder visit deeds)
    (missed : .missed j n ∈ deeds ++ s.log) :
    (s.moved i hub holder visit deeds).phase j ≠ .served (some n) ∧
      (∀ key, (key, n) ∉ hub.roster.current) ∧ ∃ w, hub.workspace? n = some w ∧
        hub.isAlive w.primary = false ∧
        (.halt n ∈ ((s.moved i hub holder visit deeds).phase j).clearance ∨ w.worker = none) := by
  rcases List.mem_append.mp missed with new | old
  · obtain ⟨rfl, due, other, off, w, found, gone⟩ := turn.missed_mem sound new
    rw [phase_moved_self]
    exact ⟨other (some n), off, w, found, gone, .inl due⟩
  · obtain ⟨other, off, w, found, gone, due⟩ := recorded.missed j n old
    obtain ⟨off', w', found', gone', worker⟩ := missed_ages sound ages found gone off
    by_cases here : j = i
    · subst here
      rw [phase_moved_self]
      refine ⟨?_, off', w', found', gone', ?_⟩
      · intro given
        rcases turn.served given with ⟨key, listed⟩ | beyond
        · exact off key listed
        · exact Nat.not_lt_of_le beyond (lt_of_workspace? found)
      · rcases due with due | halted
        · exact turn.halts due found'
        · exact .inr (worker.elim (fun same => same.trans halted) id)
    · rw [phase_moved_of_ne here]
      refine ⟨other, off', w', found', gone', due.imp_right ?_⟩
      intro halted
      exact worker.elim (fun same => same.trans halted) id

theorem taken_visitor (recorded : s.Recorded) (orderly : s.Orderly) (ages : s.hub.Ages hub)
    (sound : hub.Sound) (turn : Turn i s.hub s.holder (s.phase i) hub holder visit deeds)
    (took : .took j k p ∈ deeds ++ s.log) :
    (s.moved i hub holder visit deeds).phase j = .served none ∨
      (∃ n w, (s.moved i hub holder visit deeds).phase j = .served (some n) ∧
        hub.workspace? n = some w ∧ w.primary = p ∧ w.key.isSame k = true) ∨
      ((s.moved i hub holder visit deeds).phase j).raising? = some (k, p) := by
  rcases List.mem_append.mp took with new | old
  · obtain ⟨rfl, -, -, -, ⟨-, rfl, n, w, listed, found, first, given⟩ | ⟨-, -, -, raising⟩⟩ :=
      turn.took_mem (orderly.fits i) new
    · rw [phase_moved_self]
      obtain ⟨l, same, inside⟩ := Roster.mem_of_find? listed
      obtain ⟨w', found', rfl⟩ := sound.listed l n inside
      obtain rfl := Option.some.inj (found.symm.trans found')
      exact .inr (.inl ⟨n, w, given, found, first, same⟩)
    · rw [phase_moved_self]
      exact .inr (.inr raising)
  · by_cases here : j = i
    · subst here
      rw [phase_moved_self]
      rcases recorded.taken j k p old with given | ⟨n, w, given, -⟩ | raising
      · exact absurd given (turn.not_served none)
      · exact absurd given (turn.not_served (some n))
      · rcases turn.raised raising with still | given | ⟨n, w, given, listed, found, first⟩
        · exact .inr (.inr still)
        · exact .inl given
        · obtain ⟨w', found', rfl⟩ := sound.listed k n listed
          obtain rfl := Option.some.inj (found.symm.trans found')
          exact .inr (.inl ⟨n, w, given, found, first, w.key.isSame_refl⟩)
    · rw [phase_moved_of_ne here]
      rcases recorded.taken j k p old with given | ⟨n, w, given, found, first, same⟩ | raising
      · exact .inl given
      · obtain ⟨w', found', key, -, first', -⟩ := ages.later found
        exact .inr (.inl ⟨n, w', given, found', first'.trans first, key ▸ same⟩)
      · exact .inr (.inr raising)

theorem raising_visitor (recorded : s.Recorded)
    (turn : Turn i s.hub s.holder (s.phase i) hub holder visit deeds)
    (raising : ((s.moved i hub holder visit deeds).phase j).raising? = some (k, p)) :
    .took j k p ∈ deeds ++ s.log := by
  by_cases here : j = i
  · subst here
    rw [phase_moved_self] at raising
    rcases turn.took_of_raising raising with before | took
    · exact List.mem_append_right _ (recorded.raising j k p before)
    · exact List.mem_append_left _ took
  · rw [phase_moved_of_ne here] at raising
    exact List.mem_append_right _ (recorded.raising j k p raising)

theorem served_visitor (recorded : s.Recorded)
    (turn : Turn i s.hub s.holder (s.phase i) hub holder visit deeds)
    (given : (s.moved i hub holder visit deeds).phase j = .served (some n)) :
    ∃ k p, .took j k p ∈ deeds ++ s.log := by
  by_cases here : j = i
  · subst here
    rw [phase_moved_self] at given
    rcases turn.took_of_served given with ⟨k, p, raising⟩ | ⟨k, p, took⟩
    · exact ⟨k, p, List.mem_append_right _ (recorded.raising j k p raising)⟩
    · exact ⟨k, p, List.mem_append_left _ took⟩
  · rw [phase_moved_of_ne here] at given
    obtain ⟨k, p, took⟩ := recorded.served j n given
    exact ⟨k, p, List.mem_append_right _ took⟩

/-- A first server on the roster, or on the site of another visitor, outlives what a visitor does.
What the visitor itself has started it may give up. -/
theorem lives_visitor (orderly : s.Orderly)
    (turn : Turn i s.hub s.holder (s.phase i) hub holder visit deeds)
    (there : s.hub.isAlive p = true)
    (stands : s.hub.Tenant k p ∨ (s.phase j).raising? = some (k, p)) :
    hub.isAlive p = true ∨ j = i ∧ visit = .served none := by
  rcases turn.lives orderly.sound (orderly.fits i) there with
    lives | ⟨n, w, found, known, off⟩ | ⟨⟨key, mine⟩, given⟩
  · exact .inl lives
  -- It is not the server of a workspace off the roster, for it is known where it belongs.
  · rcases stands with ⟨l, m, v, listed, -, found', rfl⟩ | raising
    · have known' := orderly.sound.primary m v found'
      have board := Option.some.inj (known.symm.trans known')
      obtain rfl := orderly.sound.apart n m w v found found' board
      exact absurd listed (off l)
    · obtain ⟨-, board, crew, site, inside⟩ := Visit.site?_of_raising? raising
      have own := (orderly.fits j).site board crew site
      have same := Option.some.inj (known.symm.trans (own.hired p inside))
      exact absurd same (own.own n w found)
  · obtain ⟨-, board, crew, site, inside⟩ := Visit.site?_of_raising? mine
    have own := (orderly.fits i).site board crew site
    rcases stands with ⟨l, m, v, listed, -, found', rfl⟩ | raising
    · have known := orderly.sound.primary m v found'
      exact absurd (Option.some.inj (known.symm.trans (own.hired _ inside))) (own.own m v found')
    · by_cases here : j = i
      · exact .inr ⟨here, given⟩
      · obtain ⟨-, _, _, site', -⟩ := Visit.site?_of_raising? raising
        have holds := orderly.locked i (Visit.isInside_of_site? site)
        have idle := orderly.alone (.inr holds) here
        rw [Visit.isInside_of_site? site'] at idle
        cases idle

/-- A first server on the roster stays there unless it is shut down. -/
theorem tenant_visitor (sound : s.hub.Sound) (ages : s.hub.Ages hub)
    (turn : Turn i s.hub s.holder (s.phase i) hub holder visit deeds)
    (there : s.hub.isAlive p = true) (tenant : s.hub.Tenant k p) (since : List (Deed η)) :
    hub.Tenant k p ∨ hub.Ended p (deeds ++ since) := by
  obtain ⟨l, n, w, listed, same, found, rfl⟩ := tenant
  obtain ⟨w', found', -, -, first, -⟩ := ages.later found
  have running : s.hub.isRunning n = true := by
    rw [isRunning, found]
    exact there
  rcases turn.stays sound listed running with stays | struck
  · exact .inl ⟨l, n, w', stays, same, found', first⟩
  · exact .inr (.inr ⟨i, n, w', found', first, List.mem_append_left _ struck⟩)

theorem standing_visitor (orderly : s.Orderly) (recorded : s.Recorded) (ages : s.hub.Ages hub)
    (turn : Turn i s.hub s.holder (s.phase i) hub holder visit deeds) {since before : List (Deed η)}
    (whole : deeds ++ s.log = since ++ .took j k p :: before) :
    (s.moved i hub holder visit deeds).phase j = .served none ∨ hub.Ended p since ∨
      hub.isAlive p = true ∧ (hub.Tenant k p ∨
        ((s.moved i hub holder visit deeds).phase j).raising? = some (k, p)) := by
  have fits := orderly.fits i
  rcases split_cases whole (turn.single_took fits) with ⟨rest, rfl, old⟩ | ⟨alone, rfl, rfl⟩
  · rcases recorded.standing rest j k p before old with given | ended | ⟨there, stands⟩
    · by_cases here : j = i
      · exact absurd (here ▸ given) (turn.not_served none)
      · rw [phase_moved_of_ne here]
        exact .inl given
    · exact .inr (.inl (ended.ages ages deeds))
    · rcases lives_visitor orderly turn there stands with lives | ⟨rfl, given⟩
      · rcases stands with tenant | raising
        · rcases tenant_visitor orderly.sound ages turn there tenant rest with tenant | ended
          · exact .inr (.inr ⟨lives, .inl tenant⟩)
          · exact .inr (.inl ended)
        · by_cases here : j = i
          · subst here
            rw [phase_moved_self]
            rcases turn.raised raising with still | given | ⟨n, w, -, listed, found, first⟩
            · exact .inr (.inr ⟨lives, .inr still⟩)
            · exact .inl given
            · exact .inr (.inr ⟨lives, .inl ⟨k, n, w, listed, k.isSame_refl, found, first⟩⟩)
          · rw [phase_moved_of_ne here]
            exact .inr (.inr ⟨lives, .inr raising⟩)
      · rw [phase_moved_self]
        exact .inl given
  · obtain ⟨rfl, -, -, there, ⟨-, rfl, n, w, listed, found, rfl, -⟩ | ⟨-, -, -, raising⟩⟩ :=
      turn.took_mem fits (alone ▸ List.mem_singleton_self (Deed.took j k p))
    · obtain ⟨l, same, inside⟩ := Roster.mem_of_find? listed
      exact .inr (.inr ⟨there, .inl ⟨l, n, w, inside, same, found, rfl⟩⟩)
    · rw [phase_moved_self]
      exact .inr (.inr ⟨there, .inr raising⟩)

theorem fresh_visitor (orderly : s.Orderly) (recorded : s.Recorded)
    (turn : Turn i s.hub s.holder (s.phase i) hub holder visit deeds) {since before : List (Deed η)}
    (whole : deeds ++ s.log = since ++ .took j k p :: before) : .lost p ∉ before := by
  have fits := orderly.fits i
  rcases split_cases whole (turn.single_took fits) with ⟨rest, -, old⟩ | ⟨alone, -, rfl⟩
  · exact recorded.fresh rest j k p before old
  · intro lost
    obtain ⟨known, gone⟩ := recorded.lost p lost
    obtain ⟨-, -, -, there, ⟨-, rfl, -⟩ | ⟨-, -, rfl, -⟩⟩ :=
      turn.took_mem fits (alone ▸ List.mem_singleton_self (Deed.took j k p))
    · rw [gone] at there
      cases there
    · exact Nat.lt_irrefl _ known

theorem paired_visitor (orderly : s.Orderly) (recorded : s.Recorded) (ages : s.hub.Ages hub)
    (turn : Turn i s.hub s.holder (s.phase i) hub holder visit deeds)
    {later since before : List (Deed η)} {m : Nat}
    (whole : deeds ++ s.log = later ++ .took m l q :: (since ++ .took j k p :: before))
    (same : k.isSame l = true) :
    (s.moved i hub holder visit deeds).phase j = .served none ∨
      (s.moved i hub holder visit deeds).phase m = .served none ∨ p = q ∨ hub.Ended p since := by
  have fits := orderly.fits i
  -- Whoever was given nothing stays without.
  have still {a : Nat} (given : s.phase a = .served none) :
      (s.moved i hub holder visit deeds).phase a = .served none := by
    by_cases here : a = i
    · exact absurd (here ▸ given) (turn.not_served none)
    · rw [phase_moved_of_ne here, given]
  rcases split_cases whole (turn.single_took fits) with ⟨rest, -, old⟩ | ⟨alone, -, now⟩
  · rcases recorded.paired rest m l q since j k p before old same with given | given | one | ended
    · exact .inl (still given)
    · exact .inr (.inl (still given))
    · exact .inr (.inr (.inl one))
    · exact .inr (.inr (.inr (ended.ages ages [])))
  · obtain ⟨rfl, -, idle, -, took⟩ :=
      turn.took_mem fits (alone ▸ List.mem_singleton_self (Deed.took m l q))
    rcases recorded.standing since j k p before now.symm with given | ended | ⟨-, tenant | raising⟩
    · exact .inl (still given)
    · exact .inr (.inr (.inr (ended.ages ages [])))
    · rcases took with ⟨-, -, n, w, listed, found, rfl, -⟩ | ⟨-, unlisted, -⟩
      · exact .inr (.inr (.inl (orderly.sound.eq_of_tenant tenant listed found same).symm))
      · exact absurd tenant (not_tenant unlisted same)
    -- A visitor that is starting a workspace holds the lock, so no other takes up anything.
    · obtain ⟨-, _, _, site, -⟩ := Visit.site?_of_raising? raising
      have inside := Visit.isInside_of_site? site
      have free : s.holder = none ∨ s.holder = some m := by
        rcases took with ⟨free, -⟩ | ⟨mine, -⟩
        · exact .inl free
        · exact .inr mine
      by_cases here : j = m
      · rw [here, idle] at raising
        cases raising
      · rw [orderly.alone free here] at inside
        cases inside

theorem recorded_visitor (orderly : s.Orderly) (recorded : s.Recorded)
    (turn : Turn i s.hub s.holder (s.phase i) hub holder visit deeds) :
    (s.moved i hub holder visit deeds).Recorded := by
  obtain ⟨sound, ages⟩ := turn.sound_ages orderly.sound (orderly.fits i)
  refine ⟨?_, ?_, ?_, ?_, ?_, ?_, ?_, ?_⟩
  · intro c
    exact lost_visitor recorded ages turn c
  · intro j n
    exact missed_visitor recorded orderly.sound ages turn
  · intro j k p
    exact taken_visitor recorded orderly ages sound turn
  · intro j k p
    exact raising_visitor recorded turn
  · intro j n
    exact served_visitor recorded turn
  · intro since j k p before
    exact standing_visitor orderly recorded ages turn
  · intro since j k p before
    exact fresh_visitor orderly recorded turn
  · intro later m l q since j k p before
    exact paired_visitor orderly recorded ages turn

end visitor

/-! ### What goes on outside -/

theorem recorded_outside {hub : Hub η} {deeds : List (Deed η)} (recorded : s.Recorded)
    (event : Outside s.hub hub deeds) :
    Recorded { s with hub, log := deeds ++ s.log } := by
  have fades := event.fades
  have ages := fades.ages
  obtain ⟨roster, workspaces⟩ := event.frame
  have same : ∀ n, hub.workspace? n = s.hub.workspace? n := fun n => by
    rw [workspace?, workspace?, workspaces]
  have old {deed : Deed η} (done : deed ∈ deeds ++ s.log) (other : ∀ c, deed ≠ .lost c) :
      deed ∈ s.log := by
    rcases List.mem_append.mp done with new | old
    · obtain ⟨c, is, -⟩ := event.lost_of_mem new
      exact absurd is (other c)
    · exact old
  have split {since before : List (Deed η)} {i : Nat} {k : Key} {p : Nat}
      (whole : deeds ++ s.log = since ++ .took i k p :: before) :
      ∃ rest, since = deeds ++ rest ∧ s.log = rest ++ .took i k p :: before := by
    rcases split_cases whole (fun new => by
      obtain ⟨c, other, -⟩ := event.lost_of_mem new
      cases other) with before | ⟨alone, -⟩
    · exact before
    · obtain ⟨c, other, -⟩ := event.lost_of_mem (alone ▸ List.mem_singleton_self (Deed.took i k p))
      cases other
  refine ⟨?_, ?_, ?_, ?_, ?_, ?_, ?_, ?_⟩
  · intro c lost
    rcases List.mem_append.mp lost with new | old
    · obtain ⟨d, is, known, gone⟩ := event.lost_of_mem new
      cases is
      exact ⟨known, gone⟩
    · obtain ⟨known, gone⟩ := recorded.lost c old
      refine ⟨?_, ?_⟩
      · rw [← length_stamps, fades.stamps, length_stamps]
        exact known
      · rw [Bool.eq_false_iff] at gone ⊢
        exact fun there => gone (fades.alive c there)
  · intro i n missed
    have before := old missed fun c other => by cases other
    obtain ⟨other, off, w, found, gone, due⟩ := recorded.missed i n before
    refine ⟨other, roster ▸ off, w, (same n).trans found, ?_, due⟩
    rw [Bool.eq_false_iff] at gone ⊢
    exact fun there => gone (fades.alive _ there)
  · intro i k p took
    have before := old took fun c other => by cases other
    rcases recorded.taken i k p before with given | ⟨n, w, given, found, first⟩ | raising
    · exact .inl given
    · exact .inr (.inl ⟨n, w, given, (same n).trans found, first⟩)
    · exact .inr (.inr raising)
  · intro i k p raising
    exact List.mem_append_right _ (recorded.raising i k p raising)
  · intro i n given
    obtain ⟨k, p, took⟩ := recorded.served i n given
    exact ⟨k, p, List.mem_append_right _ took⟩
  · intro since i k p before whole
    obtain ⟨rest, rfl, log⟩ := split whole
    rcases recorded.standing rest i k p before log with given | ended | ⟨there, stands⟩
    · exact .inl given
    · exact .inr (.inl (ended.ages ages deeds))
    · rcases event.lives there with lives | lost
      · refine .inr (.inr ⟨lives, stands.imp_left ?_⟩)
        rintro ⟨l, n, w, listed, alike, found, first⟩
        exact ⟨l, n, w, roster ▸ listed, alike, (same n).trans found, first⟩
      · exact .inr (.inl (.inl (List.mem_append_left _ lost)))
  · intro since i k p before whole
    obtain ⟨rest, -, log⟩ := split whole
    exact recorded.fresh rest i k p before log
  · intro later j l q since i k p before whole alike
    obtain ⟨rest, -, log⟩ := split whole
    rcases recorded.paired rest j l q since i k p before log alike with given | given | one | ended
    · exact .inl given
    · exact .inr (.inl given)
    · exact .inr (.inr (.inl one))
    · exact .inr (.inr (.inr (ended.ages ages [])))

theorem recorded_start (h : Hub η) : (start h).Recorded := by
  refine ⟨nofun, nofun, nofun, nofun, nofun, ?_, ?_, ?_⟩
  · intro since i k p before whole
    exact absurd whole.symm (by simp [start])
  · intro since i k p before whole
    exact absurd whole.symm (by simp [start])
  · intro later j l q since i k p before whole
    exact absurd whole.symm (by simp [start])

theorem recorded_of_reachable (reachable : s.Reachable) : s.Recorded := by
  obtain ⟨processId, timeout, leads⟩ := reachable
  induction leads with
  | refl => exact recorded_start _
  | @tail t u before step ih =>
      have orderly := orderly_of_reachable ⟨processId, timeout, before⟩
      cases step with
      | visitor turn => exact recorded_visitor orderly ih turn
      | outside event => exact recorded_outside ih event

/-! ### What visitors are given -/

end Lobby

/-- Whether a workspace is off the roster and none of its servers is there. -/
def Gone (h : Hub η) (n : Nat) : Prop :=
  (∀ key, (key, n) ∉ h.roster.current) ∧ ∃ w, h.workspace? n = some w ∧ w.worker = none ∧
    ∀ c, h.boardOf? c = some w.board → h.isAlive c = false

theorem Sound.gone (sound : h.Sound) {w : Workspace} (found : h.workspace? n = some w)
    (off : ∀ key, (key, n) ∉ h.roster.current) (dead : h.isAlive w.primary = false)
    (halted : w.worker = none) : h.Gone n := by
  refine ⟨off, w, found, halted, ?_⟩
  intro c known
  cases there : h.isAlive c with
  | false => rfl
  | true =>
      rcases sound.manned n w c found known there with rfl | works
      · exact there.symm.trans dead
      · rw [halted] at works
        cases works

namespace Lobby

variable {s : Lobby η}

/-- Visitors share workspaces. Deeds are listed from the last one to the first one, so what a list
of deeds stands before has been done before it. Two visitors that look up one key are given one
workspace, unless its first server has died or it has been taken off the roster to be shut down
since the first visitor took it up and before the second one was served (`same`). A visitor that is
given a workspace has taken up its first server, and looked up its key (`given`). A server that has
died is not taken up (`alive`). Nor is a workspace given to a visitor that has found its first
server gone (`refused`). A workspace whose first server was found gone is off the roster, and no
server of it is there, unless the visitor still shuts it down (`cleared`). So no server of it is
there when anybody is about to start one for a workspace (`replaced`). -/
structure Shared (s : Lobby η) : Prop where
  same : ∀ later j l q since i k p before n m,
    s.log = later ++ .took j l q :: (since ++ .took i k p :: before) → k.isSame l = true →
    s.phase i = .served (some n) → s.phase j = .served (some m) →
    n = m ∨ .lost p ∈ since ∨ ∃ visitor, .struck visitor n ∈ since
  given : ∀ i n, s.phase i = .served (some n) → ∃ k p w, .took i k p ∈ s.log ∧
    s.hub.workspace? n = some w ∧ w.primary = p ∧ w.key.isSame k = true
  alive : ∀ since i k p before, s.log = since ++ .took i k p :: before → .lost p ∉ before
  refused : ∀ i n, .missed i n ∈ s.log → s.phase i ≠ .served (some n)
  cleared : ∀ i n, .missed i n ∈ s.log → (∀ key, (key, n) ∉ s.hub.roster.current) ∧
    (s.holder = some i ∧ .halt n ∈ (s.phase i).clearance ∨ s.hub.Gone n)
  replaced : ∀ i n j site, .missed i n ∈ s.log → (s.phase j).site? = some site → s.hub.Gone n

theorem shared_of_reachable (reachable : s.Reachable) : s.Shared := by
  have orderly := orderly_of_reachable reachable
  have recorded := recorded_of_reachable reachable
  -- What a visitor was given is the workspace of the server that it took up.
  have taken {i n : Nat} {k : Key} {p : Nat} (took : .took i k p ∈ s.log)
      (given : s.phase i = .served (some n)) : ∃ w, s.hub.workspace? n = some w ∧ w.primary = p ∧
        w.key.isSame k = true := by
    rcases recorded.taken i k p took with other | ⟨m, w, same, found, first, key⟩ | raising
    · rw [given] at other
      cases other
    · rw [given] at same
      cases same
      exact ⟨w, found, first, key⟩
    · rw [given] at raising
      cases raising
  have cleared {i n : Nat} (missed : .missed i n ∈ s.log) :
      .halt n ∈ (s.phase i).clearance ∨ s.hub.Gone n := by
    obtain ⟨-, off, w, found, dead, due⟩ := recorded.missed i n missed
    exact due.imp_right fun halted => orderly.sound.gone found off dead halted
  refine ⟨?_, ?_, recorded.fresh, fun i n missed => (recorded.missed i n missed).1, ?_, ?_⟩
  · intro later j l q since i k p before n m log same first second
    have tookFirst : .took i k p ∈ s.log := by rw [log]; simp
    have tookSecond : .took j l q ∈ s.log := by rw [log]; simp
    obtain ⟨w, found, rfl, -⟩ := taken tookFirst first
    obtain ⟨w', found', rfl, -⟩ := taken tookSecond second
    rcases recorded.paired later j l _ since i k _ before log same with
      other | other | one | lost | ⟨visitor, a, v, found'', one, struck⟩
    · rw [first] at other
      cases other
    · rw [second] at other
      cases other
    · exact .inl (orderly.sound.eq_of_primary found' found one)
    · exact .inr (.inl lost)
    · obtain rfl := orderly.sound.eq_of_primary found found'' one
      exact .inr (.inr ⟨visitor, struck⟩)
  · intro i n given
    obtain ⟨k, p, took⟩ := recorded.served i n given
    obtain ⟨w, found, first, key⟩ := taken took given
    exact ⟨k, p, w, took, found, first, key⟩
  · intro i n missed
    refine ⟨(recorded.missed i n missed).2.1, (cleared missed).imp_left fun due => ⟨?_, due⟩⟩
    exact orderly.locked i (Visit.isInside_of_clearance due).1
  · intro i n j site missed has
    rcases cleared missed with due | gone
    -- A visitor that still shuts a workspace down holds the lock and has no site.
    · obtain ⟨inside, none⟩ := Visit.isInside_of_clearance due
      by_cases here : j = i
      · rw [here, none] at has
        cases has
      · have idle := orderly.alone (.inr (orderly.locked i inside)) here
        rw [Visit.isInside_of_site? has] at idle
        cases idle
    · exact gone

/-- Two visitors share a workspace; its first server dies, and a third one is given another. -/
theorem shared_mourners : ∃ s : Lobby Unit, s.Shared ∧ s.phase 0 = .served (some 0) ∧
    s.phase 1 = .served (some 0) ∧ s.phase 2 = .served (some 1) := by
  have begun := @reachable_registered Unit 1 2000 ["rs"] ⟨"server", [], [], none⟩
  obtain ⟨s₁, reach₁, hub₁, free₁, served₁, rest₁⟩ :=
    begun.more (run_workspaceFor (i := 0) (fun _ => some .start) "rs" "/w" rfl rfl)
  obtain ⟨s₂, reach₂, hub₂, free₂, served₂, rest₂⟩ := reach₁.more
    (run_workspaceFor (i := 1) (fun _ => some .start) "rs" "/w/" (rest₁ 1 (by decide)) free₁)
  have there : s₂.hub.isAlive 0 = true := by
    rw [hub₂, hub₁]
    rfl
  have absent : s₂.phase 2 = .absent := by
    rw [rest₂ 2 (by decide), rest₁ 2 (by decide)]
    rfl
  obtain ⟨s₃, reach₃, -, -, served₃, rest₃⟩ := (reach₂.outside (.died there)).more
    (run_workspaceFor (i := 2) (fun _ => some .start) "rs" "/w" absent free₂)
  refine ⟨s₃, shared_of_reachable reach₃, ?_, ?_, ?_⟩
  · rw [rest₃ 0 (by decide)]
    exact (rest₂ 0 (by decide)).trans served₁
  · rw [rest₃ 1 (by decide)]
    refine served₂.trans ?_
    rw [hub₁]
    rfl
  · refine served₃.trans ?_
    dsimp only
    rw [hub₂, hub₁]
    rfl

end Lobby

end EditorBridge.Hub
