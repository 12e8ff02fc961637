import EditorBridge.Proofs.Hub.Custody

/-!
# What visitors do to each other

What a turn of one visitor leaves alone, and what it says about the workspaces and servers that
other visitors have been given: a workspace stays on the roster and its servers stay alive unless
the visitor shuts it down, and a visitor takes up either the server on the roster or a new one.
-/

namespace EditorBridge.Hub

open Workspace (Key)

variable {η : Type} {h h' : Hub η} {i j n p : Nat} {o o' : Option Nat} {v v' : Visit η} {k : Key}
  {deeds : List (Deed η)}

theorem subscribeTo_frame (h : Hub η) (event : String) (handler : η) (n : Nat) :
    (h.subscribeTo event handler n).roster = h.roster ∧
      (h.subscribeTo event handler n).links = h.links ∧
      (h.subscribeTo event handler n).workspaces = h.workspaces := by
  rw [subscribeTo]
  cases h.workspace? n with
  | none => exact ⟨rfl, rfl, rfl⟩
  | some w =>
      dsimp only
      rw [subscribe]
      cases h.boards[w.board]? <;> exact ⟨rfl, rfl, rfl⟩

theorem Chore.roster (chore : Chore) (h : Hub η) : (chore.perform h).roster = h.roster := by
  cases chore with
  | halt n => exact (stopWorker_frame h n).1
  | leave n => exact (works_leave h n).roster

/-- Only the servers of the workspace that is shut down are stopped. -/
theorem Chore.lives (chore : Chore) (sound : h.Sound) {c : Nat} (there : h.isAlive c = true) :
    (chore.perform h).isAlive c = true ∨
      ∃ w, h.workspace? chore.workspace = some w ∧ h.boardOf? c = some w.board := by
  cases chore with
  | halt n =>
      change (h.stopWorker n).isAlive c = true ∨ ∃ w, h.workspace? n = some w ∧ _
      cases found : h.workspace? n with
      | none => exact .inl (by rw [stopWorker_of_none found, there])
      | some w =>
          rw [isAlive_stopWorker found, there, Bool.true_and, bne_iff_ne]
          by_cases here : w.worker = some c
          · exact .inr ⟨w, rfl, sound.worker n w c found here⟩
          · exact .inl here
  | leave n =>
      change (h.leave n).isAlive c = true ∨ ∃ w, h.workspace? n = some w ∧ _
      rw [Hub.leave]
      cases found : h.workspace? n with
      | none => exact .inl there
      | some w =>
          rw [isAlive_shutdownChannel, there, Bool.true_and, bne_iff_ne]
          by_cases here : w.primary = c
          · exact .inr ⟨w, rfl, here ▸ sound.primary n w found⟩
          · exact .inl here

/-- To start a server puts an end to no other. -/
theorem startChannel_frame {launch : Launch → Option Channel.Outlet} {spec : ServerSpec}
    {root : String} {board : Nat} {result : Option Nat}
    (done : h.startChannel launch spec root board = (h', result)) :
    h'.roster = h.roster ∧ h'.tables = h.tables ∧
      ∀ c, h.isAlive c = true → h'.isAlive c = true := by
  obtain ⟨more, hires, -, alive⟩ := startChannel_hires done
  exact ⟨hires.roster, hires.tables, fun c there => (alive c (lt_of_isAlive there)).trans there⟩

namespace Turn

/-- A workspace stays on the roster unless its first server is gone or it is shut down. -/
theorem stays (turn : Turn i h o v h' o' v' deeds) (sound : h.Sound)
    (listed : (k, n) ∈ h.roster.current) (running : h.isRunning n = true) :
    (k, n) ∈ h'.roster.current ∨ .struck i n ∈ deeds := by
  -- The one that is taken off for a key is the one that is found for it.
  have strike {key : Key} {m : Nat} (found : h.roster.find? key = some m) :
      (k, n) ∈ (h.roster.strike key).current ∨ n = m := by
    cases same : k.isSame key with
    | true => exact .inr (Roster.eq_of_find? sound.keys found listed same)
    | false => exact .inl (Roster.mem_strike.mpr ⟨listed, same⟩)
  cases turn with
  | missed found gone =>
      rcases strike found with stays | rfl
      · exact .inl stays
      · rw [running] at gone
        cases gone
  | struck found =>
      rcases strike found with stays | rfl
      · exact .inl stays
      · exact .inr (List.mem_singleton_self _)
  | emptied all order =>
      refine .inr (List.mem_map.mpr ⟨n, order.mem_iff.mpr ?_, rfl⟩)
      exact List.mem_map.mpr ⟨_, listed, rfl⟩
  | clear chore => exact .inl (chore.roster h ▸ listed)
  | close chore => exact .inl (chore.roster h ▸ listed)
  | started launch done => exact .inl ((startChannel_frame done).1 ▸ listed)
  | failed launch done => exact .inl ((startChannel_frame done).1 ▸ listed)
  | paired launch done => exact .inl ((startChannel_frame done).1 ▸ listed)
  | unpaired launch done =>
      rw [(works_stopChannel _ _).roster, (startChannel_frame done).1]
      exact .inl listed
  | entered => exact .inl (List.mem_append_left _ listed)
  | spread => exact .inl ((subscribeTo_frame h _ _ _).1 ▸ listed)
  | _ => exact .inl listed

/-- A server outlives what a visitor does, unless it belongs to a workspace that is off the roster,
or to one that the visitor could not start. -/
theorem lives (turn : Turn i h o v h' o' v' deeds) (sound : h.Sound) (fits : v.Fits h) {c : Nat}
    (there : h.isAlive c = true) :
    h'.isAlive c = true ∨
      (∃ n w, h.workspace? n = some w ∧ h.boardOf? c = some w.board ∧
        ∀ key, (key, n) ∉ h.roster.current) ∨
      (∃ key, v.raising? = some (key, c)) ∧ v' = .served none := by
  have chores (chore : Chore) (inside : chore ∈ v.chores) :
      (chore.perform h).isAlive c = true ∨ ∃ n w, h.workspace? n = some w ∧
        h.boardOf? c = some w.board ∧ ∀ key, (key, n) ∉ h.roster.current := by
    rcases chore.lives sound there with stays | ⟨w, found, known⟩
    · exact .inl stays
    · exact .inr ⟨_, w, found, known, (fits.chores chore inside).2⟩
  cases turn with
  | clear chore rest =>
      rcases chores chore List.mem_cons_self with stays | off
      · exact .inl stays
      · exact .inr (.inl off)
  | close chore rest =>
      rcases chores chore List.mem_cons_self with stays | off
      · exact .inl stays
      · exact .inr (.inl off)
  | started launch done => exact .inl ((startChannel_frame done).2.2 c there)
  | failed launch done => exact .inl ((startChannel_frame done).2.2 c there)
  | paired launch done => exact .inl ((startChannel_frame done).2.2 c there)
  | @unpaired _ key spec board primary launch done =>
      rw [isAlive_stopChannel, (startChannel_frame done).2.2 c there, Bool.true_and, bne_iff_ne]
      by_cases here : primary = c
      · exact .inr (.inr ⟨⟨key, by rw [← here]; rfl⟩, rfl⟩)
      · exact .inl here
  | spread => exact .inl ((isAlive_of_links (subscribeTo_frame h _ _ _).2.1 c).trans there)
  | _ => exact .inl there

/-- A visitor that has been served moves no more. -/
theorem not_served (turn : Turn i h o v h' o' v' deeds) (m : Option Nat) : v ≠ .served m := by
  rintro rfl
  cases turn

/-- A visitor is given a workspace from the roster, or a new one. -/
theorem served (turn : Turn i h o v h' o' v' deeds) (given : v' = .served (some n)) :
    (∃ key, (key, n) ∈ h.roster.current) ∨ h.workspaces.length ≤ n := by
  cases turn with
  | found listed =>
      cases given
      obtain ⟨key, -, inside⟩ := Roster.mem_of_find? listed
      exact .inl ⟨key, inside⟩
  | entered =>
      cases given
      exact .inr (Nat.le_refl _)
  | _ => cases given

/-- The worker of a workspace that is replaced is stopped in the end. -/
theorem halts (turn : Turn i h o v h' o' v' deeds) (due : .halt n ∈ v.clearance) {w : Workspace}
    (found : h'.workspace? n = some w) : .halt n ∈ v'.clearance ∨ w.worker = none := by
  cases turn with
  | clear chore rest =>
      rcases List.mem_cons.mp due with rfl | later
      · refine .inr ?_
        change (h.stopWorker n).workspace? n = some w at found
        cases before : h.workspace? n with
        | none =>
            rw [stopWorker_of_none before, before] at found
            cases found
        | some u =>
            rw [workspace?_stopWorker before, if_pos rfl] at found
            rw [← Option.some.inj found]
            rfl
      · exact .inl later
  | _ => cases due

/-- A visitor that finds a workspace whose first server is gone takes it off the roster and shuts it
down. -/
theorem missed_mem (turn : Turn i h o v h' o' v' deeds) (sound : h.Sound)
    (missed : .missed j n ∈ deeds) :
    j = i ∧ .halt n ∈ v'.clearance ∧ (∀ m, v' ≠ .served m) ∧
      (∀ key, (key, n) ∉ h'.roster.current) ∧
      ∃ w, h'.workspace? n = some w ∧ h'.isAlive w.primary = false := by
  cases turn with
  | missed listed gone =>
      obtain ⟨rfl, rfl⟩ := Deed.missed.inj (List.mem_singleton.mp missed)
      obtain ⟨key, -, inside⟩ := Roster.mem_of_find? listed
      obtain ⟨w, found, -⟩ := sound.listed key _ inside
      refine ⟨rfl, List.mem_cons_self, nofun, sound.off_strike listed, w, found, ?_⟩
      rw [isRunning, found] at gone
      exact gone
  | emptied =>
      obtain ⟨m, -, other⟩ := List.mem_map.mp missed
      cases other
  | _ => simp at missed

/-- The server that a visitor takes up is the one of the workspace on the roster, or it is new and
there is no workspace on the roster. -/
theorem took_mem (turn : Turn i h o v h' o' v' deeds) (fits : v.Fits h)
    (took : .took j k p ∈ deeds) :
    j = i ∧ deeds = [.took i k p] ∧ v.raising? = none ∧ h'.isAlive p = true ∧
      ((o = none ∧ h' = h ∧ ∃ n w, h.roster.find? k = some n ∧ h.workspace? n = some w ∧
          w.primary = p ∧ v' = .served (some n)) ∨
        o = some i ∧ h.roster.find? k = none ∧ p = h.links.length ∧ v'.raising? = some (k, p)) := by
  cases turn with
  | found listed workspace there =>
      obtain ⟨rfl, rfl, rfl⟩ := Deed.took.inj (List.mem_singleton.mp took)
      exact ⟨rfl, rfl, rfl, there, .inl ⟨rfl, rfl, _, _, listed, workspace, rfl, rfl⟩⟩
  | started launch done =>
      obtain ⟨rfl, rfl, rfl⟩ := Deed.took.inj (List.mem_singleton.mp took)
      obtain ⟨new, -, alive⟩ := startChannel_some done
      refine ⟨rfl, rfl, rfl, by rw [alive, if_pos rfl], .inr ⟨rfl, ?_, new, rfl⟩⟩
      exact fits.vacant k rfl
  | emptied =>
      obtain ⟨m, -, other⟩ := List.mem_map.mp took
      cases other
  | _ => simp at took

theorem single_took (turn : Turn i h o v h' o' v' deeds) (fits : v.Fits h)
    (took : .took j k p ∈ deeds) : deeds = [.took j k p] := by
  obtain ⟨rfl, alone, -⟩ := turn.took_mem fits took
  exact alone

/-- What becomes of a first server that a visitor has started. -/
theorem raised (turn : Turn i h o v h' o' v' deeds) (raising : v.raising? = some (k, p)) :
    v'.raising? = some (k, p) ∨ v' = .served none ∨
      ∃ n w, v' = .served (some n) ∧ (k, n) ∈ h'.roster.current ∧ h'.workspace? n = some w ∧
        w.primary = p := by
  cases turn with
  | paired => exact .inl raising
  | unpaired => exact .inr (.inl rfl)
  | entered =>
      obtain ⟨rfl, rfl⟩ := Prod.mk.inj (Option.some.inj raising)
      refine .inr (.inr ⟨_, _, rfl, ?_, (workspace?_enlist h _ _ _ _ _ _).trans (if_pos rfl), rfl⟩)
      exact List.mem_append_right _ (List.mem_singleton_self _)
  | _ => cases raising

/-- Whoever has a first server has taken it up. -/
theorem took_of_raising (turn : Turn i h o v h' o' v' deeds) (raising : v'.raising? = some (k, p)) :
    v.raising? = some (k, p) ∨ .took i k p ∈ deeds := by
  cases turn with
  | started =>
      obtain ⟨rfl, rfl⟩ := Prod.mk.inj (Option.some.inj raising)
      exact .inr (List.mem_singleton_self _)
  | paired => exact .inl raising
  | _ => cases raising

theorem took_of_served (turn : Turn i h o v h' o' v' deeds) (given : v' = .served (some n)) :
    (∃ k p, v.raising? = some (k, p)) ∨ ∃ k p, .took i k p ∈ deeds := by
  cases turn with
  | found => exact .inr ⟨_, _, List.mem_singleton_self _⟩
  | entered => exact .inl ⟨_, _, rfl⟩
  | _ => cases given

theorem lost_notMem (turn : Turn i h o v h' o' v' deeds) (c : Nat) : .lost c ∉ deeds := by
  intro lost
  cases turn with
  | emptied =>
      obtain ⟨m, -, other⟩ := List.mem_map.mp lost
      cases other
  | _ => simp at lost

end Turn

namespace Outside

theorem frame (event : Outside h h' deeds) : h'.roster.current = h.roster.current ∧
    h'.workspaces = h.workspaces := by
  cases event with
  | registered exts spec => exact ⟨rfl, rfl⟩
  | heard c a => exact ⟨congrArg _ (works_arrive h c a).roster, (works_arrive h c a).workspaces⟩
  | died => exact ⟨congrArg _ (works_vanish h _).roster, (works_vanish h _).workspaces⟩
  | ended => exact ⟨congrArg _ (works_arrive h _ _).roster, (works_arrive h _ _).workspaces⟩

/-- Only the death of a server is a deed of nobody. -/
theorem lost_of_mem (event : Outside h h' deeds) {deed : Deed η} (done : deed ∈ deeds) :
    ∃ c, deed = .lost c ∧ c < h'.links.length ∧ h'.isAlive c = false := by
  have dead {g : Hub η} {c : Nat} (fades : h.Fades g) (there : h.isAlive c = true)
      (gone : g.isAlive c = false) (only : deed ∈ [.lost c]) :
      ∃ c, deed = .lost c ∧ c < g.links.length ∧ g.isAlive c = false := by
    refine ⟨c, List.mem_singleton.mp only, ?_, gone⟩
    rw [← length_stamps, fades.stamps, length_stamps]
    exact lt_of_isAlive there
  cases event with
  | registered => cases done
  | heard => cases done
  | died there =>
      exact dead (works_vanish h _).fades there (by simp [isAlive_vanish]) done
  | ended there =>
      exact dead (works_arrive h _ _).fades there (by simp [isAlive_arrive_ended]) done

theorem lives (event : Outside h h' deeds) (there : h.isAlive p = true) :
    h'.isAlive p = true ∨ .lost p ∈ deeds := by
  cases event with
  | registered => exact .inl there
  | heard c a same =>
      by_cases here : c = p
      · subst here
        exact .inl (same.trans there)
      · refine .inl ?_
        rw [arrive, isAlive_onChannel, if_neg here, there]
  | @died c =>
      by_cases here : c = p
      · exact .inr (by rw [here]; exact List.mem_singleton_self _)
      · exact .inl (by rw [isAlive_vanish, there, bne_iff_ne.mpr here]; rfl)
  | @ended c =>
      by_cases here : c = p
      · exact .inr (by rw [here]; exact List.mem_singleton_self _)
      · exact .inl (by rw [isAlive_arrive_ended, there, bne_iff_ne.mpr here]; rfl)

end Outside

end EditorBridge.Hub
