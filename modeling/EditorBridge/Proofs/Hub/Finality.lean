import EditorBridge.Proofs.Hub.Relief

/-!
# How final a shutdown is

A workspace is shut down while its worker is being started anew. The shutdown empties the place of
the worker once, and the restart fills it without asking whether the workspace has been shut down.
When all have returned, every server has been stopped but the one that a restart has put into the
place last (`left_iff`). So a restart that was under way when the workspace was shut down may leave
a server behind (`not_final_overtaken`).
-/

namespace EditorBridge.Hub.Relief

variable {η : Type} {s t : Relief η} {h h' : Hub η} {n : Nat} {key : Workspace.Key}
  {spec : ServerSpec} {launch : Launch → Option Channel.Outlet}

/-- Nobody has got any further than to come if nothing has happened to the place of the worker. -/
def Untouched (s : Relief η) : Prop :=
  s.log = [] → ∀ phase ∈ s.callers, ∃ wish, phase = .asking wish

theorem Untouched.of_caller {i : Nat} {phase : Phase} (untouched : Untouched s)
    (caller : s.callers[i]? = some phase) (further : ∀ wish, phase ≠ .asking wish) :
    s.log ≠ [] := by
  intro nothing
  obtain ⟨wish, same⟩ := untouched nothing phase (List.mem_of_getElem? caller)
  exact further wish same

theorem untouched_step (untouched : Untouched s) (step : Step n s t) : Untouched t := by
  cases step with
  | come wish =>
      intro nothing phase inside
      rcases List.mem_append.mp inside with old | new
      · exact untouched nothing phase old
      · exact ⟨wish, List.mem_singleton.mp new⟩
  | take caller taken => exact nofun
  | dismiss caller => exact fun nothing => absurd nothing (untouched.of_caller caller nofun)
  | hire launch caller found done =>
      exact fun nothing => absurd nothing (untouched.of_caller caller nofun)
  | place caller put => exact nofun
  | relieve caller => exact fun nothing => absurd nothing (untouched.of_caller caller nofun)
  | leave caller => exact fun nothing => absurd nothing (untouched.of_caller caller nofun)
  | elsewhere => exact untouched

theorem untouched_of_reachable (reach : Reachable n h s) : Untouched s := by
  induction reach with
  | refl => exact fun _ => nofun
  | tail _ step ih => exact untouched_step ih step

/-- When all callers have returned, and one has shut the workspace down, a server has not been
stopped if and only if it is the last thing that has happened to the place of the worker that the
server was put there. -/
theorem left_iff (sound : h.Sound) (started : h.startWorkspace launch key spec = (h', some n))
    (reach : Reachable n h' s) (idle : s.IsIdle) (shut : .shut ∈ s.callers) :
    ∃ w, s.hub.workspace? n = some w ∧ ∀ c, s.hub.boardOf? c = some w.board →
      (c ∉ s.stopped ↔ ∃ i, s.log.head? = some (.filled i c)) ∧
        (c ∈ s.stopped → s.hub.isAlive c = false) := by
  obtain ⟨primary, first, board, -, ⟨w, found, -, rfl, -⟩, lead, books, leads⟩ :=
    kept_of_reachable sound started reach
  obtain ⟨rfl, -⟩ := leads.resolve_left fun led => led.2 shut
  rw [hands_of_idle idle, List.nil_append] at books
  have touched : s.log ≠ [] := by
    obtain ⟨i, caller⟩ := List.mem_iff_getElem?.mp shut
    exact (untouched_of_reachable reach).of_caller caller nofun
  have inPlace (c : Nat) : c ∈ (occupant first s.log).toList ↔
      ∃ i, s.log.head? = some (.filled i c) := by
    rcases log : s.log with _ | ⟨_ | ⟨i, d⟩, earlier⟩
    · exact absurd log touched
    · simp [occupant]
    · simp [occupant, eq_comm]
  refine ⟨w, found, fun c belongs => ⟨?_, fun counted => books.gone c counted belongs⟩⟩
  rw [← inPlace]
  exact ⟨fun left => (books.all c belongs).resolve_right left, books.kept c⟩

/-- A restart that has filled the place when the workspace is shut down. -/
def inTime : Relief Unit :=
  play (fun _ => some .start) 0 fresh [.restart, .shutDown] [0, 0, 0, 0, 1, 1, 1, 0]

/-- A restart that has emptied the place when the workspace is shut down, and fills it
afterwards. -/
def overtaken : Relief Unit :=
  play (fun _ => some .start) 0 fresh [.restart, .shutDown] [0, 0, 1, 1, 1, 0, 0, 0]

theorem left_inTime : Reachable 0 fresh inTime ∧ inTime.callers = [.restarted 2, .shut] ∧
    ∀ c, inTime.hub.boardOf? c = some 0 → inTime.hub.isAlive c = false := by
  have reach : Reachable 0 fresh inTime := reachable_play ..
  have callers : inTime.callers = [.restarted 2, .shut] := rfl
  obtain ⟨w, found, left⟩ := left_iff (sound_start 1 2000) startWorkspace_fresh reach
    (isIdle_of_callers callers rfl) (callers ▸ List.mem_cons_of_mem _ List.mem_cons_self)
  have board : (inTime.hub.workspace? 0).map Workspace.board = some 0 := rfl
  rw [found] at board
  have last : inTime.log.head? = some (.vacated 1) := rfl
  refine ⟨reach, callers, fun c belongs => ?_⟩
  obtain ⟨filled, gone⟩ := left c (belongs.trans board.symm)
  refine gone (Classical.byContradiction fun unstopped => ?_)
  obtain ⟨i, there⟩ := filled.mp unstopped
  rw [last] at there
  cases there

/-- A shutdown is not final: a server may be running when it has returned, and with it every restart
that was under way. -/
theorem not_final_overtaken :
    ¬ ∀ s : Relief Unit, Reachable 0 fresh s → s.IsIdle → .shut ∈ s.callers →
      (∀ (i c : Nat), s.callers[i]? = some (.restarted c) → ∃ j : Nat,
        s.callers[j]? = some .shut ∧ [Posting.vacated j, .vacated i].Sublist s.log) →
      ∀ c, s.hub.boardOf? c = some 0 → s.hub.isAlive c = false := by
  intro final
  have callers : overtaken.callers = [.restarted 2, .shut] := rfl
  have log : overtaken.log = [.filled 0 2, .vacated 1, .vacated 0] := rfl
  have running : overtaken.hub.isAlive 2 = true := rfl
  have idle := isIdle_of_callers callers rfl
  rw [final overtaken (reachable_play ..) idle ?_ ?_ 2 rfl] at running
  · cases running
  · exact callers ▸ List.mem_cons_of_mem _ List.mem_cons_self
  · rintro i c there
    refine ⟨1, rfl, ?_⟩
    have first : i = 0 := by
      rw [callers] at there
      match i with
      | 0 => rfl
      | 1 => cases there
    rw [first, log]
    exact .cons _ (.refl _)

end EditorBridge.Hub.Relief
