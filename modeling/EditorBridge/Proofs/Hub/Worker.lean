import EditorBridge.Proofs.Hub.Custody

/-!
# Workers that are started anew

To start a worker anew is to stop the one that is there, to start a server on the subscriptions of
the workspace, and to note what has come of it (`restartWorker_of_found`). The hub stays in good
order (`Sound.restartWorker`): the new server raises the events of the workspace that it works for,
and the old one is gone.
-/

namespace EditorBridge.Hub

variable {η : Type} {h h' : Hub η} {n : Nat} {w : Workspace} {result : Option Nat}
  {launch : Launch → Option Channel.Outlet}

theorem setWorkspace_self (found : h.workspace? n = some w) : h.setWorkspace n w = h := by
  obtain ⟨inside, rfl⟩ := List.getElem?_eq_some_iff.mp found
  rw [setWorkspace, List.set_getElem_self]

/-- The server that has come of the start is the worker, and there is no worker if none has. -/
theorem restartWorker_of_found (found : h.workspace? n = some w)
    (done : (h.stopWorker n).startChannel launch w.spec w.key.root w.board = (h', result)) :
    h.restartWorker launch n = (h'.setWorkspace n { w with worker := result }, result.isSome) := by
  have idle : h'.workspace? n = some w.takeWorker.1 := by
    obtain ⟨more, hires, -⟩ := startChannel_hires done
    rw [workspace?, hires.workspaces]
    exact (workspace?_stopWorker found n).trans (if_pos rfl)
  rw [restartWorker, found]
  dsimp only
  rw [done]
  cases result with
  | none => exact congrArg (·, false) (setWorkspace_self idle).symm
  | some c =>
      dsimp only
      rw [putWorker, idle]
      rfl

/-- When a server has been started for a workspace without a worker, no others of its servers are
there but that one and the first one. -/
theorem Sound.manned_startChannel (sound : h.Sound) (found : h.workspace? n = some w)
    (idle : w.worker = none)
    (done : h.startChannel launch w.spec w.key.root w.board = (h', result))
    {c : Nat} (known : h'.boardOf? c = some w.board) (there : h'.isAlive c = true) :
    c = w.primary ∨ result = some c := by
  obtain ⟨more, hires, alike, alive⟩ := startChannel_hires done
  rcases hires.boardOf? (fun stamp new => (alike stamp new).2.2) known with old | ⟨-, beyond⟩
  · have lived : h.isAlive c = true := (alive c (lt_of_boardOf? old)).symm.trans there
    rcases sound.manned n w c found old lived with first | second
    · exact .inl first
    · rw [idle] at second
      cases second
  · have unknown : h.isAlive c ≠ true := fun lived =>
      Nat.not_lt_of_le beyond (lt_of_isAlive lived)
    cases result with
    | none => exact absurd ((startChannel_none done).2 c ▸ there) unknown
    | some d =>
        obtain ⟨-, -, only⟩ := startChannel_some done
        rw [only] at there
        by_cases here : d = c
        · exact .inr (congrArg some here)
        · rw [if_neg here] at there
          exact absurd there unknown

/-- A workspace without a worker may be given one that raises its events. -/
theorem Sound.hireWorker (sound : h.Sound) (found : h.workspace? n = some w)
    (idle : w.worker = none)
    (done : h.startChannel launch w.spec w.key.root w.board = (h', result)) :
    (h'.setWorkspace n { w with worker := result }).Sound := by
  obtain ⟨more, hires, alike, alive⟩ := startChannel_hires done
  have still : ∀ c < h.links.length, h'.isAlive c = true → h.isAlive c = true :=
    fun c old there => (alive c old).symm.trans there
  have ages := hires.ages still
  have boards : ∀ stamp ∈ more, stamp.2 = w.board := fun stamp new => (alike stamp new).2.2
  have same : ∀ m, h'.workspace? m = h.workspace? m := fun m => by
    rw [workspace?, workspace?, hires.workspaces]
  have changed : ∀ m, (h'.setWorkspace n { w with worker := result }).workspace? m =
      if n = m then some { w with worker := result } else h.workspace? m := fun m => by
    rw [workspace?_setWorkspace _ ((same n).trans found), same]
  have cases : ∀ m v, (h'.setWorkspace n { w with worker := result }).workspace? m = some v →
      m = n ∧ v = { w with worker := result } ∨ m ≠ n ∧ h.workspace? m = some v := by
    intro m v after
    rw [changed] at after
    split at after
    · next here => exact .inl ⟨here.symm, (Option.some.inj after).symm⟩
    · next apart => exact .inr ⟨Ne.symm apart, after⟩
  refine ⟨?_, ?_, ?_, ?_, ?_, ?_, hires.roster ▸ sound.keys⟩
  · intro c b known
    refine Nat.lt_of_lt_of_le ?_ ages.boards
    rcases hires.boardOf? boards known with old | ⟨rfl, -⟩
    · exact sound.opened c b old
    · exact sound.opened _ _ (sound.primary n w found)
  · intro m v after
    rcases cases m v after with ⟨rfl, rfl⟩ | ⟨-, old⟩
    · exact ages.boardOf? (sound.primary m w found)
    · exact ages.boardOf? (sound.primary m v old)
  · intro m v c after works
    rcases cases m v after with ⟨rfl, rfl⟩ | ⟨-, old⟩
    · obtain rfl : result = some c := works
      have raises := boardOf?_startChannel done
      exact raises
    · exact ages.boardOf? (sound.worker m v c old works)
  · intro m k v u after other alikeBoards
    rcases cases m v after with ⟨rfl, rfl⟩ | ⟨-, old⟩ <;>
      rcases cases k u other with ⟨rfl, rfl⟩ | ⟨-, old'⟩
    · rfl
    · exact sound.apart m k w u found old' alikeBoards
    · exact sound.apart m k v w old found alikeBoards
    · exact sound.apart m k v u old old' alikeBoards
  · intro m v c after known there
    rcases cases m v after with ⟨rfl, rfl⟩ | ⟨apart, old⟩
    · exact sound.manned_startChannel found idle done known there
    · rcases hires.boardOf? boards known with before | ⟨here, -⟩
      · exact sound.manned m v c old before (still c (lt_of_boardOf? before) there)
      · exact absurd (sound.apart m n v w old found here) apart
  · intro key m listed
    obtain ⟨v, old, named⟩ := sound.listed key m (hires.roster ▸ listed)
    by_cases here : n = m
    · subst here
      obtain rfl := Option.some.inj (found.symm.trans old)
      exact ⟨_, (changed n).trans (if_pos rfl), named⟩
    · exact ⟨v, (changed m).trans ((if_neg here).trans old), named⟩

/-- The hub stays in good order when a worker is started anew. -/
theorem Sound.restartWorker (sound : h.Sound) (launch : Launch → Option Channel.Outlet) (n : Nat) :
    (h.restartWorker launch n).1.Sound := by
  cases found : h.workspace? n with
  | none => rw [Hub.restartWorker, found]; exact sound
  | some w =>
      rcases done : (h.stopWorker n).startChannel launch w.spec w.key.root w.board with ⟨g, result⟩
      rw [restartWorker_of_found found done]
      have idle : (h.stopWorker n).workspace? n = some w.takeWorker.1 :=
        (workspace?_stopWorker found n).trans (if_pos rfl)
      have hired := (sound.fades (fades_stopWorker h n)).hireWorker idle rfl done
      exact hired

end EditorBridge.Hub
